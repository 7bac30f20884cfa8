import FieldTrace.Proofs.Declarations
import FieldTrace.Proofs.OverloadSelection
import FieldTrace.Proofs.Positions
import FieldTrace.Proofs.Recording
import Mathlib.Data.List.Flatten

/-! # Every call is recorded once

A method body is read in preorder. Each named invocation gives one call site, each creation of a
declared type that has a constructor for as many arguments gives another, and no other node gives
any (`Usage.Records`). What typing remembers on the way plays no part in this. No two methods have
one identity, so the calls that are filed with a method are those of its body, and all calls are
those of the methods one after the other. -/

namespace FieldTrace

open Syntax

/-! ### The nodes that call -/

/-- The nodes of the arguments of an invocation or creation. -/
def Syntax.Tree.arguments (t : Tree) : List Tree :=
  match t.child? .arguments with
  | some args => args.namedChildren.filter (fun a => !a.kind.isComment)
  | none => []

theorem Typing.map_node_arguments (c : Cursor) :
    (arguments c).map Cursor.node = c.node.arguments := by
  unfold arguments Tree.arguments
  rw [← c.map_node_child?]
  cases c.child? .arguments with
  | none => rfl
  | some args =>
    dsimp only [Option.map_some]
    rw [← args.map_node_namedChildren, List.filter_map]
    rfl

/-- The constructors that a creation can mean: those of the created type, if it is declared, that
take as many arguments. -/
def applicableConstructors (types : TypeTable) (names : NameScope) (t : Tree) : List MethodDecl :=
  match (t.child? .type).bind (fun typeNode => types.get? (names.typeRef typeNode).name) with
  | some d => d.methods.filter (fun m => m.isConstructor && m.takes t.arguments.length)
  | none => []

/-- Is the node an invocation with a name, or a creation with an applicable constructor? -/
def isCall (types : TypeTable) (names : NameScope) (t : Tree) : Bool :=
  match t.kind with
  | .methodInvocation => (t.child? .name).isSome
  | .objectCreation => !(applicableConstructors types names t).isEmpty
  | _ => false

namespace CallSite

/-- The call site stands for a node of a method body: an invocation is recorded by its name and the
place of the name, a creation as a call of one of the applicable constructors. -/
inductive StandsFor (types : TypeTable) (b : MethodBody) : Tree → CallSite → Prop where
  | invocation {t n : Tree} {site : CallSite} (hkind : t.kind = .methodInvocation)
      (hnode : t.child? .name = some n) (henclosing : site.enclosing = b.decl.id)
      (hname : site.name = b.names.text n) (hlocation : site.location = b.names.file.locate n) :
      StandsFor types b t site
  | creation {t typeNode : Tree} {target : MethodDecl} (hkind : t.kind = .objectCreation)
      (htype : t.child? .type = some typeNode)
      (htarget : target ∈ applicableConstructors types b.names t) :
      StandsFor types b t {
        enclosing := b.decl.id, name := constructorName, location := b.names.file.locate t,
        receiver := {
          kind := .type, text := b.names.text typeNode,
          staticType := some (b.names.typeRef typeNode).name },
        resolved := some target.id }

end CallSite

/-! ### Reading a body -/

namespace Usage

/-- The calls among the usages stand one by one for the calling nodes. -/
def Records (types : TypeTable) (b : MethodBody) (ts : List Tree) (us : List Usage) : Prop :=
  List.Forall₂ (CallSite.StandsFor types b) (ts.filter (isCall types b.names)) (us.filterMap call?)

namespace Records

variable {types : TypeTable} {b : MethodBody}

theorem append {ts ts' : List Tree} {us us' : List Usage} (h : Records types b ts us)
    (h' : Records types b ts' us') : Records types b (ts ++ ts') (us ++ us') := by
  rw [Records, List.filter_append, List.filterMap_append]
  exact List.rel_append h h'

/-- A node that does not call, and usages that are no calls. -/
theorem none {t : Tree} {us : List Usage} (ht : isCall types b.names t = false)
    (hus : ∀ u ∈ us, u.call? = Option.none) : Records types b [t] us := by
  have hfilter : [t].filter (isCall types b.names) = [] := by
    rw [List.filter_singleton, ht]
    rfl
  rw [Records, hfilter, List.filterMap_eq_nil_iff.2 hus]
  exact .nil

theorem one {t : Tree} {site : CallSite} (ht : isCall types b.names t = true)
    (hsite : site.StandsFor types b t) : Records types b [t] [call site] := by
  have hfilter : [t].filter (isCall types b.names) = [t] := by
    rw [List.filter_singleton, ht]
    rfl
  rw [Records, hfilter]
  exact .cons hsite .nil

end Records

/-- The scope is that of the method body. -/
structure ScopeOf (types : TypeTable) (b : MethodBody) (s : MethodScope) : Prop where
  types : s.types = types
  decl : s.decl = b.decl
  names : s.names = b.names

section

variable {types : TypeTable} {b : MethodBody} {s : MethodScope}

theorem Finds.mono {α : Type} {P Q : α → Prop} {x : StateM TypingState α} (hx : Finds s P x)
    (h : ∀ v, P v → Q v) : Finds s Q x :=
  fun st hst => (hx st hst).imp id (h _)

theorem Finds.mapM_length {α β : Type} {f : β → StateM TypingState α}
    (hf : ∀ x, Finds s (fun _ => True) (f x)) (xs : List β) :
    Finds s (fun ys => ys.length = xs.length) (xs.mapM f) := by
  induction xs with
  | nil => exact .pure rfl
  | cons x xs ih =>
    rw [List.mapM_cons]
    refine (hf x).bind (fun y _ => ih.bind (fun ys hys => .pure ?_))
    rw [List.length_cons, List.length_cons, hys]

theorem records_ofInvocation (hs : ScopeOf types b s) {c : Cursor}
    (hkind : c.kind = .methodInvocation) :
    Finds s (Records types b [c.node]) (ofInvocation s c) := by
  have hkind' : c.node.kind = .methodInvocation := hkind
  refine (Finds.callAt c).bind (fun r _ => ?_)
  have hnode := c.map_node_child? .name
  cases hname : c.child? .name with
  | none =>
    rw [hname] at hnode
    refine .pure (.none ?_ (by rintro u ⟨⟩))
    rw [isCall, hkind', ← hnode]
    rfl
  | some n =>
    rw [hname] at hnode
    refine (Finds.mapM finds_argument _).bind (fun args _ => .pure (.one ?_ ?_))
    · rw [isCall, hkind', ← hnode]
      rfl
    · refine .invocation hkind' hnode.symm ?_ ?_ ?_
      · rw [hs.decl]
      · rw [MethodScope.text, hs.names]
      · rw [hs.names]

theorem records_ofCreation (hs : ScopeOf types b s) {c : Cursor}
    (hkind : c.kind = .objectCreation) :
    Finds s (Records types b [c.node]) (ofCreation s c) := by
  have hkind' : c.node.kind = .objectCreation := hkind
  have hquiet : applicableConstructors types b.names c.node = [] →
      Finds s (Records types b [c.node]) (pure []) := by
    intro happlicable
    refine .pure (.none ?_ (by rintro u ⟨⟩))
    rw [isCall, hkind', happlicable]
    rfl
  unfold ofCreation
  cases htype : c.node.child? .type with
  | none =>
    apply hquiet
    rw [applicableConstructors, htype]
    rfl
  | some typeNode =>
    dsimp only
    rw [hs.types, hs.names]
    cases hd : types.get? (b.names.typeRef typeNode).name with
    | none =>
      apply hquiet
      rw [applicableConstructors, htype, Option.bind_some, hd]
    | some d =>
      have happlicable : applicableConstructors types b.names c.node =
          d.methods.filter (fun m => m.isConstructor && m.takes c.node.arguments.length) := by
        rw [applicableConstructors, htype, Option.bind_some, hd]
      -- the overload is chosen among as many argument types as the node has arguments
      have hlength : (Typing.arguments c).length = c.node.arguments.length := by
        rw [← Typing.map_node_arguments, List.length_map]
      refine (Finds.mapM_length Finds.typeAt _).bind (fun argTypes hargs => ?_)
      rw [hlength] at hargs
      cases hselect : selectOverload (d.methods.filter MethodDecl.isConstructor) argTypes with
      | none =>
        apply hquiet
        rw [happlicable, List.filter_eq_nil_iff]
        intro m hm hboth
        obtain ⟨hconstructor, htakes⟩ := Bool.and_eq_true_iff.1 hboth
        have hnone := selectOverload_eq_none_iff.1 hselect m (List.mem_filter.2 ⟨hm, hconstructor⟩)
        rw [hargs, htakes] at hnone
        cases hnone
      | some target =>
        have htarget : target ∈ applicableConstructors types b.names c.node := by
          obtain ⟨hm, hconstructor⟩ := List.mem_filter.1 (mem_of_selectOverload hselect)
          have htakes := takes_of_selectOverload hselect
          rw [hargs] at htakes
          rw [happlicable]
          exact List.mem_filter.2 ⟨hm, Bool.and_eq_true_iff.2 ⟨hconstructor, htakes⟩⟩
        refine .pure (.one ?_ ?_)
        · rw [isCall, hkind']
          dsimp only
          rw [List.isEmpty_eq_false_iff.2 (List.ne_nil_of_mem htarget)]
          rfl
        · rw [hs.decl, MethodScope.text, hs.names]
          exact .creation hkind' htype htarget

/-- The usages are no calls. -/
def NoCalls (us : List Usage) : Prop := ∀ u ∈ us, u.call? = Option.none

theorem noCalls_ofIdentifier (v : Visit) : NoCalls (ofIdentifier s v) := by
  unfold ofIdentifier
  dsimp only
  split
  · split
    · exact fun u hu => List.mem_singleton.1 hu ▸ rfl
    · rintro u ⟨⟩
  · rintro u ⟨⟩

theorem noCalls_ofAccess (c : Cursor) : Finds s NoCalls (ofAccess s c) := by
  have hnil : Finds s NoCalls (pure []) := .pure (by rintro u ⟨⟩)
  unfold ofAccess
  split
  · split
    · refine (Finds.typeAt _).bind (fun ref _ => ?_)
      split
      · split
        · exact .pure (fun u hu => List.mem_singleton.1 hu ▸ rfl)
        · exact hnil
      · exact hnil
    · exact hnil
  · exact hnil

theorem noCalls_ofMethodReference (c : Cursor) : Finds s NoCalls (ofMethodReference s c) := by
  have hnil : Finds s NoCalls (pure []) := .pure (by rintro u ⟨⟩)
  have hmap : ∀ (ms : List MethodDecl) (place : Reference),
      NoCalls (ms.map (fun m => methodReference m.id place)) := by
    intro ms place u hu
    obtain ⟨m, -, rfl⟩ := List.mem_map.1 hu
    rfl
  unfold ofMethodReference
  split
  · split
    · split
      · exact .bind (P := fun _ => True) (.pure trivial) (fun ref _ => .pure (hmap _ _))
      · exact (Finds.typeAt _).bind (fun ref _ => .pure (hmap _ _))
    · exact hnil
  · exact hnil

/-- One node of the walk. -/
theorem records_ofVisit (hs : ScopeOf types b s) (v : Visit) :
    Finds s (Records types b [v.cursor.node]) (ofVisit s v) := by
  have hother : v.cursor.kind ≠ .methodInvocation → v.cursor.kind ≠ .objectCreation →
      ∀ us, NoCalls us → Records types b [v.cursor.node] us := by
    intro hinvocation hcreation us hus
    refine .none ?_ hus
    unfold isCall
    split
    next hkind => exact absurd hkind hinvocation
    next hkind => exact absurd hkind hcreation
    next => rfl
  unfold ofVisit
  split
  next hkind => exact records_ofInvocation hs hkind
  next hkind => exact records_ofCreation hs hkind
  next hkind => exact .pure (hother (by simp [hkind]) (by simp [hkind]) _ (noCalls_ofIdentifier v))
  next hkind =>
    exact Finds.mono (noCalls_ofAccess v.cursor) (hother (by simp [hkind]) (by simp [hkind]))
  next hkind =>
    exact Finds.mono (noCalls_ofMethodReference v.cursor)
      (hother (by simp [hkind]) (by simp [hkind]))
  next hinvocation hcreation _ _ _ =>
    exact .pure (hother hinvocation hcreation _ (by rintro u ⟨⟩))

/-- A run of the walk. -/
theorem records_along (hs : ScopeOf types b s) (vs : List Visit) :
    Finds s (Records types b (vs.map (fun v => v.cursor.node))) (along s vs) := by
  induction vs with
  | nil => exact .pure .nil
  | cons v vs ih =>
    refine (records_ofVisit hs v).bind (fun first hfirst => ?_)
    exact ih.bind (fun rest hrest => .pure (hfirst.append hrest))

/-- The calls of a body stand for the calling nodes of its tree in preorder. -/
theorem records_ofBody {body : Tree} (hbody : b.node.child? .body = some body) :
    Records types b body.preorder (ofBody types b) := by
  let scope : MethodScope := {
    decl := b.decl, names := b.names, types := types, node := b.node, body := body,
    locals := Locals.ofMethod b.names b.decl b.node body }
  have hscope : MethodScope.ofBody? types b = some scope := by
    rw [MethodScope.ofBody?, hbody]
    rfl
  have hdeclared : scope.initialState.Declared types := by rintro path r ⟨⟩
  rw [ofBody, hscope, ← map_node_visits b.node body]
  exact (records_along (s := scope) ⟨rfl, rfl, rfl⟩ _ _ hdeclared).2

end

end Usage

/-! ### The calls of an index -/

/-- Of lists that belong to different owners, put together, the part of one owner is its list. -/
theorem filter_flatMap_of_owner {α β κ : Type} [DecidableEq κ] {key : α → κ} {owner : β → κ}
    {f : α → List β} {as : List α} (howner : ∀ a ∈ as, ∀ x ∈ f a, owner x = key a)
    (hkeys : (as.map key).Nodup) {a : α} (ha : a ∈ as) :
    (as.flatMap f).filter (fun x => owner x = key a) = f a := by
  induction as with
  | nil => cases ha
  | cons b bs ih =>
    obtain ⟨hb, hbs⟩ := List.forall_mem_cons.1 howner
    rw [List.map_cons, List.nodup_cons] at hkeys
    obtain ⟨hfresh, hkeys⟩ := hkeys
    rw [List.flatMap_cons, List.filter_append]
    obtain rfl | ha := List.mem_cons.1 ha
    · have hself : (f a).filter (fun x => owner x = key a) = f a :=
        List.filter_eq_self.2 (fun x hx => decide_eq_true (hb x hx))
      have hrest : (bs.flatMap f).filter (fun x => owner x = key a) = [] := by
        rw [List.filter_eq_nil_iff]
        intro x hx hkey
        obtain ⟨c, hc, hx⟩ := List.mem_flatMap.1 hx
        have heq : key c = key a := (hbs c hc x hx).symm.trans (of_decide_eq_true hkey)
        exact hfresh (List.mem_map.2 ⟨c, hc, heq⟩)
      rw [hself, hrest, List.append_nil]
    · have hfirst : (f b).filter (fun x => owner x = key a) = [] := by
        rw [List.filter_eq_nil_iff]
        intro x hx hkey
        have heq : key a = key b := (of_decide_eq_true hkey).symm.trans (hb x hx)
        exact hfresh (List.mem_map.2 ⟨a, ha, heq⟩)
      rw [hfirst, List.nil_append]
      exact ih hbs hkeys ha

/-- Elements that contribute nothing may be left out. -/
theorem flatMap_filter_of_nil {α β : Type} {p : α → Bool} {f : α → List β} {as : List α}
    (h : ∀ a ∈ as, p a = false → f a = []) : (as.filter p).flatMap f = as.flatMap f := by
  induction as with
  | nil => rfl
  | cons a as ih =>
    obtain ⟨ha, has⟩ := List.forall_mem_cons.1 h
    rw [List.filter_cons, List.flatMap_cons, ← ih has]
    split
    next => rw [List.flatMap_cons]
    next hp => rw [ha (eq_false_of_ne_true hp), List.nil_append]

namespace Index

/-- All declared methods with their nodes, whether or not they have a body. -/
def methodBodies (reg : Registry) : List MethodBody :=
  reg.types.values.flatMap (fun r => (Declare.methodsOf reg r).map
    (fun m => { decl := m.1, node := m.2, names := Declare.scopeOf reg r }))

theorem mem_methodBodies_iff {reg : Registry} {b : MethodBody} :
    b ∈ methodBodies reg ↔ ∃ r ∈ reg.types.values,
      Declare.Declares reg r b.node b.decl ∧ b.names = Declare.scopeOf reg r := by
  rw [methodBodies, List.mem_flatMap]
  refine exists_congr (fun r => and_congr_right (fun _ => ?_))
  rw [List.mem_map, ← Declare.mem_methodsOf_iff]
  constructor
  · rintro ⟨m, hm, rfl⟩
    exact ⟨hm, rfl⟩
  · rintro ⟨hm, hnames⟩
    exact ⟨_, hm, by rw [← hnames]⟩

/-- The bodies to be read are those of all methods that have one. -/
theorem bodies_eq_filter (reg : Registry) :
    bodies reg = (methodBodies reg).filter (fun b => (b.node.child? .body).isSome) := by
  rw [bodies, methodBodies, List.filter_flatMap]
  congr 1
  funext r
  rw [Declare.bodiesOf, List.filter_map]
  rfl

section

variable (files : List SourceFile) (skipped : List String)

theorem entries_methods_ofFiles :
    (ofFiles files skipped).methods.entries =
      ((declare (Registry.ofFiles files)).types.values.flatMap TypeDecl.methods).map
        (fun m => (m.id, m)) := by
  rw [(declared_ofFiles files skipped).2.1]
  exact entries_methods_declare (Registry.wellNamed_ofFiles files)

theorem nodup_keys_methods : (ofFiles files skipped).methods.keys.Nodup := by
  have hkeyed : (declare (Registry.ofFiles files)).methods.Keyed (fun m d => d.id = m) :=
    .foldl_insertNew (fun _ _ => rfl) Table.keyed_empty
  rw [(declared_ofFiles files skipped).2.1]
  exact hkeyed.nodup

/-- Methods are filed type by type, in the order of their declaration. -/
theorem decls_methodBodies :
    (methodBodies (Registry.ofFiles files)).map MethodBody.decl =
      (declare (Registry.ofFiles files)).types.values.flatMap TypeDecl.methods := by
  rw [methodBodies, values_types_declare, List.map_flatMap, List.flatMap_map]
  congr 1
  funext r
  exact List.map_map

theorem keys_methods_ofFiles :
    (ofFiles files skipped).methods.keys =
      (methodBodies (Registry.ofFiles files)).map (fun b => b.decl.id) := by
  rw [Table.keys, entries_methods_ofFiles, ← decls_methodBodies, List.map_map, List.map_map]
  rfl

theorem method_of_mem_values {d : MethodDecl}
    (hd : d ∈ (declare (Registry.ofFiles files)).types.values.flatMap TypeDecl.methods) :
    (ofFiles files skipped).method d.id = some d := by
  have hentry : (d.id, d) ∈ (ofFiles files skipped).methods.entries := by
    rw [entries_methods_ofFiles]
    exact List.mem_map.2 ⟨d, hd, rfl⟩
  have hkeyed : (ofFiles files skipped).methods.Keyed (fun _ _ => True) :=
    ⟨nodup_keys_methods files skipped, fun _ _ => trivial⟩
  exact hkeyed.get?_of_mem hentry

theorem method_of_mem_methodBodies {b : MethodBody}
    (hb : b ∈ methodBodies (Registry.ofFiles files)) :
    (ofFiles files skipped).method b.decl.id = some b.decl := by
  apply method_of_mem_values
  rw [← decls_methodBodies]
  exact List.mem_map_of_mem hb

theorem exists_mem_methodBodies {m : MethodId} {d : MethodDecl}
    (h : (ofFiles files skipped).method m = some d) :
    ∃ b ∈ methodBodies (Registry.ofFiles files), b.decl = d := by
  have hentry := Table.mem_entries_of_getFrom h
  rw [entries_methods_ofFiles, ← decls_methodBodies] at hentry
  obtain ⟨_, hd, heq⟩ := List.mem_map.1 hentry
  cases heq
  exact List.mem_map.1 hd

/-- The calls that a method makes. -/
def callsOf (b : MethodBody) : List CallSite :=
  (Usage.ofBody (ofFiles files skipped).types b).filterMap Usage.call?

/-- A method without a body makes no calls. -/
theorem callsOf_of_no_body {b : MethodBody} (h : b.node.child? .body = none) :
    callsOf files skipped b = [] := by
  rw [callsOf, Usage.ofBody, MethodScope.ofBody?, h]
  rfl

theorem calls_eq_flatMap :
    (ofFiles files skipped).calls =
      (methodBodies (Registry.ofFiles files)).flatMap (callsOf files skipped) := by
  have hbodies : (ofFiles files skipped).calls =
      (bodies (Registry.ofFiles files)).flatMap (callsOf files skipped) := by
    rw [calls_ofFiles, usages, List.filterMap_flatMap]
    unfold callsOf
    rw [(declared_ofFiles files skipped).1]
  rw [hbodies, bodies_eq_filter]
  refine flatMap_filter_of_nil (fun b _ hb => callsOf_of_no_body files skipped ?_)
  rwa [Option.isSome_eq_false_iff, Option.isNone_iff_eq_none] at hb

theorem enclosing_of_mem_callsOf {b : MethodBody} {c : CallSite}
    (hc : c ∈ callsOf files skipped b) : c.enclosing = b.decl.id := by
  obtain ⟨u, hu, hcall⟩ := List.mem_filterMap.1 hc
  have henclosing := (Usage.valid_of_mem_ofBody hu).1
  cases u with
  | call site =>
    cases hcall
    exact Option.some.inj henclosing
  | field | methodReference => cases hcall

/-- The calls that are filed with a method are those that it makes. -/
theorem callsIn_of_mem_methodBodies {b : MethodBody}
    (hb : b ∈ methodBodies (Registry.ofFiles files)) :
    (ofFiles files skipped).callsIn b.decl.id = callsOf files skipped b := by
  have hkeys := nodup_keys_methods files skipped
  rw [keys_methods_ofFiles] at hkeys
  rw [callsIn_eq_filter, calls_eq_flatMap]
  exact filter_flatMap_of_owner (fun _ _ _ hc => enclosing_of_mem_callsOf files skipped hc) hkeys hb

/-- No calls are filed with what is not declared. -/
theorem callsIn_of_undeclared {m : MethodId} (h : (ofFiles files skipped).method m = none) :
    (ofFiles files skipped).callsIn m = [] := by
  rw [callsIn_eq_filter, calls_eq_flatMap, List.filter_eq_nil_iff]
  intro c hc henclosing
  obtain ⟨b, hb, hc⟩ := List.mem_flatMap.1 hc
  have hmethod := method_of_mem_methodBodies files skipped hb
  rw [← enclosing_of_mem_callsOf files skipped hc, of_decide_eq_true henclosing, h] at hmethod
  cases hmethod

/-- No call is lost or recorded twice. A method is declared by the first member of a registered type
that has its identity. If it has a body, its calls stand one by one, in preorder of the body's tree,
for the invocations with a name and the creations with an applicable constructor, and for nothing
else; without a body it has no calls, and neither has what is not declared. All calls are the calls
of the methods one after the other, type by type in the order of declaration. -/
theorem calls_recorded_once :
    (∀ r ∈ (Registry.ofFiles files).types.values, ∀ t d,
      Declare.Declares (.ofFiles files) r t d →
        (ofFiles files skipped).method d.id = some d ∧
        (∀ body, t.child? .body = some body →
          List.Forall₂ (CallSite.StandsFor (ofFiles files skipped).types
              { decl := d, node := t, names := Declare.scopeOf (.ofFiles files) r })
            (body.preorder.filter
              (isCall (ofFiles files skipped).types (Declare.scopeOf (.ofFiles files) r)))
            ((ofFiles files skipped).callsIn d.id)) ∧
        (t.child? .body = none → (ofFiles files skipped).callsIn d.id = [])) ∧
    (∀ m, (ofFiles files skipped).method m = none → (ofFiles files skipped).callsIn m = []) ∧
    (∀ m d, (ofFiles files skipped).method m = some d → d.id = m ∧
      ∃ r ∈ (Registry.ofFiles files).types.values, ∃ t, Declare.Declares (.ofFiles files) r t d) ∧
    (ofFiles files skipped).methods.keys = (Registry.ofFiles files).types.values.flatMap
      (fun r => distinct ((Declare.members r.node).filterMap
        (fun t => (Declare.methodAt (.ofFiles files) r t).map MethodDecl.id))) ∧
    (ofFiles files skipped).methods.keys.Nodup ∧
    (ofFiles files skipped).calls =
      (ofFiles files skipped).methods.keys.flatMap (ofFiles files skipped).callsIn := by
  refine ⟨fun r hr t d hd => ?_, fun m => callsIn_of_undeclared files skipped, fun m d hm => ?_, ?_,
    nodup_keys_methods files skipped, ?_⟩
  · have hb := mem_methodBodies_iff (b := ⟨d, t, Declare.scopeOf (.ofFiles files) r⟩).2
      ⟨r, hr, hd, rfl⟩
    have hcalls := callsIn_of_mem_methodBodies files skipped hb
    refine ⟨method_of_mem_methodBodies files skipped hb, fun body hbody => ?_, fun hbody => ?_⟩
    · rw [hcalls]
      exact Usage.records_ofBody hbody
    · exact hcalls.trans (callsOf_of_no_body files skipped hbody)
  · obtain ⟨b, hb, rfl⟩ := exists_mem_methodBodies files skipped hm
    obtain ⟨r, hr, hd, -⟩ := mem_methodBodies_iff.1 hb
    exact ⟨id_of_method hm, r, hr, b.node, hd⟩
  · rw [keys_methods_ofFiles, methodBodies, List.map_flatMap]
    congr 1
    funext r
    rw [← Declare.ids_methodsOf, List.map_map]
    rfl
  · rw [calls_eq_flatMap, keys_methods_ofFiles, List.flatMap_map]
    apply List.flatMap_congr
    intro b hb
    exact (callsIn_of_mem_methodBodies files skipped hb).symm

end

end Index

namespace Errand

/-- A class with a constructor, and a method that creates an instance inside a lambda inside a
call. -/
def lines : List String := [
  "class Job \x7b Job(int n) \x7b \x7d\n",
  "int go(int n) \x7b return n; \x7d\n",
  "void run() \x7b go(() -> new Job(go(1))); new Job(); \x7d \x7d\n"]

/-- The lines with their parse tree. -/
def file : SourceFile where
  path := "Job.java"
  bytes := (lines.flatMap (fun l => l.toUTF8.data.toList)).toArray
  tree := .node (.other "program") .none 0 109 [
    .node .classDeclaration .none 0 108 [
      .node .identifier .name 6 9 [],
      .node (.other "class_body") .body 10 108 [
        .node .constructorDeclaration .none 12 26 [
          .node .identifier .name 12 15 [],
          .node (.other "formal_parameters") .parameters 15 22 [
            .node .formalParameter .none 16 21 [
              .node (.other "integral_type") .type 16 19 [],
              .node .identifier .name 20 21 []]],
          .node (.other "constructor_body") .body 23 26 []],
        .node .methodDeclaration .none 27 54 [
          .node (.other "integral_type") .type 27 30 [],
          .node .identifier .name 31 33 [],
          .node (.other "formal_parameters") .parameters 33 40 [
            .node .formalParameter .none 34 39 [
              .node (.other "integral_type") .type 34 37 [],
              .node .identifier .name 38 39 []]],
          .node (.other "block") .body 41 54 [
            .node (.other "return_statement") .none 43 52 [.node .identifier .none 50 51 []]]],
        .node .methodDeclaration .none 55 106 [
          .node (.other "void_type") .type 55 59 [],
          .node .identifier .name 60 63 [],
          .node (.other "formal_parameters") .parameters 63 65 [],
          .node (.other "block") .body 66 106 [
            .node (.other "expression_statement") .none 68 93 [
              .node .methodInvocation .none 68 92 [
                .node .identifier .name 68 70 [],
                .node (.other "argument_list") .arguments 70 92 [
                  .node .lambda .none 71 91 [
                    .node (.other "formal_parameters") .parameters 71 73 [],
                    .node .objectCreation .body 77 91 [
                      .node .typeIdentifier .type 81 84 [],
                      .node (.other "argument_list") .arguments 84 91 [
                        .node .methodInvocation .none 85 90 [
                          .node .identifier .name 85 87 [],
                          .node (.other "argument_list") .arguments 87 90 [
                            .node (.other "decimal_integer_literal") .none 88 89 []]]]]]]]],
            .node (.other "expression_statement") .none 94 104 [
              .node .objectCreation .none 94 103 [
                .node .typeIdentifier .type 98 101 [],
                .node (.other "argument_list") .arguments 101 103 []]]]]]]]

def run : MethodId := ⟨"Job", "run", []⟩

end Errand

set_option maxRecDepth 100000 in
/-- The lambda hides no call: the creation and the call in its argument are recorded after the call
around them. The creation without arguments has no constructor and is left out. -/
theorem calls_recorded_once_errand :
    ∃ r ∈ (Registry.ofFiles [Errand.file]).types.values, ∃ t d body,
      Declare.Declares (.ofFiles [Errand.file]) r t d ∧ d.id = Errand.run ∧
      t.child? .body = some body ∧
      List.Forall₂ (CallSite.StandsFor (Index.ofFiles [Errand.file] []).types
          { decl := d, node := t, names := Declare.scopeOf (.ofFiles [Errand.file]) r })
        (body.preorder.filter (isCall (Index.ofFiles [Errand.file] []).types
          (Declare.scopeOf (.ofFiles [Errand.file]) r)))
        ((Index.ofFiles [Errand.file] []).callsIn Errand.run) ∧
      ((Index.ofFiles [Errand.file] []).callsIn Errand.run).map CallSite.name =
        ["go", "<init>", "go"] := by
  have hbody : ∃ b ∈ Index.methodBodies (Registry.ofFiles [Errand.file]), b.decl.id = Errand.run ∧
      (b.node.child? .body).isSome = true := by
    decide +kernel
  obtain ⟨b, hb, hid, hbody⟩ := hbody
  obtain ⟨body, hbody⟩ := Option.isSome_iff_exists.1 hbody
  obtain ⟨r, hr, hd, -⟩ := Index.mem_methodBodies_iff.1 hb
  obtain ⟨-, hcalls, -⟩ := (Index.calls_recorded_once [Errand.file] []).1 r hr b.node b.decl hd
  have hstands := hcalls body hbody
  rw [hid] at hstands
  exact ⟨r, hr, b.node, b.decl, body, hd, hid, hbody, hstands, by decide +kernel⟩

end FieldTrace
