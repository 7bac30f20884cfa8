import FieldTrace.Proofs.Positions
import FieldTrace.Proofs.TypingEnds

/-! # Typing without memory

The types of expressions by plain recursion: nothing is remembered, and nothing marks what is being
typed (`Typing.plainType`). Such a recursion ends as long as no local leads back to itself through
initial values (`MethodScope.NoCycles`): then no expression leads back to itself
(`not_leads_self`), and any two numbers of steps that are large enough give the same type. -/

namespace FieldTrace

open Syntax

/-! ### The plain recursion -/

namespace Typing

variable (s : MethodScope) (typeOf : Cursor → Option TypeRef)

/-- The type of a local. -/
def plainLocalType (l : Local) : Option TypeRef :=
  match l.known with
  | some ref => some ref
  | none =>
    match l.typeNode.filter (fun t => s.text t ≠ "var") with
    | some t => some (s.names.typeRef t)
    | none =>
      match l.value with
      | none => none
      | some v => if l.iterates then elementOf (typeOf v) else typeOf v

/-- The target and the receiver of a call on a receiver expression. -/
def plainExplicit (obj : Cursor) (name : String) (args : List (Option TypeRef)) :
    Option MethodDecl × Receiver :=
  let inner := if obj.kind = .methodInvocation then obj.child? .object else none
  let receiver : Receiver := {
    kind := receiverKind obj (typeOf obj)
    text := s.text obj.node
    staticType := (typeOf obj).map TypeRef.name
    callName :=
      if obj.kind = .methodInvocation then (obj.child? .name).map (fun n => s.text n.node) else none
    callReceiverText := inner.map (fun o => s.text o.node)
    callReceiverType := (inner.bind typeOf).map TypeRef.name }
  ((receiver.staticType.filter s.types.contains).bind (fun t => s.types.lookupMethod t name args),
    receiver)

/-- The target, the receiver and the arguments of a call. -/
def plainCall (c : Cursor) : CallResolution :=
  let name := match c.child? .name with
    | some n => s.text n.node
    | none => ""
  let argTypes := (arguments c).map typeOf
  let found := match c.child? .object with
    | none => resolveImplicit s name argTypes
    | some obj => plainExplicit s typeOf obj name argTypes
  { target := found.1, receiver := found.2, arguments := arguments c }

/-- The type of an expression from the types of other expressions. -/
def plainStep (c : Cursor) : Option TypeRef :=
  match c.kind with
  | .identifier =>
    match s.lookup (s.text c.node) c.node.start with
    | some (_, l) => plainLocalType s typeOf l
    | none => nameType s (s.text c.node)
  | .this => some { name := s.owner }
  | .super =>
    (s.types.get? s.owner).bind (fun d => d.supertypes.head?.map (fun n => { name := n }))
  | .fieldAccess =>
    match c.child? .object, c.child? .field with
    | some obj, some member =>
      if member.kind = .this then some { name := s.names.qualify (s.text obj.node) }
      else memberType s c.node member.node (typeOf obj)
    | _, _ => none
  | .methodInvocation => (plainCall s typeOf c).target.bind MethodDecl.returnType
  | .objectCreation => (c.node.child? .type).map s.names.typeRef
  | .castExpression => (c.node.child? .type).map s.names.typeRef
  | .parenthesized => (c.namedChildren.find? (fun d => !d.kind.isComment)).bind typeOf
  | .stringLiteral => some { name := "String" }
  | .trueLiteral => some { name := "boolean" }
  | .falseLiteral => some { name := "boolean" }
  | .arrayAccess => (c.child? .array).bind (fun array => elementOf (typeOf array))
  | .ternary => (c.child? .consequence).bind typeOf
  | .assignment => (c.child? .left).bind typeOf
  | _ => none

/-- The type of an expression by plain recursion, in at most `steps` nested steps. -/
def plainType : Nat → Cursor → Option TypeRef
  | 0, _ => none
  | steps + 1, c => plainStep s (plainType steps) c

end Typing

/-! ### What an expression leads to -/

/-- The node lies strictly below another one. -/
def Syntax.Cursor.Below (c d : Cursor) : Prop :=
  Relation.TransGen (fun c d : Cursor => d ∈ c.children) c d

namespace Syntax.Cursor

variable {c d : Cursor}

theorem Below.size_lt (h : c.Below d) : d.node.size < c.node.size := by
  induction h with
  | single h => exact size_lt_of_mem_children h
  | tail _ h ih => exact Nat.lt_trans (size_lt_of_mem_children h) ih

theorem Below.at {root : Tree} (h : c.Below d) (hc : c.At root) : d.At root := by
  induction h with
  | single h => exact hc.of_mem_children h
  | tail _ h ih => exact ih.of_mem_children h

theorem Below.nodes_subset (h : c.Below d) : d.node.nodes ⊆ c.node.nodes := by
  induction h with
  | single h => exact nodes_subset_of_mem_children h
  | tail _ h ih => exact List.Subset.trans (nodes_subset_of_mem_children h) ih

theorem below_of_child? {r : Role} (h : c.child? r = some d) : c.Below d :=
  .single (mem_children_of_child? h)

theorem below_of_mem_arguments (h : d ∈ Typing.arguments c) : c.Below d := by
  unfold Typing.arguments at h
  split at h
  next args hargs =>
    exact (below_of_child? hargs).tail (mem_children_of_namedChildren (List.mem_filter.1 h).1)
  next => cases h

end Syntax.Cursor

namespace Typing

/-- The parts of an expression that its type may be found from. The name of a method or of a member
is none of them, nor is the condition of a choice. -/
inductive Part (c : Cursor) : Cursor → Prop where
  | object {d : Cursor} (hkind : c.kind = .fieldAccess) (h : c.child? .object = some d) : Part c d
  | argument {d : Cursor} (hkind : c.kind = .methodInvocation) (h : d ∈ arguments c) : Part c d
  | receiver {d : Cursor} (hkind : c.kind = .methodInvocation) (h : c.child? .object = some d) :
      Part c d
  | inside {d : Cursor} (hkind : c.kind = .parenthesized)
      (h : c.namedChildren.find? (fun d => !d.kind.isComment) = some d) : Part c d
  | array {d : Cursor} (hkind : c.kind = .arrayAccess) (h : c.child? .array = some d) : Part c d
  | branch {d : Cursor} (hkind : c.kind = .ternary) (h : c.child? .consequence = some d) : Part c d
  | left {d : Cursor} (hkind : c.kind = .assignment) (h : c.child? .left = some d) : Part c d

variable {c d : Cursor}

theorem Part.below (h : Part c d) : c.Below d := by
  cases h with
  | argument _ h => exact Cursor.below_of_mem_arguments h
  | inside _ h =>
    exact .single (Cursor.mem_children_of_namedChildren (List.mem_of_find?_eq_some h))
  | object _ h => exact Cursor.below_of_child? h
  | receiver _ h => exact Cursor.below_of_child? h
  | array _ h => exact Cursor.below_of_child? h
  | branch _ h => exact Cursor.below_of_child? h
  | left _ h => exact Cursor.below_of_child? h

theorem mem_nodes_of_parts (h : Relation.ReflTransGen Part c d) : d.node ∈ c.node.nodes := by
  have hsub : d.node.nodes ⊆ c.node.nodes := by
    induction h with
    | refl => exact List.Subset.refl _
    | tail _ h ih => exact List.Subset.trans h.below.nodes_subset ih
  exact hsub d.node.self_mem_nodes

end Typing

namespace MethodScope

variable (s : MethodScope)

/-- The initial value that a local has its type from, if its type is neither known nor written. -/
def inferredFrom? (l : Local) : Option Cursor :=
  match l.known, l.typeNode.filter (fun t => s.text t ≠ "var") with
  | none, none => l.value
  | _, _ => none

/-- The node is a name that means a local. -/
def Means (t : Tree) (i : Nat) (l : Local) : Prop :=
  t.kind = .identifier ∧ s.lookup (s.text t) t.start = some (i, l)

/-- A name for the local occurs in the expression where its type matters. -/
def Mentions (c : Cursor) (i : Nat) : Prop :=
  ∃ d l, Relation.ReflTransGen Typing.Part c d ∧ s.Means d.node i l

/-- The first local has its type from an initial value that mentions the second. -/
def Refers (i j : Nat) : Prop :=
  ∃ l v, s.locals[i]? = some l ∧ s.inferredFrom? l = some v ∧ s.Mentions v j

/-- No local refers back to itself, be it through other locals. -/
def NoCycles : Prop := ∀ i, ¬ Relation.TransGen s.Refers i i

/-- Typing an expression may lead to its parts, and from the name of a local to its value. -/
inductive Leads : Cursor → Cursor → Prop where
  | part {c d : Cursor} (h : Typing.Part c d) : Leads c d
  | value {c v : Cursor} {i : Nat} {l : Local} (hmeans : s.Means c.node i l)
      (hvalue : s.inferredFrom? l = some v) : Leads c v

abbrev Reaches : Cursor → Cursor → Prop := Relation.ReflTransGen s.Leads

variable {s}

theorem Means.getElem? {t : Tree} {i : Nat} {l : Local} (h : s.Means t i l) :
    s.locals[i]? = some l :=
  s.getElem?_of_lookup h.2

theorem Mentions.of_parts {c d : Cursor} {i : Nat} (h : s.Mentions d i)
    (hparts : Relation.ReflTransGen Typing.Part c d) : s.Mentions c i := by
  obtain ⟨e, l, he, hmeans⟩ := h
  exact ⟨e, l, hparts.trans he, hmeans⟩

theorem leads_of_parts {c d : Cursor} (h : Relation.TransGen Typing.Part c d) :
    Relation.TransGen s.Leads c d := by
  induction h with
  | single h => exact .single (.part h)
  | tail _ h ih => exact ih.tail (.part h)

theorem value_of_inferredFrom? {l : Local} {v : Cursor} (h : s.inferredFrom? l = some v) :
    l.value = some v := by
  unfold inferredFrom? at h
  split at h
  · exact h
  · cases h

/-- An expression leads to its own parts, and through locals that refer to one another to the parts
of their values. -/
theorem leads_cases {c d : Cursor} (h : Relation.TransGen s.Leads c d) :
    (d.node.size < c.node.size ∧ Relation.ReflTransGen Typing.Part c d) ∨
      ∃ i j l v, s.Mentions c i ∧ Relation.ReflTransGen s.Refers i j ∧
        s.locals[j]? = some l ∧ s.inferredFrom? l = some v ∧
        Relation.ReflTransGen Typing.Part v d := by
  induction h with
  | @single d h =>
    cases h with
    | part h => exact .inl ⟨h.below.size_lt, .single h⟩
    | @value i l hmeans hvalue =>
      exact .inr ⟨i, i, l, d, ⟨c, l, .refl, hmeans⟩, .refl, hmeans.getElem?, hvalue, .refl⟩
  | @tail d e _ h ih =>
    cases h with
    | part h =>
      have hlt := h.below.size_lt
      obtain ⟨hlt', hparts⟩ | ⟨i, j, l, v, hi, hij, hl, hv, hparts⟩ := ih
      · exact .inl ⟨Nat.lt_trans hlt hlt', hparts.tail h⟩
      · exact .inr ⟨i, j, l, v, hi, hij, hl, hv, hparts.tail h⟩
    | @value k l hmeans hvalue =>
      have hmentions : s.Mentions d k := ⟨d, l, .refl, hmeans⟩
      obtain ⟨-, hparts⟩ | ⟨i, j, l', v', hi, hij, hl, hv, hparts⟩ := ih
      · exact .inr ⟨k, k, l, e, hmentions.of_parts hparts, .refl, hmeans.getElem?, hvalue, .refl⟩
      · -- the name occurs in the value of the last local on the way, which so refers to its local
        have hjk : s.Refers j k := ⟨l', v', hl, hv, hmentions.of_parts hparts⟩
        exact .inr ⟨i, k, l, e, hi, hij.tail hjk, hmeans.getElem?, hvalue, .refl⟩

/-- Where no local refers back to itself, no expression leads back to itself. -/
theorem NoCycles.not_leads_self (h : s.NoCycles) (c : Cursor) :
    ¬ Relation.TransGen s.Leads c c := by
  intro hself
  obtain ⟨hlt, -⟩ | ⟨i, j, l, v, hi, hij, hl, hv, hparts⟩ := leads_cases hself
  · exact Nat.lt_irrefl _ hlt
  · have hji : s.Refers j i := ⟨l, v, hl, hv, hi.of_parts hparts⟩
    exact h i (.tail' hij hji)

/-- No name that the expression leads to means one of some locals. -/
def Clear (s : MethodScope) (locals : List Nat) (c : Cursor) : Prop :=
  ∀ i ∈ locals, ∀ d l, s.Reaches c d → ¬ s.Means d.node i l

namespace Clear

variable {locals : List Nat} {c d : Cursor}

theorem nil (c : Cursor) : s.Clear [] c := by rintro i ⟨⟩

theorem reaches (h : s.Clear locals c) (hd : s.Reaches c d) : s.Clear locals d :=
  fun i hi e l he => h i hi e l (hd.trans he)

theorem notMem (h : s.Clear locals c) {i : Nat} {l : Local} (hmeans : s.Means c.node i l) :
    i ∉ locals :=
  fun hi => h i hi c l .refl hmeans

/-- From the value of a local its name is not met again. -/
theorem value (h : s.Clear locals c) (hnc : s.NoCycles) {i : Nat} {l : Local} {v : Cursor}
    (hmeans : s.Means c.node i l) (hvalue : s.inferredFrom? l = some v) :
    s.Clear (i :: locals) v := by
  intro k hk d l' hd hmeans'
  obtain rfl | hk := List.mem_cons.1 hk
  · cases hmeans.getElem?.symm.trans hmeans'.getElem?
    exact hnc.not_leads_self v (.tail' hd (.value hmeans' hvalue))
  · exact h k hk d l' (.head (.value hmeans hvalue) hd) hmeans'

end Clear

end MethodScope

/-! ### Enough steps -/

namespace Typing

variable {s : MethodScope} {f g : Cursor → Option TypeRef}

theorem plainLocalType_congr {l : Local} (h : ∀ v, s.inferredFrom? l = some v → f v = g v) :
    plainLocalType s f l = plainLocalType s g l := by
  unfold plainLocalType
  unfold MethodScope.inferredFrom? at h
  cases hknown : l.known with
  | some ref => rfl
  | none =>
    cases htype : l.typeNode.filter (fun t => s.text t ≠ "var") with
    | some t => rfl
    | none =>
      rw [hknown, htype] at h
      dsimp only at h ⊢
      cases hvalue : l.value with
      | none => rfl
      | some v =>
        dsimp only
        rw [h v hvalue]

theorem plainExplicit_congr {obj : Cursor} (hobj : f obj = g obj)
    (hinner : ∀ d, Part obj d → f d = g d) (name : String) (args : List (Option TypeRef)) :
    plainExplicit s f obj name args = plainExplicit s g obj name args := by
  have hbind : (if obj.kind = .methodInvocation then obj.child? .object else none).bind f =
      (if obj.kind = .methodInvocation then obj.child? .object else none).bind g := by
    split
    next hkind =>
      cases ho : obj.child? .object with
      | none => rfl
      | some o => exact hinner o (.receiver hkind ho)
    next => rfl
  simp only [plainExplicit, hobj, hbind]

theorem plainCall_congr {c : Cursor} (hkind : c.kind = .methodInvocation)
    (h : ∀ d, Relation.TransGen Part c d → f d = g d) : plainCall s f c = plainCall s g c := by
  have hargs : (arguments c).map f = (arguments c).map g :=
    List.map_congr_left (fun a ha => h a (.single (.argument hkind ha)))
  unfold plainCall
  rw [hargs]
  cases hobj : c.child? .object with
  | none => rfl
  | some obj =>
    have hpart : Part c obj := .receiver hkind hobj
    dsimp only
    rw [plainExplicit_congr (h obj (.single hpart)) (fun d hd => h d (.tail (.single hpart) hd))]

/-- The type of an expression depends on the types of its parts and of the value that it names. -/
theorem plainStep_congr {c : Cursor} (hparts : ∀ d, Relation.TransGen Part c d → f d = g d)
    (hvalue : ∀ i l v, s.Means c.node i l → s.inferredFrom? l = some v → f v = g v) :
    plainStep s f c = plainStep s g c := by
  have hpart : ∀ d, Part c d → f d = g d := fun d hd => hparts d (.single hd)
  unfold plainStep
  split
  next hkind =>
    split
    next i l hlookup => exact plainLocalType_congr (fun v hv => hvalue i l v ⟨hkind, hlookup⟩ hv)
    next => rfl
  · rfl
  · rfl
  next hkind =>
    split
    next obj member hobj _ => rw [hpart obj (.object hkind hobj)]
    next => rfl
  next hkind => rw [plainCall_congr hkind hparts]
  · rfl
  · rfl
  next hkind =>
    cases hinner : c.namedChildren.find? (fun d => !d.kind.isComment) with
    | none => rfl
    | some d => exact hpart d (.inside hkind hinner)
  · rfl
  · rfl
  · rfl
  next hkind =>
    cases harray : c.child? .array with
    | none => rfl
    | some d => rw [Option.bind_some, Option.bind_some, hpart d (.array hkind harray)]
  next hkind =>
    cases hbranch : c.child? .consequence with
    | none => rfl
    | some d => exact hpart d (.branch hkind hbranch)
  next hkind =>
    cases hleft : c.child? .left with
    | none => rfl
    | some d => exact hpart d (.left hkind hleft)
  · rfl

theorem size_lt_of_parts {c d : Cursor} (h : Relation.TransGen Part c d) :
    d.node.size < c.node.size := by
  induction h with
  | single h => exact h.below.size_lt
  | tail _ h ih => exact Nat.lt_trans h.below.size_lt ih

/-- As many steps as the expression has nodes and the locals that can be met weigh are enough. -/
theorem plainType_eq (hnc : s.NoCycles) (bound : Nat) {c : Cursor} {locals : List Nat}
    (hclear : s.Clear locals c) (hbound : c.node.size + s.untyped locals ≤ bound) {n : Nat}
    (hn : bound ≤ n) : plainType s n c = plainType s bound c := by
  induction bound generalizing c locals n with
  | zero =>
    have := c.node.size_pos
    omega
  | succ bound ih =>
    obtain ⟨n, rfl⟩ : ∃ m, n = m + 1 := ⟨n - 1, by omega⟩
    refine plainStep_congr (fun d hd => ?_) (fun i l v hmeans hvalue => ?_)
    · have hlt := size_lt_of_parts hd
      have hreach : s.Reaches c d := (MethodScope.leads_of_parts hd).to_reflTransGen
      exact ih (hclear.reaches hreach) (by omega) (by omega)
    · have hweight := s.untyped_cons_add_le hmeans.getElem? (hclear.notMem hmeans)
      rw [Local.weight, MethodScope.value_of_inferredFrom? hvalue] at hweight
      have hpos := c.node.size_pos
      dsimp only at hweight
      exact ih (hclear.value hnc hmeans hvalue) (by omega) (by omega)

end Typing

namespace MethodScope

variable {s : MethodScope}

/-- The type of an expression of the body without memory. -/
def plain (s : MethodScope) : Cursor → Option TypeRef := Typing.plainType s s.budget

/-- The resolution of a call of the body without memory. -/
def plainCall (s : MethodScope) : Cursor → CallResolution := Typing.plainCall s s.plain

theorem size_add_untyped_le {c : Cursor} (hc : c.At s.body) (locals : List Nat) :
    c.node.size + s.untyped locals ≤ s.budget :=
  Nat.add_le_add (size_le_of_mem_nodes s.body hc.mem_nodes) (s.untyped_le_weight locals)

/-- More steps than are allowed change nothing. -/
theorem NoCycles.plainType_eq_plain (hnc : s.NoCycles) {c : Cursor} (hc : c.At s.body) {n : Nat}
    (hn : s.budget ≤ n) : Typing.plainType s n c = s.plain c :=
  Typing.plainType_eq hnc s.budget (.nil c) (size_add_untyped_le hc []) hn

/-- The plain types satisfy the equations of the recursion. -/
theorem NoCycles.plain_eq (hnc : s.NoCycles) {c : Cursor} (hc : c.At s.body) :
    s.plain c = Typing.plainStep s s.plain c := by
  rw [← hnc.plainType_eq_plain hc (Nat.le_succ s.budget)]
  rfl

end MethodScope

end FieldTrace
