import FieldTrace.Index.Usage
import FieldTrace.Proofs.OverloadSelection

/-! # What a method body uses

A body is walked with what is known so far about its calls and locals. Every call that is remembered
has a target that some type declares, and typing keeps it so (`Typing.Keeps`). Hence each usage that
the walk records stands in the method and names a declared method, or a field that a lookup found
(`Usage.Valid`). -/

namespace FieldTrace

open Syntax

/-! ### Looking up methods -/

/-- Some type declares the method. -/
def TypeTable.DeclaresMethod (types : TypeTable) (m : MethodId) : Prop :=
  ∃ d ∈ types.values, ∃ decl ∈ d.methods, decl.id = m

namespace TypeTable

variable {types : TypeTable}

theorem declaresMethod_of_along {type : String} {d : TypeDecl} {m : MethodDecl}
    (hd : d ∈ types.declarationsAlong type) (hm : m ∈ d.methods) : types.DeclaresMethod m.id := by
  obtain ⟨name, -, hname⟩ := List.mem_filterMap.1 hd
  exact ⟨d, Table.mem_values_of_get? hname, m, hm, rfl⟩

theorem declaresMethod_of_lookupMethod {type name : String} {args : List (Option TypeRef)}
    {m : MethodDecl} (h : types.lookupMethod type name args = some m) :
    types.DeclaresMethod m.id := by
  obtain ⟨d, hd, hm⟩ := List.exists_of_findSome?_eq_some h
  exact declaresMethod_of_along hd (List.mem_filter.1 (mem_of_selectOverload hm)).1

theorem declaresMethod_of_findMethod {type name : String} {arity : Option Nat} {m : MethodDecl}
    (h : types.findMethod type name arity = some m) : types.DeclaresMethod m.id := by
  obtain ⟨d, hd, hm⟩ := List.exists_of_findSome?_eq_some h
  exact declaresMethod_of_along hd (List.mem_of_find?_eq_some hm)

end TypeTable

/-! ### Typing -/

/-- The target, if there is one, is declared. -/
def CallResolution.Declared (types : TypeTable) (r : CallResolution) : Prop :=
  ∀ m, r.target = some m → types.DeclaresMethod m.id

/-- All remembered calls have declared targets. -/
def TypingState.Declared (types : TypeTable) (st : TypingState) : Prop :=
  ∀ path r, st.calls.get? path = some r → r.Declared types

theorem TypingState.Declared.insert {types : TypeTable} {st : TypingState} (h : st.Declared types)
    {path : List Nat} {r : CallResolution} (hr : r.Declared types) :
    TypingState.Declared types { st with calls := st.calls.insert path r } := by
  intro path' r' hr'
  rw [Table.get?_insert] at hr'
  split at hr'
  · cases hr'
    exact hr
  · exact h path' r' hr'

namespace Typing

variable {types : TypeTable} {α β : Type} {P : α → Prop} {Q : β → Prop}

/-- Typing keeps the remembered calls declared and gives values with a property. -/
def Keeps (types : TypeTable) (P : α → Prop) (x : TypingM α) : Prop :=
  ∀ st v st', st.Declared types → x st = some (v, st') → st'.Declared types ∧ P v

namespace Keeps

theorem pure {v : α} (h : P v) : Keeps types P (Pure.pure v) := by
  rintro st _ _ hst ⟨⟩
  exact ⟨hst, h⟩

theorem bind {x : TypingM α} {k : α → TypingM β} (hx : Keeps types P x)
    (hk : ∀ v, P v → Keeps types Q (k v)) : Keeps types Q (x >>= k) := by
  intro st v st'' hst hrun
  obtain ⟨⟨w, st'⟩, hw, hrun⟩ := Option.bind_eq_some_iff.1 hrun
  obtain ⟨hst', hP⟩ := hx st w st' hst hw
  exact hk w hP st' v st'' hst' hrun

theorem get : Keeps types (TypingState.Declared types) MonadState.get := by
  rintro st _ _ hst ⟨⟩
  exact ⟨hst, hst⟩

theorem modify {f : TypingState → TypingState}
    (h : ∀ st, st.Declared types → (f st).Declared types) :
    Keeps types (fun _ => True) (modify f) := by
  rintro st _ _ hst ⟨⟩
  exact ⟨h st hst, trivial⟩

theorem mapM {f : β → TypingM α} (hf : ∀ x, Keeps types (fun _ => True) (f x)) (xs : List β) :
    Keeps types (fun _ => True) (xs.mapM f) := by
  induction xs with
  | nil => exact .pure trivial
  | cons x xs ih =>
    rw [List.mapM_cons]
    exact (hf x).bind (fun _ _ => ih.bind (fun _ _ => .pure trivial))

end Keeps

variable {s : MethodScope} {typeOf : Cursor → TypingM (Option TypeRef)}

/-! The functions below are typed with a way to type smaller expressions. -/

theorem keeps_localTypeFresh (htype : ∀ c, Keeps s.types (fun _ => True) (typeOf c)) (l : Local) :
    Keeps s.types (fun _ => True) (localTypeFresh s typeOf l) := by
  unfold localTypeFresh
  split
  · exact .pure trivial
  · split
    · exact .pure trivial
    · exact (htype _).bind (fun _ _ => .pure trivial)

theorem keeps_localType (htype : ∀ c, Keeps s.types (fun _ => True) (typeOf c)) (i : Nat)
    (l : Local) : Keeps s.types (fun _ => True) (localType s typeOf i l) := by
  unfold localType
  refine .bind .get (fun st _ => ?_)
  split
  · exact .pure trivial
  · refine .bind .get (fun st _ => ?_)
    split
    · exact .pure trivial
    · refine .bind (.modify (fun _ hst => hst)) (fun _ _ => ?_)
      refine .bind (keeps_localTypeFresh htype l) (fun found _ => ?_)
      refine .bind (.modify (fun _ hst => hst)) (fun _ _ => ?_)
      split
      · exact .bind (.modify (fun _ hst => hst)) (fun _ _ => .pure trivial)
      · exact .pure trivial

/-- The target found with a receiver, if there is one, is declared. -/
def TargetDeclared (types : TypeTable) (found : Option MethodDecl × Receiver) : Prop :=
  ∀ m, found.1 = some m → types.DeclaresMethod m.id

/-- A call without a receiver is resolved to a method of an enclosing type. -/
theorem targetDeclared_resolveImplicit (name : String) (args : List (Option TypeRef)) :
    TargetDeclared s.types (resolveImplicit s name args) := by
  intro m h
  unfold resolveImplicit at h
  dsimp only at h
  split at h
  next e m' hfound =>
    cases h
    obtain ⟨e', -, hlookup⟩ := List.exists_of_findSome?_eq_some hfound
    obtain ⟨m'', hm, heq⟩ := Option.map_eq_some_iff.1 hlookup
    cases heq
    exact TypeTable.declaresMethod_of_lookupMethod hm
  next => cases h

theorem keeps_resolveExplicit (htype : ∀ c, Keeps s.types (fun _ => True) (typeOf c))
    (obj : Cursor) (name : String) (args : List (Option TypeRef)) :
    Keeps s.types (TargetDeclared s.types) (resolveExplicit s typeOf obj name args) := by
  unfold resolveExplicit
  refine .bind (htype obj) (fun ref _ => ?_)
  have hlookup : ∀ m, ((ref.map TypeRef.name).filter s.types.contains).bind
      (fun t => s.types.lookupMethod t name args) = some m → s.types.DeclaresMethod m.id := by
    intro m hm
    obtain ⟨t, -, hlookup⟩ := Option.bind_eq_some_iff.1 hm
    exact TypeTable.declaresMethod_of_lookupMethod hlookup
  dsimp only
  split
  · exact (htype _).bind (fun _ _ => .pure hlookup)
  · exact .bind (P := fun _ => True) (.pure trivial) (fun _ _ => .pure hlookup)

theorem keeps_resolveCall (htype : ∀ c, Keeps s.types (fun _ => True) (typeOf c)) (c : Cursor) :
    Keeps s.types (CallResolution.Declared s.types) (resolveCall s typeOf c) := by
  unfold resolveCall
  refine .bind .get (fun st hst => ?_)
  split
  next r hr => exact .pure (hst _ r hr)
  next =>
    refine .bind (.modify (fun st hst => hst.insert (by rintro m ⟨⟩))) (fun _ _ => ?_)
    refine .bind (.mapM htype _) (fun argTypes _ => ?_)
    have hremember : ∀ found : Option MethodDecl × Receiver, TargetDeclared s.types found →
        Keeps s.types (CallResolution.Declared s.types) (do
          let resolution : CallResolution :=
            { target := found.1, receiver := found.2, arguments := arguments c }
          modify (fun st => { st with calls := st.calls.insert c.path resolution })
          return resolution) :=
      fun found hfound =>
        .bind (.modify (fun st hst => hst.insert hfound)) (fun _ _ => .pure hfound)
    dsimp only
    split
    · exact .bind (.pure (targetDeclared_resolveImplicit _ _)) hremember
    · exact .bind (keeps_resolveExplicit htype _ _ _) hremember

/-- Typing any expression, in however many steps, leaves only declared targets behind. -/
theorem keeps_typeOf (steps : Nat) (c : Cursor) :
    Keeps s.types (fun _ => True) (Typing.typeOf s steps c) := by
  induction steps generalizing c with
  | zero => exact fun _ _ _ _ hrun => nomatch hrun
  | succ steps ih =>
    unfold Typing.typeOf
    split
    · dsimp only
      split
      · exact keeps_localType ih _ _
      · exact .pure trivial
    · exact .pure trivial
    · exact .pure trivial
    · split
      · split
        · exact .pure trivial
        · exact (ih _).bind (fun _ _ => .pure trivial)
      · exact .pure trivial
    · exact (keeps_resolveCall ih c).bind (fun _ _ => .pure trivial)
    · exact .pure trivial
    · exact .pure trivial
    · split
      · exact ih _
      · exact .pure trivial
    · exact .pure trivial
    · exact .pure trivial
    · exact .pure trivial
    · split
      · exact (ih _).bind (fun _ _ => .pure trivial)
      · exact .pure trivial
    · split
      · exact ih _
      · exact .pure trivial
    · split
      · exact ih _
      · exact .pure trivial
    · exact .pure trivial

end Typing

/-! ### Walking a body -/

namespace Usage

/-- The method that a usage is filed under. -/
def enclosing : Usage → Option MethodId
  | call site => some site.enclosing
  | field _ place => place.enclosing
  | methodReference _ place => place.enclosing

/-- The member that a usage names is declared, or was found by a lookup. -/
def Aimed (types : TypeTable) : Usage → Prop
  | call site => ∀ m, site.resolved = some m → types.DeclaresMethod m
  | field target _ => ∃ type name f, types.fieldOn type name = some f ∧ f.ref = target
  | methodReference target _ => types.DeclaresMethod target

/-- A usage of the method is filed under it and names a declared member. -/
structure Valid (s : MethodScope) (u : Usage) : Prop where
  enclosing : u.enclosing = some s.decl.id
  aimed : u.Aimed s.types

def AllValid (s : MethodScope) (us : List Usage) : Prop := ∀ u ∈ us, Valid s u

/-- A part of the walk keeps the remembered calls declared and gives values with a property. -/
def Finds {α : Type} (s : MethodScope) (P : α → Prop) (x : StateM TypingState α) : Prop :=
  ∀ st, st.Declared s.types → (x st).2.Declared s.types ∧ P (x st).1

variable {s : MethodScope} {α β : Type} {P : α → Prop} {Q : β → Prop}

namespace Finds

theorem pure {v : α} (h : P v) : Finds s P (Pure.pure v) := fun _ hst => ⟨hst, h⟩

theorem bind {x : StateM TypingState α} {k : α → StateM TypingState β} (hx : Finds s P x)
    (hk : ∀ v, P v → Finds s Q (k v)) : Finds s Q (x >>= k) := by
  intro st hst
  obtain ⟨hst', hP⟩ := hx st hst
  exact hk _ hP _ hst'

theorem mapM {f : β → StateM TypingState α} (hf : ∀ x, Finds s (fun _ => True) (f x))
    (xs : List β) : Finds s (fun _ => True) (xs.mapM f) := by
  induction xs with
  | nil => exact .pure trivial
  | cons x xs ih =>
    rw [List.mapM_cons]
    exact (hf x).bind (fun _ _ => ih.bind (fun _ _ => .pure trivial))

/-- Typing is a part of the walk. -/
theorem run {d : α} {step : Nat → TypingM α} (hd : P d)
    (hstep : ∀ n, Typing.Keeps s.types P (step n)) : Finds s P (s.run d step) := by
  intro st hst
  unfold MethodScope.run
  split
  next r hr => exact hstep _ st r.1 r.2 hst hr
  next => exact ⟨hst, hd⟩

theorem typeAt (c : Cursor) : Finds s (fun _ => True) (s.typeAt c) :=
  run trivial (fun n => Typing.keeps_typeOf n c)

theorem callAt (c : Cursor) : Finds s (CallResolution.Declared s.types) (s.callAt c) :=
  run (by rintro m ⟨⟩) (fun n => Typing.keeps_resolveCall (Typing.keeps_typeOf n) c)

theorem nil : Finds s (AllValid s) (Pure.pure []) :=
  .pure (by rintro u ⟨⟩)

theorem singleton {u : Usage} (hu : Valid s u) : Finds s (AllValid s) (Pure.pure [u]) :=
  .pure (fun _ hv => List.mem_singleton.1 hv ▸ hu)

end Finds

theorem finds_argument (a : Cursor) : Finds s (fun _ => True) (argument s a) := by
  unfold argument
  dsimp only
  split
  · exact .pure trivial
  · exact (Finds.typeAt a).bind (fun _ _ => .pure trivial)

theorem finds_ofInvocation (c : Cursor) : Finds s (AllValid s) (ofInvocation s c) := by
  refine (Finds.callAt c).bind (fun r hr => ?_)
  cases c.child? .name with
  | none => exact .nil
  | some n =>
    refine (Finds.mapM finds_argument _).bind (fun args _ => .singleton ⟨rfl, ?_⟩)
    intro m hm
    obtain ⟨target, htarget, rfl⟩ := Option.map_eq_some_iff.1 hm
    exact hr target htarget

theorem finds_ofCreation (c : Cursor) : Finds s (AllValid s) (ofCreation s c) := by
  unfold ofCreation
  cases c.node.child? .type with
  | none => exact .nil
  | some typeNode =>
    dsimp only
    cases htype : s.types.get? (s.names.typeRef typeNode).name with
    | none => exact .nil
    | some d =>
      refine (Finds.mapM Finds.typeAt _).bind (fun argTypes _ => ?_)
      cases hselect : selectOverload (d.methods.filter MethodDecl.isConstructor) argTypes with
      | none => exact .nil
      | some target =>
        refine .singleton ⟨rfl, ?_⟩
        rintro _ ⟨⟩
        exact ⟨d, Table.mem_values_of_get? htype, target,
          (List.mem_filter.1 (mem_of_selectOverload hselect)).1, rfl⟩

theorem finds_ofIdentifier (v : Visit) : Finds s (AllValid s) (pure (ofIdentifier s v)) := by
  unfold ofIdentifier
  dsimp only
  split
  · cases hfield : s.fieldInScope (s.text v.cursor.node) with
    | none => exact .nil
    | some f =>
      obtain ⟨e, -, he⟩ := List.exists_of_findSome?_eq_some hfield
      exact .singleton ⟨rfl, e, _, f, he, rfl⟩
  · exact .nil

theorem finds_ofAccess (c : Cursor) : Finds s (AllValid s) (ofAccess s c) := by
  unfold ofAccess
  split
  · split
    · refine (Finds.typeAt _).bind (fun type _ => ?_)
      split
      · split
        next f hf => exact .singleton ⟨rfl, _, _, f, hf, rfl⟩
        next => exact .nil
      · exact .nil
    · exact .nil
  · exact .nil

theorem finds_ofMethodReference (c : Cursor) :
    Finds s (AllValid s) (ofMethodReference s c) := by
  unfold ofMethodReference
  split
  next qualifier _ _ last _ _ =>
    have htarget : ∀ ref : Option TypeRef, Finds s (AllValid s)
        (pure (((ref.filter (fun r => s.types.contains r.name)).bind
          (fun r => s.types.findMethod r.name (s.text last.node) none)).toList.map
            (fun m => methodReference m.id (reference s c.node)))) := by
      intro ref
      cases hfind : (ref.filter (fun r => s.types.contains r.name)).bind
          (fun r => s.types.findMethod r.name (s.text last.node) none) with
      | none => exact .nil
      | some target =>
        obtain ⟨r, -, hr⟩ := Option.bind_eq_some_iff.1 hfind
        exact .singleton ⟨rfl, TypeTable.declaresMethod_of_findMethod hr⟩
    split
    · split
      · exact .bind (P := fun _ => True) (.pure trivial) (fun ref _ => htarget ref)
      · exact (Finds.typeAt _).bind (fun ref _ => htarget ref)
    · exact .nil
  next => exact .nil

theorem finds_ofVisit (v : Visit) : Finds s (AllValid s) (ofVisit s v) := by
  unfold ofVisit
  split
  · exact finds_ofInvocation _
  · exact finds_ofCreation _
  · exact finds_ofIdentifier v
  · exact finds_ofAccess _
  · exact finds_ofMethodReference _
  · exact .nil

/-- A walk finds valid usages only. -/
theorem finds_along (vs : List Visit) : Finds s (AllValid s) (along s vs) := by
  induction vs with
  | nil => exact .nil
  | cons v vs ih =>
    refine (finds_ofVisit v).bind (fun first hfirst => ih.bind (fun rest hrest => .pure ?_))
    exact fun u hu => (List.mem_append.1 hu).elim (hfirst u) (hrest u)

/-- The usages of a body are filed under its method and name declared members. -/
theorem valid_of_mem_ofBody {types : TypeTable} {b : MethodBody} {u : Usage}
    (h : u ∈ ofBody types b) : u.enclosing = some b.decl.id ∧ u.Aimed types := by
  unfold ofBody at h
  cases hscope : MethodScope.ofBody? types b with
  | none =>
    rw [hscope] at h
    cases h
  | some s =>
    rw [hscope] at h
    obtain ⟨body, -, rfl⟩ := Option.map_eq_some_iff.1 hscope
    -- nothing is remembered at first
    obtain ⟨henclosing, haimed⟩ := (finds_along _ _ (by rintro path r ⟨⟩)).2 u h
    exact ⟨henclosing, haimed⟩

end Usage

end FieldTrace
