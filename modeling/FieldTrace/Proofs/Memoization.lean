import FieldTrace.Index.Usage
import FieldTrace.Proofs.PlainTyping

/-! # Typing with memory

Resolved calls and the types of locals are remembered, a call that is being resolved is remembered
with a placeholder, and a local that is being typed has no type. None of this shows in a body in
which no local refers back to itself: what is being resolved or typed is not met again, so every
question about an expression is answered as by plain recursion (`Typing.Gives`), and what is found
at a node does not depend on what was asked before. -/

namespace FieldTrace

open Syntax

/-! ### The locals of a body -/

/-- The initial values of the locals are nodes of the body. -/
def MethodScope.Placed (s : MethodScope) : Prop :=
  ∀ l ∈ s.locals, ∀ v, l.value = some v → v.At s.body

theorem Locals.value_of_named? {s : NameScope} {named : Cursor} {start stop : Nat}
    {typeNode : Option Tree} {value : Option Cursor} {iterates : Bool} {l : Local}
    (h : named? s named start stop typeNode value iterates = some l) : l.value = value := by
  obtain ⟨n, -, rfl⟩ := Option.map_eq_some_iff.1 h
  rfl

/-- The value of a local stands below the node that introduces it. -/
theorem Locals.at_of_introducedBy {s : NameScope} {v : Visit} {body : Tree} {l : Local}
    {value : Cursor} (hv : v.cursor.At body) (hl : l ∈ introducedBy s v)
    (hvalue : l.value = some value) : value.At body := by
  unfold introducedBy at hl
  dsimp only at hl
  split at hl
  · obtain ⟨d, hd, hnamed⟩ := List.mem_filterMap.1 hl
    rw [value_of_named? hnamed] at hvalue
    exact (hv.of_mem_children (List.mem_filter.1 hd).1).of_child? hvalue
  · rw [value_of_named? (Option.mem_toList.1 hl)] at hvalue
    exact hv.of_child? hvalue
  · split at hl
    · rw [value_of_named? (Option.mem_toList.1 hl)] at hvalue
      exact hv.of_child? hvalue
    · cases hl
  · rw [value_of_named? (Option.mem_toList.1 hl)] at hvalue
    cases hvalue
  · split at hl
    · obtain ⟨n, -, rfl⟩ := List.mem_map.1 hl
      cases hvalue
    · cases hl
  · cases hl

theorem MethodScope.placed_of_ofBody? {types : TypeTable} {b : MethodBody} {s : MethodScope}
    (hs : ofBody? types b = some s) : s.Placed := by
  obtain ⟨body, -, rfl⟩ := Option.map_eq_some_iff.1 hs
  intro l hl v hvalue
  obtain hl | hl := List.mem_append.1 hl
  · obtain ⟨p, -, rfl⟩ := List.mem_map.1 hl
    cases hvalue
  · obtain ⟨w, hw, hl⟩ := List.mem_flatMap.1 hl
    exact Locals.at_of_introducedBy (at_of_mem_visits (mem_visitsFromRight_iff.1 hw)) hl hvalue

namespace MethodScope

variable {s : MethodScope} {c d : Cursor}

theorem Placed.at_of_leads (hs : s.Placed) (hc : c.At s.body) (h : s.Leads c d) : d.At s.body := by
  cases h with
  | part h => exact h.below.at hc
  | value hmeans hvalue =>
    exact hs _ (List.mem_of_getElem? hmeans.getElem?) _ (value_of_inferredFrom? hvalue)

theorem Placed.at_of_reaches (hs : s.Placed) (hc : c.At s.body) (h : s.Reaches c d) :
    d.At s.body := by
  induction h with
  | refl => exact hc
  | tail _ h ih => exact hs.at_of_leads ih h

/-- Entering the known types of a list of locals, the first of which has the number `k`. -/
theorem get?_foldl_known {enter : Table Nat TypeRef → Local × Nat → Table Nat TypeRef}
    (hnone : ∀ table p, p.1.known = none → enter table p = table)
    (hsome : ∀ table p ref, p.1.known = some ref → enter table p = table.insert p.2 ref)
    (ls : List Local) (k i : Nat) (table : Table Nat TypeRef)
    (hfresh : ∀ j, k ≤ j → table.get? j = none) :
    ((ls.zipIdx k).foldl enter table).get? i =
      if i < k then table.get? i else (ls[i - k]?).bind Local.known := by
  induction ls generalizing k table with
  | nil =>
    split
    · rfl
    next hik => simpa using hfresh i (Nat.le_of_not_lt hik)
  | cons l ls ih =>
    have hget : ∀ j, (enter table (l, k)).get? j = if j = k then l.known else table.get? j := by
      intro j
      cases hknown : l.known with
      | none =>
        rw [hnone table (l, k) hknown]
        split
        next hjk => exact hfresh j (by omega)
        next => rfl
      | some ref =>
        rw [hsome table (l, k) ref hknown, Table.get?_insert]
        simp only [eq_comm]
    rw [List.zipIdx_cons, List.foldl_cons, ih (k + 1) _ (fun j hj => ?_), hget i]
    · obtain hlt | rfl | hgt := Nat.lt_trichotomy i k
      · rw [if_pos (by omega), if_neg (by omega), if_pos hlt]
      · rw [if_pos (by omega), if_pos rfl, if_neg (by omega), Nat.sub_self,
          List.getElem?_cons_zero, Option.bind_some]
      · obtain ⟨m, rfl⟩ : ∃ m, i = k + 1 + m := ⟨i - (k + 1), by omega⟩
        rw [if_neg (by omega), if_neg (by omega), show k + 1 + m - k = m + 1 by omega,
          Nat.add_sub_cancel_left, List.getElem?_cons_succ]
    · rw [hget j, if_neg (by omega), hfresh j (by omega)]

/-- At first exactly the types of the parameters are remembered. -/
theorem get?_initialState (s : MethodScope) (i : Nat) :
    s.initialState.localTypes.get? i = (s.locals[i]?).bind Local.known := by
  refine (get?_foldl_known ?_ ?_ s.locals 0 i .empty (fun _ _ => rfl)).trans ?_
  · intro table p hknown
    rw [hknown]
  · intro table p ref hknown
    rw [hknown]
  · rw [if_neg (Nat.not_lt_zero i), Nat.sub_zero]

end MethodScope

/-! ### What may be remembered -/

namespace Typing

/-- The state in which a call is being resolved. -/
def pending (st : TypingState) (c : Cursor) : TypingState :=
  { st with calls := st.calls.insert c.path {} }

/-- The state in which one more local is being typed. -/
def begun (st : TypingState) (i : Nat) : TypingState :=
  { st with resolving := i :: st.resolving }

/-- A later state: the same locals are being typed, and only plain results were added. -/
structure Improves (s : MethodScope) (st st' : TypingState) : Prop where
  resolving : st'.resolving = st.resolving
  calls : ∀ path r, st'.calls.get? path = some r →
    st.calls.get? path = some r ∨ ∃ d : Cursor, d.At s.body ∧ d.path = path ∧ r = s.plainCall d
  locals : ∀ i ref, st'.localTypes.get? i = some ref →
    st.localTypes.get? i = some ref ∨
      ∃ l, s.locals[i]? = some l ∧ plainLocalType s s.plain l = some ref
  kept : ∀ i ref, st.localTypes.get? i = some ref → st'.localTypes.get? i = some ref

/-- The state allows to type the expression: the locals being typed are not met from it, and what is
remembered of the calls and locals that are met is right. -/
structure Ready (s : MethodScope) (c : Cursor) (st : TypingState) : Prop where
  place : c.At s.body
  clear : s.Clear st.resolving c
  calls : ∀ d r, s.Reaches c d → st.calls.get? d.path = some r → r = s.plainCall d
  locals : ∀ i l ref, s.locals[i]? = some l → st.localTypes.get? i = some ref →
    plainLocalType s s.plain l = some ref
  known : ∀ i l ref, s.locals[i]? = some l → l.known = some ref →
    st.localTypes.get? i = some ref

variable {s : MethodScope} {c d : Cursor} {st st' st'' : TypingState}

namespace Improves

theorem refl (st : TypingState) : Improves s st st :=
  ⟨rfl, fun _ _ h => .inl h, fun _ _ h => .inl h, fun _ _ h => h⟩

theorem trans (h : Improves s st st') (h' : Improves s st' st'') : Improves s st st'' where
  resolving := h'.resolving.trans h.resolving
  calls path r hr := (h'.calls path r hr).elim (h.calls path r) .inr
  locals i ref href := (h'.locals i ref href).elim (h.locals i ref) .inr
  kept i ref href := h'.kept i ref (h.kept i ref href)

/-- The placeholder of a call is replaced by its resolution. -/
theorem resolved (hc : c.At s.body) (h : Improves s (pending st c) st') :
    Improves s st { st' with calls := st'.calls.insert c.path (s.plainCall c) } where
  resolving := h.resolving
  calls path r hr := by
    rw [Table.get?_insert] at hr
    split at hr
    next hpath => exact .inr ⟨c, hc, hpath, (Option.some.inj hr).symm⟩
    next hpath =>
      obtain hr | hr := h.calls path r hr
      · rw [pending, Table.get?_insert, if_neg hpath] at hr
        exact .inl hr
      · exact .inr hr
  locals := h.locals
  kept := h.kept

/-- A local is no longer being typed. -/
theorem finished {i : Nat} (h : Improves s (begun st i) st') :
    Improves s st { st' with resolving := st'.resolving.erase i } where
  resolving := by
    dsimp only
    rw [h.resolving, begun, List.erase_cons_head]
  calls := h.calls
  locals := h.locals
  kept := h.kept

/-- The type of a local is added. -/
theorem typed {i : Nat} {l : Local} {ref : TypeRef} (hl : s.locals[i]? = some l)
    (href : plainLocalType s s.plain l = some ref) (hnew : st.localTypes.get? i = none)
    (h : Improves s st st') :
    Improves s st { st' with localTypes := st'.localTypes.insert i ref } where
  resolving := h.resolving
  calls := h.calls
  locals j ref' hj := by
    rw [Table.get?_insert] at hj
    split at hj
    next hij =>
      cases hij
      cases hj
      exact .inr ⟨l, hl, href⟩
    next => exact h.locals j ref' hj
  kept j ref' hj := by
    have hij : i ≠ j := by
      rintro rfl
      rw [hnew] at hj
      cases hj
    rw [Table.get?_insert, if_neg hij]
    exact h.kept j ref' hj

end Improves

namespace Ready

theorem improve (hs : s.Placed) (h : Ready s c st) (himp : Improves s st st') :
    Ready s c st' where
  place := h.place
  clear := by
    rw [himp.resolving]
    exact h.clear
  calls d r hd hr := by
    obtain hr | ⟨e, he, hpath, rfl⟩ := himp.calls d.path r hr
    · exact h.calls d r hd hr
    · rw [he.eq (hs.at_of_reaches h.place hd) hpath]
  locals i l ref hl href := by
    obtain href | ⟨l', hl', href⟩ := himp.locals i ref href
    · exact h.locals i l ref hl href
    · cases hl.symm.trans hl'
      exact href
  known i l ref hl href := himp.kept i ref (h.known i l ref hl href)

theorem reaches (hs : s.Placed) (h : Ready s c st) (hd : s.Reaches c d) : Ready s d st where
  place := hs.at_of_reaches h.place hd
  clear := h.clear.reaches hd
  calls e r he := h.calls e r (hd.trans he)
  locals := h.locals
  known := h.known

/-- From the parts of a call that is being resolved the call is not met. -/
theorem pending (hs : s.Placed) (hnc : s.NoCycles) (h : Ready s c st)
    (hd : Relation.TransGen Part c d) : Ready s d (pending st c) where
  place := hs.at_of_reaches h.place (MethodScope.leads_of_parts hd).to_reflTransGen
  clear := h.clear.reaches (MethodScope.leads_of_parts hd).to_reflTransGen
  calls e r he hr := by
    have hreach := (MethodScope.leads_of_parts hd).trans_left he
    rw [Typing.pending, Table.get?_insert] at hr
    split at hr
    next hpath =>
      have hce : c = e := h.place.eq (hs.at_of_reaches h.place hreach.to_reflTransGen) hpath
      exact absurd (hce ▸ hreach) (hnc.not_leads_self c)
    next => exact h.calls e r hreach.to_reflTransGen hr
  locals := h.locals
  known := h.known

/-- From the value of a local that is being typed the local is not met. -/
theorem begun (hs : s.Placed) (hnc : s.NoCycles) (h : Ready s c st) {i : Nat} {l : Local}
    {v : Cursor} (hmeans : s.Means c.node i l) (hvalue : s.inferredFrom? l = some v) :
    Ready s v (begun st i) where
  place := hs.at_of_leads h.place (.value hmeans hvalue)
  clear := h.clear.value hnc hmeans hvalue
  calls e r he := h.calls e r (.head (.value hmeans hvalue) he)
  locals := h.locals
  known := h.known

end Ready

/-! ### Answers -/

/-- Started in the state, typing gives the value and leaves a later state. -/
def Gives {α : Type} (s : MethodScope) (st : TypingState) (x : TypingM α) (v : α) : Prop :=
  ∃ st', x st = some (v, st') ∧ Improves s st st'

namespace Gives

variable {α β : Type} {v : α} {w : β} {x : TypingM α}

theorem pure (v : α) : Gives s st (Pure.pure v) v := ⟨st, rfl, .refl st⟩

theorem bind {k : α → TypingM β} (hx : Gives s st x v)
    (hk : ∀ st', Improves s st st' → Gives s st' (k v) w) : Gives s st (x >>= k) w := by
  obtain ⟨st', hrun, himp⟩ := hx
  obtain ⟨st'', hrun', himp'⟩ := hk st' himp
  exact ⟨st'', Option.bind_eq_some_iff.2 ⟨(v, st'), hrun, hrun'⟩, himp.trans himp'⟩

theorem get_bind {k : TypingState → TypingM α} (h : Gives s st (k st) v) :
    Gives s st (get >>= k) v := h

theorem map {f : α → β} (hx : Gives s st x v) :
    Gives s st (x >>= fun v => Pure.pure (f v)) (f v) :=
  hx.bind (fun _ _ => .pure (f v))

theorem mapM {f : β → TypingM α} {g : β → α} (ys : List β)
    (h : ∀ y ∈ ys, ∀ st', Improves s st st' → Gives s st' (f y) (g y)) :
    Gives s st (ys.mapM f) (ys.map g) := by
  induction ys generalizing st with
  | nil => exact .pure []
  | cons y ys ih =>
    rw [List.mapM_cons, List.map_cons]
    obtain ⟨hy, hys⟩ := List.forall_mem_cons.1 h
    refine (hy st (.refl st)).bind (fun st' himp => ?_)
    exact (ih (fun z hz st'' himp' => hys z hz st'' (himp.trans himp'))).bind
      (fun st'' _ => .pure _)

end Gives

/-! The functions below are given a way to type other expressions. -/

variable {typeOf : Cursor → TypingM (Option TypeRef)}

theorem gives_localType (hready : Ready s c st) {i : Nat} {l : Local}
    (hmeans : s.Means c.node i l)
    (htype : ∀ v, s.inferredFrom? l = some v → Gives s (begun st i) (typeOf v) (s.plain v)) :
    Gives s st (localType s typeOf i l) (plainLocalType s s.plain l) := by
  have hl := hmeans.getElem?
  have hfree : st.resolving.contains i = false := by
    simpa using hready.clear.notMem hmeans
  cases hremembered : st.localTypes.get? i with
  | some ref =>
    rw [hready.locals i l ref hl hremembered]
    unfold localType
    refine .get_bind ?_
    rw [hremembered]
    exact .pure (some ref)
  | none =>
    -- the type is not known, so it is written or comes from the value
    have hknown : l.known = none := by
      cases hknown : l.known with
      | none => rfl
      | some ref =>
        rw [hready.known i l ref hl hknown] at hremembered
        cases hremembered
    have hfresh :
        Gives s (begun st i) (localTypeFresh s typeOf l) (plainLocalType s s.plain l) := by
      unfold localTypeFresh plainLocalType
      rw [hknown]
      unfold MethodScope.inferredFrom? at htype
      rw [hknown] at htype
      cases hwritten : l.typeNode.filter (fun t => s.text t ≠ "var") with
      | some t => exact .pure _
      | none =>
        rw [hwritten] at htype
        cases hvalue : l.value with
        | none => exact .pure _
        | some v => exact (htype v hvalue).map
    obtain ⟨st', hrun, himp⟩ := hfresh
    unfold localType
    refine .get_bind ?_
    rw [hremembered]
    refine .get_bind ?_
    rw [hfree]
    cases hfound : plainLocalType s s.plain l with
    | none =>
      rw [hfound] at hrun
      exact ⟨_, Option.bind_eq_some_iff.2 ⟨(none, st'), hrun, rfl⟩, himp.finished⟩
    | some ref =>
      rw [hfound] at hrun
      exact ⟨_, Option.bind_eq_some_iff.2 ⟨(some ref, st'), hrun, rfl⟩,
        himp.finished.typed hl hfound hremembered⟩

/-- In every later state the parts of an expression are typed as by plain recursion. -/
def GivesParts (s : MethodScope) (st : TypingState) (typeOf : Cursor → TypingM (Option TypeRef))
    (c : Cursor) : Prop :=
  ∀ d, Relation.TransGen Part c d → ∀ st', Improves s st st' → Gives s st' (typeOf d) (s.plain d)

theorem GivesParts.improve (h : GivesParts s st typeOf c) (himp : Improves s st st') :
    GivesParts s st' typeOf c :=
  fun d hd st'' himp' => h d hd st'' (himp.trans himp')

theorem GivesParts.part (h : GivesParts s st typeOf c) (hd : Part c d) :
    Gives s st (typeOf d) (s.plain d) :=
  h d (.single hd) st (.refl st)

theorem gives_resolveExplicit {obj : Cursor} (hparts : GivesParts s st typeOf c)
    (hobj : Part c obj) (name : String) (args : List (Option TypeRef)) :
    Gives s st (resolveExplicit s typeOf obj name args)
      (plainExplicit s s.plain obj name args) := by
  unfold resolveExplicit plainExplicit
  refine (hparts.part hobj).bind (fun st' himp => ?_)
  dsimp only
  cases hinner : (if obj.kind = .methodInvocation then obj.child? .object else none) with
  | none => exact .bind (.pure none) (fun st'' _ => .pure _)
  | some o =>
    obtain ⟨hkind, ho⟩ := Option.ite_none_right_eq_some.1 hinner
    have ho' : Relation.TransGen Part c o := .tail (.single hobj) (.receiver hkind ho)
    exact (hparts o ho' st' himp).bind (fun st'' _ => .pure _)

theorem gives_resolveCall (hkind : c.kind = .methodInvocation) (hready : Ready s c st)
    (hparts : GivesParts s (pending st c) typeOf c) :
    Gives s st (resolveCall s typeOf c) (s.plainCall c) := by
  unfold resolveCall
  refine .get_bind ?_
  cases hremembered : st.calls.get? c.path with
  | some r =>
    rw [hready.calls c r .refl hremembered]
    exact .pure (s.plainCall c)
  | none =>
    have hargs : Gives s (pending st c) ((arguments c).mapM typeOf) ((arguments c).map s.plain) :=
      .mapM _ (fun a ha => hparts a (.single (.argument hkind ha)))
    obtain ⟨st₁, hrun₁, himp₁⟩ := hargs
    cases hobj : c.child? .object with
    | none =>
      refine ⟨_, Option.bind_eq_some_iff.2 ⟨(_, st₁), hrun₁, ?_⟩, himp₁.resolved hready.place⟩
      simp only [MethodScope.plainCall, plainCall, hobj]
      rfl
    | some obj =>
      obtain ⟨st₂, hrun₂, himp₂⟩ :=
        gives_resolveExplicit (hparts.improve himp₁) (.receiver hkind hobj) _ _
      refine ⟨_, Option.bind_eq_some_iff.2 ⟨(_, st₁), hrun₁, ?_⟩,
        (himp₁.trans himp₂).resolved hready.place⟩
      simp only [MethodScope.plainCall, plainCall, hobj]
      exact Option.bind_eq_some_iff.2 ⟨(_, st₂), hrun₂, rfl⟩

/-- Whatever is remembered, as many steps as the expression has nodes and the locals that are not
being typed weigh are enough to type it as by plain recursion. -/
theorem gives_typeOf (hs : s.Placed) (hnc : s.NoCycles) (n : Nat) {c : Cursor} {st : TypingState}
    (hready : Ready s c st) (hn : c.node.size + s.untyped st.resolving ≤ n) :
    Gives s st (Typing.typeOf s n c) (s.plain c) := by
  induction n generalizing c st with
  | zero =>
    have := c.node.size_pos
    omega
  | succ n ih =>
    have hlater : ∀ d st', Ready s d st' → d.node.size < c.node.size →
        st'.resolving = st.resolving → Gives s st' (Typing.typeOf s n d) (s.plain d) := by
      intro d st' hd hlt hst'
      refine ih hd ?_
      rw [hst']
      omega
    have hpart : ∀ d, Part c d → Gives s st (Typing.typeOf s n d) (s.plain d) := fun d hd =>
      hlater d st (hready.reaches hs (.single (.part hd))) hd.below.size_lt rfl
    have hpending : GivesParts s (pending st c) (Typing.typeOf s n) c := fun d hd st' himp =>
      hlater d st' ((hready.pending hs hnc hd).improve hs himp) (size_lt_of_parts hd) himp.resolving
    rw [hnc.plain_eq hready.place]
    unfold Typing.typeOf plainStep
    cases hkind : c.kind with
    | identifier =>
      dsimp only
      cases hlookup : s.lookup (s.text c.node) c.node.start with
      | none => exact .pure _
      | some p =>
        obtain ⟨i, l⟩ := p
        have hmeans : s.Means c.node i l := ⟨hkind, hlookup⟩
        refine gives_localType hready hmeans (fun v hvalue => ih ?_ ?_)
        · exact hready.begun hs hnc hmeans hvalue
        · have hweight := s.untyped_cons_add_le hmeans.getElem? (hready.clear.notMem hmeans)
          have hpos := c.node.size_pos
          rw [Local.weight, MethodScope.value_of_inferredFrom? hvalue] at hweight
          dsimp only [begun] at hweight ⊢
          omega
    | fieldAccess =>
      dsimp only
      cases hobj : c.child? .object with
      | none => exact .pure _
      | some obj =>
        cases hmember : c.child? .field with
        | none => exact .pure _
        | some member =>
          dsimp only
          split
          · exact .pure _
          · exact (hpart obj (.object hkind hobj)).map
    | methodInvocation => exact (gives_resolveCall hkind hready hpending).map
    | parenthesized =>
      dsimp only
      cases hinner : c.namedChildren.find? (fun d => !d.kind.isComment) with
      | none => exact .pure _
      | some d => exact hpart d (.inside hkind hinner)
    | arrayAccess =>
      dsimp only
      cases harray : c.child? .array with
      | none => exact .pure _
      | some d => exact (hpart d (.array hkind harray)).map
    | ternary =>
      dsimp only
      cases hbranch : c.child? .consequence with
      | none => exact .pure _
      | some d => exact hpart d (.branch hkind hbranch)
    | assignment =>
      dsimp only
      cases hleft : c.child? .left with
      | none => exact .pure _
      | some d => exact hpart d (.left hkind hleft)
    | _ => exact .pure _

end Typing

end FieldTrace
