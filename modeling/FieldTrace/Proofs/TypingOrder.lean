import FieldTrace.Index.Basic
import FieldTrace.Proofs.Memoization

/-! # The order of typing does not matter

While a body is analysed, types and resolutions are asked for again and again, from the walk over
the body and from within other questions, and each question is put in a state that depends on all
those before it. Where no local refers back to itself, a question is put only in states that are
ready for it (`Typing.Question.Posed.asks`), so its answer is the plain one, and a node is recorded
as if it were the first one of the walk. -/

namespace FieldTrace

open Syntax

namespace Typing

/-- What is asked for during the analysis of a body: the type of an expression or the resolution of
a call, in at most a number of nested steps. -/
inductive Question where
  | type (steps : Nat) (c : Cursor)
  | call (steps : Nat) (c : Cursor)

/-- Answering a question in a state takes the answer to another one, which is put in the state that
has been reached by then. -/
inductive Asks (s : MethodScope) (st : TypingState) : Question → TypingState → Question → Prop where
  | value {n i : Nat} {c v : Cursor} {l : Local} (hmeans : s.Means c.node i l)
      (hnew : st.localTypes.get? i = none) (hfree : i ∉ st.resolving)
      (hwritten : l.typeNode.filter (fun t => s.text t ≠ "var") = none)
      (hvalue : l.value = some v) :
      Asks s st (.type (n + 1) c) (begun st i) (.type n v)
  | part {n : Nat} {c d : Cursor} (hkind : c.kind ≠ .methodInvocation) (hpart : Part c d) :
      Asks s st (.type (n + 1) c) st (.type n d)
  | call {n : Nat} {c : Cursor} (hkind : c.kind = .methodInvocation) :
      Asks s st (.type (n + 1) c) st (.call n c)
  | argument {n : Nat} {c a : Cursor} {before after : List Cursor} {refs : List (Option TypeRef)}
      {st' : TypingState} (hnew : st.calls.get? c.path = none)
      (hargs : arguments c = before ++ a :: after)
      (hrun : before.mapM (typeOf s n) (pending st c) = some (refs, st')) :
      Asks s st (.call n c) st' (.type n a)
  | receiver {n : Nat} {c obj : Cursor} {refs : List (Option TypeRef)} {st' : TypingState}
      (hnew : st.calls.get? c.path = none)
      (hrun : (arguments c).mapM (typeOf s n) (pending st c) = some (refs, st'))
      (hobj : c.child? .object = some obj) :
      Asks s st (.call n c) st' (.type n obj)
  | innerReceiver {n : Nat} {c obj o : Cursor} {refs : List (Option TypeRef)}
      {ref : Option TypeRef} {st' st'' : TypingState} (hnew : st.calls.get? c.path = none)
      (hrun : (arguments c).mapM (typeOf s n) (pending st c) = some (refs, st'))
      (hobj : c.child? .object = some obj) (htyped : typeOf s n obj st' = some (ref, st''))
      (hkind : obj.kind = .methodInvocation) (hinner : obj.child? .object = some o) :
      Asks s st (.call n c) st'' (.type n o)

namespace Question

/-- The question is answered, and the answer is that of plain recursion. -/
def Answered (s : MethodScope) (st : TypingState) : Question → Prop
  | .type n c => ∃ st', typeOf s n c st = some (s.plain c, st')
  | .call n c => ∃ st', resolveCall s (typeOf s n) c st = some (s.plainCall c, st')

/-- The state is ready for the question, and the steps allowed are enough. -/
def Posed (s : MethodScope) (st : TypingState) : Question → Prop
  | .type n c => Ready s c st ∧ c.node.size + s.untyped st.resolving ≤ n
  | .call n c =>
    Ready s c st ∧ c.kind = .methodInvocation ∧ c.node.size + s.untyped st.resolving ≤ n + 1

end Question

variable {s : MethodScope} {c d : Cursor} {st st' : TypingState} {q q' : Question}

theorem Gives.improves {α : Type} {x : TypingM α} {v w : α} (h : Gives s st x v)
    (hrun : x st = some (w, st')) : Improves s st st' := by
  obtain ⟨st'', hrun', himp⟩ := h
  cases hrun.symm.trans hrun'
  exact himp

/-- The parts of a call can be typed while it is being resolved. -/
theorem Ready.parts (hs : s.Placed) (hnc : s.NoCycles) (hready : Ready s c st) {n : Nat}
    (hn : c.node.size + s.untyped st.resolving ≤ n + 1) (hd : Relation.TransGen Part c d)
    (himp : Improves s (Typing.pending st c) st') :
    Ready s d st' ∧ d.node.size + s.untyped st'.resolving ≤ n := by
  refine ⟨(hready.pending hs hnc hd).improve hs himp, ?_⟩
  have hlt := size_lt_of_parts hd
  rw [himp.resolving]
  dsimp only [Typing.pending]
  omega

theorem gives_call (hs : s.Placed) (hnc : s.NoCycles) {n : Nat} (hready : Ready s c st)
    (hkind : c.kind = .methodInvocation) (hn : c.node.size + s.untyped st.resolving ≤ n + 1) :
    Gives s st (resolveCall s (typeOf s n) c) (s.plainCall c) := by
  refine gives_resolveCall hkind hready (fun d hd st' himp => ?_)
  obtain ⟨hd', hn'⟩ := hready.parts hs hnc hn hd himp
  exact gives_typeOf hs hnc n hd' hn'

theorem Question.Posed.answered (hs : s.Placed) (hnc : s.NoCycles) (h : q.Posed s st) :
    q.Answered s st := by
  cases q with
  | type n c =>
    obtain ⟨st', hrun, -⟩ := gives_typeOf hs hnc n h.1 h.2
    exact ⟨st', hrun⟩
  | call n c =>
    obtain ⟨st', hrun, -⟩ := gives_call hs hnc h.1 h.2.1 h.2.2
    exact ⟨st', hrun⟩

/-- One question leads to another only in a state that is ready for it. -/
theorem Question.Posed.asks (hs : s.Placed) (hnc : s.NoCycles) (h : q.Posed s st)
    (hask : Asks s st q st' q') : q'.Posed s st' := by
  -- the arguments of a call are typed from the first to the last
  have hargs : ∀ {n c} (before after : List Cursor), Question.Posed s st (.call n c) →
      arguments c = before ++ after → ∀ {refs st'},
      before.mapM (typeOf s n) (Typing.pending st c) = some (refs, st') →
      Improves s (Typing.pending st c) st' := by
    intro n c before after hc heq refs st' hrun
    have hgives :
        Gives s (Typing.pending st c) (before.mapM (typeOf s n)) (before.map s.plain) := by
      refine .mapM before (fun a ha st'' himp => ?_)
      have hmem : a ∈ arguments c := heq ▸ List.mem_append_left after ha
      obtain ⟨ha', hn⟩ := hc.1.parts hs hnc hc.2.2 (.single (.argument hc.2.1 hmem)) himp
      exact gives_typeOf hs hnc n ha' hn
    exact hgives.improves hrun
  cases hask with
  | @value n i c v l hmeans hnew hfree hwritten hvalue =>
    obtain ⟨hready, hn⟩ := h
    have hl := hmeans.getElem?
    have hinferred : s.inferredFrom? l = some v := by
      cases hknown : l.known with
      | none => simp only [MethodScope.inferredFrom?, hknown, hwritten, hvalue]
      | some ref =>
        rw [hready.known i l ref hl hknown] at hnew
        cases hnew
    refine ⟨hready.begun hs hnc hmeans hinferred, ?_⟩
    have hweight := s.untyped_cons_add_le hl hfree
    have hpos := c.node.size_pos
    rw [Local.weight, hvalue] at hweight
    dsimp only [Typing.begun] at hweight ⊢
    omega
  | @part n c d hkind hpart =>
    obtain ⟨hready, hn⟩ := h
    have hlt := hpart.below.size_lt
    exact ⟨hready.reaches hs (.single (.part hpart)), by omega⟩
  | call hkind => exact ⟨h.1, hkind, h.2⟩
  | @argument n c a before after refs st' hnew heq hrun =>
    have hmem : a ∈ arguments c := heq ▸ List.mem_append_right before List.mem_cons_self
    exact h.1.parts hs hnc h.2.2 (.single (.argument h.2.1 hmem)) (hargs before _ h heq hrun)
  | @receiver n c obj refs st' hnew hrun hobj =>
    have himp := hargs (arguments c) [] h (List.append_nil _).symm hrun
    exact h.1.parts hs hnc h.2.2 (.single (.receiver h.2.1 hobj)) himp
  | @innerReceiver n c obj o refs ref st₁ st₂ hnew hrun hobj htyped hkind hinner =>
    have himp := hargs (arguments c) [] h (List.append_nil _).symm hrun
    have hpart : Part c obj := .receiver h.2.1 hobj
    obtain ⟨hready, hn⟩ := h.1.parts hs hnc h.2.2 (.single hpart) himp
    have himp' := (gives_typeOf hs hnc n hready hn).improves htyped
    exact h.1.parts hs hnc h.2.2 (.tail (.single hpart) (.receiver hkind hinner))
      (himp.trans himp')

end Typing

/-! ### The states of an analysis -/

namespace MethodScope

/-- The state can be reached by typing expressions and resolving calls of the body, in any order and
any number of times. -/
inductive Reached (s : MethodScope) : TypingState → Prop where
  | init : Reached s s.initialState
  | typeAt {st : TypingState} {c : Cursor} (h : Reached s st) (hc : c.At s.body) :
      Reached s (s.typeAt c st).2
  | callAt {st : TypingState} {c : Cursor} (h : Reached s st) (hc : c.At s.body)
      (hkind : c.kind = .methodInvocation) : Reached s (s.callAt c st).2

/-- The question is put during such an analysis, be it from within another question. -/
inductive During (s : MethodScope) : TypingState → Typing.Question → Prop where
  | typeAt {st : TypingState} {c : Cursor} (h : s.Reached st) (hc : c.At s.body) :
      During s st (.type s.budget c)
  | callAt {st : TypingState} {c : Cursor} (h : s.Reached st) (hc : c.At s.body)
      (hkind : c.kind = .methodInvocation) : During s st (.call s.budget c)
  | asks {st st' : TypingState} {q q' : Typing.Question} (h : During s st q)
      (hask : Typing.Asks s st q st' q') : During s st' q'

variable {s : MethodScope} {c : Cursor} {st : TypingState}

theorem ready_initialState (hc : c.At s.body) : Typing.Ready s c s.initialState where
  place := hc
  clear := .nil c
  calls d r _ hr := by cases hr
  locals i l ref hl href := by
    rw [get?_initialState, hl, Option.bind_some] at href
    unfold Typing.plainLocalType
    rw [href]
  known i l ref hl href := by
    rw [get?_initialState, hl, Option.bind_some, href]

theorem run_of_gives {α : Type} {d v : α} {step : Nat → TypingM α}
    (h : Typing.Gives s st (step s.budget) v) :
    (s.run d step st).1 = v ∧ Typing.Improves s st (s.run d step st).2 := by
  obtain ⟨st', hrun, himp⟩ := h
  unfold run
  rw [hrun]
  exact ⟨rfl, himp⟩

/-- A state that is ready for all nodes of the body gives their plain types. -/
theorem typeAt_of_ready (hs : s.Placed) (hnc : s.NoCycles) (hready : Typing.Ready s c st) :
    (s.typeAt c st).1 = s.plain c ∧ Typing.Improves s st (s.typeAt c st).2 :=
  run_of_gives (Typing.gives_typeOf hs hnc s.budget hready (size_add_untyped_le hready.place _))

theorem callAt_of_ready (hs : s.Placed) (hnc : s.NoCycles) (hready : Typing.Ready s c st)
    (hkind : c.kind = .methodInvocation) :
    (s.callAt c st).1 = s.plainCall c ∧ Typing.Improves s st (s.callAt c st).2 :=
  run_of_gives (Typing.gives_call hs hnc hready hkind
    (Nat.le_succ_of_le (size_add_untyped_le hready.place _)))

theorem Reached.ready (hs : s.Placed) (hnc : s.NoCycles) (h : s.Reached st) (hc : c.At s.body) :
    Typing.Ready s c st := by
  induction h generalizing c with
  | init => exact ready_initialState hc
  | typeAt _ hd ih => exact (ih hc).improve hs (typeAt_of_ready hs hnc (ih hd)).2
  | callAt _ hd hkind ih => exact (ih hc).improve hs (callAt_of_ready hs hnc (ih hd) hkind).2

theorem During.posed (hs : s.Placed) (hnc : s.NoCycles) {q : Typing.Question} (h : s.During st q) :
    q.Posed s st := by
  induction h with
  | typeAt h hc => exact ⟨h.ready hs hnc hc, size_add_untyped_le hc _⟩
  | callAt h hc hkind =>
    exact ⟨h.ready hs hnc hc, hkind, Nat.le_succ_of_le (size_add_untyped_le hc _)⟩
  | asks _ hask ih => exact ih.asks hs hnc hask

/-- A local whose value mentions only locals with larger numbers does not refer back to itself. The
locals of a body are numbered from its end. -/
theorem noCycles_of_lt
    (h : ∀ p ∈ s.locals.zipIdx, ∀ v ∈ s.inferredFrom? p.1, ∀ t ∈ v.node.nodes,
      t.kind = .identifier → ∀ q ∈ s.lookup (s.text t) t.start, p.2 < q.1) : s.NoCycles := by
  have hlt : ∀ i j, s.Refers i j → i < j := by
    rintro i j ⟨l, v, hl, hv, d, l', hd, hkind, hlookup⟩
    exact h (l, i) (List.mem_zipIdx_iff_getElem?.2 hl) v hv d.node (Typing.mem_nodes_of_parts hd)
      hkind (j, l') hlookup
  intro i hi
  have hirrefl : ∀ j, Relation.TransGen s.Refers i j → i < j := by
    intro j hj
    induction hj with
    | single h => exact hlt _ _ h
    | tail _ h ih => exact Nat.lt_trans ih (hlt _ _ h)
  exact Nat.lt_irrefl i (hirrefl i hi)

end MethodScope

/-! ### What is recorded -/

namespace MethodScope

variable {α β : Type} {s : MethodScope} {c : Cursor}

/-- Whatever was asked before, the computation gives the value, and leaves a state that can be
reached. -/
def Settles (s : MethodScope) (x : StateM TypingState α) (v : α) : Prop :=
  ∀ st, s.Reached st → (x st).1 = v ∧ s.Reached (x st).2

/-- What the computation gives does not depend on what was asked before. -/
def Settled (s : MethodScope) (x : StateM TypingState α) : Prop := ∃ v, s.Settles x v

theorem Settles.pure (v : α) : s.Settles (Pure.pure v) v := fun _ h => ⟨rfl, h⟩

theorem Settles.bind {x : StateM TypingState α} {v : α} {k : α → StateM TypingState β} {w : β}
    (hx : s.Settles x v) (hk : s.Settles (k v) w) : s.Settles (x >>= k) w := by
  intro st hst
  obtain ⟨hv, hst'⟩ := hx st hst
  have hrun : (x >>= k) st = k (x st).1 (x st).2 := rfl
  rw [hrun, hv]
  exact hk _ hst'

theorem Settled.pure (v : α) : s.Settled (Pure.pure v) := ⟨v, .pure v⟩

theorem Settles.settled_bind {x : StateM TypingState α} {v : α} {k : α → StateM TypingState β}
    (hx : s.Settles x v) (hk : s.Settled (k v)) : s.Settled (x >>= k) := by
  obtain ⟨w, hk⟩ := hk
  exact ⟨w, hx.bind hk⟩

theorem Settled.bind {x : StateM TypingState α} {k : α → StateM TypingState β}
    (hx : s.Settled x) (hk : ∀ v, s.Settled (k v)) : s.Settled (x >>= k) := by
  obtain ⟨v, hx⟩ := hx
  exact hx.settled_bind (hk v)

theorem Settled.mapM {f : β → StateM TypingState α} (ys : List β)
    (h : ∀ y ∈ ys, s.Settled (f y)) : s.Settled (ys.mapM f) := by
  induction ys with
  | nil => exact .pure []
  | cons y ys ih =>
    rw [List.mapM_cons]
    obtain ⟨hy, hys⟩ := List.forall_mem_cons.1 h
    exact hy.bind (fun v => (ih hys).bind (fun vs => .pure (v :: vs)))

theorem settled_typeAt (hs : s.Placed) (hnc : s.NoCycles) (hc : c.At s.body) :
    s.Settled (s.typeAt c) :=
  ⟨s.plain c, fun _ hst => ⟨(typeAt_of_ready hs hnc (hst.ready hs hnc hc)).1, hst.typeAt hc⟩⟩

theorem settles_callAt (hs : s.Placed) (hnc : s.NoCycles) (hc : c.At s.body)
    (hkind : c.kind = .methodInvocation) : s.Settles (s.callAt c) (s.plainCall c) :=
  fun _ hst => ⟨(callAt_of_ready hs hnc (hst.ready hs hnc hc) hkind).1, hst.callAt hc hkind⟩

end MethodScope

namespace Usage

variable {s : MethodScope} {c : Cursor}

theorem settled_argument (hs : s.Placed) (hnc : s.NoCycles) (hc : c.At s.body) :
    s.Settled (argument s c) := by
  unfold argument
  dsimp only
  split
  · exact .pure _
  · exact (MethodScope.settled_typeAt hs hnc hc).bind (fun ref => .pure _)

theorem settled_ofInvocation (hs : s.Placed) (hnc : s.NoCycles) (hc : c.At s.body)
    (hkind : c.kind = .methodInvocation) : s.Settled (ofInvocation s c) := by
  unfold ofInvocation
  refine (MethodScope.settles_callAt hs hnc hc hkind).settled_bind ?_
  split
  · exact .pure []
  · have hargs : s.Settled ((s.plainCall c).arguments.mapM (argument s)) :=
      .mapM _ (fun a ha => settled_argument hs hnc ((Cursor.below_of_mem_arguments ha).at hc))
    exact hargs.bind (fun args => .pure _)

theorem settled_ofCreation (hs : s.Placed) (hnc : s.NoCycles) (hc : c.At s.body) :
    s.Settled (ofCreation s c) := by
  have hargs : s.Settled ((Typing.arguments c).mapM s.typeAt) := .mapM _ (fun a ha =>
    MethodScope.settled_typeAt hs hnc ((Cursor.below_of_mem_arguments ha).at hc))
  unfold ofCreation
  split
  · exact .pure []
  · dsimp only
    split
    · exact .pure []
    · refine hargs.bind (fun argTypes => ?_)
      split
      · exact .pure []
      · exact .pure _

theorem settled_ofAccess (hs : s.Placed) (hnc : s.NoCycles) (hc : c.At s.body) :
    s.Settled (ofAccess s c) := by
  unfold ofAccess
  split
  next obj member hobj _ =>
    split
    · refine (MethodScope.settled_typeAt hs hnc (hc.of_child? hobj)).bind (fun ref => ?_)
      split
      · split
        · exact .pure _
        · exact .pure []
      · exact .pure []
    · exact .pure []
  next => exact .pure []

theorem settled_ofMethodReference (hs : s.Placed) (hnc : s.NoCycles) (hc : c.At s.body) :
    s.Settled (ofMethodReference s c) := by
  unfold ofMethodReference
  split
  next qualifier second rest last hnamed hlast =>
    have hqualifier : qualifier.At s.body := by
      refine hc.of_mem_namedChildren ?_
      rw [hnamed]
      exact List.mem_cons_self
    split
    · split
      · exact .bind (.pure _) (fun ref => .pure _)
      · exact (MethodScope.settled_typeAt hs hnc hqualifier).bind (fun ref => .pure _)
    · exact .pure []
  next => exact .pure []

theorem settled_ofVisit (hs : s.Placed) (hnc : s.NoCycles) {v : Visit}
    (hv : v ∈ visits s.node s.body) : s.Settled (ofVisit s v) := by
  have hc := at_of_mem_visits hv
  unfold ofVisit
  split
  next hkind => exact settled_ofInvocation hs hnc hc hkind
  next => exact settled_ofCreation hs hnc hc
  next => exact .pure _
  next => exact settled_ofAccess hs hnc hc
  next => exact settled_ofMethodReference hs hnc hc
  next => exact .pure []

/-- A node is recorded as if it were the first one. -/
theorem settles_ofVisit (hs : s.Placed) (hnc : s.NoCycles) {v : Visit}
    (hv : v ∈ visits s.node s.body) :
    s.Settles (ofVisit s v) (ofVisit s v s.initialState).1 := by
  obtain ⟨us, hus⟩ := settled_ofVisit hs hnc hv
  rw [(hus _ .init).1]
  exact hus

theorem settles_along (hs : s.Placed) (hnc : s.NoCycles) (vs : List Visit)
    (hvs : ∀ v ∈ vs, v ∈ visits s.node s.body) :
    s.Settles (along s vs) (vs.flatMap (fun v => (ofVisit s v s.initialState).1)) := by
  induction vs with
  | nil => exact .pure []
  | cons v vs ih =>
    obtain ⟨hv, hvs⟩ := List.forall_mem_cons.1 hvs
    exact (settles_ofVisit hs hnc hv).bind ((ih hvs).bind (.pure _))

end Usage

/-- In a body in which no local refers back to itself, neither remembered calls and types nor the
placeholders show. The plain types satisfy the equations of a recursion without memory, for which
the steps allowed are enough. Every question that is put during an analysis, in any order and at any
depth, is answered by them, and what is recorded at a node does not depend on what was asked
before. -/
theorem typing_memory_transparent {types : TypeTable} {b : MethodBody} {s : MethodScope}
    (hs : MethodScope.ofBody? types b = some s) (hnc : s.NoCycles) :
    (∀ c : Cursor, c.At s.body → s.plain c = Typing.plainStep s s.plain c ∧
        ∀ n, s.budget ≤ n → Typing.plainType s n c = s.plain c) ∧
      (∀ st q, s.During st q → q.Answered s st) ∧
      (∀ v ∈ visits s.node s.body, ∀ st, s.Reached st →
        (Usage.ofVisit s v st).1 = (Usage.ofVisit s v s.initialState).1 ∧
          s.Reached (Usage.ofVisit s v st).2) ∧
      Usage.ofBody types b =
        (visits s.node s.body).flatMap (fun v => (Usage.ofVisit s v s.initialState).1) := by
  have hplaced := MethodScope.placed_of_ofBody? hs
  refine ⟨fun c hc => ⟨hnc.plain_eq hc, fun n hn => hnc.plainType_eq_plain hc hn⟩,
    fun st q h => (h.posed hplaced hnc).answered hplaced hnc,
    fun v hv st hst => Usage.settles_ofVisit hplaced hnc hv st hst, ?_⟩
  unfold Usage.ofBody
  rw [hs]
  exact (Usage.settles_along hplaced hnc _ (fun v hv => hv) _ .init).1

namespace Cart

/-- A class with a method that is called on its own results, through locals without written
types. -/
def lines : List String := [
  "class Cart \x7b Cart add(Cart c) \x7b return c; \x7d\n",
  "void run() \x7b var a = add(this);\n",
  "var b = a.add(a).add(add(a));\n",
  "for (var d : b.all(a)) d.add(b); \x7d \x7d\n"]

/-- The lines with their parse tree. -/
def file : SourceFile where
  path := "Cart.java"
  bytes := (lines.flatMap (fun l => l.toUTF8.data.toList)).toArray
  tree := .node (.other "program") .none 0 143 [
    .node .classDeclaration .none 0 142 [
      .node .identifier .name 6 10 [],
      .node (.other "class_body") .body 11 142 [
        .node .methodDeclaration .none 13 43 [
          .node .typeIdentifier .type 13 17 [],
          .node .identifier .name 18 21 [],
          .node (.other "formal_parameters") .parameters 21 29 [
            .node .formalParameter .none 22 28 [
              .node .typeIdentifier .type 22 26 [],
              .node .identifier .name 27 28 []]],
          .node (.other "block") .body 30 43 [
            .node (.other "return_statement") .none 32 41 [.node .identifier .none 39 40 []]]],
        .node .methodDeclaration .none 44 140 [
          .node (.other "void_type") .type 44 48 [],
          .node .identifier .name 49 52 [],
          .node (.other "formal_parameters") .parameters 52 54 [],
          .node (.other "block") .body 55 140 [
            .node .localVariableDeclaration .none 57 75 [
              .node .typeIdentifier .type 57 60 [],
              .node .variableDeclarator .declarator 61 74 [
                .node .identifier .name 61 62 [],
                .node .methodInvocation .value 65 74 [
                  .node .identifier .name 65 68 [],
                  .node (.other "argument_list") .arguments 68 74 [.node .this .none 69 73 []]]]],
            .node .localVariableDeclaration .none 76 105 [
              .node .typeIdentifier .type 76 79 [],
              .node .variableDeclarator .declarator 80 104 [
                .node .identifier .name 80 81 [],
                .node .methodInvocation .value 84 104 [
                  .node .methodInvocation .object 84 92 [
                    .node .identifier .object 84 85 [],
                    .node .identifier .name 86 89 [],
                    .node (.other "argument_list") .arguments 89 92 [
                      .node .identifier .none 90 91 []]],
                  .node .identifier .name 93 96 [],
                  .node (.other "argument_list") .arguments 96 104 [
                    .node .methodInvocation .none 97 103 [
                      .node .identifier .name 97 100 [],
                      .node (.other "argument_list") .arguments 100 103 [
                        .node .identifier .none 101 102 []]]]]]],
            .node .enhancedForStatement .none 106 138 [
              .node .typeIdentifier .type 111 114 [],
              .node .identifier .name 115 116 [],
              .node .methodInvocation .value 119 127 [
                .node .identifier .object 119 120 [],
                .node .identifier .name 121 124 [],
                .node (.other "argument_list") .arguments 124 127 [
                  .node .identifier .none 125 126 []]],
              .node (.other "expression_statement") .body 129 138 [
                .node .methodInvocation .none 129 137 [
                  .node .identifier .object 129 130 [],
                  .node .identifier .name 131 134 [],
                  .node (.other "argument_list") .arguments 134 137 [
                    .node .identifier .none 135 136 []]]]]]]]]]

def types : TypeTable := (Index.ofFiles [file] []).types

end Cart

set_option maxRecDepth 100000 in
/-- Each local of the method has its type from a value that mentions the locals before it, and calls
are nested in the receivers and the arguments of others. -/
theorem typing_memory_transparent_cart :
    ∃ b ∈ Index.bodies (Registry.ofFiles [Cart.file]), ∃ s,
      MethodScope.ofBody? Cart.types b = some s ∧ s.locals.map Local.name = ["d", "b", "a"] ∧
      s.NoCycles ∧
      (∀ st q, s.During st q → q.Answered s st) ∧
      Usage.ofBody Cart.types b =
        (visits s.node s.body).flatMap (fun v => (Usage.ofVisit s v s.initialState).1) := by
  have hbody : ∃ b ∈ Index.bodies (Registry.ofFiles [Cart.file]),
      ∃ s ∈ MethodScope.ofBody? Cart.types b, s.locals.map Local.name = ["d", "b", "a"] ∧
        ∀ p ∈ s.locals.zipIdx, ∀ v ∈ s.inferredFrom? p.1, ∀ t ∈ v.node.nodes,
          t.kind = .identifier → ∀ q ∈ s.lookup (s.text t) t.start, p.2 < q.1 := by
    decide +kernel
  obtain ⟨b, hb, s, hs, hnames, hlt⟩ := hbody
  have hnc := MethodScope.noCycles_of_lt hlt
  obtain ⟨-, hanswers, -, hrecorded⟩ := typing_memory_transparent hs hnc
  exact ⟨b, hb, s, hs, hnames, hnc, hanswers, hrecorded⟩

end FieldTrace
