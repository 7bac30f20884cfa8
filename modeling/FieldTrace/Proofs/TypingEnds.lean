import FieldTrace.Proofs.Registration
import FieldTrace.Index.Typing

/-! # Typing an expression always ends

Typing descends in the tree, but for a name it jumps to the initial value of a local, which may stand
anywhere in the body, the place of the name included. Such a jump takes one more local into those
being typed, and no local is taken in twice. So each nested step makes the nodes of the expression,
together with the weights of the locals not being typed, fewer (`MethodScope.untyped`), and this many
steps are enough whatever is remembered at the start (`Typing.Ends`). -/

namespace FieldTrace

open Syntax

/-! ### Sizes -/

namespace Syntax

theorem Tree.size_pos (t : Tree) : 0 < t.size := by
  obtain ⟨k, r, s, e, cs⟩ := t
  rw [Tree.size]
  omega

mutual

theorem size_le_of_mem_nodes {t : Tree} : ∀ root : Tree, t ∈ root.nodes → t.size ≤ root.size
  | .node k r s e cs => by
    intro h
    rw [Tree.nodes] at h
    obtain rfl | h := List.mem_cons.1 h
    · exact Nat.le_refl _
    · have := size_le_of_mem_nodesAll cs h
      rw [Tree.size]
      omega

theorem size_le_of_mem_nodesAll {t : Tree} :
    ∀ roots : List Tree, t ∈ nodesAll roots → t.size ≤ sizeAll roots
  | [] => by
    intro h
    rw [nodesAll] at h
    cases h
  | root :: roots => by
    intro h
    rw [nodesAll] at h
    rw [sizeAll]
    obtain h | h := List.mem_append.1 h
    · have := size_le_of_mem_nodes root h
      omega
    · have := size_le_of_mem_nodesAll roots h
      omega

end

namespace Cursor

variable {c d : Cursor}

theorem size_lt_of_mem_children (h : d ∈ c.children) : d.node.size < c.node.size := by
  obtain ⟨p, hp, rfl⟩ := List.mem_map.1 h
  have hmem : p.1 ∈ c.node.children := List.fst_mem_of_mem_zipIdx hp
  have hle := size_le_sizeAll hmem
  obtain ⟨path, k, r, s, e, cs⟩ := c
  rw [Tree.size]
  exact Nat.lt_succ_of_le hle

theorem size_lt_of_mem_namedChildren (h : d ∈ c.namedChildren) : d.node.size < c.node.size :=
  size_lt_of_mem_children (List.mem_filter.1 h).1

theorem size_lt_of_child? {r : Role} (h : c.child? r = some d) : d.node.size < c.node.size :=
  size_lt_of_mem_children (List.mem_of_find?_eq_some h)

end Cursor

end Syntax

theorem Typing.size_lt_of_mem_arguments {c d : Cursor} (h : d ∈ arguments c) :
    d.node.size < c.node.size := by
  unfold arguments at h
  split at h
  next args hargs =>
    have hd := Cursor.size_lt_of_mem_namedChildren (List.mem_filter.1 h).1
    have hc := Cursor.size_lt_of_child? hargs
    omega
  next => cases h

/-! ### Locals that are not being typed -/

theorem total_map_le {α : Type} {f g : α → Nat} (h : ∀ x, f x ≤ g x) (xs : List α) :
    total (xs.map f) ≤ total (xs.map g) := by
  induction xs with
  | nil => exact Nat.le_refl _
  | cons x xs ih =>
    have hx := h x
    simp only [List.map_cons, total]
    omega

/-- A sum of smaller counts is less by at least the difference at one place. -/
theorem total_map_add_le {α : Type} {f g : α → Nat} {x : α} {d : Nat} {xs : List α} (hx : x ∈ xs)
    (hd : f x + d ≤ g x) (h : ∀ y, f y ≤ g y) : total (xs.map f) + d ≤ total (xs.map g) := by
  induction xs with
  | nil => cases hx
  | cons y ys ih =>
    simp only [List.map_cons, total]
    obtain rfl | hx := List.mem_cons.1 hx
    · have hys := total_map_le h ys
      omega
    · have hy := h y
      have hys := ih hx
      omega

namespace MethodScope

variable (s : MethodScope)

/-- The weight of the locals of a method. -/
def weight : Nat := total (s.locals.map Local.weight)

/-- The weight of the locals that are not among those being typed. -/
def untyped (resolving : List Nat) : Nat :=
  total (s.locals.zipIdx.map (fun p => if resolving.contains p.2 then 0 else p.1.weight))

theorem untyped_le_weight (resolving : List Nat) : s.untyped resolving ≤ s.weight := by
  have hall : s.locals.zipIdx.map (fun p => p.1.weight) = s.locals.map Local.weight :=
    List.map_map.symm.trans (congrArg (List.map Local.weight) (List.zipIdx_map_fst 0 s.locals))
  rw [weight, ← hall]
  refine total_map_le (fun p => ?_) _
  split
  · exact Nat.zero_le _
  · exact Nat.le_refl _

/-- Beginning to type a local takes its weight away. -/
theorem untyped_cons_add_le {resolving : List Nat} {i : Nat} {l : Local}
    (hl : s.locals[i]? = some l) (hi : i ∉ resolving) :
    s.untyped (i :: resolving) + l.weight ≤ s.untyped resolving := by
  have hmem : (l, i) ∈ s.locals.zipIdx := List.mem_zipIdx_iff_getElem?.2 hl
  refine total_map_add_le hmem ?_ (fun p => ?_)
  · simp [hi]
  · by_cases hp : p.2 = i <;> simp [hp]

/-- The number that a lookup gives is that of the local. -/
theorem getElem?_of_lookup {name : String} {position i : Nat} {l : Local}
    (h : s.lookup name position = some (i, l)) : s.locals[i]? = some l := by
  have hbest : ∀ i l, s.lookup name position = some (i, l) → (l, i) ∈ s.locals.zipIdx := by
    refine List.foldlRecOn
      (motive := fun (best : Option (Nat × Local)) =>
        ∀ i l, best = some (i, l) → (l, i) ∈ s.locals.zipIdx)
      s.locals.zipIdx _ (by rintro i l ⟨⟩) ?_
    intro best hbest p hp i l h
    split at h
    · cases h
      exact hp
    · exact hbest i l h
  exact List.mem_zipIdx_iff_getElem?.1 (hbest i l h)

end MethodScope

/-! ### Computations that end -/

namespace Typing

variable {α β : Type} {bound : Nat} {st : TypingState}

/-- Started in the state, a computation gives one and the same in `bound` steps and in more, and
then the locals being typed are those of before. -/
def Ends (bound : Nat) (st : TypingState) (x : Nat → TypingM α) : Prop :=
  ∃ v st', st'.resolving = st.resolving ∧ ∀ n, bound ≤ n → x n st = some (v, st')

namespace Ends

theorem mono {bound' : Nat} {x : Nat → TypingM α} (h : Ends bound st x) (hle : bound ≤ bound') :
    Ends bound' st x := by
  obtain ⟨v, st', hst, hrun⟩ := h
  exact ⟨v, st', hst, fun n hn => hrun n (Nat.le_trans hle hn)⟩

/-- What is done in the steps after the first. -/
theorem succ {x : Nat → TypingM α} (h : Ends bound st (fun n => x (n + 1))) :
    Ends (bound + 1) st x := by
  obtain ⟨v, st', hst, hrun⟩ := h
  refine ⟨v, st', hst, fun n hn => ?_⟩
  obtain ⟨n, rfl⟩ := Nat.exists_eq_add_of_le' (Nat.le_trans (Nat.le_add_left 1 bound) hn)
  exact hrun n (Nat.le_of_succ_le_succ hn)

theorem pure (v : α) : Ends bound st (fun _ => Pure.pure v) :=
  ⟨v, st, rfl, fun _ _ => rfl⟩

theorem bind {x : Nat → TypingM α} {k : Nat → α → TypingM β} (hx : Ends bound st x)
    (hk : ∀ v st', st'.resolving = st.resolving → Ends bound st' (fun n => k n v)) :
    Ends bound st (fun n => x n >>= k n) := by
  obtain ⟨v, st', hst, hrun⟩ := hx
  obtain ⟨w, st'', hst', hrun'⟩ := hk v st' hst
  refine ⟨w, st'', hst'.trans hst, fun n hn => ?_⟩
  exact Option.bind_eq_some_iff.2 ⟨(v, st'), hrun n hn, hrun' n hn⟩

theorem get_bind {k : Nat → TypingState → TypingM β} (h : Ends bound st (fun n => k n st)) :
    Ends bound st (fun n => get >>= k n) := h

theorem modify_bind {f : TypingState → TypingState} {k : Nat → PUnit → TypingM β}
    (hf : (f st).resolving = st.resolving) (h : Ends bound (f st) (fun n => k n ⟨⟩)) :
    Ends bound st (fun n => modify f >>= k n) := by
  obtain ⟨v, st', hst, hrun⟩ := h
  exact ⟨v, st', hst.trans hf, hrun⟩

/-- A local is taken into those being typed and then out again. -/
theorem resolving_bind {i : Nat} {x : Nat → TypingM α} {k : Nat → α → TypingM β}
    (hx : Ends bound { st with resolving := i :: st.resolving } x)
    (hk : ∀ v st', st'.resolving = st.resolving → Ends bound st' (fun n => k n v)) :
    Ends bound st (fun n => do
      modify (fun st => { st with resolving := i :: st.resolving })
      let v ← x n
      modify (fun st => { st with resolving := st.resolving.erase i })
      k n v) := by
  obtain ⟨v, st', hst, hrun⟩ := hx
  have herase : st'.resolving.erase i = st.resolving := by
    rw [hst, List.erase_cons_head]
  obtain ⟨w, st'', hst', hrun'⟩ := hk v { st' with resolving := st'.resolving.erase i } herase
  refine ⟨w, st'', hst'.trans herase, fun n hn => ?_⟩
  exact Option.bind_eq_some_iff.2 ⟨(v, st'), hrun n hn, hrun' n hn⟩

theorem mapM {f : Nat → β → TypingM α} (xs : List β)
    (hf : ∀ x ∈ xs, ∀ st', st'.resolving = st.resolving → Ends bound st' (fun n => f n x)) :
    Ends bound st (fun n => xs.mapM (f n)) := by
  induction xs generalizing st with
  | nil => exact .pure []
  | cons x xs ih =>
    simp only [List.mapM_cons]
    obtain ⟨hx, hxs⟩ := List.forall_mem_cons.1 hf
    refine .bind (hx st rfl) (fun v st' hst' => ?_)
    refine .bind (ih (fun y hy st'' hst'' => hxs y hy st'' (hst''.trans hst'))) (fun vs st'' _ => ?_)
    exact .pure (v :: vs)

end Ends

/-! ### The functions that type

Each ends in a number of steps in which smaller expressions are typed. -/

variable {s : MethodScope} {typeOf : Nat → Cursor → TypingM (Option TypeRef)}

theorem ends_localType {i : Nat} {l : Local}
    (htype : ∀ v, l.value = some v → i ∉ st.resolving →
      Ends bound { st with resolving := i :: st.resolving } (fun n => typeOf n v)) :
    Ends bound st (fun n => localType s (typeOf n) i l) := by
  unfold localType
  refine .get_bind ?_
  cases st.localTypes.get? i with
  | some ref => exact .pure (some ref)
  | none =>
    refine .get_bind ?_
    by_cases hi : st.resolving.contains i = true
    · simp only [if_pos hi]
      exact .pure none
    · simp only [if_neg hi]
      have hfresh : Ends bound { st with resolving := i :: st.resolving }
          (fun n => localTypeFresh s (typeOf n) l) := by
        unfold localTypeFresh
        cases l.typeNode.filter (fun t => s.text t ≠ "var") with
        | some t => exact .pure _
        | none =>
          cases hv : l.value with
          | none => exact .pure none
          | some v =>
            refine .bind (htype v hv (by simpa using hi)) (fun ref st' _ => ?_)
            exact .pure _
      refine .resolving_bind hfresh (fun found st' _ => ?_)
      cases found with
      | none => exact .pure none
      | some ref => exact .modify_bind rfl (.pure (some ref))

/-- Typing any expression smaller than the node ends while the same locals are being typed. -/
def EndsBelow (bound : Nat) (resolving : List Nat)
    (typeOf : Nat → Cursor → TypingM (Option TypeRef)) (c : Cursor) : Prop :=
  ∀ d, d.node.size < c.node.size → ∀ st : TypingState, st.resolving = resolving →
    Ends bound st (fun n => typeOf n d)

theorem ends_resolveExplicit {c obj : Cursor} (htype : EndsBelow bound st.resolving typeOf c)
    (hobj : obj.node.size < c.node.size) (name : String) (args : List (Option TypeRef)) :
    Ends bound st (fun n => resolveExplicit s (typeOf n) obj name args) := by
  unfold resolveExplicit
  refine .bind (htype obj hobj st rfl) (fun ref st' hst' => ?_)
  dsimp only
  cases hinner : (if obj.kind = .methodInvocation then obj.child? .object else none) with
  | none => exact .bind (.pure none) (fun innerRef st'' _ => .pure _)
  | some o =>
    obtain ⟨-, ho⟩ := Option.ite_none_right_eq_some.1 hinner
    have hlt := Nat.lt_trans (Cursor.size_lt_of_child? ho) hobj
    exact .bind (htype o hlt st' hst') (fun innerRef st'' _ => .pure _)

theorem ends_resolveCall {c : Cursor} (htype : EndsBelow bound st.resolving typeOf c) :
    Ends bound st (fun n => resolveCall s (typeOf n) c) := by
  unfold resolveCall
  refine .get_bind ?_
  cases st.calls.get? c.path with
  | some r => exact .pure r
  | none =>
    refine .modify_bind rfl ?_
    have hargs : Ends bound { st with calls := st.calls.insert c.path {} }
        (fun n => (arguments c).mapM (typeOf n)) :=
      .mapM _ (fun a ha st' hst' => htype a (size_lt_of_mem_arguments ha) st' hst')
    refine .bind hargs (fun argTypes st' hst' => ?_)
    cases hobj : c.child? .object with
    | none => exact .bind (.pure _) (fun found st'' _ => .modify_bind rfl (.pure _))
    | some obj =>
      have hlt := Cursor.size_lt_of_child? hobj
      refine .bind (ends_resolveExplicit (c := c) ?_ hlt _ argTypes)
        (fun found st'' _ => .modify_bind rfl (.pure _))
      exact fun d hd st'' hst'' => htype d hd st'' (hst''.trans hst')

/-- As many steps as the expression has nodes and the locals that are not being typed weigh are
enough. -/
theorem ends_typeOf (s : MethodScope) (bound : Nat) (c : Cursor) (st : TypingState)
    (hbound : c.node.size + s.untyped st.resolving ≤ bound) :
    Ends bound st (fun n => Typing.typeOf s n c) := by
  induction bound generalizing c st with
  | zero =>
    have := c.node.size_pos
    omega
  | succ bound ih =>
    have hbelow : EndsBelow bound st.resolving (Typing.typeOf s) c := by
      intro d hd st' hst'
      refine ih d st' ?_
      rw [hst']
      omega
    refine .succ ?_
    unfold Typing.typeOf
    split
    · -- a name: either no local, or one that is now being typed
      dsimp only
      split
      next i l hlookup =>
        refine ends_localType (fun v hv hi => ih v _ ?_)
        have hweight := s.untyped_cons_add_le (s.getElem?_of_lookup hlookup) hi
        have hpos := c.node.size_pos
        rw [Local.weight, hv] at hweight
        dsimp only at hweight ⊢
        omega
      next => exact .pure _
    · exact .pure _
    · exact .pure _
    · -- a member of an object
      split
      next obj member hobj hmember =>
        split
        · exact .pure _
        · exact .bind (hbelow obj (Cursor.size_lt_of_child? hobj) st rfl)
            (fun ref st' _ => .pure _)
      next => exact .pure _
    · exact .bind (ends_resolveCall hbelow) (fun r st' _ => .pure _)
    · exact .pure _
    · exact .pure _
    · -- an expression in parentheses
      split
      next inner hinner =>
        have hmem := List.mem_of_find?_eq_some hinner
        exact hbelow inner (Cursor.size_lt_of_mem_namedChildren hmem) st rfl
      next => exact .pure _
    · exact .pure _
    · exact .pure _
    · exact .pure _
    · -- an item of an array, one branch of a choice, and the left side of an assignment
      split
      next array harray =>
        exact .bind (hbelow array (Cursor.size_lt_of_child? harray) st rfl)
          (fun ref st' _ => .pure _)
      next => exact .pure _
    · split
      next branch hbranch => exact hbelow branch (Cursor.size_lt_of_child? hbranch) st rfl
      next => exact .pure _
    · split
      next left hleft => exact hbelow left (Cursor.size_lt_of_child? hleft) st rfl
      next => exact .pure _
    · exact .pure _

/-- Typing an expression, typing a local and resolving a call end, whatever the tree, the calls and
types remembered and the locals being typed, and on return the locals being typed are those of
before. At the nodes of the body the steps that are allowed are enough. -/
theorem typing_always_ends (s : MethodScope) (st : TypingState) :
    (∀ c : Cursor, Ends (c.node.size + s.weight) st (fun n => Typing.typeOf s n c)) ∧
      (∀ i l, s.locals[i]? = some l →
        Ends s.weight st (fun n => localType s (Typing.typeOf s n) i l)) ∧
      (∀ c : Cursor, Ends (c.node.size + s.weight) st
        (fun n => resolveCall s (Typing.typeOf s n) c)) ∧
      ∀ c : Cursor, c.node ∈ s.body.nodes →
        Ends s.budget st (fun n => Typing.typeOf s n c) ∧
          Ends s.budget st (fun n => resolveCall s (Typing.typeOf s n) c) := by
  have htype : ∀ (c : Cursor) (st' : TypingState),
      Ends (c.node.size + s.weight) st' (fun n => Typing.typeOf s n c) := by
    intro c st'
    exact ends_typeOf s _ c st' (Nat.add_le_add_left (s.untyped_le_weight _) _)
  have hcall : ∀ c : Cursor,
      Ends (c.node.size + s.weight) st (fun n => resolveCall s (Typing.typeOf s n) c) := by
    intro c
    exact ends_resolveCall (fun d hd st' _ => (htype d st').mono (by omega))
  refine ⟨fun c => htype c st, fun i l hl => ?_, hcall, fun c hc => ?_⟩
  · refine ends_localType (fun v hv hi => ends_typeOf s _ v _ ?_)
    -- the local itself no longer counts, so its value has the steps that it weighs
    have hweight := s.untyped_cons_add_le hl hi
    have hle := s.untyped_le_weight st.resolving
    rw [Local.weight, hv] at hweight
    dsimp only at hweight ⊢
    omega
  · have hsize : c.node.size + s.weight ≤ s.budget :=
      Nat.add_le_add_right (size_le_of_mem_nodes s.body hc) _
    exact ⟨(htype c st).mono hsize, (hcall c).mono hsize⟩

end Typing

namespace Looping

/-- A local that is named in its own initial value, and one that runs over a value of its own. -/
def source : String := "void m()\x7bvar x=f(x);for(var y:y.f(x))\x7b\x7d\x7d"

/-- The value `y.f(x)` that the second local runs over. -/
def items : Tree :=
  .node .methodInvocation .value 30 36 [
    .node .identifier .object 30 31 [],
    .node .identifier .name 32 33 [],
    .node (.other "argument_list") .arguments 33 36 [.node .identifier .none 34 35 []]]

def body : Tree :=
  .node (.other "block") .body 8 40 [
    .node .localVariableDeclaration .none 9 20 [
      .node .typeIdentifier .type 9 12 [],
      .node .variableDeclarator .declarator 13 19 [
        .node .identifier .name 13 14 [],
        .node .methodInvocation .value 15 19 [
          .node .identifier .name 15 16 [],
          .node (.other "argument_list") .arguments 16 19 [.node .identifier .none 17 18 []]]]],
    .node .enhancedForStatement .none 20 39 [
      .node .typeIdentifier .type 24 27 [],
      .node .identifier .name 28 29 [],
      items,
      .node (.other "block") .body 37 39 []]]

/-- The method with its parse tree. -/
def method : MethodBody where
  decl := {
    id := ⟨"Loop", "m", []⟩, returnType := none, params := [], annotations := []
    ownerAnnotations := [], location := ⟨"Loop.java", 1⟩ }
  node := .node .methodDeclaration .none 0 40 [.node .identifier .name 5 6 [], body]
  names := {
    registry := {}, context := {}, chain := ["Loop"]
    file := { path := "Loop.java", bytes := source.toUTF8.data, tree := body } }

/-- The scope of its body. -/
def scope : MethodScope where
  decl := method.decl
  names := method.names
  types := .empty
  node := method.node
  body := body
  locals := Locals.ofMethod method.names method.decl method.node body

end Looping

/-- Typing the value of the loop meets both locals while they are being typed, and ends. -/
theorem typing_always_ends_looping :
    MethodScope.ofBody? .empty Looping.method = some Looping.scope ∧
      Typing.Ends Looping.scope.budget {}
        (fun n => Typing.typeOf Looping.scope n ⟨[2, 1], Looping.items⟩) ∧
      (Typing.typeOf Looping.scope Looping.scope.budget ⟨[2, 1], Looping.items⟩ {}).map
        (fun r => (r.1, r.2.resolving, r.2.calls.keys)) = some (none, [], [[2, 1], [1, 1, 0]]) := by
  refine ⟨rfl, ?_, by decide +kernel⟩
  have hitems : Looping.items ∈ Looping.scope.body.nodes :=
    List.mem_of_getElem? (i := 12) rfl
  exact ((Typing.typing_always_ends Looping.scope {}).2.2.2 _ hitems).1

end FieldTrace
