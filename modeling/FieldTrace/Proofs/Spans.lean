import FieldTrace.Proofs.Positions

/-! # Byte ranges and positions

In a parse tree the ranges of siblings follow one another inside the range of their parent
(`Tree.nested`). There the range of a node covers a token exactly when the position of the node
leads on to that of the token (`TokenAt.covers_iff`), and ranges that begin at one node and end with
another can be read off the child indices on the way to the token (`TokenAt.from_child_iff`,
`TokenAt.from_grandchild_iff`). -/

namespace FieldTrace.Syntax

/-! ### Nested ranges -/

mutual

/-- The ranges of the children follow one another inside the range of the node, at every node. -/
def Tree.nested : Tree → Bool
  | .node _ _ s e cs => nestedWithin s e cs

/-- The ranges of the trees follow one another between two offsets. -/
def nestedWithin : Nat → Nat → List Tree → Bool
  | s, e, [] => decide (s ≤ e)
  | s, e, t :: ts => decide (s ≤ t.start) && t.nested && nestedWithin t.stop e ts

end

theorem nestedWithin_cons {s e : Nat} {t : Tree} {ts : List Tree} :
    nestedWithin s e (t :: ts) = true ↔
      s ≤ t.start ∧ t.nested = true ∧ nestedWithin t.stop e ts = true := by
  rw [nestedWithin, Bool.and_eq_true, Bool.and_eq_true, decide_eq_true_iff, and_assoc]

mutual

theorem Tree.start_le_stop : ∀ t : Tree, t.nested = true → t.start ≤ t.stop
  | .node _ _ s e cs => by
    intro h
    rw [Tree.nested] at h
    exact le_of_nestedWithin cs s e h

theorem le_of_nestedWithin : ∀ (ts : List Tree) (s e : Nat), nestedWithin s e ts = true → s ≤ e
  | [], s, e => by
    intro h
    rw [nestedWithin] at h
    exact of_decide_eq_true h
  | t :: ts, s, e => by
    intro h
    obtain ⟨hs, ht, hts⟩ := nestedWithin_cons.1 h
    have hmiddle := Tree.start_le_stop t ht
    have hrest := le_of_nestedWithin ts t.stop e hts
    omega

end

theorem nested_of_getElem? {s e i : Nat} {ts : List Tree} {c : Tree}
    (h : nestedWithin s e ts = true) (hc : ts[i]? = some c) :
    c.nested = true ∧ s ≤ c.start ∧ c.stop ≤ e := by
  induction ts generalizing s i with
  | nil => cases hc
  | cons t ts ih =>
    obtain ⟨hs, ht, hts⟩ := nestedWithin_cons.1 h
    cases i with
    | zero =>
      cases hc
      exact ⟨ht, hs, le_of_nestedWithin ts _ e hts⟩
    | succ i =>
      obtain ⟨hc', hlow, hhigh⟩ := ih hts hc
      have hmiddle := Tree.start_le_stop t ht
      exact ⟨hc', by omega, hhigh⟩

theorem stop_le_start_of_lt {s e i j : Nat} {ts : List Tree} {c d : Tree}
    (h : nestedWithin s e ts = true) (hij : i < j) (hc : ts[i]? = some c) (hd : ts[j]? = some d) :
    c.stop ≤ d.start := by
  induction ts generalizing s i j with
  | nil => cases hc
  | cons t ts ih =>
    obtain ⟨-, -, hts⟩ := nestedWithin_cons.1 h
    obtain ⟨j, rfl⟩ : ∃ k, j = k + 1 := ⟨j - 1, by omega⟩
    cases i with
    | zero =>
      cases hc
      exact (nested_of_getElem? hts hd).2.1
    | succ i => exact ih hts (by omega) hc hd

namespace Tree

variable {t c d u : Tree} {i j : Nat}

theorem nestedWithin_children (h : t.nested = true) :
    nestedWithin t.start t.stop t.children = true := by
  obtain ⟨k, r, s, e, cs⟩ := t
  rw [nested] at h
  exact h

theorem nested_child (h : t.nested = true) (hc : t.children[i]? = some c) :
    c.nested = true ∧ t.start ≤ c.start ∧ c.stop ≤ t.stop :=
  nested_of_getElem? (nestedWithin_children h) hc

theorem nested_get? {is : List Nat} (h : t.nested = true) (hu : t.get? is = some u) :
    u.nested = true ∧ t.start ≤ u.start ∧ u.stop ≤ t.stop := by
  induction is generalizing t with
  | nil =>
    cases hu
    exact ⟨h, Nat.le_refl _, Nat.le_refl _⟩
  | cons i is ih =>
    obtain ⟨c, hc, hu⟩ := Option.bind_eq_some_iff.1 hu
    obtain ⟨hc', hlow, hhigh⟩ := nested_child h hc
    obtain ⟨hu', hlow', hhigh'⟩ := ih hc' hu
    exact ⟨hu', by omega, by omega⟩

end Tree

/-! ### The way to a node -/

/-- The nodes above the one at a position, outermost first, each with the child that leads on. -/
def Tree.way : Tree → List Nat → List (Tree × Nat)
  | _, [] => []
  | t, i :: is =>
    (t, i) :: (match t.children[i]? with
      | some c => c.way is
      | none => [])

theorem Tree.mem_way_iff {root t : Tree} {j : Nat} {is : List Nat} :
    (t, j) ∈ root.way is ↔
      ∃ above rest, is = above ++ j :: rest ∧ root.get? above = some t := by
  induction is generalizing root with
  | nil => simp [way]
  | cons i is ih =>
    rw [way, List.mem_cons]
    constructor
    · rintro (h | h)
      · cases h
        exact ⟨[], is, rfl, rfl⟩
      · split at h
        next c hc =>
          obtain ⟨above, rest, rfl, hget⟩ := ih.1 h
          refine ⟨i :: above, rest, rfl, ?_⟩
          rw [get?_cons, hc, Option.bind_some]
          exact hget
        next => cases h
    · rintro ⟨above, rest, heq, hget⟩
      cases above with
      | nil =>
        cases heq
        cases hget
        exact .inl rfl
      | cons k above =>
        cases heq
        obtain ⟨c, hc, hget⟩ := Option.bind_eq_some_iff.1 hget
        rw [hc]
        exact .inr (ih.2 ⟨above, rest, rfl, hget⟩)

/-! ### Tokens -/

/-- The node at a position below the root is a leaf that is not empty, and ranges are nested. -/
structure TokenAt (root : Tree) (is : List Nat) (v : Tree) : Prop where
  nested : root.nested = true
  place : root.get? is = some v
  leaf : v.children = []
  nonempty : v.start < v.stop

namespace TokenAt

variable {root t u c d v : Tree} {is above rest : List Nat} {i j m : Nat}

theorem below (h : TokenAt root (above ++ rest) v) (ht : root.get? above = some t) :
    TokenAt t rest v where
  nested := (Tree.nested_get? h.nested ht).1
  place := by
    have hplace := h.place
    rw [Tree.get?_append, ht] at hplace
    exact hplace
  leaf := h.leaf
  nonempty := h.nonempty

theorem inside (h : TokenAt root is v) : root.start ≤ v.start ∧ v.start < root.stop := by
  obtain ⟨-, hlow, hhigh⟩ := Tree.nested_get? h.nested h.place
  have := h.nonempty
  omega

/-- The children up to the one that holds the token begin before it, and the others after it. -/
theorem start_le_iff (h : TokenAt t (j :: rest) v) (hc : t.children[i]? = some c) :
    c.start ≤ v.start ↔ i ≤ j := by
  obtain ⟨d, hd, hv⟩ := Option.bind_eq_some_iff.1 h.place
  have hd' := Tree.nested_child h.nested hd
  have hv' := Tree.nested_get? hd'.1 hv
  have hpos := h.nonempty
  have hchildren := Tree.nestedWithin_children h.nested
  obtain hlt | rfl | hgt := Nat.lt_trichotomy i j
  · have hbefore := stop_le_start_of_lt hchildren hlt hc hd
    have := Tree.start_le_stop c (Tree.nested_child h.nested hc).1
    omega
  · cases hc.symm.trans hd
    omega
  · have hafter := stop_le_start_of_lt hchildren hgt hd hc
    omega

/-- A range covers the token exactly if its node is the token or above it. -/
theorem covers_iff_prefix (h : TokenAt root is v) (ht : root.get? above = some t) :
    (t.start ≤ v.start ∧ v.start < t.stop) ↔ ∃ rest, is = above ++ rest := by
  constructor
  · intro hcover
    induction above generalizing root is with
    | nil => exact ⟨is, rfl⟩
    | cons i above ih =>
      obtain ⟨c, hc, ht⟩ := Option.bind_eq_some_iff.1 ht
      have hc' := Tree.nested_child h.nested hc
      have ht' := Tree.nested_get? hc'.1 ht
      cases is with
      | nil =>
        cases h.place
        rw [h.leaf] at hc
        cases hc
      | cons j is =>
        have hle : i ≤ j := (h.start_le_iff hc).1 (by omega)
        obtain ⟨d, hd, hv⟩ := Option.bind_eq_some_iff.1 h.place
        have hd' := Tree.nested_child h.nested hd
        have hv' := Tree.nested_get? hd'.1 hv
        obtain hlt | rfl := Nat.lt_or_eq_of_le hle
        · -- a child before the one with the token ends too early
          have hbefore := stop_le_start_of_lt (Tree.nestedWithin_children h.nested) hlt hc hd
          omega
        · cases hc.symm.trans hd
          obtain ⟨rest, rfl⟩ := ih ⟨hc'.1, hv, h.leaf, h.nonempty⟩ ht
          exact ⟨rest, rfl⟩
  · rintro ⟨rest, rfl⟩
    exact (h.below ht).inside

/-- A range covers the token exactly if a child of its node leads on to the token. -/
theorem covers_iff (h : TokenAt root is v) (ht : root.get? above = some t) (hne : t ≠ v) :
    (t.start ≤ v.start ∧ v.start < t.stop) ↔ ∃ j rest, is = above ++ j :: rest := by
  rw [h.covers_iff_prefix ht]
  constructor
  · rintro ⟨rest, rfl⟩
    cases rest with
    | nil =>
      rw [List.append_nil] at h
      exact absurd (Option.some.inj (ht.symm.trans h.place)) hne
    | cons j rest => exact ⟨j, rest, rfl⟩
  · rintro ⟨j, rest, rfl⟩
    exact ⟨j :: rest, rfl⟩

theorem ne_of_child (h : TokenAt root is v) (hc : t.children[i]? = some c) : t ≠ v := by
  rintro rfl
  rw [h.leaf] at hc
  cases hc

/-- From the start of a child to the end of its parent. -/
theorem from_child_iff (h : TokenAt root is v) (ht : root.get? above = some t)
    (hc : t.children[i]? = some c) :
    (c.start ≤ v.start ∧ v.start < t.stop) ↔ ∃ j rest, is = above ++ j :: rest ∧ i ≤ j := by
  have hcovers := h.covers_iff ht (h.ne_of_child hc)
  constructor
  · rintro ⟨hlow, hhigh⟩
    have hc' := Tree.nested_child (Tree.nested_get? h.nested ht).1 hc
    obtain ⟨j, rest, rfl⟩ := hcovers.1 ⟨by omega, hhigh⟩
    exact ⟨j, rest, rfl, ((h.below ht).start_le_iff hc).1 hlow⟩
  · rintro ⟨j, rest, rfl, hle⟩
    exact ⟨((h.below ht).start_le_iff hc).2 hle, (hcovers.2 ⟨j, rest, rfl⟩).2⟩

/-- From the start of a grandchild to the end of the node. -/
theorem from_grandchild_iff (h : TokenAt root is v) (ht : root.get? above = some t)
    (hu : t.children[i]? = some u) (hd : u.children[m]? = some d) :
    (d.start ≤ v.start ∧ v.start < t.stop) ↔
      ∃ j rest, is = above ++ j :: rest ∧
        (i < j ∨ i = j ∧ ∃ k rest', rest = k :: rest' ∧ m ≤ k) := by
  have hchild := h.from_child_iff ht hu
  have hu' := Tree.nested_child (Tree.nested_get? h.nested ht).1 hu
  have hd' := Tree.nested_child hu'.1 hd
  have hget : root.get? (above ++ [i]) = some u := by
    rw [Tree.get?_append, ht, Option.bind_some, Tree.get?_cons, hu]
    rfl
  constructor
  · rintro ⟨hlow, hhigh⟩
    obtain ⟨j, rest, rfl, hle⟩ := hchild.1 ⟨by omega, hhigh⟩
    obtain hlt | rfl := Nat.lt_or_eq_of_le hle
    · exact ⟨j, rest, rfl, .inl hlt⟩
    · -- the token is inside the child, so the order of the grandchildren decides
      have heq : above ++ i :: rest = (above ++ [i]) ++ rest := by simp
      rw [heq] at h
      have hinner := h.below hget
      cases rest with
      | nil => exact absurd (Option.some.inj hinner.place) (h.ne_of_child hd)
      | cons k rest =>
        exact ⟨i, k :: rest, rfl, .inr ⟨rfl, k, rest, rfl, (hinner.start_le_iff hd).1 hlow⟩⟩
  · rintro ⟨j, rest, rfl, hlt | ⟨rfl, k, rest', rfl, hle⟩⟩
    · obtain ⟨-, hhigh⟩ := hchild.2 ⟨j, rest, rfl, Nat.le_of_lt hlt⟩
      refine ⟨?_, hhigh⟩
      have hinner := h.below ht
      obtain ⟨w, hw, hv⟩ := Option.bind_eq_some_iff.1 hinner.place
      have hbefore := stop_le_start_of_lt (Tree.nestedWithin_children hinner.nested) hlt hu hw
      have hw' := Tree.nested_get? (Tree.nested_child hinner.nested hw).1 hv
      have := Tree.start_le_stop d hd'.1
      omega
    · obtain ⟨-, hhigh⟩ := hchild.2 ⟨i, k :: rest', rfl, Nat.le_refl i⟩
      have heq : above ++ i :: k :: rest' = (above ++ [i]) ++ k :: rest' := by simp
      rw [heq] at h
      exact ⟨((h.below hget).start_le_iff hd).2 hle, hhigh⟩

end TokenAt

/-! ### Ranges of visited nodes -/

section Visits

variable {v w : Visit} {parent body : Tree}

theorem toChild_mem_visits {i : Nat} {c : Tree} (hw : w ∈ visits parent body)
    (hc : w.cursor.node.children[i]? = some c) (hnamed : c.isNamed = true) :
    w.toChild i c ∈ visits parent body := by
  obtain ⟨is, his⟩ := mem_visits_iff.1 hw
  refine mem_visits_iff.2 ⟨is ++ [i], ?_⟩
  rw [Visit.below?_append, his, Option.bind_some]
  exact Visit.below?_cons.2 ⟨c, hc, hnamed, rfl⟩

/-- A visited node is the body or a child of a visited node. -/
theorem mem_visits_cases (hw : w ∈ visits parent body) :
    w = ⟨⟨[], body⟩, 0, parent, none⟩ ∨ ∃ u ∈ visits parent body, ∃ i c,
      u.cursor.node.children[i]? = some c ∧ w = u.toChild i c := by
  obtain ⟨is, his⟩ := mem_visits_iff.1 hw
  obtain rfl | ⟨is, i, rfl⟩ := is.eq_nil_or_concat
  · exact .inl (Option.some.inj his).symm
  · rw [List.concat_eq_append, Visit.below?_append] at his
    obtain ⟨u, hu, his⟩ := Option.bind_eq_some_iff.1 his
    obtain ⟨c, hc, -, his⟩ := Visit.below?_cons.1 his
    exact .inr ⟨u, mem_visits_iff.2 ⟨is, hu⟩, i, c, hc, (Option.some.inj his).symm⟩

/-- What holds of a visited node but not of the body holds of a child of a visited node. -/
theorem exists_visit_iff_child {P : Visit → Prop} (hbody : ¬ P ⟨⟨[], body⟩, 0, parent, none⟩)
    (hnamed : ∀ w, P w → w.cursor.node.isNamed = true) :
    (∃ w ∈ visits parent body, P w) ↔ ∃ w ∈ visits parent body, ∃ (i : Nat) (c : Tree),
      w.cursor.node.children[i]? = some c ∧ P (w.toChild i c) := by
  constructor
  · rintro ⟨w, hw, hP⟩
    obtain rfl | ⟨u, hu, i, c, hc, rfl⟩ := mem_visits_cases hw
    · exact absurd hP hbody
    · exact ⟨u, hu, i, c, hc, hP⟩
  · rintro ⟨w, hw, i, c, hc, hP⟩
    exact ⟨w.toChild i c, toChild_mem_visits hw hc (hnamed _ hP), hP⟩

/-- The nodes above a visited one are visited. -/
theorem exists_visit_of_mem_way {t : Tree} {j : Nat} (hv : v ∈ visits parent body)
    (h : (t, j) ∈ body.way v.cursor.path.reverse) :
    ∃ w ∈ visits parent body, w.cursor.node = t ∧
      ∃ rest, v.cursor.path.reverse = w.cursor.path.reverse ++ j :: rest := by
  obtain ⟨is, his⟩ := mem_visits_iff.1 hv
  obtain ⟨-, hpath⟩ := Visit.get?_of_below? his
  rw [List.append_nil] at hpath
  rw [hpath, List.reverse_reverse] at h ⊢
  obtain ⟨above, rest, rfl, hget⟩ := Tree.mem_way_iff.1 h
  rw [Visit.below?_append] at his
  obtain ⟨w, hw, -⟩ := Option.bind_eq_some_iff.1 his
  obtain ⟨hnode, hpath'⟩ := Visit.get?_of_below? hw
  rw [List.append_nil] at hpath'
  refine ⟨w, mem_visits_iff.2 ⟨above, hw⟩, Option.some.inj (hnode.symm.trans hget), rest, ?_⟩
  rw [hpath', List.reverse_reverse]

theorem mem_take_iff {α : Type} {x : α} {xs : List α} {j : Nat} :
    x ∈ xs.take j ↔ ∃ i, i < j ∧ xs[i]? = some x := by
  rw [List.mem_iff_getElem?]
  constructor
  · rintro ⟨i, hi⟩
    rw [List.getElem?_take] at hi
    split at hi
    next hlt => exact ⟨i, hlt, hi⟩
    next => cases hi
  · rintro ⟨i, hlt, hi⟩
    refine ⟨i, ?_⟩
    rw [List.getElem?_take, if_pos hlt]
    exact hi

/-- The visited nodes with a property whose range covers the token stand on the way to it. -/
theorem covering_iff {P : Tree → Prop} (hv : v ∈ visits parent body)
    (htoken : TokenAt body v.cursor.path.reverse v.cursor.node)
    (hP : ∀ t, P t → t ≠ v.cursor.node) :
    (∃ w ∈ visits parent body, P w.cursor.node ∧
        w.cursor.node.start ≤ v.cursor.node.start ∧ v.cursor.node.start < w.cursor.node.stop) ↔
      ∃ q ∈ body.way v.cursor.path.reverse, P q.1 := by
  constructor
  · rintro ⟨w, hw, hPw, hcover⟩
    have hat := at_of_mem_visits hw
    obtain ⟨j, rest, heq⟩ := (htoken.covers_iff hat (hP _ hPw)).1 hcover
    exact ⟨(w.cursor.node, j), Tree.mem_way_iff.2 ⟨_, rest, heq, hat⟩, hPw⟩
  · rintro ⟨⟨t, j⟩, hq, hPt⟩
    obtain ⟨w, hw, rfl, rest, heq⟩ := exists_visit_of_mem_way hv hq
    exact ⟨w, hw, hPt, (htoken.covers_iff (at_of_mem_visits hw) (hP _ hPt)).2 ⟨j, rest, heq⟩⟩

/-- The children with a property whose range, extended to the end of the parent, covers the token
stand no later than the way to it. -/
theorem covering_child_iff {P : Tree → Tree → Prop} (hv : v ∈ visits parent body)
    (htoken : TokenAt body v.cursor.path.reverse v.cursor.node) :
    (∃ w ∈ visits parent body, ∃ (i : Nat) (c : Tree), w.cursor.node.children[i]? = some c ∧
        P w.cursor.node c ∧
        c.start ≤ v.cursor.node.start ∧ v.cursor.node.start < w.cursor.node.stop) ↔
      ∃ q ∈ body.way v.cursor.path.reverse, ∃ c ∈ q.1.children.take (q.2 + 1), P q.1 c := by
  constructor
  · rintro ⟨w, hw, i, c, hc, hP, hcover⟩
    have hat := at_of_mem_visits hw
    obtain ⟨j, rest, heq, hle⟩ := (htoken.from_child_iff hat hc).1 hcover
    exact ⟨(w.cursor.node, j), Tree.mem_way_iff.2 ⟨_, rest, heq, hat⟩, c,
      mem_take_iff.2 ⟨i, Nat.lt_succ_of_le hle, hc⟩, hP⟩
  · rintro ⟨⟨t, j⟩, hq, c, hmem, hP⟩
    obtain ⟨w, hw, rfl, rest, heq⟩ := exists_visit_of_mem_way hv hq
    obtain ⟨i, hlt, hc⟩ := mem_take_iff.1 hmem
    have hcover := (htoken.from_child_iff (at_of_mem_visits hw) hc).2
      ⟨j, rest, heq, Nat.le_of_lt_succ hlt⟩
    exact ⟨w, hw, i, c, hc, hP, hcover⟩

/-- The grandchildren with a property whose range, extended to the end of the node, covers the token
are those of earlier children, and those no later than the way to the token. -/
theorem covering_grandchild_iff {P : Tree → Tree → Prop} (hv : v ∈ visits parent body)
    (htoken : TokenAt body v.cursor.path.reverse v.cursor.node) (hbody : ∀ d, ¬ P body d) :
    (∃ w ∈ visits parent body, ∃ (i : Nat) (u : Tree), w.cursor.node.children[i]? = some u ∧
        ∃ d ∈ u.children, P u d ∧
        d.start ≤ v.cursor.node.start ∧ v.cursor.node.start < w.cursor.node.stop) ↔
      ∃ q ∈ body.way v.cursor.path.reverse,
        (∃ u ∈ q.1.children.take q.2, ∃ d ∈ u.children, P u d) ∨
          ∃ d ∈ q.1.children.take (q.2 + 1), P q.1 d := by
  constructor
  · rintro ⟨w, hw, i, u, hu, d, hd, hP, hcover⟩
    have hat := at_of_mem_visits hw
    obtain ⟨m, hm⟩ := List.mem_iff_getElem?.1 hd
    obtain ⟨j, rest, heq, hlt | ⟨rfl, k, rest', rfl, hle⟩⟩ :=
      (htoken.from_grandchild_iff hat hu hm).1 hcover
    · exact ⟨(w.cursor.node, j), Tree.mem_way_iff.2 ⟨_, rest, heq, hat⟩,
        .inl ⟨u, mem_take_iff.2 ⟨i, hlt, hu⟩, d, hd, hP⟩⟩
    · have hget : body.get? (w.cursor.path.reverse ++ [i]) = some u := by
        rw [Tree.get?_append, hat, Option.bind_some, Tree.get?_cons, hu]
        rfl
      refine ⟨(u, k), Tree.mem_way_iff.2 ⟨_, rest', ?_, hget⟩,
        .inr ⟨d, mem_take_iff.2 ⟨m, Nat.lt_succ_of_le hle, hm⟩, hP⟩⟩
      rw [heq, List.append_assoc]
      rfl
  · rintro ⟨⟨t, j⟩, hq, ⟨u, hu, d, hd, hP⟩ | ⟨d, hd, hP⟩⟩
    · obtain ⟨w, hw, rfl, rest, heq⟩ := exists_visit_of_mem_way hv hq
      obtain ⟨i, hlt, hi⟩ := mem_take_iff.1 hu
      obtain ⟨m, hm⟩ := List.mem_iff_getElem?.1 hd
      have hcover := (htoken.from_grandchild_iff (at_of_mem_visits hw) hi hm).2
        ⟨j, rest, heq, .inl hlt⟩
      exact ⟨w, hw, i, u, hi, d, hd, hP, hcover⟩
    · -- the node on the way is not the body, so its parent is visited too
      obtain ⟨w, hw, rfl, rest, heq⟩ := exists_visit_of_mem_way hv hq
      obtain ⟨m, hlt, hm⟩ := mem_take_iff.1 hd
      obtain rfl | ⟨x, hx, i, u, hu, rfl⟩ := mem_visits_cases hw
      · exact absurd hP (hbody d)
      · have hpath : v.cursor.path.reverse = x.cursor.path.reverse ++ i :: j :: rest := by
          rw [heq, Visit.toChild, List.reverse_cons, List.append_assoc]
          rfl
        have hcover := (htoken.from_grandchild_iff (at_of_mem_visits hx) hu hm).2
          ⟨i, j :: rest, hpath, .inr ⟨rfl, j, rest, rfl, Nat.le_of_lt_succ hlt⟩⟩
        exact ⟨x, hx, i, u, hu, d, List.mem_of_getElem? hm, hP, hcover⟩

end Visits

end FieldTrace.Syntax
