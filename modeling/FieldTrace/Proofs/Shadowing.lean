import FieldTrace.Index.Basic
import FieldTrace.Proofs.Spans

/-! # Fields hidden by locals

A bare name is the use of a field unless a parameter or local of that name is visible. The language
says where a local is in scope by the structure of the body; visibility is decided by ranges of
bytes. The two differ in four places. A loop variable is visible in the header of its loop, a
resource in the clauses after its block and a caught exception in its own declaration, where none of
them is in scope (`Scoping.overreaches`); and a lambda parameter of variable arity is in scope but
never visible (`Scoping.overlooks`). A name that is taken for a value (`Usage.isValue`) is recorded as
the language has it exactly where none of this plays a part. Not all names that are values in the
language are taken for values: before the colons of a method reference, as in `items::size`, and as
the value of an annotation element, as in `@Note(value = KEY)`, nothing is ever recorded
(`Usage.ofVisit_eq_nil_of_hidesValues`). -/

namespace FieldTrace

open Syntax

/-! ### Scopes of the language

The scope of a name is said by the children through which its declaration can be seen: a node brings
names into scope in its child number `j`. Local classes, patterns and switch blocks, which have
rules of their own, are left out. -/

namespace Scoping

variable (text : Tree → String)

/-- The name that a declaration gives. -/
def nameOf (t : Tree) : Option String := (t.child? .name).map text

/-- The names that those declarations of a list give that are of some sort. -/
def namesOf (sort : Tree → Bool) (ts : List Tree) : List String :=
  (ts.filter sort).filterMap (nameOf text)

def declarators (ts : List Tree) : List String := namesOf text (fun d => d.role = .declarator) ts

def resources (ts : List Tree) : List String := namesOf text (fun r => r.kind = .resource) ts

def caught (ts : List Tree) : List String :=
  namesOf text (fun c => c.kind = .catchFormalParameter) ts

/-- The names that declarations of one sort give below the trees of another sort. -/
def namesBelow (outer sort : Tree → Bool) (ts : List Tree) : List String :=
  (ts.filter outer).flatMap (fun u => namesOf text sort u.children)

/-- The variables that the statements of a list declare. -/
def localsOf (ts : List Tree) : List String :=
  namesBelow text (fun u => u.kind = .localVariableDeclaration) (fun d => d.role = .declarator) ts

/-- The resources that the lists of resources among some trees declare. -/
def listedResources (ts : List Tree) : List String :=
  namesBelow text (fun u => u.kind = .other "resource_specification")
    (fun r => r.kind = .resource) ts

/-- The parameters of a lambda expression, one of variable arity apart. -/
def lambdaParameters (t : Tree) : List String :=
  match t.child? .parameters with
  | some params => (Locals.lambdaNames params).map text
  | none => []

/-- The parameter of variable arity of a lambda expression. -/
def variableArity (t : Tree) : List String :=
  match t.child? .parameters with
  | some params => (params.namedChildren.filter (fun p => p.kind = .spreadParameter)).filterMap
      (fun p => (p.namedChildren.find? (fun d => d.kind = .variableDeclarator)).bind (nameOf text))
  | none => []

/-- Is the child the body of its parent? -/
def isBody (t : Tree) (j : Nat) : Bool := (t.children[j]?).any (fun c => c.role = .body)

/-- The names that a node brings into scope in child number `j`, a parameter of variable arity
apart: a local from its declarator to the end of its block, a loop variable in the body of the loop,
a resource in the rest of the list and in the block, a caught exception in its block, and a lambda
parameter in the lambda. -/
def binds (t : Tree) (j : Nat) : List String :=
  localsOf text (t.children.take j) ++
    match t.kind with
    | .localVariableDeclaration => declarators text (t.children.take (j + 1))
    | .enhancedForStatement => if isBody t j then (nameOf text t).toList else []
    | .lambda => lambdaParameters text t
    | .other "resource_specification" => resources text (t.children.take (j + 1))
    | .other "try_with_resources_statement" =>
      if isBody t j then listedResources text (t.children.take j) else []
    | .other "catch_clause" => if isBody t j then caught text (t.children.take j) else []
    | _ => []

/-- The names that are visible in child number `j` and not in scope there. -/
def overreaches (t : Tree) (j : Nat) : List String :=
  if isBody t j then []
  else
    match t.kind with
    | .enhancedForStatement => (nameOf text t).toList
    | .other "try_with_resources_statement" => listedResources text (t.children.take j)
    | .other "catch_clause" => caught text (t.children.take (j + 1))
    | _ => []

/-- The names that are in scope in all children and not visible there. -/
def overlooks (t : Tree) : List String :=
  if t.kind = .lambda then variableArity text t else []

variable {text} {n : String} {t : Tree} {ts : List Tree} {j : Nat}

theorem mem_namesOf {sort : Tree → Bool} :
    n ∈ namesOf text sort ts ↔ ∃ d ∈ ts, sort d = true ∧ nameOf text d = some n := by
  simp only [namesOf, List.mem_filterMap, List.mem_filter, and_assoc]

theorem mem_namesBelow {outer sort : Tree → Bool} :
    n ∈ namesBelow text outer sort ts ↔ ∃ u ∈ ts, ∃ d ∈ u.children,
      outer u = true ∧ sort d = true ∧ nameOf text d = some n := by
  simp only [namesBelow, List.mem_flatMap, List.mem_filter, mem_namesOf]
  constructor
  · rintro ⟨u, ⟨hu, houter⟩, d, hd, hsort, hname⟩
    exact ⟨u, hu, d, hd, houter, hsort, hname⟩
  · rintro ⟨u, hu, d, hd, houter, hsort, hname⟩
    exact ⟨u, ⟨hu, houter⟩, d, hd, hsort, hname⟩

variable (text) in
/-- What is visible in a child of a node: each sort of declaration reaches to one end. -/
theorem mem_binds_or_overreaches
    (hcaught : ∀ c ∈ t.children, c.kind = .catchFormalParameter → c.role ≠ .body) :
    (n ∈ binds text t j ∨ n ∈ overreaches text t j) ↔
      (n ∈ localsOf text (t.children.take j) ∨
        t.kind = .localVariableDeclaration ∧ n ∈ declarators text (t.children.take (j + 1))) ∨
      (t.kind = .enhancedForStatement ∧ nameOf text t = some n) ∨
      (t.kind = .other "try_with_resources_statement" ∧
          n ∈ listedResources text (t.children.take j) ∨
        t.kind = .other "resource_specification" ∧ n ∈ resources text (t.children.take (j + 1))) ∨
      (t.kind = .other "catch_clause" ∧ n ∈ caught text (t.children.take (j + 1))) ∨
      (t.kind = .lambda ∧ n ∈ lambdaParameters text t) := by
  have hbody : isBody t j = true →
      caught text (t.children.take (j + 1)) = caught text (t.children.take j) := by
    intro hbody
    obtain ⟨c, hc, hrole⟩ := (Option.any_eq_true _ _).1 hbody
    have hkind : c.kind ≠ .catchFormalParameter := fun hkind =>
      hcaught c (List.mem_of_getElem? hc) hkind (of_decide_eq_true hrole)
    unfold caught namesOf
    rw [List.take_add_one, hc, Option.toList_some, List.filter_append,
      List.filter_cons_of_neg (by simpa using hkind), List.filter_nil, List.append_nil]
  unfold binds overreaches
  rw [List.mem_append]
  cases hb : isBody t j with
  | true =>
    rw [← hbody hb]
    split <;> simp_all
  | false => split <;> simp_all

end Scoping

/-! ### Ranges of locals -/

namespace Locals

variable {s : NameScope} {w : Visit} {n : String} {p : Nat}

/-- A local that the node introduces has the name and is visible at the offset. -/
def Shows (s : NameScope) (w : Visit) (n : String) (p : Nat) : Prop :=
  ∃ l ∈ introducedBy s w, l.name = n ∧ l.visibleAt p = true

theorem visibleAt_iff {l : Local} : l.visibleAt p = true ↔ l.start ≤ p ∧ p < l.stop := by
  rw [Local.visibleAt, Bool.and_eq_true, decide_eq_true_iff, decide_eq_true_iff]

theorem exists_named?_iff {c : Cursor} {a e : Nat} {typeNode : Option Tree}
    {value : Option Cursor} {iterates : Bool} :
    (∃ l, named? s c a e typeNode value iterates = some l ∧ l.name = n ∧ l.visibleAt p = true) ↔
      Scoping.nameOf s.text c.node = some n ∧ a ≤ p ∧ p < e := by
  unfold named? Scoping.nameOf
  rw [← Cursor.map_node_child?]
  cases c.child? .name with
  | none => simp
  | some d => simp [visibleAt_iff]

/-- The locals of each sort, with the bounds of their ranges. -/
theorem shows_iff : Shows s w n p ↔
    (w.cursor.node.kind = .localVariableDeclaration ∧ ∃ d ∈ w.cursor.node.children,
      d.role = .declarator ∧ Scoping.nameOf s.text d = some n ∧
        d.start ≤ p ∧ p < w.parent.stop) ∨
    (w.cursor.node.kind = .enhancedForStatement ∧ Scoping.nameOf s.text w.cursor.node = some n ∧
      w.cursor.node.start ≤ p ∧ p < w.cursor.node.stop) ∨
    (w.cursor.node.kind = .resource ∧ ∃ x, w.grandparent = some x ∧
      Scoping.nameOf s.text w.cursor.node = some n ∧ w.cursor.node.start ≤ p ∧ p < x.stop) ∨
    (w.cursor.node.kind = .catchFormalParameter ∧
      Scoping.nameOf s.text w.cursor.node = some n ∧
        w.cursor.node.start ≤ p ∧ p < w.parent.stop) ∨
    (w.cursor.node.kind = .lambda ∧ n ∈ Scoping.lambdaParameters s.text w.cursor.node ∧
      w.cursor.node.start ≤ p ∧ p < w.cursor.node.stop) := by
  unfold Shows introducedBy Cursor.kind
  dsimp only
  split
  next hkind =>
    simp only [hkind, true_and, false_and, or_false, reduceCtorEq, List.mem_filterMap]
    constructor
    · rintro ⟨l, ⟨d, hd, hl⟩, hname⟩
      obtain ⟨hmem, hrole⟩ := List.mem_filter.1 hd
      obtain ⟨i, hi, -⟩ := Cursor.mem_children_iff.1 hmem
      exact ⟨d.node, List.mem_of_getElem? hi, of_decide_eq_true hrole,
        exists_named?_iff.1 ⟨l, hl, hname⟩⟩
    · rintro ⟨d, hd, hrole, hshown⟩
      obtain ⟨i, hi⟩ := List.mem_iff_getElem?.1 hd
      let c : Cursor := ⟨i :: w.cursor.path, d⟩
      have hmem : c ∈ w.cursor.childrenWith .declarator :=
        List.mem_filter.2 ⟨Cursor.mem_children_iff.2 ⟨i, hi, rfl⟩, decide_eq_true hrole⟩
      obtain ⟨l, hl, hname⟩ := exists_named?_iff (c := c).2 hshown
      exact ⟨l, ⟨c, hmem, hl⟩, hname⟩
  next hkind =>
    simp only [hkind, true_and, false_and, or_false, false_or, reduceCtorEq, Option.mem_toList]
    exact exists_named?_iff
  next hkind =>
    simp only [hkind, true_and, false_and, or_false, false_or, reduceCtorEq]
    cases w.grandparent with
    | none => simp
    | some x =>
      simp only [Option.mem_toList, Option.some.injEq, exists_eq_left']
      exact exists_named?_iff
  next hkind =>
    simp only [hkind, true_and, false_and, or_false, false_or, reduceCtorEq, Option.mem_toList]
    exact exists_named?_iff
  next hkind =>
    simp only [hkind, true_and, false_and, false_or, reduceCtorEq]
    unfold Scoping.lambdaParameters
    cases w.cursor.node.child? .parameters with
    | none => simp
    | some params =>
      dsimp only
      constructor
      · rintro ⟨l, hl, hname, hvisible⟩
        obtain ⟨d, hd, rfl⟩ := List.mem_map.1 hl
        exact ⟨List.mem_map.2 ⟨d, hd, hname⟩, visibleAt_iff.1 hvisible⟩
      · rintro ⟨hn, hvisible⟩
        obtain ⟨d, hd, hname⟩ := List.mem_map.1 hn
        exact ⟨_, List.mem_map.2 ⟨d, hd, rfl⟩, hname, visibleAt_iff.2 hvisible⟩
  next hdeclaration hloop hresource hcatch hlambda =>
    simp only [eq_false hdeclaration, eq_false hloop, eq_false hresource, eq_false hcatch,
      eq_false hlambda, false_and, or_false, List.not_mem_nil, exists_false]

end Locals

/-! ### Bodies as they are parsed -/

/-- A child whose range as a declaration ends with a node above it has its place below that node. -/
def Syntax.Tree.Holds (t c : Tree) : Prop :=
  (c.kind = .resource → t.kind = .other "resource_specification") ∧
    (c.kind = .other "resource_specification" →
      t.kind = .other "try_with_resources_statement") ∧
    (c.kind = .catchFormalParameter → t.kind = .other "catch_clause" ∧ c.role ≠ .body)

instance (t c : Tree) : Decidable (t.Holds c) := inferInstanceAs (Decidable (_ ∧ _))

/-- What a parser promises of the tree of a method: ranges are nested, the body is a block, names
are leaves that are not empty, and declarations have their places. -/
structure MethodScope.Parsed (s : MethodScope) : Prop where
  nested : s.node.nested = true
  block : s.body.kind = .other "block" ∨ s.body.kind = .other "constructor_body"
  names : ∀ t ∈ s.body.nodes, t.kind = .identifier → t.children.isEmpty = true ∧ t.start < t.stop
  places : ∀ t ∈ s.body.nodes, ∀ c ∈ t.children, t.Holds c

namespace MethodScope

instance (s : MethodScope) : Decidable s.Parsed :=
  decidable_of_iff
    (s.node.nested = true ∧
      (s.body.kind = .other "block" ∨ s.body.kind = .other "constructor_body") ∧
      (∀ t ∈ s.body.nodes,
        t.kind = .identifier → t.children.isEmpty = true ∧ t.start < t.stop) ∧
      ∀ t ∈ s.body.nodes, ∀ c ∈ t.children, t.Holds c)
    ⟨fun ⟨nested, block, names, places⟩ => ⟨nested, block, names, places⟩,
      fun h => ⟨h.nested, h.block, h.names, h.places⟩⟩

variable {s : MethodScope} {v : Visit} {n : String}

theorem Parsed.tokenAt (h : s.Parsed) (hbody : s.node.child? .body = some s.body)
    (hv : v ∈ visits s.node s.body) (hkind : v.cursor.node.kind = .identifier) :
    TokenAt s.body v.cursor.path.reverse v.cursor.node := by
  have hat := at_of_mem_visits hv
  obtain ⟨hleaf, hpos⟩ := h.names _ hat.mem_nodes hkind
  obtain ⟨i, hi⟩ := List.mem_iff_getElem?.1 (List.mem_of_find?_eq_some hbody)
  exact ⟨(Tree.nested_child h.nested hi).1, hat, List.isEmpty_iff.1 hleaf, hpos⟩

theorem mem_nodes_of_mem_way {root : Tree} {is : List Nat} {q : Tree × Nat}
    (h : q ∈ root.way is) : q.1 ∈ root.nodes := by
  obtain ⟨above, -, -, hget⟩ := Tree.mem_way_iff.1 h
  exact Tree.mem_nodes_of_get? hget

variable (h : s.Parsed) (hv : v ∈ visits s.node s.body)
  (htoken : TokenAt s.body v.cursor.path.reverse v.cursor.node)

include hv htoken

/-- A declaration that reaches from its start to the end of the node above its list. -/
theorem reaching_iff (outer sort : Tree → Bool) (hbody : outer s.body = false) :
    (∃ w ∈ visits s.node s.body, ∃ (i : Nat) (u : Tree), w.cursor.node.children[i]? = some u ∧
      ∃ d ∈ u.children, (outer u = true ∧ sort d = true ∧ Scoping.nameOf s.text d = some n) ∧
        d.start ≤ v.cursor.node.start ∧ v.cursor.node.start < w.cursor.node.stop) ↔
    ∃ q ∈ s.body.way v.cursor.path.reverse,
      n ∈ Scoping.namesBelow s.text outer sort (q.1.children.take q.2) ∨
        outer q.1 = true ∧ n ∈ Scoping.namesOf s.text sort (q.1.children.take (q.2 + 1)) := by
  have hnot : ∀ d, ¬ (outer s.body = true ∧ sort d = true ∧ Scoping.nameOf s.text d = some n) := by
    intro d hd
    rw [hbody] at hd
    cases hd.1
  rw [covering_grandchild_iff hv htoken hnot]
  refine exists_congr (fun q => and_congr_right (fun _ => or_congr ?_ ?_))
  · exact Scoping.mem_namesBelow.symm
  · rw [Scoping.mem_namesOf]
    constructor
    · rintro ⟨d, hd, houter, hname⟩
      exact ⟨houter, d, hd, hname⟩
    · rintro ⟨houter, d, hd, hname⟩
      exact ⟨d, hd, houter, hname⟩

include h

theorem declared_iff :
    (∃ w ∈ visits s.node s.body, w.cursor.node.kind = .localVariableDeclaration ∧
      ∃ d ∈ w.cursor.node.children, d.role = .declarator ∧ Scoping.nameOf s.text d = some n ∧
        d.start ≤ v.cursor.node.start ∧ v.cursor.node.start < w.parent.stop) ↔
    ∃ q ∈ s.body.way v.cursor.path.reverse,
      n ∈ Scoping.localsOf s.text (q.1.children.take q.2) ∨
        q.1.kind = .localVariableDeclaration ∧
          n ∈ Scoping.declarators s.text (q.1.children.take (q.2 + 1)) := by
  have hblock : s.body.kind ≠ .localVariableDeclaration := by
    obtain hblock | hblock := h.block <;> simp [hblock]
  have hreaching := reaching_iff (n := n) hv htoken (fun u => u.kind = .localVariableDeclaration)
    (fun d => d.role = .declarator) (decide_eq_false hblock)
  simp only [decide_eq_true_eq] at hreaching
  rw [exists_visit_iff_child (fun hw => hblock hw.1)
    (fun w hw => by rw [Tree.isNamed, hw.1]; rfl)]
  refine Iff.trans ?_ hreaching
  constructor
  · rintro ⟨w, hw, i, u, hu, hkind, d, hd, hrole, hname, hcover⟩
    exact ⟨w, hw, i, u, hu, d, hd, ⟨hkind, hrole, hname⟩, hcover⟩
  · rintro ⟨w, hw, i, u, hu, d, hd, ⟨hkind, hrole, hname⟩, hcover⟩
    exact ⟨w, hw, i, u, hu, hkind, d, hd, hrole, hname, hcover⟩

theorem listed_iff :
    (∃ w ∈ visits s.node s.body, w.cursor.node.kind = .resource ∧
      ∃ x, w.grandparent = some x ∧ Scoping.nameOf s.text w.cursor.node = some n ∧
        w.cursor.node.start ≤ v.cursor.node.start ∧ v.cursor.node.start < x.stop) ↔
    ∃ q ∈ s.body.way v.cursor.path.reverse,
      q.1.kind = .other "try_with_resources_statement" ∧
          n ∈ Scoping.listedResources s.text (q.1.children.take q.2) ∨
        q.1.kind = .other "resource_specification" ∧
          n ∈ Scoping.resources s.text (q.1.children.take (q.2 + 1)) := by
  have hblock : s.body.kind ≠ .resource ∧ s.body.kind ≠ .other "resource_specification" := by
    obtain hblock | hblock := h.block <;> simp [hblock]
  have hreaching := reaching_iff (n := n) hv htoken
    (fun u => u.kind = .other "resource_specification") (fun r => r.kind = .resource)
    (decide_eq_false hblock.2)
  simp only [decide_eq_true_eq] at hreaching
  rw [exists_visit_iff_child (fun hw => hblock.1 hw.1)
    (fun w hw => by rw [Tree.isNamed, hw.1]; rfl)]
  refine Iff.trans ?_ (hreaching.trans ?_)
  · constructor
    · rintro ⟨w, hw, m, d, hd, hkind, x, hx, hname, hcover⟩
      have hlist :=
        (h.places _ (at_of_mem_visits hw).mem_nodes d (List.mem_of_getElem? hd)).1 hkind
      obtain rfl | ⟨y, hy, i, u, hu, rfl⟩ := mem_visits_cases hw
      · exact absurd hlist hblock.2
      · cases hx
        exact ⟨y, hy, i, u, hu, d, List.mem_of_getElem? hd, ⟨hlist, hkind, hname⟩, hcover⟩
    · rintro ⟨w, hw, i, u, hu, d, hd, ⟨hlist, hkind, hname⟩, hcover⟩
      obtain ⟨m, hm⟩ := List.mem_iff_getElem?.1 hd
      have hnamed : u.isNamed = true := by
        rw [Tree.isNamed, hlist]
        rfl
      exact ⟨w.toChild i u, toChild_mem_visits hw hu hnamed, m, d, hm, hkind, w.cursor.node, rfl,
        hname, hcover⟩
  · refine exists_congr (fun q => and_congr_right (fun hq => or_congr ?_ Iff.rfl))
    constructor
    · intro hlisted
      obtain ⟨u, hu, d, hd, hlist, -⟩ := Scoping.mem_namesBelow.1 hlisted
      have hplace := h.places _ (mem_nodes_of_mem_way hq) u (List.mem_of_mem_take hu)
      exact ⟨hplace.2.1 (of_decide_eq_true hlist), hlisted⟩
    · rintro ⟨-, hlisted⟩
      exact hlisted

theorem caught_iff :
    (∃ w ∈ visits s.node s.body, w.cursor.node.kind = .catchFormalParameter ∧
      Scoping.nameOf s.text w.cursor.node = some n ∧
        w.cursor.node.start ≤ v.cursor.node.start ∧ v.cursor.node.start < w.parent.stop) ↔
    ∃ q ∈ s.body.way v.cursor.path.reverse, q.1.kind = .other "catch_clause" ∧
      n ∈ Scoping.caught s.text (q.1.children.take (q.2 + 1)) := by
  have hblock : s.body.kind ≠ .catchFormalParameter := by
    obtain hblock | hblock := h.block <;> simp [hblock]
  have hranges := covering_child_iff hv htoken
    (P := fun _ c => c.kind = .catchFormalParameter ∧ Scoping.nameOf s.text c = some n)
  rw [exists_visit_iff_child (fun hw => hblock hw.1)
    (fun w hw => by rw [Tree.isNamed, hw.1]; rfl)]
  refine Iff.trans ?_ (hranges.trans ?_)
  · constructor
    · rintro ⟨w, hw, i, c, hc, hkind, hname, hcover⟩
      exact ⟨w, hw, i, c, hc, ⟨hkind, hname⟩, hcover⟩
    · rintro ⟨w, hw, i, c, hc, ⟨hkind, hname⟩, hcover⟩
      exact ⟨w, hw, i, c, hc, hkind, hname, hcover⟩
  · refine exists_congr (fun q => and_congr_right (fun hq => ?_))
    simp only [Scoping.caught, Scoping.mem_namesOf, decide_eq_true_eq]
    constructor
    · rintro ⟨c, hc, hkind, hname⟩
      have hplace := h.places _ (mem_nodes_of_mem_way hq) c (List.mem_of_mem_take hc)
      exact ⟨(hplace.2.2 hkind).1, c, hc, hkind, hname⟩
    · rintro ⟨-, hcaught⟩
      exact hcaught

/-- The locals visible at a name are those that the nodes above it bring into scope, and those that
reach too far. -/
theorem shown_iff (hkind : v.cursor.node.kind = .identifier) :
    (∃ w ∈ visits s.node s.body, Locals.Shows s.names w n v.cursor.node.start) ↔
      ∃ q ∈ s.body.way v.cursor.path.reverse,
        n ∈ Scoping.binds s.text q.1 q.2 ∨ n ∈ Scoping.overreaches s.text q.1 q.2 := by
  have hloops := covering_iff hv htoken
    (P := fun t => t.kind = .enhancedForStatement ∧ Scoping.nameOf s.text t = some n)
    (by rintro t ⟨ht, -⟩ rfl; rw [hkind] at ht; cases ht)
  have hlambdas := covering_iff hv htoken
    (P := fun t => t.kind = .lambda ∧ n ∈ Scoping.lambdaParameters s.text t)
    (by rintro t ⟨ht, -⟩ rfl; rw [hkind] at ht; cases ht)
  have hvisible : ∀ q ∈ s.body.way v.cursor.path.reverse, _ := fun q hq =>
    Scoping.mem_binds_or_overreaches s.text (n := n) (j := q.2)
      (fun c hc hcatch => ((h.places _ (mem_nodes_of_mem_way hq) c hc).2.2 hcatch).2)
  constructor
  · rintro ⟨w, hw, hshows⟩
    obtain hlocal | ⟨hloop, hname, hcover⟩ | hlisted | hcaught | ⟨hlambda, hname, hcover⟩ :=
      Locals.shows_iff.1 hshows
    · obtain ⟨q, hq, hn⟩ := (declared_iff h hv htoken).1 ⟨w, hw, hlocal⟩
      exact ⟨q, hq, (hvisible q hq).2 (.inl hn)⟩
    · obtain ⟨q, hq, hn⟩ := hloops.1 ⟨w, hw, ⟨hloop, hname⟩, hcover⟩
      exact ⟨q, hq, (hvisible q hq).2 (.inr (.inl hn))⟩
    · obtain ⟨q, hq, hn⟩ := (listed_iff h hv htoken).1 ⟨w, hw, hlisted⟩
      exact ⟨q, hq, (hvisible q hq).2 (.inr (.inr (.inl hn)))⟩
    · obtain ⟨q, hq, hn⟩ := (caught_iff h hv htoken).1 ⟨w, hw, hcaught⟩
      exact ⟨q, hq, (hvisible q hq).2 (.inr (.inr (.inr (.inl hn))))⟩
    · obtain ⟨q, hq, hn⟩ := hlambdas.1 ⟨w, hw, ⟨hlambda, hname⟩, hcover⟩
      exact ⟨q, hq, (hvisible q hq).2 (.inr (.inr (.inr (.inr hn))))⟩
  · rintro ⟨q, hq, hn⟩
    obtain hlocal | hloop | hlisted | hcaught | hlambda := (hvisible q hq).1 hn
    · obtain ⟨w, hw, hw'⟩ := (declared_iff h hv htoken).2 ⟨q, hq, hlocal⟩
      exact ⟨w, hw, Locals.shows_iff.2 (.inl hw')⟩
    · obtain ⟨w, hw, ⟨hkind', hname⟩, hcover⟩ := hloops.2 ⟨q, hq, hloop⟩
      exact ⟨w, hw, Locals.shows_iff.2 (.inr (.inl ⟨hkind', hname, hcover⟩))⟩
    · obtain ⟨w, hw, hw'⟩ := (listed_iff h hv htoken).2 ⟨q, hq, hlisted⟩
      exact ⟨w, hw, Locals.shows_iff.2 (.inr (.inr (.inl hw')))⟩
    · obtain ⟨w, hw, hw'⟩ := (caught_iff h hv htoken).2 ⟨q, hq, hcaught⟩
      exact ⟨w, hw, Locals.shows_iff.2 (.inr (.inr (.inr (.inl hw'))))⟩
    · obtain ⟨w, hw, ⟨hkind', hname⟩, hcover⟩ := hlambdas.2 ⟨q, hq, hlambda⟩
      exact ⟨w, hw, Locals.shows_iff.2 (.inr (.inr (.inr (.inr ⟨hkind', hname, hcover⟩))))⟩

end MethodScope

/-! ### Recorded uses -/

namespace Scoping

variable (s : MethodScope)

/-- The parameters of the method; one without a name has an empty one. -/
def parameters : List String := (s.decl.params.map Prod.fst).filter (fun n => n ≠ "")

/-- The names in scope at a position of the body. -/
def inScope (path : List Nat) : List String :=
  parameters s ++ (s.body.way path).flatMap
    (fun q => binds s.text q.1 q.2 ++ overlooks s.text q.1)

/-- The names of the locals visible at a position of the body. -/
def visible (path : List Nat) : List String :=
  parameters s ++ (s.body.way path).flatMap
    (fun q => binds s.text q.1 q.2 ++ overreaches s.text q.1 q.2)

variable {s} {n : String} {path : List Nat}

theorem mem_visible : n ∈ visible s path ↔ n ∈ parameters s ∨
    ∃ q ∈ s.body.way path, n ∈ binds s.text q.1 q.2 ∨ n ∈ overreaches s.text q.1 q.2 := by
  simp only [visible, List.mem_append, List.mem_flatMap]

theorem mem_inScope : n ∈ inScope s path ↔ n ∈ parameters s ∨
    (∃ q ∈ s.body.way path, n ∈ binds s.text q.1 q.2) ∨
      ∃ q ∈ s.body.way path, n ∈ overlooks s.text q.1 := by
  simp only [inScope, List.mem_append, List.mem_flatMap, and_or_left, exists_or]

end Scoping

namespace MethodScope

variable {s : MethodScope} {n : String} {p : Nat}

theorem lookup_isNone_iff :
    (s.lookup n p).isNone = true ↔ ¬ ∃ l ∈ s.locals, l.name = n ∧ l.visibleAt p = true := by
  have hfold : ∀ (qs : List (Local × Nat)) (best : Option (Nat × Local)),
      qs.foldl (fun best q =>
        if q.1.name = n && q.1.visibleAt p
            && best.all (fun (b : Nat × Local) => decide (b.2.start ≤ q.1.start)) then
          some (q.2, q.1)
        else best) best = none ↔
      best = none ∧ ∀ q ∈ qs, ¬ (q.1.name = n ∧ q.1.visibleAt p = true) := by
    intro qs
    induction qs with
    | nil => simp
    | cons q qs ih =>
      intro best
      rw [List.foldl_cons, ih, List.forall_mem_cons]
      cases best with
      | none => by_cases hq : q.1.name = n ∧ q.1.visibleAt p = true <;> simp [hq]
      | some b => split <;> simp
  rw [Option.isNone_iff_eq_none, lookup, hfold]
  constructor
  · rintro ⟨-, hnone⟩ ⟨l, hl, hshown⟩
    obtain ⟨i, hi⟩ := List.mem_iff_getElem?.1 hl
    exact hnone (l, i) (List.mem_zipIdx_iff_getElem?.2 hi) hshown
  · intro hnone
    refine ⟨rfl, fun q hq hshown => hnone ⟨q.1, ?_, hshown⟩⟩
    exact List.mem_of_getElem? (List.mem_zipIdx_iff_getElem?.1 hq)

/-- A local is visible at a name by its range exactly if it is visible at the position. -/
theorem hidden_iff {types : TypeTable} {b : MethodBody} (hs : ofBody? types b = some s)
    (h : s.Parsed) {v : Visit} (hv : v ∈ visits s.node s.body)
    (hkind : v.cursor.node.kind = .identifier) :
    (∃ l ∈ s.locals, l.name = n ∧ l.visibleAt v.cursor.node.start = true) ↔
      n ∈ Scoping.visible s v.cursor.path.reverse := by
  obtain ⟨body, hbody, rfl⟩ := Option.map_eq_some_iff.1 hs
  have htoken := h.tokenAt hbody hv hkind
  rw [Scoping.mem_visible, ← shown_iff h hv htoken hkind]
  have hinside : b.node.start ≤ v.cursor.node.start ∧ v.cursor.node.start < b.node.stop := by
    obtain ⟨i, hi⟩ := List.mem_iff_getElem?.1 (List.mem_of_find?_eq_some hbody)
    have hbody' := Tree.nested_child h.nested hi
    have hv' := htoken.inside
    dsimp only at hbody' hv'
    omega
  constructor
  · rintro ⟨l, hl, hname, hvisible⟩
    obtain hl | hl := List.mem_append.1 hl
    · obtain ⟨q, hq, rfl⟩ := List.mem_map.1 hl
      obtain ⟨hq, hne⟩ := List.mem_filter.1 hq
      cases hname
      exact .inl (List.mem_filter.2 ⟨List.mem_map_of_mem hq, hne⟩)
    · obtain ⟨w, hw, hl⟩ := List.mem_flatMap.1 hl
      exact .inr ⟨w, mem_visitsFromRight_iff.1 hw, l, hl, hname, hvisible⟩
  · rintro (hn | ⟨w, hw, l, hl, hshown⟩)
    · obtain ⟨hn, hne⟩ := List.mem_filter.1 hn
      obtain ⟨q, hq, rfl⟩ := List.mem_map.1 hn
      refine ⟨_, List.mem_append_left _
        (List.mem_map_of_mem (List.mem_filter.2 ⟨hq, hne⟩)), rfl, ?_⟩
      exact Locals.visibleAt_iff.2 hinside
    · exact ⟨l, List.mem_append_right _
        (List.mem_flatMap.2 ⟨w, mem_visitsFromRight_iff.2 hw, hl⟩), hshown⟩

end MethodScope

/-- The use of the field that the bare name at a node means is recorded. -/
def Usage.RecordsField (s : MethodScope) (v : Visit) (st : TypingState) : Prop :=
  ∃ f, s.fieldInScope (s.text v.cursor.node) = some f ∧
    Usage.field f.ref (Usage.reference s v.cursor.node) ∈ (Usage.ofVisit s v st).1

theorem Usage.recordsField_iff {s : MethodScope} {v : Visit} (st : TypingState)
    (hkind : v.cursor.kind = .identifier) (hvalue : isValue v = true) :
    RecordsField s v st ↔ (s.fieldInScope (s.text v.cursor.node)).isSome = true ∧
      (s.lookup (s.text v.cursor.node) v.cursor.node.start).isNone = true := by
  have hvisit : (ofVisit s v st).1 = ofIdentifier s v := by
    unfold ofVisit
    rw [hkind]
    rfl
  unfold RecordsField
  rw [hvisit]
  unfold ofIdentifier
  cases hfield : s.fieldInScope (s.text v.cursor.node) with
  | none => simp
  | some f =>
    cases hlookup : (s.lookup (s.text v.cursor.node) v.cursor.node.start).isNone with
    | true => simp [hvalue, hlookup, hfield]
    | false => simp [hlookup]

/-- Directly below a method reference, an annotation element or another node that hides values, no
bare name is recorded, whatever it means. -/
theorem Usage.ofVisit_eq_nil_of_hidesValues (s : MethodScope) {v : Visit} (st : TypingState)
    (hkind : v.cursor.kind = .identifier) (hparent : hidesValues v.parent.kind = true) :
    (ofVisit s v st).1 = [] := by
  have hvalue : isValue v = false := by simp [isValue, hparent]
  unfold ofVisit
  rw [hkind]
  show ofIdentifier s v = []
  rw [ofIdentifier, hvalue]
  rfl

/-- A bare name that is taken for a value is recorded as the use of a field exactly if the field
exists and no local of that name is visible. So it is recorded as the language has it, where the field
exists and no local of that name is in scope, exactly if there is no such field, or a local with the
name is both visible and in scope, or one that reaches too far has the name just when one that is
overlooked has it. Nothing is said here of the names that are not taken for values. -/
theorem field_shadowing_exact {types : TypeTable} {b : MethodBody} {s : MethodScope}
    (hs : MethodScope.ofBody? types b = some s) (hparsed : s.Parsed) {v : Visit}
    (hv : v ∈ visits s.node s.body) (hkind : v.cursor.kind = .identifier)
    (hvalue : Usage.isValue v = true) (st : TypingState) :
    let n := s.text v.cursor.node
    let way := s.body.way v.cursor.path.reverse
    (Usage.RecordsField s v st ↔ (s.fieldInScope n).isSome = true ∧
      n ∉ Scoping.visible s v.cursor.path.reverse) ∧
    ((Usage.RecordsField s v st ↔ (s.fieldInScope n).isSome = true ∧
        n ∉ Scoping.inScope s v.cursor.path.reverse) ↔
      ((s.fieldInScope n).isSome = true →
        n ∈ Scoping.parameters s ∨ (∃ q ∈ way, n ∈ Scoping.binds s.text q.1 q.2) ∨
          ((∃ q ∈ way, n ∈ Scoping.overreaches s.text q.1 q.2) ↔
            ∃ q ∈ way, n ∈ Scoping.overlooks s.text q.1))) := by
  have hrecords : Usage.RecordsField s v st ↔
      (s.fieldInScope (s.text v.cursor.node)).isSome = true ∧
        s.text v.cursor.node ∉ Scoping.visible s v.cursor.path.reverse := by
    rw [Usage.recordsField_iff st hkind hvalue, MethodScope.lookup_isNone_iff,
      MethodScope.hidden_iff hs hparsed hv hkind]
  refine ⟨hrecords, ?_⟩
  rw [hrecords, Scoping.mem_visible, Scoping.mem_inScope]
  simp only [and_or_left, exists_or]
  -- the two lists differ in the names that reach too far and in those that are overlooked
  by_cases hfield : (s.fieldInScope (s.text v.cursor.node)).isSome = true
  · grind
  · simp [hfield]

namespace Shelf

/-- A method in whose loop header and `finally` clause a field is meant that locals hide, and in
whose lambda a parameter is meant that does not hide a field. -/
def lines : List String := [
  "class Shelf \x7b int[] items; Sink out;\n",
  "void sort() \x7b for (int items : items) \x7b \x7d\n",
  "try (Sink out = null) \x7b \x7d finally \x7b out.close(); \x7d\n",
  "Sizer s = (int... items) -> items; use(out); \x7d \x7d\n"]

/-- The lines with their parse tree. -/
def file : SourceFile where
  path := "Shelf.java"
  bytes := (lines.flatMap (fun l => l.toUTF8.data.toList)).toArray
  tree := .node (.other "program") .none 0 179 [
    .node .classDeclaration .none 0 178 [
      .node .identifier .name 6 11 [],
      .node (.other "class_body") .body 12 178 [
        .node .fieldDeclaration .none 14 26 [
          .node .arrayType .type 14 19 [
            .node (.other "integral_type") .element 14 17 [],
            .node (.other "dimensions") (.other "dimensions") 17 19 []],
          .node .variableDeclarator .declarator 20 25 [.node .identifier .name 20 25 []]],
        .node .fieldDeclaration .none 27 36 [
          .node .typeIdentifier .type 27 31 [],
          .node .variableDeclarator .declarator 32 35 [.node .identifier .name 32 35 []]],
        .node .methodDeclaration .none 37 176 [
          .node (.other "void_type") .type 37 41 [],
          .node .identifier .name 42 46 [],
          .node (.other "formal_parameters") .parameters 46 48 [],
          .node (.other "block") .body 49 176 [
            .node .enhancedForStatement .none 51 78 [
              .node (.other "integral_type") .type 56 59 [],
              .node .identifier .name 60 65 [],
              .node .identifier .value 68 73 [],
              .node (.other "block") .body 75 78 []],
            .node (.other "try_with_resources_statement") .none 79 129 [
              .node (.other "resource_specification") (.other "resources") 83 100 [
                .node .resource .none 84 99 [
                  .node .typeIdentifier .type 84 88 [],
                  .node .identifier .name 89 92 [],
                  .node (.other "null_literal") .value 95 99 []]],
              .node (.other "block") .body 101 104 [],
              .node (.other "finally_clause") .none 105 129 [
                .node (.other "block") .none 113 129 [
                  .node (.other "expression_statement") .none 115 127 [
                    .node .methodInvocation .none 115 126 [
                      .node .identifier .object 115 118 [],
                      .node .identifier .name 119 124 [],
                      .node (.other "argument_list") .arguments 124 126 []]]]]],
            .node .localVariableDeclaration .none 130 164 [
              .node .typeIdentifier .type 130 135 [],
              .node .variableDeclarator .declarator 136 163 [
                .node .identifier .name 136 137 [],
                .node .lambda .value 140 163 [
                  .node (.other "formal_parameters") .parameters 140 154 [
                    .node .spreadParameter .none 141 153 [
                      .node (.other "integral_type") .none 141 144 [],
                      .node .variableDeclarator .none 148 153 [
                        .node .identifier .name 148 153 []]]],
                  .node .identifier .body 158 163 []]]],
            .node (.other "expression_statement") .none 165 174 [
              .node .methodInvocation .none 165 173 [
                .node .identifier .name 165 168 [],
                .node (.other "argument_list") .arguments 168 173 [
                  .node .identifier .none 169 172 []]]]]]]]]

def types : TypeTable := (Index.ofFiles [file] []).types

/-- The bare names that a field could be meant by: the offset, whether a use is recorded, and
whether a local of that name is in scope. -/
def uses : List (Nat × Bool × Bool) :=
  [(68, false, false), (115, false, false), (158, true, true), (169, true, false)]

end Shelf

set_option maxRecDepth 100000 in
/-- In the header of the loop and in the `finally` clause a field is meant and not recorded, in the
lambda one is recorded where the parameter is meant, and only the last use is as it should be. -/
theorem field_shadowing_exact_shelf :
    ∃ b ∈ Index.bodies (Registry.ofFiles [Shelf.file]), ∃ s,
      MethodScope.ofBody? Shelf.types b = some s ∧ s.Parsed ∧
      ∀ u ∈ Shelf.uses, ∃ v ∈ visits s.node s.body, v.cursor.node.start = u.1 ∧
        (Usage.RecordsField s v s.initialState ↔ u.2.1 = true) ∧
        (s.text v.cursor.node ∈ Scoping.inScope s v.cursor.path.reverse ↔ u.2.2 = true) := by
  have hbody : ∃ b ∈ Index.bodies (Registry.ofFiles [Shelf.file]),
      ∃ s ∈ MethodScope.ofBody? Shelf.types b, s.Parsed ∧
      ∀ u ∈ Shelf.uses, ∃ v ∈ visits s.node s.body, v.cursor.node.start = u.1 ∧
        v.cursor.kind = .identifier ∧ Usage.isValue v = true ∧
        ((s.fieldInScope (s.text v.cursor.node)).isSome = true ∧
          s.text v.cursor.node ∉ Scoping.visible s v.cursor.path.reverse ↔ u.2.1 = true) ∧
        (s.text v.cursor.node ∈ Scoping.inScope s v.cursor.path.reverse ↔ u.2.2 = true) := by
    decide +kernel
  obtain ⟨b, hb, s, hs, hparsed, huses⟩ := hbody
  refine ⟨b, hb, s, hs, hparsed, fun u hu => ?_⟩
  obtain ⟨v, hv, hstart, hkind, hvalue, hrecorded, hscope⟩ := huses u hu
  have hexact := (field_shadowing_exact hs hparsed hv hkind hvalue s.initialState).1
  exact ⟨v, hv, hstart, hexact.trans hrecorded, hscope⟩

set_option maxRecDepth 100000 in
/-- The name that the loop runs over means the field, since the loop variable is in scope only in
the body of the loop; its use is not recorded. -/
theorem loop_header_hides_field :
    ∃ b ∈ Index.bodies (Registry.ofFiles [Shelf.file]),
      ∃ s ∈ MethodScope.ofBody? Shelf.types b, s.Parsed ∧
        ∃ v ∈ visits s.node s.body, v.cursor.kind = .identifier ∧ Usage.isValue v = true ∧
          (s.fieldInScope (s.text v.cursor.node)).isSome = true ∧
          s.text v.cursor.node ∉ Scoping.inScope s v.cursor.path.reverse ∧
          (Usage.ofVisit s v s.initialState).1 = [] := by
  decide +kernel

end FieldTrace
