import FieldTrace.Proofs.Children

/-! # Which callers are shown

A node that has been expanded shows each caller that the limits let through, unless a node on its
path has the same key. What that node stands for does not matter: a field and a method without
parameters may share their key, and so may a mapping site and a method with the two mapped types as
parameters. -/

namespace FieldTrace

/-- A method that the references call for, at a place that the limits let through. -/
structure Settings.LetsThrough (s : Settings) (refs : List Reference) (m : MethodId) (l : Location) :
    Prop where
  caller : m ∈ (callersIn refs).take s.callerLimit
  place : l ∈ (distinct (placesIn refs m)).take s.callSiteLimit

theorem Settings.LetsThrough.mem_collect {s : Settings} {refs : List Reference} {m : MethodId}
    {l : Location} (h : s.LetsThrough refs m l) :
    (m, l) ∈ CallerGroups.collect s.callerLimit s.callSiteLimit refs := by
  rw [CallerGroups.collect_eq, List.mem_flatMap]
  exact ⟨m, h.caller, List.mem_map_of_mem h.place⟩

/-! ### What expansions show -/

namespace Task

/-- The method is on the path, or a child shows it at the place. -/
def ShowsOrHas (t : Task) (cs : List Child) (m : MethodId) (l : Option Location) : Prop :=
  m ∈ t.path ∨ ∃ c ∈ cs, c.1.key = m ∧ c.1.location = l

theorem ShowsOrHas.mono {t : Task} {cs cs' : List Child} {m : MethodId} {l : Option Location}
    (h : t.ShowsOrHas cs m l) (hcs : cs ⊆ cs') : t.ShowsOrHas cs' m l := by
  obtain hpath | ⟨c, hc, hshown⟩ := h
  · exact .inl hpath
  · exact .inr ⟨c, hcs hc, hshown⟩

/-- The children show the callers that are not on the path, and the declaring method if that is to
be shown. -/
structure ShowsCallers (idx : Index) (s : Settings) (t : Task) (cs : List Child) : Prop where
  uses : ∀ m l, s.LetsThrough (t.uses idx s) m l → t.ShowsOrHas cs m (some l)
  declaring : ∀ c, t.step = .mapping c true →
    t.ShowsOrHas cs c.site.declaring ((idx.method c.site.declaring).map MethodDecl.location)

end Task

namespace Index

variable {idx : Index} {s : Settings} {t : Task}

/-- A method that is not on the path gets a child. -/
theorem shows_methodChild? (idx : Index) (s : Settings) (t : Task) (m : MethodId)
    (l : Option Location) : t.ShowsOrHas (idx.methodChild? s t m l).toList m l := by
  unfold methodChild?
  split
  next hkey => exact .inl (by simpa using hkey)
  next =>
    refine .inr ⟨t.methodChild (idx.methodNode s m l) m, by simp, ?_⟩
    unfold Task.methodChild
    split <;> exact ⟨rfl, rfl⟩

/-- Callers that the limits let through are shown. -/
theorem shows_callerChildren {uses : List Reference} {m : MethodId} {l : Location}
    (h : s.LetsThrough uses m l) : t.ShowsOrHas (idx.callerChildren s t uses) m (some l) := by
  refine (shows_methodChild? idx s t m (some l)).mono (fun c hc => ?_)
  exact List.mem_filterMap.2 ⟨(m, l), h.mem_collect, by simpa using hc⟩

theorem shows_rootChildren {cs : List Child} (h : idx.rootChildren s t = some cs) {m : MethodId}
    {l : Location} (hm : s.LetsThrough (idx.directUses t.context) m l) :
    t.ShowsOrHas cs m (some l) := by
  obtain ⟨xs, -, rfl⟩ := Option.map_eq_some_iff.1 h
  exact (shows_callerChildren hm).mono (List.subset_append_right _ _)

theorem shows_farChildren {c : Crossing} {cs : List Child}
    (h : idx.farChildren s t c true = some cs) :
    t.ShowsOrHas cs c.site.declaring
      ((idx.method c.site.declaring).map MethodDecl.location) := by
  obtain ⟨xs, -, rfl⟩ := Option.map_eq_some_iff.1 h
  exact (shows_methodChild? idx s t _ _).mono (List.subset_append_left _ _)

/-- Whatever a node stands for, its callers are among its children. -/
theorem childrenOf_showsCallers {cs : List Child} (h : idx.childrenOf s t = some cs) :
    t.ShowsCallers idx s cs := by
  unfold childrenOf at h
  cases hstep : t.step with
  | root =>
    rw [hstep] at h
    refine ⟨fun m l hm => ?_, by simp [hstep]⟩
    rw [Task.uses, hstep] at hm
    exact shows_rootChildren h hm
  | mapping c showDeclaring =>
    rw [hstep] at h
    refine ⟨fun m l hm => ?_, fun c' hc' => ?_⟩
    · have hcaller := hm.caller
      rw [Task.uses, hstep] at hcaller
      simp [callersIn, distinct] at hcaller
    · rw [hstep] at hc'
      cases hc'
      exact shows_farChildren h
  | accessor x =>
    rw [hstep] at h
    cases h
    refine ⟨fun m l hm => ?_, by simp [hstep]⟩
    rw [Task.uses, hstep] at hm
    exact shows_callerChildren hm
  | method m₀ =>
    rw [hstep] at h
    cases h
    refine ⟨fun m l hm => ?_, by simp [hstep]⟩
    rw [Task.uses, hstep] at hm
    exact (shows_callerChildren hm).mono (List.subset_append_left _ _)

end Index

/-- Without faults an expanded node shows its callers. -/
theorem Expansion.children_showsCallers {a : IndexAccess} {s : Settings} {t : Task} {cs : List Child}
    (h : (children a.faultless t).outcome s = .ok cs) : t.ShowsCallers a.index s cs :=
  Index.childrenOf_showsCallers (childrenOf_of_outcome h)

/-! ### Callers in a tree -/

/-- A caller of a node below the given ones, with the place at which it is to be shown: a use that
the limits let through, or the method that declares the site of a mapping node right below the
root. -/
inductive Growth.Caller (idx : Index) (s : Settings) (above : List Growth) (t : Task) :
    MethodId → Option Location → Prop where
  | use {m : MethodId} {l : Location} (h : s.LetsThrough (t.uses idx s) m l) :
    Caller idx s above t m (some l)
  | declaring {c : Crossing} {showDeclaring : Bool} (hstep : t.step = .mapping c showDeclaring)
    (habove : above.length = 1) :
    Caller idx s above t c.site.declaring
      ((idx.method c.site.declaring).map MethodDecl.location)

/-- Below the root every node that has been expanded has the children it has without faults. -/
theorem Growth.Grown.whole {a : IndexAccess} {s : Settings} {seed : FieldRef} {g : Growth}
    {remaining : Nat} (hg : g.Grown a s remaining) (hroot : g.child = rootChild a.index seed)
    {above : List Growth} {n : CallNode} {t : Task} {kids : List Growth}
    (h : g.At above (.grown n t kids)) (habove : above ≠ []) :
    (Expansion.children a.faultless t).outcome s = .ok (kids.map Growth.child) := by
  obtain ⟨_, hgrown⟩ := hg.at h
  have hstep := (hg.step_eq hroot h t rfl).1
  cases hgrown with
  | grown _ hr hrun _ =>
    exact (Expansion.children_cases hr hrun).resolve_right (fun h => habove (hstep.1 h.1))

/-- In a tree that is built from a run that remembers outcomes only, each node that has been
expanded shows its callers, at the root provided that the expansion has met no fault: each of them
is the key of the node or of one above it, whatever that stands for, or is shown by a child. -/
theorem buildHierarchy_showsCallers {a : IndexAccess} {seed : FieldRef} {r r' : Run}
    {tree : CallTree} (h : (buildHierarchy a seed).runOn r = (.ok tree, r'))
    (hsound : r.Sound a.faultless) :
    ∃ g, (growthOf a seed).runOn r = (.ok g, r') ∧ g.tree = tree ∧
      ∀ above n t kids, g.At above (.grown n t kids) →
        (above = [] →
          (Expansion.children a.faultless t).outcome r.settings = .ok (kids.map Growth.child)) →
        ∀ m l, Growth.Caller a.index r.settings above t m l →
          (∃ x ∈ .grown n t kids :: above, x.node.key = m) ∨
            ∃ kid ∈ kids, kid.node.key = m ∧ kid.node.location = l := by
  obtain ⟨g, hrun, htree⟩ := growthOf_of_buildHierarchy h
  obtain ⟨hg, hroot⟩ := growthOf_grown a seed (s := r.settings) ⟨rfl, hsound⟩ g r' hrun
  refine ⟨g, hrun, htree, fun above n t kids hat hwhole m l hcaller => ?_⟩
  have hfound : (Expansion.children a.faultless t).outcome r.settings =
      .ok (kids.map Growth.child) := by
    by_cases habove : above = []
    · exact hwhole habove
    · exact hg.whole hroot hat habove
  have hshows := Expansion.children_showsCallers hfound
  have hmem : t.ShowsOrHas (kids.map Growth.child) m l := by
    cases hcaller with
    | use h => exact hshows.uses _ _ h
    | @declaring c showDeclaring hstep hlength =>
      have hshown := ((hg.step_eq hroot hat t rfl).2 c showDeclaring hstep).2 hlength
      exact hshows.declaring c (hshown ▸ hstep)
  obtain hpath | ⟨c, hc, hshown⟩ := hmem
  · rw [hg.path_eq hroot hat t rfl, List.mem_map] at hpath
    exact .inl hpath
  · obtain ⟨kid, hkid, rfl⟩ := List.mem_map.1 hc
    exact .inr ⟨kid, hkid, hshown⟩

/-- The task is that of a mapping node which shows a given method as the declaring one. -/
def Task.declares (m : MethodId) (t : Task) : Bool :=
  match t.step with
  | .mapping c true => decide (c.site.declaring = m)
  | _ => false

theorem Task.declares_eq_true {m : MethodId} {t : Task} (h : declares m t = true) :
    ∃ c, t.step = .mapping c true ∧ c.site.declaring = m := by
  unfold declares at h
  split at h
  next c hstep => exact ⟨c, hstep, by simpa using h⟩
  next => cases h

/-- The mapping node below the root shows the method that declares its site. -/
theorem buildHierarchy_showsCallers_orders :
    ∃ (g : Growth) (r' : Run),
      (growthOf { index := Orders.index } Orders.seed).runOn {} = (.ok g, r') ∧
      ∃ kid ∈ g.kids, kid.node.category = .mapping ∧
        ∃ x ∈ kid.kids, x.node.key = Orders.convert ∧ x.node.location = none := by
  obtain ⟨tree, r', hrun⟩ := buildHierarchy_exists_ok_of_answers (a := { index := Orders.index })
    (fun _ _ => rfl) (r := {}) Token.quiet_default Orders.seed
  obtain ⟨g, hg, -, hshows⟩ := buildHierarchy_showsCallers hrun (Run.sound_of_empty rfl)
  have hfacts : ((growthOf { index := Orders.index } Orders.seed).runOn {}).1.toOption.any (fun g =>
      decide (g.node.key ≠ Orders.convert) && g.kids.any (fun k =>
        decide (k.node.category = .mapping ∧ k.node.key ≠ Orders.convert) &&
          k.task?.any (Task.declares Orders.convert) && !k.kids.isEmpty)) = true := by
    decide +kernel
  rw [hg] at hfacts
  simp only [Except.toOption, Option.any_some, Bool.and_eq_true, decide_eq_true_eq,
    List.any_eq_true, Option.any_eq_true] at hfacts
  obtain ⟨hroot, kid, hkid, ⟨⟨hcategory, hkey⟩, t, ht, hdeclares⟩, hexpanded⟩ := hfacts
  obtain ⟨c, hstep, hdeclaring⟩ := Task.declares_eq_true hdeclares
  refine ⟨g, r', hg, kid, hkid, hcategory, ?_⟩
  cases kid with
  | terminal | last | failed => cases hexpanded
  | grown n t' kids =>
    cases ht
    have hcaller : Growth.Caller Orders.index {} [g] t c.site.declaring
        ((Orders.index.method c.site.declaring).map MethodDecl.location) := .declaring hstep rfl
    rw [hdeclaring] at hcaller
    obtain ⟨x, hx, hpath⟩ | hshown := hshows [g] n t kids (.under .here hkid) nofun _ _ hcaller
    · exfalso
      obtain rfl | hx := List.mem_cons.1 hx
      · exact hkey hpath
      · rw [List.mem_singleton.1 hx] at hpath
        exact hroot hpath
    · exact hshown

/-! ### Coincidences of keys -/

namespace Coincidence

open Syntax

/-- A field and a method without parameters share their name, a method has the name of a setter, and
a mapping site has the name and the parameter types of the method that declares it. -/
def lines : List String := [
  "class Order \x7b\n",
  "    String id;\n",
  "    String id() \x7b return id; \x7d\n",
  "    String setId(String first, String last) \x7b return id; \x7d\n",
  "\x7d\n",
  "class OrderDto \x7b\n",
  "    String id;\n",
  "\x7d\n",
  "class Converter \x7b\n",
  "    MapperFacade facade;\n",
  "    void map(Order source, OrderDto target) \x7b facade.map(source, target); \x7d\n",
  "\x7d\n"]

/-- The lines with their parse tree. -/
def file : SourceFile where
  path := "Order.java"
  bytes := (lines.flatMap (fun l => l.toUTF8.data.toList)).toArray
  tree := .node (.other "program") .none 0 276 [
    .node .classDeclaration .none 0 120 [
      .node .identifier .name 6 11 [],
      .node (.other "class_body") .body 12 120 [
        .node .fieldDeclaration .none 18 28 [
          .node .typeIdentifier .type 18 24 [],
          .node .variableDeclarator .declarator 25 27 [.node .identifier .name 25 27 []]],
        .node .methodDeclaration .none 33 59 [
          .node .typeIdentifier .type 33 39 [],
          .node .identifier .name 40 42 [],
          .node (.other "formal_parameters") .parameters 42 44 [],
          .node (.other "block") .body 45 59 [
            .node (.other "return_statement") .none 47 57 [.node .identifier .none 54 56 []]]],
        .node .methodDeclaration .none 64 118 [
          .node .typeIdentifier .type 64 70 [],
          .node .identifier .name 71 76 [],
          .node (.other "formal_parameters") .parameters 76 103 [
            .node .formalParameter .none 77 89 [
              .node .typeIdentifier .type 77 83 [],
              .node .identifier .name 84 89 []],
            .node .formalParameter .none 91 102 [
              .node .typeIdentifier .type 91 97 [],
              .node .identifier .name 98 102 []]],
          .node (.other "block") .body 104 118 [
            .node (.other "return_statement") .none 106 116 [
              .node .identifier .none 113 115 []]]]]],
    .node .classDeclaration .none 121 154 [
      .node .identifier .name 127 135 [],
      .node (.other "class_body") .body 136 154 [
        .node .fieldDeclaration .none 142 152 [
          .node .typeIdentifier .type 142 148 [],
          .node .variableDeclarator .declarator 149 151 [.node .identifier .name 149 151 []]]]],
    .node .classDeclaration .none 155 275 [
      .node .identifier .name 161 170 [],
      .node (.other "class_body") .body 171 275 [
        .node .fieldDeclaration .none 177 197 [
          .node .typeIdentifier .type 177 189 [],
          .node .variableDeclarator .declarator 190 196 [.node .identifier .name 190 196 []]],
        .node .methodDeclaration .none 202 273 [
          .node (.other "void_type") .type 202 206 [],
          .node .identifier .name 207 210 [],
          .node (.other "formal_parameters") .parameters 210 241 [
            .node .formalParameter .none 211 223 [
              .node .typeIdentifier .type 211 216 [],
              .node .identifier .name 217 223 []],
            .node .formalParameter .none 225 240 [
              .node .typeIdentifier .type 225 233 [],
              .node .identifier .name 234 240 []]],
          .node (.other "block") .body 242 273 [
            .node (.other "expression_statement") .none 244 271 [
              .node .methodInvocation .none 244 270 [
                .node .identifier .object 244 250 [],
                .node .identifier .name 251 254 [],
                .node (.other "argument_list") .arguments 254 270 [
                  .node .identifier .none 255 261 [],
                  .node .identifier .none 263 269 []]]]]]]]]

def index : Index := .ofFiles [file] []

def seed : FieldRef := ⟨"Order", "id"⟩

def idMethod : MethodId := ⟨"Order", "id", []⟩

def setIdMethod : MethodId := ⟨"Order", "setId", ["String", "String"]⟩

def mapMethod : MethodId := ⟨"Converter", "map", ["Order", "OrderDto"]⟩

set_option maxRecDepth 100000 in
/-- What the index holds: the direct uses, all uses, and the place of the declaring method. -/
theorem index_holds :
    (Task.ofSeed "Order" seed).uses index {} = [⟨some idMethod, ⟨"Order.java", 3⟩⟩] ∧
      index.fieldReferences seed =
        [⟨some idMethod, ⟨"Order.java", 3⟩⟩, ⟨some setIdMethod, ⟨"Order.java", 4⟩⟩] ∧
      (index.method mapMethod).map MethodDecl.location = some ⟨"Order.java", 11⟩ := by
  decide +kernel

set_option maxRecDepth 100000 in
/-- What the tree lacks. -/
theorem growthOf_lacks :
    ((growthOf { index := index } seed).runOn {}).1.toOption.any (fun g =>
      decide (g.task? = some (Task.ofSeed "Order" seed)) &&
        g.kids.all (fun k => decide (k.node.key ≠ idMethod ∧ k.node.key ≠ setIdMethod)) &&
        g.kids.any (fun k => k.task?.any (Task.declares mapMethod) && !k.kids.isEmpty &&
          k.kids.all (fun x => decide (x.node.key ≠ mapMethod)))) = true := by
  decide +kernel

end Coincidence

/-- The node stands for a method or an accessor, or the trace ends at it. -/
def Growth.StandsForMethod (g : Growth) : Prop :=
  ∀ t, g.task? = some t → (∃ m, t.step = .method m) ∨ ∃ x, t.step = .accessor x

/-- The node has been expanded, but no child shows the method, and neither the node nor one above it
that has the key of the method stands for a method. -/
structure Growth.Hides (g : Growth) (above : List Growth) (m : MethodId) : Prop where
  expanded : g.kids ≠ []
  not_shown : ∀ kid ∈ g.kids, kid.node.key ≠ m
  not_passed : ∀ x ∈ g :: above, x.node.key = m → ¬ x.StandsForMethod

/-- Without any fault a method with the key of the root is hidden, and so are a method with the name
of a setter and one with the key of a mapping node. -/
theorem coincidences_hide_callers :
    ∃ g r', (growthOf { index := Coincidence.index } Coincidence.seed).runOn {} = (.ok g, r') ∧
      (∃ t, g.task? = some t ∧
        Growth.Caller Coincidence.index {} [] t Coincidence.idMethod (some ⟨"Order.java", 3⟩) ∧
        g.Hides [] Coincidence.idMethod) ∧
      (⟨some Coincidence.setIdMethod, ⟨"Order.java", 4⟩⟩ ∈
          Coincidence.index.fieldReferences Coincidence.seed ∧
        g.Hides [] Coincidence.setIdMethod) ∧
      ∃ kid ∈ g.kids, ∃ t, kid.task? = some t ∧
        Growth.Caller Coincidence.index {} [g] t Coincidence.mapMethod (some ⟨"Order.java", 11⟩) ∧
        kid.Hides [g] Coincidence.mapMethod := by
  obtain ⟨huses, hrefs, hplace⟩ := Coincidence.index_holds
  have hlacks := Coincidence.growthOf_lacks
  rcases hrun : (growthOf { index := Coincidence.index } Coincidence.seed).runOn {} with ⟨e | g, r'⟩
  · rw [hrun] at hlacks
    cases hlacks
  · rw [hrun] at hlacks
    simp only [Except.toOption, Option.any_some, Bool.and_eq_true, decide_eq_true_eq,
      List.all_eq_true, List.any_eq_true, Option.any_eq_true] at hlacks
    obtain ⟨⟨htask, hkids⟩, kid, hkid, ⟨⟨t, ht, hdeclares⟩, hexpanded⟩, hmap⟩ := hlacks
    obtain ⟨c, hstep, hdeclaring⟩ := Task.declares_eq_true hdeclares
    -- neither the root nor the mapping node stands for a method
    have hroot : ¬ g.StandsForMethod := by
      intro h
      obtain ⟨m, hm⟩ | ⟨x, hx⟩ := h _ htask
      · cases hm
      · cases hx
    have hmapping : ¬ kid.StandsForMethod := by
      intro h
      obtain ⟨m, hm⟩ | ⟨x, hx⟩ := h t ht
      · rw [hstep] at hm
        cases hm
      · rw [hstep] at hx
        cases hx
    have hgrown : g.kids ≠ [] := List.ne_nil_of_mem hkid
    refine ⟨g, r', rfl, ⟨_, htask, .use ?_, hgrown, fun k hk => (hkids k hk).1, ?_⟩,
      ⟨by simp [hrefs], hgrown, fun k hk => (hkids k hk).2, ?_⟩,
      kid, hkid, t, ht, ?_, by simpa using hexpanded, hmap, ?_⟩
    · exact ⟨by rw [huses]; decide, by rw [huses]; decide⟩
    · simp [hroot]
    · simp [hroot]
    · have hcaller : Growth.Caller Coincidence.index {} [g] t c.site.declaring
          ((Coincidence.index.method c.site.declaring).map MethodDecl.location) :=
        .declaring hstep rfl
      rwa [hdeclaring, hplace] at hcaller
    · simp [hroot, hmapping]

end FieldTrace
