import FieldTrace.Proofs.Contexts

/-! # One node for each caller and line

The callers of a node are found in one pass over the references. What is shown of them is the same
as if the first callers were taken, for each of them its first lines, and then those callers left out
that are on the path (`CallerGroups.selection`). A reference that repeats an earlier one is passed
over, so that it uses up neither of the limits (`CallerGroups.collect_repeated`). -/

namespace FieldTrace

namespace CallerGroups

variable {callerLimit callSiteLimit : Nat} {refs before after : List Reference} {g : CallerGroups}
  {r : Reference}

/-! ### Repeated references -/

/-- A reference that has been taken up, or passed over, changes nothing if it comes again. -/
theorem GroupsOf.add_eq_self (h : GroupsOf callerLimit callSiteLimit refs g) (hr : r ∈ refs) :
    g.add callerLimit callSiteLimit r = g := by
  unfold CallerGroups.add
  cases he : r.enclosing with
  | none => rfl
  | some m =>
    have hm : m ∈ callersIn refs := mem_callersIn.2 ⟨r, hr, he⟩
    dsimp only
    unfold addCall
    by_cases htaken : m ∈ (callersIn refs).take callerLimit
    · have hseen : (m, r.location) ∈ g.seen :=
        (h.seen m r.location).2 ⟨htaken, (mem_iff_mem_placesIn he).1 hr⟩
      have hcontains : g.callers.contains m = true := (h.contains_iff m).2 htaken
      rw [if_neg (by simp [hcontains]), if_pos (by simpa using hseen)]
    · have hcontains : ¬ g.callers.contains m = true := mt (h.contains_iff m).1 htaken
      have hfull : callerLimit ≤ (callersIn refs).length := by
        by_contra hroom
        rw [List.take_of_length_le (by omega)] at htaken
        exact htaken hm
      have hsize := h.size_eq
      rw [if_pos]
      simp only [hcontains, Bool.not_false, Bool.true_and, decide_eq_true_eq]
      omega

/-- A repeated reference can be left out. -/
theorem collect_repeated (hr : r ∈ before) :
    collect callerLimit callSiteLimit (before ++ r :: after) =
      collect callerLimit callSiteLimit (before ++ after) := by
  have hbefore := groupsOf_refs callerLimit callSiteLimit before
  unfold collect
  rw [List.foldl_append, List.foldl_append, List.foldl_cons, hbefore.add_eq_self hr]

/-! ### The selection -/

/-- The callers and lines to show: the first callers in order of first occurrence, each with the
first of its lines. -/
def selection (callerLimit callSiteLimit : Nat) (refs : List Reference) :
    List (MethodId × Location) :=
  ((callersIn refs).take callerLimit).flatMap (fun m =>
    ((distinct (placesIn refs m)).take callSiteLimit).map (fun l => (m, l)))

/-- No caller is selected twice with the same line. -/
theorem nodup_selection (callerLimit callSiteLimit : Nat) (refs : List Reference) :
    (selection callerLimit callSiteLimit refs).Nodup := by
  have hcallers : ((callersIn refs).take callerLimit).Nodup :=
    (nodup_callersIn refs).sublist (List.take_sublist _ _)
  refine List.nodup_flatMap.2 ⟨fun m _ => ?_, hcallers.imp (fun {m m'} hne => ?_)⟩
  · have hplaces : ((distinct (placesIn refs m)).take callSiteLimit).Nodup :=
      (nodup_distinct _).sublist (List.take_sublist _ _)
    exact hplaces.map (fun l l' heq => congrArg Prod.snd heq)
  · -- the pairs of different callers differ in the caller
    rintro p hp hp'
    obtain ⟨l, -, rfl⟩ := List.mem_map.1 hp
    obtain ⟨l', -, heq⟩ := List.mem_map.1 hp'
    exact hne (congrArg Prod.fst heq).symm

end CallerGroups

/-! ### The nodes -/

namespace Index

variable (idx : Index) (s : Settings) (t : Task)

theorem filterMap_methodChild? (pairs : List (MethodId × Location)) :
    pairs.filterMap (fun p => idx.methodChild? s t p.1 (some p.2)) =
      (pairs.filter (fun p => !t.path.contains p.1)).map
        (fun p => t.methodChild (idx.methodNode s p.1 (some p.2)) p.1) := by
  induction pairs with
  | nil => rfl
  | cons p pairs ih =>
    rw [List.filterMap_cons, List.filter_cons, methodChild?, key_methodNode, ih]
    cases t.path.contains p.1 <;> rfl

/-- The children for some uses are the nodes of the selection that are not on the path. -/
theorem callerChildren_eq (uses : List Reference) :
    idx.callerChildren s t uses =
      ((CallerGroups.selection s.callerLimit s.callSiteLimit uses).filter
        (fun p => !t.path.contains p.1)).map
        (fun p => t.methodChild (idx.methodNode s p.1 (some p.2)) p.1) := by
  rw [callerChildren, CallerGroups.collect_eq]
  exact idx.filterMap_methodChild? s t _

/-- No two children have the same caller and line. -/
theorem nodup_callerChildren (uses : List Reference) :
    ((idx.callerChildren s t uses).map (fun c => (c.1.key, c.1.location))).Nodup := by
  have hkeys : (idx.callerChildren s t uses).map (fun c => (c.1.key, c.1.location)) =
      ((CallerGroups.selection s.callerLimit s.callSiteLimit uses).filter
        (fun p => !t.path.contains p.1)).map (fun p => (p.1, some p.2)) := by
    rw [callerChildren_eq, List.map_map]
    apply List.map_congr_left
    intro p _
    rw [Function.comp_apply, Task.fst_methodChild]
    rfl
  rw [hkeys]
  refine ((CallerGroups.nodup_selection _ _ uses).filter _).map ?_
  rintro ⟨m, l⟩ ⟨m', l'⟩ heq
  cases heq
  rfl

end Index

namespace Expansion

variable {a : IndexAccess}

theorem runOn_methodNode_ok (h : ∀ n m, a.fails n (.method m) = none) (m : MethodId)
    (location : Option Location) (r : Run) :
    (methodNode a m location).runOn r =
      (.ok (a.index.methodNode r.settings m location),
        { r with indexCalls := r.indexCalls + 1 }) := by
  rw [methodNode, Analysis.runOn_bind, IndexAccess.method, Analysis.runOn_ask, h]
  rfl

/-- Where methods can be looked up, callers at places have the children of the index. -/
theorem runOn_callersAt (h : ∀ n m, a.fails n (.method m) = none) (t : Task)
    (pairs : List (MethodId × Location)) (r : Run) :
    (callersAt a t pairs).runOn r =
      (.ok (pairs.filterMap (fun p => a.index.methodChild? r.settings t p.1 (some p.2))),
        { r with indexCalls := r.indexCalls + pairs.length }) := by
  induction pairs generalizing r with
  | nil => rfl
  | cons p pairs ih =>
    obtain ⟨m, l⟩ := p
    rw [callersAt, Analysis.runOn_bind_ok r (runOn_methodNode_ok h m (some l) r),
      Analysis.runOn_bind_ok _ (ih _), Analysis.runOn_pure, List.filterMap_cons,
      Index.methodChild?, List.length_cons, Nat.add_assoc, Nat.add_comm 1]
    split <;> rfl

/-- Where methods can be looked up, one question is asked for each caller and line. -/
theorem runOn_callerChildren (h : ∀ n m, a.fails n (.method m) = none) (t : Task)
    (refs : List Reference) (r : Run) :
    (callerChildren a t refs).runOn r =
      (.ok (a.index.callerChildren r.settings t refs),
        { r with indexCalls := r.indexCalls + (CallerGroups.collect r.settings.callerLimit
          r.settings.callSiteLimit refs).length }) := by
  rw [callerChildren, Analysis.runOn_bind_ok r (Analysis.runOn_get r)]
  exact runOn_callersAt h t _ r

/-- For whatever references, limits and path: where methods can be looked up, there is a child for
exactly the callers and lines of the selection, in its order, less the callers on the path. No two
children have the same caller and line, and references that repeat an earlier one can be left
out. -/
theorem callerChildren_eq_selection (h : ∀ n m, a.fails n (.method m) = none) (t : Task)
    (refs : List Reference) (r : Run) :
    ∃ cs r', (callerChildren a t refs).runOn r = (.ok cs, r') ∧
      cs = ((CallerGroups.selection r.settings.callerLimit r.settings.callSiteLimit refs).filter
        (fun p => !t.path.contains p.1)).map
        (fun p => t.methodChild (a.index.methodNode r.settings p.1 (some p.2)) p.1) ∧
      (cs.map (fun c => (c.1.key, c.1.location))).Nodup ∧
      ∀ before ref after, refs = before ++ ref :: after → ref ∈ before →
        (callerChildren a t (before ++ after)).runOn r = (.ok cs, r') := by
  refine ⟨_, _, runOn_callerChildren h t refs r, a.index.callerChildren_eq r.settings t refs,
    a.index.nodup_callerChildren r.settings t refs, ?_⟩
  rintro before ref after rfl href
  rw [runOn_callerChildren h, Index.callerChildren, Index.callerChildren,
    CallerGroups.collect_repeated href]

end Expansion

/-! A shop whose index answers about methods only. -/

namespace Shop

def access : IndexAccess where
  index := {}
  fails _ call := match call with
    | .method _ => none
    | _ => some (.broken "closed")

def caller (name : String) : MethodId := ⟨"Shop", name, []⟩

def line (n : Int) : Location := ⟨"Shop.java", n⟩

/-- Calls on five lines, one of which has two, and a use outside all methods. -/
def uses : List Reference := [
  ⟨none, line 1⟩, ⟨some (caller "sell"), line 3⟩, ⟨some (caller "sell"), line 3⟩,
  ⟨some (caller "audit"), line 7⟩, ⟨some (caller "sell"), line 4⟩,
  ⟨some (caller "refund"), line 9⟩, ⟨some (caller "sell"), line 5⟩]

/-- A node below one of the callers. -/
def task : Task where
  step := .method (caller "count")
  path := [caller "count", caller "audit"]
  spliced := []
  context := ⟨"Shop", "stock"⟩

def run : Run := { settings := { callerLimit := 2, callSiteLimit := 2 } }

end Shop

/-- Two lines of the first caller are shown: its repeated call is passed over, the second caller is on
the path, and the third is beyond the limit. -/
theorem callerChildren_eq_selection_shop :
    (∀ n m, Shop.access.fails n (.method m) = none) ∧
      ∃ cs r', (Expansion.callerChildren Shop.access Shop.task Shop.uses).runOn Shop.run =
          (.ok cs, r') ∧
        cs.map (fun c => (c.1.key, c.1.location)) =
          [(Shop.caller "sell", some (Shop.line 3)), (Shop.caller "sell", some (Shop.line 4))] := by
  have hmethods : ∀ n m, Shop.access.fails n (.method m) = none := fun _ _ => rfl
  obtain ⟨cs, r', hrun, hcs, -⟩ :=
    Expansion.callerChildren_eq_selection hmethods Shop.task Shop.uses Shop.run
  refine ⟨hmethods, cs, r', hrun, ?_⟩
  rw [hcs]
  decide

end FieldTrace
