import FieldTrace.Proofs.Edges
import FieldTrace.Proofs.Truncation
import Mathlib.Data.List.Flatten
import Mathlib.Data.List.Forall2

/-! # Wider limits

A tree with larger limits on callers, places and crossings shows all that a tree with smaller limits
shows. At each node the smaller limits cut lists that are otherwise the same, so that the tree embeds
into the larger one, root to root and children to a part of the children in their order
(`Rose.Embeds`).

There is one exception. Every caller within the limits is looked up, and if a look-up fails then the
whole node stays without children; so a caller that comes in by a larger limit can take all others
away (`CallNode.LosesCaller`). -/

namespace FieldTrace

/-! ### Embedded trees -/

/-- The root is the root of the other tree, and the trees below embed, in their order, into trees
below that root. A node that may lose what is below it may also be bare in the other tree. -/
inductive Rose.Embeds {α : Type} (loses : α → Prop) : Rose α → Rose α → Prop where
  | node {x : α} {ts us : List (Rose α)} (h : List.SublistForall₂ (Rose.Embeds loses) ts us) :
    Rose.Embeds loses (.node x ts) (.node x us)
  | bare {x : α} {ts : List (Rose α)} (h : loses x) : Rose.Embeds loses (.node x ts) (.leaf x)

namespace CallTree

variable {loses : CallNode → Prop}

mutual

/-- If no node may lose anything, nothing is lost. -/
theorem embeds_of_keeps : ∀ {t u : CallTree}, (∀ n ∈ nodes t, ¬ loses n) → Rose.Embeds loses t u →
    Rose.Embeds (fun _ => False) t u
  | .node n ts, .node _ us, hkeeps, .node h => by
    rw [nodes_node] at hkeeps
    exact .node (forest_embeds_of_keeps (fun n hn => hkeeps n (List.mem_cons_of_mem _ hn)) h)
  | .node n ts, _, hkeeps, .bare hlost => by
    rw [nodes_node] at hkeeps
    exact absurd hlost (hkeeps n List.mem_cons_self)

theorem forest_embeds_of_keeps : ∀ {ts us : List CallTree},
    (∀ n ∈ ts.flatMap nodes, ¬ loses n) → List.SublistForall₂ (Rose.Embeds loses) ts us →
      List.SublistForall₂ (Rose.Embeds (fun _ => False)) ts us
  | [], _, _, .nil => .nil
  | t :: ts, u :: us, hkeeps, .cons h hs => by
    rw [List.flatMap_cons] at hkeeps
    exact .cons (embeds_of_keeps (fun n hn => hkeeps n (List.mem_append_left _ hn)) h)
      (forest_embeds_of_keeps (fun n hn => hkeeps n (List.mem_append_right _ hn)) hs)
  | ts, u :: us, hkeeps, .cons_right hs => .cons_right (forest_embeds_of_keeps hkeeps hs)

end

mutual

/-- If nothing is lost, all nodes are found again in their order. -/
theorem nodes_sublist : ∀ {t u : CallTree}, Rose.Embeds (fun _ => False) t u →
    (nodes t).Sublist (nodes u)
  | .node n ts, .node _ us, .node h => by
    rw [nodes_node, nodes_node]
    exact (forest_sublist h).cons_cons n
  | _, _, .bare hlost => hlost.elim

theorem forest_sublist : ∀ {ts us : List CallTree},
    List.SublistForall₂ (Rose.Embeds (fun _ => False)) ts us →
      (ts.flatMap nodes).Sublist (us.flatMap nodes)
  | [], _, .nil => List.nil_sublist _
  | t :: ts, u :: us, .cons h hs => by
    rw [List.flatMap_cons, List.flatMap_cons]
    exact (nodes_sublist h).append (forest_sublist hs)
  | ts, u :: us, .cons_right hs => by
    rw [List.flatMap_cons]
    exact (forest_sublist hs).trans (List.sublist_append_right _ _)

end

end CallTree

/-! ### Smaller limits -/

/-- The settings agree but for limits on the children of a node, of which the first ones are at most
the second ones. -/
structure Settings.Narrower (s w : Settings) : Prop where
  callerLimit : s.callerLimit ≤ w.callerLimit
  callSiteLimit : s.callSiteLimit ≤ w.callSiteLimit
  mappingSiteLimit : s.mappingSiteLimit ≤ w.mappingSiteLimit
  eq_otherwise : w = { s with
    callerLimit := w.callerLimit
    callSiteLimit := w.callSiteLimit
    mappingSiteLimit := w.mappingSiteLimit }

namespace Settings.Narrower

variable {s w : Settings} (h : s.Narrower w)
include h

theorem sameSearches : w.SameSearches s :=
  ⟨by rw [h.eq_otherwise], by rw [h.eq_otherwise]⟩

theorem extraEntryPatterns : w.extraEntryPatterns = s.extraEntryPatterns := by
  rw [h.eq_otherwise]

theorem maxDepth : w.maxDepth = s.maxDepth := by rw [h.eq_otherwise]

end Settings.Narrower

theorem limitCrossings_sublist {limit limit' : Nat} (h : limit ≤ limit') (cs : List Crossing) :
    (limitCrossings limit cs).Sublist (limitCrossings limit' cs) :=
  (List.take_prefix_take_left h).sublist

namespace CallerGroups

variable {callers callers' places places' : Nat}

theorem shownPlaces_sublist (h : places ≤ places') (refs : List Reference) (m : MethodId) :
    (shownPlaces places refs m).Sublist (shownPlaces places' refs m) :=
  (List.take_prefix_take_left h).sublist

/-- The callers and places within smaller limits are among those within larger ones. -/
theorem collect_sublist (hcallers : callers ≤ callers') (hplaces : places ≤ places')
    (refs : List Reference) :
    (collect callers places refs).Sublist (collect callers' places' refs) := by
  rw [collect_eq, collect_eq]
  exact ((List.take_prefix_take_left hcallers).sublist.flatMap _).trans
    (List.Sublist.flatMap_right _ (fun m _ => (shownPlaces_sublist hplaces refs m).map _))

end CallerGroups

/-! ### Callers that cannot be looked up -/

/-- Some caller that the limits let through cannot be looked up. -/
def IndexAccess.LosesCaller (a : IndexAccess) (s : Settings) (uses : List Reference) : Prop :=
  ∃ p ∈ CallerGroups.collect s.callerLimit s.callSiteLimit uses,
    ∃ e, a.fails 0 (.method p.1) = some e

/-- The uses that the callers of a node are taken from. -/
inductive CallNode.Uses (idx : Index) (s : Settings) : CallNode → List Reference → Prop where
  | root {n : CallNode} (h : n.category = .root) :
    Uses idx s n (idx.directUses ⟨n.owner, n.name⟩)
  | mapping (site : MappingSite) : Uses idx s (Task.mappingNode site) []
  | accessor {f : FieldRef} {xs : List Accessor} {x : Accessor}
    (hxs : idx.accessors f = some xs) (hx : x ∈ xs) : Uses idx s x.toNode (idx.accessorUses s x)
  | method (m : MethodId) (place : Option Location) :
    Uses idx s (idx.methodNode s m place) (idx.usesThroughDispatch s m)

/-- One of the callers of the node that the limits let through cannot be looked up. -/
def CallNode.LosesCaller (a : IndexAccess) (s : Settings) (n : CallNode) : Prop :=
  ∃ uses, n.Uses a.index s uses ∧ a.LosesCaller s uses

/-- The callers of a child are taken from the uses of what it stands for. -/
theorem Task.Gives.uses {idx : Index} {s : Settings} {t t' : Task} {child : Child}
    (h : t.Gives idx s child) (ht' : child.2 = some t') : child.1.Uses idx s (t'.uses idx s) := by
  have hmethod : ∀ m place, (t.methodChild (idx.methodNode s m place) m).2 = some t' →
      (t.methodChild (idx.methodNode s m place) m).1.Uses idx s (t'.uses idx s) := by
    intro m place hm
    rw [fst_methodChild, Task.uses, (context_methodChild hm).2]
    exact .method m place
  cases h with
  | caller => exact hmethod _ _ ht'
  | declaring => exact hmethod _ _ ht'
  | ownAccessor _ hxs hx h | farAccessor _ hxs hx h =>
    obtain ⟨-, rfl⟩ := accessorChild?_eq_some h
    cases ht'
    exact .accessor hxs hx
  | mapping _ _ h =>
    obtain ⟨-, rfl⟩ := mappingChild?_eq_some h
    cases ht'
    exact .mapping _

theorem uses_rootChild {idx : Index} {seed : FieldRef} {n : CallNode} {t : Task} (s : Settings)
    (h : rootChild idx seed = (n, some t)) : n.Uses idx s (t.uses idx s) := by
  unfold rootChild at h
  split at h
  · cases h
  · split at h
    · cases h
    · cases h
      exact .root rfl

/-! ### Uses that are found -/

theorem Run.Settled.faithful {a : IndexAccess} {s : Settings} {r : Run} (h : r.Settled a s) :
    r.Faithful a s := by
  refine ⟨h.settings, fun k v hfind => ?_⟩
  have hout := h.sound k v hfind
  rw [h.settings] at hout ⊢
  exact ((Analysis.refines_searchFor a s k).outcome_eq_ok (Prod.ext hout rfl)
    ⟨rfl, Run.sound_of_empty rfl⟩).1

/-- What a search finds from a settled run, whatever the index fails at, is what it answers without
faults. -/
theorem Link.Finds.answer {α : Type} {a : IndexAccess} {s : Settings} {L : Link}
    {R : α → α → Prop} {x y : Analysis α} {v v' : α}
    (hL : ∀ r r', L.rel r r' → r.Settled a s) (hfound : L.Finds x v)
    (hsim : (Simulation.refined a a.faultless_mayFail s).Sim R x y)
    (hy : Analysis.Answers a.faultless s y v') : R v v' := by
  obtain ⟨r, r', q, hr, hrun⟩ := hfound
  obtain ⟨q', hrun', -⟩ := hy _ (Run.settled_fresh a.faultless s)
  have hm := hsim r _ ⟨(hL r r' hr).faithful, Run.settled_fresh a.faultless s⟩
  rw [hrun, hrun'] at hm
  cases hm with
  | ok h _ => exact h

/-- The uses that are found from settled runs are those of the index. -/
theorem Link.FindsUses.sameGroups {a : IndexAccess} {s : Settings} {L : Link} {t : Task}
    {refs : List Reference} (hL : ∀ r r', L.rel r r' → r.Settled a s)
    (h : L.FindsUses a t refs) : SameGroups refs (t.uses a.index s) := by
  let S := Simulation.refined a a.faultless_mayFail s
  cases h with
  | @root accessors decl users hstep haccessors hdecl husers =>
    obtain ⟨xs, hxs⟩ : ∃ xs, a.index.accessors t.context = some xs := by
      obtain ⟨r, -, q, -, hrun⟩ := haccessors
      exact Expansion.accessors_yields _ r _ q hrun
    obtain rfl := haccessors.answer hL (S.accessorsOf _) (Accessor.of_answers hxs)
    obtain rfl := hdecl.answer hL (S.ask _ _) (.ask _ _)
    obtain rfl := husers.answer hL (S.fieldUsers _) (Expansion.fieldUsers_answers _)
    obtain ⟨field, hfield, rfl⟩ := Option.map_eq_some_iff.1 hxs
    refine .of_eq ?_
    rw [Task.uses, hstep, Expansion.directUsers, hfield]
    simp only [Index.directUses, hfield]
    rfl
  | @accessor x _ hstep hrefs =>
    rw [Task.uses, hstep]
    exact hrefs.answer hL (S.references x) (Accessor.references_answers x)
  | @method m _ hstep hrefs =>
    rw [Task.uses, hstep]
    exact hrefs.answer hL (S.throughDispatch m) (Callers.throughDispatch_answers m)

/-! ### More children -/

/-- A step of the first side alone, after which the runs are still linked or the failure is
excused. -/
theorem Link.Sim.skip {α β γ : Type} {L : Link} {R : α → β → Prop} {x : Analysis γ}
    {f : γ → Analysis α} {y : Analysis β}
    (hx : ∀ r r', L.rel r r' →
      (∃ v q, x.runOn r = (.ok v, q) ∧ L.rel q r') ∨
        ∃ e q, x.runOn r = (.error e, q) ∧ L.excused e q)
    (hf : ∀ v, L.Sim R (f v) y) : L.Sim R (x >>= f) y := by
  intro r r' hr
  rw [Analysis.runOn_bind]
  obtain ⟨v, q, hrun, hq⟩ | ⟨e, q, hrun, he⟩ := hx r r' hr
  · rw [hrun]
    exact hf v q r' hq
  · rw [hrun]
    exact .excused he

namespace Widening

variable {a : IndexAccess} {s w : Settings} {t : Task}

/-- Settled runs, of which the first one has the wider limits; it is excused if one of the callers of
the node cannot be looked up. -/
def link (a : IndexAccess) (w s : Settings) (t : Task) : Link :=
  { Link.settled a w s with excused := fun _ _ => a.LosesCaller w (t.uses a.index w) }

/-- What is not excused is not needed either. -/
theorem lift {α β : Type} {Q : α → β → Prop} {x : Analysis α} {y : Analysis β}
    (hsim : (Link.settled a w s).Sim Q x y) : (link a w s t).Sim Q x y := by
  intro r r' hr
  have hm := hsim r r' hr
  revert hm
  generalize x.runOn r = p
  generalize y.runOn r' = q
  intro hm
  cases hm with
  | ok huv hr' => exact .ok huv hr'
  | error he hr' => exact .error he hr'
  | excused he => exact he.elim

theorem methodNode (ha : a.Steady) (h : s.Narrower w) (m : MethodId) (place : Option Location) :
    (link a w s t).Sim Eq (Expansion.methodNode a m place) (Expansion.methodNode a m place) := by
  refine lift ((SearchSimulation.settled a ha w s h.sameSearches).methodNode ?_ m place)
  rintro r r' ⟨hr, hr'⟩
  rw [hr.settings, hr'.settings, h.extraEntryPatterns]

/-- What the wider side looks up alone fails at most at the method. -/
theorem skip_methodNode (ha : a.Steady) {β : Type} {R : List Child → β → Prop} {m : MethodId}
    {place : Option Location} {f : CallNode → Analysis (List Child)} {y : Analysis β}
    (hm : ∀ e, a.fails 0 (.method m) = some e → a.LosesCaller w (t.uses a.index w))
    (hf : ∀ n, (link a w s t).Sim R (f n) y) :
    (link a w s t).Sim R (Expansion.methodNode a m place >>= f) y := by
  refine Link.Sim.skip (fun r r' hr => ?_) hf
  rw [Expansion.runOn_methodNode ha]
  cases hmethod : a.fails 0 (.method m) with
  | some e => exact .inr ⟨e, _, rfl, hm e hmethod⟩
  | none => exact .inl ⟨_, _, rfl, ⟨hr.1.settings, hr.1.sound, hr.1.quiet⟩, hr.2⟩

/-- More callers make more children. -/
theorem callersAt (ha : a.Steady) (h : s.Narrower w) {calls calls' : List (MethodId × Location)}
    (hcalls : calls.Sublist calls')
    (hlost : ∀ p ∈ calls', ∀ e, a.fails 0 (.method p.1) = some e →
      a.LosesCaller w (t.uses a.index w)) :
    (link a w s t).Sim (fun cs' cs => cs.Sublist cs') (Expansion.callersAt a t calls')
      (Expansion.callersAt a t calls) := by
  induction hcalls with
  | slnil => exact .pure .slnil
  | @cons calls calls' call _ ih =>
    -- a caller that only the wider side shows
    refine skip_methodNode ha (hlost call List.mem_cons_self) (fun n => ?_)
    rw [← bind_pure (Expansion.callersAt a t calls)]
    refine (ih (fun p hp => hlost p (List.mem_cons_of_mem _ hp))).bind (fun cs' cs hcs => .pure ?_)
    split
    · exact hcs
    · exact hcs.cons _
  | @cons_cons calls calls' call _ ih =>
    refine (methodNode ha h call.1 (some call.2)).bindEq (fun n => ?_)
    refine (ih (fun p hp => hlost p (List.mem_cons_of_mem _ hp))).bind (fun cs' cs hcs => .pure ?_)
    split
    · exact hcs
    · exact hcs.cons_cons _

/-- What is shown below a node with smaller limits is shown with larger ones. -/
theorem children (ha : a.Steady) (h : s.Narrower w) (t : Task) :
    ChildSimulation (SearchSimulation.settled a ha w s h.sameSearches) (link a w s t)
      (fun cs' cs => cs.Sublist cs') t where
  lift := lift
  append hcs hds := hcs.append hds
  mappings := by
    rintro r r' ⟨hr, hr'⟩ showDeclaring crossings
    rw [hr.settings, hr'.settings]
    exact (limitCrossings_sublist h.mappingSiteLimit crossings).filterMap _
  accessors _ _ := .refl _
  declaring m place := (methodNode ha h m place).bindEq (fun _ => .pure (.refl _))
  callerChildren {refs refs'} hfound hrefs := by
    have hsettled : ∀ r r', (link a w s t).rel r r' → r.Settled a w := fun _ _ hr => hr.1
    have huses := hfound.sameGroups hsettled
    refine Link.Sim.get.bind ?_
    rintro r r' ⟨hr, hr'⟩
    simp only [hr.settings, hr'.settings, ← CallerGroups.collect_congr hrefs,
      CallerGroups.collect_congr huses]
    exact callersAt ha h (CallerGroups.collect_sublist h.callerLimit h.callSiteLimit _)
      (fun p hp e he => ⟨p, hp, e, he⟩)

end Widening

/-! ### Trees within trees -/

/-- With smaller limits a node has some of the children that it has with larger ones, unless one of
its callers within these cannot be looked up. -/
theorem Expansion.found_widens {a : IndexAccess} (ha : a.Steady) {s w : Settings}
    (h : s.Narrower w) {t : Task} {cs : List Child} (hcs : found a s t = some cs) :
    (∃ cs', found a w t = some cs' ∧ cs.Sublist cs') ∨
      found a w t = none ∧ a.LosesCaller w (t.uses a.index w) := by
  have hm := (Widening.children ha h t).children (fun _ _ he => he.elim) _ _
    ⟨Run.settled_fresh a w, Run.settled_fresh a s⟩
  rw [found, Analysis.outcome] at hcs
  rw [found, Analysis.outcome]
  revert hm hcs
  generalize (Expansion.children a t).runOn { settings := s } = q
  generalize (Expansion.children a t).runOn { settings := w } = p
  intro hcs hm
  cases hm with
  | ok hsub _ => exact .inl ⟨_, rfl, Option.some.inj hcs ▸ hsub⟩
  | error _ _ => cases hcs
  | excused hlost => exact .inr ⟨rfl, hlost⟩

/-- The callers of what expanding a node gives are taken from the uses of what it stands for. -/
theorem Expansion.uses_of_found {a : IndexAccess} {s : Settings} {t t' : Task} {cs : List Child}
    {n : CallNode} (hcs : found a s t = some cs) (hchild : (n, some t') ∈ cs) :
    n.Uses a.index s (t'.uses a.index s) := by
  have hrun : (Expansion.children a t).runOn { settings := s } =
      (.ok cs, ((Expansion.children a t).runOn { settings := s }).2) := by
    rw [found, Analysis.outcome] at hcs
    revert hcs
    generalize (Expansion.children a t).runOn { settings := s } = p
    obtain ⟨e | v, q⟩ := p
    · rintro ⟨⟩
    · rintro ⟨⟩
      rfl
  obtain ⟨full, hfull, hsub⟩ := children_subset ⟨rfl, Run.sound_of_empty rfl⟩ hrun
  exact (Index.gives_of_mem_childrenOf hfull (hsub hchild)).uses rfl

/-- Over a steady index the trees below a node embed. -/
theorem Expansion.treesBelow_widens {a : IndexAccess} (ha : a.Steady) {s w : Settings}
    (h : s.Narrower w) (depth : Nat) :
    ∀ (n : CallNode) (t : Task), n.Uses a.index w (t.uses a.index w) →
      Rose.Embeds (CallNode.LosesCaller a w) (.node n (treesBelow (found a s) depth t))
        (.node n (treesBelow (found a w) depth t)) := by
  induction depth with
  | zero =>
    intro n t _
    exact .node .nil
  | succ depth ih =>
    intro n t huses
    rw [treesBelow, treesBelow]
    cases hfound : found a s t with
    | none => exact .node .nil
    | some cs =>
      obtain ⟨cs', hfound', hsub⟩ | ⟨hfound', hlost⟩ := found_widens ha h hfound
      · -- each child is shown with the trees below it, to the same depth on both sides
        have hkid : ∀ c ∈ cs, Rose.Embeds (CallNode.LosesCaller a w)
            (.node c.1 ((c.2.map (treesBelow (found a s) depth)).getD []))
            (.node c.1 ((c.2.map (treesBelow (found a w) depth)).getD [])) := by
          rintro ⟨n', task⟩ hc
          cases task with
          | none => exact .node .nil
          | some t' => exact ih n' t' (uses_of_found hfound' (hsub.subset hc))
        rw [hfound']
        refine .node ?_
        rw [Option.getD_some, Option.getD_some, List.sublistForall₂_map_left_iff,
          List.sublistForall₂_map_right_iff]
        exact List.sublistForall₂_iff.2 ⟨cs, List.forall₂_same.2 hkid, hsub⟩
      · rw [hfound']
        exact .bare ⟨_, huses, hlost⟩

theorem treeOfSeed_widens {a : IndexAccess} (ha : a.Steady) {s w : Settings} (h : s.Narrower w)
    (depth : Nat) (seed : FieldRef) :
    (∃ tree tree', treeOfSeed a (Expansion.found a s) depth seed = .ok tree ∧
        treeOfSeed a (Expansion.found a w) depth seed = .ok tree' ∧
        tree.Embeds (CallNode.LosesCaller a w) tree') ∨
      ∃ e, treeOfSeed a (Expansion.found a s) depth seed = .error e ∧
        treeOfSeed a (Expansion.found a w) depth seed = .error e := by
  obtain ⟨e, he⟩ | ⟨n, hn⟩ | ⟨n, t, hroot, ht⟩ := treeOfSeed_cases a seed
  · exact .inr ⟨e, he _ depth, he _ depth⟩
  · exact .inl ⟨_, _, hn _ depth, hn _ depth, .node .nil⟩
  · exact .inl ⟨_, _, ht _ depth, ht _ depth,
      Expansion.treesBelow_widens ha h depth n t (uses_rootChild w hroot)⟩

/-- Over a steady index the tree of smaller limits embeds into the tree of larger ones, where a node
is bare at most because one of its own callers within the larger limits cannot be looked up; the
builds end alike also if there is no tree. If this is so for no node of the first tree then nothing is
lost, and every node is found again. Where the index answers and nobody cancels there is a tree. -/
theorem buildHierarchy_widens (a : IndexAccess) (seed : FieldRef) (r : Run) :
    (a.Steady → r.Sound a → (buildHierarchy a seed).Uncancelled r →
      ∀ r', r.settings.Narrower r'.settings → r'.Sound a →
        (buildHierarchy a seed).Uncancelled r' →
          (∃ e, ((buildHierarchy a seed).runOn r).1 = .error e ∧
            ((buildHierarchy a seed).runOn r').1 = .error e) ∨
          ∃ tree tree', ((buildHierarchy a seed).runOn r).1 = .ok tree ∧
            ((buildHierarchy a seed).runOn r').1 = .ok tree' ∧
            tree.Embeds (CallNode.LosesCaller a r'.settings) tree' ∧
            ((∀ n ∈ CallTree.nodes tree, ¬ n.LosesCaller a r'.settings) →
              tree.Embeds (fun _ => False) tree' ∧
                (CallTree.nodes tree).Sublist (CallTree.nodes tree'))) ∧
    ((∀ n call, a.fails n call = none) → r.token.Quiet →
      ∃ tree r₁, (buildHierarchy a seed).runOn r = (.ok tree, r₁)) := by
  constructor
  · intro ha hr hcancel r' hnarrower hr' hcancel'
    rw [buildHierarchy_eq_treeOfSeed ha hr seed hcancel,
      buildHierarchy_eq_treeOfSeed ha hr' seed hcancel', hnarrower.maxDepth]
    obtain ⟨tree, tree', htree, htree', hembeds⟩ | herror :=
      treeOfSeed_widens ha hnarrower r.settings.maxDepth seed
    · refine .inr ⟨tree, tree', htree, htree', hembeds, fun hkeeps => ?_⟩
      have hwhole := CallTree.embeds_of_keeps hkeeps hembeds
      exact ⟨hwhole, CallTree.nodes_sublist hwhole⟩
    · exact .inl herror
  · intro hnone hquiet
    exact buildHierarchy_exists_ok_of_answers hnone hquiet seed

/-- If something holds of a result then there is one. -/
theorem Analysis.ok_of_toOption_map {α β : Type} {f : α → β} {res : Except Failure α} {b : β}
    (h : res.toOption.map f = some b) : ∃ v, res = .ok v ∧ f v = b := by
  cases res with
  | error e => cases h
  | ok v => exact ⟨v, rfl, Option.some.inj h⟩

/-! ### A field with two users -/

namespace Gauge

open Syntax

/-- The second method uses the field, too. -/
def file : SourceFile :=
  Counter.fileWith "void last() \x7b count--; \x7d \x7d\n" <|
    .node .methodDeclaration .none 52 76 [
      .node (.other "void_type") .type 52 56 [],
      .node .identifier .name 57 61 [],
      .node (.other "formal_parameters") .parameters 61 63 [],
      .node (.other "block") .body 64 76 [
        .node (.other "expression_statement") .none 66 74 [
          .node (.other "update_expression") .none 66 73 [
            .node .identifier .none 66 71 []]]]]

/-- The index answers all questions. -/
def access : IndexAccess where
  index := Index.ofFiles [file] []

/-- The second user cannot be looked up. -/
def failing : IndexAccess where
  index := Index.ofFiles [file] []
  fails _ call := if call = .method ⟨"Counter", "last", []⟩ then some (.broken "no answer") else none

/-- Only so many users are shown. -/
def upTo (limit : Nat) : Run where
  settings := { callerLimit := limit }

theorem upTo_narrower : (upTo 1).settings.Narrower (upTo 2).settings :=
  ⟨by decide, by decide, by decide, rfl⟩

end Gauge

set_option maxRecDepth 100000 in
/-- The tree with one user embeds into the one with two users, which has a node more. -/
theorem buildHierarchy_widens_gauge :
    (Gauge.upTo 1).settings.Narrower (Gauge.upTo 2).settings ∧ (∀ n, ¬ CallNode.LosesCaller Gauge.access (Gauge.upTo 2).settings n) ∧
      ∃ tree tree', ((buildHierarchy Gauge.access Counter.seed).runOn (Gauge.upTo 1)).1 = .ok tree ∧
        ((buildHierarchy Gauge.access Counter.seed).runOn (Gauge.upTo 2)).1 = .ok tree' ∧
        tree.Embeds (fun _ => False) tree' ∧ (CallTree.nodes tree).length = 4 ∧
        (CallTree.nodes tree').length = 5 := by
  have hcalm : Gauge.access.Calm := by rintro _ _ _ ⟨⟩
  have hcancel : ∀ limit, (buildHierarchy Gauge.access Counter.seed).Uncancelled (Gauge.upTo limit) :=
    fun _ => buildHierarchy_uncancelled hcalm Token.quiet_default Counter.seed
  have hkeeps : ∀ n, ¬ CallNode.LosesCaller Gauge.access (Gauge.upTo 2).settings n := by
    rintro n ⟨uses, -, p, -, e, ⟨⟩⟩
  have hsizes : ∀ limit ∈ [1, 2], ((hierarchyByRecursion Gauge.access Counter.seed).runOn
      (Gauge.upTo limit)).1.toOption.map (fun t => (CallTree.nodes t).length) =
        some (limit + 3) := by
    decide +kernel
  have hsize := hsizes 1 (by decide)
  have hsize' := hsizes 2 (by decide)
  rw [← buildHierarchy_eq] at hsize hsize'
  obtain ⟨e, he, -⟩ | ⟨tree, tree', htree, htree', -, hwhole⟩ :=
    (buildHierarchy_widens Gauge.access Counter.seed (Gauge.upTo 1)).1 (fun _ _ => rfl)
      (Run.sound_of_empty rfl) (hcancel 1) (Gauge.upTo 2) Gauge.upTo_narrower
      (Run.sound_of_empty rfl) (hcancel 2)
  · rw [he] at hsize
    cases hsize
  · rw [htree] at hsize
    rw [htree'] at hsize'
    exact ⟨Gauge.upTo_narrower, hkeeps, tree, tree', htree, htree', (hwhole (fun n _ => hkeeps n)).1,
      Option.some.inj hsize, Option.some.inj hsize'⟩

set_option maxRecDepth 100000 in
/-- If the second user cannot be looked up then a limit of two shows less than a limit of one. -/
theorem wider_limit_loses_users :
    (Gauge.upTo 1).settings.Narrower (Gauge.upTo 2).settings ∧ Gauge.failing.Steady ∧
      ∃ tree tree', ((buildHierarchy Gauge.failing Counter.seed).runOn (Gauge.upTo 1)).1 = .ok tree ∧
        ((buildHierarchy Gauge.failing Counter.seed).runOn (Gauge.upTo 2)).1 = .ok tree' ∧
        ¬ tree.Embeds (fun _ => False) tree' := by
  have hsize : ((hierarchyByRecursion Gauge.failing Counter.seed).runOn
      (Gauge.upTo 1)).1.toOption.map (fun t => (CallTree.nodes t).length) = some 4 := by
    decide +kernel
  have hsize' : ((hierarchyByRecursion Gauge.failing Counter.seed).runOn
      (Gauge.upTo 2)).1.toOption.map (fun t => (CallTree.nodes t).length) = some 1 := by
    decide +kernel
  rw [← buildHierarchy_eq] at hsize hsize'
  obtain ⟨tree, htree, hfour⟩ := Analysis.ok_of_toOption_map hsize
  obtain ⟨tree', htree', hone⟩ := Analysis.ok_of_toOption_map hsize'
  refine ⟨Gauge.upTo_narrower, fun _ _ => rfl, tree, tree', htree, htree', fun hembeds => ?_⟩
  -- four nodes do not fit into one
  have hle := (CallTree.nodes_sublist hembeds).length_le
  omega

end FieldTrace
