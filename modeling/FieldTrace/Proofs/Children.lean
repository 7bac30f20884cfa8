import FieldTrace.Proofs.Crossings
import FieldTrace.Proofs.Declarations

/-! # Reading children off the index

The callers of a node can be read off the index: the direct users of the field for the root, the
calls of an accessor, the uses of a method and of those that dispatch may exchange it with.
Without faults and cancellation the children of a node are read off the index
(`Index.childrenOf`); a node whose field is gone has none. Over a failing index an expansion finds
the same, or less. `Task.Gives` lists the ways in which a child comes about. -/

namespace FieldTrace

/-! ### Callers in terms of the index -/

namespace Index

variable (idx : Index) (s : Settings)

/-- The uses of a method as the settings have them searched. -/
def usesOf (m : MethodId) : List Reference :=
  match CallerSearch.forSettings s with
  | .callGraph => idx.callersOf m
  | .referenceSearch => idx.methodReferences m

/-- A method with its first implementations, if it can have any, and the methods it overrides. -/
def familyOf (m : MethodId) : List MethodId :=
  m :: ((if (idx.method m).any MethodDecl.isAbstract ||
      (idx.typeDecl m.owner).any (fun d => d.kind = .interfaceType) then
    (idx.types.implementationsOf m).take s.implementationLimit else []) ++
    if (idx.method m).any MethodDecl.isConstructor then [] else idx.types.superMethodsOf m)

/-- The uses of a family of methods from outside it. -/
def usesThroughDispatch (m : MethodId) : List Reference :=
  (distinct (idx.familyOf s m)).flatMap (fun x => (idx.usesOf s x).filter
    (fun r => !r.enclosing.any (fun e => (idx.familyOf s m).contains e)))

/-- The calls of an accessor on its owner, then the further uses of the method that declares it. -/
def accessorUses (x : Accessor) : List Reference :=
  match x.declared with
  | none => idx.memberCalls x.owner x.name
  | some m => (idx.usesOf s m).foldl addNew (idx.memberCalls x.owner x.name)

/-- The uses of a field in methods that do not have the name of one of its accessors. -/
def directUses (f : FieldRef) : List Reference :=
  match idx.types.fieldOn f.declaringType f.name with
  | none => []
  | some field => (idx.fieldReferences field.ref).filter (fun r => r.enclosing.any (fun m =>
      !([f.declaringType, field.declaringType].contains m.owner &&
        [Accessor.getterName field f.name, Accessor.setterName f.name].contains m.name)))

end Index

/-- The uses that the callers of a node are taken from. -/
def Task.uses (idx : Index) (s : Settings) (t : Task) : List Reference :=
  match t.step with
  | .root => idx.directUses t.context
  | .mapping _ _ => []
  | .accessor x => idx.accessorUses s x
  | .method m => idx.usesThroughDispatch s m

/-! ### Children in terms of the index -/

namespace Index

variable (idx : Index) (s : Settings)

/-- The node of a method at a place. -/
def methodNode (m : MethodId) (location : Option Location) : CallNode where
  owner := m.owner
  name := m.name
  params := m.params
  location := location
  category := CategoryRule.classify
    (CategoryRule.withEntryPatterns CategoryRule.standard s.extraEntryPatterns)
    (match idx.method m with
      | some d => .ofDecl d
      | none => .ofId m)
  label := m.label

@[simp] theorem key_methodNode (m : MethodId) (location : Option Location) :
    (idx.methodNode s m location).key = m := rfl

/-- The child for a method at a place, unless its key is on the path. -/
def methodChild? (t : Task) (m : MethodId) (location : Option Location) : Option Child :=
  if t.path.contains (idx.methodNode s m location).key then none
  else some (t.methodChild (idx.methodNode s m location) m)

/-- The children for some uses, one for each caller and line. -/
def callerChildren (t : Task) (uses : List Reference) : List Child :=
  (CallerGroups.collect s.callerLimit s.callSiteLimit uses).filterMap
    (fun p => idx.methodChild? s t p.1 (some p.2))

/-- The getter and the setter of a field, if it is declared. -/
def accessors (f : FieldRef) : Option (List Accessor) :=
  (idx.types.fieldOn f.declaringType f.name).map (fun field => [
    .make f.declaringType (Accessor.getterName field f.name) .accessorGet field []
      (idx.types.findMethod f.declaringType (Accessor.getterName field f.name) (some 0)),
    .make f.declaringType (Accessor.setterName f.name) .accessorSet field [field.typeName]
      (idx.types.findMethod f.declaringType (Accessor.setterName f.name) (some 1))])

/-- The children for some crossings. -/
def mappingChildren (t : Task) (showDeclaring : Bool) (cs : List Crossing) : List Child :=
  (limitCrossings s.mappingSiteLimit cs).filterMap (t.mappingChild? showDeclaring)

/-- The children of the root, if its field is declared: crossings, accessors, and direct users. -/
def rootChildren (t : Task) : Option (List Child) :=
  (idx.accessors t.context).map (fun xs =>
    mappingChildren s t true (idx.crossings t.context.declaringType t.context.name none) ++
      xs.filterMap (t.accessorChild? t.context) ++
      idx.callerChildren s t (idx.directUses t.context))

/-- The child for the method that declares a site. -/
def declaringChildren (t : Task) (c : Crossing) : List Child :=
  (idx.methodChild? s t c.site.declaring
    ((idx.method c.site.declaring).map MethodDecl.location)).toList

/-- The children of a mapping node, if the field on the far side is declared. -/
def farChildren (t : Task) (c : Crossing) (showDeclaring : Bool) : Option (List Child) :=
  (idx.accessors c.continueAt).map (fun xs =>
    (if showDeclaring then idx.declaringChildren s t c else []) ++
      xs.filterMap (t.accessorChild? ⟨c.nextType, t.context.name⟩))

/-- The children of a method: callers, and the crossings inside that were not passed yet. -/
def methodChildren (t : Task) (m : MethodId) : List Child :=
  idx.callerChildren s t (idx.usesThroughDispatch s m) ++
    mappingChildren s t false
      ((idx.crossings t.context.declaringType t.context.name (some m)).filter
        (fun c => !t.spliced.contains c.site))

/-- The children of a node; none if the field whose accessors it leads to is not declared. -/
def childrenOf (t : Task) : Option (List Child) :=
  match t.step with
  | .root => idx.rootChildren s t
  | .mapping c showDeclaring => idx.farChildren s t c showDeclaring
  | .accessor x => some (idx.callerChildren s t (idx.accessorUses s x))
  | .method m => some (idx.methodChildren s t m)

end Index

/-! ### What expansions answer -/

section expansions

open Analysis (Answers)

variable {a : IndexAccess} {s : Settings}

theorem Callers.of_answers (m : MethodId) :
    Answers a.faultless s (Callers.of a.faultless m) (a.index.usesOf s m) := by
  refine .cached (k := .callers m) (.settings (fun r hr => ?_))
  rw [hr]
  unfold Index.usesOf
  cases CallerSearch.forSettings s with
  | callGraph => exact .ask (.callersOf m) _
  | referenceSearch => exact .ask (.methodReferences m) _

theorem Callers.implementations_answers (m : MethodId) :
    Answers a.faultless s (Callers.implementations a.faultless m)
      ((a.index.types.implementationsOf m).take s.implementationLimit) := by
  refine .cached (k := .implementations m) (.bind (.ask _ _) (.settings (fun r hr => ?_)))
  rw [hr]
  exact .pure _

theorem Callers.family_answers (m : MethodId) :
    Answers a.faultless s (Callers.family a.faultless m) (a.index.familyOf s m) := by
  unfold Callers.family Index.familyOf
  refine .bind (.ask _ _) (.bind (.ask _ _) ?_)
  dsimp only [IndexAccess.faultless_index]
  -- the overridden methods are put after whatever was found below
  have habove : ∀ below : List MethodId, Answers a.faultless s
      (if (a.index.method m).any MethodDecl.isConstructor then
        pure [] >>= fun above => pure (m :: (below ++ above))
      else a.faultless.superMethodsOf m >>= fun above => pure (m :: (below ++ above)))
      (m :: (below ++ if (a.index.method m).any MethodDecl.isConstructor then []
        else a.index.types.superMethodsOf m)) := by
    intro below
    split
    · exact .pure _
    · exact .bind (.ask _ _) (.pure _)
  by_cases hbelow : ((a.index.method m).any MethodDecl.isAbstract ||
      (a.index.typeDecl m.owner).any (fun d => d.kind = .interfaceType)) = true
  · simp only [hbelow, if_true]
    exact (Callers.implementations_answers m).bind (habove _)
  · simp only [hbelow]
    exact habove []

theorem Callers.ofAll_answers (members ms : List MethodId) :
    Answers a.faultless s (Callers.ofAll a.faultless members ms) (ms.flatMap (fun x =>
      (a.index.usesOf s x).filter (fun r => !r.enclosing.any (fun e => members.contains e)))) := by
  induction ms with
  | nil => exact .pure _
  | cons m ms ih => exact .bind .checkpoint ((Callers.of_answers m).bind (ih.bind (.pure _)))

theorem Callers.throughDispatch_answers (m : MethodId) :
    Answers a.faultless s (Callers.throughDispatch a.faultless m)
      (a.index.usesThroughDispatch s m) :=
  (Callers.family_answers m).bind (Callers.ofAll_answers _ _)

theorem Accessor.references_answers (x : Accessor) :
    Answers a.faultless s (x.references a.faultless) (a.index.accessorUses s x) := by
  unfold Accessor.references Index.accessorUses
  refine .bind .checkpoint (.bind (.cached (k := .memberCalls x.owner x.name)
    (.ask (.memberCalls x.owner x.name) _)) ?_)
  cases x.declared with
  | none => exact .pure _
  | some m => exact (Callers.of_answers m).bind (.pure _)

theorem Accessor.of_answers {f : FieldRef} {xs : List Accessor}
    (h : a.index.accessors f = some xs) :
    Answers a.faultless s (Accessor.of a.faultless f) xs := by
  obtain ⟨field, hfield, rfl⟩ := Option.map_eq_some_iff.1 h
  refine .bind (.ask _ _) ?_
  dsimp only [IndexAccess.faultless_index]
  rw [hfield]
  exact .bind (.ask _ _) (.bind (.ask _ _) (.pure _))

namespace Expansion

theorem methodNode_answers (m : MethodId) (location : Option Location) :
    Answers a.faultless s (methodNode a.faultless m location)
      (a.index.methodNode s m location) := by
  refine .bind (.ask _ _) (.settings (fun r hr => ?_))
  rw [hr]
  exact .pure _

/-- Over a steady index the node of a method can be had whenever it is asked for, or never. -/
theorem runOn_methodNode (ha : a.Steady) (m : MethodId) (location : Option Location) (r : Run) :
    (methodNode a m location).runOn r =
      (match a.fails 0 (.method m) with
        | some e => .error e
        | none => .ok (a.index.methodNode r.settings m location),
        { r with indexCalls := r.indexCalls + 1 }) := by
  rw [methodNode, Analysis.runOn_bind, IndexAccess.method, ha.runOn_ask]
  cases a.fails 0 (.method m) with
  | some e => rfl
  | none => rfl

theorem callersAt_answers (t : Task) (pairs : List (MethodId × Location)) :
    Answers a.faultless s (callersAt a.faultless t pairs)
      (pairs.filterMap (fun p => a.index.methodChild? s t p.1 (some p.2))) := by
  induction pairs with
  | nil => exact .pure _
  | cons p pairs ih =>
    obtain ⟨m, l⟩ := p
    refine (methodNode_answers m (some l)).bind (ih.bind ?_)
    rw [List.filterMap_cons, Index.methodChild?]
    split <;> exact .pure _

theorem callerChildren_answers (t : Task) (refs : List Reference) :
    Answers a.faultless s (callerChildren a.faultless t refs)
      (a.index.callerChildren s t refs) := by
  refine .settings (fun r hr => ?_)
  rw [hr]
  exact callersAt_answers t _

theorem fieldUsers_answers (f : FieldRef) :
    Answers a.faultless s (fieldUsers a.faultless f) (a.index.fieldReferences f) :=
  .bind .checkpoint (.cached (k := .references f) (.ask (.fieldReferences f) _))

theorem root_answers {t : Task} {cs : List Child} (h : a.index.rootChildren s t = some cs) :
    Answers a.faultless s (root a.faultless t) cs := by
  obtain ⟨xs, hxs, rfl⟩ := Option.map_eq_some_iff.1 h
  obtain ⟨field, hfield, rfl⟩ := Option.map_eq_some_iff.1 hxs
  have huses : a.index.directUses t.context = (a.index.fieldReferences field.ref).filter (fun r =>
      r.enclosing.any (fun m => !([t.context.declaringType, field.declaringType].contains m.owner &&
        [Accessor.getterName field t.context.name, Accessor.setterName t.context.name].contains
          m.name))) := by
    rw [Index.directUses, hfield]
  refine (Crossings.of_answers _ _ none).bind (.settings (fun r hr => ?_))
  refine (Accessor.of_answers hxs).bind (.bind (.ask _ _) ?_)
  dsimp only [IndexAccess.faultless_index]
  rw [hr, hfield, huses]
  exact (fieldUsers_answers field.ref).attempt.bind ((callerChildren_answers t _).bind (.pure _))

theorem mapping_answers {t : Task} {c : Crossing} {showDeclaring : Bool} {cs : List Child}
    (h : a.index.farChildren s t c showDeclaring = some cs) :
    Answers a.faultless s (mapping a.faultless t c showDeclaring) cs := by
  obtain ⟨xs, hxs, rfl⟩ := Option.map_eq_some_iff.1 h
  have hrest : ∀ declaring : List Child, Answers a.faultless s
      (Accessor.of a.faultless c.continueAt >>= fun accessors => pure (declaring ++
        accessors.filterMap (t.accessorChild? ⟨c.nextType, t.context.name⟩)))
      (declaring ++ xs.filterMap (t.accessorChild? ⟨c.nextType, t.context.name⟩)) :=
    fun declaring => (Accessor.of_answers hxs).bind (.pure _)
  unfold mapping
  cases showDeclaring with
  | false => exact hrest []
  | true =>
    refine .bind (.ask _ _) ((methodNode_answers _ _).bind (.bind (.pure _) ?_))
    have hdeclaring : a.index.declaringChildren s t c =
        if t.path.contains (a.index.methodNode s c.site.declaring
          ((a.index.method c.site.declaring).map MethodDecl.location)).key then []
        else [t.methodChild (a.index.methodNode s c.site.declaring
          ((a.index.method c.site.declaring).map MethodDecl.location)) c.site.declaring] := by
      unfold Index.declaringChildren Index.methodChild?
      split <;> rfl
    rw [if_pos rfl, hdeclaring]
    exact hrest _

theorem accessor_answers (t : Task) (x : Accessor) :
    Answers a.faultless s (accessor a.faultless t x)
      (a.index.callerChildren s t (a.index.accessorUses s x)) :=
  (Accessor.references_answers x).bind (callerChildren_answers t _)

theorem method_answers (t : Task) (m : MethodId) :
    Answers a.faultless s (method a.faultless t m) (a.index.methodChildren s t m) := by
  refine (Callers.throughDispatch_answers m).bind ((callerChildren_answers t _).bind ?_)
  refine (Crossings.of_answers _ _ _).bind (.settings (fun r hr => ?_))
  rw [hr]
  exact .pure _

/-- Without faults a node that can be expanded has the children of the index. -/
theorem children_answers {t : Task} {cs : List Child} (h : a.index.childrenOf s t = some cs) :
    Answers a.faultless s (children a.faultless t) cs := by
  unfold Index.childrenOf at h
  unfold children
  cases hstep : t.step with
  | root =>
    rw [hstep] at h
    exact root_answers h
  | mapping c showDeclaring =>
    rw [hstep] at h
    exact mapping_answers h
  | accessor x =>
    rw [hstep] at h
    cases h
    exact accessor_answers t x
  | method m =>
    rw [hstep] at h
    cases h
    exact method_answers t m

/-- A node that can be expanded leads to the accessors of a declared field, if to any. -/
theorem accessors_yields (f : FieldRef) (r : Run) :
    Analysis.Yields r (Accessor.of a f) (fun _ _ => ∃ xs, a.index.accessors f = some xs) := by
  refine .bind (.ask a _ _) ?_
  rintro found _ ⟨hfound, -⟩
  cases found with
  | none => rintro _ _ ⟨⟩
  | some field =>
    refine Analysis.Yields.any.mono (fun _ _ _ => ?_)
    rw [Index.accessors, ← hfound]
    exact ⟨_, rfl⟩

theorem children_yields (t : Task) (r : Run) :
    Analysis.Yields r (children a t) (fun _ _ => ∃ cs, a.index.childrenOf s t = some cs) := by
  unfold children Index.childrenOf
  cases t.step with
  | root =>
    refine .bind .any (fun _ _ _ => .bind .any (fun _ _ _ => (accessors_yields _ _).bind ?_))
    rintro xs r' ⟨ys, hys⟩
    exact Analysis.Yields.any.mono (fun _ _ _ => ⟨_, by rw [Index.rootChildren, hys]; rfl⟩)
  | mapping c showDeclaring =>
    have hfar : ∀ (k : List Accessor → Analysis (List Child)) (r : Run),
        Analysis.Yields r (Accessor.of a c.continueAt >>= k)
          (fun _ _ => ∃ cs, a.index.farChildren s t c showDeclaring = some cs) := by
      intro k r
      refine (accessors_yields _ r).bind ?_
      rintro xs r' ⟨ys, hys⟩
      exact Analysis.Yields.any.mono (fun _ _ _ => ⟨_, by rw [Index.farChildren, hys]; rfl⟩)
    cases showDeclaring with
    | false => exact hfar _ r
    | true => exact .bind .any (fun _ _ _ => .bind .any (fun _ r' _ => hfar _ r'))
  | accessor x => exact Analysis.Yields.any.mono (fun _ _ _ => ⟨_, rfl⟩)
  | method m => exact Analysis.Yields.any.mono (fun _ _ _ => ⟨_, rfl⟩)

/-- Without faults an expansion finds the children of the index. -/
theorem childrenOf_of_outcome {t : Task} {cs : List Child}
    (h : (children a.faultless t).outcome s = .ok cs) : a.index.childrenOf s t = some cs := by
  obtain ⟨cs', hcs'⟩ := children_yields (a := a.faultless) (s := s) t { settings := s } cs _
    (Prod.ext h rfl)
  have hout : (children a.faultless t).outcome s = .ok cs' := (children_answers hcs').outcome_eq
  rw [h] at hout
  rw [Except.ok.inj hout]
  exact hcs'

/-- Whatever the index fails at, an expansion finds only children of the index. -/
theorem children_subset {r r' : Run} {t : Task} {cs : List Child} (hr : r.Faithful a s)
    (hrun : (children a t).runOn r = (.ok cs, r')) :
    ∃ full, a.index.childrenOf s t = some full ∧ cs ⊆ full := by
  obtain hwhole | ⟨-, users, hwhole, -, -⟩ := children_cases hr hrun
  · exact ⟨cs, childrenOf_of_outcome hwhole, fun _ hc => hc⟩
  · exact ⟨cs ++ users, childrenOf_of_outcome hwhole, List.subset_append_left _ _⟩

end Expansion

end expansions

/-! ### How children come about -/

/-- The ways in which a node comes to have a child: a caller that the limits let through, the method
that declares a site, an accessor of the field itself or of the field on the far side of a site, a
crossing in the project or in the method. -/
inductive Task.Gives (idx : Index) (s : Settings) (t : Task) : Child → Prop where
  | caller {m : MethodId} {l : Location}
    (h : (m, l) ∈ CallerGroups.collect s.callerLimit s.callSiteLimit (t.uses idx s)) :
    Gives idx s t (t.methodChild (idx.methodNode s m (some l)) m)
  | declaring {c : Crossing} (hstep : t.step = .mapping c true) :
    Gives idx s t (t.methodChild (idx.methodNode s c.site.declaring
      ((idx.method c.site.declaring).map MethodDecl.location)) c.site.declaring)
  | ownAccessor {x : Accessor} {xs : List Accessor} {child : Child} (hstep : t.step = .root)
    (hxs : idx.accessors t.context = some xs) (hx : x ∈ xs)
    (hchild : t.accessorChild? t.context x = some child) : Gives idx s t child
  | farAccessor {c : Crossing} {showDeclaring : Bool} {x : Accessor} {xs : List Accessor}
    {child : Child} (hstep : t.step = .mapping c showDeclaring)
    (hxs : idx.accessors c.continueAt = some xs) (hx : x ∈ xs)
    (hchild : t.accessorChild? ⟨c.nextType, t.context.name⟩ x = some child) : Gives idx s t child
  | mapping {within : Option MethodId} {c : Crossing} {child : Child}
    (hwithin : t.step = .root ∧ within = none ∨ ∃ m, t.step = .method m ∧ within = some m)
    (hc : c ∈ idx.crossings t.context.declaringType t.context.name within)
    (hchild : t.mappingChild? (decide (t.step = .root)) c = some child) : Gives idx s t child

/-- What the limit leaves of some crossings is among them. -/
theorem limitCrossings_subset (limit : Nat) (cs : List Crossing) :
    limitCrossings limit cs ⊆ cs := by
  intro c hc
  unfold limitCrossings at hc
  refine List.foldlRecOn (motive := fun split : Table (String × String) Crossing × List Crossing =>
    ∀ c ∈ split.1.values ++ split.2, c ∈ cs) cs _ ?_ ?_ c (List.mem_of_mem_take hc)
  · rintro c ⟨⟩
  · intro split hsplit x hx c hc
    dsimp only at hc
    split at hc
    · rw [← List.append_assoc, List.mem_append, List.mem_singleton] at hc
      exact hc.elim (hsplit c) (fun heq => heq ▸ hx)
    · obtain hc | hc := List.mem_append.1 hc
      · obtain hc | rfl := Table.mem_values_insert hc
        · exact hsplit c (List.mem_append_left _ hc)
        · exact hx
      · exact hsplit c (List.mem_append_right _ hc)

namespace Index

variable {idx : Index} {s : Settings} {t : Task} {child : Child}

theorem methodChild?_eq_some {m : MethodId} {l : Option Location}
    (h : idx.methodChild? s t m l = some child) :
    child = t.methodChild (idx.methodNode s m l) m := by
  unfold methodChild? at h
  split at h
  · cases h
  · exact (Option.some.inj h).symm

theorem gives_of_mem_callerChildren (h : child ∈ idx.callerChildren s t (t.uses idx s)) :
    t.Gives idx s child := by
  obtain ⟨⟨m, l⟩, hp, hchild⟩ := List.mem_filterMap.1 h
  rw [methodChild?_eq_some hchild]
  exact .caller hp

theorem gives_of_mem_declaringChildren {c : Crossing} (hstep : t.step = .mapping c true)
    (h : child ∈ idx.declaringChildren s t c) : t.Gives idx s child := by
  rw [methodChild?_eq_some (Option.mem_toList.1 h)]
  exact .declaring hstep

theorem gives_of_mem_mappingChildren {within : Option MethodId} {cs : List Crossing}
    (hwithin : t.step = .root ∧ within = none ∨ ∃ m, t.step = .method m ∧ within = some m)
    (hcs : cs ⊆ idx.crossings t.context.declaringType t.context.name within)
    (h : child ∈ mappingChildren s t (decide (t.step = .root)) cs) : t.Gives idx s child := by
  obtain ⟨c, hc, hchild⟩ := List.mem_filterMap.1 h
  exact .mapping hwithin (hcs (limitCrossings_subset _ _ hc)) hchild

/-- Each child of the index comes about in one of these ways. -/
theorem gives_of_mem_childrenOf {cs : List Child} (h : idx.childrenOf s t = some cs)
    (hchild : child ∈ cs) : t.Gives idx s child := by
  unfold childrenOf at h
  cases hstep : t.step with
  | root =>
    have huses : t.uses idx s = idx.directUses t.context := by rw [Task.uses, hstep]
    rw [hstep] at h
    obtain ⟨xs, hxs, rfl⟩ := Option.map_eq_some_iff.1 h
    obtain hchild | hchild := List.mem_append.1 hchild
    · obtain hchild | hchild := List.mem_append.1 hchild
      · have hshow : decide (t.step = .root) = true := by simp [hstep]
        rw [← hshow] at hchild
        exact gives_of_mem_mappingChildren (.inl ⟨hstep, rfl⟩) (fun _ hc => hc) hchild
      · obtain ⟨x, hx, hchild⟩ := List.mem_filterMap.1 hchild
        exact .ownAccessor hstep hxs hx hchild
    · exact gives_of_mem_callerChildren (huses ▸ hchild)
  | mapping c showDeclaring =>
    rw [hstep] at h
    obtain ⟨xs, hxs, rfl⟩ := Option.map_eq_some_iff.1 h
    obtain hchild | hchild := List.mem_append.1 hchild
    · cases showDeclaring with
      | false => cases hchild
      | true => exact gives_of_mem_declaringChildren hstep hchild
    · obtain ⟨x, hx, hchild⟩ := List.mem_filterMap.1 hchild
      exact .farAccessor hstep hxs hx hchild
  | accessor x =>
    have huses : t.uses idx s = idx.accessorUses s x := by rw [Task.uses, hstep]
    rw [hstep] at h
    cases h
    exact gives_of_mem_callerChildren (huses ▸ hchild)
  | method m =>
    have huses : t.uses idx s = idx.usesThroughDispatch s m := by rw [Task.uses, hstep]
    rw [hstep] at h
    cases h
    obtain hchild | hchild := List.mem_append.1 hchild
    · exact gives_of_mem_callerChildren (huses ▸ hchild)
    · have hshow : decide (t.step = .root) = false := by simp [hstep]
      rw [← hshow] at hchild
      exact gives_of_mem_mappingChildren (.inr ⟨m, hstep, rfl⟩) (List.filter_subset_self _) hchild

end Index

/-- In a growth, whatever the index fails at, each child comes about in one of these ways. -/
theorem Growth.Grown.gives {a : IndexAccess} {s : Settings} {remaining : Nat} {x kid : Growth}
    (h : x.Grown a s remaining) (hkid : kid ∈ x.kids) :
    ∃ n t kids, x = .grown n t kids ∧ t.Gives a.index s kid.child := by
  cases h with
  | terminal | last | failed => cases hkid
  | @grown remaining t r r' kids n hr hrun hkids =>
    obtain ⟨full, hfull, hsub⟩ := Expansion.children_subset hr hrun
    exact ⟨n, t, kids, rfl, Index.gives_of_mem_childrenOf hfull
      (hsub (List.mem_map_of_mem hkid))⟩

end FieldTrace
