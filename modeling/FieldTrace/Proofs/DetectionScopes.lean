import FieldTrace.Proofs.Crossings

/-! # Scopes of detection

Mapping sites are searched in the whole project, on one type or in one method body, and crossings in
the whole project or in one method body. A narrower search reads another list of calls and drops
repetitions on its own, and yet it finds exactly what the wider one finds there, in the same order:
each site keeps the method that contains its call, so that selecting by method commutes with reading
off sites, with dropping repetitions and with both ways of crossing. -/

namespace FieldTrace

/-- A site is declared by the method that contains its call. -/
theorem Detection.declaring_of_site? {c : CallSite} {site : MappingSite}
    (h : site? c = some site) : site.declaring = c.enclosing := by
  unfold site? at h
  split at h
  · unfold extract? at h
    split at h
    · obtain ⟨source, -, h⟩ := Option.bind_eq_some_iff.1 h
      obtain ⟨target, -, h⟩ := Option.bind_eq_some_iff.1 h
      cases h
      rfl
    · cases h
  · cases h

/-- Selecting before a partial function is selecting after it, if it keeps what is tested. -/
theorem filterMap_filter_of_kept {α β : Type} {f : α → Option β} {p : α → Bool} {q : β → Bool}
    (hkept : ∀ x y, f x = some y → q y = p x) (xs : List α) :
    (xs.filter p).filterMap f = (xs.filterMap f).filter q := by
  rw [List.filterMap_filter, List.filter_filterMap]
  apply List.filterMap_congr
  intro x _
  cases hx : f x with
  | none => simp
  | some y => simp [Option.filter_some, hkept x y hx]

namespace Index

variable {idx : Index} {m : MethodId}

/-! ### Sites -/

theorem nodup_sitesIn (within : Option MethodId) : (idx.sitesIn within).Nodup :=
  nodup_distinct _

/-- The sites in a method body are the sites of the project that the method declares. -/
theorem sitesIn_method :
    idx.sitesIn (some m) = (idx.sitesIn none).filter (fun s => s.declaring = m) := by
  have hcalls : (idx.callsIn m).filter (fun c => Detection.transformNames.contains c.name) =
      (idx.callsNamed Detection.transformNames).filter (fun c => c.enclosing = m) := by
    simp only [callsIn_eq_filter, callsNamed, List.filter_filter, Bool.and_comm]
  have hkept : ∀ c site, Detection.site? c = some site →
      decide (site.declaring = m) = decide (c.enclosing = m) := by
    intro c site h
    rw [Detection.declaring_of_site? h]
  simp only [sitesIn, hcalls]
  rw [filterMap_filter_of_kept hkept, distinct_filter]

theorem sitesFor_method (type : String) :
    idx.sitesFor type (some m) = (idx.sitesFor type none).filter (fun s => s.declaring = m) := by
  simp only [sitesFor, sitesIn_method, List.filter_filter, Bool.and_comm]

/-! ### Crossings -/

theorem site_of_directAt {type field : String} {site : MappingSite} {c : Crossing}
    (h : idx.directAt type field site = some c) : c.site = site := by
  obtain ⟨other, -, h⟩ := Option.bind_eq_some_iff.1 h
  obtain ⟨found, -, rfl⟩ := Option.map_eq_some_iff.1 h
  rfl

theorem site_of_nestedAt {type : String} {holder : FieldDecl} {site : MappingSite} {c : Crossing}
    (h : idx.nestedAt type holder site = some c) : c.site = site := by
  obtain ⟨other, -, h⟩ := Option.bind_eq_some_iff.1 h
  obtain ⟨found, -, rfl⟩ := Option.map_eq_some_iff.1 h
  rfl

/-- Crossings found site by site in a method are those found in the project at its sites. -/
theorem filterMap_sitesFor_method {found : MappingSite → Option Crossing}
    (hsite : ∀ site c, found site = some c → c.site = site) (type : String) :
    (idx.sitesFor type (some m)).filterMap found =
      ((idx.sitesFor type none).filterMap found).filter (fun c => c.site.declaring = m) := by
  rw [sitesFor_method]
  apply filterMap_filter_of_kept
  intro site c h
  rw [hsite site c h]

theorem directCrossings_method (type field : String) :
    idx.directCrossings type field (some m) =
      (idx.directCrossings type field none).filter (fun c => c.site.declaring = m) := by
  unfold directCrossings
  split
  · exact filterMap_sitesFor_method (fun _ _ => site_of_directAt) type
  · rfl

/-- The holders of a type are passed one by one, each with its own sites. -/
theorem nestedCrossings_method (type : String) :
    idx.nestedCrossings type (some m) =
      (idx.nestedCrossings type none).filter (fun c => c.site.declaring = m) := by
  unfold nestedCrossings
  rw [List.filter_flatMap]
  congr 1
  funext holder
  exact filterMap_sitesFor_method (fun _ _ => site_of_nestedAt) holder.declaringType

theorem crossings_method (type field : String) :
    idx.crossings type field (some m) =
      (idx.crossings type field none).filter (fun c => c.site.declaring = m) := by
  rw [crossings, directCrossings_method, nestedCrossings_method, ← List.filter_append, ← crossings]

end Index

open Analysis (Answers)

/-- The scopes of detection agree. The sites of a type and of a method are the sites of the project
with that type on one side and with that declaring method, no scope lists a site twice, and the
crossings within a method are the crossings of the project at its sites; all in the same order,
whatever the run remembers. -/
theorem detection_scopes_agree (a : IndexAccess) (s : Settings) (type field : String)
    (m : MethodId) :
    (∃ project ofType inMethod : List MappingSite,
      Answers a.faultless s (Detection.inProject a.faultless) project ∧
      Answers a.faultless s (Detection.ofType a.faultless type) ofType ∧
      Answers a.faultless s (Detection.inMethod a.faultless m) inMethod ∧
      ofType = project.filter (fun site => site.source = type ∨ site.target = type) ∧
      inMethod = project.filter (fun site => site.declaring = m) ∧
      project.Nodup ∧ ofType.Nodup ∧ inMethod.Nodup) ∧
    ∃ everywhere within : List Crossing,
      Answers a.faultless s (Crossings.of a.faultless type field none) everywhere ∧
      Answers a.faultless s (Crossings.of a.faultless type field (some m)) within ∧
      within = everywhere.filter (fun c => c.site.declaring = m) := by
  have hinvolves : a.index.sitesFor type none = (a.index.sitesIn none).filter
      (fun site => site.source = type ∨ site.target = type) := by
    apply List.filter_congr
    intro site _
    simp only [MappingSite.involves, Bool.decide_or, eq_comm]
  refine ⟨⟨_, _, _, Detection.inProject_answers, Detection.ofType_answers type,
    Detection.inMethod_answers m, hinvolves, Index.sitesIn_method, Index.nodup_sitesIn none, ?_,
    Index.nodup_sitesIn (some m)⟩, ?_⟩
  · exact (Index.nodup_sitesIn none).filter _
  · exact ⟨_, _, Crossings.of_answers type field none, Crossings.of_answers type field (some m),
      Index.crossings_method type field⟩

end FieldTrace
