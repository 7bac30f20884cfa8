/-! # Limits of an analysis -/

namespace FieldTrace

/-- The limits and options of one analysis. -/
structure Settings where
  maxDepth : Nat := 12
  callerLimit : Nat := 300
  callSiteLimit : Nat := 100
  mappingSiteLimit : Nat := 50
  implementationLimit : Nat := 50
  preferNativeHierarchy : Bool := true
  extraEntryPatterns : List String := []
  deriving DecidableEq, Repr, Inhabited

/-- Limits as they are asked for, which may be out of range. -/
structure SettingsRequest where
  maxDepth : Int := 12
  callerLimit : Int := 300
  callSiteLimit : Int := 100
  mappingSiteLimit : Int := 50
  implementationLimit : Int := 50
  preferNativeHierarchy : Bool := true
  extraEntryPatterns : List String := []
  deriving DecidableEq, Repr, Inhabited

/-- A limit below one. -/
structure LimitError where
  name : String
  value : Int
  deriving DecidableEq, Repr

/-- What is wrong with the limit. -/
def LimitError.message (e : LimitError) : String :=
  e.name ++ " must be >= 1, got " ++ toString e.value

namespace SettingsRequest

variable (r : SettingsRequest)

/-- The limits by name, in the order in which they are checked. -/
def limits : List LimitError := [
  ⟨"max_depth", r.maxDepth⟩, ⟨"caller_limit", r.callerLimit⟩,
  ⟨"call_site_limit", r.callSiteLimit⟩, ⟨"mapping_site_limit", r.mappingSiteLimit⟩,
  ⟨"implementation_limit", r.implementationLimit⟩]

/-- The settings, or the first limit that is out of range. -/
def check : Except LimitError Settings :=
  match r.limits.find? (fun l => decide (l.value < 1)) with
  | some l => .error l
  | none => .ok {
    maxDepth := r.maxDepth.toNat
    callerLimit := r.callerLimit.toNat
    callSiteLimit := r.callSiteLimit.toNat
    mappingSiteLimit := r.mappingSiteLimit.toNat
    implementationLimit := r.implementationLimit.toNat
    preferNativeHierarchy := r.preferNativeHierarchy
    extraEntryPatterns := r.extraEntryPatterns }

end SettingsRequest

end FieldTrace
