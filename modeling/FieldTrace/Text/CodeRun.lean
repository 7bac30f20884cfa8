/-! # Sets of code points given by runs

A character class outside ASCII is stored as a list of inclusive code-point ranges. -/

namespace FieldTrace.Text

/-- An inclusive range of code points. -/
abbrev CodeRun := Nat × Nat

/-- The code point of `c` lies in one of the runs. -/
def inRuns (runs : List CodeRun) (c : Char) : Bool :=
  runs.any (fun r => decide (r.1 ≤ c.toNat) && decide (c.toNat ≤ r.2))

theorem inRuns_iff {runs : List CodeRun} {c : Char} :
    inRuns runs c = true ↔ ∃ r ∈ runs, r.1 ≤ c.toNat ∧ c.toNat ≤ r.2 := by
  simp [inRuns]

end FieldTrace.Text
