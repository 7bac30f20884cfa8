/-! # Sums of counts -/

namespace FieldTrace

/-- The sum of a list of counts. -/
def total : List Nat → Nat
  | [] => 0
  | n :: ns => n + total ns

theorem total_append (as bs : List Nat) : total (as ++ bs) = total as + total bs := by
  induction as with
  | nil => simp [total]
  | cons n ns ih => simp only [List.cons_append, total, ih]; omega

end FieldTrace
