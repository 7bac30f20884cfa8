/-! # Stable sorting

Sorting by insertion, which keeps equal elements in their order, and the lexicographic order of
lists that the sort keys of the library use. -/

namespace FieldTrace

variable {α : Type}

/-- Put `a` before the first element that is strictly greater. -/
def insertSorted (lt : α → α → Bool) (a : α) : List α → List α
  | [] => [a]
  | b :: bs => if lt a b then a :: b :: bs else b :: insertSorted lt a bs

/-- The list in ascending order; equal elements keep their order. -/
def stableSort (lt : α → α → Bool) (as : List α) : List α :=
  as.foldl (fun sorted a => insertSorted lt a sorted) []

/-- Compare two lists by their first difference; a proper beginning comes first. -/
def lexLt [DecidableEq α] (lt : α → α → Bool) : List α → List α → Bool
  | [], [] => false
  | [], _ :: _ => true
  | _ :: _, [] => false
  | a :: as, b :: bs => if a = b then lexLt lt as bs else lt a b

/-- Order of texts by code point. -/
def textLt (s t : String) : Bool := lexLt (fun a b => decide (a.toNat < b.toNat)) s.toList t.toList

theorem insertSorted_perm (lt : α → α → Bool) (a : α) (as : List α) :
    (insertSorted lt a as).Perm (a :: as) := by
  induction as with
  | nil => exact List.Perm.refl _
  | cons b bs ih =>
    simp only [insertSorted]
    split
    · exact List.Perm.refl _
    · exact (List.Perm.cons b ih).trans (List.Perm.swap a b bs)

theorem stableSort_perm (lt : α → α → Bool) (as : List α) : (stableSort lt as).Perm as := by
  suffices h : ∀ acc : List α,
      (as.foldl (fun sorted a => insertSorted lt a sorted) acc).Perm (acc ++ as) by
    simpa [stableSort] using h []
  induction as with
  | nil => simp
  | cons a as ih =>
    intro acc
    refine (ih _).trans (((insertSorted_perm lt a acc).append_right as).trans ?_)
    simpa using List.perm_middle.symm

theorem mem_stableSort {lt : α → α → Bool} {as : List α} {a : α} :
    a ∈ stableSort lt as ↔ a ∈ as :=
  (stableSort_perm lt as).mem_iff

end FieldTrace
