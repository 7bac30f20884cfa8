import FieldTrace.Text.CodeRun

/-! # Blank characters and trimming

Blank means a Unicode white-space character or one of the four information separators
`U+001C` to `U+001F`. -/

namespace FieldTrace.Text

/-- The runs of blank characters. -/
def blankRuns : List CodeRun := [
  (9, 13), (28, 32), (133, 133), (160, 160), (5760, 5760), (8192, 8202), (8232, 8233),
  (8239, 8239), (8287, 8287), (12288, 12288)]

/-- Is the character blank? -/
def isBlank (c : Char) : Bool := inRuns blankRuns c

/-- Drop the blanks at both ends. -/
def trimChars (cs : List Char) : List Char :=
  ((cs.dropWhile isBlank).reverse.dropWhile isBlank).reverse

/-- Drop the blanks at both ends of a text. -/
def trim (s : String) : String := String.ofList (trimChars s.toList)

theorem length_dropWhile_le (p : Char → Bool) (cs : List Char) :
    (cs.dropWhile p).length ≤ cs.length := by
  induction cs with
  | nil => simp
  | cons c cs ih =>
    simp only [List.dropWhile_cons]
    split <;> simp only [List.length_cons] <;> omega

theorem length_trimChars_le (cs : List Char) : (trimChars cs).length ≤ cs.length := by
  unfold trimChars
  have h := length_dropWhile_le isBlank (cs.dropWhile isBlank).reverse
  have h' := length_dropWhile_le isBlank cs
  simp only [List.length_reverse] at h ⊢
  omega

end FieldTrace.Text
