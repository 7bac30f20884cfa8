import FieldTrace.Terminal.CellWidth
import FieldTrace.Total

/-! # Widths of texts

What is shown as one sign may be written with several characters: marks without a width follow the
character that they belong to, a joiner ties the next character to the sign before it, and a
selector asks for the emoji that a character stands for, which may be wider than the character.
`cells` is the width of a text, and `graphemes` are its signs, between which it can be cut. -/

namespace FieldTrace.Terminal

/-- The character that joins the next one to the sign before it. -/
def joiner : Char := Char.ofNat 0x200D

/-- The character that asks for the emoji. -/
def selector : Char := Char.ofNat 0xFE0F

/-- The cells that a selector adds to the character before it. -/
def widening : Option Char → Nat
  | some c => if Text.inRuns emojiRuns c then 1 else 0
  | none => 0

/-- The number of cells that a text takes after a character that a selector can widen. -/
def cellsAfter (base : Option Char) : List Char → Nat
  | [] => 0
  | c :: cs =>
    if c = joiner then
      match cs with
      | [] => 0
      | _ :: rest => cellsAfter base rest
    else if c = selector then widening base + cellsAfter none cs
    else if cellWidth c = 0 then cellsAfter base cs
    else cellWidth c + cellsAfter (some c) cs

/-- The number of cells that a text takes. -/
def cells (cs : List Char) : Nat := cellsAfter none cs

/-! ### Signs -/

/-- A sign: its characters and the cells it takes. -/
structure Grapheme where
  chars : List Char
  width : Nat
  deriving DecidableEq, Repr

namespace Grapheme

/-- The sign that a character begins. -/
def ofChar (c : Char) : Grapheme := ⟨[c], cellWidth c⟩

/-- Put characters before those of a sign, which becomes wider. -/
def extend (cs : List Char) (width : Nat) (g : Grapheme) : Grapheme :=
  ⟨cs ++ g.chars, width + g.width⟩

end Grapheme

/-- What belongs to a sign that has been begun, as a sign of its own, and the signs after it; `base`
is the character that a selector can widen. -/
def splitSigns (base : Option Char) : List Char → Grapheme × List Grapheme
  | [] => (⟨[], 0⟩, [])
  | c :: cs =>
    if c = joiner then
      match cs with
      | [] => (⟨[c], 0⟩, [])
      | d :: rest =>
        let (tail, signs) := splitSigns base rest
        (tail.extend [c, d] 0, signs)
    else if c = selector then
      let (tail, signs) := splitSigns none cs
      (tail.extend [c] (widening base), signs)
    else if cellWidth c = 0 then
      let (tail, signs) := splitSigns base cs
      (tail.extend [c] 0, signs)
    else
      let (tail, signs) := splitSigns (some c) cs
      (⟨[], 0⟩, tail.extend [c] (cellWidth c) :: signs)

/-- The signs of a text. -/
def graphemes : List Char → List Grapheme
  | [] => []
  | c :: cs =>
    let base := if cellWidth c = 0 then none else some c
    let (tail, signs) := splitSigns base cs
    tail.extend [c] (cellWidth c) :: signs

/-- The characters of signs. -/
def charsOf (signs : List Grapheme) : List Char := signs.flatMap (fun g => g.chars)

/-- The sum of the widths of signs. -/
def widthOf (signs : List Grapheme) : Nat := total (signs.map (fun g => g.width))

/-! ### Cutting -/

/-- The beginning of signs that takes a number of cells; half of a sign is shown as a blank. -/
def takeCells (n : Nat) : List Grapheme → List Char
  | [] => []
  | g :: gs =>
    if n = 0 then []
    else if g.width ≤ n then g.chars ++ takeCells (n - g.width) gs
    else [' ']

/-- A text that is cut to a number of cells if it takes more. -/
def cropTo (n : Nat) (cs : List Char) : List Char :=
  if n < cells cs then takeCells n (graphemes cs) else cs

end FieldTrace.Terminal
