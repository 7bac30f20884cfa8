import FieldTrace.Text.Blank

/-! # Reading integers

An integer is written with decimal digits of any script, an optional sign, single underscores
between digits, and white space around it. A count is written with the digits of ASCII, without a
minus sign, and zeros may follow after a point. Both have at most `maxDigits` digits. -/

namespace FieldTrace.Text

/-- The digit zero of every script beyond ASCII; the other nine digits follow it. -/
def zeroDigits : List Nat := [
  1632, 1776, 1984, 2406, 2534, 2662, 2790, 2918, 3046, 3174, 3302, 3430, 3558, 3664, 3792, 3872,
  4160, 4240, 6112, 6160, 6470, 6608, 6784, 6800, 6992, 7088, 7232, 7248, 42528, 43216, 43264,
  43472, 43504, 43600, 44016, 65296, 66720, 68912, 69734, 69872, 69942, 70096, 70384, 70736,
  70864, 71248, 71360, 71472, 71904, 72016, 72784, 73040, 73120, 92768, 92864, 93008, 120782,
  120792, 120802, 120812, 120822, 123200, 123632, 125264, 130032]

/-- The value of a decimal digit. -/
def digitValue? (c : Char) : Option Nat :=
  if c.isDigit then some (c.toNat - 48)
  else match zeroDigits.find? (fun z => decide (z ≤ c.toNat) && decide (c.toNat < z + 10)) with
    | some z => some (c.toNat - z)
    | none => none

/-- The most digits that an integer may have. -/
def maxDigits : Nat := 4300

/-- White space: a blank other than the information separators. -/
def isWhite (c : Char) : Bool := isBlank c && !(decide (28 ≤ c.toNat) && decide (c.toNat < 32))

/-- Read digits with single underscores between them: how many there are, their value, and the rest
of the text. The flag tells whether a digit has just been read. -/
def readDigits (afterDigit : Bool) (count value : Nat) : List Char → Option (Nat × Nat × List Char)
  | [] => if afterDigit then some (count, value, []) else none
  | c :: cs =>
    match digitValue? c with
    | some d => readDigits true (count + 1) (value * 10 + d) cs
    | none =>
      if !afterDigit then none
      else if c == '_' then readDigits false count value cs
      else some (count, value, c :: cs)

/-- The integer that a text denotes. -/
def readInteger? (s : String) : Option Int :=
  let cs := s.toList.dropWhile isWhite
  let negative := cs.head? == some '-'
  let unsigned := if negative || cs.head? == some '+' then cs.drop 1 else cs
  match readDigits false 0 0 unsigned with
  | some (count, value, rest) =>
    if rest.all isWhite && decide (count ≤ maxDigits) then
      some (if negative then -(value : Int) else value)
    else none
  | none => none

/-! ### Counts -/

/-- Drop a point and the zeros after it, of which there is at least one, at the end of a text. -/
def dropZeroFraction (cs : List Char) : List Char :=
  let fraction := cs.dropWhile (fun c => c ≠ '.')
  let zeros := fraction.drop 1
  if !zeros.isEmpty && zeros.all (fun c => c = '0') then cs.take (cs.length - fraction.length)
  else cs

/-- Drop zeros at the beginning, with underscores after the first of them, unless nothing else is
left. -/
def dropZeros (cs : List Char) : List Char :=
  let rest := cs.dropWhile (fun c => c = '0' || c = '_')
  if cs.head? == some '0' && !rest.isEmpty then rest else cs

/-- The count that a text denotes: digits of ASCII, after which a point and zeros may follow. -/
def readCount? (s : String) : Option Nat :=
  let cs := ((s.toList.dropWhile isWhite).reverse.dropWhile isWhite).reverse
  let unsigned := if cs.head? == some '+' then cs.drop 1 else cs
  let digits := dropZeros (dropZeroFraction unsigned)
  if digits.all (fun c => c.isDigit || c = '_') then
    match readDigits false 0 0 digits with
    | some (_, value, _) => if value < Nat.pow 10 maxDigits then some value else none
    | none => none
  else none

end FieldTrace.Text
