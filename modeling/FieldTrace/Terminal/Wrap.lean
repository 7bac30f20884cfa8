import FieldTrace.Terminal.Grapheme
import FieldTrace.Text.Blank

/-! # Breaking lines

A line that is wider than its place is broken between words. A word that is wider than a line is cut
into pieces where that is asked for; else its line is cut off, with an ellipsis at the end. -/

namespace FieldTrace.Terminal

/-- A text of blanks. -/
def blanks (n : Nat) : List Char := List.replicate n ' '

/-- The words of a text after a word that has been begun, whose characters are given backwards. -/
def wordsFrom (word : List Char) : List Char → List (List Char)
  | [] => if word.isEmpty then [] else [word.reverse]
  | c :: rest =>
    if !Text.isBlank c && word.any (fun d => !Text.isBlank d) && (word.head?).any Text.isBlank then
      word.reverse :: wordsFrom [c] rest
    else wordsFrom (c :: word) rest

/-- The words of a text, each with the blanks after it; the first also with those before it. -/
def wordsOf (cs : List Char) : List (List Char) := wordsFrom [] cs

/-- A text without the blanks at its end. -/
def trimEnd (cs : List Char) : List Char := (cs.reverse.dropWhile Text.isBlank).reverse

/-- Put signs into pieces of a width; `piece` is the piece begun, backwards. -/
def chopFrom (width : Nat) (piece : List Grapheme) : List Grapheme → List (List Char)
  | [] => if piece.isEmpty then [] else [charsOf piece.reverse]
  | g :: gs =>
    if width < widthOf piece + g.width then charsOf piece.reverse :: chopFrom width [g] gs
    else chopFrom width (g :: piece) gs

/-- Cut a text into pieces of a width. -/
def chop (width : Nat) (cs : List Char) : List (List Char) := chopFrom width [] (graphemes cs)

/-- Put words into lines of a width; `line` is the line begun. With `fold`, a word that is wider
than a line is cut into pieces. -/
def fillLines (fold : Bool) (width : Nat) (line : List Char) :
    List (List Char) → List (List Char)
  | [] => if line.isEmpty then [] else [line]
  | word :: words =>
    if cells line + cells (trimEnd word) ≤ width then fillLines fold width (line ++ word) words
    else
      let before := if line.isEmpty then [] else [line]
      if fold && width < cells (trimEnd word) then
        let pieces := chop width word
        before ++ pieces.dropLast ++ fillLines fold width (pieces.getLast?.getD []) words
      else before ++ fillLines fold width word words

/-- The lines that a line is broken into, at least one. -/
def breakLine (fold : Bool) (width : Nat) (line : List Char) : List (List Char) :=
  match fillLines fold width [] (wordsOf line) with
  | [] => [[]]
  | lines => lines

/-- Drop blanks at the end of a line that has more characters than a number. -/
def dropExcess (size : Nat) (cs : List Char) : List Char :=
  cs.take (max size (trimEnd cs).length)

/-- The lines of a width that a line is shown in. -/
def wrapLine (width : Nat) (line : List Char) : List (List Char) :=
  (breakLine true width line).map (fun l => cropTo width (dropExcess width l))

/-- A line with blanks up to a width. -/
def padEnd (width : Nat) (cs : List Char) : List Char := cs ++ blanks (width - cells cs)

/-- A line that fills a width from the left. The blanks are counted again for the whole line, since
a joiner at the end of the text swallows the first of them. -/
def fitLeft (width : Nat) (cs : List Char) : List Char :=
  if width < cells cs then padEnd width (takeCells (width - 1) (graphemes cs) ++ ['…'])
  else padEnd width (padEnd width cs)

/-- A line in the middle of a width. -/
def centre (width : Nat) (cs : List Char) : List Char :=
  let line := cropTo width (trimEnd cs)
  let left := (width - cells line) / 2
  blanks left ++ line ++ blanks (width - cells line - left)

end FieldTrace.Terminal
