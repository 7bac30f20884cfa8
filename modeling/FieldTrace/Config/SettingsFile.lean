import FieldTrace.Text.Blank

/-! # Settings files

A settings file holds settings `NAME=value`, each on a line of its own. The word `export` may stand
before the name, the name may be quoted, blanks may stand around the equals sign, and a comment may
follow after a blank. A value in quotes may go over several lines, and a backslash in it takes the
character after it along, which may be a quote. A line that does not fit is passed over. A carriage
return ends a line, alone or with a line feed after it. -/

namespace FieldTrace

/-- A setting; a name without an equals sign has no value. -/
structure Setting where
  name : String
  value : Option String
  deriving DecidableEq, Repr

namespace Setting

/-! ### Lines -/

/-- A text in which a line feed ends every line. -/
def unifyLines : List Char → List Char
  | [] => []
  | [c] => [if c = '\r' then '\n' else c]
  | c :: d :: cs =>
    if c = '\r' then
      if d = '\n' then '\n' :: unifyLines cs else '\n' :: unifyLines (d :: cs)
    else c :: unifyLines (d :: cs)

/-- Does the character end a line? -/
def isLineEnd (c : Char) : Bool := c = '\n'

/-- A blank inside a line. -/
def isLineBlank (c : Char) : Bool := Text.isBlank c && !isLineEnd c

/-- The text after the line. -/
def nextLine (cs : List Char) : List Char := (cs.dropWhile (fun c => !isLineEnd c)).drop 1

/-- Only blanks and a comment are left on the line. -/
def endsLine (cs : List Char) : Bool :=
  match cs.dropWhile isLineBlank with
  | [] => true
  | c :: _ => c = '#' || isLineEnd c

/-! ### Quotes -/

/-- The single quotation mark. -/
def singleQuote : Char := Char.ofNat 39

/-- Split a text at the quotation mark that closes it, the first one that does not follow a
backslash of its own. -/
def closing? (mark : Char) : List Char → Option (List Char × List Char)
  | [] => none
  | c :: cs =>
    if c = mark then some ([], cs)
    else if c = '\\' then
      match cs with
      | [] => none
      | d :: ds => (closing? mark ds).map (fun p => (c :: d :: p.1, p.2))
    else (closing? mark cs).map (fun p => (c :: p.1, p.2))

/-- The escapes between double quotes. -/
def doubleEscapes : List (Char × Char) := [
  ('\\', '\\'), (singleQuote, singleQuote), ('"', '"'), ('a', Char.ofNat 7), ('b', Char.ofNat 8),
  ('f', Char.ofNat 12), ('n', '\n'), ('r', '\r'), ('t', '\t'), ('v', Char.ofNat 11)]

/-- The escapes between single quotes. -/
def singleEscapes : List (Char × Char) := [('\\', '\\'), (singleQuote, singleQuote)]

/-- Replace a backslash and the character after it by what they stand for. -/
def unescape (escapes : List (Char × Char)) : List Char → List Char
  | [] => []
  | [c] => [c]
  | c :: d :: cs =>
    match if c = '\\' then escapes.lookup d else none with
    | some e => e :: unescape escapes cs
    | none => c :: unescape escapes (d :: cs)

/-! ### Names and values -/

/-- The text after the word `export` and the blanks that follow it. -/
def dropExport (cs : List Char) : List Char :=
  let rest := cs.drop 6
  if "export".toList.isPrefixOf cs && (rest.head?).any isLineBlank then rest.dropWhile isLineBlank
  else cs

/-- A character of an unquoted name. -/
def isNameChar (c : Char) : Bool := c ≠ '=' && c ≠ '#' && !Text.isBlank c

/-- A name and the text after it; a name is not empty. -/
def name? (cs : List Char) : Option (List Char × List Char) :=
  let parts :=
    if cs.head? = some singleQuote then
      let inside := (cs.drop 1).takeWhile (fun c => c ≠ singleQuote)
      if inside.length + 1 < cs.length then (inside, cs.drop (inside.length + 2)) else ([], cs)
    else (cs.takeWhile isNameChar, cs.dropWhile isNameChar)
  if parts.1.isEmpty then none else some parts

/-- The text before a comment, which begins with a `#` after a blank. -/
def beforeComment : List Char → List Char
  | [] => []
  | c :: cs =>
    if Text.isBlank c && ((cs.dropWhile Text.isBlank).head? == some '#') then []
    else c :: beforeComment cs

/-- The value after an equals sign, and the text after it; a quotation mark that is not closed is
refused. -/
def value? (cs : List Char) : Option (List Char × List Char) :=
  let text := cs.dropWhile isLineBlank
  if text.head? = some '"' then
    (closing? '"' (text.drop 1)).map (fun p => (unescape doubleEscapes p.1, p.2))
  else if text.head? = some singleQuote then
    (closing? singleQuote (text.drop 1)).map (fun p => (unescape singleEscapes p.1, p.2))
  else
    let line := cs.takeWhile (fun c => !isLineEnd c)
    some (Text.trimChars (beforeComment line), cs.drop line.length)

/-! ### Settings -/

/-- A setting if the line ends after it, and the text after the line. -/
def atLineEnd (name : List Char) (value : Option (List Char)) (after : List Char) :
    Option Setting × List Char :=
  (if endsLine after then some ⟨String.ofList name, value.map String.ofList⟩ else none,
    nextLine after)

/-- Read the setting that a text begins with, if there is one, and the text after it. -/
def read (text : List Char) : Option Setting × List Char :=
  let cs := dropExport text
  match name? cs with
  | none => (none, nextLine cs)
  | some (name, rest) =>
    match rest.dropWhile isLineBlank with
    | '=' :: after =>
      match value? after with
      | none => (none, nextLine after)
      | some (value, after) => atLineEnd name (some value) after
    | after => atLineEnd name none after

/-- At most `count` settings of a text. -/
def readWithin : Nat → List Char → List Setting
  | 0, _ => []
  | count + 1, cs =>
    match cs.dropWhile Text.isBlank with
    | [] => []
    | c :: cs =>
      let (setting, after) := read (c :: cs)
      setting.toList ++ readWithin count after

/-- The settings of a file, of which there are no more than characters. A byte-order mark at the
beginning does not count. -/
def ofFile (s : String) : List Setting :=
  let text := if s.toList.head? = some (Char.ofNat 0xFEFF) then s.toList.drop 1 else s.toList
  let cs := unifyLines text
  readWithin cs.length cs

end Setting

end FieldTrace
