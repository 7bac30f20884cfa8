import FieldTrace.Project.FileTree

/-! # Listings of file trees

A listing is the text of a file tree. It is a list of entries in square brackets: `["folder"]` for a
folder, `["path" "bytes" tree]` for a file, with its bytes in hexadecimal. A parse tree is
`["kind" "role" start stop child …]`, and the kind of a keyword begins with `#`. In a text, a
backslash stands before a quote or a backslash. -/

namespace FieldTrace.Listing

/-! ### Tokens -/

/-- A bracket, a text or a number. -/
inductive Token where
  | opening
  | closing
  | text (s : String)
  | number (n : Nat)
  deriving DecidableEq, Repr

/-- What has been begun: nothing, a text (backwards), a text after a backslash, or a number. -/
inductive LexState where
  | between
  | inText (cs : List Char)
  | escaped (cs : List Char)
  | inNumber (n : Nat)
  deriving Repr

/-- The number that a further digit makes. -/
def addDigit (n : Nat) (c : Char) : Nat := 10 * n + (c.toNat - '0'.toNat)

/-- One character outside texts and numbers: a token that it makes, and what it begins. -/
def lexChar (c : Char) : Option (List Token × LexState) :=
  if c = '[' then some ([.opening], .between)
  else if c = ']' then some ([.closing], .between)
  else if c = '"' then some ([], .inText [])
  else if c.isDigit then some ([], .inNumber (addDigit 0 c))
  else if Text.isBlank c || c = ',' then some ([], .between)
  else none

/-- One character in a state. -/
def lexStep (s : LexState) (c : Char) : Option (List Token × LexState) :=
  match s with
  | .between => lexChar c
  | .inText cs =>
    if c = '"' then some ([.text (String.ofList cs.reverse)], .between)
    else if c = '\\' then some ([], .escaped cs)
    else some ([], .inText (c :: cs))
  | .escaped cs => some ([], .inText (c :: cs))
  | .inNumber n =>
    if c.isDigit then some ([], .inNumber (addDigit n c))
    else (lexChar c).map (fun r => (.number n :: r.1, r.2))

/-- The tokens of a text from a state on. -/
def lex (s : LexState) : List Char → Option (List Token)
  | [] =>
    match s with
    | .between => some []
    | .inNumber n => some [.number n]
    | _ => none
  | c :: cs => do
    let (tokens, next) ← lexStep s c
    return tokens ++ (← lex next cs)

/-! ### Nested lists -/

/-- A text, a number or a list of cells. -/
inductive Cell where
  | text (s : String)
  | number (n : Nat)
  | list (cells : List Cell)
  deriving Inhabited

/-- Put a cell into the innermost open list; lists are kept backwards. -/
def push (c : Cell) : List (List Cell) → Option (List (List Cell))
  | [] => none
  | cells :: outer => some ((c :: cells) :: outer)

/-- One token, with the lists that are open. -/
def nestStep (stack : List (List Cell)) : Token → Option (List (List Cell))
  | .opening => some ([] :: stack)
  | .text s => push (.text s) stack
  | .number n => push (.number n) stack
  | .closing =>
    match stack with
    | [] => none
    | cells :: outer => push (.list cells.reverse) outer

/-- The cells that tokens make. -/
def nest (tokens : List Token) : Option (List Cell) :=
  match tokens.foldlM nestStep [[]] with
  | some [cells] => some cells.reverse
  | _ => none

/-! ### File trees -/

mutual

/-- The parse tree of a cell. -/
def readTree : Cell → Option Syntax.Tree
  | .list (.text kind :: .text role :: .number start :: .number stop :: children) => do
    let kind := match kind.toList with
      | '#' :: word => .keyword (String.ofList word)
      | _ => Syntax.Kind.ofName kind
    return .node kind (.ofLabel role) start stop (← readTrees children)
  | _ => none

/-- The parse trees of cells. -/
def readTrees : List Cell → Option (List Syntax.Tree)
  | [] => some []
  | c :: cs => do return (← readTree c) :: (← readTrees cs)

end

/-- The value of a hexadecimal digit. -/
def hexDigit? (c : Char) : Option Nat :=
  if c.isDigit then some (c.toNat - '0'.toNat)
  else if 'a' ≤ c && c ≤ 'f' then some (c.toNat - 'a'.toNat + 10)
  else none

/-- The bytes that pairs of hexadecimal digits stand for. -/
def readBytes : List Char → Option (List UInt8)
  | [] => some []
  | [_] => none
  | a :: b :: rest => do
    return UInt8.ofNat (16 * (← hexDigit? a) + (← hexDigit? b)) :: (← readBytes rest)

/-- Take up an entry of a listing; paths are seen from a working folder. -/
def readEntry (working : Place) (t : FileTree) : Cell → Option FileTree
  | .list [.text path] => some { t with folders := t.folders ++ [Place.resolve working path] }
  | .list [.text path, .text bytes, tree] => do
    let file : StoredFile := {
      place := Place.resolve working path
      bytes := (← readBytes bytes.toList).toArray
      tree := ← readTree tree }
    return { t with files := t.files ++ [file] }
  | _ => none

/-- The file tree of a listing; paths are seen from a working folder. -/
def read? (working : Place) (s : String) : Option FileTree := do
  (← nest (← lex .between s.toList)).foldlM (readEntry working) {}

end FieldTrace.Listing
