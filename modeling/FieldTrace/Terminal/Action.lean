import FieldTrace.Text.Identifier
import FieldTrace.Text.Integer
import FieldTrace.Text.Blank

/-! # Actions

A mark can give an action to a text: a name and, in parentheses, what it is called with, or a value
alone. Values are numbers, quoted texts and bytes, the words `None`, `True` and `False`, an
ellipsis, tuples, sets and tables. They are read from left to right, with a frame for every
parenthesis or brace that is open. Only whether an action is well-formed matters. -/

namespace FieldTrace.Terminal

/-! ### Tokens -/

/-- What a value is made of. -/
inductive ActionToken where
  | real | imaginary | text | bytes | word | setName
  | opens (brace : Bool) | closes (brace : Bool)
  | comma | colon | sign
  deriving DecidableEq, Repr

namespace ActionToken

/-- The single quotation mark. -/
def singleQuote : Char := Char.ofNat 39

/-- A hexadecimal digit. -/
def isHexDigit (c : Char) : Bool :=
  c.isDigit || ('a' ≤ c && c ≤ 'f') || ('A' ≤ c && c ≤ 'F')

/-- The number that hexadecimal digits denote. -/
def hexNumber (cs : List Char) : Nat :=
  cs.foldl (fun n c => 16 * n + (if c.isDigit then c.toNat - 48 else c.toNat % 32 + 9)) 0

/-- Does a text begin with a number of hexadecimal digits, for a number within a limit? -/
def beginsHex (count limit : Nat) (cs : List Char) : Bool :=
  let digits := cs.take count
  digits.length = count && digits.all isHexDigit && hexNumber digits ≤ limit

/-- May the text stand after a backslash? Characters are named by number, and in a text also by
name. -/
def isEscape (bytes : Bool) : List Char → Bool
  | [] => false
  | c :: cs =>
    if c = 'x' then beginsHex 2 255 cs
    else if bytes then c.toNat < 128
    else if c = 'u' then beginsHex 4 0xFFFF cs
    else if c = 'U' then beginsHex 8 0x10FFFF cs
    else if c = 'N' then
      cs.head? = some '\x7b' && (cs.drop 2).contains '\x7d'
    else true

/-- How a text is quoted: by which mark, over several lines, with backslashes as they are, and as
bytes. -/
structure Quotation where
  mark : Char
  long : Bool
  raw : Bool
  bytes : Bool

/-- The rest after the end of a quoted text. -/
def quoted? (q : Quotation) : List Char → Option (List Char)
  | [] => none
  | c :: cs =>
    if c = q.mark && (!q.long || [q.mark, q.mark].isPrefixOf cs) then
      some (if q.long then cs.drop 2 else cs)
    else if c = '\\' then
      match cs with
      | [] => none
      | d :: ds =>
        if if q.raw then !(q.bytes && 128 ≤ d.toNat) else isEscape q.bytes (d :: ds) then
          quoted? q ds
        else none
    else if (!q.long && (c = '\n' || c = '\r')) || (q.bytes && 128 ≤ c.toNat) then none
    else quoted? q cs

/-- The letters before a quotation mark, and whether they ask for raw texts and for bytes. -/
def quotationKinds : List (String × Bool × Bool) := [
  ("", false, false), ("r", true, false), ("u", false, false), ("b", false, true),
  ("br", true, true), ("rb", true, true)]

/-- Does the character begin a quoted text? -/
def isQuote (c : Char) : Bool := c = singleQuote || c = '"'

/-- A quoted text after its letters. -/
def quotation? (letters : List Char) : List Char → Option (ActionToken × List Char)
  | [] => none
  | mark :: cs =>
    match quotationKinds.lookup (String.ofList (letters.map Char.toLower)) with
    | none => none
    | some kind =>
      let long := [mark, mark].isPrefixOf cs
      (quoted? ⟨mark, long, kind.1, kind.2⟩ (if long then cs.drop 2 else cs)).map
        (fun rest => (if kind.2 then .bytes else .text, rest))

/-- Digits with single underscores between them. -/
def areDigits (cs : List Char) : Bool := (cs.splitOn '_').all (fun group => !group.isEmpty)

/-- A token if it does not run into a word. -/
def endsNumber (t : ActionToken) (rest : List Char) : Option (ActionToken × List Char) :=
  if (rest.head?).any Text.isIdentifierPart then none else some (t, rest)

/-- A number in another base, after its letter; an underscore may stand before it. -/
def basedNumber? (isDigit : Char → Bool) (cs : List Char) : Option (ActionToken × List Char) :=
  let digits := cs.takeWhile (fun c => isDigit c || c = '_')
  let groups := if digits.head? = some '_' then digits.drop 1 else digits
  if areDigits groups then endsNumber .real (cs.drop digits.length) else none

/-- Digits that a text begins with, which may be missing, and the rest. -/
def digits? (cs : List Char) : Option (List Char × List Char) :=
  let digits := cs.takeWhile (fun c => c.isDigit || c = '_')
  if digits.isEmpty || areDigits digits then some (digits, cs.drop digits.length) else none

/-- The rest after an exponent, if there is one. -/
def exponent? (cs : List Char) : Option (List Char) :=
  match cs with
  | c :: rest =>
    if c = 'e' || c = 'E' then
      let unsigned := if rest.head? = some '-' || rest.head? = some '+' then rest.drop 1 else rest
      match digits? unsigned with
      | some (digits, after) => if digits.isEmpty then none else some after
      | none => none
    else none
  | [] => none

/-- Is this an integer that can be read? Only zero begins with a zero. -/
def isInteger (digits : List Char) : Bool :=
  let ds := digits.filter (fun c => c ≠ '_')
  (ds.head? ≠ some '0' || ds.all (fun c => c = '0')) && ds.length ≤ Text.maxDigits

/-- A decimal number: an integer, or with a fraction or an exponent; a `j` makes it imaginary. -/
def decimal? (cs : List Char) : Option (ActionToken × List Char) :=
  match digits? cs with
  | none => none
  | some (whole, rest) =>
    let afterPoint := if rest.head? = some '.' then digits? (rest.drop 1) else some ([], rest)
    match afterPoint with
    | none => none
    | some (fraction, rest') =>
      let rest'' := (exponent? rest').getD rest'
      if whole.isEmpty && fraction.isEmpty then none
      else if rest''.head? = some 'j' || rest''.head? = some 'J' then
        endsNumber .imaginary (rest''.drop 1)
      else if rest''.length = rest.length && !isInteger whole then none
      else endsNumber .real rest''

/-- A number. -/
def number? (cs : List Char) : Option (ActionToken × List Char) :=
  match cs with
  | '0' :: c :: rest =>
    if c = 'x' || c = 'X' then basedNumber? isHexDigit rest
    else if c = 'o' || c = 'O' then basedNumber? (fun d => '0' ≤ d && d ≤ '7') rest
    else if c = 'b' || c = 'B' then basedNumber? (fun d => d = '0' || d = '1') rest
    else decimal? cs
  | _ => decimal? cs

/-- A word, or a quoted text with letters before it. -/
def word? (cs : List Char) : Option (ActionToken × List Char) :=
  let letters := cs.takeWhile Text.isIdentifierPart
  let rest := cs.drop letters.length
  if (rest.head?).any isQuote then quotation? letters rest
  else if ["None", "True", "False"].contains (String.ofList letters) then some (.word, rest)
  else if String.ofList letters = "set" then some (.setName, rest)
  else none

/-- The token that a text begins with. -/
def read? : List Char → Option (ActionToken × List Char)
  | [] => none
  | c :: cs =>
    if c = '(' then some (.opens false, cs)
    else if c = ')' then some (.closes false, cs)
    else if c = '\x7b' then some (.opens true, cs)
    else if c = '\x7d' then some (.closes true, cs)
    else if c = ',' then some (.comma, cs)
    else if c = ':' then some (.colon, cs)
    else if c = '+' || c = '-' then some (.sign, cs)
    else if c = '.' && ['.', '.'].isPrefixOf cs then some (.word, cs.drop 2)
    else if isQuote c then quotation? [] (c :: cs)
    else if c.isDigit || c = '.' then number? (c :: cs)
    else if Text.isIdentifierStart c then word? (c :: cs)
    else none

/-- Does the character end a line? -/
def endsLine (c : Char) : Bool := c = '\n' || c = '\r'

/-- The number of open parentheses and braces after a token. -/
def depthAfter (depth : Nat) : ActionToken → Nat
  | .opens _ => depth + 1
  | .closes _ => depth - 1
  | _ => depth

/-- At most `count` tokens of a text, some of which may have been read before. Between them there
may be blanks and comments, and the ends of lines where something is open or after a backslash;
elsewhere no token follows the end of a line that has one. -/
def listWithin : Nat → Bool → Nat → List Char → Option (List ActionToken)
  | _, _, _, [] => some []
  | 0, _, _, _ => none
  | count + 1, begun, depth, c :: cs =>
    if c = ' ' || c = '\t' || c.toNat = 12 then listWithin count begun depth cs
    else if c = '#' then listWithin count begun depth (cs.dropWhile (fun d => !endsLine d))
    else if c = '\\' then
      match cs with
      | [] => none
      | d :: ds => if endsLine d then listWithin count begun depth ds else none
    else if endsLine c then
      match listWithin count begun depth cs with
      | some ts => if begun && depth = 0 && !ts.isEmpty then none else some ts
      | none => none
    else
      match read? (c :: cs) with
      | some (t, rest) => (listWithin count true (depthAfter depth t) rest).map (fun ts => t :: ts)
      | none => none

/-- The tokens of a text, of which there are no more than characters. -/
def list? (cs : List Char) : Option (List ActionToken) := listWithin cs.length false 0 cs

end ActionToken

/-! ### Values -/

/-- What is known of a value: the kinds of numbers that a sign or a sum can take, the name of the
empty set, which is no value until it is called, and else whether it can be an element of a set. -/
inductive ActionValue where
  | real | signedReal | imaginary | setName
  | other (isElement : Bool)
  deriving DecidableEq, Repr

namespace ActionValue

/-- Can the value be an element of a set? -/
def isElement : ActionValue → Bool
  | .other b => b
  | _ => true

end ActionValue

/-- How far the value of an item has been read: not at all, a sign, a number and a sign after it, or
the value. -/
inductive ActionItem where
  | nothing | signed | summed
  | value (v : ActionValue)
  deriving DecidableEq, Repr

namespace ActionItem

/-- A value is read. -/
def add? (v : ActionValue) : ActionItem → Option ActionItem
  | .nothing => some (.value v)
  | .signed =>
    match v with
    | .real => some (.value .signedReal)
    | .imaginary => some (.value (.other true))
    | _ => none
  | .summed => if v = .imaginary then some (.value (.other true)) else none
  | .value _ => none

/-- An empty pair of parentheses is read, which calls a name. -/
def call? : ActionItem → Option ActionItem
  | .value .setName => some (.value (.other false))
  | _ => none

/-- A sign is read. -/
def addSign? : ActionItem → Option ActionItem
  | .nothing => some .signed
  | .value .real => some .summed
  | .value .signedReal => some .summed
  | _ => none

end ActionItem

/-- What is open: its brace or parenthesis, whether it is a table, whether the item follows a colon,
the values of the items before, and the item that is read. -/
structure ActionFrame where
  brace : Bool := false
  table : Bool := false
  afterColon : Bool := false
  items : List ActionValue := []
  current : ActionItem := .nothing
  deriving DecidableEq, Repr

namespace ActionFrame

/-- The frame after the end of an item. In braces there are either elements or pairs. -/
def endItem? (f : ActionFrame) : Option ActionFrame :=
  match f.current with
  | .value v =>
    if v = .setName || (f.brace && !f.afterColon && (f.table || !v.isElement)) then none
    else some { f with afterColon := false, items := v :: f.items, current := .nothing }
  | _ => none

/-- The frame after a colon, which ends the first part of a pair. -/
def addColon? (f : ActionFrame) : Option ActionFrame :=
  match f.current with
  | .value v =>
    if f.brace && !f.afterColon && v ≠ .setName && v.isElement && (f.table || f.items.isEmpty)
    then
      some { f with table := true, afterColon := true, current := .nothing }
    else none
  | _ => none

/-- The value of a frame that is closed. A single item in parentheses is the value itself unless a
comma follows it. -/
def close? (f : ActionFrame) : Option ActionValue :=
  if f.current = .nothing then
    if f.afterColon then none
    else if f.brace then some (.other false)
    else some (.other (f.items.all ActionValue.isElement))
  else if f = { current := .value .setName } then some .setName
  else
    match f.endItem? with
    | none => none
    | some g =>
      if g.brace then some (.other false)
      else
        match g.items with
        | [v] => some v
        | vs => some (.other (vs.all ActionValue.isElement))

end ActionFrame

/-- The most parentheses and braces that can be open. -/
def maxOpen : Nat := 200

/-- Put a value into the innermost frame. -/
def addValue? (v : ActionValue) : List ActionFrame → Option (List ActionFrame)
  | [] => none
  | f :: fs => (f.current.add? v).map (fun item => { f with current := item } :: fs)

/-- Read the tokens of a value; the open frames are listed from the innermost to the outermost. -/
def readTokens (frames : List ActionFrame) : List ActionToken → Option (List ActionFrame)
  | [] => some frames
  | .real :: ts => do readTokens (← addValue? .real frames) ts
  | .imaginary :: ts => do readTokens (← addValue? .imaginary frames) ts
  | .text :: .bytes :: _ => none
  | .bytes :: .text :: _ => none
  | .text :: .text :: ts => readTokens frames (.text :: ts)
  | .bytes :: .bytes :: ts => readTokens frames (.bytes :: ts)
  | .text :: ts => do readTokens (← addValue? (.other true) frames) ts
  | .bytes :: ts => do readTokens (← addValue? (.other true) frames) ts
  | .word :: ts => do readTokens (← addValue? (.other true) frames) ts
  | .setName :: ts => do readTokens (← addValue? .setName frames) ts
  | .opens false :: .closes false :: ts =>
    match frames with
    | f :: fs =>
      match f.current.call? with
      | some item => readTokens ({ f with current := item } :: fs) ts
      | none => do readTokens (← addValue? (.other true) frames) ts
    | [] => none
  | .opens brace :: ts =>
    if frames.length ≤ maxOpen then readTokens ({ brace := brace } :: frames) ts else none
  | .closes brace :: ts =>
    match frames with
    | f :: outer :: fs =>
      if f.brace = brace then do
        let v ← f.close?
        readTokens (← addValue? v (outer :: fs)) ts
      else none
    | _ => none
  | .comma :: ts =>
    match frames with
    | f :: fs => do readTokens ((← f.endItem?) :: fs) ts
    | [] => none
  | .colon :: ts =>
    match frames with
    | f :: fs => do readTokens ((← f.addColon?) :: fs) ts
    | [] => none
  | .sign :: ts =>
    match frames with
    | f :: fs => do readTokens ({ f with current := ← f.current.addSign? } :: fs) ts
    | [] => none

/-- Is the text a value, or several with commas between them? -/
def isActionValue (cs : List Char) : Bool :=
  match (ActionToken.list? cs).bind (readTokens [{}]) with
  | some [f] => f ≠ {} && f.close?.any (fun v => v ≠ .setName)
  | _ => false

/-- Is the text an action: a name, what it is called with, or both, or else a value? -/
def isAction (text : List Char) : Bool :=
  let cs := Text.trimChars text
  let call := cs.dropWhile (fun c => Text.isIdentifierPart c || c = '.')
  let isCall := call.head? = some '(' && call.getLast? = some ')' && !call.contains '\n'
  call.isEmpty || isActionValue (if isCall then call else cs)

end FieldTrace.Terminal
