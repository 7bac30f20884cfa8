import FieldTrace.Hierarchy.CallTree

/-! # Call trees as JSON

JSON text indented by two blanks for each level, in printable ASCII only: other characters are
written by their UTF-16 units. -/

namespace FieldTrace.Terminal

/-- A JSON value of the kinds that a call tree needs. -/
inductive JsonText where
  | null
  | text (s : String)
  | list (items : List JsonText)
  | record (fields : List (String × JsonText))
  deriving Inhabited

/-- A UTF-16 unit as an escape. -/
def escapeUnit (n : Nat) : List Char :=
  let digits := Nat.toDigits 16 n
  '\\' :: 'u' :: List.replicate (4 - digits.length) '0' ++ digits

/-- One character of a JSON text. -/
def escapeJsonChar (c : Char) : List Char :=
  if c = '"' || c = '\\' then ['\\', c]
  else if c = '\n' then ['\\', 'n']
  else if c = '\r' then ['\\', 'r']
  else if c = '\t' then ['\\', 't']
  else if c.toNat = 8 then ['\\', 'b']
  else if c.toNat = 12 then ['\\', 'f']
  else if 32 ≤ c.toNat && c.toNat < 127 then [c]
  else if c.toNat < 0x10000 then escapeUnit c.toNat
  else
    let n := c.toNat - 0x10000
    escapeUnit (0xD800 + n / 1024) ++ escapeUnit (0xDC00 + n % 1024)

/-- A text in double quotes. -/
def quoteJson (s : String) : List Char := '"' :: s.toList.flatMap escapeJsonChar ++ ['"']

/-- A new line at a level. -/
def newLine (level : Nat) : List Char := '\n' :: List.replicate (2 * level) ' '

mutual

/-- The text of a value at a level. -/
def writeJson (level : Nat) : JsonText → List Char
  | .null => "null".toList
  | .text s => quoteJson s
  | .list [] => ['[', ']']
  | .list (x :: xs) =>
    '[' :: newLine (level + 1) ++ writeJson (level + 1) x ++ writeItems level xs ++ newLine level
      ++ [']']
  | .record [] => ['\x7b', '\x7d']
  | .record ((k, v) :: fields) =>
    '\x7b' :: newLine (level + 1) ++ quoteJson k ++ [':', ' '] ++ writeJson (level + 1) v
      ++ writeFields level fields ++ newLine level ++ ['\x7d']

/-- The further items of a list. -/
def writeItems (level : Nat) : List JsonText → List Char
  | [] => []
  | x :: xs =>
    ',' :: newLine (level + 1) ++ writeJson (level + 1) x ++ writeItems level xs

/-- The further fields of a record. -/
def writeFields (level : Nat) : List (String × JsonText) → List Char
  | [] => []
  | (k, v) :: fields =>
    ',' :: newLine (level + 1) ++ quoteJson k ++ [':', ' '] ++ writeJson (level + 1) v
      ++ writeFields level fields

end

/-- The JSON text of a value. -/
def JsonText.render (v : JsonText) : String := String.ofList (writeJson 0 v)

mutual

/-- A call tree as a JSON value. -/
def jsonTree : CallTree → JsonText
  | .node n cs => .record [
    ("owner_type", .text n.owner), ("method_name", .text n.name),
    ("param_signature", .list (n.params.map JsonText.text)),
    ("location", match n.location with
      | some l => .text l.text
      | none => .null),
    ("category", .text n.category.text), ("label", .text n.label),
    ("children", .list (jsonForest cs))]

/-- The trees of a list as JSON values. -/
def jsonForest : List CallTree → List JsonText
  | [] => []
  | t :: ts => jsonTree t :: jsonForest ts

end

end FieldTrace.Terminal
