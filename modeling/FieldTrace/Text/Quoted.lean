import FieldTrace.Text.Printable

/-! # Quoted texts

A quoted text stands between single quotes, or between double quotes if it holds a single quote and
no double one. Backslashes, the quote in use, line feeds, carriage returns and tabs are escaped with
a backslash, other unprintable characters by their code point in lower-case hexadecimal. -/

namespace FieldTrace.Text

/-- The code point of `c` in hexadecimal, padded with zeros to `width` digits. -/
def hexCode (width : Nat) (c : Char) : List Char :=
  let digits := Nat.toDigits 16 c.toNat
  List.replicate (width - digits.length) '0' ++ digits

/-- An unprintable character by its code point. -/
def escapeCode (c : Char) : List Char :=
  if c.toNat < 0x100 then '\\' :: 'x' :: hexCode 2 c
  else if c.toNat < 0x10000 then '\\' :: 'u' :: hexCode 4 c
  else '\\' :: 'U' :: hexCode 8 c

/-- One character inside quotes of the given kind. -/
def quoteChar (mark c : Char) : List Char :=
  if c == mark || c == '\\' then ['\\', c]
  else if c == '\n' then ['\\', 'n']
  else if c == '\r' then ['\\', 'r']
  else if c == '\t' then ['\\', 't']
  else if isPrintable c then [c]
  else escapeCode c

/-- The quotation mark for a text. -/
def quoteMark (cs : List Char) : Char :=
  if cs.contains (Char.ofNat 39) && !cs.contains '"' then '"' else Char.ofNat 39

/-- The text in quotes. -/
def quote (s : String) : String :=
  let mark := quoteMark s.toList
  String.ofList (mark :: s.toList.flatMap (quoteChar mark) ++ [mark])

end FieldTrace.Text
