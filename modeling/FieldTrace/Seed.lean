import FieldTrace.Symbol
import FieldTrace.Text.Blank
import FieldTrace.Text.Identifier
import FieldTrace.Text.Quoted

/-! # Seed texts

A seed names a field as `Type#field` or `Type.field`. The text is split at the first `#` if there is
one, otherwise at the last dot. -/

namespace FieldTrace

/-- A text that names no field. -/
structure SeedError where
  text : String
  deriving DecidableEq, Repr

/-- What a seed should look like. -/
def SeedError.message (e : SeedError) : String :=
  "Expected 'Type.field' or 'Type#field', got " ++ Text.quote e.text

namespace Seed

/-- The type part and the field part of a seed text. -/
def split (text : String) : String × String :=
  match Text.splitFirst '#' text with
  | some parts => parts
  | none => (Text.splitLast '.' text).getD ("", text)

/-- The field that a seed text names. -/
def parse (text : String) : Except SeedError FieldRef :=
  let trimmed := Text.trim text
  let parts := split trimmed
  let type := Text.trim parts.1
  let field := Text.trim parts.2
  if type ≠ "" && Text.isIdentifier field then .ok ⟨type, field⟩ else .error ⟨trimmed⟩

end Seed

end FieldTrace
