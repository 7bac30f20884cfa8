import FieldTrace.Terminal.Emoji
import FieldTrace.Terminal.Line

/-! # Glyphs for plain terminals

Arrows, tree lines and a few symbols are replaced by ASCII texts on terminals that cannot show
them. -/

namespace FieldTrace.Terminal

/-- The glyphs with their replacements. -/
def glyphs : List (Char × String) := [
  ('✓', "[OK]"), ('✗', "[FAIL]"), ('⚠', "[WARN]"),
  ('→', "->"), ('←', "<-"), ('↔', "<->"), ('⇒', "=>"),
  ('│', "|"), ('─', "-"), ('└', "+"), ('├', "+"), ('┌', "+"), ('┐', "+"), ('┘', "+"), ('┤', "+"),
  ('…', "..."), ('•', "*")]

/-- Replace every occurrence of one glyph. -/
def replaceGlyph (cs : List Char) (g : Char × String) : List Char :=
  cs.flatMap (fun c => if c = g.1 then g.2.toList else [c])

/-- The text with all glyphs replaced, one glyph after the other. -/
def sanitize (s : String) : String := String.ofList (glyphs.foldl replaceGlyph s.toList)

/-- The encoding of a terminal by its name, which is UTF-8 if it is not known. -/
def encodingName (name : Option String) : String :=
  match name.filter (fun n => n ≠ "") with
  | some n => Text.lower n
  | none => "utf-8"

/-- Can a terminal with this encoding show the glyphs? -/
def isUtf8 (encoding : String) : Bool :=
  let name := String.ofList (encoding.toList.map (fun c => if c = '_' then '-' else c))
  name = "utf-8" || name = "utf8"

/-- The text as it can be shown in an encoding. -/
def plain (encoding s : String) : String := if isUtf8 encoding then s else sanitize s

/-- The columns that are used in an encoding: a plain terminal leaves the last one free, since it
may begin a new line there. -/
def usedWidth (encoding : String) : Nat := if isUtf8 encoding then screenWidth else screenWidth - 1

/-- Texts as they are printed one after the other in an encoding; marks in them do not count. -/
def printAll (encoding : String) (texts : List String) : String :=
  String.join (texts.map (fun s =>
    printedWithin (usedWidth encoding) (String.ofList (replaceEmoji (plain encoding s).toList))))

/-- The spinner shown while an analysis runs. -/
def spinner (encoding : String) : String := if isUtf8 encoding then "dots" else "line"

end FieldTrace.Terminal
