import FieldTrace.Terminal.EmojiTable
import FieldTrace.Text.Blank
import FieldTrace.Text.Case
import FieldTrace.Text.Split

/-! # Emoji codes

In a text that is shown, the name of an emoji between colons stands for the emoji; `-text` or
`-emoji` after the name asks for one of its variants. A text between colons that is no such name
stays as it is. -/

namespace FieldTrace.Terminal

/-! ### Looking up names -/

/-- Join words to pairs. -/
def wordPairs : List String → List (String × String)
  | name :: meaning :: words => (name, meaning) :: wordPairs words
  | _ => []

/-- The entries of a table of words. -/
def tableEntries (table : String) : List (String × String) :=
  wordPairs (((table.toList.splitOnP Text.isBlank).filter (fun w => !w.isEmpty)).map String.ofList)

/-- Emoji by name, without skin tones and flags. -/
def plainEntries : List (String × String) := tableEntries plainEmoji

/-- Emoji by name that can have a skin tone. -/
def tonedEntries : List (String × String) := tableEntries tonedEmoji

/-- The letters of countries by the names of their flags. -/
def countryEntries : List (String × String) := tableEntries flagCountries

/-- What a name stands for among entries. -/
def lookUp (entries : List (String × String)) (name : String) : Option (List Char) :=
  (entries.lookup name).map String.toList

/-- The flag of a country with given letters. -/
def countryFlag (letters : List Char) : List Char :=
  letters.map (fun c => Char.ofNat (c.toNat - 'A'.toNat + 0x1F1E6))

/-- The flag of a region with given letters: a black flag with tags. -/
def regionFlag (letters : List Char) : List Char :=
  let tags := letters.map (fun c => Char.ofNat (c.toNat + 0xE0000))
  Char.ofNat 0x1F3F4 :: tags ++ [Char.ofNat 0xE007F]

/-- The flag that a name stands for. -/
def flag? (name : String) : Option (List Char) :=
  if Text.startsWith name "flag_for_" then
    let country := String.ofList (name.toList.drop 9)
    (lookUp countryEntries country <|> lookUp (tableEntries flagForCountries) country).map
      countryFlag
  else
    (lookUp countryEntries name <|> lookUp (tableEntries flagNames) name).map countryFlag
      <|> (lookUp (tableEntries flagRegions) name).map regionFlag

/-- Skin tones: what follows the name of an emoji, and the character that it stands for. -/
def skinTones : List (String × Nat) := [
  ("_light_skin_tone", 0x1F3FB), ("_medium-light_skin_tone", 0x1F3FC),
  ("_medium_skin_tone", 0x1F3FD), ("_medium-dark_skin_tone", 0x1F3FE),
  ("_dark_skin_tone", 0x1F3FF)]

/-- An emoji in a skin tone, which follows its first character in the place of a variant. -/
def withTone (tone : Nat) : List Char → List Char
  | [] => []
  | c :: cs =>
    let rest := if cs.head? = some (Char.ofNat 0xFE0F) then cs.drop 1 else cs
    c :: Char.ofNat tone :: rest

/-- The emoji in a skin tone that a name stands for. -/
def toned? (name : String) : Option (List Char) :=
  skinTones.findSome? (fun tone =>
    if Text.endsWith name tone.1 then
      (lookUp tonedEntries (Text.dropLast tone.1.length name)).map (withTone tone.2)
    else none)

/-- The emoji that a name stands for. -/
def emoji? (name : String) : Option (List Char) :=
  lookUp plainEntries name <|> lookUp tonedEntries name <|> flag? name <|> toned? name

/-! ### Replacing codes -/

/-- Variants of emoji: what follows the name, and the character that asks for the variant. -/
def emojiVariants : List (String × Nat) := [("-emoji", 0xFE0F), ("-text", 0xFE0E)]

/-- What the text between two colons stands for. -/
def codeMeaning? (code : List Char) : Option (List Char) :=
  let s := String.ofList code
  match emojiVariants.find? (fun v => Text.endsWith s v.1) with
  | some v =>
    (emoji? (Text.lower (Text.dropLast v.1.length s))).map (fun e => e ++ [Char.ofNat v.2])
  | none => emoji? (Text.lower s)

/-- The code that a text begins with, between two colons and without blanks, and the text after
it. -/
def code? : List Char → Option (List Char × List Char)
  | ':' :: cs =>
    let code := cs.takeWhile (fun c => c ≠ ':' && !Text.isBlank c)
    match cs.drop code.length with
    | ':' :: after => some (code, after)
    | _ => none
  | _ => none

theorem length_lt_of_code? {cs code after : List Char} (h : code? cs = some (code, after)) :
    after.length < cs.length := by
  unfold code? at h
  split at h
  · next ds =>
    simp only at h
    split at h
    · next rest hr =>
      simp only [Option.some.injEq, Prod.mk.injEq] at h
      obtain ⟨-, rfl⟩ := h
      have := congrArg List.length hr
      simp only [List.length_drop, List.length_cons] at this ⊢
      omega
    · simp at h
  · simp at h

/-- A text with its emoji codes replaced. -/
def replaceEmoji (cs : List Char) : List Char :=
  match _h : code? cs with
  | some (code, after) => (codeMeaning? code).getD (':' :: code ++ [':']) ++ replaceEmoji after
  | none =>
    match cs with
    | [] => []
    | c :: rest => c :: replaceEmoji rest
  termination_by cs.length
  decreasing_by
    · exact length_lt_of_code? _h
    · simp

end FieldTrace.Terminal
