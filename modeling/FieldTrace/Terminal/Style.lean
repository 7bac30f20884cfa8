import FieldTrace.Text.Case
import FieldTrace.Text.Integer
import FieldTrace.Text.Split

/-! # Styles

A style is described by words: attributes such as `bold`, which `not` switches off, a colour, a
colour after `on` for the background, and a link after `link`. Of two words for the same thing the
later one counts. `normalForm` gives one name to all descriptions of a style. -/

namespace FieldTrace.Terminal

/-- Why a description is no style: a word is not known, or a number in it cannot be read. -/
inductive StyleFault where
  | unknown | unreadable
  deriving DecidableEq, Repr

/-! ### Colours -/

/-- The colours that have a name. -/
def colourNames : List String := [
  "default",
  "black", "red", "green", "yellow", "blue", "magenta", "cyan", "white", "bright_black",
  "bright_red", "bright_green", "bright_yellow", "bright_blue", "bright_magenta", "bright_cyan",
  "bright_white", "grey0", "gray0", "navy_blue", "dark_blue", "blue3", "blue1", "dark_green",
  "deep_sky_blue4", "dodger_blue3", "dodger_blue2", "green4", "spring_green4", "turquoise4",
  "deep_sky_blue3", "dodger_blue1", "green3", "spring_green3", "dark_cyan", "light_sea_green",
  "deep_sky_blue2", "deep_sky_blue1", "spring_green2", "cyan3", "dark_turquoise", "turquoise2",
  "green1", "spring_green1", "medium_spring_green", "cyan2", "cyan1", "dark_red", "deep_pink4",
  "purple4", "purple3", "blue_violet", "orange4", "grey37", "gray37", "medium_purple4",
  "slate_blue3", "royal_blue1", "chartreuse4", "dark_sea_green4", "pale_turquoise4", "steel_blue",
  "steel_blue3", "cornflower_blue", "chartreuse3", "cadet_blue", "sky_blue3", "steel_blue1",
  "pale_green3", "sea_green3", "aquamarine3", "medium_turquoise", "chartreuse2", "sea_green2",
  "sea_green1", "aquamarine1", "dark_slate_gray2", "dark_magenta", "dark_violet", "purple",
  "light_pink4", "plum4", "medium_purple3", "slate_blue1", "yellow4", "wheat4", "grey53", "gray53",
  "light_slate_grey", "light_slate_gray", "medium_purple", "light_slate_blue", "dark_olive_green3",
  "dark_sea_green", "light_sky_blue3", "sky_blue2", "dark_sea_green3", "dark_slate_gray3",
  "sky_blue1", "chartreuse1", "light_green", "pale_green1", "dark_slate_gray1", "red3",
  "medium_violet_red", "magenta3", "dark_orange3", "indian_red", "hot_pink3", "medium_orchid3",
  "medium_orchid", "medium_purple2", "dark_goldenrod", "light_salmon3", "rosy_brown", "grey63",
  "gray63", "medium_purple1", "gold3", "dark_khaki", "navajo_white3", "grey69", "gray69",
  "light_steel_blue3", "light_steel_blue", "yellow3", "dark_sea_green2", "light_cyan3",
  "light_sky_blue1", "green_yellow", "dark_olive_green2", "dark_sea_green1", "pale_turquoise1",
  "deep_pink3", "magenta2", "hot_pink2", "orchid", "medium_orchid1", "orange3", "light_pink3",
  "pink3", "plum3", "violet", "light_goldenrod3", "tan", "misty_rose3", "thistle3", "plum2",
  "khaki3", "light_goldenrod2", "light_yellow3", "grey84", "gray84", "light_steel_blue1", "yellow2",
  "dark_olive_green1", "honeydew2", "light_cyan1", "red1", "deep_pink2", "deep_pink1", "magenta1",
  "orange_red1", "indian_red1", "hot_pink", "dark_orange", "salmon1", "light_coral",
  "pale_violet_red1", "orchid2", "orchid1", "orange1", "sandy_brown", "light_salmon1",
  "light_pink1", "pink1", "plum1", "gold1", "navajo_white1", "misty_rose1", "thistle1", "yellow1",
  "light_goldenrod1", "khaki1", "wheat1", "cornsilk1", "grey100", "gray100", "grey3", "gray3",
  "grey7", "gray7", "grey11", "gray11", "grey15", "gray15", "grey19", "gray19", "grey23", "gray23",
  "grey27", "gray27", "grey30", "gray30", "grey35", "gray35", "grey39", "gray39", "grey42",
  "gray42", "grey46", "gray46", "grey50", "gray50", "grey54", "gray54", "grey58", "gray58",
  "grey62", "gray62", "grey66", "gray66", "grey70", "gray70", "grey74", "gray74", "grey78",
  "gray78", "grey82", "gray82", "grey85", "gray85", "grey89", "gray89", "grey93", "gray93"]

/-- The text between an opening and the parenthesis at the end. -/
def inParentheses? (opening : String) (cs : List Char) : Option (List Char) :=
  if opening.toList.isPrefixOf cs && cs.getLast? = some ')' then
    some ((cs.drop opening.length).dropLast)
  else none

/-- Is the text a colour `#rrggbb` in hexadecimal digits? -/
def isHexColour (cs : List Char) : Bool :=
  cs.head? = some '#' && cs.length = 7
    && (cs.drop 1).all (fun c => c.isDigit || ('a' ≤ c && c ≤ 'f'))

/-- The number of a colour has one to three digits of ASCII and is at most 255. -/
def isColourNumber (cs : List Char) : Bool :=
  1 ≤ cs.length && cs.length ≤ 3 && cs.all Char.isDigit
    && ((Text.readInteger? (String.ofList cs)).any (fun n => n ≤ 255))

/-- Are these three components of a colour, each at most 255? -/
def readComponents (cs : List Char) : Except StyleFault Unit :=
  let parts := cs.splitOn ','
  if !cs.all (fun c => c = ',' || (Text.digitValue? c).isSome) || parts.length ≠ 3 then
    .error .unknown
  else
    match parts.mapM (fun p => Text.readInteger? (String.ofList p)) with
    | none => .error .unreadable
    | some ns => if ns.all (fun n => n ≤ 255) then .ok () else .error .unknown

/-- The colour that a word describes: its name, `#rrggbb`, `color(n)` or `rgb(r,g,b)`. -/
def readColour (word : String) : Except StyleFault String :=
  let name := Text.lower word
  let cs := name.toList
  if colourNames.contains name || isHexColour cs then .ok name
  else if (inParentheses? "color(" cs).any isColourNumber then .ok name
  else
    match inParentheses? "rgb(" cs with
    | some inside => do
      readComponents inside
      return name
    | none => .error .unknown

/-! ### Descriptions -/

/-- Short names of attributes. -/
def attributeAliases : List (String × String) := [
  ("b", "bold"), ("c", "conceal"), ("d", "dim"), ("i", "italic"), ("o", "overline"),
  ("r", "reverse"), ("s", "strike"), ("u", "underline"), ("uu", "underline2")]

/-- The attributes of styles, in the order in which they are listed. -/
def attributeNames : List String := [
  "bold", "dim", "italic", "underline", "blink", "blink2", "reverse", "conceal", "strike",
  "underline2", "frame", "encircle", "overline"]

/-- The attribute that a word names. -/
def attribute? (word : String) : Option String :=
  let name := (attributeAliases.lookup word).getD word
  if attributeNames.contains name then some name else none

/-- A style. An attribute is on or off by its first entry. -/
structure Style where
  attributes : List (String × Bool) := []
  colour : Option String := none
  background : Option String := none
  link : Option String := none
  deriving DecidableEq, Repr

namespace Style

/-- The style with what further words say. -/
def addWords (s : Style) : List String → Except StyleFault Style
  | [] => .ok s
  | first :: words =>
    let word := Text.lower first
    if word = "on" then
      match words with
      | [] => .error .unknown
      | next :: rest => do
        let colour ← readColour next
        addWords { s with background := some colour } rest
    else if word = "not" then
      match words with
      | [] => .error .unknown
      | next :: rest =>
        match attribute? next with
        | some a => addWords { s with attributes := (a, false) :: s.attributes } rest
        | none => .error .unknown
    else if word = "link" then
      match words with
      | [] => .error .unknown
      | next :: rest => addWords { s with link := some next } rest
    else
      match attribute? word with
      | some a => addWords { s with attributes := (a, true) :: s.attributes } words
      | none => do
        let colour ← readColour word
        addWords { s with colour := some colour } words

/-- The style that a text describes; `none` stands for a style that changes nothing. -/
def read (cs : List Char) : Except StyleFault Style :=
  if String.ofList (Text.trimChars cs) = "none" then .ok {}
  else
    addWords {} (((cs.splitOnP Text.isBlank).filter (fun w => !w.isEmpty)).map String.ofList)

/-- The description of a style, the attributes first. -/
def description (s : Style) : String :=
  let attributes := attributeNames.filterMap (fun a =>
    (s.attributes.lookup a).map (fun on => if on then a else "not " ++ a))
  let words := attributes ++ s.colour.toList ++ (s.background.toList.map (fun c => "on " ++ c))
    ++ (s.link.toList.map (fun l => "link " ++ l))
  if words.isEmpty then "none" else Text.join " " words

/-- The description of the style that a text describes; a text that describes none stands for
itself, in small letters. -/
def normalForm (cs : List Char) : Except StyleFault String :=
  match read cs with
  | .ok s => .ok s.description
  | .error .unknown => .ok (Text.lower (String.ofList (Text.trimChars cs)))
  | .error .unreadable => .error .unreadable

end Style

end FieldTrace.Terminal
