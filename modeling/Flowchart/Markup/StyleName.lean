import Flowchart.Text.Blank
import Flowchart.Text.Case
import Flowchart.Text.Numeral

/-! # Names of styles

A style is named by words: attributes, `not` with an attribute, a colour, `on` with a colour and
`link` with an address.  Two names are the same style if they set the same things, so every name has
a canonical form (`styleName`): the attributes in a fixed order under their long names, then the
colour, the background and the link.  A text that names no style is its own name, in lower case. -/

namespace Flowchart.Markup

/-! ### Attributes and colours -/

/-- The attributes of a style with their short names, in the order in which a style lists them. -/
def attributes : List (String × List String) :=
  [("bold", ["b"]), ("dim", ["d"]), ("italic", ["i"]), ("underline", ["u"]), ("blink", []),
   ("blink2", []), ("reverse", ["r"]), ("conceal", ["c"]), ("strike", ["s"]),
   ("underline2", ["uu"]), ("frame", []), ("encircle", []), ("overline", ["o"])]

/-- The attribute that a word names. -/
def attributeOf? (word : String) : Option String :=
  (attributes.find? fun (name, short) => name == word || short.contains word).map Prod.fst

def colourNames : List String :=
  ["black", "red", "green", "yellow", "blue", "magenta", "cyan", "white", "bright_black",
   "bright_red", "bright_green", "bright_yellow", "bright_blue", "bright_magenta", "bright_cyan",
   "bright_white", "grey0", "gray0", "navy_blue", "dark_blue", "blue3", "blue1", "dark_green",
   "deep_sky_blue4", "dodger_blue3", "dodger_blue2", "green4", "spring_green4", "turquoise4",
   "deep_sky_blue3", "dodger_blue1", "green3", "spring_green3", "dark_cyan", "light_sea_green",
   "deep_sky_blue2", "deep_sky_blue1", "spring_green2", "cyan3", "dark_turquoise", "turquoise2",
   "green1", "spring_green1", "medium_spring_green", "cyan2", "cyan1", "dark_red", "deep_pink4",
   "purple4", "purple3", "blue_violet", "orange4", "grey37", "gray37", "medium_purple4",
   "slate_blue3", "royal_blue1", "chartreuse4", "dark_sea_green4", "pale_turquoise4", "steel_blue",
   "steel_blue3", "cornflower_blue", "chartreuse3", "cadet_blue", "sky_blue3", "steel_blue1",
   "pale_green3", "sea_green3", "aquamarine3", "medium_turquoise", "chartreuse2", "sea_green2",
   "sea_green1", "aquamarine1", "dark_slate_gray2", "dark_magenta", "dark_violet", "purple",
   "light_pink4", "plum4", "medium_purple3", "slate_blue1", "yellow4", "wheat4", "grey53", "gray53",
   "light_slate_grey", "light_slate_gray", "medium_purple", "light_slate_blue", "dark_olive_green3",
   "dark_sea_green", "light_sky_blue3", "sky_blue2", "dark_sea_green3", "dark_slate_gray3",
   "sky_blue1", "chartreuse1", "light_green", "pale_green1", "dark_slate_gray1", "red3",
   "medium_violet_red", "magenta3", "dark_orange3", "indian_red", "hot_pink3", "medium_orchid3",
   "medium_orchid", "medium_purple2", "dark_goldenrod", "light_salmon3", "rosy_brown", "grey63",
   "gray63", "medium_purple1", "gold3", "dark_khaki", "navajo_white3", "grey69", "gray69",
   "light_steel_blue3", "light_steel_blue", "yellow3", "dark_sea_green2", "light_cyan3",
   "light_sky_blue1", "green_yellow", "dark_olive_green2", "dark_sea_green1", "pale_turquoise1",
   "deep_pink3", "magenta2", "hot_pink2", "orchid", "medium_orchid1", "orange3", "light_pink3",
   "pink3", "plum3", "violet", "light_goldenrod3", "tan", "misty_rose3", "thistle3", "plum2",
   "khaki3", "light_goldenrod2", "light_yellow3", "grey84", "gray84", "light_steel_blue1",
   "yellow2", "dark_olive_green1", "honeydew2", "light_cyan1", "red1", "deep_pink2", "deep_pink1",
   "magenta1", "orange_red1", "indian_red1", "hot_pink", "dark_orange", "salmon1", "light_coral",
   "pale_violet_red1", "orchid2", "orchid1", "orange1", "sandy_brown", "light_salmon1",
   "light_pink1", "pink1", "plum1", "gold1", "navajo_white1", "misty_rose1", "thistle1", "yellow1",
   "light_goldenrod1", "khaki1", "wheat1", "cornsilk1", "grey100", "gray100", "grey3", "gray3",
   "grey7", "gray7", "grey11", "gray11", "grey15", "gray15", "grey19", "gray19", "grey23", "gray23",
   "grey27", "gray27", "grey30", "gray30", "grey35", "gray35", "grey39", "gray39", "grey42",
   "gray42", "grey46", "gray46", "grey50", "gray50", "grey54", "gray54", "grey58", "gray58",
   "grey62", "gray62", "grey66", "gray66", "grey70", "gray70", "grey74", "gray74", "grey78",
   "gray78", "grey82", "gray82", "grey85", "gray85", "grey89", "gray89", "grey93", "gray93"]

def maxColourPart : Nat := 255

/-- What stands between a beginning of a word and a parenthesis at its end. -/
def argumentOf? (function : String) (word : List Char) : Option (List Char) :=
  let opening := (function ++ "(").toList
  if opening.isPrefixOf word && word.getLast? = some ')' then
    some (word.drop opening.length).dropLast
  else none

/-- A colour by its three parts in sixteen steps each. -/
def isHexColour : List Char → Bool
  | '#' :: digits =>
    digits.length == 6 && digits.all fun c => c.isDigit || ('a' ≤ c && c ≤ 'f')
  | _ => false

def isNumberedColour (word : List Char) : Bool :=
  match argumentOf? "color" word with
  | some digits =>
    !digits.isEmpty && digits.length ≤ 3 && digits.all Char.isDigit &&
      Text.ofDigits (digits.filterMap Text.digitValue?) ≤ maxColourPart
  | none => false

/-- A colour by its three parts in decimal numerals; `none` if a part is empty. -/
def isPartedColour? (word : List Char) : Option Bool :=
  match argumentOf? "rgb" word with
  | some body =>
    let parts := body.splitOn ','
    if body.all (fun c => c == ',' || (Text.digitValue? c).isSome) && parts.length == 3 then
      if parts.any List.isEmpty then none
      else some <| parts.all fun part =>
        Text.ofDigits (part.filterMap Text.digitValue?) ≤ maxColourPart
    else some false
  | none => some false

/-- Whether a word in lower case is a colour; `none` if it is one with an empty part. -/
def isColour? (word : String) : Option Bool :=
  if word = "default" || colourNames.contains word || isHexColour word.toList ||
    isNumberedColour word.toList then some true
  else isPartedColour? word.toList

/-! ### Reading -/

structure StyleWords where
  attributes : List (String × Bool)
  colour : Option String
  background : Option String
  link : Option String

namespace StyleWords

/-- A style that sets nothing. -/
def empty : StyleWords := ⟨[], none, none, none⟩

/-- Sets an attribute or takes it away; the last word on it counts. -/
def setAttribute (s : StyleWords) (name : String) (on : Bool) : StyleWords :=
  { s with attributes := (name, on) :: s.attributes }

/-- Why a text names no style: a word has no meaning, or a part of a colour is empty. -/
inductive Fault
  | noMeaning
  | emptyPart
deriving DecidableEq, Repr

/-- A word in lower case that must be a colour. -/
def needColour (word : String) : Except Fault String :=
  match isColour? word with
  | some true => .ok word
  | some false => .error .noMeaning
  | none => .error .emptyPart

/-- A word in lower case. -/
def lowered (word : String) : String := String.ofList (Text.lower word.toList)

/-- Takes words in order. -/
def read (s : StyleWords) : List String → Except Fault StyleWords
  | [] => .ok s
  | word :: rest =>
    match lowered word, rest with
    | "on", colour :: rest => do
      read { s with background := some (← needColour (lowered colour)) } rest
    | "not", name :: rest =>
      match attributeOf? name with
      | some effect => read (s.setAttribute effect false) rest
      | none => .error .noMeaning
    | "link", address :: rest => read { s with link := some address } rest
    | "on", [] | "not", [] | "link", [] => .error .noMeaning
    | word, rest =>
      match attributeOf? word with
      | some effect => read (s.setAttribute effect true) rest
      | none => do read { s with colour := some (← needColour word) } rest

/-- The canonical name of what a style sets. -/
def name (s : StyleWords) : String :=
  let set := (Markup.attributes.map Prod.fst).filterMap fun effect =>
    (s.attributes.lookup effect).map fun on =>
      if on then effect else "not " ++ effect
  let words := set ++ s.colour.toList ++ (s.background.map ("on " ++ ·)).toList ++
    (s.link.map ("link " ++ ·)).toList
  if words.isEmpty then "none" else " ".intercalate words

end StyleWords

def words (s : List Char) : List String :=
  ((s.splitBy fun c d => Text.isBlank c == Text.isBlank d).filter fun w =>
    !w.all Text.isBlank).map String.ofList

/-- The canonical name of a style, or `none` if a part of a colour in it is empty. -/
def styleName (text : List Char) : Option String :=
  let trimmed := Text.trim text
  if trimmed = "none".toList then some "none"
  else match StyleWords.empty.read (words text) with
    | .ok s => some s.name
    | .error .noMeaning => some (String.ofList (Text.lower trimmed))
    | .error .emptyPart => none

end Flowchart.Markup
