import Flowchart.Text.Blank

/-! # Glyphs of boxes and lines

A style gives the glyphs with which boxes, connector trails and arrow tips are drawn. -/

namespace Flowchart

structure BoxGlyphs where
  topLeft : Char
  topRight : Char
  bottomLeft : Char
  bottomRight : Char
  horizontal : Char
  vertical : Char
  trail : Char
  arrowDown : Char
  arrowRight : Char
  arrowLeft : Char
  arrowUp : Char
deriving DecidableEq, Repr

namespace BoxGlyphs

/-- Square corners. -/
def square : BoxGlyphs where
  topLeft := '┌'
  topRight := '┐'
  bottomLeft := '└'
  bottomRight := '┘'
  horizontal := '─'
  vertical := '│'
  trail := '·'
  arrowDown := '▼'
  arrowRight := '►'
  arrowLeft := '◄'
  arrowUp := '▲'

/-- Round corners. -/
def round : BoxGlyphs :=
  { square with topLeft := '╭', topRight := '╮', bottomLeft := '╰', bottomRight := '╯' }

/-- Slanted corners. -/
def diamond : BoxGlyphs :=
  { square with topLeft := '/', topRight := '\x5c', bottomLeft := '\x5c', bottomRight := '/' }

/-- ASCII only. -/
def ascii : BoxGlyphs where
  topLeft := '+'
  topRight := '+'
  bottomLeft := '+'
  bottomRight := '+'
  horizontal := '-'
  vertical := '|'
  trail := '.'
  arrowDown := 'v'
  arrowRight := '>'
  arrowLeft := '<'
  arrowUp := '^'

/-- The name of a style without its case and the blanks around it; letters outside ASCII never turn
a name into that of a style. -/
def styleKey (name : String) : String :=
  String.ofList (Text.trim (name.toList.map Char.toLower))

def isAsciiName (name : String) : Bool := ["ascii", "plain"].contains (styleKey name)

def ofStyle? (name : String) : Option BoxGlyphs :=
  let key := styleKey name
  if ["square", "line", "box"].contains key then some square
  else if ["rounded", "round", "modern"].contains key then some round
  else if key = "diamond" then some diamond
  else if isAsciiName name then some ascii
  else none

/-- The wording for a name that no style has. -/
def unknownStyle (name : String) : String := "Unknown box style: " ++ name

end BoxGlyphs

end Flowchart
