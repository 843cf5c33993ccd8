import PlaneSketch.Sketch.Basic
import PlaneSketch.Sketch.Numeral
import PlaneSketch.Text

namespace PlaneSketch

namespace Label

/-- A character that may stand in a name. -/
def isLetter (c : Char) : Bool := Text.isAlphanumeric c || c == '_'

/-- A name, as it is declared. -/
def declared : Parser String := do
  return String.ofList (← Parser.oneOrMore isLetter)

def suffix (w : String) : Parser String := do
  Parser.word w
  return w

/-- A name that may also be that of an end of a line. -/
def reference : Parser String := do
  let name ← declared
  let tail ← Parser.optional ((suffix ".start").orElse (suffix ".end"))
  return name ++ tail.getD ""

end Label

namespace Parser

/-- A mark with free space around it. -/
def mark (w : String) : Parser Unit := do
  spaces
  word w
  spaces

/-- The closing bracket; what follows it is not its own. -/
def close : Parser Unit := do
  spaces
  word ")"

/-- `= number` -/
def equals : Parser Float := do
  mark "="
  Numeral.number

/-- One reference in brackets. -/
def argument : Parser String := do
  mark "("
  let a ← Label.reference
  close
  return a

/-- Two references in brackets. -/
def arguments : Parser (String × String) := do
  mark "("
  let a ← Label.reference
  mark ","
  let b ← Label.reference
  close
  return (a, b)

/-- Two numbers in brackets. -/
def coordinates : Parser (Float × Float) := do
  word "("
  spaces
  let x ← Numeral.number
  mark ","
  let y ← Numeral.number
  close
  return (x, y)

end Parser

namespace Spot

def coordinates? : Parser Spot := do
  let (x, y) ← Parser.coordinates
  return .coordinates x y

def named? : Parser Spot := do
  return .named (← Label.reference)

def parser : Parser Spot := coordinates?.orElse named?

end Spot

namespace Declaration

def point? : Parser Declaration := do
  Parser.word "point"
  Parser.gap
  let label ← Label.declared
  Parser.spaces
  let (x, y) ← Parser.coordinates
  return .point label x y

def line? : Parser Declaration := do
  Parser.word "line"
  Parser.gap
  let label ← Label.declared
  Parser.gap
  let start ← Spot.parser
  Parser.gap
  let finish ← Spot.parser
  return .line label start finish

/-- `point p (0, 0)`, or `line l` with two ends, each a pair of coordinates or the name of a
point. -/
def parser : Parser Declaration := point?.orElse line?

end Declaration

namespace Requirement

def fixed? : Parser Requirement := do
  Parser.word "fixed"
  return .fixed (← Parser.argument)

def length? : Parser Requirement := do
  Parser.word "length"
  let line ← Parser.argument
  return .length line (← Parser.equals)

def angle? : Parser Requirement := do
  Parser.word "angle"
  let (a, b) ← Parser.arguments
  return .angle a b (← Parser.equals)

def distance? : Parser Requirement := do
  Parser.word "distance"
  let (a, b) ← Parser.arguments
  return .distance a b (← Parser.equals)

/-- `fixed(p)`, `length(l) = 3`, `angle(l, m) = -90` or `distance(p, q) = 5`. Spaces and tabs are
free inside the brackets and around commas and signs. -/
def parser : Parser Requirement := fixed?.orElse (length?.orElse (angle?.orElse distance?))

end Requirement

end PlaneSketch
