import PlaneSketch.Sketch.Parser

namespace PlaneSketch.Numeral

def ofDigits (digits : List Char) : Nat :=
  digits.foldl (fun n d => 10 * n + (d.toNat - '0'.toNat)) 0

/-- The double nearest to `digits * 10 ^ exponent`. -/
def decimal (digits : List Char) (exponent : Int) : Float :=
  Float.ofScientific (ofDigits digits) (exponent < 0) exponent.natAbs

def isSign (c : Char) : Bool := c == '+' || c == '-'

def digits : Parser (List Char) := Parser.oneOrMore Char.isDigit

/-- Once its mark is there, an exponent must be complete. -/
def exponent : Parser Int := do
  match ← Parser.peek with
  | some 'e' | some 'E' =>
    let _ ← Parser.one fun _ => true
    let sign ← Parser.optional (Parser.one isSign)
    let size := ofDigits (← digits)
    return if sign = some '-' then -size else size
  | _ => return 0

/-- A decimal with an optional fraction and exponent, or infinity. -/
def magnitude : Parser Float := do
  match ← Parser.peek with
  | some 'i' | some 'I' =>
    Parser.anyCase "inf"
    let _ ← Parser.optional (Parser.anyCase "inity")
    return 1 / 0
  | some '.' =>
    Parser.word "."
    let fraction ← digits
    let e ← exponent
    return decimal fraction (e - fraction.length)
  | _ =>
    let whole ← digits
    let fraction ← Parser.optional do
      Parser.word "."
      Parser.zeroOrMore Char.isDigit
    let fraction := fraction.getD []
    let e ← exponent
    return decimal (whole ++ fraction) (e - fraction.length)

/-- A decimal or infinity with an optional sign, or NaN without one. Words may be in letters of
either case. -/
def number : Parser Float := do
  match ← Parser.peek with
  | some 'n' | some 'N' =>
    Parser.anyCase "nan"
    return 0 / 0
  | some '+' =>
    Parser.word "+"
    magnitude
  | some '-' =>
    Parser.word "-"
    return -(← magnitude)
  | _ => magnitude

end PlaneSketch.Numeral
