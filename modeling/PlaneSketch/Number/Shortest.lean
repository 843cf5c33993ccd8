import PlaneSketch.Number.Binary

namespace PlaneSketch.Number

structure Decimal where
  digits : Nat
  exponent : Int
deriving Repr, DecidableEq

namespace Binary

/-- A quarter of the value's last place, as a fraction of the step `10 ^ grid`. -/
def quarter (b : Binary) (grid : Int) : Nat × Nat :=
  (Nat.pow 10 (-grid).toNat <<< (b.exponent - 2).toNat,
    Nat.pow 10 grid.toNat <<< (2 - b.exponent).toNat)

/-- Lower end of the interval that rounds to the value, in quarters of its last place. -/
def lower (b : Binary) : Nat :=
  if b.narrowBelow then 4 * b.mantissa - 1 else 4 * b.mantissa - 2

/-- Upper end of the interval that rounds to the value, in quarters of its last place. -/
def upper (b : Binary) : Nat :=
  4 * b.mantissa + 2

/-- Does the decimal round to the value? The ends count only for an even mantissa, since ties go
to the even neighbour. -/
def readsBack (b : Binary) (d : Decimal) : Bool :=
  let (num, den) := b.quarter d.exponent
  let place := d.digits * den
  if b.mantissa % 2 = 0 then b.lower * num ≤ place && place ≤ b.upper * num
  else b.lower * num < place && place < b.upper * num

/-- The point of the grid `10 ^ grid` nearest to the value, if it reads back. Of two equally near
points the upper one is taken. -/
def onGrid? (b : Binary) (grid : Int) : Option Decimal :=
  let (num, den) := b.quarter grid
  let steps := 4 * b.mantissa * num / den
  let below : Decimal := ⟨steps, grid⟩
  let above : Decimal := ⟨steps + 1, grid⟩
  match b.readsBack below, b.readsBack above with
  | true, true => if 8 * b.mantissa * num < (2 * steps + 1) * den then some below else some above
  | true, false => some below
  | false, true => some above
  | false, false => none

/-- A power of ten above the value. -/
def topGrid (b : Binary) : Int :=
  Int.fdiv ((b.mantissa.log2 + b.exponent) * 30103) 100000 + 2

def exact (b : Binary) : Decimal :=
  if 0 ≤ b.exponent then ⟨b.mantissa <<< b.exponent.toNat, 0⟩
  else ⟨b.mantissa * Nat.pow 5 (-b.exponent).toNat, b.exponent⟩

/-- The fewest digits that read back to a value above zero. All the reals that round to one double
form an interval around it, so the coarsest decimal grid with a point in that interval has the
fewest. Seventeen digits always suffice. -/
def shortest (b : Binary) : Decimal :=
  ((List.range 21).findSome? fun i : Nat => b.onGrid? (b.topGrid - i)).getD b.exact

end Binary

/-- Digits with a decimal point and without an exponent; a whole number has no point. -/
def Decimal.positional (d : Decimal) : String :=
  let digits := toString d.digits
  let places := (-d.exponent).toNat
  if 0 ≤ d.exponent then digits ++ String.ofList (List.replicate d.exponent.toNat '0')
  else if places < digits.length then
    String.ofList (digits.toList.take (digits.length - places)) ++ "." ++
      String.ofList (digits.toList.drop (digits.length - places))
  else "0." ++ String.ofList (List.replicate (places - digits.length) '0') ++ digits

/-- The text of a double: the fewest digits that read back to it, written without an exponent. Zero
keeps its sign; NaN has none. -/
def text (x : Float) : String :=
  if x.isNaN then "NaN"
  else if x.isInf then (if x < 0 then "-inf" else "inf")
  else
    let b := Binary.ofFloat x
    let size := if b.mantissa = 0 then "0" else b.shortest.positional
    if b.negative then "-" ++ size else size

end PlaneSketch.Number
