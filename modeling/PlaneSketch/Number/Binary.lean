namespace PlaneSketch.Number

/-- The finite double `± mantissa * 2 ^ exponent`. Texts and remainders are computed on this form,
in whole numbers, so that nothing is rounded on the way. -/
structure Binary where
  negative : Bool
  mantissa : Nat
  exponent : Int
  /-- The gap to the double below is half the gap to the double above. -/
  narrowBelow : Bool
deriving Repr, DecidableEq

/-- The bit of a normal double's mantissa that is not stored, `2 ^ 52`. -/
def leadingBit : Nat := 1 <<< 52

/-- Reads the bits of a finite double. Infinities and NaN have no such form: test for them first. -/
def Binary.ofFloat (x : Float) : Binary :=
  let bits := x.toBits.toNat
  let negative := bits.testBit 63
  let field := (bits >>> 52) % 2048
  let fraction := bits % leadingBit
  if field = 0 then ⟨negative, fraction, -1074, false⟩
  else ⟨negative, leadingBit + fraction, (field : Int) - 1075, fraction = 0 && 1 < field⟩

/-- The double `± mantissa * 2 ^ exponent`, exact whenever the mantissa is below `2 ^ 53`, the
exponent is at least `-1074` and the value is finite. -/
def ofParts (negative : Bool) (mantissa : Nat) (exponent : Int) : Float :=
  let shift := min (52 - mantissa.log2) (exponent + 1074).toNat
  let whole := mantissa <<< shift
  let field := if whole < leadingBit then 0 else (exponent - shift + 1075).toNat
  let sign := if negative then 1 <<< 63 else 0
  Float.ofBits (UInt64.ofNat (sign + (field <<< 52) + whole % leadingBit))

/-- What is left of `a` after taking away whole multiples of `b`, with the sign of `a`. It is a
double again, so both numbers are brought to one power of two and divided as whole numbers. There is
no remainder for an infinite `a` or a zero `b`. -/
def remainder (a b : Float) : Float :=
  if a.isFinite && !b.isNaN && b != 0 then
    if b.isInf then a
    else
      let x := Binary.ofFloat a
      let y := Binary.ofFloat b
      let e := min x.exponent y.exponent
      let wholeX := x.mantissa <<< (x.exponent - e).toNat
      let wholeY := y.mantissa <<< (y.exponent - e).toNat
      ofParts x.negative (wholeX % wholeY) e
  else 0 / 0

/-- The remainder moved into `[0, b)` for a positive `b`. The move is a rounded addition. -/
def remainderFromZero (a b : Float) : Float :=
  let r := remainder a b
  if r < 0 then r + b.abs else r

/-- The sum, left to right. It starts from minus zero, to which any double may be added without
changing it; so the sum of nothing is minus zero. -/
def sum (xs : List Float) : Float := xs.foldl (· + ·) (-0.0)

end PlaneSketch.Number
