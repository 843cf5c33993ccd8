namespace PlaneSketch.Number

def pi : Float := Float.ofBits 0x400921FB54442D18

/-- What `pi` lacks of half a turn. -/
def piRest : Float := Float.ofBits 0x3CA1A62633145C07

/-- The upper half of a double's bits, without the sign: its size to about a millionth. -/
def size (x : Float) : Nat := x.abs.toBits.toNat >>> 32

/-- Is the sign bit set? Minus zero counts as negative. -/
def isNegative (x : Float) : Bool := x.toBits.toNat.testBit 63

/-- `magnitude` with the sign of `x`. -/
def withSignOf (x magnitude : Float) : Float := if isNegative x then -magnitude else magnitude

/-- `c₀ + w * (c₁ + w * (c₂ + …))` -/
def polynomial (w : Float) (coefficients : List UInt64) : Float :=
  coefficients.foldr (fun c rest => Float.ofBits c + w * rest) 0

/-- What the angle lacks of its tangent, relative to the tangent, for tangents below 0.44. -/
def arctanDefect (t : Float) : Float :=
  let z := t * t
  let w := z * z
  z * polynomial w [0x3FD555555555550D, 0x3FC24924920083FF, 0x3FB745CDC54C206E,
      0x3FB10D66A0D03D51, 0x3FA97B4B24760DEB, 0x3F90AD3AE322DA11] +
    w * polynomial w [0xBFC999999998EBC4, 0xBFBC71C6FE231671, 0xBFB3B0F2AF749A6D,
      0xBFADDE2D52DEFD9A, 0xBFA2B4442C6A6C2F]

/-- The angle with tangent `t`, measured from a known angle that is given in two parts. -/
def arctanFrom (known knownRest : UInt64) (t : Float) : Float :=
  Float.ofBits known - (t * arctanDefect t - Float.ofBits knownRest - t)

/-- The angle, in radians, whose tangent is `x ≥ 0`. The tangent is brought near zero by taking away
one of four known angles, and a polynomial gives the rest. -/
def arctanUpper (x : Float) : Float :=
  if 0x44100000 ≤ size x then pi / 2
  else if size x < 0x3E400000 then x
  else if size x < 0x3FDC0000 then x - x * arctanDefect x
  else if size x < 0x3FE60000 then
    arctanFrom 0x3FDDAC670561BB4F 0x3C7A2B7F222F65E2 ((2 * x - 1) / (2 + x))
  else if size x < 0x3FF30000 then
    arctanFrom 0x3FE921FB54442D18 0x3C81A62633145C07 ((x - 1) / (x + 1))
  else if size x < 0x40038000 then
    arctanFrom 0x3FEF730BD281F69B 0x3C7007887AF0CBBD ((x - 1.5) / (1 + 1.5 * x))
  else arctanFrom 0x3FF921FB54442D18 0x3C91A62633145C07 (-1 / x)

/-- The angle of the vector `(x, y)` from the positive x axis, for `y ≥ 0`. -/
def angleUpper (y x : Float) : Float :=
  if y == 0 then (if isNegative x then pi else 0)
  else if x == 0 then pi / 2
  else if x.isInf then
    if y.isInf then (if isNegative x then 3 * pi / 4 else pi / 4)
    else if isNegative x then pi else 0
  else if size x + 0x04000000 < size y || y.isInf then pi / 2
  else if isNegative x then
    let z := if size y + 0x04000000 < size x then 0 else arctanUpper (y / x).abs
    pi - (z - piRest)
  else arctanUpper (y / x).abs

/-- The angle of the vector `(x, y)` from the positive x axis, in radians, with the sign of `y`. -/
def arctan2 (y x : Float) : Float :=
  if x.isNaN || y.isNaN then 0 / 0 else withSignOf y (angleUpper y.abs x)

end PlaneSketch.Number
