namespace PlaneSketch.Number

/-- `x * x` as a rounded square and the error of the rounding. -/
def splitSquare (x : Float) : Float × Float :=
  let c := x * 134217729
  let h := x - c + c
  let l := x - h
  let square := x * x
  (square, h * h - square + 2 * h * l + l * l)

/-- `2 ^ 700` -/
def huge : Float := Float.ofBits 0x6BB0000000000000

/-- `2 ^ -700` -/
def tiny : Float := Float.ofBits 0x1430000000000000

def exponentField (x : Float) : Nat := x.toBits.toNat >>> 52

/-- `scale * sqrt (x * x + y * y)` -/
def hypotScaled (scale x y : Float) : Float :=
  let (squareX, errorX) := splitSquare x
  let (squareY, errorY) := splitSquare y
  scale * (errorY + errorX + squareY + squareX).sqrt

/-- The length of the vector whose sides are `x` and `y`, for `x ≥ y ≥ 0`. -/
def hypotOrdered (x y : Float) : Float :=
  let ex := exponentField x
  let ey := exponentField y
  if ey = 0x7FF then y
  else if ex = 0x7FF || y == 0 then x
  else if ey + 64 < ex then x + y
  else if 0x3FF + 510 < ex then hypotScaled huge (x * tiny) (y * tiny)
  else if ey < 0x3FF - 450 then hypotScaled tiny (x * huge) (y * huge)
  else hypotScaled 1 x y

/-- The length of the vector `(x, y)`, to the last place. Squares are split into a rounded part and
its error, and very long or short sides are scaled first. -/
def hypot (x y : Float) : Float :=
  let x := x.abs
  let y := y.abs
  if x.toBits < y.toBits then hypotOrdered y x else hypotOrdered x y

end PlaneSketch.Number
