import PlaneSketch.Number.Arctan
import PlaneSketch.Number.Binary
import PlaneSketch.Vector

namespace PlaneSketch

namespace Angle

section
variable {α : Type} [Add α] [Sub α] [Neg α] [LE α] [DecidableLE α] [OfNat α 180] [OfNat α 360]

/-- Brings an angle into `(-180, 180]`, given the remainder that lies in `[0, 360)`. Odd multiples
of 180 come out of the remainder at the wrong end. The rule is for any kind of number, so that it
can be read over doubles and over exact rationals. -/
def normalizeBy (remainder : α → α → α) (angle : α) : α :=
  let wrapped := remainder (angle + 180) 360 - 180
  if wrapped ≤ -180 then wrapped + 360 else wrapped

end

/-- Brings an angle into `(-180, 180]`. NaN stays NaN. -/
def normalize (angle : Float) : Float :=
  normalizeBy Number.remainderFromZero angle

/-- Radians to degrees; the factor is the double nearest to `180 / π`. -/
def ofRadians (radians : Float) : Float :=
  radians * Float.ofBits 0x404CA5DC1A63C1F8

/-- Direction of a vector, from the positive y axis towards the positive x axis. -/
def direction (v : Vec) : Float :=
  normalize (ofRadians (Number.arctan2 v.x v.y))

/-- Signed angle from the direction of `a` to that of `b`. NaN if one of them has no direction. -/
def between (a b : Vec) : Float :=
  if a.isShort || b.isShort then 0 / 0
  else normalize (ofRadians (Number.arctan2 (b.cross a) (a.dot b)))

end Angle

end PlaneSketch
