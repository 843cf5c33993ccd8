import PlaneSketch.Line

namespace PlaneSketch

/-- What a quantity of the geometry should be. The third kind's error is a plain difference and the
others' a squared one; an angle's error is relative to its target, and so undefined for a target of
zero. -/
inductive Constraint where
  | lineLength (line : Line) (length : Float)
  /-- The signed angle from the first line to the second should be this many degrees. -/
  | lineAngle (a b : Line) (degrees : Float)
  | pointDistance (a b : PointId) (distance : Float)
deriving DecidableEq

namespace Constraint

/-- Can this be a length? Minus zero can, NaN cannot. -/
def isLength (value : Float) : Bool := 0 ≤ value && !value.isInf

def newLineLength (line : Line) (length : Float) : Except Error Constraint :=
  if isLength length then .ok (.lineLength line length)
  else .error (.invalidConstraint (.lineLength length))

/-- An angle is finite, and is kept in `(-180, 180]`. -/
def newLineAngle (a b : Line) (degrees : Float) : Except Error Constraint :=
  if degrees.isFinite then .ok (.lineAngle a b (Angle.normalize degrees))
  else .error (.invalidConstraint (.angle degrees))

def newPointDistance (a b : PointId) (distance : Float) : Except Error Constraint :=
  if isLength distance then .ok (.pointDistance a b distance)
  else .error (.invalidConstraint (.distance distance))

def kind : Constraint → String
  | lineLength .. => "LineLength"
  | lineAngle .. => "LineAngle"
  | pointDistance .. => "PointDistance"

def target : Constraint → Float
  | lineLength _ length => length
  | lineAngle _ _ degrees => degrees
  | pointDistance _ _ distance => distance

/-- The primitives that the constraint speaks of, in order. -/
def primitives : Constraint → List Primitive
  | lineLength line _ => [.line line]
  | lineAngle a b _ => [.line a, .line b]
  | pointDistance a b _ => [.point a, .point b]

/-- The points of those primitives; shared points are repeated. -/
def handles (c : Constraint) : List PointId := c.primitives.flatMap Primitive.handles

def params (c : Constraint) : List ParamId := ParamId.ofPoints c.handles

/-- The quantity that the constraint speaks of. It needs all the points in the arena. -/
def value? (c : Constraint) (arena : Arena) : Option Float :=
  match c with
  | lineLength line _ => (line.vector? arena).map Vec.length
  | lineAngle a b _ => do return Angle.between (← a.vector? arena) (← b.vector? arena)
  | pointDistance a b _ => do return ((← arena.position? a) - (← arena.position? b)).length

/-- How far a value is from the target. It is NaN or infinite where the value or the relative
error is undefined. -/
def deviation (c : Constraint) (value : Float) : Float :=
  match c with
  | lineLength _ length => let d := value - length; d * d
  | lineAngle _ _ degrees => let d := (value - degrees) / degrees; d * d
  | pointDistance _ _ distance => (value - distance).abs

def error? (c : Constraint) (arena : Arena) : Option Float := (c.value? arena).map c.deviation

/-- The sum of all errors. An error that cannot be read counts as NaN. -/
def totalError (constraints : List Constraint) (arena : Arena) : Float :=
  Number.sum (constraints.map fun c => (c.error? arena).getD (0 / 0))

end Constraint

end PlaneSketch
