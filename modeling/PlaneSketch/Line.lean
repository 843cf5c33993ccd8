import PlaneSketch.Angle
import PlaneSketch.Arena

namespace PlaneSketch

/-- A segment from `start` to `finish`. Lines that share a point hold the same handle. -/
structure Line where
  start : PointId
  finish : PointId
deriving Repr, DecidableEq

namespace Line

def handles (l : Line) : List PointId := [l.start, l.finish]

def vector? (l : Line) (a : Arena) : Option Vec := do
  let start ← a.position? l.start
  let finish ← a.position? l.finish
  return finish - start

end Line

/-- What is registered under a name, by the handles of its points. -/
inductive Primitive where
  | point (id : PointId)
  | line (line : Line)
deriving Repr, DecidableEq

namespace Primitive

def kind : Primitive → String
  | point _ => "point"
  | line _ => "line"

def handles : Primitive → List PointId
  | point id => [id]
  | line l => l.handles

def asLine? : Primitive → Option Line
  | point _ => none
  | line l => some l

def asPoint? : Primitive → Option PointId
  | point id => some id
  | line _ => none

end Primitive

/-- Where a new line ends: at a new point, or at one that exists already. -/
inductive Endpoint where
  | fresh (x y : Float)
  | shared (id : PointId)

/-- A line under its name, with its two ends read out of the arena. -/
structure LineView where
  name : String
  line : Line
  start : Point
  finish : Point
deriving DecidableEq

namespace LineView

def vector (v : LineView) : Vec := v.finish.position - v.start.position

def length (v : LineView) : Float := v.vector.length

def direction (v : LineView) : Float := Angle.direction v.vector

def angleTo (v w : LineView) : Float := Angle.between v.vector w.vector

def isFixed (v : LineView) : Bool := v.start.isFixed && v.finish.isFixed

def invalid? (v : LineView) : Option Invalid :=
  if v.vector.isShort then some ⟨v.name, .zeroLength⟩ else none

end LineView

/-- What there is to see of a primitive: its points, read out of the arena. -/
inductive View where
  | point (id : PointId) (point : Point)
  | line (line : LineView)

namespace View

/-- The name that the primitive is registered under. -/
def name : View → String
  | point _ p => p.name
  | line l => l.name

def primitive : View → Primitive
  | point id _ => .point id
  | line l => .line l.line

/-- Are all coordinates fixed by their own flags? -/
def isFixed : View → Bool
  | point _ p => p.isFixed
  | line l => l.isFixed

def invalid? : View → Option Invalid
  | point _ _ => none
  | line l => l.invalid?

end View

/-- Reads a line's ends out of the arena. There is no view of a line that the arena lacks. -/
def Line.view? (l : Line) (name : String) (a : Arena) : Option LineView := do
  let start ← a.get? l.start
  let finish ← a.get? l.finish
  return ⟨name, l, start, finish⟩

/-- Reads a primitive's points out of the arena. A point goes by the name it has there. -/
def Primitive.view? (p : Primitive) (name : String) (a : Arena) : Option View :=
  match p with
  | .point id => (a.get? id).map (.point id)
  | .line l => (l.view? name a).map .line

theorem Line.vector?_eq_view? (l : Line) (name : String) (a : Arena) :
    l.vector? a = (l.view? name a).map LineView.vector := by
  unfold vector? view? Arena.position?
  cases a.get? l.start <;> cases a.get? l.finish <;> rfl

end PlaneSketch
