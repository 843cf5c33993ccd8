namespace PlaneSketch

/-- A point, by its place in the order in which points were added. -/
structure PointId where
  index : Nat
deriving Repr, DecidableEq

namespace PointId

def text (id : PointId) : String := "point#" ++ toString id.index

end PointId

inductive Axis where
  | x
  | y
deriving Repr, DecidableEq

namespace Axis

def text : Axis → String
  | x => "x"
  | y => "y"

end Axis

/-- One coordinate of a point, whatever its value. -/
structure ParamId where
  point : PointId
  axis : Axis
deriving Repr, DecidableEq

namespace ParamId

def both (point : PointId) : List ParamId := [⟨point, .x⟩, ⟨point, .y⟩]

theorem mem_both {q : ParamId} {id : PointId} : q ∈ both id ↔ q.point = id := by
  obtain ⟨point, axis⟩ := q
  cases axis <;> simp [both]

/-- The coordinates of all these points, each once, in order of first appearance. -/
def ofPoints (ids : List PointId) : List ParamId := (ids.flatMap both).eraseDups

theorem mem_ofPoints {q : ParamId} {ids : List PointId} : q ∈ ofPoints ids ↔ q.point ∈ ids := by
  simp [ofPoints, List.mem_eraseDups, List.mem_flatMap, mem_both]

end ParamId

end PlaneSketch
