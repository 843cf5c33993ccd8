import PlaneSketch.Problem.Edit
import PlaneSketch.Sketch.Basic

namespace PlaneSketch

def Spot.resolve : Spot → Edit Endpoint
  | .coordinates x y => return .fresh x y
  | .named label => do return .shared (← (← get).point label)

def Declaration.apply : Declaration → Edit Unit
  | .point label x y => do
    let _ ← Problem.addPoint label x y
  | .line label start finish => do
    Problem.addLine label (← start.resolve) (← finish.resolve)

def Requirement.apply : Requirement → Edit Unit
  | .fixed label => Problem.pin label
  | .length l target => Problem.constrainLength l target
  | .angle a b target => Problem.constrainAngle a b target
  | .distance a b target => Problem.constrainDistance a b target

def Instruction.apply : Instruction → Edit Unit
  | .declare d => d.apply
  | .require r => r.apply

def Instruction.applyAll : List Instruction → Edit Unit
  | [] => return
  | i :: rest => do
    i.apply
    applyAll rest

/-- The problem that the sketch describes, or the first error on the way to it. -/
def Sketch.build (s : Sketch) : Except Error Problem :=
  match (Instruction.applyAll s.instructions).run.run .empty with
  | (.ok (), p) => .ok p
  | (.error e, _) => .error e

end PlaneSketch
