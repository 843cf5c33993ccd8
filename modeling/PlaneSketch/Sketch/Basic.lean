import PlaneSketch.Handle

namespace PlaneSketch

/-- Where a declared line ends. -/
inductive Spot where
  | coordinates (x y : Float)
  /-- At a point that has this name. -/
  | named (label : String)
deriving DecidableEq

inductive Declaration where
  | point (label : String) (x y : Float)
  | line (label : String) (start finish : Spot)
deriving DecidableEq

inductive Requirement where
  /-- The primitive stays where it is. -/
  | fixed (label : String)
  | length (line : String) (length : Float)
  | angle (a b : String) (degrees : Float)
  | distance (a b : String) (distance : Float)
deriving DecidableEq

/-- What a text declares and asks for, by name. All declarations come before all requirements. -/
structure Sketch where
  declarations : List Declaration
  requirements : List Requirement
deriving DecidableEq

/-- One line of a sketch. -/
inductive Instruction where
  | declare (d : Declaration)
  | require (r : Requirement)
deriving DecidableEq

/-- The lines of a sketch, in order. -/
def Sketch.instructions (s : Sketch) : List Instruction :=
  s.declarations.map .declare ++ s.requirements.map .require

end PlaneSketch
