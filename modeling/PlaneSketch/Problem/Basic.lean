import PlaneSketch.Constraint

namespace PlaneSketch

structure Declared where
  constraint : Constraint
  names : List String
deriving DecidableEq

/-- Named primitives and the constraints between them. The list of free parameters is kept until an
edit may have changed it; the generation counts those edits. -/
structure Problem where
  points : Arena
  /-- Registered points and lines by name, oldest first. -/
  primitives : List (String × Primitive)
  constraints : List Declared
  /-- Parameters whose position is pinned, apart from their own fixed flags. -/
  pinned : List ParamId
  /-- How often the list of free parameters was given up. -/
  generation : Nat
  /-- The free parameters, if they are known. -/
  knownFree : Option (List ParamId)
deriving DecidableEq

namespace Problem

def empty : Problem := ⟨.empty, [], [], [], 0, none⟩

def isParamFixed (p : Problem) (q : ParamId) : Bool :=
  p.pinned.contains q || (p.points.param? q).any Parameter.fixed

/-- The coordinates of all registered primitives, each once, without the fixed ones. -/
def computeFree (p : Problem) : List ParamId :=
  (ParamId.ofPoints (p.primitives.flatMap fun (_, q) => q.handles)).filter (!p.isParamFixed ·)

/-- The parameters that a solve may vary, in order of registration. -/
def free (p : Problem) : List ParamId := p.knownFree.getD p.computeFree

def invalidate (p : Problem) : Problem :=
  { p with knownFree := none, generation := p.generation + 1 }

/-- Reads the free parameters, and keeps them for the next reader. -/
def freeParameters : StateM Problem (List ParamId) := fun p =>
  (p.free, { p with knownFree := some p.free })

def constraintList (p : Problem) : List Constraint := p.constraints.map Declared.constraint

/-- The sum of all constraints' errors, for the values as they are. -/
def error (p : Problem) : Float := Constraint.totalError p.constraintList p.points

end Problem

end PlaneSketch
