import PlaneSketch.Problem.Names

namespace PlaneSketch

/-- An edit first checks all that may be wrong and only then begins to write. One that fails hands
on the problem in whatever state it has reached, so that it leaves the problem as it was is a law of
the edits and not of the way they are run. -/
abbrev Edit := ExceptT Error (StateM Problem)

namespace Problem

def checkFree (name : String) : Edit Unit := do
  if ((← get).find? name).isSome then throw (.duplicateName name)

def checkKnown (id : PointId) : Edit Unit := do
  if !(← get).points.contains id then throw (.unknownPoint id)

/-- The name of an end is taken even where an existing point is shared. -/
def checkEndpoint (name : String) (e : Endpoint) : Edit Unit := do
  checkFree name
  match e with
  | .fresh x y =>
    Parameter.checkFinite x
    Parameter.checkFinite y
  | .shared id => checkKnown id

def insertPoint (point : Point) : Edit PointId := do
  let (id, points) ← (← get).points.insert point
  modify ({ · with points })
  return id

def register (name : String) (q : Primitive) : Edit Unit :=
  modify fun p => { p with primitives := p.primitives ++ [(name, q)] }

/-- The point where a line ends; a new one gets this name. -/
def resolveEndpoint (name : String) : Endpoint → Edit PointId
  | .fresh x y => do insertPoint (← Point.new name x y)
  | .shared id => return id

def addPoint (name : String) (x y : Float) : Edit PointId := do
  checkFree name
  let id ← insertPoint (← Point.new name x y)
  register name (.point id)
  modify invalidate
  return id

/-- Registers a line. Ends at new coordinates become points of the arena. -/
def addLine (name : String) (start finish : Endpoint) : Edit Unit := do
  checkFree name
  checkEndpoint (startName name) start
  checkEndpoint (finishName name) finish
  let s ← resolveEndpoint (startName name) start
  let f ← resolveEndpoint (finishName name) finish
  register name (.line ⟨s, f⟩)
  modify invalidate

def addConstraint (constraint : Constraint) (names : List String) : Edit Unit :=
  modify fun p => { p with constraints := p.constraints ++ [⟨constraint, names⟩] }

def constrainLength (name : String) (length : Float) : Edit Unit := do
  let line ← (← get).line name
  addConstraint (← Constraint.newLineLength line length) [name]

/-- The signed angle from line `a` to line `b` should be this many degrees. -/
def constrainAngle (a b : String) (degrees : Float) : Edit Unit := do
  let lineA ← (← get).line a
  let lineB ← (← get).line b
  addConstraint (← Constraint.newLineAngle lineA lineB degrees) [a, b]

def constrainDistance (a b : String) (distance : Float) : Edit Unit := do
  let pointA ← (← get).point a
  let pointB ← (← get).point b
  addConstraint (← Constraint.newPointDistance pointA pointB distance) [a, b]

/-- Pins the position of the named primitive. Its parameters' own flags stay as they are. -/
def pin (name : String) : Edit Unit := do
  let params ← (← get).paramsOf name
  modify fun p => invalidate { p with pinned := (p.pinned ++ params).eraseDups }

/-- Undoes `pin`. Parameters that are fixed by their own flags stay fixed. -/
def release (name : String) : Edit Unit := do
  let params ← (← get).paramsOf name
  modify fun p => invalidate { p with pinned := p.pinned.filter (!params.contains ·) }

def updateParam (q : ParamId) (f : Parameter → Except Error Parameter) : Edit Unit := do
  let r ← f (← (← get).parameter q)
  modify fun p => { p with points := p.points.modifyParam q fun _ => r }

def updateParams (f : Parameter → Except Error Parameter) : List ParamId → Edit Unit
  | [] => return
  | q :: rest => do
    updateParam q f
    updateParams f rest

/-- Sets the own flags of all parameters of the named primitive. Pinned positions stay pinned. -/
def setFixed (name : String) (fixed : Bool) : Edit Unit := do
  updateParams (fun r => .ok (r.setFixed fixed)) (← (← get).paramsOf name)
  modify invalidate

/-- Moves the named point, whether it is fixed or not. -/
def move (name : String) (x y : Float) : Edit Unit := do
  let id ← (← get).point name
  Parameter.checkFinite x
  Parameter.checkFinite y
  updateParam ⟨id, .x⟩ (·.set x)
  updateParam ⟨id, .y⟩ (·.set y)
  modify invalidate

/-- Edits one parameter directly. An edit that fails ends the list, but the edit as a whole has
taken place, since the ones before it stay. -/
def editParameter (q : ParamId) (changes : List Parameter.Change) : Edit (Except Error Unit) := do
  let r ← (← get).parameter q
  let (result, r) := Parameter.apply changes r
  modify fun p => { p.invalidate with points := p.points.modifyParam q fun _ => r }
  return result

end Problem

end PlaneSketch
