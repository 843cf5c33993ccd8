import PlaneSketch.Problem.Basic

namespace PlaneSketch.Problem

def startName (line : String) : String := line ++ ".start"

def finishName (line : String) : String := line ++ ".end"

def registered? (p : Problem) (name : String) : Option Primitive := p.primitives.lookup name

def endOf? (name line : String) (l : Line) : Option PointId :=
  if name = startName line then some l.start
  else if name = finishName line then some l.finish
  else none

def lineEnd? (p : Problem) (name : String) : Option PointId :=
  p.primitives.findSome? fun (line, q) => q.asLine?.bind (endOf? name line)

/-- A registered point or line is found under its name, and so is every point under the name it has
in the arena. The ends of a line `l` are also called `l.start` and `l.end`, even where another
primitive shares them. -/
def find? (p : Problem) (name : String) : Option Primitive :=
  p.registered? name <|> ((p.points.idOf? name <|> p.lineEnd? name).map .point)

def lookup (p : Problem) (name : String) : Except Error Primitive :=
  match p.find? name with
  | some q => .ok q
  | none => .error (.notFound name)

def line (p : Problem) (name : String) : Except Error Line := do
  match (← p.lookup name).asLine? with
  | some l => return l
  | none => throw (.notALine name)

def point (p : Problem) (name : String) : Except Error PointId := do
  match (← p.lookup name).asPoint? with
  | some id => return id
  | none => throw (.notAPoint name)

def paramsOf (p : Problem) (name : String) : Except Error (List ParamId) := do
  return ParamId.ofPoints (← p.lookup name).handles

/-- Are all parameters of the named primitive fixed, in whichever way? -/
def isFixed (p : Problem) (name : String) : Except Error Bool := do
  return (← p.paramsOf name).all p.isParamFixed

def parameter (p : Problem) (q : ParamId) : Except Error Parameter :=
  match p.points.param? q with
  | some r => .ok r
  | none => .error (.unknownPoint q.point)

def view (p : Problem) (name : String) : Except Error View := do
  match (← p.lookup name).view? name p.points with
  | some v => return v
  | none => throw (.notFound name)

def lineView (p : Problem) (name : String) : Except Error LineView := do
  match (← p.line name).view? name p.points with
  | some v => return v
  | none => throw (.notFound name)

def views (p : Problem) : List View :=
  p.primitives.filterMap fun (name, q) => q.view? name p.points

/-- All primitives that cannot be solved, oldest first. -/
def invalid (p : Problem) : List Invalid := p.views.filterMap View.invalid?

def validate (p : Problem) : Except Error Unit :=
  if p.invalid.isEmpty then .ok () else .error (.invalidGeometry p.invalid)

end PlaneSketch.Problem
