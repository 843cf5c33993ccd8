import PlaneSketch.Problem.Basic

namespace PlaneSketch

def Parameter.text (p : Parameter) : String :=
  "Parameter(" ++ Number.text p.value ++ ", " ++ (if p.fixed then "fixed" else "free") ++ ")"

def Point.text (p : Point) : String :=
  "Point(" ++ p.name ++ ", (" ++ Number.text p.x.value ++ ", " ++ Number.text p.y.value ++ "))"

def LineView.text (v : LineView) : String :=
  "Line(" ++ v.name ++ ", [" ++ v.start.text ++ ", " ++ v.finish.text ++ "])"

def View.text : View → String
  | .point _ p => p.text
  | .line l => l.text

/-- One constraint, with what is measured for it and what its error is. -/
def Declared.text (d : Declared) (arena : Arena) : String :=
  let number (x : Option Float) := Number.text (x.getD (0 / 0))
  "  " ++ d.constraint.kind ++ "(" ++ ", ".intercalate d.names ++ "): value " ++
    number (d.constraint.value? arena) ++ ", target " ++ Number.text d.constraint.target ++
    ", error " ++ number (d.constraint.error? arena)

/-- A heading, a line for each constraint, and the total error. -/
def Problem.describe : StateM Problem String := do
  let free ← freeParameters
  let p ← get
  let heading := "Problem with " ++ toString free.length ++ " free parameter(s) and " ++
    toString p.constraints.length ++ " constraint(s)"
  let total := "Total error: " ++ Number.text p.error
  return "\n".intercalate (heading :: p.constraints.map (·.text p.points) ++ [total])

end PlaneSketch
