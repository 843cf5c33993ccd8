import PlaneSketch.Sketch.Item
import PlaneSketch.Sketch.SignificantLine

namespace PlaneSketch

namespace Sketch

def requirementsOf : List SignificantLine → Except TextError (List Requirement)
  | [] => return []
  | line :: rest => do
    let r ← line.read .constraints Requirement.parser
    return r :: (← requirementsOf rest)

def afterGeometry : List SignificantLine → Except TextError Sketch
  | [] => throw (.missingHeader .constraints)
  | line :: rest => do
    if line.isHeader .constraints then
      return ⟨[], ← requirementsOf rest⟩
    else
      let d ← line.read .geometry Declaration.parser
      let s ← afterGeometry rest
      return { s with declarations := d :: s.declarations }

/-- A geometry header, declarations, a constraints header and requirements, each on a line of its
own. The first line that breaks this pattern is the error. -/
def ofLines : List SignificantLine → Except TextError Sketch
  | [] => throw (.missingHeader .geometry)
  | line :: rest =>
    if line.isHeader .geometry then afterGeometry rest else throw (.missingHeader .geometry)

def ofText (text : String) : Except TextError Sketch := ofLines (SignificantLine.ofText text)

end Sketch

end PlaneSketch
