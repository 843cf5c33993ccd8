import PlaneSketch.Problem.Edit
import PlaneSketch.Search.Descent
import PlaneSketch.Warning

namespace PlaneSketch

/-- What there is to say of a solve that ran to its end. -/
structure Outcome where
  /-- The parameters that were free, in the order in which the minimizer saw them. -/
  parameters : List ParamId
  finalValues : List Float
  /-- Did the minimizer report that it converged? -/
  success : Bool
  iterations : Nat
  evaluations : Nat
  error : Float
  warnings : List Warning
deriving DecidableEq

def Outcome.finalValue? (o : Outcome) (q : ParamId) : Option Float := do
  let i ← o.parameters.idxOf? q
  o.finalValues[i]?

namespace Problem

def writeValues (p : Problem) (params : List ParamId) (values : List Float) : Problem :=
  { p with points := p.points.writeValues params values }

def valuesOf (p : Problem) (params : List ParamId) : List Float :=
  params.filterMap fun q => (p.points.param? q).map Parameter.value

/-- The cost of a candidate: the total error with its values written. Nothing is written for one
that is not finite. -/
def tryCandidate (free : List ParamId) (candidate : List Float) (p : Problem) : Float × Problem :=
  if candidate.all Float.isFinite then
    let p := p.writeValues free candidate
    (p.error, p)
  else (1 / 0, p)

/-- A result can be written back if it has one finite value for each free parameter. -/
def isUsable (free : List ParamId) (x : List Float) : Bool :=
  x.length = free.length && x.all Float.isFinite

/-- Whatever goes wrong in a search is a failure of the solver. -/
def asSolverFailure : Error → Error
  | .solverFailure cause => .solverFailure cause
  | e => .solverFailure (.raised e)

/-- What is tried on the way is written into the problem, to be confirmed or undone at the end. -/
def search {α : Type} (free : List ParamId) (s : Search α) : Edit α := fun p =>
  let (a, p) := s.run (tryCandidate free) p
  (.ok a, p)

def accept (free : List ParamId) (warnings : List Warning) (m : Minimum) : Edit Outcome := do
  modify (·.writeValues free m.x)
  let error := (← get).error
  return { parameters := free, finalValues := m.x, success := m.success,
           iterations := m.iterations, evaluations := m.evaluations, error,
           warnings := if m.success then warnings
             else warnings ++ [.didNotConverge m.iterations error] }

def giveUp (free : List ParamId) (before : List Float) (e : Error) : Edit Outcome := do
  modify (·.writeValues free before)
  throw e

/-- Solves with any minimizer. A search that did not converge is no error; one that breaks down
leaves no trace. -/
def solveWith (minimizer : Minimizer) (settings : Settings) : Edit Outcome := do
  modify invalidate
  (← get).validate
  let warnings := Constraint.lint (← get).constraintList
  let free ← freeParameters
  if free.isEmpty then
    return { parameters := free, finalValues := [], success := true, iterations := 0,
             evaluations := 0, error := (← get).error,
             warnings := warnings ++ [.noFreeParameters] }
  else
    let before := (← get).valuesOf free
    match ← search free (minimizer before settings) with
    | .error e => giveUp free before (asSolverFailure e)
    | .ok m =>
      if isUsable free m.x then accept free warnings m
      else giveUp free before (.solverFailure (.unusable m.x.length free.length))

def solve (settings : Settings) : Edit Outcome := solveWith Simplex.minimizer settings

/-- What a minimizer gets to see of a solve. -/
structure Transcript where
  start : List Float
  /-- The answers to its questions, in order. -/
  costs : List Float

/-- What this minimizer would see, if the problem gives it anything to do. -/
def transcript (p : Problem) (minimizer : Minimizer) (settings : Settings) : Option Transcript :=
  let free := p.computeFree
  if p.invalid.isEmpty && !free.isEmpty then
    let start := p.valuesOf free
    some ⟨start, (minimizer start settings).costs (tryCandidate free) p⟩
  else none

end Problem

end PlaneSketch
