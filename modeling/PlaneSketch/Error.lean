import PlaneSketch.Handle
import PlaneSketch.Number.Shortest

namespace PlaneSketch

inductive Flaw where
  /-- A line's ends coincide, so it has no direction. -/
  | zeroLength
deriving Repr, DecidableEq

def Flaw.message : Flaw → String
  | zeroLength => "zero length"

structure Invalid where
  primitive : String
  flaw : Flaw
deriving Repr, DecidableEq

def Invalid.message (i : Invalid) : String := i.primitive ++ " (" ++ i.flaw.message ++ ")"

inductive TargetFault where
  | lineLength (value : Float)
  | angle (value : Float)
  | distance (value : Float)
deriving DecidableEq

def TargetFault.message : TargetFault → String
  | lineLength v => "line length must be finite and >= 0, but was " ++ Number.text v
  | angle v => "angle must be finite, but was " ++ Number.text v
  | distance v => "distance must be finite and >= 0, but was " ++ Number.text v

/-- The two parts of a sketch, each under a header of its own. -/
inductive Section where
  | geometry
  | constraints
deriving Repr, DecidableEq

def Section.title : Section → String
  | geometry => "geometry"
  | constraints => "constraints"

def Section.item : Section → String
  | geometry => "geometry"
  | constraints => "a constraint"

inductive TextError where
  /-- The line cannot be read on from this column. Lines and columns count from one, columns in
  bytes of the encoded text. -/
  | malformed (line : Nat) (text : String) (within : Section) (column : Nat)
  | missingHeader (expected : Section)
deriving Repr, DecidableEq

def TextError.message : TextError → String
  | malformed line text within column =>
    "Line " ++ toString line ++ ": could not parse `" ++ text ++ "` as " ++ within.item ++
      " (column " ++ toString column ++ ")"
  | missingHeader expected => "Expected a `# " ++ expected.title ++ "` header"

mutual

/-- What can go wrong, by cause. The wording is apart, in `Error.message`. -/
inductive Error where
  | invalidValue (value : Float)
  | invalidConstraint (fault : TargetFault)
  | duplicateName (name : String)
  | notFound (name : String)
  /-- The handle denotes no point of this problem. -/
  | unknownPoint (id : PointId)
  | notALine (name : String)
  | notAPoint (name : String)
  /-- All primitives that cannot be solved, in order of registration. -/
  | invalidGeometry (invalid : List Invalid)
  | solverFailure (cause : SolverCause)
  | unreadable (error : TextError)

inductive SolverCause where
  | reported (reason : String)
  /-- A simplex cannot have a negative spread. -/
  | negativeTolerance
  /-- The result has the wrong length or an entry that is not finite. -/
  | unusable (got expected : Nat)
  | raised (error : Error)

end

mutual

def Error.message : Error → String
  | .invalidValue v => "Parameter values must be finite, but got " ++ Number.text v
  | .invalidConstraint fault => "Invalid constraint: " ++ fault.message
  | .duplicateName name => "The name " ++ name ++ " is already taken"
  | .notFound name => "Nothing named " ++ name ++ " was found"
  | .unknownPoint id => id.text ++ " does not belong to this problem"
  | .notALine name => name ++ " is not a line"
  | .notAPoint name => name ++ " is not a point"
  | .invalidGeometry invalid =>
    "Invalid geometry: " ++ ", ".intercalate (invalid.map Invalid.message)
  | .solverFailure cause => "Minimizer failed: " ++ cause.message
  | .unreadable error => error.message

def SolverCause.message : SolverCause → String
  | .reported reason => reason
  | .negativeTolerance => "Invalid parameter: \"`Nelder-Mead`: sd_tolerance must be >= 0.\""
  | .unusable got expected =>
    "minimizer returned " ++ toString got ++ " values for " ++ toString expected ++
      " parameters, or a non-finite value"
  | .raised error => error.message

end

end PlaneSketch
