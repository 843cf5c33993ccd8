import PlaneSketch.Constraint

namespace PlaneSketch

/-- What may be wrong with a problem although it can be solved. -/
inductive Warning where
  /-- The constraint with this number asks for an angle of zero, where its error is undefined. -/
  | zeroAngleTarget (constraint : Nat)
  /-- The search stopped early; its best values were kept all the same. -/
  | didNotConverge (iterations : Nat) (error : Float)
  | noFreeParameters
deriving DecidableEq

namespace Warning

def about? : Warning → Option Nat
  | zeroAngleTarget i => some i
  | didNotConverge .. => none
  | noFreeParameters => none

def message : Warning → String
  | zeroAngleTarget i =>
    "Constraint " ++ toString i ++ ": This angle constraint targets 0 degrees, where its error " ++
      "is undefined. Try a small nonzero angle instead."
  | didNotConverge iterations error =>
    "The minimizer did not converge after " ++ toString iterations ++
      " iterations. Best total error was " ++ Number.text error ++
      ". Try raising the iteration limit or loosening the tolerance."
  | noFreeParameters => "Every parameter is fixed, so there was nothing to solve"

end Warning

namespace Constraint

/-- Does the constraint ask for an angle of zero, of either sign? -/
def asksZeroAngle : Constraint → Bool
  | lineAngle _ _ degrees => degrees == 0
  | lineLength .. => false
  | pointDistance .. => false

/-- One warning for each constraint that asks for an angle of zero, counting from `first`. -/
def lintFrom (first : Nat) : List Constraint → List Warning
  | [] => []
  | c :: rest =>
    if c.asksZeroAngle then .zeroAngleTarget first :: lintFrom (first + 1) rest
    else lintFrom (first + 1) rest

/-- What can be seen to be wrong before solving. -/
def lint (constraints : List Constraint) : List Warning := lintFrom 0 constraints

end Constraint

end PlaneSketch
