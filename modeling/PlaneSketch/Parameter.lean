import PlaneSketch.Error

namespace PlaneSketch

/-- A number that a solve may vary, or must leave alone if it is fixed. -/
structure Parameter where
  value : Float
  fixed : Bool
deriving DecidableEq

namespace Parameter

/-- Refuses NaN and the infinities. -/
def checkFinite (value : Float) : Except Error Unit :=
  if value.isFinite then .ok () else .error (.invalidValue value)

def new (value : Float) : Except Error Parameter := do
  checkFinite value
  return ⟨value, false⟩

/-- Writes a value. The fixed flag binds the solver only, not the caller. -/
def set (p : Parameter) (value : Float) : Except Error Parameter := do
  checkFinite value
  return { p with value }

def assign (p : Parameter) (value : Float) : Parameter := { p with value }

def setFixed (p : Parameter) (fixed : Bool) : Parameter := { p with fixed }

inductive Change where
  | set (value : Float)
  | setFixed (fixed : Bool)

/-- Applies edits in order up to the first that fails. Those before it stay. -/
def apply : List Change → Parameter → Except Error Unit × Parameter
  | [], p => (.ok (), p)
  | .setFixed fixed :: rest, p => apply rest (p.setFixed fixed)
  | .set value :: rest, p =>
    match p.set value with
    | .ok p => apply rest p
    | .error e => (.error e, p)

theorem checkFinite_eq_ok {value : Float} :
    checkFinite value = .ok () ↔ value.isFinite = true := by
  simp [checkFinite]

theorem set_eq_ok {p q : Parameter} {value : Float} :
    p.set value = .ok q ↔ value.isFinite = true ∧ q = p.assign value := by
  by_cases h : value.isFinite = true <;>
    simp [set, assign, checkFinite, h, bind, Except.bind, pure, Except.pure, eq_comm (a := q)]

end Parameter

end PlaneSketch
