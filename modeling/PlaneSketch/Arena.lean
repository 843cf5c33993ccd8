import PlaneSketch.Parameter
import PlaneSketch.Vector

namespace PlaneSketch

structure Point where
  name : String
  x : Parameter
  y : Parameter
deriving DecidableEq

namespace Point

def new (name : String) (x y : Float) : Except Error Point := do
  return ⟨name, ← Parameter.new x, ← Parameter.new y⟩

def param (p : Point) : Axis → Parameter
  | .x => p.x
  | .y => p.y

def modifyParam (p : Point) (axis : Axis) (f : Parameter → Parameter) : Point :=
  match axis with
  | .x => { p with x := f p.x }
  | .y => { p with y := f p.y }

def position (p : Point) : Vec := ⟨p.x.value, p.y.value⟩

/-- Are both coordinates fixed by their own flags? -/
def isFixed (p : Point) : Bool := p.x.fixed && p.y.fixed

theorem name_modifyParam (p : Point) (axis : Axis) (f : Parameter → Parameter) :
    (p.modifyParam axis f).name = p.name := by
  cases axis <;> rfl

theorem param_modifyParam (p : Point) (axis other : Axis) (f : Parameter → Parameter) :
    (p.modifyParam axis f).param other =
      if axis = other then f (p.param other) else p.param other := by
  cases axis <;> cases other <;> rfl

theorem new_eq_ok {name : String} {x y : Float} {p : Point} :
    new name x y = .ok p ↔
      x.isFinite = true ∧ y.isFinite = true ∧ p = ⟨name, ⟨x, false⟩, ⟨y, false⟩⟩ := by
  by_cases hx : x.isFinite = true <;> by_cases hy : y.isFinite = true <;>
    simp [new, Parameter.new, Parameter.checkFinite, hx, hy, bind, Except.bind, pure, Except.pure,
      eq_comm (a := p)]

end Point

/-- All points of a problem, in the order in which they were added. Points are never removed, so a
handle, which is a place in the list, denotes the same point for good. -/
structure Arena where
  points : List Point
deriving DecidableEq

namespace Arena

def empty : Arena := ⟨[]⟩

def size (a : Arena) : Nat := a.points.length

def isEmpty (a : Arena) : Bool := a.points.isEmpty

def contains (a : Arena) (id : PointId) : Bool := id.index < a.size

def get? (a : Arena) (id : PointId) : Option Point := a.points[id.index]?

def idOf? (a : Arena) (name : String) : Option PointId :=
  (a.points.findIdx? (·.name == name)).map PointId.mk

def ids (a : Arena) : List PointId := (List.range a.size).map PointId.mk

def param? (a : Arena) (q : ParamId) : Option Parameter := (a.get? q.point).map (·.param q.axis)

def position? (a : Arena) (id : PointId) : Option Vec := (a.get? id).map Point.position

/-- Changes one parameter. Nothing happens when there is no such point. -/
def modifyParam (a : Arena) (q : ParamId) (f : Parameter → Parameter) : Arena :=
  ⟨a.points.modify q.point.index (·.modifyParam q.axis f)⟩

/-- Adds a point at the end, unless its name is taken. Places are natural numbers, so there is
always room for one more: no limit on the number of points is modelled, such as handles of 32 bits
would set at `2 ^ 32`. -/
def insert (a : Arena) (p : Point) : Except Error (PointId × Arena) :=
  if (a.idOf? p.name).isSome then .error (.duplicateName p.name)
  else .ok (⟨a.size⟩, ⟨a.points ++ [p]⟩)

/-- Writes values into parameters pairwise; what is left over on either side is ignored. -/
def writeValues (a : Arena) (params : List ParamId) (values : List Float) : Arena :=
  (params.zip values).foldl (fun a (q, value) => a.modifyParam q (·.assign value)) a

theorem contains_iff {a : Arena} {id : PointId} : a.contains id = true ↔ id.index < a.size := by
  simp [contains]

theorem get?_isSome {a : Arena} {id : PointId} : (a.get? id).isSome = a.contains id := by
  rw [Bool.eq_iff_iff, contains_iff]
  simp [get?, size]

theorem idOf?_eq_none {a : Arena} {name : String} :
    a.idOf? name = none ↔ ∀ p ∈ a.points, p.name ≠ name := by
  simp [idOf?]

/-- A handle is the place of the first point with the name. -/
theorem get?_of_idOf? {a : Arena} {name : String} {id : PointId} (h : a.idOf? name = some id) :
    ∃ p, a.get? id = some p ∧ p.name = name := by
  obtain ⟨i, hi, rfl⟩ := Option.map_eq_some_iff.mp h
  obtain ⟨hl, hn, _⟩ := List.findIdx?_eq_some_iff_getElem.mp hi
  exact ⟨a.points[i], by simp [get?, hl], by simpa using hn⟩

theorem insert_eq_ok {a b : Arena} {p : Point} {id : PointId} :
    a.insert p = .ok (id, b) ↔
      (∀ q ∈ a.points, q.name ≠ p.name) ∧ id = ⟨a.size⟩ ∧ b = ⟨a.points ++ [p]⟩ := by
  unfold insert
  cases h : a.idOf? p.name with
  | none => simp [← idOf?_eq_none, h, eq_comm (a := id), eq_comm (a := b)]
  | some i =>
    have hn : ¬ ∀ q ∈ a.points, q.name ≠ p.name := by simp [← idOf?_eq_none, h]
    simp [hn]

theorem get?_append {points added : List Point} {id : PointId} {p : Point}
    (h : (Arena.mk points).get? id = some p) : (Arena.mk (points ++ added)).get? id = some p :=
  (List.getElem?_append_left (List.getElem?_eq_some_iff.mp h).1).trans h

theorem size_modifyParam (a : Arena) (q : ParamId) (f : Parameter → Parameter) :
    (a.modifyParam q f).size = a.size := by
  simp [modifyParam, size]

theorem names_modifyParam (a : Arena) (q : ParamId) (f : Parameter → Parameter) :
    (a.modifyParam q f).points.map Point.name = a.points.map Point.name := by
  apply List.ext_getElem?
  intro i
  by_cases hi : q.point.index = i <;> cases h : a.points[i]? <;>
    simp [modifyParam, hi, h, Point.name_modifyParam]

theorem param?_modifyParam (a : Arena) (q r : ParamId) (f : Parameter → Parameter) :
    (a.modifyParam q f).param? r = if q = r then (a.param? r).map f else a.param? r := by
  obtain ⟨⟨i⟩, axis⟩ := q
  obtain ⟨⟨j⟩, other⟩ := r
  by_cases hi : i = j <;> by_cases ha : axis = other <;> cases h : a.points[j]? <;>
    simp [modifyParam, param?, get?, Point.param_modifyParam, hi, ha, h]

theorem names_writeValues (a : Arena) (params : List ParamId) (values : List Float) :
    (a.writeValues params values).points.map Point.name = a.points.map Point.name := by
  unfold writeValues
  induction params.zip values generalizing a with
  | nil => rfl
  | cons head rest ih => exact (ih _).trans (names_modifyParam a head.1 _)

theorem param?_writeValues_of_not_mem (a : Arena) (params : List ParamId) (values : List Float)
    (r : ParamId) (h : r ∉ params) : (a.writeValues params values).param? r = a.param? r := by
  induction params generalizing a values with
  | nil => rfl
  | cons q rest ih =>
    cases values with
    | nil => rfl
    | cons v values =>
      have hq : q ≠ r := fun e => h (e ▸ List.mem_cons_self)
      have hr : r ∉ rest := fun hm => h (List.mem_cons_of_mem q hm)
      exact (ih _ values hr).trans (by simp [param?_modifyParam, hq])

end Arena

end PlaneSketch
