import PlaneSketch.Problem.Edit
import PlaneSketch.Proofs.ArenaFrame
import PlaneSketch.Proofs.Enumeration

namespace PlaneSketch

theorem bind_eq_ok {α β : Type} {x : Except Error α} {f : α → Except Error β} {b : β} :
    (x >>= f) = .ok b ↔ ∃ a, x = .ok a ∧ f a = .ok b := by
  cases x <;> simp [bind, Except.bind]

namespace Constraint

theorem newLineLength_eq_ok {l : Line} {length : Float} {c : Constraint} :
    newLineLength l length = .ok c ↔ isLength length = true ∧ c = .lineLength l length := by
  unfold newLineLength
  split <;> simp [*, eq_comm (a := c)]

theorem newLineAngle_eq_ok {l m : Line} {degrees : Float} {c : Constraint} :
    newLineAngle l m degrees = .ok c ↔
      degrees.isFinite = true ∧ c = .lineAngle l m (Angle.normalize degrees) := by
  unfold newLineAngle
  split <;> simp [*, eq_comm (a := c)]

theorem newPointDistance_eq_ok {i j : PointId} {distance : Float} {c : Constraint} :
    newPointDistance i j distance = .ok c ↔
      isLength distance = true ∧ c = .pointDistance i j distance := by
  unfold newPointDistance
  split <;> simp [*, eq_comm (a := c)]

end Constraint

namespace Edit

variable {α β : Type}

/-- The result of the edit, and the problem that it leaves. -/
def on (e : Edit α) (p : Problem) : Except Error α × Problem := e.run.run p

theorem on_pure (a : α) (p : Problem) : on (pure a) p = (.ok a, p) := rfl

theorem on_get (p : Problem) : on get p = (.ok p, p) := rfl

theorem on_modify (f : Problem → Problem) (p : Problem) : on (modify f) p = (.ok (), f p) := rfl

theorem on_lift (x : Except Error α) (p : Problem) : on (liftM x) p = (x, p) := rfl

theorem on_bind (e : Edit α) (f : α → Edit β) (p : Problem) :
    (e >>= f).on p = match e.on p with
      | (.ok a, q) => (f a).on q
      | (.error err, q) => (.error err, q) := by
  change (ExceptT.bindCont f (e.on p).1).run (e.on p).2 = _
  rcases e.on p with ⟨a | err, q⟩ <;> rfl

theorem on_get_bind (f : Problem → Edit β) (p : Problem) : (get >>= f).on p = (f p).on p := rfl

theorem on_lift_bind (x : Except Error α) (f : α → Edit β) (p : Problem) :
    (liftM x >>= f).on p = x.casesOn (fun err => (.error err, p)) fun a => (f a).on p := by
  cases x <;> rfl

/-- The edit has this result and leaves this problem if the condition holds, and else is refused
without a trace. -/
structure Atomic (e : Edit α) (p : Problem) (c : Prop) (a : α) (q : Problem) : Prop where
  done : c → e.on p = (.ok a, q)
  refused : ¬ c → ∃ err, e.on p = (.error err, p)

namespace Atomic

variable {e : Edit α} {p q : Problem} {c d : Prop} {a : α}

theorem of_done (h : e.on p = (.ok a, q)) : e.Atomic p True a q :=
  ⟨fun _ => h, fun hn => (hn trivial).elim⟩

theorem congr (h : e.Atomic p c a q) (hc : d ↔ c) : e.Atomic p d a q :=
  ⟨fun hd => h.done (hc.mp hd), fun hd => h.refused (hd ∘ hc.mpr)⟩

/-- A check comes first, and what comes after it need only be known for when it passes. -/
theorem bind {f : α → Edit β} {b : β} (h : e.Atomic p c a p)
    (hf : c → (f a).Atomic p d b q) : (e >>= f).Atomic p (c ∧ d) b q := by
  constructor
  · rintro ⟨hc, hd⟩
    rw [on_bind, h.done hc]
    exact (hf hc).done hd
  · intro hn
    rw [on_bind]
    by_cases hc : c
    · rw [h.done hc]
      exact (hf hc).refused fun hd => hn ⟨hc, hd⟩
    · obtain ⟨err, he⟩ := h.refused hc
      exact ⟨err, by rw [he]⟩

theorem cases (h : e.Atomic p c a q) :
    (c ∧ e.on p = (.ok a, q)) ∨ (¬ c ∧ ∃ err, e.on p = (.error err, p)) := by
  by_cases hc : c
  · exact .inl ⟨hc, h.done hc⟩
  · exact .inr ⟨hc, h.refused hc⟩

end Atomic

end Edit

namespace Problem

open Edit

theorem lookup_eq (p : Problem) (name : String) :
    p.lookup name = (p.find? name).elim (.error (.notFound name)) .ok := by
  unfold lookup
  cases p.find? name <;> rfl

theorem line_eq_ok {p : Problem} {name : String} {l : Line} :
    p.line name = .ok l ↔ p.find? name = some (.line l) := by
  unfold line
  rw [lookup_eq]
  rcases p.find? name with _ | (id | m) <;>
    simp [Primitive.asLine?, bind, Except.bind, pure, Except.pure, throw, throwThe,
      MonadExceptOf.throw]

theorem point_eq_ok {p : Problem} {name : String} {id : PointId} :
    p.point name = .ok id ↔ p.find? name = some (.point id) := by
  unfold point
  rw [lookup_eq]
  rcases p.find? name with _ | (id | m) <;>
    simp [Primitive.asPoint?, bind, Except.bind, pure, Except.pure, throw, throwThe,
      MonadExceptOf.throw]

theorem paramsOf_eq (p : Problem) (name : String) :
    p.paramsOf name = (p.find? name).elim (.error (.notFound name))
      fun q => .ok (ParamId.ofPoints q.handles) := by
  unfold paramsOf
  rw [lookup_eq]
  cases p.find? name <;> rfl

theorem checkFree_atomic (p : Problem) (name : String) :
    (checkFree name).Atomic p (p.find? name = none) () p := by
  unfold checkFree
  constructor
  · intro h
    rw [on_bind, on_get]
    simp only [h]
    rfl
  · intro h
    obtain ⟨q, hq⟩ := Option.ne_none_iff_exists'.mp h
    rw [on_bind, on_get]
    simp only [hq]
    exact ⟨_, rfl⟩

theorem checkFinite_atomic (p : Problem) (v : Float) :
    (liftM (Parameter.checkFinite v) : Edit Unit).Atomic p (v.isFinite = true) () p := by
  constructor
  · intro h
    rw [on_lift, Parameter.checkFinite_eq_ok.mpr h]
  · intro h
    rw [on_lift, Parameter.checkFinite, if_neg h]
    exact ⟨_, rfl⟩

theorem find?_eq_none {p : Problem} {name : String} :
    p.find? name = none ↔
      p.registered? name = none ∧ p.points.idOf? name = none ∧ p.lineEnd? name = none := by
  simp [find?]

def grow (p : Problem) (added : List Point) (name : String) (q : Primitive) : Problem :=
  invalidate { p with
    points := ⟨p.points.points ++ added⟩
    primitives := p.primitives ++ [(name, q)] }

theorem on_insertPoint {p : Problem} {point : Point} (h : p.points.idOf? point.name = none) :
    (insertPoint point).on p =
      (.ok ⟨p.points.size⟩, { p with points := ⟨p.points.points ++ [point]⟩ }) := by
  have hi : p.points.insert point = .ok (⟨p.points.size⟩, ⟨p.points.points ++ [point]⟩) :=
    Arena.insert_eq_ok.mpr ⟨Arena.idOf?_eq_none.mp h, rfl, rfl⟩
  unfold insertPoint
  rw [on_bind, on_get]
  simp only [hi]
  rfl

theorem newPoint_atomic (p : Problem) (name : String) (x y : Float) :
    (liftM (Point.new name x y) : Edit Point).Atomic p
      (x.isFinite = true ∧ y.isFinite = true) ⟨name, ⟨x, false⟩, ⟨y, false⟩⟩ p := by
  constructor
  · rintro ⟨hx, hy⟩
    rw [on_lift, Point.new_eq_ok.mpr ⟨hx, hy, rfl⟩]
  · intro h
    rw [on_lift]
    cases hn : Point.new name x y with
    | error err => exact ⟨err, rfl⟩
    | ok point =>
      obtain ⟨hx, hy, -⟩ := Point.new_eq_ok.mp hn
      exact (h ⟨hx, hy⟩).elim

theorem addPoint_atomic (p : Problem) (name : String) (x y : Float) :
    (addPoint name x y).Atomic p
      (p.find? name = none ∧ x.isFinite = true ∧ y.isFinite = true) ⟨p.points.size⟩
      (p.grow [⟨name, ⟨x, false⟩, ⟨y, false⟩⟩] name (.point ⟨p.points.size⟩)) := by
  have hc : p.find? name = none ∧ x.isFinite = true ∧ y.isFinite = true ↔
      p.find? name = none ∧ (x.isFinite = true ∧ y.isFinite = true) ∧ True := by simp
  unfold addPoint
  refine Atomic.congr ?_ hc
  refine (checkFree_atomic p name).bind fun hn => ?_
  refine (newPoint_atomic p name x y).bind fun _ => .of_done ?_
  rw [on_bind, on_insertPoint (find?_eq_none.mp hn).2.1]
  rfl

end Problem

namespace Endpoint

/-- A line may end here: at finite coordinates, or at a point that there is. -/
def Fits (p : Problem) : Endpoint → Prop
  | fresh x y => x.isFinite = true ∧ y.isFinite = true
  | shared id => p.points.contains id = true

def added (name : String) : Endpoint → List Point
  | fresh x y => [⟨name, ⟨x, false⟩, ⟨y, false⟩⟩]
  | shared _ => []

/-- The point where the line ends, if the arena has this many points so far. -/
def handle (size : Nat) : Endpoint → PointId
  | fresh _ _ => ⟨size⟩
  | shared id => id

end Endpoint

namespace Problem

open Edit

theorem checkKnown_atomic (p : Problem) (id : PointId) :
    (checkKnown id).Atomic p (p.points.contains id = true) () p := by
  unfold checkKnown
  constructor
  · intro h
    rw [on_bind, on_get]
    simp only [h]
    rfl
  · intro h
    rw [Bool.not_eq_true] at h
    rw [on_bind, on_get]
    simp only [h]
    exact ⟨_, rfl⟩

theorem checkEndpoint_atomic (p : Problem) (name : String) (e : Endpoint) :
    (checkEndpoint name e).Atomic p (p.find? name = none ∧ e.Fits p) () p := by
  unfold checkEndpoint
  refine (checkFree_atomic p name).bind fun _ => ?_
  cases e with
  | fresh x y => exact (checkFinite_atomic p x).bind fun _ => checkFinite_atomic p y
  | shared id => exact checkKnown_atomic p id

theorem on_resolveEndpoint {p : Problem} {name : String} {e : Endpoint} (hf : e.Fits p)
    (hn : p.points.idOf? name = none) :
    (resolveEndpoint name e).on p = (.ok (e.handle p.points.size),
      { p with points := ⟨p.points.points ++ e.added name⟩ }) := by
  cases e with
  | fresh x y =>
    unfold resolveEndpoint
    rw [on_bind, (newPoint_atomic p name x y).done hf]
    exact on_insertPoint hn
  | shared id =>
    simp only [Endpoint.added, List.append_nil]
    rfl

theorem startName_ne_finishName (line : String) : startName line ≠ finishName line := by
  intro h
  have hl := congrArg String.length h
  simp only [startName, finishName, String.length_append, Nat.add_left_cancel_iff] at hl
  exact absurd hl (by decide)

/-- The line between two ends. New ends get the next handles, the start first. -/
def lineBetween (p : Problem) (name : String) (start finish : Endpoint) : Line :=
  ⟨start.handle p.points.size,
    finish.handle (p.points.size + (start.added (startName name)).length)⟩

def growLine (p : Problem) (name : String) (start finish : Endpoint) : Problem :=
  p.grow (start.added (startName name) ++ finish.added (finishName name)) name
    (.line (p.lineBetween name start finish))

/-- A line can be added if its name is free, so are those of its ends, and both ends fit. -/
structure LineFits (p : Problem) (name : String) (start finish : Endpoint) : Prop where
  nameFree : p.find? name = none
  startFree : p.find? (startName name) = none
  startFits : start.Fits p
  finishFree : p.find? (finishName name) = none
  finishFits : finish.Fits p

/-- The checks rule out that the second end is refused when the first one is in the arena. -/
theorem on_resolveEndpoints {p : Problem} {name : String} {start finish : Endpoint}
    (h : p.LineFits name start finish) :
    Edit.on (do
      let s ← resolveEndpoint (startName name) start
      let f ← resolveEndpoint (finishName name) finish
      register name (.line ⟨s, f⟩)
      modify invalidate) p = (.ok (), p.growLine name start finish) := by
  have hs := (find?_eq_none.mp h.startFree).2.1
  have hf := (find?_eq_none.mp h.finishFree).2.1
  rw [on_bind, on_resolveEndpoint h.startFits hs]
  generalize hq : ({ p with
    points := ⟨p.points.points ++ start.added (startName name)⟩ } : Problem) = q
  have hfits : finish.Fits q := by
    subst hq
    cases finish with
    | fresh x y => exact h.finishFits
    | shared id =>
      have hk := h.finishFits
      simp only [Endpoint.Fits, Arena.contains_iff, Arena.size, List.length_append] at hk ⊢
      omega
  have hfree : q.points.idOf? (finishName name) = none := by
    subst hq
    rw [Arena.idOf?_eq_none] at hf ⊢
    intro point hp
    rcases List.mem_append.mp hp with hp | hp
    · exact hf point hp
    · cases start with
      | fresh x y =>
        simp only [Endpoint.added, List.mem_singleton] at hp
        rw [hp]
        exact startName_ne_finishName name
      | shared id => simp [Endpoint.added] at hp
  simp only [on_bind, on_resolveEndpoint hfits hfree]
  subst hq
  simp only [register, on_modify, growLine, grow, lineBetween, invalidate, Arena.size,
    List.length_append, List.append_assoc]

theorem addLine_atomic (p : Problem) (name : String) (start finish : Endpoint) :
    (addLine name start finish).Atomic p (p.LineFits name start finish) ()
      (p.growLine name start finish) := by
  have hc : p.LineFits name start finish ↔ p.find? name = none ∧
      (p.find? (startName name) = none ∧ start.Fits p) ∧
      (p.find? (finishName name) = none ∧ finish.Fits p) ∧ True :=
    ⟨fun h => ⟨h.nameFree, ⟨h.startFree, h.startFits⟩, ⟨h.finishFree, h.finishFits⟩, trivial⟩,
      fun ⟨hn, ⟨hs, hs'⟩, ⟨hf, hf'⟩, _⟩ => ⟨hn, hs, hs', hf, hf'⟩⟩
  unfold addLine
  refine Atomic.congr ?_ hc
  refine (checkFree_atomic p name).bind fun hn => ?_
  refine (checkEndpoint_atomic p (startName name) start).bind fun hs => ?_
  refine (checkEndpoint_atomic p (finishName name) finish).bind fun hf => ?_
  exact .of_done (on_resolveEndpoints ⟨hn, hs.1, hs.2, hf.1, hf.2⟩)

/-- The problem with one more constraint, or unchanged if the constraint was refused. -/
def declare (p : Problem) (names : List String) :
    Except Error Constraint → Except Error Unit × Problem
  | .ok c => (.ok (), { p with constraints := p.constraints ++ [⟨c, names⟩] })
  | .error err => (.error err, p)

theorem on_addConstraint (p : Problem) (names : List String) (x : Except Error Constraint) :
    Edit.on (do addConstraint (← liftM x) names) p = p.declare names x := by
  cases x <;> rfl

/-- A constraint on two things that are looked up one after the other. -/
theorem on_declareTwo {α β : Type} (x : Problem → Except Error α) (y : Problem → Except Error β)
    (make : α → β → Except Error Constraint) (names : List String) (p : Problem) :
    Edit.on (do
      let a ← x (← get)
      let b ← y (← get)
      addConstraint (← make a b) names) p = p.declare names (do
        let a ← x p
        let b ← y p
        make a b) := by
  rw [on_get_bind, on_lift_bind]
  cases x p with
  | error err => rfl
  | ok a =>
    dsimp only
    rw [on_get_bind, on_lift_bind]
    cases y p with
    | error err => rfl
    | ok b => exact on_addConstraint p names (make a b)

theorem on_constrainLength (p : Problem) (name : String) (length : Float) :
    (constrainLength name length).on p = p.declare [name] (do
      let l ← p.line name
      Constraint.newLineLength l length) := by
  unfold constrainLength
  rw [on_get_bind, on_lift_bind]
  cases p.line name with
  | error err => rfl
  | ok l => exact on_addConstraint p [name] (Constraint.newLineLength l length)

theorem on_constrainAngle (p : Problem) (a b : String) (degrees : Float) :
    (constrainAngle a b degrees).on p = p.declare [a, b] (do
      let l ← p.line a
      let m ← p.line b
      Constraint.newLineAngle l m degrees) :=
  on_declareTwo (·.line a) (·.line b) (Constraint.newLineAngle · · degrees) [a, b] p

theorem on_constrainDistance (p : Problem) (a b : String) (distance : Float) :
    (constrainDistance a b distance).on p = p.declare [a, b] (do
      let i ← p.point a
      let j ← p.point b
      Constraint.newPointDistance i j distance) :=
  on_declareTwo (·.point a) (·.point b) (Constraint.newPointDistance · · distance) [a, b] p

theorem on_pin (p : Problem) (name : String) :
    (pin name).on p = (p.find? name).elim (.error (.notFound name), p) fun q =>
      (.ok (), invalidate { p with
        pinned := (p.pinned ++ ParamId.ofPoints q.handles).eraseDups }) := by
  unfold pin
  simp only [on_bind, on_get, on_lift, paramsOf_eq]
  cases p.find? name <;> rfl

theorem on_release (p : Problem) (name : String) :
    (release name).on p = (p.find? name).elim (.error (.notFound name), p) fun q =>
      (.ok (), invalidate { p with
        pinned := p.pinned.filter (!(ParamId.ofPoints q.handles).contains ·) }) := by
  unfold release
  simp only [on_bind, on_get, on_lift, paramsOf_eq]
  cases p.find? name <;> rfl

theorem parameter_eq_ok {p : Problem} {q : ParamId} {r : Parameter} :
    p.parameter q = .ok r ↔ p.points.param? q = some r := by
  unfold parameter
  cases p.points.param? q <;> simp

theorem on_updateParam {p : Problem} {q : ParamId} {r : Parameter}
    {f : Parameter → Except Error Parameter} {g : Parameter → Parameter}
    (hr : p.points.param? q = some r) (hf : f r = .ok (g r)) :
    (updateParam q f).on p = (.ok (), { p with points := p.points.modifyParam q g }) := by
  unfold updateParam
  simp only [on_bind, on_get, on_lift, parameter_eq_ok.mpr hr, hf, on_modify]
  rw [Arena.modifyParam_congr (f := fun _ => g r) (g := g) hr rfl]

theorem on_updateParams {p : Problem} {params : List ParamId}
    {f : Parameter → Except Error Parameter} {g : Parameter → Parameter}
    (hp : ∀ q ∈ params, (p.points.param? q).isSome = true) (hf : ∀ r, f r = .ok (g r)) :
    (updateParams f params).on p = (.ok (), { p with points := p.points.modifyParams params g }) := by
  induction params generalizing p with
  | nil => rfl
  | cons q rest ih =>
    obtain ⟨r, hr⟩ := Option.isSome_iff_exists.mp (hp q List.mem_cons_self)
    unfold updateParams
    rw [on_bind, on_updateParam hr (hf r)]
    refine ih fun s hs => ?_
    have hs' := hp s (List.mem_cons_of_mem q hs)
    rw [Arena.param?_isSome] at hs' ⊢
    simpa only [Arena.contains_iff, Arena.size_modifyParam] using hs'

/-- The flags of a primitive are set if it is found and the arena has its points. -/
theorem on_setFixed {p : Problem} {name : String} (fixed : Bool)
    (hk : ∀ q, p.find? name = some q → ∀ id ∈ q.handles, p.points.contains id = true) :
    (setFixed name fixed).on p = (p.find? name).elim (.error (.notFound name), p) fun q =>
      (.ok (), invalidate { p with
        points := p.points.modifyParams (ParamId.ofPoints q.handles) (·.setFixed fixed) }) := by
  unfold setFixed
  simp only [on_bind, on_get, on_lift, paramsOf_eq]
  cases hq : p.find? name with
  | none => rfl
  | some q =>
    have hp : ∀ r ∈ ParamId.ofPoints q.handles, (p.points.param? r).isSome = true := by
      intro r hr
      rw [Arena.param?_isSome]
      exact hk q hq r.point (ParamId.mem_ofPoints.mp hr)
    simp only [Option.elim_some, on_updateParams hp fun _ => rfl, on_modify]

def relocate (p : Problem) (id : PointId) (x y : Float) : Problem :=
  invalidate { p with
    points := (p.points.modifyParam ⟨id, .x⟩ (·.assign x)).modifyParam ⟨id, .y⟩ (·.assign y) }

theorem param?_of_contains {a : Arena} {id : PointId} (axis : Axis) (h : a.contains id = true) :
    ∃ r, a.param? ⟨id, axis⟩ = some r :=
  Option.isSome_iff_exists.mp (Arena.param?_isSome.trans h)

theorem move_atomic {p : Problem} {name : String} {id : PointId} (x y : Float)
    (hq : p.find? name = some (.point id)) (hk : p.points.contains id = true) :
    (move name x y).Atomic p (x.isFinite = true ∧ y.isFinite = true) () (p.relocate id x y) := by
  have hl : (liftM (p.point name) : Edit PointId).Atomic p True id p := by
    refine .of_done ?_
    rw [on_lift, point_eq_ok.mpr hq]
  have hc : x.isFinite = true ∧ y.isFinite = true ↔
      True ∧ True ∧ x.isFinite = true ∧ y.isFinite = true ∧ True := by simp
  unfold move
  refine Atomic.congr ?_ hc
  refine (Atomic.of_done (on_get p)).bind fun _ => ?_
  refine hl.bind fun _ => ?_
  refine (checkFinite_atomic p x).bind fun hx => ?_
  refine (checkFinite_atomic p y).bind fun hy => .of_done ?_
  -- The second write finds its parameter in the arena that the first one leaves.
  let a := p.points.modifyParam ⟨id, .x⟩ (·.assign x)
  have hka : a.contains id = true := by
    simpa only [a, Arena.contains_iff, Arena.size_modifyParam] using hk
  obtain ⟨r, hr⟩ := param?_of_contains .x hk
  obtain ⟨s, hs⟩ := param?_of_contains .y hka
  have hx' := on_updateParam (f := (·.set x)) (g := (·.assign x)) hr
    (Parameter.set_eq_ok.mpr ⟨hx, rfl⟩)
  have hy' := on_updateParam (p := { p with points := a }) (f := (·.set y)) (g := (·.assign y)) hs
    (Parameter.set_eq_ok.mpr ⟨hy, rfl⟩)
  rw [on_bind, hx']
  dsimp only
  rw [on_bind, hy']
  rfl

theorem move_refused {p : Problem} {name : String} (x y : Float)
    (hq : ∀ id, p.find? name ≠ some (.point id)) :
    ∃ err, (move name x y).on p = (.error err, p) := by
  cases hl : p.point name with
  | ok id => exact (hq id (point_eq_ok.mp hl)).elim
  | error err =>
    refine ⟨err, ?_⟩
    unfold move
    simp only [on_bind, on_get, on_lift, hl]

theorem on_editParameter (p : Problem) (q : ParamId) (changes : List Parameter.Change) :
    (editParameter q changes).on p =
      (p.points.param? q).elim (.error (.unknownPoint q.point), p) fun r =>
        (.ok (Parameter.apply changes r).1, { p.invalidate with
          points := p.points.modifyParam q fun r => (Parameter.apply changes r).2 }) := by
  unfold editParameter parameter
  simp only [on_bind, on_get, on_lift]
  cases hr : p.points.param? q with
  | none => rfl
  | some r =>
    simp only [on_modify, on_pure, Option.elim_some]
    rw [Arena.modifyParam_congr (g := fun r => (Parameter.apply changes r).2) hr rfl]

end Problem

end PlaneSketch
