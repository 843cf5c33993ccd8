import Mathlib.Logic.Relation
import PlaneSketch.Problem.Description
import PlaneSketch.Proofs.Solving

namespace PlaneSketch

/-- What can be asked of a problem. Reads that leave it as it is have no place in a history. -/
inductive Operation where
  | addPoint (name : String) (x y : Float)
  | addLine (name : String) (start finish : Endpoint)
  | constrainLength (name : String) (length : Float)
  | constrainAngle (a b : String) (degrees : Float)
  | constrainDistance (a b : String) (distance : Float)
  | pin (name : String)
  | release (name : String)
  | setFixed (name : String) (fixed : Bool)
  | move (name : String) (x y : Float)
  /-- All that is done to a parameter while it is lent out. -/
  | editParameter (q : ParamId) (changes : List Parameter.Change)
  | freeParameters
  | describe
  | solve (settings : Settings)
  | solveWith (minimizer : Minimizer) (settings : Settings)

namespace Operation

def edit : Operation → Edit Unit
  | addPoint name x y => do let _ ← Problem.addPoint name x y
  | addLine name start finish => Problem.addLine name start finish
  | constrainLength name length => Problem.constrainLength name length
  | constrainAngle a b degrees => Problem.constrainAngle a b degrees
  | constrainDistance a b distance => Problem.constrainDistance a b distance
  | pin name => Problem.pin name
  | release name => Problem.release name
  | setFixed name fixed => Problem.setFixed name fixed
  | move name x y => Problem.move name x y
  | editParameter q changes => do let _ ← Problem.editParameter q changes
  | freeParameters => do let _ ← Problem.freeParameters
  | describe => do let _ ← Problem.describe
  | solve settings => do let _ ← Problem.solve settings
  | solveWith minimizer settings => do let _ ← Problem.solveWith minimizer settings

def after (op : Operation) (p : Problem) : Problem := (op.edit.on p).2

end Operation

/-- The target that the constructors of constraints let through. -/
def Constraint.Admissible : Constraint → Prop
  | lineLength _ length => isLength length = true
  | lineAngle _ _ degrees => ∃ d : Float, d.isFinite = true ∧ degrees = Angle.normalize d
  | pointDistance _ _ distance => isLength distance = true

theorem Parameter.any_fixed_congr {x y : Option Parameter} (h : y.map fixed = x.map fixed) :
    y.any fixed = x.any fixed := by
  have hany (z : Option Parameter) : z.any fixed = (z.map fixed).getD false := by
    cases z <;> rfl
  rw [hany, hany, h]

/-- Whatever is done to a parameter, a new value of it is finite. -/
theorem Parameter.value_apply (r : Parameter) (changes : List Change) :
    (apply changes r).2.value.isFinite = true ∨ (apply changes r).2.value = r.value := by
  induction changes generalizing r with
  | nil => exact .inr rfl
  | cons change rest ih =>
    cases change with
    | setFixed fixed => exact ih (r.setFixed fixed)
    | set value =>
      simp only [apply]
      cases hs : r.set value with
      | error e => exact .inr rfl
      | ok s =>
        obtain ⟨hf, rfl⟩ := set_eq_ok.mp hs
        rcases ih (r.assign value) with h | h
        · exact .inl h
        · exact .inl (h ▸ hf)

namespace Problem

open Edit

def afterAll (p : Problem) (ops : List Operation) : Problem :=
  ops.foldl (fun p op => op.after p) p

def Reachable (p : Problem) : Prop := ∃ ops, p = empty.afterAll ops

/-- What an operation can do to a problem. A solve takes two steps, all others at most one. -/
inductive Step (p : Problem) : Problem → Prop where
  | stay : Step p p
  | count : Step p { p with knownFree := some p.free }
  | declare (c : Constraint) (names : List String)
      (named : names.map p.find? = c.primitives.map some) (admissible : c.Admissible) :
      Step p { p with constraints := p.constraints ++ [⟨c, names⟩] }
  | point (name : String) (x y : Float) (free : p.find? name = none)
      (hx : x.isFinite = true) (hy : y.isFinite = true) :
      Step p (p.grow [⟨name, ⟨x, false⟩, ⟨y, false⟩⟩] name (.point ⟨p.points.size⟩))
  | line (name : String) (start finish : Endpoint) (fits : p.LineFits name start finish) :
      Step p (p.growLine name start finish)
  | repin (pinned : List ParamId)
      (named : ∀ r ∈ pinned, r ∈ p.pinned ∨ ∃ name q, p.find? name = some q ∧ r.point ∈ q.handles) :
      Step p (invalidate { p with pinned })
  | rewrite (a : Arena) (rewritten : p.points.Rewritten a) :
      Step p (invalidate { p with points := a })

abbrev Steps : Problem → Problem → Prop := Relation.ReflTransGen Step

/-- What every step keeps, any number of steps keep. -/
theorem Steps.invariant {inv : Problem → Prop} (keep : ∀ {p q}, Step p q → inv p → inv q)
    {p q : Problem} (h : Steps p q) (hp : inv p) : inv q := by
  induction h with
  | refl => exact hp
  | tail _ step ih => exact keep step ih

/-- The points that registered primitives mention, oldest primitive first. -/
def mentions (p : Problem) : List PointId := p.primitives.flatMap fun (_, q) => q.handles

/-- Primitives mention all points of the arena and no others, first in the order of the handles;
and if the free parameters are known, they are known rightly. -/
structure Sound (p : Problem) : Prop where
  numbered : PointId.Numbered p.mentions p.points.size
  coherent : ∀ known, p.knownFree = some known → known = p.computeFree

theorem sound_empty : Sound empty :=
  ⟨PointId.numbered_nil, fun _ h => nomatch h⟩

theorem Sound.free_eq {p : Problem} (hp : p.Sound) : p.free = p.computeFree := by
  unfold free
  cases h : p.knownFree with
  | none => rfl
  | some known => exact hp.coherent known h

theorem Sound.contains_of_mentions {p : Problem} (hp : p.Sound) {id : PointId}
    (h : id ∈ p.mentions) : p.points.contains id = true :=
  Arena.contains_iff.mpr (hp.numbered.mem_iff.mp h)

theorem mem_mentions {p : Problem} {name : String} {q : Primitive} {id : PointId}
    (hq : (name, q) ∈ p.primitives) (hid : id ∈ q.handles) : id ∈ p.mentions :=
  List.mem_flatMap.mpr ⟨(name, q), hq, hid⟩

theorem mem_of_registered? {p : Problem} {name : String} {q : Primitive}
    (h : p.registered? name = some q) : (name, q) ∈ p.primitives := by
  obtain ⟨before, after, he, -⟩ := List.lookup_eq_some_iff.mp h
  rw [he]
  simp

theorem mem_of_lineEnd? {p : Problem} {name : String} {id : PointId}
    (h : p.lineEnd? name = some id) :
    ∃ line l, (line, .line l) ∈ p.primitives ∧ endOf? name line l = some id := by
  obtain ⟨⟨line, q⟩, hm, he⟩ := List.exists_of_findSome?_eq_some h
  obtain ⟨l, hl, he⟩ := Option.bind_eq_some_iff.mp he
  cases q with
  | point _ => cases hl
  | line _ =>
    cases hl
    exact ⟨line, l, hm, he⟩

theorem endOf?_mem {name line : String} {l : Line} {id : PointId}
    (h : endOf? name line l = some id) : id ∈ l.handles := by
  unfold endOf? at h
  split at h
  · cases h
    simp [Line.handles]
  · split at h
    · cases h
      simp [Line.handles]
    · cases h

theorem find?_eq (p : Problem) (name : String) : p.find? name =
    (p.registered? name).or (((p.points.idOf? name).or (p.lineEnd? name)).map .point) := by
  simp only [find?, Option.orElse_eq_orElse, Option.orElse_eq_or]

/-- Whatever a name resolves to, the arena has its points. -/
theorem Sound.find?_contains {p : Problem} (hp : p.Sound) {name : String} {q : Primitive}
    (h : p.find? name = some q) {id : PointId} (hid : id ∈ q.handles) :
    p.points.contains id = true := by
  rw [find?_eq] at h
  rcases Option.or_eq_some_iff.mp h with hr | ⟨-, ha⟩
  · exact hp.contains_of_mentions (mem_mentions (mem_of_registered? hr) hid)
  · obtain ⟨i, hi, rfl⟩ := Option.map_eq_some_iff.mp ha
    obtain rfl : id = i := List.mem_singleton.mp hid
    rcases Option.or_eq_some_iff.mp hi with harena | ⟨-, hend⟩
    · obtain ⟨point, hg, -⟩ := Arena.get?_of_idOf? harena
      rw [← Arena.get?_isSome, hg]
      rfl
    · obtain ⟨line, l, hm, he⟩ := mem_of_lineEnd? hend
      exact hp.contains_of_mentions (mem_mentions hm (endOf?_mem he))

theorem mem_computeFree {p : Problem} {q : ParamId} :
    q ∈ p.computeFree ↔ q.point ∈ p.mentions ∧ p.isParamFixed q = false := by
  unfold computeFree
  rw [List.mem_filter, ParamId.mem_ofPoints, Bool.not_eq_true']
  rfl

theorem Sound.param?_isSome {p : Problem} (hp : p.Sound) {q : ParamId} (h : q ∈ p.computeFree) :
    (p.points.param? q).isSome = true :=
  Arena.param?_isSome.trans (hp.contains_of_mentions (mem_computeFree.mp h).1)

theorem isParamFixed_congr {p q : Problem} (hpinned : q.pinned = p.pinned)
    (hflags : ∀ r, (q.points.param? r).map Parameter.fixed = (p.points.param? r).map Parameter.fixed)
    (r : ParamId) : q.isParamFixed r = p.isParamFixed r := by
  unfold isParamFixed
  rw [hpinned, Parameter.any_fixed_congr (hflags r)]

theorem computeFree_congr {p q : Problem} (hprimitives : q.primitives = p.primitives)
    (hfixed : ∀ r, q.isParamFixed r = p.isParamFixed r) : q.computeFree = p.computeFree := by
  unfold computeFree
  rw [hprimitives]
  exact List.filter_congr fun r _ => by rw [hfixed]

theorem numbered_handle {p : Problem} {e : Endpoint} (hf : e.Fits p) (name : String)
    {mentions : List PointId} {n : Nat} (hm : PointId.Numbered mentions n)
    (hn : p.points.size ≤ n) :
    PointId.Numbered (mentions ++ [e.handle n]) (n + (e.added name).length) := by
  cases e with
  | fresh x y => exact hm.next
  | shared id =>
    have hid : id.index < p.points.size := Arena.contains_iff.mp hf
    exact hm.old (Nat.lt_of_lt_of_le hid hn)

theorem mentions_grow (p : Problem) (added : List Point) (name : String) (q : Primitive) :
    (p.grow added name q).mentions = p.mentions ++ q.handles := by
  simp [mentions, grow, invalidate]

theorem size_grow (p : Problem) (added : List Point) (name : String) (q : Primitive) :
    (p.grow added name q).points.size = p.points.size + added.length := by
  simp [grow, invalidate, Arena.size]

theorem Sound.growLine {p : Problem} (hp : p.Sound) {name : String} {start finish : Endpoint}
    (fits : p.LineFits name start finish) : (p.growLine name start finish).Sound := by
  refine ⟨?_, fun _ h => nomatch h⟩
  have hs := numbered_handle fits.startFits (startName name) hp.numbered (Nat.le_refl _)
  have hf := numbered_handle fits.finishFits (finishName name) hs (Nat.le_add_right _ _)
  unfold Problem.growLine
  rw [mentions_grow, size_grow, List.length_append, ← Nat.add_assoc]
  rw [List.append_assoc] at hf
  exact hf

theorem Step.sound {p q : Problem} (h : Step p q) (hp : p.Sound) : q.Sound := by
  cases h with
  | stay => exact hp
  | count =>
    refine ⟨hp.numbered, fun known hk => ?_⟩
    cases hk
    exact hp.free_eq
  | declare c names named admissible => exact ⟨hp.numbered, hp.coherent⟩
  | point name x y free hx hy =>
    refine ⟨?_, fun _ hk => nomatch hk⟩
    rw [mentions_grow, size_grow]
    exact hp.numbered.next
  | line name start finish fits => exact hp.growLine fits
  | repin pinned named => exact ⟨hp.numbered, fun _ hk => nomatch hk⟩
  | rewrite a rewritten =>
    refine ⟨?_, fun _ hk => nomatch hk⟩
    change PointId.Numbered p.mentions a.size
    rw [Arena.size_eq_of_names rewritten.names]
    exact hp.numbered

theorem step_addPoint (p : Problem) (name : String) (x y : Float) :
    Step p ((addPoint name x y).on p).2 := by
  rcases (addPoint_atomic p name x y).cases with ⟨⟨hn, hx, hy⟩, h⟩ | ⟨-, err, h⟩
  · rw [h]
    exact .point name x y hn hx hy
  · rw [h]
    exact .stay

theorem step_addLine (p : Problem) (name : String) (start finish : Endpoint) :
    Step p ((addLine name start finish).on p).2 := by
  rcases (addLine_atomic p name start finish).cases with ⟨hfits, h⟩ | ⟨-, err, h⟩
  · rw [h]
    exact .line name start finish hfits
  · rw [h]
    exact .stay

theorem step_declare {p : Problem} {names : List String} {x : Except Error Constraint}
    (h : ∀ c, x = .ok c → names.map p.find? = c.primitives.map some ∧ c.Admissible) :
    Step p (p.declare names x).2 := by
  cases x with
  | error err => exact .stay
  | ok c => exact .declare c names (h c rfl).1 (h c rfl).2

theorem step_constrainLength (p : Problem) (name : String) (length : Float) :
    Step p ((constrainLength name length).on p).2 := by
  rw [on_constrainLength]
  apply step_declare
  intro c hc
  obtain ⟨l, hl, hc⟩ := bind_eq_ok.mp hc
  obtain ⟨hlength, rfl⟩ := Constraint.newLineLength_eq_ok.mp hc
  refine ⟨?_, hlength⟩
  simp [Constraint.primitives, line_eq_ok.mp hl]

theorem step_constrainAngle (p : Problem) (a b : String) (degrees : Float) :
    Step p ((constrainAngle a b degrees).on p).2 := by
  rw [on_constrainAngle]
  apply step_declare
  intro c hc
  obtain ⟨l, hl, hc⟩ := bind_eq_ok.mp hc
  obtain ⟨m, hm, hc⟩ := bind_eq_ok.mp hc
  obtain ⟨hdegrees, rfl⟩ := Constraint.newLineAngle_eq_ok.mp hc
  refine ⟨?_, degrees, hdegrees, rfl⟩
  simp [Constraint.primitives, line_eq_ok.mp hl, line_eq_ok.mp hm]

theorem step_constrainDistance (p : Problem) (a b : String) (distance : Float) :
    Step p ((constrainDistance a b distance).on p).2 := by
  rw [on_constrainDistance]
  apply step_declare
  intro c hc
  obtain ⟨i, hi, hc⟩ := bind_eq_ok.mp hc
  obtain ⟨j, hj, hc⟩ := bind_eq_ok.mp hc
  obtain ⟨hdistance, rfl⟩ := Constraint.newPointDistance_eq_ok.mp hc
  refine ⟨?_, hdistance⟩
  simp [Constraint.primitives, point_eq_ok.mp hi, point_eq_ok.mp hj]

theorem step_pin (p : Problem) (name : String) : Step p ((pin name).on p).2 := by
  rw [on_pin]
  cases hq : p.find? name with
  | none => exact .stay
  | some q =>
    refine .repin _ fun r hr => ?_
    rcases List.mem_append.mp (List.mem_eraseDups.mp hr) with hr | hr
    · exact .inl hr
    · exact .inr ⟨name, q, hq, ParamId.mem_ofPoints.mp hr⟩

theorem step_release (p : Problem) (name : String) : Step p ((release name).on p).2 := by
  rw [on_release]
  cases p.find? name with
  | none => exact .stay
  | some q => exact .repin _ fun r hr => .inl (List.mem_filter.mp hr).1

theorem Sound.step_setFixed {p : Problem} (hp : p.Sound) (name : String) (fixed : Bool) :
    Step p ((setFixed name fixed).on p).2 := by
  rw [on_setFixed fixed fun q hq id hid => hp.find?_contains hq hid]
  cases p.find? name with
  | none => exact .stay
  | some q => exact .rewrite _ (.modifyParams p.points _ fun _ => .inr rfl)

/-- A move takes place, or it is refused and nothing is moved. -/
theorem Sound.move_cases {p : Problem} (hp : p.Sound) (name : String) (x y : Float) :
    (∃ id, x.isFinite = true ∧ y.isFinite = true ∧
      (move name x y).on p = (.ok (), p.relocate id x y)) ∨
    ∃ err, (move name x y).on p = (.error err, p) := by
  by_cases hq : ∃ id, p.find? name = some (.point id)
  · obtain ⟨id, hq⟩ := hq
    have hk := hp.find?_contains hq (List.mem_singleton.mpr rfl)
    rcases (move_atomic x y hq hk).cases with ⟨⟨hx, hy⟩, h⟩ | ⟨-, err, h⟩
    · exact .inl ⟨id, hx, hy, h⟩
    · exact .inr ⟨err, h⟩
  · exact .inr (move_refused x y fun id hid => hq ⟨id, hid⟩)

theorem Sound.step_move {p : Problem} (hp : p.Sound) (name : String) (x y : Float) :
    Step p ((move name x y).on p).2 := by
  rcases hp.move_cases name x y with ⟨id, hx, hy, h⟩ | ⟨err, h⟩
  · rw [h]
    exact .rewrite _ ((Arena.Rewritten.assign p.points _ hx).trans (.assign _ _ hy))
  · rw [h]
    exact .stay

theorem step_editParameter (p : Problem) (q : ParamId) (changes : List Parameter.Change) :
    Step p ((editParameter q changes).on p).2 := by
  rw [on_editParameter]
  cases p.points.param? q with
  | none => exact .stay
  | some r => exact .rewrite _ (.modifyParam p.points q fun r => r.value_apply changes)

theorem steps_recounted (p : Problem) : Steps p p.recounted :=
  .head (.rewrite p.points (.refl p.points)) (.single .count)

theorem steps_settled (p : Problem) {x : List Float} (hx : ∀ v ∈ x, v.isFinite = true) :
    Steps p (p.settled x) := by
  -- The free parameters of the moved problem are those that were counted before the search.
  let q := invalidate { p with points := p.points.writeValues p.computeFree x }
  have hfree : q.computeFree = p.computeFree :=
    computeFree_congr rfl
      (isParamFixed_congr rfl (Arena.flags_writeValues p.points p.computeFree x))
  have hstep : Step p q := .rewrite _ (.writeValues p.points p.computeFree hx)
  have hcount : Step q (p.settled x) := by
    have h : p.settled x = { q with knownFree := some q.free } := by
      change _ = { q with knownFree := some q.computeFree }
      rw [hfree]
      rfl
    rw [h]
    exact .count
  exact .head hstep (.single hcount)

theorem isUsable_iff {free : List ParamId} {x : List Float} :
    isUsable free x = true ↔ x.length = free.length ∧ ∀ v ∈ x, v.isFinite = true := by
  simp [isUsable]

/-- The ways in which a solve can end, given what the minimizer answers if it is asked. -/
inductive SolveEnds (p : Problem) (answer : Except Error Minimum) :
    Except Error Outcome × Problem → Prop where
  | invalid (hv : p.invalid ≠ []) :
      SolveEnds p answer (.error (.invalidGeometry p.invalid), p.invalidate)
  | idle (hv : p.invalid = []) (hf : p.computeFree = []) :
      SolveEnds p answer (.ok p.idleOutcome, p.recounted)
  | failed (hv : p.invalid = []) (hf : p.computeFree ≠ []) (cause : SolverCause)
      (hu : ∀ m, answer = .ok m → isUsable p.computeFree m.x = false) :
      SolveEnds p answer (.error (.solverFailure cause), p.recounted)
  | settled (hv : p.invalid = []) (hf : p.computeFree ≠ []) (m : Minimum)
      (ha : answer = .ok m) (hu : isUsable p.computeFree m.x = true) :
      SolveEnds p answer (.ok (p.outcomeAt m), p.settled m.x)

theorem asSolverFailure_eq (e : Error) : ∃ cause, asSolverFailure e = .solverFailure cause := by
  cases e <;> exact ⟨_, rfl⟩

theorem Sound.solveEnds {p : Problem} (hp : p.Sound) (minimizer : Minimizer)
    (settings : Settings) :
    SolveEnds p (p.answer minimizer settings) ((solveWith minimizer settings).on p) := by
  by_cases hv : p.invalid = []
  · by_cases hf : p.computeFree = []
    · rw [on_solveWith_idle minimizer settings hv hf]
      exact .idle hv hf
    · rw [on_solveWith_searched minimizer settings hv hf fun q hq => hp.param?_isSome hq]
      cases ha : p.answer minimizer settings with
      | error e =>
        obtain ⟨cause, he⟩ := asSolverFailure_eq e
        dsimp only [concluded]
        rw [he]
        exact .failed hv hf cause fun _ hm => nomatch hm
      | ok m =>
        cases hu : isUsable p.computeFree m.x with
        | true =>
          simp only [concluded, hu, if_true]
          exact .settled hv hf m rfl hu
        | false =>
          simp only [concluded, hu, Bool.false_eq_true, if_false]
          refine .failed hv hf _ fun m' hm => ?_
          cases hm
          exact hu
  · rw [on_solveWith_invalid minimizer settings hv]
    exact .invalid hv

theorem Sound.steps_solveWith {p : Problem} (hp : p.Sound) (minimizer : Minimizer)
    (settings : Settings) : Steps p ((solveWith minimizer settings).on p).2 := by
  have hends := hp.solveEnds minimizer settings
  generalize (solveWith minimizer settings).on p = result at hends
  cases hends with
  | invalid hv => exact .single (.rewrite p.points (.refl p.points))
  | idle hv hf => exact steps_recounted p
  | failed hv hf cause hu => exact steps_recounted p
  | settled hv hf m ha hu => exact steps_settled p (isUsable_iff.mp hu).2

theorem on_discard {α : Type} (e : Edit α) (p : Problem) :
    (Edit.on (do let _ ← e) p).2 = (e.on p).2 := by
  rw [on_bind]
  rcases e.on p with ⟨_ | _, q⟩ <;> rfl

theorem Sound.steps_after {p : Problem} (hp : p.Sound) (op : Operation) : Steps p (op.after p) := by
  unfold Operation.after Operation.edit
  cases op with
  | addPoint name x y =>
    rw [on_discard]
    exact .single (step_addPoint p name x y)
  | addLine name start finish => exact .single (step_addLine p name start finish)
  | constrainLength name length => exact .single (step_constrainLength p name length)
  | constrainAngle a b degrees => exact .single (step_constrainAngle p a b degrees)
  | constrainDistance a b distance => exact .single (step_constrainDistance p a b distance)
  | pin name => exact .single (step_pin p name)
  | release name => exact .single (step_release p name)
  | setFixed name fixed => exact .single (hp.step_setFixed name fixed)
  | move name x y => exact .single (hp.step_move name x y)
  | editParameter q changes =>
    rw [on_discard]
    exact .single (step_editParameter p q changes)
  | freeParameters => exact .single .count
  | describe => exact .single .count
  | solve settings =>
    rw [on_discard]
    exact hp.steps_solveWith Simplex.minimizer settings
  | solveWith minimizer settings =>
    rw [on_discard]
    exact hp.steps_solveWith minimizer settings

theorem Sound.steps_afterAll {p : Problem} (hp : p.Sound) (ops : List Operation) :
    Steps p (p.afterAll ops) := by
  induction ops generalizing p with
  | nil => exact .refl
  | cons op rest ih =>
    have hop := hp.steps_after op
    exact hop.trans (ih (Steps.invariant Step.sound hop hp))

/-- What holds at first and is kept by every step holds of all that can be reached. -/
theorem Reachable.invariant {p : Problem} (h : p.Reachable) (inv : Problem → Prop)
    (start : inv empty) (keep : ∀ {p q}, Step p q → inv p → inv q) : inv p := by
  obtain ⟨ops, rfl⟩ := h
  exact Steps.invariant keep (sound_empty.steps_afterAll ops) start

theorem Reachable.sound {p : Problem} (h : p.Reachable) : p.Sound :=
  h.invariant Sound sound_empty Step.sound

end Problem

end PlaneSketch
