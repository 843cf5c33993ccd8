import PlaneSketch.Proofs.FreeParameters
import PlaneSketch.Proofs.Rollback

namespace PlaneSketch

/-- The two ways to fix a parameter. -/
inductive Channel where
  | flag
  | position
deriving DecidableEq

/-- What these changes set the flag to, in order. None of them is made after one that fails. -/
def Parameter.flagsOf : List Change → List Bool
  | [] => []
  | .setFixed fixed :: rest => fixed :: flagsOf rest
  | .set value :: rest => if value.isFinite then flagsOf rest else []

namespace Problem

/-- Is the parameter fixed in this way? -/
def fixedBy (p : Problem) : Channel → ParamId → Bool
  | .flag, r => (p.points.param? r).any Parameter.fixed
  | .position, r => p.pinned.contains r

/-- Does the name lead to something that has this parameter? -/
def covers (p : Problem) (name : String) (r : ParamId) : Bool :=
  (p.find? name).any fun q => q.handles.contains r.point

end Problem

namespace Operation

/-- The way in which the operation fixes or frees, if that is what it does. -/
def channel? : Operation → Option Channel
  | setFixed _ _ => some .flag
  | editParameter _ changes => if (Parameter.flagsOf changes).isEmpty then none else some .flag
  | pin _ => some .position
  | release _ => some .position
  | _ => none

/-- What the operation has to say of this parameter, in order. -/
def values (p : Problem) (r : ParamId) : Operation → List Bool
  | setFixed name fixed => if p.covers name r then [fixed] else []
  | editParameter q changes => if q = r then Parameter.flagsOf changes else []
  | pin name => if p.covers name r then [true] else []
  | release name => if p.covers name r then [false] else []
  | _ => []

def succeeds (op : Operation) (p : Problem) : Bool := (op.edit.on p).1.isOk

/-- What the operation writes to the channel for this parameter, in order. -/
def writes (op : Operation) (p : Problem) (c : Channel) (r : ParamId) : List Bool :=
  if op.succeeds p = true ∧ op.channel? = some c then op.values p r else []

/-- Afterwards each parameter is fixed in each way as the operation wrote last, or as before. -/
def Obeyed (op : Operation) (p : Problem) : Prop :=
  ∀ c r, (op.after p).fixedBy c r = (op.writes p c r).getLast?.getD (p.fixedBy c r)

end Operation

namespace Problem

/-- All that a history writes to the channel for this parameter, oldest first. -/
def written (c : Channel) (r : ParamId) : Problem → List Operation → List Bool
  | _, [] => []
  | p, op :: rest => op.writes p c r ++ written c r (op.after p) rest

end Problem

theorem Parameter.fixed_apply (changes : List Change) (r : Parameter) :
    (apply changes r).2.fixed = (flagsOf changes).getLast?.getD r.fixed := by
  induction changes generalizing r with
  | nil => rfl
  | cons change rest ih =>
    cases change with
    | setFixed fixed =>
      simp only [apply, flagsOf, List.getLast?_cons, Option.getD_some]
      exact ih (r.setFixed fixed)
    | set value =>
      by_cases hv : value.isFinite = true
      · simp only [apply, flagsOf, set_eq_ok.mpr ⟨hv, rfl⟩, hv, if_true]
        exact ih (r.assign value)
      · have hs : r.set value = .error (.invalidValue value) := by
          simp [set, checkFinite, hv, bind, Except.bind]
        simp only [apply, flagsOf, hs, hv]
        rfl

namespace Arena

/-- New points come without a fixed coordinate. -/
theorem flag_append (a : Arena) {added : List Point}
    (h : ∀ point ∈ added, ∀ axis, (point.param axis).fixed = false) (r : ParamId) :
    ((Arena.mk (a.points ++ added)).param? r).any Parameter.fixed =
      (a.param? r).any Parameter.fixed := by
  unfold param? get?
  rcases Nat.lt_or_ge r.point.index a.points.length with hi | hi
  · rw [List.getElem?_append_left hi]
  · rw [List.getElem?_append_right hi, List.getElem?_eq_none hi]
    cases hp : added[r.point.index - a.points.length]? with
    | none => rfl
    | some point => exact h point (List.mem_of_getElem? hp) r.axis

theorem param?_modifyParams (a : Arena) (params : List ParamId) {f : Parameter → Parameter}
    (hf : ∀ s, f (f s) = f s) (r : ParamId) :
    (a.modifyParams params f).param? r =
      if r ∈ params then (a.param? r).map f else a.param? r := by
  unfold modifyParams
  induction params generalizing a with
  | nil => rfl
  | cons q rest ih =>
    rw [List.foldl_cons, ih, param?_modifyParam]
    by_cases hq : q = r
    · subst hq
      cases a.param? q <;> simp [hf]
    · simp [hq, Ne.symm hq]

end Arena

theorem Endpoint.added_flag (e : Endpoint) (name : String) :
    ∀ point ∈ e.added name, ∀ axis, (point.param axis).fixed = false := by
  cases e with
  | fresh x y =>
    intro point hm axis
    obtain rfl := List.mem_singleton.mp hm
    cases axis <;> rfl
  | shared id =>
    intro point hm
    cases hm

namespace Problem

open Edit

/-- Each parameter is fixed in `q` in the ways in which it is in `p`. -/
structure Steady (p q : Problem) : Prop where
  flags : ∀ r, q.fixedBy .flag r = p.fixedBy .flag r
  pinned : q.pinned = p.pinned

theorem Steady.of_eq {p q : Problem} (hpoints : q.points = p.points)
    (hpinned : q.pinned = p.pinned) : Steady p q :=
  ⟨fun r => by simp only [Problem.fixedBy, hpoints], hpinned⟩

theorem Steady.fixedBy {p q : Problem} (h : Steady p q) (c : Channel) (r : ParamId) :
    q.fixedBy c r = p.fixedBy c r := by
  cases c with
  | flag => exact h.flags r
  | position => simp only [Problem.fixedBy, h.pinned]

theorem Steady.of_flags {p q : Problem}
    (hflags : ∀ r, (q.points.param? r).map Parameter.fixed = (p.points.param? r).map Parameter.fixed)
    (hpinned : q.pinned = p.pinned) : Steady p q :=
  ⟨fun r => Parameter.any_fixed_congr (hflags r), hpinned⟩

theorem steady_grow (p : Problem) {added : List Point}
    (h : ∀ point ∈ added, ∀ axis, (point.param axis).fixed = false) (name : String)
    (q : Primitive) : Steady p (p.grow added name q) :=
  ⟨p.points.flag_append h, rfl⟩

theorem steady_of_atomic {α : Type} {e : Edit α} {p q : Problem} {c : Prop} {a : α}
    (h : e.Atomic p c a q) (hq : Steady p q) : Steady p (e.on p).2 := by
  rcases h.cases with ⟨-, hdone⟩ | ⟨-, err, hrefused⟩
  · rw [hdone]
    exact hq
  · rw [hrefused]
    exact .of_eq rfl rfl

theorem Steady.discard {α : Type} {e : Edit α} {p : Problem} (h : Steady p (e.on p).2) :
    Steady p (Edit.on (do let _ ← e) p).2 := by
  rw [on_discard]
  exact h

theorem steady_of_declare {p : Problem} {e : Edit Unit} {names : List String}
    {x : Except Error Constraint} (h : e.on p = p.declare names x) : Steady p (e.on p).2 := by
  rw [h]
  cases x <;> exact .of_eq rfl rfl

theorem Sound.steady_move {p : Problem} (hp : p.Sound) (name : String) (x y : Float) :
    Steady p ((move name x y).on p).2 := by
  rcases hp.move_cases name x y with ⟨id, -, -, h⟩ | ⟨err, h⟩
  · rw [h]
    refine .of_flags (fun r => ?_) rfl
    exact (Arena.flags_assign _ _ r y).trans (Arena.flags_assign p.points _ r x)
  · rw [h]
    exact .of_eq rfl rfl

theorem Sound.steady_solveWith {p : Problem} (hp : p.Sound) (minimizer : Minimizer)
    (settings : Settings) : Steady p ((solveWith minimizer settings).on p).2 := by
  have hends := hp.solveEnds minimizer settings
  generalize (solveWith minimizer settings).on p = result at hends
  cases hends with
  | invalid hv => exact .of_eq rfl rfl
  | idle hv hf => exact .of_eq rfl rfl
  | failed hv hf cause hu => exact .of_eq rfl rfl
  | settled hv hf m ha hu =>
    exact .of_flags (Arena.flags_writeValues p.points p.computeFree m.x) rfl

theorem writes_of_channel {op : Operation} {c : Channel} (h : op.channel? ≠ some c) (p : Problem)
    (r : ParamId) : op.writes p c r = [] :=
  if_neg fun hw => h hw.2

theorem writes_of_refused {op : Operation} {p : Problem} (h : op.succeeds p = false) (c : Channel)
    (r : ParamId) : op.writes p c r = [] :=
  if_neg fun hw => by rw [h] at hw; cases hw.1

theorem Steady.obeyed {op : Operation} {p : Problem} (h : Steady p (op.after p))
    (hc : op.channel? = none) : op.Obeyed p := by
  intro c r
  rw [writes_of_channel (by rw [hc]; exact nofun), h.fixedBy]
  rfl

/-- An operation that writes this value to one channel of all that a name covers. -/
theorem obeyed_of_named {op : Operation} {p : Problem} {name : String} {channel : Channel}
    {value : Bool} {next : Primitive → Problem}
    (hon : op.edit.on p =
      (p.find? name).elim (.error (.notFound name), p) fun q => (.ok (), next q))
    (hchannel : op.channel? = some channel)
    (hvalues : ∀ r, op.values p r = if p.covers name r then [value] else [])
    (hnext : ∀ q, p.find? name = some q → ∀ c r, (next q).fixedBy c r =
      if channel = c ∧ r.point ∈ q.handles then value else p.fixedBy c r) : op.Obeyed p := by
  intro c r
  unfold Operation.after Operation.writes Operation.succeeds
  rw [hon, hvalues, covers]
  cases hq : p.find? name with
  | none => rfl
  | some q =>
    rw [Option.elim_some, hnext q hq, hchannel]
    by_cases hc : channel = c <;> by_cases hr : r.point ∈ q.handles <;>
      simp [hc, hr, Except.isOk, Except.toBool]

theorem Sound.setFixed_obeyed {p : Problem} (hp : p.Sound) (name : String) (fixed : Bool) :
    (Operation.setFixed name fixed).Obeyed p := by
  have hk (q : Primitive) (hq : p.find? name = some q) (id : PointId) (hid : id ∈ q.handles) :
      p.points.contains id = true := hp.find?_contains hq hid
  refine obeyed_of_named (on_setFixed fixed hk) rfl (fun _ => rfl) fun q hq c r => ?_
  cases c with
  | position => rfl
  | flag =>
    change Option.any _ ((p.points.modifyParams _ (·.setFixed fixed)).param? r) = _
    rw [Arena.param?_modifyParams (f := (·.setFixed fixed)) _ _ fun _ => rfl]
    simp only [ParamId.mem_ofPoints, true_and]
    by_cases hr : r.point ∈ q.handles
    · obtain ⟨s, hs⟩ := Option.isSome_iff_exists.mp (Arena.param?_isSome.trans (hk q hq _ hr))
      rw [if_pos hr, if_pos hr, hs]
      rfl
    · rw [if_neg hr, if_neg hr]
      rfl

theorem pin_obeyed (p : Problem) (name : String) : (Operation.pin name).Obeyed p := by
  refine obeyed_of_named (on_pin p name) rfl (fun _ => rfl) fun q _ c r => ?_
  cases c with
  | flag => rfl
  | position =>
    by_cases hr : r.point ∈ q.handles <;>
      simp [fixedBy, invalidate, List.mem_eraseDups, ParamId.mem_ofPoints, hr]

theorem release_obeyed (p : Problem) (name : String) : (Operation.release name).Obeyed p := by
  refine obeyed_of_named (on_release p name) rfl (fun _ => rfl) fun q _ c r => ?_
  cases c with
  | flag => rfl
  | position =>
    by_cases hr : r.point ∈ q.handles <;>
      simp [fixedBy, invalidate, ParamId.mem_ofPoints, hr]

theorem on_edit_editParameter {p : Problem} {q : ParamId} {s : Parameter}
    (hs : p.points.param? q = some s) (changes : List Parameter.Change) :
    (Operation.editParameter q changes).edit.on p = (.ok (), { p.invalidate with
      points := p.points.modifyParam q fun r => (Parameter.apply changes r).2 }) := by
  unfold Operation.edit
  rw [on_bind, on_editParameter, hs]
  rfl

/-- Whatever else is done to a lent parameter, only what its flag is set to is written. -/
theorem writes_editParameter {p : Problem} {q : ParamId} {s : Parameter}
    (hs : p.points.param? q = some s) (changes : List Parameter.Change) (r : ParamId) :
    (Operation.editParameter q changes).writes p .flag r =
      if q = r then Parameter.flagsOf changes else [] := by
  have hok : (Operation.editParameter q changes).succeeds p = true := by
    unfold Operation.succeeds
    rw [on_edit_editParameter hs]
    rfl
  unfold Operation.writes
  rw [hok]
  cases hflags : Parameter.flagsOf changes <;> simp [Operation.channel?, Operation.values, hflags]

theorem editParameter_obeyed (p : Problem) (q : ParamId) (changes : List Parameter.Change) :
    (Operation.editParameter q changes).Obeyed p := by
  intro c r
  cases hs : p.points.param? q with
  | none =>
    have hon : (Operation.editParameter q changes).edit.on p =
        (.error (.unknownPoint q.point), p) := by
      unfold Operation.edit
      rw [on_bind, on_editParameter, hs]
      rfl
    rw [writes_of_refused (by rw [Operation.succeeds, hon]; rfl), Operation.after, hon]
    rfl
  | some s =>
    cases c with
    | position =>
      have hc : (Operation.editParameter q changes).channel? ≠ some .position := by
        cases hflags : Parameter.flagsOf changes <;> simp [Operation.channel?, hflags]
      rw [writes_of_channel hc, Operation.after, on_edit_editParameter hs]
      rfl
    | flag =>
      rw [writes_editParameter hs, Operation.after, on_edit_editParameter hs]
      change Option.any _ ((p.points.modifyParam q _).param? r) = _
      rw [Arena.param?_modifyParam]
      by_cases hq : q = r
      · subst hq
        rw [if_pos rfl, if_pos rfl, hs, fixedBy, hs]
        exact s.fixed_apply changes
      · rw [if_neg hq, if_neg hq]
        rfl

theorem Sound.obeyed {p : Problem} (hp : p.Sound) (op : Operation) : op.Obeyed p := by
  cases op with
  | setFixed name fixed => exact hp.setFixed_obeyed name fixed
  | editParameter q changes => exact editParameter_obeyed p q changes
  | pin name => exact pin_obeyed p name
  | release name => exact release_obeyed p name
  | addPoint name x y =>
    have hgrow := steady_grow p ((Endpoint.fresh x y).added_flag name) name (.point ⟨p.points.size⟩)
    exact Steady.obeyed (steady_of_atomic (addPoint_atomic p name x y) hgrow).discard rfl
  | addLine name start finish =>
    refine Steady.obeyed (steady_of_atomic (addLine_atomic p name start finish) ?_) rfl
    refine steady_grow p (fun point hm => ?_) name _
    rcases List.mem_append.mp hm with hm | hm
    · exact start.added_flag _ point hm
    · exact finish.added_flag _ point hm
  | constrainLength name length =>
    exact Steady.obeyed (steady_of_declare (on_constrainLength p name length)) rfl
  | constrainAngle a b degrees =>
    exact Steady.obeyed (steady_of_declare (on_constrainAngle p a b degrees)) rfl
  | constrainDistance a b distance =>
    exact Steady.obeyed (steady_of_declare (on_constrainDistance p a b distance)) rfl
  | move name x y => exact Steady.obeyed (hp.steady_move name x y) rfl
  | freeParameters => exact Steady.obeyed (.of_eq rfl rfl) rfl
  | describe => exact Steady.obeyed (.of_eq rfl rfl) rfl
  | solve settings =>
    exact Steady.obeyed (hp.steady_solveWith Simplex.minimizer settings).discard rfl
  | solveWith minimizer settings =>
    exact Steady.obeyed (hp.steady_solveWith minimizer settings).discard rfl

/-- So a history leaves the parameter as it wrote last. Each operation is read in the problem that
those before it have left, since that is where its name is looked up. -/
theorem Sound.fixedBy_afterAll {p : Problem} (hp : p.Sound) (ops : List Operation) (c : Channel)
    (r : ParamId) :
    (p.afterAll ops).fixedBy c r = (written c r p ops).getLast?.getD (p.fixedBy c r) := by
  induction ops generalizing p with
  | nil => rfl
  | cons op rest ih =>
    have hop : (op.after p).Sound := Steps.invariant Step.sound (hp.steps_after op) hp
    change ((op.after p).afterAll rest).fixedBy c r = _
    rw [ih hop, hp.obeyed op, written, List.getLast?_append, Option.getD_or]

theorem fixedBy_empty (c : Channel) (r : ParamId) : empty.fixedBy c r = false := by
  cases c <;> rfl

theorem isParamFixed_eq_false {p : Problem} {r : ParamId} :
    p.isParamFixed r = false ↔ ∀ c, p.fixedBy c r = false := by
  unfold isParamFixed
  rw [Bool.or_eq_false_iff]
  constructor
  · rintro ⟨hposition, hflag⟩ c
    cases c with
    | flag => exact hflag
    | position => exact hposition
  · exact fun h => ⟨h .position, h .flag⟩

/-- After any history, also of operations that failed, a parameter's own flag is what was last
written to it, and the parameter is pinned if the last operation to pin or release it has pinned it,
by whatever names this was done. It is free if it is fixed in neither way. An operation that is not
for one of the two ways leaves it as it is for every parameter; so do new geometry and constraints,
moves, new values, reads and solves, however they end. -/
theorem last_writer_fixes (ops : List Operation) (r : ParamId) :
    (∀ c, (empty.afterAll ops).fixedBy c r = (written c r empty ops).getLast?.getD false) ∧
    (∀ s, (empty.afterAll ops).parameter r = .ok s →
      s.fixed = (empty.afterAll ops).fixedBy .flag r ∧
      (r ∈ (empty.afterAll ops).free ↔ ∀ c, (empty.afterAll ops).fixedBy c r = false)) ∧
    ∀ (op : Operation) c, op.channel? ≠ some c →
      (op.after (empty.afterAll ops)).fixedBy c r = (empty.afterAll ops).fixedBy c r := by
  have hs : (empty.afterAll ops).Sound := Reachable.sound ⟨ops, rfl⟩
  refine ⟨fun c => ?_, fun s hr => ⟨?_, ?_⟩, fun op c hc => ?_⟩
  · rw [sound_empty.fixedBy_afterAll, fixedBy_empty]
  · rw [fixedBy, parameter_eq_ok.mp hr]
    rfl
  · have hk : (empty.afterAll ops).points.contains r.point = true := by
      rw [← Arena.param?_isSome, parameter_eq_ok.mp hr]
      rfl
    rw [hs.mem_free, isParamFixed_eq_false]
    exact and_iff_right hk
  · rw [hs.obeyed op, writes_of_channel hc]
    rfl

/-- Two lines with a corner in common. The corner is pinned with the first line and released by its
name in the second, whose flags are then set; one of them is taken back while a parameter is lent
out, before an edit of it fails. -/
def gable : List Operation := [
  .addLine "a" (.fresh 0 0) (.fresh 3 4),
  .addLine "b" (.shared ⟨1⟩) (.fresh 6 0),
  .pin "a",
  .release "b.start",
  .setFixed "b" true,
  .editParameter ⟨⟨1⟩, .x⟩ [.setFixed false, .set (1 / 0), .setFixed true],
  .setFixed "c" false,
  .move "a.end" 3 5,
  .solveWith astray {}]

theorem gable_last_writer_fixes :
    written .flag ⟨⟨1⟩, .x⟩ empty gable = [true, false] ∧
    written .position ⟨⟨1⟩, .x⟩ empty gable = [true, false] ∧
    (∀ c, (empty.afterAll gable).fixedBy c ⟨⟨1⟩, .x⟩ = false) ∧
    ⟨⟨1⟩, .x⟩ ∈ (empty.afterAll gable).free ∧
    (empty.afterAll gable).fixedBy .position ⟨⟨0⟩, .y⟩ = true ∧
    ((Operation.solveWith astray {}).after (empty.afterAll gable)).fixedBy .flag ⟨⟨1⟩, .y⟩ =
      (empty.afterAll gable).fixedBy .flag ⟨⟨1⟩, .y⟩ := by
  have hflag : written .flag ⟨⟨1⟩, .x⟩ empty gable = [true, false] := by decide +kernel
  have hposition : written .position ⟨⟨1⟩, .x⟩ empty gable = [true, false] := by decide +kernel
  have hpinned : written .position ⟨⟨0⟩, .y⟩ empty gable = [true] := by decide +kernel
  obtain ⟨hlast, hparameter, -⟩ := last_writer_fixes gable ⟨⟨1⟩, .x⟩
  have hunfixed : ∀ c, (empty.afterAll gable).fixedBy c ⟨⟨1⟩, .x⟩ = false := by
    intro c
    rw [hlast]
    cases c with
    | flag => rw [hflag]; rfl
    | position => rw [hposition]; rfl
  have hexists : ((empty.afterAll gable).points.param? ⟨⟨1⟩, .x⟩).isSome = true := by
    decide +kernel
  obtain ⟨s, hs⟩ := Option.isSome_iff_exists.mp hexists
  refine ⟨hflag, hposition, hunfixed, ?_, ?_, ?_⟩
  · exact (hparameter s (parameter_eq_ok.mpr hs)).2.mpr hunfixed
  · rw [(last_writer_fixes gable ⟨⟨0⟩, .y⟩).1, hpinned]
    rfl
  · exact (last_writer_fixes gable ⟨⟨1⟩, .y⟩).2.2 _ .flag nofun

end Problem

end PlaneSketch
