import PlaneSketch.Proofs.Handles

namespace PlaneSketch

namespace Arena

/-- Each of these parameters has one value in both arenas, or is in neither. -/
def AgreeOn (params : List ParamId) (a b : Arena) : Prop :=
  ∀ r ∈ params, (a.param? r).map Parameter.value = (b.param? r).map Parameter.value

variable {params : List ParamId} {ids : List PointId} {a b c : Arena}

theorem AgreeOn.trans (h : AgreeOn params a b) (h' : AgreeOn params b c) : AgreeOn params a c :=
  fun r hr => (h r hr).trans (h' r hr)

/-- A write does not matter to the parameters of other points. -/
theorem agreeOn_modifyParam (a : Arena) {q : ParamId} (hq : q.point ∉ ids)
    (f : Parameter → Parameter) : AgreeOn (ParamId.ofPoints ids) a (a.modifyParam q f) := by
  intro r hr
  have hne : q ≠ r := fun h => hq (h ▸ ParamId.mem_ofPoints.mp hr)
  rw [param?_modifyParam, if_neg hne]

theorem position?_eq (a : Arena) (id : PointId) : a.position? id = do
    let x ← (a.param? ⟨id, .x⟩).map Parameter.value
    let y ← (a.param? ⟨id, .y⟩).map Parameter.value
    return ⟨x, y⟩ := by
  unfold position? param?
  cases a.get? id <;> rfl

theorem AgreeOn.position? (h : AgreeOn (ParamId.ofPoints ids) a b) {id : PointId}
    (hid : id ∈ ids) : a.position? id = b.position? id := by
  have hvalue (axis : Axis) := h ⟨id, axis⟩ (ParamId.mem_ofPoints.mpr hid)
  rw [position?_eq, position?_eq, hvalue .x, hvalue .y]

end Arena

namespace Constraint

variable {c : Constraint} {a b : Arena}

theorem mem_handles {id : PointId} : id ∈ c.handles ↔ ∃ q ∈ c.primitives, id ∈ q.handles :=
  List.mem_flatMap

theorem mem_params {r : ParamId} : r ∈ c.params ↔ ∃ q ∈ c.primitives, r.point ∈ q.handles :=
  ParamId.mem_ofPoints.trans mem_handles

section

variable (h : Arena.AgreeOn c.params a b)

include h

theorem position?_congr {id : PointId} (hid : .point id ∈ c.primitives) :
    a.position? id = b.position? id :=
  h.position? (mem_handles.mpr ⟨_, hid, List.mem_singleton.mpr rfl⟩)

theorem vector?_congr {l : Line} (hl : .line l ∈ c.primitives) : l.vector? a = l.vector? b := by
  have hend {id : PointId} (hid : id ∈ l.handles) : a.position? id = b.position? id :=
    h.position? (mem_handles.mpr ⟨_, hl, hid⟩)
  unfold Line.vector?
  rw [hend (show l.start ∈ l.handles by simp [Line.handles]),
    hend (show l.finish ∈ l.handles by simp [Line.handles])]

/-- What is measured is read through the primitives of the constraint, and so through its
parameters. -/
theorem value?_congr : c.value? a = c.value? b := by
  cases c with
  | lineLength l length =>
    have hl : l.vector? a = l.vector? b := vector?_congr h (by simp [primitives])
    simp only [value?, hl]
  | lineAngle l m degrees =>
    have hl : l.vector? a = l.vector? b := vector?_congr h (by simp [primitives])
    have hm : m.vector? a = m.vector? b := vector?_congr h (by simp [primitives])
    simp only [value?, hl, hm]
  | pointDistance i j distance =>
    have hi : a.position? i = b.position? i := position?_congr h (by simp [primitives])
    have hj : a.position? j = b.position? j := position?_congr h (by simp [primitives])
    simp only [value?, hi, hj]

end

/-- The constraint has this value in the arena, and the error that goes with it. -/
def Measures (c : Constraint) (a : Arena) (value : Float) : Prop :=
  c.value? a = some value ∧ c.error? a = some (c.deviation value)

theorem measures_iff {value : Float} : c.Measures a value ↔ c.value? a = some value :=
  ⟨And.left, fun h => ⟨h, by rw [error?, h, Option.map_some]⟩⟩

theorem measures_both (h : Arena.AgreeOn c.params a b) (ha : a.Holds c.handles) :
    ∃ value, c.Measures a value ∧ c.Measures b value := by
  obtain ⟨value, hv⟩ := value?_of_holds ha
  exact ⟨value, measures_iff.mpr hv, measures_iff.mpr (value?_congr h ▸ hv)⟩

end Constraint

namespace Problem

open Edit

/-- A point was moved under one of its names, or its parameters were edited one by one. An edit
that is refused moves nothing. -/
inductive PointMoved (p : Problem) (id : PointId) : Problem → Prop where
  | move {name : String} (named : p.point name = .ok id) (x y : Float) :
      PointMoved p id ((move name x y).on p).2
  | edit (axis : Axis) (changes : List Parameter.Change) :
      PointMoved p id ((editParameter ⟨id, axis⟩ changes).on p).2

/-- `q` comes out of `p` when points are moved that this constraint has nothing to do with. -/
abbrev MovedElsewhere (c : Constraint) : Problem → Problem → Prop :=
  Relation.ReflTransGen fun p q => ∃ id, id ∉ c.handles ∧ PointMoved p id q

/-- The constraints are the same, and these points are where they were. -/
structure Spared (ids : List PointId) (p q : Problem) : Prop where
  constraints : q.constraints = p.constraints
  points : p.points.AgreeOn (ParamId.ofPoints ids) q.points

variable {ids : List PointId} {p q r : Problem} {c : Constraint} {id : PointId}

theorem Spared.refl (ids : List PointId) (p : Problem) : Spared ids p p :=
  ⟨rfl, fun _ _ => rfl⟩

theorem Spared.trans (h : Spared ids p q) (h' : Spared ids q r) : Spared ids p r :=
  ⟨h'.constraints.trans h.constraints, h.points.trans h'.points⟩

theorem PointMoved.step (h : PointMoved p id q) (hp : p.Sound) : Step p q := by
  cases h with
  | move _ x y => exact hp.step_move _ x y
  | edit axis changes => exact step_editParameter p ⟨id, axis⟩ changes

/-- Whatever is written to one point, the other ones stay where they are. -/
theorem PointMoved.spared (h : PointMoved p id q) (hp : p.Sound) (hid : id ∉ ids) :
    Spared ids p q := by
  cases h with
  | move named x y =>
    have hq := point_eq_ok.mp named
    have hk := hp.find?_contains hq (List.mem_singleton.mpr rfl)
    rcases (move_atomic x y hq hk).cases with ⟨-, hmove⟩ | ⟨-, err, hmove⟩
    · rw [hmove]
      -- The second write is to the arena that the first one leaves.
      exact ⟨rfl, (Arena.agreeOn_modifyParam _ hid _).trans (Arena.agreeOn_modifyParam _ hid _)⟩
    · rw [hmove]
      exact .refl ids p
  | edit axis changes =>
    rw [on_editParameter]
    cases p.points.param? ⟨id, axis⟩ with
    | none => exact .refl ids p
    | some r => exact ⟨rfl, Arena.agreeOn_modifyParam _ hid _⟩

theorem MovedElsewhere.spared (h : MovedElsewhere c p q) (hp : p.Sound) :
    q.Sound ∧ Spared c.handles p q := by
  induction h with
  | refl => exact ⟨hp, .refl _ _⟩
  | tail _ hlast ih =>
    obtain ⟨hs, hspared⟩ := ih
    obtain ⟨id, hid, hmoved⟩ := hlast
    exact ⟨(hmoved.step hs).sound hs, hspared.trans (hmoved.spared hs hid)⟩

/-- A constraint depends on what it says it depends on. Its parameters are both coordinates of each
point of each of its primitives, once each and in the order in which the points come first. Two
arenas that have these points, and give these parameters the same values, give the constraint the
same value and the same error. So these two also stay as they are, in a problem that can be reached,
when any other points are moved. -/
theorem constraints_depend_on_params (c : Constraint) :
    (∀ r, r ∈ c.params ↔ ∃ q ∈ c.primitives, r.point ∈ q.handles) ∧
    c.params.Nodup ∧ c.params.Pairwise (ParamId.Precedes c.handles) ∧
    (∀ a b : Arena, a.Holds c.handles → b.Holds c.handles → a.AgreeOn c.params b →
      ∃ value, c.Measures a value ∧ c.Measures b value) ∧
    ∀ p q : Problem, p.Reachable → c ∈ p.constraintList → MovedElsewhere c p q →
      c ∈ q.constraintList ∧ ∃ value, c.Measures p.points value ∧ c.Measures q.points value := by
  refine ⟨fun _ => Constraint.mem_params, ParamId.nodup_ofPoints _, ParamId.pairwise_ofPoints _,
    fun a b ha _ hagree => Constraint.measures_both hagree ha, fun p q hp hc hmoved => ?_⟩
  obtain ⟨-, hspared⟩ := hmoved.spared hp.sound
  refine ⟨?_, Constraint.measures_both hspared.points (hp.grounded.constrained c hc)⟩
  unfold constraintList
  rwa [hspared.constraints]

/-- Two lines with an angle between them that share a corner, and a point that lies elsewhere. -/
def wedge : Problem := empty.afterAll [
  .addPoint "far" 7 7,
  .addLine "a" (.fresh 0 0) (.fresh 3 0),
  .addLine "b" (.shared ⟨2⟩) (.fresh 3 4),
  .constrainAngle "a" "b" 90]

def wedgeAngle : Constraint := .lineAngle ⟨⟨1⟩, ⟨2⟩⟩ ⟨⟨2⟩, ⟨3⟩⟩ 90

/-- The wedge under other names, with other flags, and with its first point elsewhere. -/
def otherWedge : Arena := ⟨[⟨"b", ⟨1, true⟩, ⟨1, true⟩⟩, ⟨"", ⟨0, true⟩, ⟨0, false⟩⟩,
  ⟨"a", ⟨3, false⟩, ⟨0, false⟩⟩, ⟨"a", ⟨3, false⟩, ⟨4, true⟩⟩]⟩

theorem wedge_depends_on_params : wedge.Reachable ∧ wedgeAngle ∈ wedge.constraintList ∧
    wedgeAngle.params.length = 6 ∧ (⟨⟨2⟩, .y⟩ : ParamId) ∈ wedgeAngle.params ∧
    (∃ value, wedgeAngle.Measures wedge.points value ∧ wedgeAngle.Measures otherWedge value) ∧
    ∃ value, wedgeAngle.Measures wedge.points value ∧
      wedgeAngle.Measures ((editParameter ⟨⟨0⟩, .y⟩ [.setFixed true, .set 1]).on
        ((move "far" 8 9).on wedge).2).2.points value := by
  have hr : wedge.Reachable := ⟨_, rfl⟩
  have hc : wedgeAngle ∈ wedge.constraintList := by decide +kernel
  have hfar : wedge.point "far" = .ok ⟨0⟩ := point_eq_ok.mpr (by decide +kernel)
  have hnot : (⟨0⟩ : PointId) ∉ wedgeAngle.handles := by decide
  have hagree : wedge.points.AgreeOn wedgeAngle.params otherWedge := by
    unfold Arena.AgreeOn
    decide +kernel
  have hmove : MovedElsewhere wedgeAngle wedge ((move "far" 8 9).on wedge).2 :=
    .single ⟨⟨0⟩, hnot, .move hfar 8 9⟩
  obtain ⟨hmem, -, -, harenas, hmoves⟩ := constraints_depend_on_params wedgeAngle
  exact ⟨hr, hc, by decide, (hmem _).mpr ⟨.line ⟨⟨2⟩, ⟨3⟩⟩, by decide, by decide⟩,
    harenas _ _ (hr.grounded.constrained _ hc) (by unfold Arena.Holds; decide +kernel) hagree,
    (hmoves _ _ hr hc (hmove.tail ⟨⟨0⟩, hnot, .edit .y [.setFixed true, .set 1]⟩)).2⟩

end Problem

end PlaneSketch
