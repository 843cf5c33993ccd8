import PlaneSketch.Proofs.Comparison
import PlaneSketch.Proofs.Objective
import PlaneSketch.Proofs.Permanence

namespace PlaneSketch

namespace Arena

/-- All these handles denote points of the arena. -/
def Holds (a : Arena) (ids : List PointId) : Prop := ∀ id ∈ ids, id.index < a.size

variable {a : Arena} {ids : List PointId}

theorem Holds.contains (h : a.Holds ids) {id : PointId} (hid : id ∈ ids) : a.contains id = true :=
  contains_iff.mpr (h id hid)

theorem Holds.position? (h : a.Holds ids) {id : PointId} (hid : id ∈ ids) :
    ∃ v, a.position? id = some v := by
  obtain ⟨point, hp⟩ := Option.isSome_iff_exists.mp (get?_isSome.trans (h.contains hid))
  exact ⟨point.position, by simp [Arena.position?, hp]⟩

theorem Holds.of_size_le {b : Arena} (h : a.Holds ids) (hs : a.size ≤ b.size) : b.Holds ids :=
  fun id hid => Nat.lt_of_lt_of_le (h id hid) hs

theorem param?_eq_none {id : PointId} (h : a.contains id = false) (axis : Axis) :
    a.param? ⟨id, axis⟩ = none := by
  rw [← Option.not_isSome_iff_eq_none, param?_isSome, h]
  exact Bool.false_ne_true

end Arena

namespace Constraint

variable {c : Constraint} {a : Arena}

theorem vector?_of_holds {l : Line} (h : a.Holds l.handles) : ∃ v, l.vector? a = some v := by
  obtain ⟨s, hs⟩ := h.position? (show l.start ∈ l.handles by simp [Line.handles])
  obtain ⟨f, hf⟩ := h.position? (show l.finish ∈ l.handles by simp [Line.handles])
  exact ⟨f - s, by simp [Line.vector?, hs, hf]⟩

/-- A constraint can be measured where its points are. -/
theorem value?_of_holds (h : a.Holds c.handles) : ∃ value, c.value? a = some value := by
  cases c with
  | lineLength l length =>
    obtain ⟨v, hv⟩ := vector?_of_holds (a := a) (l := l) fun id hid =>
      h id (by simpa [handles, primitives, Primitive.handles] using hid)
    exact ⟨v.length, by simp [value?, hv]⟩
  | lineAngle l m degrees =>
    obtain ⟨v, hv⟩ := vector?_of_holds (a := a) (l := l) fun id hid =>
      h id (by simp [handles, primitives, Primitive.handles, hid])
    obtain ⟨w, hw⟩ := vector?_of_holds (a := a) (l := m) fun id hid =>
      h id (by simp [handles, primitives, Primitive.handles, hid])
    exact ⟨Angle.between v w, by simp [value?, hv, hw]⟩
  | pointDistance i j distance =>
    have hi : i ∈ (pointDistance i j distance).handles := by
      simp [handles, primitives, Primitive.handles]
    have hj : j ∈ (pointDistance i j distance).handles := by
      simp [handles, primitives, Primitive.handles]
    obtain ⟨v, hv⟩ := h.position? hi
    obtain ⟨w, hw⟩ := h.position? hj
    exact ⟨(v - w).length, by simp [value?, hv, hw]⟩

theorem isLength_iff {value : Float} :
    isLength value = true ↔ value.isFinite = true ∧ 0 ≤ value := by
  unfold isLength
  rw [Bool.and_eq_true, decide_eq_true_eq, Bool.not_eq_true', Number.isFinite_iff]
  constructor
  · rintro ⟨hle, hi⟩
    exact ⟨⟨(Number.le_iff.mp hle).2.1, hi⟩, hle⟩
  · rintro ⟨⟨-, hi⟩, hle⟩
    exact ⟨hle, hi⟩

end Constraint

namespace Problem

open Edit

/-- Every handle that the problem holds, and every one that it is led to by a name or by its free
parameters, denotes a point of its arena. -/
structure Grounded (p : Problem) : Prop where
  registered : ∀ {name q}, (name, q) ∈ p.primitives → p.points.Holds q.handles
  constrained : ∀ c ∈ p.constraintList, p.points.Holds c.handles
  pinned : p.points.Holds (p.pinned.map ParamId.point)
  named : ∀ {name q}, p.find? name = some q → p.points.Holds q.handles
  free : p.points.Holds (p.free.map ParamId.point)

theorem Grown.size_le {p q : Problem} (h : Grown p q) : p.points.size ≤ q.points.size := by
  simpa [Arena.size] using h.names.length_le

/-- A parameter can only be pinned by the name of what it belongs to, or else it was pinned
before. -/
theorem Step.pinned_holds {p q : Problem} (h : Step p q) (hp : p.Sound)
    (hpinned : p.points.Holds (p.pinned.map ParamId.point)) :
    q.points.Holds (q.pinned.map ParamId.point) := by
  have hkeep : q.points.Holds (p.pinned.map ParamId.point) :=
    hpinned.of_size_le h.grown.size_le
  cases h with
  | repin pinned named =>
    intro id hid
    obtain ⟨r, hr, rfl⟩ := List.mem_map.mp hid
    rcases named r hr with hold | ⟨name, q, hq, hm⟩
    · exact hpinned r.point (List.mem_map_of_mem hold)
    · exact Arena.contains_iff.mp (hp.find?_contains hq hm)
  | _ => exact hkeep

theorem Reachable.pinned_holds {p : Problem} (hp : p.Reachable) :
    p.points.Holds (p.pinned.map ParamId.point) := by
  have hboth : p.Sound ∧ p.points.Holds (p.pinned.map ParamId.point) :=
    hp.invariant (fun p => p.Sound ∧ p.points.Holds (p.pinned.map ParamId.point))
      ⟨sound_empty, fun _ hid => nomatch hid⟩
      fun step h => ⟨step.sound h.1, step.pinned_holds h.1 h.2⟩
  exact hboth.2

/-- The primitives of a constraint are found under the names that it was declared with. -/
theorem Referring.find? {p : Problem} (h : p.Referring) {c : Constraint} (hc : c ∈ p.constraintList)
    {q : Primitive} (hq : q ∈ c.primitives) : ∃ name, p.find? name = some q := by
  obtain ⟨d, hd, rfl⟩ := List.mem_map.mp hc
  have hm : some q ∈ d.names.map p.find? := by
    rw [h d hd]
    exact List.mem_map_of_mem hq
  obtain ⟨name, -, hname⟩ := List.mem_map.mp hm
  exact ⟨name, hname⟩

theorem Reachable.grounded {p : Problem} (hp : p.Reachable) : p.Grounded := by
  have hs := hp.sound
  have hnamed {name : String} {q : Primitive} (hq : p.find? name = some q) :
      p.points.Holds q.handles := fun _ hid => Arena.contains_iff.mp (hs.find?_contains hq hid)
  refine ⟨fun hq id hid => ?_, fun c hc id hid => ?_, hp.pinned_holds, hnamed, fun id hid => ?_⟩
  · exact Arena.contains_iff.mp (hs.contains_of_mentions (mem_mentions hq hid))
  · obtain ⟨q, hq, hid⟩ := List.mem_flatMap.mp hid
    obtain ⟨name, hname⟩ := hp.referring.find? hc hq
    exact hnamed hname id hid
  · obtain ⟨r, hr, rfl⟩ := List.mem_map.mp hid
    exact Arena.contains_iff.mp (hs.mem_free.mp hr).1

theorem Step.admissible {p q : Problem} (h : Step p q) (hp : ∀ c ∈ p.constraintList, c.Admissible) :
    ∀ c ∈ q.constraintList, c.Admissible := by
  cases h with
  | declare c names named admissible =>
    intro c' hc
    obtain ⟨d, hd, rfl⟩ := List.mem_map.mp hc
    rcases List.mem_append.mp hd with hold | hnew
    · exact hp _ (List.mem_map_of_mem hold)
    · cases List.mem_singleton.mp hnew
      exact admissible
  | _ => exact hp

theorem Reachable.admissible {p : Problem} (hp : p.Reachable) :
    ∀ c ∈ p.constraintList, c.Admissible :=
  hp.invariant (fun p => ∀ c ∈ p.constraintList, c.Admissible) (fun _ hc => nomatch hc)
    Step.admissible

theorem point_error {p : Problem} {name : String} {err : Error} (h : p.point name = .error err) :
    err = .notFound name ∨ err = .notAPoint name := by
  unfold point at h
  rw [lookup_eq] at h
  generalize p.find? name = found at h
  rcases found with _ | (id | l)
  · cases h
    exact .inl rfl
  · cases h
  · cases h
    exact .inr rfl

/-- A point shared with a line, pinned under the name that it has there. -/
def braced : Problem := empty.afterAll [
  .addPoint "o" 0 0,
  .addLine "l" (.shared ⟨0⟩) (.fresh 3 4),
  .pin "l.start",
  .constrainDistance "o" "l.end" 2,
  .addLine "m" (.fresh 1 1) (.shared ⟨9⟩)]

end Problem

end PlaneSketch
