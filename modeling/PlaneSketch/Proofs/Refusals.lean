import PlaneSketch.Proofs.History

namespace PlaneSketch

namespace Edit

variable {α β : Type} {e : Edit α} {p : Problem}

/-- If the edit is refused, the problem is in every respect what it was before. -/
def Traceless (e : Edit α) (p : Problem) : Prop := ∀ err q, e.on p = (.error err, q) → q = p

theorem Atomic.traceless {q : Problem} {c : Prop} {a : α} (h : e.Atomic p c a q) :
    e.Traceless p := by
  intro err r he
  rcases h.cases with ⟨-, hdone⟩ | ⟨-, err', hrefused⟩
  · rw [hdone] at he
    cases he
  · rw [hrefused] at he
    cases he
    rfl

/-- An edit that is refused if something is not found, and succeeds otherwise. -/
theorem traceless_of_elim {x : Option β} {err : Error} {result : β → α} {next : β → Problem}
    (h : e.on p = x.elim (.error err, p) fun b => (.ok (result b), next b)) : e.Traceless p := by
  intro err' q he
  rw [h] at he
  cases x with
  | none =>
    cases he
    rfl
  | some b => cases he

theorem Traceless.on_of_not_ok (h : e.Traceless p) (hn : (e.on p).1.isOk = false) :
    ∃ err, e.on p = (.error err, p) := by
  cases hr : e.on p with
  | mk result q =>
    cases result with
    | error err =>
      obtain rfl := h err q hr
      exact ⟨err, rfl⟩
    | ok a =>
      rw [hr] at hn
      cases hn

end Edit

namespace Problem

open Edit

theorem traceless_of_declare {e : Edit Unit} {p : Problem} {names : List String}
    {x : Except Error Constraint} (h : e.on p = p.declare names x) : e.Traceless p := by
  intro err q he
  rw [h] at he
  cases x with
  | error err =>
    cases he
    rfl
  | ok c => cases he

theorem Sound.setFixed_traceless {p : Problem} (hp : p.Sound) (name : String) (fixed : Bool) :
    (setFixed name fixed).Traceless p :=
  traceless_of_elim (on_setFixed fixed fun _ hq _ hid => hp.find?_contains hq hid)

theorem Sound.move_traceless {p : Problem} (hp : p.Sound) (name : String) (x y : Float) :
    (move name x y).Traceless p := by
  intro err q he
  rcases hp.move_cases name x y with ⟨id, -, -, h⟩ | ⟨err', h⟩
  · rw [h] at he
    cases he
  · rw [h] at he
    cases he
    rfl

/-- No edit of a problem that can be reached leaves a trace when it is refused, whatever names,
handles and numbers it is given: points, primitives, values, flags, constraints, pins, the
generation and the known free parameters are what they were. -/
theorem refused_edits_leave_no_trace {p : Problem} (hp : p.Reachable) :
    (∀ name x y, (addPoint name x y).Traceless p) ∧
    (∀ name start finish, (addLine name start finish).Traceless p) ∧
    (∀ name length, (constrainLength name length).Traceless p) ∧
    (∀ a b degrees, (constrainAngle a b degrees).Traceless p) ∧
    (∀ a b distance, (constrainDistance a b distance).Traceless p) ∧
    (∀ name, (pin name).Traceless p) ∧
    (∀ name, (release name).Traceless p) ∧
    (∀ name fixed, (setFixed name fixed).Traceless p) ∧
    (∀ name x y, (move name x y).Traceless p) ∧
    ∀ q changes, (editParameter q changes).Traceless p := by
  refine ⟨?_, ?_, ?_, ?_, ?_, ?_, ?_, ?_, ?_, ?_⟩
  · exact fun name x y => (addPoint_atomic p name x y).traceless
  · exact fun name start finish => (addLine_atomic p name start finish).traceless
  · exact fun name length => traceless_of_declare (on_constrainLength p name length)
  · exact fun a b degrees => traceless_of_declare (on_constrainAngle p a b degrees)
  · exact fun a b distance => traceless_of_declare (on_constrainDistance p a b distance)
  · exact fun name => traceless_of_elim (on_pin p name)
  · exact fun name => traceless_of_elim (on_release p name)
  · exact hp.sound.setFixed_traceless
  · exact hp.sound.move_traceless
  · exact fun q changes => traceless_of_elim (on_editParameter p q changes)

/-- A line with one pinned end, whose free parameters have been read. -/
def surveyed : Problem := empty.afterAll [
  .addPoint "p" 0 0,
  .addLine "l" (.shared ⟨0⟩) (.fresh 3 4),
  .pin "p",
  .freeParameters]

theorem surveyed_refuses_without_trace : surveyed.Reachable ∧ surveyed.generation = 3 ∧
    surveyed.knownFree = some [⟨⟨1⟩, .x⟩, ⟨⟨1⟩, .y⟩] ∧
    (∃ err, (addLine "m" (.fresh 9 9) (.shared ⟨7⟩)).on surveyed = (.error err, surveyed)) ∧
    (∃ err, (move "l.start" 1 (0 / 0)).on surveyed = (.error err, surveyed)) ∧
    ∃ err, (setFixed "l.middle" true).on surveyed = (.error err, surveyed) := by
  have hr : surveyed.Reachable := ⟨_, rfl⟩
  obtain ⟨-, hline, -, -, -, -, -, hfixed, hmove, -⟩ := refused_edits_leave_no_trace hr
  exact ⟨hr, by decide +kernel, by decide +kernel,
    (hline _ _ _).on_of_not_ok (by decide +kernel),
    (hmove _ _ _).on_of_not_ok (by decide +kernel),
    (hfixed _ _).on_of_not_ok (by decide +kernel)⟩

end Problem

end PlaneSketch
