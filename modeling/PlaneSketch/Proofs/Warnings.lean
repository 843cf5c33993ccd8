import PlaneSketch.Proofs.Comparison
import PlaneSketch.Proofs.Permanence

namespace PlaneSketch

namespace Constraint

variable {cs : List Constraint} {i : Nat}

/-- The numbers of the constraints that ask for an angle of zero, lowest first. -/
def zeroAngles (first : Nat) (cs : List Constraint) : List Nat :=
  ((cs.zipIdx first).filter (·.1.asksZeroAngle)).map Prod.snd

theorem asksZeroAngle_iff {c : Constraint} : c.asksZeroAngle = true ↔
    ∃ a b degrees, c = .lineAngle a b degrees ∧ (degrees == 0) = true := by
  cases c <;> simp [asksZeroAngle]

theorem lintFrom_eq (first : Nat) (cs : List Constraint) :
    lintFrom first cs = (zeroAngles first cs).map .zeroAngleTarget := by
  unfold zeroAngles
  induction cs generalizing first with
  | nil => rfl
  | cons c rest ih =>
    rw [List.zipIdx_cons, List.filter_cons, lintFrom, ih]
    cases c.asksZeroAngle <;> rfl

theorem mem_zeroAngles_iff :
    i ∈ zeroAngles 0 cs ↔ ∃ c, cs[i]? = some c ∧ c.asksZeroAngle = true := by
  simp [zeroAngles, List.mem_zipIdx_iff_getElem?]

theorem mem_zeroAngles : i ∈ zeroAngles 0 cs ↔
    ∃ a b degrees, cs[i]? = some (.lineAngle a b degrees) ∧ (degrees == 0) = true := by
  rw [mem_zeroAngles_iff]
  constructor
  · rintro ⟨c, hc, hzero⟩
    obtain ⟨a, b, degrees, rfl, hdegrees⟩ := asksZeroAngle_iff.mp hzero
    exact ⟨a, b, degrees, hc, hdegrees⟩
  · rintro ⟨a, b, degrees, hc, hdegrees⟩
    exact ⟨_, hc, asksZeroAngle_iff.mpr ⟨a, b, degrees, rfl, hdegrees⟩⟩

theorem mem_lint :
    .zeroAngleTarget i ∈ lint cs ↔ ∃ c, cs[i]? = some c ∧ c.asksZeroAngle = true := by
  rw [lint, lintFrom_eq, List.mem_map_of_injective fun _ _ => Warning.zeroAngleTarget.inj,
    mem_zeroAngles_iff]

/-- An angle of zero is not met or missed by any amount. -/
theorem deviation_of_asksZeroAngle {c : Constraint} (h : c.asksZeroAngle = true) (value : Float) :
    (c.deviation value).isFinite = false := by
  obtain ⟨a, b, degrees, rfl, hzero⟩ := asksZeroAngle_iff.mp h
  exact Number.isFinite_mul_self (Number.isFinite_div_zero hzero)

theorem pairwise_zeroAngles (first : Nat) (cs : List Constraint) :
    (zeroAngles first cs).Pairwise (· < ·) := by
  have hall : ((cs.zipIdx first).map Prod.snd).Pairwise (· < ·) := by
    rw [List.zipIdx_map_snd]
    exact List.pairwise_lt_range'
  exact hall.sublist (List.filter_sublist.map Prod.snd)

end Constraint

namespace Problem

open Edit

/-- What a solve that took `p` to `q` is remarked on, by what the minimizer answered if there was
anything to ask it. -/
inductive Remarked (p q : Problem) (answer : Except Error Minimum) : List Warning → Prop where
  | idle (hf : p.free = []) : Remarked p q answer [.noFreeParameters]
  | converged (hf : p.free ≠ []) (m : Minimum) (ha : answer = .ok m) (hs : m.success = true) :
      Remarked p q answer []
  | stopped (hf : p.free ≠ []) (m : Minimum) (ha : answer = .ok m) (hs : m.success = false) :
      Remarked p q answer [.didNotConverge m.iterations q.error]

section

variable {p q : Problem} {answer : Except Error Minimum} {o : Outcome}

/-- The warnings are those of the constraints and the remarks, and `success` says whether there is
a remark that the search stopped early. -/
theorem SolveEnds.remarked (h : SolveEnds p answer (.ok o, q)) (hp : p.Sound) :
    ∃ remarks, o.warnings = Constraint.lint p.constraintList ++ remarks ∧
      Remarked p q answer remarks ∧
      (o.success = false ↔ ∃ n e, .didNotConverge n e ∈ remarks) := by
  cases h with
  | idle hv hf =>
    rw [← hp.free_eq] at hf
    exact ⟨_, rfl, .idle hf, by simp [idleOutcome]⟩
  | settled hv hf m ha hu =>
    rw [← hp.free_eq] at hf
    cases hs : m.success with
    | true => exact ⟨[], by simp [outcomeAt, hs], .converged hf m ha hs, by simp [outcomeAt, hs]⟩
    | false => exact ⟨_, by simp [outcomeAt, hs], .stopped hf m ha hs, by simp [outcomeAt, hs]⟩

theorem SolveEnds.constraints_eq (h : SolveEnds p answer (.ok o, q)) :
    q.constraints = p.constraints := by
  cases h <;> rfl

/-- Only the warnings about angles of zero name a constraint. -/
theorem Remarked.about? {remarks : List Warning} (h : Remarked p q answer remarks) {w : Warning}
    (hw : w ∈ remarks) : w.about? = none := by
  cases h with
  | idle hf =>
    cases List.mem_singleton.mp hw
    rfl
  | converged hf m ha hs => cases hw
  | stopped hf m ha hs =>
    cases List.mem_singleton.mp hw
    rfl

theorem Remarked.map_about? {remarks : List Warning} (h : Remarked p q answer remarks)
    (zeros : List Nat) :
    (zeros.map Warning.zeroAngleTarget ++ remarks).map Warning.about? =
      zeros.map some ++ remarks.map fun _ => none := by
  have hremarks : remarks.map Warning.about? = remarks.map fun _ => none :=
    List.map_congr_left fun w hw => h.about? hw
  rw [List.map_append, List.map_map, hremarks]
  rfl

end

/-- A constraint keeps its number. -/
theorem Grown.constraintList {p q : Problem} (h : Grown p q) {i : Nat} {c : Constraint}
    (hc : p.constraintList[i]? = some c) : q.constraintList[i]? = some c := by
  obtain ⟨rest, hrest⟩ := h.constraints
  unfold Problem.constraintList at hc ⊢
  rw [← hrest, List.map_append, List.getElem?_append_left (List.getElem?_eq_some_iff.mp hc).1]
  exact hc

/-- A solve that ends warns of each constraint that asks for an angle of zero, in the order of their
numbers; then it remarks that nothing was free, or that the minimizer stopped early, with the
iterations that it counted and the error that it left; and of nothing else. Each warning of a
constraint is about the constraint with its number, and a remark is about none. The solve is no
success exactly if it remarks that the minimizer stopped early. The number that a warning is about
denotes the same constraint ever after. -/
theorem warnings_are_exact {p q : Problem} (hp : p.Reachable) {minimizer : Minimizer}
    {settings : Settings} {o : Outcome}
    (h : (solveWith minimizer settings).on p = (.ok o, q)) :
    (∃ (zeros : List Nat) (remarks : List Warning),
      o.warnings = zeros.map .zeroAngleTarget ++ remarks ∧
      zeros.Pairwise (· < ·) ∧
      (∀ i, i ∈ zeros ↔ ∃ a b degrees,
        q.constraintList[i]? = some (.lineAngle a b degrees) ∧ (degrees == 0) = true) ∧
      Remarked p q (p.answer minimizer settings) remarks ∧
      o.warnings.map Warning.about? = zeros.map some ++ remarks.map fun _ => none) ∧
    (o.success = false ↔ ∃ n e, .didNotConverge n e ∈ o.warnings) ∧
    ∀ w ∈ o.warnings, ∀ i, w.about? = some i →
      ∃ c, q.constraintList[i]? = some c ∧
        ∀ ops, (q.afterAll ops).constraintList[i]? = some c := by
  have hends := hp.sound.solveEnds minimizer settings
  rw [h] at hends
  have hlist : p.constraintList = q.constraintList := by
    unfold constraintList
    rw [hends.constraints_eq]
  have hq : q.Sound := by
    have hsteps := hp.sound.steps_solveWith minimizer settings
    rw [h] at hsteps
    exact Steps.invariant Step.sound hsteps hp.sound
  obtain ⟨remarks, hw, hremarked, hsuccess⟩ := hends.remarked hp.sound
  rw [Constraint.lint, Constraint.lintFrom_eq, hlist] at hw
  refine ⟨⟨_, remarks, hw, Constraint.pairwise_zeroAngles 0 _, fun i => Constraint.mem_zeroAngles,
    hremarked, hw ▸ hremarked.map_about? _⟩, ?_, fun w hmem i hi => ?_⟩
  · rw [hsuccess, hw]
    simp
  · rw [hw] at hmem
    rcases List.mem_append.mp hmem with hzero | hremark
    · obtain ⟨j, hj, rfl⟩ := List.mem_map.mp hzero
      obtain rfl : j = i := Option.some.inj hi
      obtain ⟨a, b, degrees, hc, -⟩ := Constraint.mem_zeroAngles.mp hj
      exact ⟨_, hc, fun ops => (hq.steps_afterAll ops).grown.constraintList hc⟩
    · rw [hremarked.about? hremark] at hi
      cases hi

/-- Two lines from one corner, with whole turns and other things asked of them. -/
def fan : Problem := empty.afterAll [
  .addLine "a" (.fresh 0 0) (.fresh 3 0),
  .addLine "b" (.shared ⟨0⟩) (.fresh 0 4),
  .constrainAngle "a" "b" 360,
  .constrainLength "a" 0,
  .constrainAngle "b" "a" (-0.0)]

def halted : Minimum := ⟨[1, 2, 3, 4, 5, 6], false, 7, 8, 9⟩

def halting : Minimizer := fun start _ => .evaluate (start.map (· + 1)) fun _ => .done (.ok halted)

theorem fan_warnings_are_exact : fan.Reachable ∧
    (solveWith halting {}).on fan = (.ok (fan.outcomeAt halted), fan.settled halted.x) ∧
    (fan.outcomeAt halted).warnings = [.zeroAngleTarget 0, .zeroAngleTarget 2,
      .didNotConverge 7 (fan.settled halted.x).error] ∧
    (fan.outcomeAt halted).warnings.map Warning.about? = [some 0, some 2, none] ∧
    (∃ n e, .didNotConverge n e ∈ (fan.outcomeAt halted).warnings) ∧
    ((fan.settled halted.x).afterAll [.constrainLength "b" 4]).constraintList[2]? =
      some (.lineAngle ⟨⟨0⟩, ⟨2⟩⟩ ⟨⟨0⟩, ⟨1⟩⟩ 0) := by
  have hr : fan.Reachable := ⟨_, rfl⟩
  have hq : (solveWith halting {}).on fan =
      (.ok (fan.outcomeAt halted), fan.settled halted.x) := by
    have hv : fan.invalid = [] := by decide +kernel
    have hf : fan.computeFree ≠ [] := by decide +kernel
    have ha : fan.answer halting {} = .ok halted := rfl
    have hu : isUsable fan.computeFree halted.x = true := by decide +kernel
    rw [on_solveWith_searched halting {} hv hf fun q hq => hr.sound.param?_isSome hq, ha]
    simp only [concluded, hu, if_true]
  have hwarnings : (fan.outcomeAt halted).warnings = [.zeroAngleTarget 0, .zeroAngleTarget 2,
      .didNotConverge 7 (fan.settled halted.x).error] := by decide +kernel
  have hlist : (fan.settled halted.x).constraintList[2]? =
      some (.lineAngle ⟨⟨0⟩, ⟨2⟩⟩ ⟨⟨0⟩, ⟨1⟩⟩ 0) := by decide +kernel
  obtain ⟨-, hsuccess, hnumbers⟩ := warnings_are_exact hr hq
  obtain ⟨c, hc, hlater⟩ := hnumbers (.zeroAngleTarget 2) (by simp [hwarnings]) 2 rfl
  rw [hlist] at hc
  cases hc
  exact ⟨hr, hq, hwarnings, by rw [hwarnings]; rfl, hsuccess.mp rfl,
    hlater [.constrainLength "b" 4]⟩

end Problem

end PlaneSketch
