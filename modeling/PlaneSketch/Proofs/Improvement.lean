import PlaneSketch.Proofs.Descending
import PlaneSketch.Proofs.Objective

namespace PlaneSketch.Problem

open Edit

/-- What the objective of a solve may answer, wherever it has left the free parameters. -/
def Answers (p : Problem) (candidate : List Float) (cost : Float) : Prop :=
  ∃ q, Tried p.free p q ∧ cost = (tryCandidate p.free candidate q).1

theorem answers_run {α : Type} {p : Problem} {search : Search α} {post : α → Prop}
    (h : search.Ensures p.Answers post) : post (search.run (tryCandidate p.free) p).1 :=
  h.run (fun x q hq => ⟨⟨q, hq, rfl⟩, hq.tryCandidate x⟩) (.refl p.free p)

theorem comparable_eq {cost : Float} (h : cost.isNaN = false) : Simplex.comparable cost = cost := by
  unfold Simplex.comparable
  rw [h]
  rfl

/-- If NaN counts as infinity, then a cost that is bounded by a finite one was no NaN. -/
theorem le_of_comparable_le {cost bound : Float} (hb : bound.isFinite = true)
    (h : Simplex.comparable cost ≤ bound) : cost ≤ bound := by
  cases hn : cost.isNaN with
  | false => rwa [comparable_eq hn] at h
  | true =>
    unfold Simplex.comparable at h
    rw [hn] at h
    exact absurd h (Number.not_infinity_le hb)

/-- What a solve leaves of a point is what the point was told to cost, but for NaN. -/
theorem Reachable.comparable_settled {p : Problem} (hp : p.Reachable) {x : List Float}
    {cost : Float} (hx : isUsable p.free x = true) (h : Compared p.Answers x cost) :
    Simplex.comparable (p.settled x).error = cost := by
  obtain ⟨hl, hf⟩ := isUsable_iff.mp hx
  obtain ⟨c, ⟨q, hq, rfl⟩, rfl⟩ := h
  have hsettled : (p.settled x).error = (p.writeValues p.free x).error := by
    rw [hp.sound.free_eq]
    rfl
  rw [hq.cost (Nat.le_of_eq hl.symm) hf, hsettled]

theorem Reachable.settled_le {p : Problem} (hp : p.Reachable) (hfinite : p.error.isFinite = true)
    {x : List Float} {cost : Float} (hx : isUsable p.free x = true)
    (h : Attained p.Answers (p.valuesOf p.free) x cost) : (p.settled x).error ≤ p.error := by
  obtain ⟨-, ⟨d, ⟨r, hr, rfl⟩, rfl⟩, hle⟩ := h.low
  rw [hp.cost_valuesOf hr, comparable_eq (Number.isNaN_of_isFinite hfinite),
    ← hp.comparable_settled hx h.told] at hle
  exact le_of_comparable_le hfinite hle

theorem Reachable.solveWith_le {p q : Problem} (hp : p.Reachable)
    (hfinite : p.error.isFinite = true) {minimizer : Minimizer} {settings : Settings} {o : Outcome}
    (hm : p.free ≠ [] → (minimizer (p.valuesOf p.free) settings).Ensures p.Answers fun result =>
      ∀ m, result = .ok m → Attained p.Answers (p.valuesOf p.free) m.x m.error)
    (h : (solveWith minimizer settings).on p = (.ok o, q)) : o.error ≤ p.error := by
  have hs := hp.sound
  have hends := hs.solveEnds minimizer settings
  rw [h] at hends
  cases hends with
  | idle hv hf => exact Number.le_refl (Number.isNaN_of_isFinite hfinite)
  | settled hv hf m ha hu =>
    rw [← hs.free_eq] at hf hu
    unfold answer at ha
    rw [← hs.free_eq] at ha
    exact hp.settled_le hfinite hu (answers_run (hm hf) m ha)

/-- A solve that succeeds leaves an error no higher than it found, if it found a finite one; and so
would restarts of any other kind of run that reports a point with the cost it was told there, and
none that costs more than where the run started. -/
theorem solve_never_worsens {p : Problem} (hp : p.Reachable) (hfinite : p.error.isFinite = true)
    (settings : Settings) :
    (∀ o q, (solve settings).on p = (.ok o, q) → o.error ≤ p.error) ∧
    ∀ run, Attains p.Answers run → ∀ o q,
      (solveWith (keepBest run) settings).on p = (.ok o, q) → o.error ≤ p.error := by
  constructor
  · intro o q h
    refine hp.solveWith_le hfinite (fun hf => ?_) h
    have hstart : (p.valuesOf p.free).isEmpty = false := by
      rw [← Bool.not_eq_true, List.isEmpty_iff, ← List.length_eq_zero_iff,
        length_valuesOf hp.sound.free_isSome]
      exact fun hl => hf (List.length_eq_zero_iff.mp hl)
    unfold Simplex.minimizer
    rw [hstart]
    exact keepBest_ensures (Simplex.run_attains p.Answers settings) _ settings
  · intro run hrun o q h
    exact hp.solveWith_le hfinite (fun _ => keepBest_ensures hrun _ settings) h

/-- A line of length three that should have length one and can only become shorter or longer. -/
def slider : Problem := empty.afterAll [
  .addLine "a" (.fresh 0 0) (.fresh 3 0),
  .pin "a.start",
  .editParameter ⟨⟨1⟩, .y⟩ [.setFixed true],
  .constrainLength "a" 1]

theorem slider_not_worsened : slider.Reachable ∧ slider.error.isFinite = true ∧
    ∃ o q, (solve { iterationLimit := 2, restarts := 1 }).on slider = (.ok o, q) ∧
      o.error ≤ slider.error := by
  have hr : slider.Reachable := ⟨_, rfl⟩
  have hfinite : slider.error.isFinite = true := by decide +kernel
  have hok : ((solve { iterationLimit := 2, restarts := 1 }).on slider).1.isOk = true := by
    decide +kernel
  obtain ⟨hsolve, -⟩ := solve_never_worsens hr hfinite { iterationLimit := 2, restarts := 1 }
  generalize hresult : (solve { iterationLimit := 2, restarts := 1 }).on slider = result at hok
  obtain ⟨_ | o, q⟩ := result
  · cases hok
  · exact ⟨hr, hfinite, o, q, rfl, hsolve o q hresult⟩

end PlaneSketch.Problem
