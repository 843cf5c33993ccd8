import PlaneSketch.Proofs.Commit
import PlaneSketch.Proofs.Finiteness

namespace PlaneSketch

namespace Search

variable {α σ : Type}

/-- The candidates that the search asks about, in order. -/
def questions (objective : List Float → σ → Float × σ) : Search α → σ → List (List Float)
  | .done _, _ => []
  | .evaluate x next, s =>
    x :: (next (objective x s).1).questions objective (objective x s).2

/-- Each answer comes from the state that the questions before it have left. -/
theorem costs_getElem? (objective : List Float → σ → Float × σ) (search : Search α) (s : σ)
    (i : Nat) : (search.costs objective s)[i]? = ((search.questions objective s)[i]?).map fun x =>
      (objective x (((search.questions objective s).take i).foldl
        (fun s x => (objective x s).2) s)).1 := by
  induction search generalizing s i with
  | done a => rfl
  | evaluate x next ih =>
    cases i with
    | zero => rfl
    | succ i =>
      simp only [costs, questions, List.getElem?_cons_succ, List.take_succ_cons, List.foldl_cons]
      exact ih _ _ i

end Search

namespace Problem

/-- The problem after these candidates were tried on it, in order. -/
def probed (p : Problem) (probes : List (List Float)) : Problem :=
  probes.foldl (fun q candidate => (tryCandidate p.free candidate q).2) p

/-- What the objective of a solve says of a candidate after these probes. -/
def costAfter (p : Problem) (probes : List (List Float)) (candidate : List Float) : Float :=
  (tryCandidate p.free candidate (p.probed probes)).1

/-- What this minimizer asks about when it solves the problem. -/
def questions (p : Problem) (minimizer : Minimizer) (settings : Settings) : List (List Float) :=
  (minimizer (p.valuesOf p.free) settings).questions (tryCandidate p.free) p

/-- What each single candidate keeps, any number of probes keep. -/
theorem probed_keeps {p : Problem} {holds : Problem → Prop}
    (keep : ∀ candidate q, holds q → holds (tryCandidate p.free candidate q).2) (hp : holds p)
    (probes : List (List Float)) : holds (p.probed probes) := by
  have h (q : Problem) (hq : holds q) :
      holds (probes.foldl (fun q candidate => (tryCandidate p.free candidate q).2) q) := by
    induction probes generalizing q with
    | nil => exact hq
    | cons candidate rest ih => exact ih _ (keep candidate q hq)
  exact h p hp

theorem tried_probed (p : Problem) (probes : List (List Float)) :
    Tried p.free p (p.probed probes) :=
  probed_keeps (fun candidate _ hq => hq.tryCandidate candidate) (.refl p.free p) probes

theorem tryCandidate_finite (params : List ParamId) {candidate : List Float}
    (h : ∀ v ∈ candidate, v.isFinite = true) (p : Problem) :
    tryCandidate params candidate p =
      ((p.writeValues params candidate).error, p.writeValues params candidate) :=
  if_pos (List.all_eq_true.mpr h)

theorem tryCandidate_infinite (params : List ParamId) {candidate : List Float}
    (h : ∃ v ∈ candidate, v.isFinite = false) (p : Problem) :
    tryCandidate params candidate p = (1 / 0, p) := by
  obtain ⟨v, hm, hv⟩ := h
  refine if_neg fun hall => ?_
  rw [List.all_eq_true.mp hall v hm] at hv
  cases hv

/-- A candidate that gives each free parameter a finite value costs what the problem with these
values costs, wherever the free parameters are now. -/
theorem Tried.cost {params : List ParamId} {p q : Problem} (h : Tried params p q)
    {candidate : List Float} (hl : params.length ≤ candidate.length)
    (hf : ∀ v ∈ candidate, v.isFinite = true) :
    (Problem.tryCandidate params candidate q).1 = (p.writeValues params candidate).error := by
  rw [tryCandidate_finite params hf, h.writeValues_eq hl]

theorem Reachable.valuesOf_finite {p : Problem} (hp : p.Reachable) (params : List ParamId) :
    ∀ v ∈ p.valuesOf params, v.isFinite = true := by
  intro v hv
  obtain ⟨q, -, hq⟩ := List.mem_filterMap.mp hv
  obtain ⟨r, hr, rfl⟩ := Option.map_eq_some_iff.mp hq
  exact hp.finite q r hr

theorem Sound.free_isSome {p : Problem} (hp : p.Sound) :
    ∀ r ∈ p.free, (p.points.param? r).isSome = true := by
  rw [hp.free_eq]
  exact fun r hr => hp.param?_isSome hr

/-- To try the values that are there costs what the problem costs as it is. -/
theorem Reachable.cost_valuesOf {p q : Problem} (hp : p.Reachable) (h : Tried p.free p q) :
    (tryCandidate p.free (p.valuesOf p.free) q).1 = p.error := by
  have hk := hp.sound.free_isSome
  rw [h.cost (Nat.le_of_eq (length_valuesOf hk).symm) (hp.valuesOf_finite p.free),
    writeValues_valuesOf hk]

/-- A solve that asks its minimizer ends as the minimizer does against this objective. Whatever was
tried before, a candidate with a finite value for each free parameter costs what the problem would
cost with these values in place of its own, and the start of the search costs what the problem
costs as it is. A candidate that is not finite costs infinity, and nothing is written for it. -/
theorem objective_forgets_probes {p : Problem} (hp : p.Reachable) {minimizer : Minimizer}
    {settings : Settings} {t : Transcript} (ht : p.transcript minimizer settings = some t) :
    (t.start = p.valuesOf p.free ∧
      (solveWith minimizer settings).on p =
        p.concluded ((minimizer t.start settings).run (tryCandidate p.free) p).1 ∧
      ∀ i : Nat, t.costs[i]? = ((p.questions minimizer settings)[i]?).map
        (p.costAfter ((p.questions minimizer settings).take i))) ∧
    (∀ candidate : List Float, p.free.length ≤ candidate.length →
      (∀ v ∈ candidate, v.isFinite = true) →
      ∃ q, Varied p q ∧
        (∀ (i : Nat) r v, p.free[i]? = some r → candidate[i]? = some v →
          (q.parameter r).map Parameter.value = .ok v) ∧
        ∀ probes, p.costAfter probes candidate = q.error) ∧
    (∀ probes, p.costAfter probes t.start = p.error) ∧
    ∀ probes candidate, (∃ v ∈ candidate, v.isFinite = false) →
      tryCandidate p.free candidate (p.probed probes) = (1 / 0, p.probed probes) := by
  have hs := hp.sound
  have hstart : t.start = p.valuesOf p.free ∧
      t.costs = (minimizer (p.valuesOf p.free) settings).costs (tryCandidate p.free) p := by
    unfold transcript at ht
    rw [hs.free_eq]
    dsimp only at ht
    split at ht
    · cases ht
      exact ⟨rfl, rfl⟩
    · cases ht
  have hasked : (p.transcript minimizer settings).isSome = true := by rw [ht]; rfl
  obtain ⟨hv, hfree⟩ := transcript_isSome.mp hasked
  refine ⟨⟨hstart.1, ?_, fun i => ?_⟩, fun candidate hl hf => ?_, fun probes => ?_,
    fun probes candidate hn => tryCandidate_infinite p.free hn _⟩
  · rw [hstart.1, hs.free_eq]
    exact on_solveWith_searched minimizer settings hv hfree fun q hq => hs.param?_isSome hq
  · rw [hstart.2]
    exact Search.costs_getElem? _ _ p i
  · refine ⟨p.settled candidate, hs.varied_settled candidate, fun i r v hr hv => ?_, fun probes => ?_⟩
    · rw [hs.free_eq] at hr
      exact hs.parameter_settled hr hv
    · unfold costAfter
      rw [(tried_probed p probes).cost hl hf, hs.free_eq]
      rfl
  · rw [hstart.1]
    exact hp.cost_valuesOf (tried_probed p probes)

theorem hinge_objective_forgets_probes : hinge.Reachable ∧
    (hinge.transcript astray {}).isSome = true ∧
    hinge.costAfter [[7], [1, 1 / 0], [8, 9, 0, 0, 3, 4, 6, 0]] [0, 0, 5, 12, 6, 1] =
      hinge.costAfter [] [0, 0, 5, 12, 6, 1] := by
  have hr : hinge.Reachable := ⟨_, rfl⟩
  have hasked : (hinge.transcript astray {}).isSome = true := by decide +kernel
  obtain ⟨t, ht⟩ := Option.isSome_iff_exists.mp hasked
  obtain ⟨-, hfull, -, -⟩ := objective_forgets_probes hr ht
  obtain ⟨q, -, -, hcost⟩ := hfull [0, 0, 5, 12, 6, 1] (by decide +kernel) (by decide +kernel)
  exact ⟨hr, hasked, (hcost _).trans (hcost _).symm⟩

end Problem

end PlaneSketch
