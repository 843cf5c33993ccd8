import PlaneSketch.Proofs.Improvement
import PlaneSketch.Proofs.Restarting

namespace PlaneSketch

namespace Minimum

/-- It comes of at least as much work as the other, and costs no more. -/
structure Surpasses (m other : Minimum) : Prop where
  error : m.error ≤ other.error
  iterations : other.iterations ≤ m.iterations
  evaluations : other.evaluations ≤ m.evaluations

theorem Surpasses.refl {m : Minimum} (hn : m.error.isNaN = false) : m.Surpasses m :=
  ⟨Number.le_refl hn, Nat.le_refl _, Nat.le_refl _⟩

theorem Surpasses.trans {a b c : Minimum} (h : a.Surpasses b) (h' : b.Surpasses c) :
    a.Surpasses c :=
  ⟨Number.le_trans h.error h'.error, Nat.le_trans h'.iterations h.iterations,
    Nat.le_trans h'.evaluations h.evaluations⟩

theorem Surpasses.isNaN {m other : Minimum} (h : m.Surpasses other) : m.error.isNaN = false :=
  (Number.le_iff.mp h.error).1

theorem surpasses_absorb {best : Minimum} (hn : best.error.isNaN = false) (run : Run) :
    (best.absorb run).Surpasses best := by
  by_cases h : run.cost ≤ best.error
  · rw [absorb_of_le h]
    exact ⟨h, Nat.le_add_right _ _, Nat.le_add_right _ _⟩
  · rw [absorb_of_not_le h]
    exact ⟨Number.le_refl hn, Nat.le_add_right _ _, Nat.le_add_right _ _⟩

end Minimum

section

variable {σ : Type} {run : List Float → StateM σ (Except Error Run)} {tolerance : Float}

theorem keepBestFrom_surpasses {runs : Nat} {best m : Minimum} {before after : σ}
    (hn : best.error.isNaN = false)
    (h : keepBestFrom run tolerance runs best before = (.ok m, after)) : m.Surpasses best := by
  induction runs generalizing best before with
  | zero =>
    cases h
    exact .refl hn
  | succ runs ih =>
    cases hran : run best.x before with
    | mk result next =>
      cases result with
      | error e =>
        rw [keepBestFrom_failed hran] at h
        cases h
      | ok found =>
        have habsorb := Minimum.surpasses_absorb hn found
        rw [keepBestFrom_found hran] at h
        split at h
        · cases h
          exact habsorb
        · exact (ih habsorb.isNaN h).trans habsorb

/-- The first runs are the same ones, however many more may follow. -/
theorem keepBestFrom_more {fewer more : Nat} (hle : fewer ≤ more) {best m m' : Minimum}
    {before after after' : σ} (hn : best.error.isNaN = false)
    (h : keepBestFrom run tolerance fewer best before = (.ok m, after))
    (h' : keepBestFrom run tolerance more best before = (.ok m', after')) : m'.Surpasses m := by
  induction fewer generalizing more best before with
  | zero =>
    cases h
    exact keepBestFrom_surpasses hn h'
  | succ fewer ih =>
    obtain ⟨more, rfl⟩ := Nat.exists_eq_add_one_of_ne_zero (Nat.ne_zero_of_lt hle)
    cases hran : run best.x before with
    | mk result next =>
      cases result with
      | error e =>
        rw [keepBestFrom_failed hran] at h
        cases h
      | ok found =>
        have habsorb := (Minimum.surpasses_absorb hn found).isNaN
        rw [keepBestFrom_found hran] at h h'
        -- Both have found the same, so they stop together or go on together.
        split at h
        · rename_i hlast
          rw [if_pos hlast] at h'
          cases h
          cases h'
          exact .refl habsorb
        · rename_i hlast
          rw [if_neg hlast] at h'
          exact ih (Nat.le_of_succ_le_succ hle) habsorb h h'

theorem keepBest_more {x : List Float} {settings : Settings} {fewer more : Nat}
    (hle : fewer ≤ more) {before after after' : σ} {m m' : Minimum}
    (h : keepBest run x { settings with restarts := fewer } before = (.ok m, after))
    (h' : keepBest run x { settings with restarts := more } before = (.ok m', after')) :
    m'.Surpasses m := by
  have hn : (Minimum.start x).error.isNaN = false := by
    change (1 / 0 : Float).isNaN = false
    rfl
  unfold keepBest at h h'
  exact keepBestFrom_more (Nat.succ_le_succ hle) hn h h'

end

namespace Search

variable {σ : Type} (objective : List Float → σ → Float × σ)

/-- What the search does to the objective's state. -/
def against {α : Type} (search : Search α) : StateM σ α := search.run objective

/-- Restarted searches do to the objective's state what restarts of each of them do to it. -/
theorem run_keepBestFrom (run : List Float → Search (Except Error Run)) (tolerance : Float)
    (runs : Nat) (best : Minimum) (s : σ) : (keepBestFrom run tolerance runs best).run objective s =
      keepBestFrom (fun x => (run x).against objective) tolerance runs best s := by
  induction runs generalizing best s with
  | zero => rfl
  | succ runs ih =>
    cases hran : (run best.x).against objective s with
    | mk result next =>
      have hsearch : (run best.x).run objective s = (result, next) := hran
      cases result with
      | error e =>
        rw [keepBestFrom_failed hran, keepBestFrom, run_bind, hsearch]
        rfl
      | ok found =>
        rw [keepBestFrom_found hran, keepBestFrom, run_bind, hsearch]
        dsimp only
        split
        · rfl
        · exact ih _ _

end Search

/-- It comes of at least as much work as the other, and leaves no larger error. -/
structure Outcome.Surpasses (o other : Outcome) : Prop where
  error : o.error ≤ other.error
  iterations : other.iterations ≤ o.iterations
  evaluations : other.evaluations ≤ o.evaluations

namespace Problem

open Edit

theorem answer_keepBest (p : Problem) (run : List Float → Search (Except Error Run))
    (settings : Settings) : p.answer (keepBest run) settings =
      (keepBest (fun x => (run x).against (tryCandidate p.computeFree))
        (p.valuesOf p.computeFree) settings p).1 := by
  unfold answer keepBest
  rw [Search.run_keepBestFrom]

/-- In a problem with free parameters, the default is to restart descents. -/
theorem Sound.on_solve {p : Problem} (hp : p.Sound) (settings : Settings) :
    (solve settings).on p = (solveWith (keepBest (Simplex.run settings)) settings).on p := by
  unfold solve
  by_cases hv : p.invalid = []
  · by_cases hf : p.computeFree = []
    · rw [on_solveWith_idle _ _ hv hf, on_solveWith_idle _ _ hv hf]
    · have hk : ∀ q ∈ p.computeFree, (p.points.param? q).isSome = true :=
        fun q hq => hp.param?_isSome hq
      have hstart : (p.valuesOf p.computeFree).isEmpty = false := by
        rw [← Bool.not_eq_true, List.isEmpty_iff, ← List.length_eq_zero_iff, length_valuesOf hk]
        exact fun hl => hf (List.length_eq_zero_iff.mp hl)
      rw [on_solveWith_searched _ _ hv hf hk, on_solveWith_searched _ _ hv hf hk]
      unfold answer Simplex.minimizer
      rw [hstart]
      rfl
  · rw [on_solveWith_invalid _ _ hv, on_solveWith_invalid _ _ hv]

section

variable {p : Problem} {run : List Float → Search (Except Error Run)} {settings : Settings}

/-- What is left of the minimum that restarts answer with is its error, as they know it. -/
theorem Reachable.error_settled (hp : p.Reachable) (hfinite : p.error.isFinite = true)
    (hrun : Attains p.Answers run) {m : Minimum} (ha : p.answer (keepBest run) settings = .ok m)
    (hu : isUsable p.computeFree m.x = true) : (p.settled m.x).error = m.error := by
  rw [← hp.sound.free_eq] at hu
  unfold answer at ha
  rw [← hp.sound.free_eq] at ha
  have hattained := answers_run (keepBest_ensures hrun (p.valuesOf p.free) settings) m ha
  have hn := (Number.le_iff.mp (hp.settled_le hfinite hu hattained)).1
  rw [← comparable_eq hn]
  exact hp.comparable_settled hu hattained.told

theorem Reachable.solveWith_more (hp : p.Reachable) (hfinite : p.error.isFinite = true)
    (hrun : Attains p.Answers run) {fewer more : Nat} (hle : fewer ≤ more) {o o' : Outcome}
    {q q' : Problem}
    (h : (solveWith (keepBest run) { settings with restarts := fewer }).on p = (.ok o, q))
    (h' : (solveWith (keepBest run) { settings with restarts := more }).on p = (.ok o', q')) :
    o'.Surpasses o := by
  have hends := hp.sound.solveEnds (keepBest run) { settings with restarts := fewer }
  have hends' := hp.sound.solveEnds (keepBest run) { settings with restarts := more }
  rw [h] at hends
  rw [h'] at hends'
  -- Whether there is anything to search for has nothing to do with restarts.
  cases hends with
  | idle hv hf =>
    cases hends' with
    | idle _ _ =>
      exact ⟨Number.le_refl (Number.isNaN_of_isFinite hfinite), Nat.le_refl _, Nat.le_refl _⟩
    | settled _ hf' _ _ _ => exact (hf' hf).elim
  | settled hv hf m ha hu =>
    cases hends' with
    | idle _ hf' => exact (hf hf').elim
    | settled _ _ m' ha' hu' =>
      have herror := hp.error_settled hfinite hrun ha hu
      have herror' := hp.error_settled hfinite hrun ha' hu'
      rw [answer_keepBest] at ha ha'
      have hm := keepBest_more hle (Prod.ext ha rfl) (Prod.ext ha' rfl)
      have hlow := hm.error
      rw [← herror, ← herror'] at hlow
      exact ⟨hlow, hm.iterations, hm.evaluations⟩

end

/-- Of two solves of the same problem that differ only in the restarts they allow and both succeed,
the one with more restarts leaves no larger error and counts no less work; and so it would be for
restarts of any other kind of run that goes by its start and what it is told, and reports a point
with the cost it was told there and none that costs more than where the run started. -/
theorem more_restarts_never_hurt {p : Problem} (hp : p.Reachable)
    (hfinite : p.error.isFinite = true) (settings : Settings) {fewer more : Nat}
    (hle : fewer ≤ more) :
    (∀ o o' q q', (solve { settings with restarts := fewer }).on p = (.ok o, q) →
      (solve { settings with restarts := more }).on p = (.ok o', q') → o'.Surpasses o) ∧
    ∀ run, Attains p.Answers run → ∀ o o' q q',
      (solveWith (keepBest run) { settings with restarts := fewer }).on p = (.ok o, q) →
      (solveWith (keepBest run) { settings with restarts := more }).on p = (.ok o', q') →
      o'.Surpasses o := by
  constructor
  · intro o o' q q' h h'
    rw [hp.sound.on_solve] at h h'
    exact hp.solveWith_more hfinite (Simplex.run_attains p.Answers settings) hle h h'
  · intro run hrun o o' q q' h h'
    exact hp.solveWith_more hfinite hrun hle h h'

theorem slider_perseveres : slider.Reachable ∧ slider.error.isFinite = true ∧
    ∃ o o' q q', (solve { iterationLimit := 2, restarts := 0 }).on slider = (.ok o, q) ∧
      (solve { iterationLimit := 2, restarts := 2 }).on slider = (.ok o', q') ∧
      o'.Surpasses o := by
  have hr : slider.Reachable := ⟨_, rfl⟩
  have hfinite : slider.error.isFinite = true := by decide +kernel
  have hok : ((solve { iterationLimit := 2, restarts := 0 }).on slider).1.isOk = true := by
    decide +kernel
  have hok' : ((solve { iterationLimit := 2, restarts := 2 }).on slider).1.isOk = true := by
    decide +kernel
  obtain ⟨hsolve, -⟩ :=
    more_restarts_never_hurt hr hfinite { iterationLimit := 2 } (Nat.zero_le 2)
  generalize hresult : (solve { iterationLimit := 2, restarts := 0 }).on slider = result at hok
  generalize hresult' : (solve { iterationLimit := 2, restarts := 2 }).on slider = result' at hok'
  obtain ⟨_ | o, q⟩ := result
  · cases hok
  · obtain ⟨_ | o', q'⟩ := result'
    · cases hok'
    · exact ⟨hr, hfinite, o, o', q, q', rfl, rfl, hsolve o o' q q' hresult hresult'⟩

end Problem

end PlaneSketch
