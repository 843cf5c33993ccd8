import Mathlib.Algebra.GroupWithZero.Nat
import PlaneSketch.Proofs.Comparison
import PlaneSketch.Search.Restart

namespace PlaneSketch

/-- No run of the list costs less than this one, and those after it cost more. -/
def LastCheapest (runs : List Run) (r : Run) : Prop :=
  ∃ before after, runs = before ++ r :: after ∧
    (∀ s ∈ before, r.cost ≤ s.cost) ∧ ∀ s ∈ after, r.cost < s.cost

/-- Where the next run starts after these, and the cost that it has to improve on. -/
inductive Standing (x : List Float) : List Run → List Float → Float → Prop where
  | first : Standing x [] x (1 / 0)
  | later {runs : List Run} {r : Run} (h : LastCheapest runs r) : Standing x runs r.x r.cost

/-- What is reported after these runs, if this one leads. -/
def Run.report (r : Run) (runs : List Run) : Minimum :=
  { x := r.x, success := r.converged, iterations := (runs.map Run.iterations).sum,
    evaluations := (runs.map Run.evaluations).sum, error := r.cost }

theorem exists_lastCheapest {runs : List Run} (hn : ∀ r ∈ runs, r.cost.isNaN = false)
    (h : runs ≠ []) : ∃ r, LastCheapest runs r := by
  induction runs with
  | nil => exact (h rfl).elim
  | cons r rest ih =>
    by_cases hrest : rest = []
    · exact ⟨r, [], rest, rfl, nofun, by simp [hrest]⟩
    · have hr := hn r List.mem_cons_self
      have hnrest : ∀ s ∈ rest, s.cost.isNaN = false := fun s hs => hn s (List.mem_cons_of_mem r hs)
      obtain ⟨b, before, after, rfl, hbefore, hafter⟩ := ih hnrest hrest
      have hb := hnrest b (by simp)
      by_cases hle : b.cost ≤ r.cost
      · refine ⟨b, r :: before, after, rfl, fun s hs => ?_, hafter⟩
        rcases List.mem_cons.mp hs with rfl | hs
        · exact hle
        · exact hbefore s hs
      · have hlt := Number.lt_of_not_le hb hr hle
        refine ⟨r, [], _, rfl, nofun, fun s hs => ?_⟩
        rcases List.mem_append.mp hs with hs | hs
        · exact Number.lt_of_lt_of_le hlt (hbefore s hs)
        · rcases List.mem_cons.mp hs with rfl | hs
          · exact hlt
          · exact Number.lt_of_lt_of_le hlt (Number.le_of_lt (hafter s hs))

attribute [ext] Minimum

namespace Minimum

def absorbAll (best : Minimum) (runs : List Run) : Minimum := runs.foldl absorb best

theorem absorbAll_concat (best : Minimum) (runs : List Run) (found : Run) :
    best.absorbAll (runs ++ [found]) = (best.absorbAll runs).absorb found := by
  simp [absorbAll]

/-- The work of all runs is counted, also of those that found nothing. -/
theorem counts_absorbAll (best : Minimum) (runs : List Run) :
    (best.absorbAll runs).iterations = best.iterations + (runs.map Run.iterations).sum ∧
      (best.absorbAll runs).evaluations = best.evaluations + (runs.map Run.evaluations).sum := by
  induction runs generalizing best with
  | nil => exact ⟨rfl, rfl⟩
  | cons r rest ih =>
    obtain ⟨hi, he⟩ := ih (best.absorb r)
    simp only [absorb] at hi he
    rw [List.map_cons, List.map_cons, List.sum_cons, List.sum_cons, ← Nat.add_assoc,
      ← Nat.add_assoc]
    exact ⟨hi, he⟩

theorem le_error_absorbAll {best : Minimum} {runs : List Run} {cost : Float}
    (hbest : cost ≤ best.error) (h : ∀ s ∈ runs, cost ≤ s.cost) :
    cost ≤ (best.absorbAll runs).error := by
  induction runs generalizing best with
  | nil => exact hbest
  | cons r rest ih =>
    refine ih ?_ fun s hs => h s (List.mem_cons_of_mem r hs)
    dsimp only [absorb]
    split
    · exact h r List.mem_cons_self
    · exact hbest

theorem absorb_of_le {best : Minimum} {run : Run} (h : run.cost ≤ best.error) :
    best.absorb run = { x := run.x, success := run.converged,
                        iterations := best.iterations + run.iterations,
                        evaluations := best.evaluations + run.evaluations, error := run.cost } := by
  simp only [absorb, h, if_true]

theorem absorb_of_not_le {best : Minimum} {run : Run} (h : ¬ run.cost ≤ best.error) :
    best.absorb run = { best with iterations := best.iterations + run.iterations,
                                  evaluations := best.evaluations + run.evaluations } := by
  simp only [absorb, h, if_false]

/-- Runs that cost more leave no trace but their work. -/
theorem absorbAll_of_lt {best : Minimum} {runs : List Run} (h : ∀ s ∈ runs, best.error < s.cost) :
    (best.absorbAll runs).x = best.x ∧ (best.absorbAll runs).success = best.success ∧
      (best.absorbAll runs).error = best.error := by
  induction runs generalizing best with
  | nil => exact ⟨rfl, rfl, rfl⟩
  | cons r rest ih =>
    have habsorb := absorb_of_not_le (Number.not_le_of_lt (h r List.mem_cons_self))
    change ((best.absorb r).absorbAll rest).x = _ ∧ ((best.absorb r).absorbAll rest).success = _ ∧
      ((best.absorb r).absorbAll rest).error = _
    rw [habsorb]
    exact ih fun s hs => h s (List.mem_cons_of_mem r hs)

/-- What is kept of these runs is what the last one of the cheapest has found. -/
theorem absorbAll_eq_report {runs : List Run} {r : Run} (hn : ∀ s ∈ runs, s.cost.isNaN = false)
    (h : LastCheapest runs r) (x : List Float) : (start x).absorbAll runs = r.report runs := by
  obtain ⟨hi, he⟩ := counts_absorbAll (start x) runs
  obtain ⟨before, after, rfl, hbefore, hafter⟩ := h
  have hle : r.cost ≤ ((start x).absorbAll before).error :=
    le_error_absorbAll (Number.le_infinity (hn r (by simp))) hbefore
  have hsplit : (start x).absorbAll (before ++ r :: after) =
      (((start x).absorbAll before).absorb r).absorbAll after := by
    simp [absorbAll]
  have hafter' : ∀ s ∈ after, (((start x).absorbAll before).absorb r).error < s.cost := by
    rw [absorb_of_le hle]
    exact hafter
  obtain ⟨hx, hsuccess, herror⟩ := absorbAll_of_lt hafter'
  rw [← hsplit, absorb_of_le hle] at hx hsuccess herror
  exact Minimum.ext hx hsuccess (hi.trans (Nat.zero_add _)) (he.trans (Nat.zero_add _)) herror

end Minimum

theorem Standing.eq {x start : List Float} {runs : List Run} {cost : Float}
    (hn : ∀ s ∈ runs, s.cost.isNaN = false) (h : Standing x runs start cost) :
    ((Minimum.start x).absorbAll runs).x = start ∧
      ((Minimum.start x).absorbAll runs).error = cost := by
  cases h with
  | first => exact ⟨rfl, rfl⟩
  | later h =>
    rw [Minimum.absorbAll_eq_report hn h]
    exact ⟨rfl, rfl⟩

theorem standing_absorbAll {runs : List Run} (hn : ∀ s ∈ runs, s.cost.isNaN = false)
    (x : List Float) : Standing x runs ((Minimum.start x).absorbAll runs).x
      ((Minimum.start x).absorbAll runs).error := by
  by_cases hruns : runs = []
  · subst hruns
    exact .first
  · obtain ⟨r, hr⟩ := exists_lastCheapest hn hruns
    rw [Minimum.absorbAll_eq_report hn hr]
    exact .later hr

/-- The run converged, and gained no more than the tolerance over this cost. -/
def Run.Settles (run : Run) (tolerance cost : Float) : Prop :=
  run.converged = true ∧ ¬ tolerance < cost - run.cost

theorem Run.isLast_iff {run : Run} {best : Minimum} {tolerance : Float} :
    run.isLast best tolerance = true ↔ run.Settles tolerance best.error := by
  simp [Run.isLast, Run.Settles]

section

variable {σ : Type} (run : List Float → StateM σ (Except Error Run))

/-- No run reports NaN for a cost. -/
def NeverNaN : Prop :=
  ∀ start before found after, run start before = (.ok found, after) → found.cost.isNaN = false

/-- These runs were done one after the other, from this state to that, each from where those before
it led, and after each of them there was reason to go on. -/
inductive Continued (x : List Float) (tolerance : Float) (first : σ) : List Run → σ → Prop where
  | none : Continued x tolerance first [] first
  | next {runs : List Run} {before after : σ} {start : List Float} {cost : Float} {found : Run}
      (earlier : Continued x tolerance first runs before) (standing : Standing x runs start cost)
      (ran : run start before = (.ok found, after)) (further : ¬ found.Settles tolerance cost) :
      Continued x tolerance first (runs ++ [found]) after

/-- How restarts end: with a run that fails, with one that settles, or with as many runs as there
may be. Unless one fails, the last of the cheapest runs is reported, with the work of all. -/
inductive Restarted (x : List Float) (settings : Settings) (first : σ) :
    Except Error Minimum × σ → Prop where
  | failed {runs : List Run} {before after : σ} {start : List Float} {cost : Float} {e : Error}
      (earlier : Continued run x settings.tolerance first runs before)
      (few : runs.length ≤ settings.restarts) (standing : Standing x runs start cost)
      (ran : run start before = (.error e, after)) :
      Restarted x settings first (.error e, after)
  | settled {runs : List Run} {before after : σ} {start : List Float} {cost : Float}
      {found best : Run} (earlier : Continued run x settings.tolerance first runs before)
      (few : runs.length ≤ settings.restarts) (standing : Standing x runs start cost)
      (ran : run start before = (.ok found, after)) (settles : found.Settles settings.tolerance cost)
      (leads : LastCheapest (runs ++ [found]) best) :
      Restarted x settings first (.ok (best.report (runs ++ [found])), after)
  | exhausted {runs : List Run} {after : σ} {best : Run}
      (earlier : Continued run x settings.tolerance first runs after)
      (all : runs.length = settings.restarts + 1) (leads : LastCheapest runs best) :
      Restarted x settings first (.ok (best.report runs), after)

variable {run}

theorem keepBestFrom_failed {best : Minimum} {before after : σ} {e : Error}
    (h : run best.x before = (.error e, after)) (tolerance : Float) (runs : Nat) :
    keepBestFrom run tolerance (runs + 1) best before = (.error e, after) := by
  simp only [keepBestFrom, bind, StateT.bind, h]
  rfl

theorem keepBestFrom_found {best : Minimum} {before after : σ} {found : Run}
    (h : run best.x before = (.ok found, after)) (tolerance : Float) (runs : Nat) :
    keepBestFrom run tolerance (runs + 1) best before =
      if found.isLast best tolerance then (.ok (best.absorb found), after)
      else keepBestFrom run tolerance runs (best.absorb found) after := by
  simp only [keepBestFrom, bind, StateT.bind, h]
  split <;> rfl

section

variable {x : List Float} {tolerance : Float} {first after : σ} {runs : List Run}

theorem Continued.never_NaN (h : Continued run x tolerance first runs after)
    (hrun : NeverNaN run) : ∀ r ∈ runs, r.cost.isNaN = false := by
  induction h with
  | none => exact fun _ hr => nomatch hr
  | next earlier standing ran further ih =>
    exact List.forall_mem_append.mpr ⟨ih, List.forall_mem_singleton.mpr (hrun _ _ _ _ ran)⟩

theorem Continued.concat_never_NaN (h : Continued run x tolerance first runs after)
    (hrun : NeverNaN run) {start : List Float} {found : Run} {last : σ}
    (ran : run start after = (.ok found, last)) :
    ∀ r ∈ runs ++ [found], r.cost.isNaN = false :=
  List.forall_mem_append.mpr
    ⟨h.never_NaN hrun, List.forall_mem_singleton.mpr (hrun _ _ _ _ ran)⟩

/-- The runs that were done with reason to go on are done in any case. -/
theorem Continued.keepBestFrom_add (h : Continued run x tolerance first runs after)
    (hrun : NeverNaN run) (more : Nat) :
    keepBestFrom run tolerance (runs.length + more) (.start x) first =
      keepBestFrom run tolerance more ((Minimum.start x).absorbAll runs) after := by
  induction h generalizing more with
  | none => simp [Minimum.absorbAll]
  | @next runs before after start cost found earlier standing ran further ih =>
    obtain ⟨rfl, rfl⟩ := standing.eq (earlier.never_NaN hrun)
    have hlast : found.isLast ((Minimum.start x).absorbAll runs) tolerance = false :=
      Bool.eq_false_iff.mpr fun h => further (Run.isLast_iff.mp h)
    have hl : (runs ++ [found]).length + more = runs.length + (more + 1) := by
      rw [List.length_append, Nat.add_assoc, Nat.add_comm more]
      rfl
    rw [hl, ih, keepBestFrom_found ran, hlast, Minimum.absorbAll_concat]
    rfl

end

/-- However many runs are left to do, they end as restarts may end. -/
theorem Continued.restarted {x : List Float} {settings : Settings} {first after : σ}
    {runs : List Run} (hrun : NeverNaN run)
    (h : Continued run x settings.tolerance first runs after) {left : Nat}
    (hl : runs.length + left = settings.restarts + 1) :
    Restarted run x settings first
      (keepBestFrom run settings.tolerance left ((Minimum.start x).absorbAll runs) after) := by
  -- The runs that were done are all that has to be known of what came before.
  induction left generalizing runs after with
  | zero =>
    have hruns : runs ≠ [] := by
      rintro rfl
      cases hl
    obtain ⟨r, hr⟩ := exists_lastCheapest (h.never_NaN hrun) hruns
    rw [Minimum.absorbAll_eq_report (h.never_NaN hrun) hr]
    exact .exhausted h hl hr
  | succ left ih =>
    have hstanding := standing_absorbAll (h.never_NaN hrun) x
    have hfew : runs.length ≤ settings.restarts := by omega
    cases hran : run ((Minimum.start x).absorbAll runs).x after with
    | mk result next =>
      cases result with
      | error e =>
        rw [keepBestFrom_failed hran]
        exact .failed h hfew hstanding hran
      | ok found =>
        rw [keepBestFrom_found hran, ← Minimum.absorbAll_concat]
        split
        · rename_i hlast
          obtain ⟨r, hr⟩ := exists_lastCheapest (h.concat_never_NaN hrun hran) (by simp)
          rw [Minimum.absorbAll_eq_report (h.concat_never_NaN hrun hran) hr]
          exact .settled h hfew hstanding hran (Run.isLast_iff.mp hlast) hr
        · rename_i hlast
          refine ih (h.next hstanding hran fun hs => hlast (Run.isLast_iff.mpr hs)) ?_
          rw [List.length_append, List.length_singleton]
          omega

theorem Restarted.eq {x : List Float} {settings : Settings} {first : σ}
    {result : Except Error Minimum × σ} (hrun : NeverNaN run)
    (h : Restarted run x settings first result) : keepBest run x settings first = result := by
  unfold keepBest
  cases h with
  | failed earlier few standing ran =>
    obtain ⟨rfl, rfl⟩ := standing.eq (earlier.never_NaN hrun)
    obtain ⟨left, hl⟩ := Nat.exists_eq_add_of_le few
    rw [hl, Nat.add_assoc, earlier.keepBestFrom_add hrun]
    exact keepBestFrom_failed ran _ _
  | settled earlier few standing ran settles leads =>
    obtain ⟨rfl, rfl⟩ := standing.eq (earlier.never_NaN hrun)
    obtain ⟨left, hl⟩ := Nat.exists_eq_add_of_le few
    rw [hl, Nat.add_assoc, earlier.keepBestFrom_add hrun, keepBestFrom_found ran,
      Run.isLast_iff.mpr settles, ← Minimum.absorbAll_concat,
      Minimum.absorbAll_eq_report (earlier.concat_never_NaN hrun ran) leads]
    rfl
  | exhausted earlier all leads =>
    have hdone := earlier.keepBestFrom_add hrun 0
    rw [Nat.add_zero, all] at hdone
    rw [hdone, Minimum.absorbAll_eq_report (earlier.never_NaN hrun) leads]
    rfl

/-- Restarts of runs that never report NaN end with these results and no others: runs are done until
one fails, one settles or there may be no more; each starts from the point of the last cheapest one
before it; and the last cheapest of all is kept, with its cost and its convergence, and with the
work of every run that was done. -/
theorem restarts_keep_last_cheapest {run : List Float → StateM σ (Except Error Run)}
    (hrun : NeverNaN run) (x : List Float) (settings : Settings) (first : σ)
    (result : Except Error Minimum × σ) :
    keepBest run x settings first = result ↔ Restarted run x settings first result := by
  refine ⟨fun h => ?_, fun h => h.eq hrun⟩
  subst h
  exact Continued.none.restarted hrun (Nat.zero_add _)

/-- Moves each coordinate on by one, for the first two times and the last one at a lower cost. The
fourth run converges, and is worse than the two before it. -/
def strides (start : List Float) : StateM Nat (Except Error Run) := fun n =>
  let cost : Float := if n = 0 then 3 else if n = 3 then 2 else 1
  (.ok ⟨start.map (· + 1), cost, n = 0 || n = 3, n, 2⟩, n + 1)

theorem strides_keep_third : NeverNaN strides ∧
    keepBest strides [0] { restarts := 5 } 0 = (.ok ⟨[3], false, 6, 8, 1⟩, 4) ∧
    Restarted strides [0] { restarts := 5 } 0 (.ok ⟨[3], false, 6, 8, 1⟩, 4) := by
  have hrun : NeverNaN strides := by
    intro start before found after h
    cases h
    dsimp only
    split
    · rfl
    · split <;> rfl
  have hfound : (keepBest strides [0] { restarts := 5 } 0).1.toOption =
      some ⟨[3], false, 6, 8, 1⟩ := by decide +kernel
  have hruns : (keepBest strides [0] { restarts := 5 } 0).2 = 4 := by decide +kernel
  have hkept : keepBest strides [0] { restarts := 5 } 0 = (.ok ⟨[3], false, 6, 8, 1⟩, 4) := by
    generalize keepBest strides [0] { restarts := 5 } 0 = result at hfound hruns
    obtain ⟨_ | m, n⟩ := result
    · cases hfound
    · cases hfound
      cases hruns
      rfl
  exact ⟨hrun, hkept, (restarts_keep_last_cheapest hrun _ _ _ _).mp hkept⟩

end

end PlaneSketch
