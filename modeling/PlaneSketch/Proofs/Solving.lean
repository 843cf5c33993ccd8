import PlaneSketch.Problem.Solve
import PlaneSketch.Proofs.Edits

namespace PlaneSketch

namespace Search

variable {α σ τ : Type}

theorem run_keeps {objective : List Float → σ → Float × σ} {holds : σ → Prop}
    (hq : ∀ x s, holds s → holds (objective x s).2) (search : Search α) {s : σ} (hs : holds s) :
    holds (search.run objective s).2 := by
  induction search generalizing s with
  | done a => exact hs
  | evaluate x next ih => exact ih _ (hq x s hs)

/-- A search cannot see what does not change the answers. -/
theorem run_map {f : List Float → σ → Float × σ} {g : List Float → τ → Float × τ} (view : σ → τ)
    (hq : ∀ x s, g x (view s) = ((f x s).1, view (f x s).2)) (search : Search α) (s : σ) :
    search.run g (view s) = ((search.run f s).1, view (search.run f s).2) := by
  induction search generalizing s with
  | done a => rfl
  | evaluate x next ih =>
    simp only [run, hq]
    exact ih _ _

end Search

namespace Problem

open Edit

/-- `q` differs from `p` at most in the values of these parameters. -/
structure Tried (params : List ParamId) (p q : Problem) : Prop where
  points : Arena.Moved params p.points q.points
  rest : q = { p with points := q.points }

theorem Tried.refl (params : List ParamId) (p : Problem) : Tried params p p :=
  ⟨.refl params p.points, rfl⟩

theorem Tried.writeValues {params : List ParamId} {p q : Problem} (h : Tried params p q)
    (values : List Float) : Tried params p (q.writeValues params values) := by
  refine ⟨h.points.trans (.writeValues params q.points values), ?_⟩
  rw [h.rest]
  rfl

theorem Tried.tryCandidate {params : List ParamId} {p q : Problem} (h : Tried params p q)
    (candidate : List Float) : Tried params p (tryCandidate params candidate q).2 := by
  unfold Problem.tryCandidate
  split
  · exact h.writeValues candidate
  · exact h

/-- A search varies nothing but the values of the free parameters. -/
theorem tried_run {α : Type} (search : Search α) (params : List ParamId) (p : Problem) :
    Tried params p (search.run (tryCandidate params) p).2 :=
  search.run_keeps (fun candidate _ h => h.tryCandidate candidate) (.refl params p)

/-- Once each free parameter is written, it does not matter what was tried before. -/
theorem Tried.writeValues_eq {params : List ParamId} {p q : Problem} (h : Tried params p q)
    {values : List Float} (hl : params.length ≤ values.length) :
    q.writeValues params values = p.writeValues params values := by
  rw [h.rest]
  simp only [Problem.writeValues, h.points.writeValues_eq hl]

theorem length_valuesOf {p : Problem} {params : List ParamId}
    (h : ∀ q ∈ params, (p.points.param? q).isSome = true) :
    (p.valuesOf params).length = params.length := by
  unfold valuesOf
  induction params with
  | nil => rfl
  | cons q rest ih =>
    obtain ⟨r, hr⟩ := Option.isSome_iff_exists.mp (h q List.mem_cons_self)
    simp only [List.filterMap_cons, hr, Option.map_some, List.length_cons]
    rw [ih fun s hs => h s (List.mem_cons_of_mem q hs)]

theorem writeValues_valuesOf {p : Problem} {params : List ParamId}
    (h : ∀ q ∈ params, (p.points.param? q).isSome = true) :
    p.writeValues params (p.valuesOf params) = p := by
  unfold writeValues valuesOf
  rw [Arena.writeValues_current p.points h]

/-- Restoring the values from before a search undoes all of it. -/
theorem Tried.restore {params : List ParamId} {p q : Problem} (h : Tried params p q)
    (hk : ∀ r ∈ params, (p.points.param? r).isSome = true) :
    q.writeValues params (p.valuesOf params) = p := by
  rw [h.writeValues_eq (Nat.le_of_eq (length_valuesOf hk).symm), writeValues_valuesOf hk]

def recountedAs (known : List ParamId) (p : Problem) : Problem :=
  { p with generation := p.generation + 1, knownFree := some known }

/-- The problem with its free parameters determined anew, as every solve begins. -/
def recounted (p : Problem) : Problem := p.recountedAs p.computeFree

theorem tryCandidate_recountedAs (known params : List ParamId) (candidate : List Float)
    (p : Problem) : tryCandidate params candidate (p.recountedAs known) =
      ((tryCandidate params candidate p).1,
        (tryCandidate params candidate p).2.recountedAs known) := by
  unfold tryCandidate
  split <;> rfl

/-- What a search answers does not depend on what the problem knows of its free parameters. -/
theorem run_recountedAs {α : Type} (search : Search α) (known params : List ParamId)
    (p : Problem) : search.run (tryCandidate params) (p.recountedAs known) =
      ((search.run (tryCandidate params) p).1,
        (search.run (tryCandidate params) p).2.recountedAs known) :=
  search.run_map (recountedAs known) (tryCandidate_recountedAs known params) p

/-- What the minimizer answers when it tries its candidates on this problem. -/
def answer (p : Problem) (minimizer : Minimizer) (settings : Settings) : Except Error Minimum :=
  ((minimizer (p.valuesOf p.computeFree) settings).run (tryCandidate p.computeFree) p).1

def idleOutcome (p : Problem) : Outcome :=
  { parameters := [], finalValues := [], success := true, iterations := 0, evaluations := 0,
    error := p.error, warnings := Constraint.lint p.constraintList ++ [.noFreeParameters] }

def settled (p : Problem) (x : List Float) : Problem :=
  p.recounted.writeValues p.computeFree x

def outcomeAt (p : Problem) (m : Minimum) : Outcome :=
  { parameters := p.computeFree, finalValues := m.x, success := m.success,
    iterations := m.iterations, evaluations := m.evaluations, error := (p.settled m.x).error,
    warnings := if m.success then Constraint.lint p.constraintList
      else Constraint.lint p.constraintList ++
        [.didNotConverge m.iterations (p.settled m.x).error] }

/-- How a solve ends, by what the minimizer answers. -/
def concluded (p : Problem) : Except Error Minimum → Except Error Outcome × Problem
  | .error e => (.error (asSolverFailure e), p.recounted)
  | .ok m =>
    if isUsable p.computeFree m.x then (.ok (p.outcomeAt m), p.settled m.x)
    else (.error (.solverFailure (.unusable m.x.length p.computeFree.length)), p.recounted)

theorem on_search {α : Type} (params : List ParamId) (s : Search α) (p : Problem) :
    (search params s).on p =
      (.ok (s.run (tryCandidate params) p).1, (s.run (tryCandidate params) p).2) := rfl

theorem on_giveUp (params : List ParamId) (before : List Float) (e : Error) (p : Problem) :
    (giveUp params before e).on p = (.error e, p.writeValues params before) := rfl

theorem on_accept (params : List ParamId) (warnings : List Warning) (m : Minimum) (p : Problem) :
    (accept params warnings m).on p =
      (.ok { parameters := params, finalValues := m.x, success := m.success,
             iterations := m.iterations, evaluations := m.evaluations,
             error := (p.writeValues params m.x).error,
             warnings := if m.success then warnings else warnings ++
               [.didNotConverge m.iterations (p.writeValues params m.x).error] },
        p.writeValues params m.x) := rfl

theorem on_freeParameters (p : Problem) :
    Edit.on (liftM freeParameters) p = (.ok p.free, { p with knownFree := some p.free }) := rfl

section

variable {p : Problem} (minimizer : Minimizer) (settings : Settings)

/-- A primitive that cannot be solved is found before anything else is done. -/
theorem on_solveWith_invalid (h : p.invalid ≠ []) :
    (solveWith minimizer settings).on p = (.error (.invalidGeometry p.invalid), p.invalidate) := by
  have hv : p.invalidate.validate = .error (.invalidGeometry p.invalid) :=
    if_neg fun he => h (List.isEmpty_iff.mp he)
  unfold solveWith
  simp only [on_bind, on_modify, on_get, on_lift, hv]

theorem on_solveWith_idle (hv : p.invalid = []) (hf : p.computeFree = []) :
    (solveWith minimizer settings).on p = (.ok p.idleOutcome, p.recounted) := by
  have hok : p.invalidate.validate = .ok () := if_pos (List.isEmpty_iff.mpr hv)
  have hfree : p.invalidate.free = [] := hf
  have hq : p.recounted = { p.invalidate with knownFree := some [] } := by
    rw [recounted, hf]
    rfl
  unfold solveWith
  simp only [on_bind, on_modify, on_get, on_lift, hok, on_freeParameters, hfree,
    List.isEmpty_nil, if_true, on_pure, hq]
  rfl

theorem on_solveWith_searched (hv : p.invalid = []) (hf : p.computeFree ≠ [])
    (hk : ∀ q ∈ p.computeFree, (p.points.param? q).isSome = true) :
    (solveWith minimizer settings).on p = p.concluded (p.answer minimizer settings) := by
  have hok : p.invalidate.validate = .ok () := if_pos (List.isEmpty_iff.mpr hv)
  have hfree : p.invalidate.free = p.computeFree := rfl
  have hne : p.computeFree.isEmpty = false := by simpa using hf
  have hq : ({ p.invalidate with knownFree := some p.computeFree } : Problem) = p.recounted := rfl
  have hbefore : p.recounted.valuesOf p.computeFree = p.valuesOf p.computeFree := rfl
  unfold solveWith
  simp only [on_bind, on_modify, on_get, on_lift, hok, on_freeParameters, hfree, hne,
    Bool.false_eq_true, if_false, on_search, hq, hbefore]
  have htried := tried_run (minimizer (p.valuesOf p.computeFree) settings) p.computeFree p.recounted
  have hanswer : ((minimizer (p.valuesOf p.computeFree) settings).run
      (tryCandidate p.computeFree) p.recounted).1 = p.answer minimizer settings := by
    rw [recounted, run_recountedAs, answer]
  rw [hanswer]
  -- All that matters of where the search ended is that it varied free parameters only.
  generalize ((minimizer (p.valuesOf p.computeFree) settings).run
    (tryCandidate p.computeFree) p.recounted).2 = q at htried
  have hrestore : q.writeValues p.computeFree (p.valuesOf p.computeFree) = p.recounted :=
    htried.restore hk
  cases p.answer minimizer settings with
  | error e =>
    dsimp only
    rw [on_giveUp, hrestore]
    rfl
  | ok m =>
    dsimp only [concluded]
    split
    · rename_i hu
      have hl : p.computeFree.length ≤ m.x.length := by
        simp only [isUsable, Bool.and_eq_true, decide_eq_true_eq] at hu
        omega
      rw [on_accept, htried.writeValues_eq hl]
      rfl
    · rw [on_giveUp, hrestore]

end

end Problem

end PlaneSketch
