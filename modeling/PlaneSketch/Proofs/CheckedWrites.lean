import PlaneSketch.Proofs.Objective

namespace PlaneSketch.Problem

open Edit

/-- Writes values into parameters pairwise, each of them checked. -/
def writeChecked : List ParamId → List Float → Edit Unit
  | q :: params, v :: values => do
    updateParam q (·.set v)
    writeChecked params values
  | _, _ => return

def tryChecked (free : List ParamId) (candidate : List Float) : Edit Float := do
  if candidate.all Float.isFinite then
    writeChecked free candidate
    return (← get).error
  else return 1 / 0

/-- A check that fails ends the search, and the solve with it. -/
def searchChecked {α : Type} (free : List ParamId) : Search α → Edit α
  | .done a => return a
  | .evaluate candidate next => do
    searchChecked free (next (← tryChecked free candidate))

def acceptChecked (free : List ParamId) (warnings : List Warning) (m : Minimum) :
    Edit Outcome := do
  writeChecked free m.x
  let error := (← get).error
  return { parameters := free, finalValues := m.x, success := m.success,
           iterations := m.iterations, evaluations := m.evaluations, error,
           warnings := if m.success then warnings
             else warnings ++ [.didNotConverge m.iterations error] }

def giveUpChecked (free : List ParamId) (before : List Float) (e : Error) : Edit Outcome := do
  writeChecked free before
  throw e

/-- The solve, with a check at each assignment of a number. -/
def solveChecked (minimizer : Minimizer) (settings : Settings) : Edit Outcome := do
  modify invalidate
  (← get).validate
  let warnings := Constraint.lint (← get).constraintList
  let free ← freeParameters
  if free.isEmpty then
    return { parameters := free, finalValues := [], success := true, iterations := 0,
             evaluations := 0, error := (← get).error,
             warnings := warnings ++ [.noFreeParameters] }
  else
    let before := (← get).valuesOf free
    match ← searchChecked free (minimizer before settings) with
    | .error e => giveUpChecked free before (asSolverFailure e)
    | .ok m =>
      if isUsable free m.x then acceptChecked free warnings m
      else giveUpChecked free before (.solverFailure (.unusable m.x.length free.length))

section

variable {p : Problem} {params : List ParamId}

theorem Tried.isSome {q : Problem} (h : Tried params p q) {r : ParamId}
    (hr : (p.points.param? r).isSome = true) : (q.points.param? r).isSome = true := by
  have hflags := congrArg Option.isSome (h.points.flags r)
  rw [Option.isSome_map, Option.isSome_map, hr] at hflags
  exact hflags

variable (hk : ∀ r ∈ params, (p.points.param? r).isSome = true)
include hk

theorem on_writeChecked {values : List Float} (hf : ∀ v ∈ values, v.isFinite = true) :
    (writeChecked params values).on p = (.ok (), p.writeValues params values) := by
  induction params generalizing p values with
  | nil => rfl
  | cons q rest ih =>
    cases values with
    | nil => rfl
    | cons v values =>
      obtain ⟨r, hr⟩ := Option.isSome_iff_exists.mp (hk q List.mem_cons_self)
      have hv : v.isFinite = true := hf v List.mem_cons_self
      unfold writeChecked
      rw [on_bind, on_updateParam (g := (·.assign v)) hr (Parameter.set_eq_ok.mpr ⟨hv, rfl⟩)]
      have htried : Tried [q] p (p.writeValues [q] [v]) := (Tried.refl [q] p).writeValues [v]
      exact ih (fun s hs => htried.isSome (hk s (List.mem_cons_of_mem q hs)))
        fun w hw => hf w (List.mem_cons_of_mem v hw)

theorem on_tryChecked (candidate : List Float) : (tryChecked params candidate).on p =
    (.ok (tryCandidate params candidate p).1, (tryCandidate params candidate p).2) := by
  unfold tryChecked
  by_cases hall : candidate.all Float.isFinite = true
  · have hf := List.all_eq_true.mp hall
    rw [if_pos hall, tryCandidate_finite params hf, on_bind, on_writeChecked hk hf]
    rfl
  · rw [if_neg hall, tryCandidate, if_neg hall]
    rfl

/-- The checks of a search are all passed, since a candidate is written only if it is finite. -/
theorem on_searchChecked {α : Type} (s : Search α) :
    (searchChecked params s).on p = (search params s).on p := by
  induction s generalizing p with
  | done a => rfl
  | evaluate candidate next ih =>
    have htried := (Tried.refl params p).tryCandidate candidate
    unfold searchChecked
    rw [on_bind, on_tryChecked hk]
    exact ih _ fun r hr => htried.isSome (hk r hr)

theorem on_giveUpChecked {before : List Float} (hf : ∀ v ∈ before, v.isFinite = true)
    (e : Error) : (giveUpChecked params before e).on p = (giveUp params before e).on p := by
  unfold giveUpChecked
  rw [on_bind, on_writeChecked hk hf]
  rfl

theorem on_acceptChecked (warnings : List Warning) {m : Minimum}
    (hf : ∀ v ∈ m.x, v.isFinite = true) :
    (acceptChecked params warnings m).on p = (accept params warnings m).on p := by
  unfold acceptChecked
  rw [on_bind, on_writeChecked hk hf]
  rfl

end

/-- What comes after the search is checked without effect: a result is written only if it is usable,
and the values from before are those of a problem that can be reached. -/
theorem Reachable.on_solveChecked {p : Problem} (hp : p.Reachable) (minimizer : Minimizer)
    (settings : Settings) :
    (solveChecked minimizer settings).on p = (solveWith minimizer settings).on p := by
  unfold solveChecked solveWith
  simp only [on_bind, on_modify, on_get, on_lift]
  cases p.invalidate.validate with
  | error err => rfl
  | ok _ =>
    simp only [on_freeParameters]
    have hfree : p.invalidate.free = p.computeFree := rfl
    rw [hfree]
    split
    · rfl
    · let q : Problem := { p.invalidate with knownFree := some p.computeFree }
      have hk : ∀ r ∈ p.computeFree, (q.points.param? r).isSome = true :=
        fun r hr => hp.sound.param?_isSome hr
      have hbefore : ∀ v ∈ q.valuesOf p.computeFree, v.isFinite = true :=
        hp.valuesOf_finite p.computeFree
      simp only [on_bind, on_get]
      rw [on_searchChecked (p := q) hk, on_search]
      -- Wherever the search ended, the parameters are there, and that is all the last write needs.
      have htried := tried_run (minimizer (q.valuesOf p.computeFree) settings) p.computeFree q
      generalize (minimizer (q.valuesOf p.computeFree) settings).run
        (tryCandidate p.computeFree) q = searched at htried
      obtain ⟨answer, q'⟩ := searched
      have hk' : ∀ r ∈ p.computeFree, (q'.points.param? r).isSome = true :=
        fun r hr => htried.isSome (hk r hr)
      cases answer with
      | error err => exact on_giveUpChecked hk' hbefore _
      | ok m =>
        dsimp only
        split
        · rename_i hu
          exact on_acceptChecked hk' _ (isUsable_iff.mp hu).2
        · exact on_giveUpChecked hk' hbefore _

/-- Trying candidates writes finite values only. -/
theorem tryCandidate_points_finite (params : List ParamId) (candidate : List Float) (p : Problem)
    (hp : p.points.Finite) : (tryCandidate params candidate p).2.points.Finite := by
  unfold tryCandidate
  split
  · rename_i hall
    exact hp.rewritten (.writeValues p.points params (List.all_eq_true.mp hall))
  · exact hp

theorem Sound.solveWith_error_ne {p : Problem} (hp : p.Sound) (minimizer : Minimizer)
    (settings : Settings) (v : Float) :
    ((solveWith minimizer settings).on p).1 ≠ .error (.invalidValue v) := by
  have hends := hp.solveEnds minimizer settings
  generalize (solveWith minimizer settings).on p = result at hends
  cases hends <;> exact fun h => nomatch h

/-- Every parameter of a problem that can be reached has a finite value, and it still has one after
any candidates that a search may try, of whatever length and however wild. So a solve is never about
to assign a number that is not finite: if it checked each one, it would end as it does without, and
no check would refuse a value. -/
theorem values_stay_finite {p : Problem} (hp : p.Reachable) :
    p.points.Finite ∧
    (∀ probes, (p.probed probes).points.Finite) ∧
    ∀ minimizer settings,
      (solveChecked minimizer settings).on p = (solveWith minimizer settings).on p ∧
      ∀ v, ((solveChecked minimizer settings).on p).1 ≠ .error (.invalidValue v) := by
  have hprobed : ∀ probes, (p.probed probes).points.Finite :=
    probed_keeps (tryCandidate_points_finite p.free) hp.finite
  refine ⟨hp.finite, hprobed, fun minimizer settings => ?_⟩
  have hsame := hp.on_solveChecked minimizer settings
  refine ⟨hsame, fun v => ?_⟩
  rw [hsame]
  exact hp.sound.solveWith_error_ne minimizer settings v

theorem hinge_values_stay_finite : hinge.Reachable ∧
    (hinge.probed [[7], [1, 1 / 0], [0 / 0]]).points.Finite ∧
    (hinge.probed [[7], [1, 1 / 0], [0 / 0]]).points.position? ⟨0⟩ = some ⟨7, 0⟩ ∧
    (solveChecked astray {}).on hinge = (solveWith astray {}).on hinge := by
  have hr : hinge.Reachable := ⟨_, rfl⟩
  obtain ⟨-, hprobed, hchecked⟩ := values_stay_finite hr
  exact ⟨hr, hprobed _, by decide +kernel, (hchecked astray {}).1⟩

end PlaneSketch.Problem
