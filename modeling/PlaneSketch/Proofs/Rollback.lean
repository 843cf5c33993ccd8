import PlaneSketch.Proofs.History

namespace PlaneSketch

def Primitive.isShortIn (a : Arena) : Primitive → Bool
  | point _ => false
  | line l => (l.vector? a).any fun v => v.length < Vec.leastLength

namespace Problem

open Edit

/-- The names of the registered lines that are too short, oldest first. -/
def shortLines (p : Problem) : List String :=
  (p.primitives.filter fun (_, q) => q.isShortIn p.points).map Prod.fst

theorem view?_invalid (name : String) (q : Primitive) (a : Arena) :
    (q.view? name a).bind View.invalid? =
      if q.isShortIn a then some ⟨name, .zeroLength⟩ else none := by
  cases q with
  | point id => cases h : a.get? id <;> simp [Primitive.view?, Primitive.isShortIn, View.invalid?, h]
  | line l =>
    simp only [Primitive.view?, Primitive.isShortIn, l.vector?_eq_view? name]
    cases h : l.view? name a with
    | none => rfl
    | some v =>
      have hname : v.name = name := by
        simp only [Line.view?, Option.bind_eq_bind, Option.bind_eq_some_iff] at h
        obtain ⟨_, _, _, _, he⟩ := h
        cases he
        rfl
      simp [View.invalid?, LineView.invalid?, Vec.isShort, hname]

theorem invalid_eq (p : Problem) :
    p.invalid = p.shortLines.map fun name => ⟨name, .zeroLength⟩ := by
  unfold invalid views shortLines
  rw [List.filterMap_filterMap, List.map_map]
  induction p.primitives with
  | nil => rfl
  | cons entry rest ih =>
    obtain ⟨name, q⟩ := entry
    rw [List.filterMap_cons, view?_invalid, ih, List.filter_cons]
    cases h : q.isShortIn p.points <;> simp [h]

theorem shortLines_eq_nil {p : Problem} : p.shortLines = [] ↔ p.invalid = [] := by
  rw [invalid_eq, List.map_eq_nil_iff]

theorem transcript_isSome {p : Problem} {minimizer : Minimizer} {settings : Settings} :
    (p.transcript minimizer settings).isSome = true ↔ p.invalid = [] ∧ p.computeFree ≠ [] := by
  unfold transcript
  cases p.invalid <;> cases p.computeFree <;> simp

section

variable {p q : Problem} {answer : Except Error Minimum} {e : Error}
  {result : Except Error Outcome × Problem}

/-- A solve that fails has counted free parameters at most. -/
theorem SolveEnds.unchanged (h : SolveEnds p answer (.error e, q)) :
    q.points = p.points ∧ q.primitives = p.primitives ∧ q.constraints = p.constraints ∧
      q.pinned = p.pinned := by
  cases h with
  | invalid hv => exact ⟨rfl, rfl, rfl, rfl⟩
  | failed hv hf cause hu => exact ⟨rfl, rfl, rfl, rfl⟩

theorem SolveEnds.invalidGeometry_iff (h : SolveEnds p answer result) (invalid : List Invalid) :
    result.1 = .error (.invalidGeometry invalid) ↔ p.invalid ≠ [] ∧ invalid = p.invalid := by
  cases h with
  | invalid hv =>
    constructor
    · intro he
      cases he
      exact ⟨hv, rfl⟩
    · rintro ⟨-, rfl⟩
      rfl
  | idle hv hf => simp [hv]
  | failed hv hf cause hu => simp [hv]
  | settled hv hf m ha hu => simp [hv]

theorem SolveEnds.solverFailure_iff (h : SolveEnds p answer result) :
    (∃ cause, result.1 = .error (.solverFailure cause)) ↔
      p.invalid = [] ∧ p.computeFree ≠ [] ∧
        ∀ m, answer = .ok m → isUsable p.computeFree m.x = false := by
  cases h with
  | invalid hv => simp [hv]
  | idle hv hf => simp [hf]
  | failed hv hf cause hu => exact ⟨fun _ => ⟨hv, hf, hu⟩, fun _ => ⟨cause, rfl⟩⟩
  | settled hv hf m ha hu =>
    constructor
    · rintro ⟨cause, he⟩
      cases he
    · rintro ⟨-, -, hn⟩
      rw [hn m ha] at hu
      cases hu

theorem SolveEnds.blame (h : SolveEnds p answer (.error e, q)) :
    (∃ invalid, e = .invalidGeometry invalid) ∨ ∃ cause, e = .solverFailure cause := by
  cases h with
  | invalid hv => exact .inl ⟨_, rfl⟩
  | failed hv hf cause hu => exact .inr ⟨cause, rfl⟩

end

theorem isUsable_eq_false {free : List ParamId} {x : List Float} :
    isUsable free x = false ↔ x.length ≠ free.length ∨ ∃ v ∈ x, v.isFinite = false := by
  rw [← Bool.not_eq_true, isUsable_iff, Classical.not_and_iff_not_or_not]
  simp

/-- Nothing of a failed solve is left, whatever the minimizer did before: all values, flags, names,
handles, primitives, constraints and pins are what they were. Short lines are to blame exactly if
there are any; then they are all listed, and no minimizer is asked. The solver is to blame
for every other failure, that is if a minimizer was asked and its answer is not one finite value
for each free parameter. -/
theorem failed_solve_rolls_back {p : Problem} (hp : p.Reachable) (minimizer : Minimizer)
    (settings : Settings) :
    (∀ e q, (solveWith minimizer settings).on p = (.error e, q) →
      (q.points = p.points ∧ q.primitives = p.primitives ∧ q.constraints = p.constraints ∧
        q.pinned = p.pinned) ∧
      ((∃ invalid, e = .invalidGeometry invalid) ∨ ∃ cause, e = .solverFailure cause)) ∧
    (∀ invalid, ((solveWith minimizer settings).on p).1 = .error (.invalidGeometry invalid) ↔
      p.shortLines ≠ [] ∧ invalid = p.shortLines.map fun name => ⟨name, .zeroLength⟩) ∧
    (p.shortLines ≠ [] → p.transcript minimizer settings = none ∧
      ∀ other : Minimizer, (solveWith other settings).on p = (solveWith minimizer settings).on p) ∧
    ((∃ cause, ((solveWith minimizer settings).on p).1 = .error (.solverFailure cause)) ↔
      p.shortLines = [] ∧ p.free ≠ [] ∧ ∀ m, p.answer minimizer settings = .ok m →
        m.x.length ≠ p.free.length ∨ ∃ v ∈ m.x, v.isFinite = false) := by
  have hends := hp.sound.solveEnds minimizer settings
  refine ⟨fun e q h => ?_, fun invalid => ?_, fun hs => ?_, ?_⟩
  · rw [h] at hends
    exact ⟨hends.unchanged, hends.blame⟩
  · rw [hends.invalidGeometry_iff, ne_eq, ← shortLines_eq_nil, invalid_eq]
  · have hv : p.invalid ≠ [] := fun h => hs (shortLines_eq_nil.mpr h)
    constructor
    · rw [← Option.not_isSome_iff_eq_none, transcript_isSome]
      exact fun h => hv h.1
    · intro other
      rw [on_solveWith_invalid other settings hv, on_solveWith_invalid minimizer settings hv]
  · rw [hends.solverFailure_iff, shortLines_eq_nil, hp.sound.free_eq]
    simp only [isUsable_eq_false]

def hinge : Problem := empty.afterAll [
  .addLine "a" (.fresh 0 0) (.fresh 3 4),
  .addLine "b" (.shared ⟨1⟩) (.fresh 6 0),
  .constrainLength "a" 1]

/-- Tries candidates that are too short, too long and not finite, and breaks down. -/
def astray : Minimizer := fun start _ =>
  .evaluate [7] fun cost => .evaluate (cost :: 1 / 0 :: start) fun _ =>
    .evaluate (8 :: 9 :: start) fun _ => .done (.error (.notFound "way"))

theorem hinge_rolls_back : hinge.Reachable ∧
    (∃ cause, ((solveWith astray {}).on hinge).1 = .error (.solverFailure cause)) ∧
    ((solveWith astray {}).on hinge).2.points = hinge.points := by
  have hr : hinge.Reachable := ⟨_, rfl⟩
  obtain ⟨hback, -, -, hsolver⟩ := failed_solve_rolls_back hr astray {}
  have ha : hinge.answer astray {} = .error (.notFound "way") := rfl
  have hs : hinge.shortLines = [] := by decide +kernel
  have hf : hinge.free ≠ [] := by decide +kernel
  have hfails := hsolver.mpr ⟨hs, hf, fun m hm => by rw [ha] at hm; cases hm⟩
  obtain ⟨cause, he⟩ := hfails
  have hq : (solveWith astray {}).on hinge =
      (.error (.solverFailure cause), ((solveWith astray {}).on hinge).2) := by
    rw [← he]
  exact ⟨hr, ⟨cause, he⟩, (hback _ _ hq).1.1⟩

end Problem

end PlaneSketch
