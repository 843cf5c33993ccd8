import PlaneSketch.Proofs.FreeParameters
import PlaneSketch.Proofs.Rollback

namespace PlaneSketch

namespace Outcome

variable {o : Outcome} {r : ParamId}

theorem finalValue?_eq_some {v : Float} (h : o.finalValue? r = some v) :
    ∃ i : Nat, o.parameters[i]? = some r ∧ o.finalValues[i]? = some v := by
  obtain ⟨i, hi, hv⟩ := Option.bind_eq_some_iff.mp h
  obtain ⟨hlt, hr, -⟩ := List.idxOf?_eq_some_iff.mp hi
  refine ⟨i, ?_, hv⟩
  rw [List.getElem?_eq_getElem hlt, hr]

theorem finalValue?_isSome (h : o.finalValues.length = o.parameters.length) :
    (o.finalValue? r).isSome = true ↔ r ∈ o.parameters := by
  constructor
  · intro hs
    obtain ⟨v, hv⟩ := Option.isSome_iff_exists.mp hs
    obtain ⟨i, hr, -⟩ := finalValue?_eq_some hv
    exact List.mem_of_getElem? hr
  · intro hm
    obtain ⟨i, hi⟩ := Option.isSome_iff_exists.mp (List.isSome_idxOf?.mpr hm)
    obtain ⟨hlt, -, -⟩ := List.idxOf?_eq_some_iff.mp hi
    have hv : o.finalValues[i]? = some (o.finalValues[i]) := List.getElem?_eq_getElem (by omega)
    have hf : o.finalValue? r = o.finalValues[i]? := by
      unfold finalValue?
      rw [hi]
      rfl
    rw [hf, hv]
    rfl

end Outcome

namespace Problem

open Edit

/-- `q` is `p` with other values for what is free. -/
structure Varied (p q : Problem) : Prop where
  points : Arena.Moved p.free p.points q.points
  primitives : q.primitives = p.primitives
  constraints : q.constraints = p.constraints
  pinned : q.pinned = p.pinned
  free : q.free = p.free

theorem Sound.varied_recounted {p : Problem} (hp : p.Sound) : Varied p p.recounted :=
  ⟨.refl p.free p.points, rfl, rfl, rfl, hp.free_eq.symm⟩

theorem Sound.varied_settled {p : Problem} (hp : p.Sound) (x : List Float) :
    Varied p (p.settled x) := by
  refine ⟨?_, rfl, rfl, rfl, hp.free_eq.symm⟩
  rw [hp.free_eq]
  exact .writeValues p.computeFree p.points x

theorem Sound.parameter_settled {p : Problem} (hp : p.Sound) {x : List Float} {i : Nat}
    {r : ParamId} {v : Float} (hr : p.computeFree[i]? = some r) (hv : x[i]? = some v) :
    ((p.settled x).parameter r).map Parameter.value = .ok v := by
  obtain ⟨s, hs⟩ := Option.isSome_iff_exists.mp (hp.param?_isSome (List.mem_of_getElem? hr))
  have hw : (p.settled x).points.param? r = some (s.assign v) := by
    change (p.points.writeValues p.computeFree x).param? r = _
    rw [Arena.param?_writeValues (nodup_computeFree p) p.points hr hv, hs]
    rfl
  rw [parameter_eq_ok.mpr hw]
  rfl

/-- The state after a successful solve depends on the minimum alone: the parameters that were free
hold its entries, and nothing else differs from before. The outcome lists the parameters that were
free and one value for each. So it has a value for exactly these, the one that the problem holds
now, and its error is the problem's. -/
theorem successful_solve_commits {p q : Problem} (hp : p.Reachable) {minimizer : Minimizer}
    {settings : Settings} {o : Outcome}
    (h : (solveWith minimizer settings).on p = (.ok o, q)) :
    ((p.transcript minimizer settings).isSome = true →
      ∃ m, p.answer minimizer settings = .ok m ∧ m.x.length = p.free.length ∧
        q = { p with points := p.points.writeValues p.free m.x, generation := p.generation + 1,
                     knownFree := some p.free } ∧
        ∀ (i : Nat) r v, p.free[i]? = some r → m.x[i]? = some v →
          (q.parameter r).map Parameter.value = .ok v) ∧
    Varied p q ∧
    o.parameters = p.free ∧ o.finalValues.length = o.parameters.length ∧
    (∀ r, (o.finalValue? r).isSome = true ↔ r ∈ p.free) ∧
    (∀ r v, o.finalValue? r = some v → (q.parameter r).map Parameter.value = .ok v) ∧
    o.error = q.error := by
  have hs := hp.sound
  have hends := hs.solveEnds minimizer settings
  rw [h] at hends
  rw [hs.free_eq]
  cases hends with
  | idle hv hf =>
    refine ⟨fun hasked => ?_, hs.varied_recounted, hf.symm, rfl, fun r => ?_, fun r v hr => ?_, rfl⟩
    · exact absurd hf (transcript_isSome.mp hasked).2
    · rw [Outcome.finalValue?_isSome rfl, hf]
      rfl
    · obtain ⟨i, hi, -⟩ := Outcome.finalValue?_eq_some hr
      cases hi
  | settled hv hf m ha hu =>
    have hl := (isUsable_iff.mp hu).1
    refine ⟨fun hasked => ?_, hs.varied_settled m.x, rfl, hl, fun r => ?_, fun r v hr => ?_, rfl⟩
    · exact ⟨m, ha, hl, rfl, fun i r v hr hv => hs.parameter_settled hr hv⟩
    · exact Outcome.finalValue?_isSome hl
    · obtain ⟨i, hi, hx⟩ := Outcome.finalValue?_eq_some hr
      exact hs.parameter_settled hi hx

def landing : Minimum := ⟨[2, 3, 4], true, 1, 2, 0⟩

def detour : Minimizer := fun start _ =>
  .evaluate (start.map (· + 1)) fun cost => .evaluate (cost :: 5 :: start) fun _ =>
    .done (.ok landing)

theorem corner_commits : corner.Reachable ∧
    (solveWith detour {}).on corner = (.ok (corner.outcomeAt landing), corner.settled landing.x) ∧
    ((corner.settled landing.x).parameter ⟨⟨1⟩, .y⟩).map Parameter.value = .ok 4 ∧
    (corner.settled landing.x).points.param? ⟨⟨1⟩, .x⟩ = some ⟨1, true⟩ ∧
    (corner.outcomeAt landing).parameters = corner.free := by
  have hr : corner.Reachable := ⟨_, rfl⟩
  have hv : corner.invalid = [] := by decide +kernel
  have hf : corner.computeFree ≠ [] := by decide +kernel
  have hq : (solveWith detour {}).on corner =
      (.ok (corner.outcomeAt landing), corner.settled landing.x) := by
    have ha : corner.answer detour {} = .ok landing := rfl
    have hu : isUsable corner.computeFree landing.x = true := by decide +kernel
    rw [on_solveWith_searched detour {} hv hf fun q hq => hr.sound.param?_isSome hq, ha]
    simp only [concluded, hu, if_true]
  obtain ⟨hasked, hvaried, hparameters, -, -, -, -⟩ := successful_solve_commits hr hq
  obtain ⟨m, ha, -, -, hvalues⟩ := hasked (transcript_isSome.mpr ⟨hv, hf⟩)
  obtain rfl : landing = m := Except.ok.inj ha
  have hfixed := hvaried.points.others ⟨⟨1⟩, .x⟩ (by decide +kernel)
  have hbefore : corner.points.param? ⟨⟨1⟩, .x⟩ = some ⟨1, true⟩ := by decide +kernel
  exact ⟨hr, hq, hvalues 2 ⟨⟨1⟩, .y⟩ 4 (by decide +kernel) rfl, hfixed.trans hbefore,
    hparameters⟩

end Problem

end PlaneSketch
