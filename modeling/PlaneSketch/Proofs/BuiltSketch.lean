import PlaneSketch.Proofs.Declaring
import PlaneSketch.Proofs.Requiring

namespace PlaneSketch

open Problem Edit

/-- How the building of a sketch ends. -/
inductive Sketch.Builds (s : Sketch) : Except Error Problem → Prop where
  | built {p : Problem} : s.WellFormed → p.Mirrors s → Builds s (.ok p)
  | refused {err : Error} : ¬ s.WellFormed →
    (∀ name, err = .duplicateName name → 2 ≤ (s.declarations.map Declaration.label).count name) →
    Builds s (.error err)

namespace Sketch.Builds

variable {s : Sketch} {result : Except Error Problem} {p : Problem}

theorem exists_iff (h : s.Builds result) : (∃ p, result = .ok p) ↔ s.WellFormed := by
  cases h with
  | @built p hs hp => exact iff_of_true ⟨p, rfl⟩ hs
  | refused hno herr =>
    refine iff_of_false ?_ hno
    rintro ⟨p, hp⟩
    cases hp

theorem mirrors (h : s.Builds (.ok p)) : s.WellFormed ∧ p.Mirrors s := by
  cases h with
  | built hs hp => exact ⟨hs, hp⟩

theorem duplicate {name : String} (h : s.Builds (.error (.duplicateName name))) :
    2 ≤ (s.declarations.map Declaration.label).count name := by
  cases h with
  | refused hno herr => exact herr name rfl

end Sketch.Builds

theorem Instruction.on_applyAll_cons (i : Instruction) (rest : List Instruction) (p : Problem) :
    (applyAll (i :: rest)).on p = match i.apply.on p with
      | (.ok _, q) => (applyAll rest).on q
      | (.error err, q) => (.error err, q) := by
  rw [applyAll, on_bind]
  rcases i.apply.on p with ⟨_ | _, q⟩ <;> rfl

namespace Problem.Mirrors

variable {p : Problem} {s : Sketch}

theorem requireAll (h : p.Mirrors s) (rs : List Requirement) :
    (∃ q, (Instruction.applyAll (rs.map .require)).on p = (.ok (), q) ∧
      (∀ r ∈ rs, r.Fits s.declarations) ∧
      q.Mirrors { s with requirements := s.requirements ++ rs }) ∨
    ∃ err q, (Instruction.applyAll (rs.map .require)).on p = (.error err, q) ∧
      (¬ ∀ r ∈ rs, r.Fits s.declarations) ∧ ∀ name, err ≠ .duplicateName name := by
  induction rs generalizing p s with
  | nil => exact .inl ⟨p, rfl, by simp, by simpa using h⟩
  | cons r rest ih =>
    have hends := h.require r
    rw [List.map_cons, Instruction.on_applyAll_cons, Instruction.apply]
    generalize r.apply.on p = result at hends
    cases hends with
    | refused hno herr =>
      exact .inr ⟨_, _, rfl, fun hall => hno (hall r List.mem_cons_self), herr⟩
    | done hfits hq =>
      rcases ih hq with ⟨q, hdone, hrest, hmirrors⟩ | ⟨err, q, hrefused, hno, herr⟩
      · refine .inl ⟨q, hdone, List.forall_mem_cons.mpr ⟨hfits, hrest⟩, ?_⟩
        simpa using hmirrors
      · exact .inr ⟨err, q, hrefused, fun hall => hno (List.forall_mem_cons.mp hall).2, herr⟩

theorem declareAll {before : List Declaration} (h : p.Mirrors ⟨before, []⟩) (ds : List Declaration)
    (plain : ∀ d ∈ before ++ ds, d.Plain) (rest : List Instruction) :
    (∃ q,
      (Instruction.applyAll (ds.map .declare ++ rest)).on p = (Instruction.applyAll rest).on q ∧
      Fitting before ds ∧ q.Mirrors ⟨before ++ ds, []⟩) ∨
    ∃ err q, (Instruction.applyAll (ds.map .declare ++ rest)).on p = (.error err, q) ∧
      ¬ Fitting before ds ∧ ∀ name, err = .duplicateName name →
        2 ≤ ((before ++ ds).map Declaration.label).count name := by
  induction ds generalizing p before with
  | nil => exact .inl ⟨p, rfl, fitting_nil before, by simpa using h⟩
  | cons d ds ih =>
    have hends := h.declare (fun e he => plain e (by simp [he])) (plain d (by simp))
    rw [List.map_cons, List.cons_append, Instruction.on_applyAll_cons, Instruction.apply,
      fitting_cons]
    generalize d.apply.on p = result at hends
    cases hends with
    | refused hno herr =>
      refine .inr ⟨_, _, rfl, fun hall => hno hall.1, fun name he => ?_⟩
      obtain ⟨rfl, hmem⟩ := herr name he
      have hbefore := List.count_pos_iff.mpr hmem
      simp only [List.map_append, List.map_cons, List.count_append, List.count_cons_self]
      omega
    | done hfits hq =>
      rcases ih hq (by simpa using plain) with ⟨q, hdone, hfitting, hmirrors⟩ |
        ⟨err, q, hrefused, hno, herr⟩
      · exact .inl ⟨q, hdone, ⟨hfits, hfitting⟩, by simpa using hmirrors⟩
      · exact .inr ⟨err, q, hrefused, fun hall => hno hall.2, by simpa using herr⟩

end Problem.Mirrors

namespace Sketch

theorem build_eq (s : Sketch) : s.build = match (Instruction.applyAll s.instructions).on .empty with
    | (.ok (), p) => .ok p
    | (.error e, _) => .error e := rfl

/-- A sketch is built if it is well formed, and else refused. -/
theorem builds {s : Sketch} (plain : ∀ d ∈ s.declarations, d.Plain) : s.Builds s.build := by
  have hdeclare := mirrors_empty.declareAll s.declarations (by simpa using plain)
    (s.requirements.map .require)
  rw [build_eq, instructions]
  rcases hdeclare with ⟨p, hdone, hfitting, hp⟩ | ⟨err, q, hrefused, hno, herr⟩
  swap
  · rw [hrefused]
    exact .refused (fun hs => hno (wellFormed_iff.mp hs).1) herr
  rw [hdone]
  rcases hp.requireAll s.requirements with ⟨q, hdone, hfits, hq⟩ | ⟨err, q, hrefused, hno, herr⟩
  · rw [hdone]
    exact .built (wellFormed_iff.mpr ⟨hfitting, hfits⟩) hq
  · rw [hrefused]
    exact .refused (fun hs => hno (wellFormed_iff.mp hs).2) fun name he => (herr name he).elim

/-- A sketch that was read is built exactly if it is well formed. The problem then has its
declarations and its constraints in order, and just the points that are declared or stand at
coordinates. A name is only ever a duplicate if it is the label of two declarations. -/
theorem builds_exactly_wellFormed {text : String} {s : Sketch} (h : ofText text = .ok s) :
    ((∃ p, s.build = .ok p) ↔ s.WellFormed) ∧
    (∀ p, s.build = .ok p →
      List.Forall₂ (Declaration.Made p) s.declarations p.primitives ∧
      List.Forall₂ (Requirement.Made p) (s.requirements.filter (·.constrains)) p.constraints ∧
      p.points.points = s.declarations.flatMap Declaration.points) ∧
    ∀ name, s.build = .error (.duplicateName name) →
      2 ≤ (s.declarations.map Declaration.label).count name := by
  have hbuilds := builds (plain_of_ofText h)
  refine ⟨hbuilds.exists_iff, fun p hp => ?_, fun name he => ?_⟩
  · rw [hp] at hbuilds
    obtain ⟨-, hmirrors⟩ := hbuilds.mirrors
    exact ⟨hmirrors.primitives, hmirrors.constraints, hmirrors.points⟩
  · rw [he] at hbuilds
    exact hbuilds.duplicate

theorem exists_build_of {s : Sketch} (test : Problem → Bool)
    (h : s.build.toOption.any test = true) : ∃ p, s.build = .ok p ∧ test p = true := by
  cases hbuild : s.build with
  | ok p =>
    rw [hbuild] at h
    exact ⟨p, rfl, h⟩
  | error err =>
    rw [hbuild] at h
    cases h

/-- The end of one line is the start of another. -/
def hinged : Sketch where
  declarations := [.point "o" 0 0, .line "l" (.named "o") (.coordinates 3 4),
    .line "m" (.named "l.end") (.coordinates 1 1)]
  requirements := [.fixed "o", .length "l" 5, .distance "m.end" "l.start" 2]

/-- The second declaration has the label of the first one. -/
def doubled : Sketch where
  declarations := [.line "o" (.coordinates 0 0) (.coordinates 1 1), .point "o" 0 0]
  requirements := []

theorem hinged_builds_exactly :
    ofText "# geometry\npoint o (0, 0)\nline l o (3, 4)\nline m l.end (1, 1)
# constraints\nfixed(o)\nlength(l) = 5\ndistance(m.end, l.start) = 2" = .ok hinged ∧
    hinged.WellFormed ∧
    (∃ p, hinged.build = .ok p ∧ p.points.points = [⟨"o", ⟨0, false⟩, ⟨0, false⟩⟩,
      ⟨"l.end", ⟨3, false⟩, ⟨4, false⟩⟩, ⟨"m.end", ⟨1, false⟩, ⟨1, false⟩⟩]) ∧
    ofText "# geometry\nline o (0, 0) (1, 1)\npoint o (0, 0)\n# constraints" = .ok doubled ∧
    doubled.build = .error (.duplicateName "o") ∧
    2 ≤ (doubled.declarations.map Declaration.label).count "o" := by
  have hread : ofText "# geometry\npoint o (0, 0)\nline l o (3, 4)\nline m l.end (1, 1)
# constraints\nfixed(o)\nlength(l) = 5\ndistance(m.end, l.start) = 2" = .ok hinged := by
    decide +kernel
  have hread' : ofText "# geometry\nline o (0, 0) (1, 1)\npoint o (0, 0)\n# constraints" =
      .ok doubled := by decide +kernel
  obtain ⟨hiff, hall, -⟩ := builds_exactly_wellFormed hread
  obtain ⟨-, -, htwice⟩ := builds_exactly_wellFormed hread'
  have hdoubled : doubled.build = .error (.duplicateName "o") := by rfl
  obtain ⟨p, hbuild, -⟩ := exists_build_of (s := hinged) (fun _ => true) (by decide +kernel)
  obtain ⟨-, -, hpoints⟩ := hall p hbuild
  exact ⟨hread, hiff.mp ⟨p, hbuild⟩, ⟨p, hbuild, hpoints⟩, hread', hdoubled, htwice "o" hdoubled⟩

end Sketch

end PlaneSketch
