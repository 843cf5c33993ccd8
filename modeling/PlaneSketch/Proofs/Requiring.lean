import PlaneSketch.Proofs.Mirror

namespace PlaneSketch

open Problem

/-- How a requirement ends: it adds to the mirror, or does not fit. -/
inductive Requirement.Ends (s : Sketch) (r : Requirement) : Except Error Unit × Problem → Prop where
  | done {q : Problem} : r.Fits s.declarations →
    q.Mirrors { s with requirements := s.requirements ++ [r] } → Ends s r (.ok (), q)
  | refused {err : Error} {q : Problem} : ¬ r.Fits s.declarations →
    (∀ name, err ≠ .duplicateName name) → Ends s r (.error err, q)

theorem Problem.line_error {p : Problem} {name : String} {err : Error}
    (h : p.line name = .error err) : err = .notFound name ∨ err = .notALine name := by
  unfold Problem.line at h
  rw [lookup_eq] at h
  generalize p.find? name = found at h
  rcases found with _ | (id | l)
  · cases h
    exact .inl rfl
  · cases h
    exact .inr rfl
  · cases h

/-- A handle is found under a name of the kind, and none under any other. -/
theorem found_cases {α : Type} {found : Except Error α} {leads : α → Prop} {named : Prop}
    (hok : ∀ a, found = .ok a ↔ leads a) (hnamed : (∃ a, leads a) ↔ named)
    (herror : ∀ err, found = .error err → ∀ n, err ≠ .duplicateName n) :
    (named ∧ ∃ a, leads a ∧ found = .ok a) ∨
    ¬ named ∧ ∃ err, found = .error err ∧ ∀ n, err ≠ .duplicateName n := by
  cases found with
  | ok a =>
    have hleads := (hok a).mp rfl
    exact .inl ⟨hnamed.mp ⟨a, hleads⟩, a, hleads, rfl⟩
  | error err =>
    refine .inr ⟨fun hname => ?_, err, rfl, herror err rfl⟩
    obtain ⟨a, hleads⟩ := hnamed.mpr hname
    cases (hok a).mpr hleads

namespace Problem.Mirrors

variable {p : Problem} {s : Sketch}

theorem line_cases (h : p.Mirrors s) (name : String) :
    (NamesLine s.declarations name ∧ ∃ l, p.find? name = some (.line l) ∧ p.line name = .ok l) ∨
    ¬ NamesLine s.declarations name ∧
      ∃ err, p.line name = .error err ∧ ∀ n, err ≠ .duplicateName n := by
  refine found_cases (fun _ => line_eq_ok) h.find?_line_iff fun err herr n he => ?_
  subst he
  rcases line_error herr with he | he <;> cases he

theorem point_cases (h : p.Mirrors s) (name : String) :
    (NamesPoint s.declarations name ∧
      ∃ id, p.find? name = some (.point id) ∧ p.point name = .ok id) ∨
    ¬ NamesPoint s.declarations name ∧
      ∃ err, p.point name = .error err ∧ ∀ n, err ≠ .duplicateName n := by
  refine found_cases (fun _ => point_eq_ok) h.find?_point_iff fun err herr n he => ?_
  subst he
  rcases point_error herr with he | he <;> cases he

theorem constrain (h : p.Mirrors s) {r : Requirement} (hr : r.constrains = true)
    {names : List String} {c : Constraint} (hmade : r.Made p ⟨c, names⟩) :
    ({ p with constraints := p.constraints ++ [⟨c, names⟩] } : Problem).Mirrors
      { s with requirements := s.requirements ++ [r] } where
  unambiguous := h.unambiguous.congr rfl rfl
  sound := ⟨h.sound.numbered, h.sound.coherent⟩
  primitives := h.primitives
  points := h.points
  pinned q := by
    have hne (name : String) : Requirement.fixed name ≠ r := by
      rintro rfl
      cases hr
    refine (h.pinned q).trans ?_
    change _ ↔ ∃ name x, Requirement.fixed name ∈ s.requirements ++ [r] ∧
      p.find? name = some x ∧ q.point ∈ x.handles
    simp [hne]
  constraints := by
    rw [List.filter_append, List.filter_cons_of_pos hr]
    exact List.rel_append h.constraints (.cons hmade .nil)

theorem fix (h : p.Mirrors s) {name : String} {q : Primitive} (hq : p.find? name = some q) :
    (invalidate { p with
      pinned := (p.pinned ++ ParamId.ofPoints q.handles).eraseDups } : Problem).Mirrors
      { s with requirements := s.requirements ++ [.fixed name] } where
  unambiguous := h.unambiguous.congr rfl rfl
  sound := ⟨h.sound.numbered, fun _ hk => nomatch hk⟩
  primitives := h.primitives
  points := h.points
  pinned r := by
    change r ∈ (p.pinned ++ ParamId.ofPoints q.handles).eraseDups ↔
      ∃ n x, Requirement.fixed n ∈ s.requirements ++ [.fixed name] ∧
        p.find? n = some x ∧ r.point ∈ x.handles
    rw [List.mem_eraseDups, List.mem_append, h.pinned, ParamId.mem_ofPoints]
    constructor
    · rintro (⟨n, x, hn, hx⟩ | hr)
      · exact ⟨n, x, List.mem_append_left _ hn, hx⟩
      · exact ⟨name, q, by simp, hq, hr⟩
    · rintro ⟨n, x, hn, hx, hr⟩
      rcases List.mem_append.mp hn with hn | hn
      · exact .inl ⟨n, x, hn, hx, hr⟩
      · cases List.mem_singleton.mp hn
        cases hq.symm.trans hx
        exact .inr hr
  constraints := by
    rw [List.filter_append, List.filter_cons_of_neg (by simp [Requirement.constrains]),
      List.filter_nil, List.append_nil]
    exact h.constraints

theorem ends_fixed (h : p.Mirrors s) (name : String) :
    (Requirement.fixed name).Ends s ((Requirement.fixed name).apply.on p) := by
  unfold Requirement.apply
  rw [on_pin]
  cases hq : p.find? name with
  | none =>
    obtain ⟨hpoint, hline⟩ := h.find?_eq_none_iff.mp hq
    exact .refused (fun hfits => hfits.elim hpoint hline) fun _ he => nomatch he
  | some q =>
    refine .done ?_ (h.fix hq)
    cases q with
    | point id => exact .inl (h.find?_point_iff.mp ⟨id, hq⟩)
    | line l => exact .inr (h.find?_line_iff.mp ⟨l, hq⟩)

theorem ends_length (h : p.Mirrors s) (name : String) (target : Float) :
    (Requirement.length name target).Ends s ((Requirement.length name target).apply.on p) := by
  unfold Requirement.apply
  rw [on_constrainLength]
  rcases h.line_cases name with ⟨hname, l, hfind, hl⟩ | ⟨hname, err, hl, herr⟩ <;> rw [hl]
  swap
  · exact .refused (fun hfits => hname hfits.1) herr
  change Requirement.Ends s _ (p.declare [name] (Constraint.newLineLength l target))
  unfold Constraint.newLineLength
  split
  · rename_i hlength
    exact .done ⟨hname, Constraint.isLength_iff.mp hlength⟩ (h.constrain rfl ⟨l, hfind, rfl⟩)
  · rename_i hlength
    exact .refused (fun hfits => hlength (Constraint.isLength_iff.mpr hfits.2))
      fun _ he => nomatch he

theorem ends_angle (h : p.Mirrors s) (a b : String) (target : Float) :
    (Requirement.angle a b target).Ends s ((Requirement.angle a b target).apply.on p) := by
  unfold Requirement.apply
  rw [on_constrainAngle]
  rcases h.line_cases a with ⟨ha, l, hfind, hl⟩ | ⟨ha, err, hl, herr⟩ <;> rw [hl]
  swap
  · exact .refused (fun hfits => ha hfits.1) herr
  rcases h.line_cases b with ⟨hb, m, hfind', hm⟩ | ⟨hb, err, hm, herr⟩ <;> rw [hm]
  swap
  · exact .refused (fun hfits => hb hfits.2.1) herr
  change Requirement.Ends s _ (p.declare [a, b] (Constraint.newLineAngle l m target))
  unfold Constraint.newLineAngle
  split
  · rename_i hfinite
    exact .done ⟨ha, hb, hfinite⟩ (h.constrain rfl ⟨l, m, hfind, hfind', rfl⟩)
  · rename_i hfinite
    exact .refused (fun hfits => hfinite hfits.2.2) fun _ he => nomatch he

theorem ends_distance (h : p.Mirrors s) (a b : String) (target : Float) :
    (Requirement.distance a b target).Ends s ((Requirement.distance a b target).apply.on p) := by
  unfold Requirement.apply
  rw [on_constrainDistance]
  rcases h.point_cases a with ⟨ha, i, hfind, hi⟩ | ⟨ha, err, hi, herr⟩ <;> rw [hi]
  swap
  · exact .refused (fun hfits => ha hfits.1) herr
  rcases h.point_cases b with ⟨hb, j, hfind', hj⟩ | ⟨hb, err, hj, herr⟩ <;> rw [hj]
  swap
  · exact .refused (fun hfits => hb hfits.2.1) herr
  change Requirement.Ends s _ (p.declare [a, b] (Constraint.newPointDistance i j target))
  unfold Constraint.newPointDistance
  split
  · rename_i hlength
    exact .done ⟨ha, hb, Constraint.isLength_iff.mp hlength⟩
      (h.constrain rfl ⟨i, j, hfind, hfind', rfl⟩)
  · rename_i hlength
    exact .refused (fun hfits => hlength (Constraint.isLength_iff.mpr hfits.2.2))
      fun _ he => nomatch he

theorem require (h : p.Mirrors s) (r : Requirement) : r.Ends s (r.apply.on p) := by
  cases r with
  | fixed name => exact h.ends_fixed name
  | length name target => exact h.ends_length name target
  | angle a b target => exact h.ends_angle a b target
  | distance a b target => exact h.ends_distance a b target

end Problem.Mirrors

end PlaneSketch
