import PlaneSketch.Proofs.Mirror

namespace PlaneSketch

open Problem Edit

namespace Edit

variable {α β : Type} {e : Edit α} {p q : Problem} {c : Prop} {a : α} {blame : String → Prop}

/-- Whatever name the edit is refused for as a duplicate, this is true of it. -/
def Blames (e : Edit α) (p : Problem) (blame : String → Prop) : Prop :=
  ∀ name q, e.on p = (.error (.duplicateName name), q) → blame name

theorem blames_of_done (h : e.on p = (.ok a, q)) : e.Blames p blame := by
  intro name q' he
  rw [h] at he
  cases he

theorem Blames.bind {f : α → Edit β} (h : e.Blames p blame) (hatomic : e.Atomic p c a p)
    (hf : c → (f a).Blames p blame) : (e >>= f).Blames p blame := by
  intro name q he
  rw [on_bind] at he
  rcases hatomic.cases with ⟨hc, hdone⟩ | ⟨-, err, hrefused⟩
  · rw [hdone] at he
    exact hf hc name q he
  · rw [hrefused] at he
    cases he
    exact h name p hrefused

end Edit

namespace Problem

variable {p : Problem} {blame : String → Prop}

theorem checkFree_blames {name : String} (h : p.find? name ≠ none → blame name) :
    (checkFree name).Blames p blame := by
  intro n q he
  unfold checkFree at he
  rw [on_bind, on_get] at he
  cases hfind : p.find? name with
  | none =>
    simp only [hfind] at he
    cases he
  | some r =>
    simp only [hfind] at he
    cases he
    exact h (by simp [hfind])

theorem checkFinite_blames (v : Float) :
    (liftM (Parameter.checkFinite v) : Edit Unit).Blames p blame := by
  intro n q he
  unfold Parameter.checkFinite at he
  split at he <;> cases he

theorem checkKnown_blames (id : PointId) : (checkKnown id).Blames p blame := by
  intro n q he
  unfold checkKnown at he
  rw [on_bind, on_get] at he
  cases hk : p.points.contains id <;> simp only [hk] at he <;> cases he

theorem newPoint_blames (name : String) (x y : Float) :
    (liftM (Point.new name x y) : Edit Point).Blames p blame := by
  intro n q he
  rw [on_lift] at he
  unfold Point.new Parameter.new Parameter.checkFinite at he
  split at he <;> split at he <;> cases he

theorem checkEndpoint_blames {name : String} (h : p.find? name ≠ none → blame name)
    (e : Endpoint) : (checkEndpoint name e).Blames p blame := by
  unfold checkEndpoint
  refine (checkFree_blames h).bind (checkFree_atomic p name) fun _ => ?_
  cases e with
  | fresh x y =>
    exact (checkFinite_blames x).bind (checkFinite_atomic p x) fun _ => checkFinite_blames y
  | shared id => exact checkKnown_blames id

theorem addPoint_blames (p : Problem) (name : String) (x y : Float) :
    (addPoint name x y).Blames p fun n => n = name ∧ p.find? name ≠ none := by
  by_cases hfits : p.find? name = none ∧ x.isFinite = true ∧ y.isFinite = true
  · exact blames_of_done ((addPoint_atomic p name x y).done hfits)
  unfold addPoint
  refine (checkFree_blames fun htaken => ⟨rfl, htaken⟩).bind (checkFree_atomic p name) fun hn => ?_
  refine (newPoint_blames name x y).bind (newPoint_atomic p name x y) fun hxy => ?_
  exact (hfits ⟨hn, hxy⟩).elim

/-- A line is refused for the name of an end only where its own name is free. -/
theorem addLine_blames (p : Problem) (name : String) (start finish : Endpoint) :
    (addLine name start finish).Blames p fun n => n = name ∧ p.find? name ≠ none ∨
      p.find? name = none ∧
        (p.find? (startName name) ≠ none ∨ p.find? (finishName name) ≠ none) := by
  unfold addLine
  refine (checkFree_blames fun htaken => .inl ⟨rfl, htaken⟩).bind (checkFree_atomic p name)
    fun hn => ?_
  refine (checkEndpoint_blames (fun htaken => .inr ⟨hn, .inl htaken⟩) start).bind
    (checkEndpoint_atomic p (startName name) start) fun hs => ?_
  refine (checkEndpoint_blames (fun htaken => .inr ⟨hn, .inr htaken⟩) finish).bind
    (checkEndpoint_atomic p (finishName name) finish) fun hf => ?_
  exact blames_of_done (on_resolveEndpoints ⟨hn, hs.1, hs.2, hf.1, hf.2⟩)

end Problem

namespace Spot

/-- What the spot comes to, if it leads to a point. -/
def Ends (p : Problem) (e : Endpoint) : Spot → Prop
  | coordinates x y => e = .fresh x y
  | named label => ∃ id, p.find? label = some (.point id) ∧ e = .shared id

variable {spot : Spot} {p : Problem} {e : Endpoint}

theorem resolve_cases (spot : Spot) (p : Problem) :
    (∃ e, spot.Ends p e ∧ spot.resolve.on p = (.ok e, p)) ∨
    (∃ name ∈ spot.names, ∀ id, p.find? name ≠ some (.point id)) ∧
      ∃ err, spot.resolve.on p = (.error err, p) ∧ ∀ name, err ≠ .duplicateName name := by
  cases spot with
  | coordinates x y => exact .inl ⟨.fresh x y, rfl, rfl⟩
  | named label =>
    unfold resolve
    rw [on_get_bind, on_lift_bind]
    cases hp : p.point label with
    | ok id => exact .inl ⟨.shared id, ⟨id, point_eq_ok.mp hp, rfl⟩, rfl⟩
    | error err =>
      refine .inr ⟨⟨label, List.mem_cons_self, fun id hid => ?_⟩, err, rfl, ?_⟩
      · rw [point_eq_ok.mpr hid] at hp
        cases hp
      · rintro name rfl
        rcases point_error hp with he | he <;> cases he

theorem Ends.added (h : spot.Ends p e) (name : String) : e.added name = spot.points name := by
  cases spot with
  | coordinates x y =>
    cases h
    rfl
  | named label =>
    obtain ⟨id, -, rfl⟩ := h
    rfl

theorem Ends.fits_iff (h : spot.Ends p e) (hp : p.Sound) : e.Fits p ↔ spot.Finite := by
  cases spot with
  | coordinates x y =>
    cases h
    rfl
  | named label =>
    obtain ⟨id, hid, rfl⟩ := h
    exact iff_of_true (hp.find?_contains hid List.mem_cons_self) trivial

theorem Ends.namesPoint (h : spot.Ends p e) {s : Sketch} (hp : p.Mirrors s) :
    ∀ name ∈ spot.names, NamesPoint s.declarations name := by
  intro name hname
  cases spot with
  | coordinates x y => cases hname
  | named label =>
    cases List.mem_singleton.mp hname
    obtain ⟨id, hid, -⟩ := h
    exact hp.find?_point_iff.mp ⟨id, hid⟩

/-- The end is found in a problem that has grown by the points that were made for it. -/
theorem Ends.leadsTo (h : spot.Ends p e) {q : Problem} {name : String} {before after : List Point}
    (hfind : ∀ {n r}, p.find? n = some r → q.find? n = some r)
    (hq : q.points.points = before ++ (spot.points name ++ after)) :
    spot.LeadsTo q name (e.handle before.length) := by
  cases spot with
  | coordinates x y =>
    cases h
    simp [LeadsTo, Arena.get?, hq, points, Endpoint.handle]
  | named label =>
    obtain ⟨id, hid, rfl⟩ := h
    exact hfind hid

theorem LeadsTo.mono {q : Problem} {name : String} {id : PointId} (h : spot.LeadsTo p name id)
    (hget : ∀ {i point}, p.points.get? i = some point → q.points.get? i = some point)
    (hfind : ∀ {n r}, p.find? n = some r → q.find? n = some r) : spot.LeadsTo q name id := by
  cases spot with
  | coordinates x y => exact hget h
  | named label => exact hfind h

end Spot

namespace Declaration

theorem Made.mono {p q : Problem} {d : Declaration} {entry : String × Primitive}
    (h : d.Made p entry)
    (hget : ∀ {i point}, p.points.get? i = some point → q.points.get? i = some point)
    (hfind : ∀ {n r}, p.find? n = some r → q.find? n = some r) : d.Made q entry := by
  cases d with
  | point label x y =>
    obtain ⟨id, he, hid⟩ := h
    exact ⟨id, he, hget hid⟩
  | line label start finish =>
    obtain ⟨l, he, hs, hf⟩ := h
    exact ⟨l, he, hs.mono hget hfind, hf.mono hget hfind⟩

end Declaration

namespace Problem.Mirrors

variable {p : Problem} {s : Sketch} {before : List Declaration}

/-- A plain label is free as long as nothing else has been declared by it. -/
theorem find?_label (h : p.Mirrors s) {d : Declaration} (hd : d.Plain) :
    p.find? d.label = none ↔ d.label ∉ s.declarations.map Declaration.label := by
  rw [h.find?_eq_none_iff]
  constructor
  · rintro ⟨hpoint, hline⟩ hmem
    obtain ⟨e, he, hlabel⟩ := List.mem_map.mp hmem
    cases e with
    | point label x y => exact hpoint ⟨_, he, Declaration.mem_pointNames_point.mpr hlabel.symm⟩
    | line label start finish => exact hline ⟨start, finish, hlabel ▸ he⟩
  · intro hfresh
    refine ⟨fun ⟨e, he, hname⟩ => ?_, fun ⟨start, finish, hmem⟩ => ?_⟩
    · cases e with
      | point label x y =>
        exact hfresh (List.mem_map.mpr ⟨_, he, (Declaration.mem_pointNames_point.mp hname).symm⟩)
      | line label start finish =>
        rcases Declaration.mem_pointNames_line.mp hname with hname | hname
        · exact hd.ne_startName label hname
        · exact hd.ne_finishName label hname
    · exact hfresh (List.mem_map.mpr ⟨_, hmem, rfl⟩)

/-- The names of a line's ends are free if its label is. -/
theorem find?_ends (h : p.Mirrors s) (plain : ∀ e ∈ s.declarations, e.Plain) {line : String}
    (hfresh : line ∉ s.declarations.map Declaration.label) :
    p.find? (startName line) = none ∧ p.find? (finishName line) = none := by
  have hlabel {e : Declaration} (he : e ∈ s.declarations) : e.label ≠ line := by
    rintro rfl
    exact hfresh (List.mem_map_of_mem he)
  rw [h.find?_eq_none_iff, h.find?_eq_none_iff]
  refine ⟨⟨fun ⟨e, he, hname⟩ => ?_, fun ⟨_, _, hmem⟩ => (plain _ hmem).ne_startName line rfl⟩,
    fun ⟨e, he, hname⟩ => ?_, fun ⟨_, _, hmem⟩ => (plain _ hmem).ne_finishName line rfl⟩
  · cases e with
    | point label x y =>
      exact (plain _ he).ne_startName line (Declaration.mem_pointNames_point.mp hname).symm
    | line label start finish =>
      rcases Declaration.mem_pointNames_line.mp hname with hname | hname
      · exact hlabel he (startName_inj.mp hname).symm
      · exact startName_ne_finishName_of _ _ hname
  · cases e with
    | point label x y =>
      exact (plain _ he).ne_finishName line (Declaration.mem_pointNames_point.mp hname).symm
    | line label start finish =>
      rcases Declaration.mem_pointNames_line.mp hname with hname | hname
      · exact startName_ne_finishName_of _ _ hname.symm
      · exact hlabel he (finishName_inj.mp hname).symm

theorem grow (h : p.Mirrors ⟨before, []⟩) {d : Declaration} {added : List Point} {name : String}
    {q : Primitive} (step : Step p (p.grow added name q)) (hadded : added = d.points)
    (hmade : d.Made (p.grow added name q) (name, q)) :
    (p.grow added name q).Mirrors ⟨before ++ [d], []⟩ where
  unambiguous := step.unambiguous h.unambiguous
  sound := step.sound h.sound
  primitives := by
    have hold := h.primitives.imp fun _ _ hm => hm.mono (q := p.grow added name q)
      (fun hget => Arena.get?_append hget) (step.grown.find? (step.unambiguous h.unambiguous))
    exact List.rel_append hold (.cons hmade .nil)
  points := by
    change p.points.points ++ added = _
    simp [h.points, hadded]
  pinned r := (h.pinned r).trans (by simp)
  constraints := by
    have hnone : p.constraints = [] := List.forall₂_nil_left_iff.mp h.constraints
    change List.Forall₂ _ _ p.constraints
    rw [hnone]
    exact .nil

end Problem.Mirrors

/-- How a declaration ends: it adds to the mirror, or does not fit; and it is refused as a duplicate
only for a label that has been declared. -/
inductive Declaration.Ends (before : List Declaration) (d : Declaration) :
    Except Error Unit × Problem → Prop where
  | done {q : Problem} : d.Fits before → q.Mirrors ⟨before ++ [d], []⟩ →
    Ends before d (.ok (), q)
  | refused {err : Error} {q : Problem} : ¬ d.Fits before →
    (∀ name, err = .duplicateName name → name = d.label ∧ name ∈ before.map label) →
    Ends before d (.error err, q)

namespace Problem.Mirrors

variable {p : Problem} {before : List Declaration}

theorem ends_point (h : p.Mirrors ⟨before, []⟩) {label : String} {x y : Float}
    (hplain : (Declaration.point label x y).Plain) :
    (Declaration.point label x y).Ends before ((Declaration.point label x y).apply.on p) := by
  have hlabel := h.find?_label hplain
  unfold Declaration.apply
  rw [on_bind]
  rcases (addPoint_atomic p label x y).cases with ⟨⟨hfree, hx, hy⟩, hdone⟩ | ⟨hno, err, hrefused⟩
  · rw [hdone]
    refine .done ⟨hlabel.mp hfree, ⟨hx, hy⟩, by simp [Declaration.endNames]⟩ ?_
    refine h.grow (.point label x y hfree hx hy) rfl ⟨_, rfl, ?_⟩
    simp [Arena.get?, Problem.grow, invalidate, Arena.size]
  · rw [hrefused]
    refine .refused (fun hfits => hno ⟨hlabel.mpr hfits.fresh, hfits.finite⟩) ?_
    rintro name rfl
    obtain ⟨rfl, htaken⟩ := addPoint_blames p label x y name _ hrefused
    exact ⟨rfl, not_not.mp fun hfresh => htaken (hlabel.mpr hfresh)⟩

theorem growLine (h : p.Mirrors ⟨before, []⟩) {label : String} {start finish : Spot}
    {s f : Endpoint} (hs : start.Ends p s) (hf : finish.Ends p f) (hfits : p.LineFits label s f) :
    (p.growLine label s f).Mirrors ⟨before ++ [.line label start finish], []⟩ := by
  have step : Step p (p.growLine label s f) := .line label s f hfits
  have hfind {n : String} {r : Primitive} (hr : p.find? n = some r) :
      (p.growLine label s f).find? n = some r :=
    step.grown.find? (step.unambiguous h.unambiguous) hr
  have hpoints : (p.growLine label s f).points.points =
      p.points.points ++ (start.points (startName label) ++ finish.points (finishName label)) := by
    rw [← hs.added, ← hf.added]
    rfl
  refine h.grow step (by rw [hs.added, hf.added, Declaration.points]) ⟨_, rfl, ?_, ?_⟩
  · exact hs.leadsTo hfind hpoints
  · have hpoints' : (p.growLine label s f).points.points =
        (p.points.points ++ start.points (startName label)) ++
          (finish.points (finishName label) ++ []) := by simp [hpoints]
    have hfinish := hf.leadsTo hfind hpoints'
    rw [List.length_append, ← hs.added] at hfinish
    exact hfinish

/-- An end that cannot be resolved is not in scope. -/
theorem not_fits_of_lost (h : p.Mirrors ⟨before, []⟩) {d : Declaration} {spot : Spot}
    (hspot : ∀ name ∈ spot.names, name ∈ d.endNames)
    (hno : ∃ name ∈ spot.names, ∀ id, p.find? name ≠ some (.point id)) : ¬ d.Fits before := by
  intro hfits
  obtain ⟨name, hname, hid⟩ := hno
  obtain ⟨id, hfound⟩ := h.find?_point_iff.mpr (hfits.ends name (hspot name hname))
  exact hid id hfound

theorem ends_addLine (h : p.Mirrors ⟨before, []⟩) (plain : ∀ e ∈ before, e.Plain) {label : String}
    {start finish : Spot} (hplain : (Declaration.line label start finish).Plain) {s f : Endpoint}
    (hs : start.Ends p s) (hf : finish.Ends p f) :
    (Declaration.line label start finish).Ends before ((addLine label s f).on p) := by
  have hlabel := h.find?_label hplain
  rcases (addLine_atomic p label s f).cases with ⟨hfits, hdone⟩ | ⟨hno, err, hrefused⟩
  · rw [hdone]
    refine .done ⟨hlabel.mp hfits.nameFree, ⟨(hs.fits_iff h.sound).mp hfits.startFits,
      (hf.fits_iff h.sound).mp hfits.finishFits⟩, fun name hname => ?_⟩ (h.growLine hs hf hfits)
    rcases List.mem_append.mp hname with hname | hname
    · exact hs.namesPoint h name hname
    · exact hf.namesPoint h name hname
  · rw [hrefused]
    refine .refused (fun hfits => hno ?_) ?_
    · obtain ⟨hsfree, hffree⟩ := h.find?_ends plain hfits.fresh
      exact ⟨hlabel.mpr hfits.fresh, hsfree, (hs.fits_iff h.sound).mpr hfits.finite.1, hffree,
        (hf.fits_iff h.sound).mpr hfits.finite.2⟩
    · rintro name rfl
      rcases addLine_blames p label s f name _ hrefused with ⟨rfl, htaken⟩ | ⟨hfree, htaken⟩
      · exact ⟨rfl, not_not.mp fun hfresh => htaken (hlabel.mpr hfresh)⟩
      · obtain ⟨hsfree, hffree⟩ := h.find?_ends plain (hlabel.mp hfree)
        rcases htaken with htaken | htaken
        · exact (htaken hsfree).elim
        · exact (htaken hffree).elim

theorem ends_line (h : p.Mirrors ⟨before, []⟩) (plain : ∀ e ∈ before, e.Plain) {label : String}
    {start finish : Spot} (hplain : (Declaration.line label start finish).Plain) :
    (Declaration.line label start finish).Ends before
      ((Declaration.line label start finish).apply.on p) := by
  unfold Declaration.apply
  rw [on_bind]
  rcases start.resolve_cases p with ⟨s, hs, hdone⟩ | ⟨hno, err, hrefused, herr⟩
  swap
  · rw [hrefused]
    exact .refused (h.not_fits_of_lost (fun _ => List.mem_append_left _) hno)
      fun name he => (herr name he).elim
  rw [hdone]
  dsimp only
  rw [on_bind]
  rcases finish.resolve_cases p with ⟨f, hf, hdone⟩ | ⟨hno, err, hrefused, herr⟩
  swap
  · rw [hrefused]
    exact .refused (h.not_fits_of_lost (fun _ => List.mem_append_right _) hno)
      fun name he => (herr name he).elim
  rw [hdone]
  exact h.ends_addLine plain hplain hs hf

theorem declare (h : p.Mirrors ⟨before, []⟩) (plain : ∀ e ∈ before, e.Plain) {d : Declaration}
    (hplain : d.Plain) : d.Ends before (d.apply.on p) := by
  cases d with
  | point label x y => exact h.ends_point hplain
  | line label start finish => exact h.ends_line plain hplain

end Problem.Mirrors

end PlaneSketch
