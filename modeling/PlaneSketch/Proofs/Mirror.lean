import PlaneSketch.Proofs.Building
import PlaneSketch.Proofs.Handles
import PlaneSketch.Proofs.Scoping

namespace PlaneSketch

open Problem

namespace Spot

/-- The point that a line makes for its end. -/
def points (name : String) : Spot → List Point
  | coordinates x y => [⟨name, ⟨x, false⟩, ⟨y, false⟩⟩]
  | named _ => []

/-- The handle is that of the end, which has this name if it was made for the line. -/
def LeadsTo (p : Problem) (name : String) (id : PointId) : Spot → Prop
  | coordinates x y => p.points.get? id = some ⟨name, ⟨x, false⟩, ⟨y, false⟩⟩
  | named label => p.find? label = some (.point id)

end Spot

namespace Declaration

/-- The points that are made for the declaration. -/
def points : Declaration → List Point
  | point label x y => [⟨label, ⟨x, false⟩, ⟨y, false⟩⟩]
  | line label start finish =>
    start.points (startName label) ++ finish.points (finishName label)

/-- The primitive is the one that is declared. -/
def Made (p : Problem) : Declaration → String × Primitive → Prop
  | point label x y, entry => ∃ id, entry = (label, .point id) ∧
      p.points.get? id = some ⟨label, ⟨x, false⟩, ⟨y, false⟩⟩
  | line label start finish, entry => ∃ l, entry = (label, .line l) ∧
      start.LeadsTo p (startName label) l.start ∧ finish.LeadsTo p (finishName label) l.finish

end Declaration

namespace Requirement

/-- Fixing is no constraint. -/
def constrains : Requirement → Bool
  | fixed _ => false
  | _ => true

/-- The constraint is the one that is required, on the primitives that the names lead to. -/
def Made (p : Problem) : Requirement → Declared → Prop
  | fixed _, _ => False
  | length name target, d => ∃ l, p.find? name = some (.line l) ∧
      d = ⟨.lineLength l target, [name]⟩
  | angle a b target, d => ∃ l m, p.find? a = some (.line l) ∧ p.find? b = some (.line m) ∧
      d = ⟨.lineAngle l m (Angle.normalize target), [a, b]⟩
  | distance a b target, d => ∃ i j, p.find? a = some (.point i) ∧ p.find? b = some (.point j) ∧
      d = ⟨.pointDistance i j target, [a, b]⟩

end Requirement

/-- The problem holds what the sketch says and nothing else, in the order of the sketch. -/
structure Problem.Mirrors (p : Problem) (s : Sketch) : Prop where
  unambiguous : p.Unambiguous
  sound : p.Sound
  primitives : List.Forall₂ (Declaration.Made p) s.declarations p.primitives
  points : p.points.points = s.declarations.flatMap Declaration.points
  pinned : ∀ r, r ∈ p.pinned ↔ ∃ name q, .fixed name ∈ s.requirements ∧ p.find? name = some q ∧
    r.point ∈ q.handles
  constraints : List.Forall₂ (Requirement.Made p) (s.requirements.filter (·.constrains))
    p.constraints

theorem mirrors_empty : Problem.empty.Mirrors ⟨[], []⟩ where
  unambiguous := unambiguous_empty
  sound := sound_empty
  primitives := .nil
  points := rfl
  pinned r := by simp [Problem.empty]
  constraints := .nil

theorem Spot.name_of_mem_points {spot : Spot} {name : String} {point : Point}
    (h : point ∈ spot.points name) : point.name = name := by
  cases spot with
  | coordinates x y =>
    cases List.mem_singleton.mp h
    rfl
  | named label => cases h

namespace Declaration

/-- The names of points that the declaration gives, and where these points are. -/
def spots : Declaration → List (String × Spot)
  | point label x y => [(label, .coordinates x y)]
  | line label start finish => [(startName label, start), (finishName label, finish)]

theorem mem_pointNames {d : Declaration} {name : String} :
    name ∈ d.pointNames ↔ ∃ spot, (name, spot) ∈ d.spots := by
  cases d <;> simp [pointNames, spots, exists_or]

theorem mem_points {d : Declaration} {point : Point} :
    point ∈ d.points ↔ ∃ name spot, (name, spot) ∈ d.spots ∧ point ∈ spot.points name := by
  cases d with
  | point label x y => simp [points, spots, Spot.points]
  | line label start finish => simp [points, spots, or_and_right, exists_or, and_assoc]

theorem name_of_mem_points {d : Declaration} {point : Point} (h : point ∈ d.points) :
    point.name ∈ d.pointNames := by
  obtain ⟨name, spot, hspot, hpoint⟩ := mem_points.mp h
  exact mem_pointNames.mpr ⟨spot, Spot.name_of_mem_points hpoint ▸ hspot⟩

end Declaration

namespace Problem.Mirrors

variable {p : Problem} {s : Sketch}

theorem declared_point (h : p.Mirrors s) {name : String} {id : PointId}
    (hm : (name, .point id) ∈ p.primitives) : ∃ x y, .point name x y ∈ s.declarations := by
  obtain ⟨d, hd, hmade⟩ := exists_mem_of_forall₂ h.primitives hm
  cases d with
  | point label x y =>
    obtain ⟨_, he, -⟩ := hmade
    cases he
    exact ⟨x, y, hd⟩
  | line label start finish =>
    obtain ⟨_, he, -⟩ := hmade
    cases he

theorem declared_line (h : p.Mirrors s) {name : String} {l : Line}
    (hm : (name, .line l) ∈ p.primitives) : NamesLine s.declarations name := by
  obtain ⟨d, hd, hmade⟩ := exists_mem_of_forall₂ h.primitives hm
  cases d with
  | point label x y =>
    obtain ⟨_, he, -⟩ := hmade
    cases he
  | line label start finish =>
    obtain ⟨_, he, -⟩ := hmade
    cases he
    exact ⟨start, finish, hd⟩

theorem find?_point (h : p.Mirrors s) {name : String} {x y : Float}
    (hd : .point name x y ∈ s.declarations) : ∃ id, p.find? name = some (.point id) ∧
      p.points.get? id = some ⟨name, ⟨x, false⟩, ⟨y, false⟩⟩ := by
  obtain ⟨entry, hm, id, rfl, hget⟩ := exists_mem_of_forall₂ h.primitives.flip hd
  exact ⟨id, h.unambiguous.find?_iff.mpr (.registry hm), hget⟩

theorem find?_line (h : p.Mirrors s) {name : String} {start finish : Spot}
    (hd : .line name start finish ∈ s.declarations) : ∃ l, p.find? name = some (.line l) ∧
      start.LeadsTo p (startName name) l.start ∧ finish.LeadsTo p (finishName name) l.finish := by
  obtain ⟨entry, hm, l, rfl, hends⟩ := exists_mem_of_forall₂ h.primitives.flip hd
  exact ⟨l, h.unambiguous.find?_iff.mpr (.registry hm), hends⟩

theorem leadsTo (h : p.Mirrors s) {d : Declaration} (hd : d ∈ s.declarations) {name : String}
    {spot : Spot} (hspot : (name, spot) ∈ d.spots) :
    ∃ id, p.find? name = some (.point id) ∧ spot.LeadsTo p name id := by
  cases d with
  | point label x y =>
    cases List.mem_singleton.mp hspot
    exact h.find?_point hd
  | line label start finish =>
    obtain ⟨l, hl, hstart, hfinish⟩ := h.find?_line hd
    obtain ⟨hs, hf⟩ := h.unambiguous.find?_lineEnds hl
    simp only [Declaration.spots, List.mem_cons, Prod.mk.injEq, List.not_mem_nil,
      or_false] at hspot
    rcases hspot with ⟨rfl, rfl⟩ | ⟨rfl, rfl⟩
    · exact ⟨l.start, hs, hstart⟩
    · exact ⟨l.finish, hf, hfinish⟩

/-- A name is that of a point exactly if a declaration gives it to one. -/
theorem find?_point_iff (h : p.Mirrors s) {name : String} :
    (∃ id, p.find? name = some (.point id)) ↔ NamesPoint s.declarations name := by
  constructor
  · rintro ⟨id, hid⟩
    cases h.unambiguous.find?_iff.mp hid with
    | registry hm =>
      obtain ⟨x, y, hd⟩ := h.declared_point hm
      exact ⟨_, hd, List.mem_cons_self⟩
    | arena hn =>
      obtain ⟨point, hget, rfl⟩ := Option.map_eq_some_iff.mp hn
      have hmem := List.mem_of_getElem? hget
      rw [h.points] at hmem
      obtain ⟨d, hd, hpoint⟩ := List.mem_flatMap.mp hmem
      exact ⟨d, hd, Declaration.name_of_mem_points hpoint⟩
    | lineEnd hm he =>
      obtain ⟨start, finish, hd⟩ := h.declared_line hm
      have hnames := endOf?_eq_some.mp he
      simp only [namesOf, List.mem_cons, Prod.mk.injEq, reduceCtorEq, and_false, List.not_mem_nil,
        or_false, false_or] at hnames
      refine ⟨_, hd, Declaration.mem_pointNames_line.mpr ?_⟩
      exact hnames.imp And.left And.left
  · rintro ⟨d, hd, hname⟩
    obtain ⟨spot, hspot⟩ := Declaration.mem_pointNames.mp hname
    obtain ⟨id, hid, -⟩ := h.leadsTo hd hspot
    exact ⟨id, hid⟩

theorem find?_line_iff (h : p.Mirrors s) {name : String} :
    (∃ l, p.find? name = some (.line l)) ↔ NamesLine s.declarations name := by
  constructor
  · rintro ⟨l, hl⟩
    cases h.unambiguous.find?_iff.mp hl with
    | registry hm => exact h.declared_line hm
  · rintro ⟨start, finish, hd⟩
    obtain ⟨l, hl, -⟩ := h.find?_line hd
    exact ⟨l, hl⟩

theorem find?_eq_none_iff (h : p.Mirrors s) {name : String} :
    p.find? name = none ↔ ¬ NamesPoint s.declarations name ∧ ¬ NamesLine s.declarations name := by
  rw [← h.find?_point_iff, ← h.find?_line_iff]
  rcases p.find? name with _ | (id | l) <;> simp

end Problem.Mirrors

end PlaneSketch
