import PlaneSketch.Proofs.Fixing
import PlaneSketch.Proofs.Handles

namespace PlaneSketch

/-- The handles that are given out for an end, if the arena has this many points so far. -/
def Endpoint.issued (size : Nat) : Endpoint → List PointId
  | fresh _ _ => [⟨size⟩]
  | shared _ => []

namespace Arena

theorem ids_append (a : Arena) (added : List Point) : (Arena.mk (a.points ++ added)).ids =
    a.ids ++ (List.range added.length).map fun i => ⟨a.size + i⟩ := by
  simp [ids, size, List.range_add, Function.comp_def]

end Arena

/-- What there is to see of a primitive is the same after points were added. -/
theorem Primitive.view?_append {q : Primitive} {name : String} {points added : List Point}
    {v : View} (h : q.view? name ⟨points⟩ = some v) :
    q.view? name ⟨points ++ added⟩ = some v := by
  cases q with
  | point id =>
    obtain ⟨point, hg, rfl⟩ := Option.map_eq_some_iff.mp h
    exact Option.map_eq_some_iff.mpr ⟨point, Arena.get?_append hg, rfl⟩
  | line l =>
    obtain ⟨w, hw, rfl⟩ := Option.map_eq_some_iff.mp h
    simp only [Line.view?, Option.bind_eq_bind, Option.bind_eq_some_iff] at hw
    obtain ⟨start, hs, finish, hf, hw⟩ := hw
    cases hw
    simp [Primitive.view?, Line.view?, Arena.get?_append hs, Arena.get?_append hf]

namespace Problem

open Edit

/-- `q` is `p` with a line added. -/
structure LineAdded (p : Problem) (name : String) (start finish : Endpoint) (q : Problem) :
    Prop where
  points : q.points.points =
    p.points.points ++ start.added (startName name) ++ finish.added (finishName name)
  primitives : q.primitives = p.primitives ++ [(name, .line (p.lineBetween name start finish))]
  constraints : q.constraints = p.constraints
  pinned : q.pinned = p.pinned
  found : q.line name = .ok (p.lineBetween name start finish)
  startFound : q.point (startName name) = .ok (p.lineBetween name start finish).start
  finishFound : q.point (finishName name) = .ok (p.lineBetween name start finish).finish
  free : q.free = p.free ++ (start.issued p.points.size ++
    finish.issued (p.points.size + (start.issued p.points.size).length)).flatMap ParamId.both
  others : ∀ n, n ∉ [name, startName name, finishName name] →
    q.lookup n = p.lookup n ∧ q.view n = p.view n

theorem view_of_find?_eq_none {p : Problem} {name : String} (h : p.find? name = none) :
    p.view name = .error (.notFound name) := by
  unfold view
  rw [lookup_eq, h]
  rfl

theorem Sound.view_eq_notFound {p : Problem} (hp : p.Sound) {name : String} :
    p.view name = .error (.notFound name) ↔ p.find? name = none := by
  refine ⟨fun h => ?_, view_of_find?_eq_none⟩
  cases hq : p.find? name with
  | none => rfl
  | some q =>
    obtain ⟨v, hv⟩ := view?_isSome name fun id hid => hp.find?_contains hq hid
    rw [view_eq_ok.mpr ⟨q, hq, hv⟩] at h
    cases h

section

variable {p : Problem} {added : List Point} {name : String} {q : Primitive}

/-- A registration gives no meaning to other names than its own. -/
theorem Unambiguous.find?_grow (hp : p.Unambiguous) (hgrow : (p.grow added name q).Unambiguous)
    (hadded : ∀ {i point}, added[i]? = some point →
      (point.name, .point ⟨p.points.size + i⟩) ∈ namesOf name q)
    {n : String} (hn : n ∉ (namesOf name q).map Prod.fst) :
    (p.grow added name q).find? n = p.find? n := by
  ext r
  constructor
  · intro h
    rcases binds_grow hadded (binds_of_find? h) with hold | hnew
    · exact hp.find?_iff.mpr hold
    · exact (hn (List.mem_map.mpr ⟨_, hnew, rfl⟩)).elim
  · exact (grown_grow p added name q).find? hgrow

theorem Sound.view_grow (hp : p.Sound) {n : String}
    (hn : (p.grow added name q).find? n = p.find? n) : (p.grow added name q).view n = p.view n := by
  cases hr : p.find? n with
  | none => rw [view_of_find?_eq_none hr, view_of_find?_eq_none (hn.trans hr)]
  | some r =>
    obtain ⟨v, hv⟩ := view?_isSome n fun id hid => hp.find?_contains hr hid
    have hv' : r.view? n (p.grow added name q).points = some v := Primitive.view?_append hv
    rw [view_eq_ok.mpr ⟨r, hr, hv⟩, view_eq_ok.mpr ⟨r, hn.trans hr, hv'⟩]

theorem isParamFixed_eq (p : Problem) (r : ParamId) :
    p.isParamFixed r = (p.fixedBy .position r || p.fixedBy .flag r) := rfl

/-- What is not there yet is not fixed. -/
theorem Reachable.isParamFixed_of_lacking (hp : p.Reachable) {r : ParamId}
    (h : p.points.contains r.point = false) : p.isParamFixed r = false := by
  have hpinned : r ∉ p.pinned := fun hr => by
    rw [hp.pinned_holds.contains (List.mem_map_of_mem hr)] at h
    cases h
  simp [isParamFixed, hpinned, Arena.param?_eq_none h]

/-- New points come after the old ones, and are free. -/
theorem Reachable.free_grow (hp : p.Reachable) (hgrow : (p.grow added name q).Sound)
    (hflags : ∀ point ∈ added, ∀ axis, (point.param axis).fixed = false) :
    (p.grow added name q).free = p.free ++
      ((List.range added.length).map fun i => (⟨p.points.size + i⟩ : PointId)).flatMap
        ParamId.both := by
  have hsteady := steady_grow p hflags name q
  have hfixed (r : ParamId) : (p.grow added name q).isParamFixed r = p.isParamFixed r := by
    rw [isParamFixed_eq, isParamFixed_eq, hsteady.fixedBy, hsteady.fixedBy]
  have hids : (p.grow added name q).points.ids = _ := Arena.ids_append p.points added
  rw [hgrow.free_eq, hgrow.computeFree_eq, hids, hp.sound.free_eq, hp.sound.computeFree_eq,
    List.flatMap_append, List.filter_append]
  simp only [hfixed]
  congr 1
  refine List.filter_eq_self.mpr fun r hr => ?_
  obtain ⟨id, hid, hr⟩ := List.mem_flatMap.mp hr
  obtain ⟨i, -, rfl⟩ := List.mem_map.mp hid
  rw [hp.isParamFixed_of_lacking]
  · rfl
  · rw [ParamId.mem_both.mp hr, ← Bool.not_eq_true, Arena.contains_iff]
    exact Nat.not_lt.mpr (Nat.le_add_right _ _)

end

theorem issued_eq (size : Nat) (name : String) (start finish : Endpoint) :
    ((List.range (start.added (startName name) ++ finish.added (finishName name)).length).map
      fun i => (⟨size + i⟩ : PointId)) =
    start.issued size ++ finish.issued (size + (start.issued size).length) := by
  cases start <;> cases finish <;> rfl

theorem Reachable.lineAdded {p : Problem} (hp : p.Reachable) {name : String}
    {start finish : Endpoint} (fits : p.LineFits name start finish) :
    p.LineAdded name start finish (p.growLine name start finish) := by
  have hu := hp.unambiguous.growLine fits
  have hs := hp.sound.growLine fits
  have hline : (p.growLine name start finish).find? name =
      some (.line (p.lineBetween name start finish)) := by
    refine hu.find?_iff.mpr (.registry ?_)
    exact List.mem_append_right _ (List.mem_singleton.mpr rfl)
  obtain ⟨hstart, hfinish⟩ := hu.find?_lineEnds hline
  have hflags : ∀ point ∈ start.added (startName name) ++ finish.added (finishName name),
      ∀ axis, (point.param axis).fixed = false :=
    List.forall_mem_append.mpr ⟨start.added_flag _, finish.added_flag _⟩
  have hfree := hp.free_grow hs hflags
  rw [issued_eq] at hfree
  refine ⟨(List.append_assoc _ _ _).symm, rfl, rfl, rfl, line_eq_ok.mpr hline,
    point_eq_ok.mpr hstart, point_eq_ok.mpr hfinish, hfree, fun n hn => ?_⟩
  have hfind : (p.growLine name start finish).find? n = p.find? n :=
    hp.unambiguous.find?_grow hu (added_mem_namesOf p name start finish) hn
  refine ⟨?_, hp.sound.view_grow hfind⟩
  rw [lookup_eq, lookup_eq, hfind]

/-- In a problem that can be reached, a line is added exactly if its name and those of its ends lead
nowhere yet, its new coordinates are finite, and the points that it shares are there. It then brings
one point for each end at new coordinates, the start first, and both ends are found under their
names, whether new or shared; the coordinates of the new points are free, and are the last that a
solve will vary. Nothing else changes: old points and primitives, old free parameters in their
order, and the meaning of all other names. -/
theorem added_lines_disturb_nothing {p : Problem} (hp : p.Reachable) (name : String)
    (start finish : Endpoint) :
    (((addLine name start finish).on p).1 = .ok () ↔
      (∀ n ∈ [name, startName name, finishName name], p.view n = .error (.notFound n)) ∧
        start.Fits p ∧ finish.Fits p) ∧
    ∀ q, (addLine name start finish).on p = (.ok (), q) → p.LineAdded name start finish q := by
  have hfits : (∀ n ∈ [name, startName name, finishName name], p.view n = .error (.notFound n)) ∧
      start.Fits p ∧ finish.Fits p ↔ p.LineFits name start finish := by
    simp only [hp.sound.view_eq_notFound, List.forall_mem_cons]
    constructor
    · rintro ⟨⟨hn, hs, hf, -⟩, hs', hf'⟩
      exact ⟨hn, hs, hs', hf, hf'⟩
    · rintro ⟨hn, hs, hs', hf, hf'⟩
      exact ⟨⟨hn, hs, hf, nofun⟩, hs', hf'⟩
  rw [hfits]
  rcases (addLine_atomic p name start finish).cases with ⟨h, hdone⟩ | ⟨h, err, hrefused⟩
  · rw [hdone]
    refine ⟨iff_of_true rfl h, fun q hq => ?_⟩
    cases hq
    exact hp.lineAdded h
  · rw [hrefused]
    exact ⟨iff_of_false nofun h, nofun⟩

theorem braced_takes_line : braced.Reachable ∧ braced.free = [⟨⟨1⟩, .x⟩, ⟨⟨1⟩, .y⟩] ∧
    ∃ q, (addLine "l.end.end" (.shared ⟨1⟩) (.fresh 1 2)).on braced = (.ok (), q) ∧
      q.points.points = braced.points.points ++ [⟨"l.end.end.end", ⟨1, false⟩, ⟨2, false⟩⟩] ∧
      q.line "l.end.end" = .ok ⟨⟨1⟩, ⟨2⟩⟩ ∧ q.point "l.end.end.start" = .ok ⟨1⟩ ∧
      q.free = [⟨⟨1⟩, .x⟩, ⟨⟨1⟩, .y⟩, ⟨⟨2⟩, .x⟩, ⟨⟨2⟩, .y⟩] ∧
      q.view "l.end" = braced.view "l.end" := by
  have hr : braced.Reachable := ⟨_, rfl⟩
  have hfree : braced.free = [⟨⟨1⟩, .x⟩, ⟨⟨1⟩, .y⟩] := by decide +kernel
  have hnames : ∀ n ∈ ["l.end.end", startName "l.end.end", finishName "l.end.end"],
      braced.find? n = none := by decide +kernel
  obtain ⟨hiff, hadded⟩ := added_lines_disturb_nothing hr "l.end.end" (.shared ⟨1⟩) (.fresh 1 2)
  have hok := hiff.mpr ⟨fun n hn => view_of_find?_eq_none (hnames n hn),
    (by decide +kernel : braced.points.contains ⟨1⟩ = true),
    (by decide +kernel : Float.isFinite 1 = true ∧ Float.isFinite 2 = true)⟩
  have hline : braced.lineBetween "l.end.end" (.shared ⟨1⟩) (.fresh 1 2) = ⟨⟨1⟩, ⟨2⟩⟩ := by
    decide +kernel
  generalize (addLine "l.end.end" (.shared ⟨1⟩) (.fresh 1 2)).on braced = result at *
  obtain ⟨r, q⟩ := result
  obtain rfl : r = .ok () := hok
  obtain ⟨hpoints, -, -, -, hfound, hstart, -, hfree', hothers⟩ := hadded q rfl
  simp only [Endpoint.added, List.append_nil] at hpoints
  rw [hline] at hfound hstart
  rw [hfree] at hfree'
  exact ⟨hr, hfree, q, rfl, hpoints, hfound, hstart, hfree'.trans (by decide +kernel),
    (hothers "l.end" (by decide)).2⟩

end Problem

end PlaneSketch
