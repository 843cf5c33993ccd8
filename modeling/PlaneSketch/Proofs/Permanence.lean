import PlaneSketch.Proofs.Generation
import PlaneSketch.Proofs.Naming

namespace PlaneSketch

/-- Looked up as a line or as a point, the names that the constraint was declared with lead to what
it speaks of. -/
def Declared.Refers (d : Declared) (p : Problem) : Prop :=
  match d.constraint with
  | .lineLength l _ => ∃ a, d.names = [a] ∧ p.line a = .ok l
  | .lineAngle l m _ => ∃ a b, d.names = [a, b] ∧ p.line a = .ok l ∧ p.line b = .ok m
  | .pointDistance i j _ => ∃ a b, d.names = [a, b] ∧ p.point a = .ok i ∧ p.point b = .ok j

namespace Problem

/-- Whatever there is in `p` is in `q`, at its place and under its name. -/
structure Grown (p q : Problem) : Prop where
  names : p.points.points.map Point.name <+: q.points.points.map Point.name
  primitives : p.primitives <+: q.primitives
  constraints : p.constraints <+: q.constraints

theorem Grown.refl (p : Problem) : Grown p p :=
  ⟨List.prefix_refl _, List.prefix_refl _, List.prefix_refl _⟩

theorem Grown.trans {p q r : Problem} (h : Grown p q) (h' : Grown q r) : Grown p r :=
  ⟨h.names.trans h'.names, h.primitives.trans h'.primitives, h.constraints.trans h'.constraints⟩

theorem grown_grow (p : Problem) (added : List Point) (name : String) (q : Primitive) :
    Grown p (p.grow added name q) := by
  refine ⟨?_, List.prefix_append _ _, List.prefix_refl _⟩
  change _ <+: (p.points.points ++ added).map Point.name
  rw [List.map_append]
  exact List.prefix_append _ _

theorem Step.grown {p q : Problem} (h : Step p q) : Grown p q := by
  cases h with
  | stay => exact .refl p
  | count => exact ⟨List.prefix_refl _, List.prefix_refl _, List.prefix_refl _⟩
  | declare c names named admissible =>
    exact ⟨List.prefix_refl _, List.prefix_refl _, List.prefix_append _ _⟩
  | point name x y free hx hy => exact grown_grow p _ name _
  | line name start finish fits => exact grown_grow p _ name _
  | repin pinned named => exact ⟨List.prefix_refl _, List.prefix_refl _, List.prefix_refl _⟩
  | rewrite a rewritten =>
    exact ⟨rewritten.names ▸ List.prefix_refl _, List.prefix_refl _, List.prefix_refl _⟩

theorem Steps.grown {p q : Problem} (h : Steps p q) : Grown p q :=
  Steps.invariant (fun step hg => hg.trans step.grown) h (.refl p)

theorem Grown.nameOf? {p q : Problem} (h : Grown p q) {id : PointId} {name : String}
    (hn : p.points.nameOf? id = some name) : q.points.nameOf? id = some name := by
  rw [Arena.nameOf?_eq_getElem?] at hn ⊢
  obtain ⟨rest, hrest⟩ := h.names
  rw [← hrest, List.getElem?_append_left (List.getElem?_eq_some_iff.mp hn).1]
  exact hn

theorem Grown.binds {p q : Problem} (h : Grown p q) {name : String} {r : Primitive}
    (hb : p.Binds name r) : q.Binds name r := by
  cases hb with
  | registry hm => exact .registry (h.primitives.subset hm)
  | arena hn => exact .arena (h.nameOf? hn)
  | lineEnd hl he => exact .lineEnd (h.primitives.subset hl) he

theorem Grown.find? {p q : Problem} (h : Grown p q) (hq : q.Unambiguous) {name : String}
    {r : Primitive} (hr : p.find? name = some r) : q.find? name = some r :=
  hq.find?_iff.mpr (h.binds (binds_of_find? hr))

theorem view_eq_ok {p : Problem} {name : String} {v : View} :
    p.view name = .ok v ↔ ∃ r, p.find? name = some r ∧ r.view? name p.points = some v := by
  unfold view
  rw [lookup_eq]
  cases p.find? name with
  | none => simp [bind, Except.bind]
  | some r =>
    cases h : r.view? name p.points <;>
      simp [h, bind, Except.bind, pure, Except.pure, throw, throwThe, MonadExceptOf.throw]

theorem view?_isSome {r : Primitive} {a : Arena} (name : String)
    (h : ∀ id ∈ r.handles, a.contains id = true) : ∃ v, r.view? name a = some v := by
  have hget : ∀ id ∈ r.handles, ∃ point, a.get? id = some point := fun id hid =>
    Option.isSome_iff_exists.mp (Arena.get?_isSome.trans (h id hid))
  cases r with
  | point id =>
    obtain ⟨point, hp⟩ := hget id (by simp [Primitive.handles])
    exact ⟨.point id point, by simp [Primitive.view?, hp]⟩
  | line l =>
    obtain ⟨start, hs⟩ := hget l.start (by simp [Primitive.handles, Line.handles])
    obtain ⟨finish, hf⟩ := hget l.finish (by simp [Primitive.handles, Line.handles])
    exact ⟨.line ⟨name, l, start, finish⟩, by simp [Primitive.view?, Line.view?, hs, hf]⟩

/-- A view is one of the primitive that was looked up. A line goes by the name it was looked up
under, and a point by the one it has in the arena. -/
theorem view?_eq_some {r : Primitive} {name : String} {a : Arena} {v : View}
    (h : r.view? name a = some v) : v.primitive = r ∧
      some v.name = match r with
        | .point id => a.nameOf? id
        | .line _ => some name := by
  cases r with
  | point id =>
    obtain ⟨point, hg, rfl⟩ := Option.map_eq_some_iff.mp h
    refine ⟨rfl, ?_⟩
    simp [View.name, Arena.nameOf?, hg]
  | line l =>
    obtain ⟨w, hw, rfl⟩ := Option.map_eq_some_iff.mp h
    simp only [Line.view?, Option.bind_eq_bind, Option.bind_eq_some_iff] at hw
    obtain ⟨start, -, finish, -, hw⟩ := hw
    cases hw
    exact ⟨rfl, rfl⟩

theorem Grown.view {p q : Problem} (h : Grown p q) (hq : q.Unambiguous) (hs : q.Sound)
    {name : String} {v : View} (hv : p.view name = .ok v) :
    ∃ w, q.view name = .ok w ∧ w.primitive = v.primitive ∧ w.name = v.name := by
  obtain ⟨r, hr, hv⟩ := view_eq_ok.mp hv
  have hr' := h.find? hq hr
  obtain ⟨w, hw⟩ := view?_isSome name fun id hid => hs.find?_contains hr' hid
  obtain ⟨hprimitive, hname⟩ := view?_eq_some hv
  obtain ⟨hprimitive', hname'⟩ := view?_eq_some hw
  refine ⟨w, view_eq_ok.mpr ⟨r, hr', hw⟩, hprimitive'.trans hprimitive.symm, ?_⟩
  apply Option.some.inj
  cases r with
  | point id => exact hname'.trans (h.nameOf? hname.symm)
  | line l => exact hname'.trans hname.symm

/-- The names of every constraint resolve to the primitives that it speaks of, one by one. -/
def Referring (p : Problem) : Prop :=
  ∀ d ∈ p.constraints, d.names.map p.find? = d.constraint.primitives.map some

theorem map_find?_mono {p q : Problem}
    (h : ∀ {name r}, p.find? name = some r → q.find? name = some r) {names : List String}
    {primitives : List Primitive} (hn : names.map p.find? = primitives.map some) :
    names.map q.find? = primitives.map some := by
  rw [← hn]
  refine List.map_congr_left fun name hname => ?_
  obtain ⟨r, -, hr⟩ := List.mem_map.mp (hn ▸ List.mem_map_of_mem hname)
  rw [← hr]
  exact h hr.symm

/-- A constraint is declared with names that resolve at the time, and otherwise an old one. -/
theorem Step.constraints {p q : Problem} (h : Step p q) {d : Declared} (hd : d ∈ q.constraints) :
    d ∈ p.constraints ∨ d.names.map p.find? = d.constraint.primitives.map some := by
  cases h with
  | declare c names named admissible =>
    rcases List.mem_append.mp hd with hd | hd
    · exact .inl hd
    · cases List.mem_singleton.mp hd
      exact .inr named
  | _ => exact .inl hd

theorem Step.referring {p q : Problem} (h : Step p q) (hp : p.Unambiguous) (hr : p.Referring) :
    q.Referring := by
  intro d hd
  refine map_find?_mono (h.grown.find? (h.unambiguous hp)) ?_
  rcases h.constraints hd with hold | hnew
  · exact hr d hold
  · exact hnew

theorem Reachable.referring {p : Problem} (h : p.Reachable) : p.Referring := by
  have hboth : p.Unambiguous ∧ p.Referring :=
    h.invariant (fun p => p.Unambiguous ∧ p.Referring)
      ⟨unambiguous_empty, fun d hd => nomatch hd⟩
      fun step hp => ⟨step.unambiguous hp.1, step.referring hp.1 hp.2⟩
  exact hboth.2

theorem map_find?_eq_pair {p : Problem} {names : List String} {r s : Primitive}
    (h : names.map p.find? = [some r, some s]) :
    ∃ a b, names = [a, b] ∧ p.find? a = some r ∧ p.find? b = some s := by
  obtain ⟨a, rest, rfl, ha, hrest⟩ := List.map_eq_cons_iff.mp h
  obtain ⟨b, rfl, hb⟩ := List.map_eq_singleton_iff.mp hrest
  exact ⟨a, b, rfl, ha, hb⟩

theorem Referring.refers {p : Problem} (h : p.Referring) {d : Declared} (hd : d ∈ p.constraints) :
    d.Refers p := by
  have hn := h d hd
  obtain ⟨c, names⟩ := d
  cases c with
  | lineLength l length =>
    obtain ⟨a, ha, hl⟩ := List.map_eq_singleton_iff.mp hn
    exact ⟨a, ha, line_eq_ok.mpr hl⟩
  | lineAngle l m degrees =>
    obtain ⟨a, b, hab, hl, hm⟩ := map_find?_eq_pair hn
    exact ⟨a, b, hab, line_eq_ok.mpr hl, line_eq_ok.mpr hm⟩
  | pointDistance i j distance =>
    obtain ⟨a, b, hab, hi, hj⟩ := map_find?_eq_pair hn
    exact ⟨a, b, hab, point_eq_ok.mpr hi, point_eq_ok.mpr hj⟩

/-- What a name resolves to at some point of a history, it resolves to at all later ones, and a
handle keeps denoting the point of the same name. Constraints stay as they were declared, and at
every point of the history their names lead to what they speak of. -/
theorem names_are_permanent (ops : List Operation) {i j : Nat} (h : i ≤ j) :
    (∀ name v, (stateAt ops i).view name = .ok v →
      ∃ w, (stateAt ops j).view name = .ok w ∧ w.primitive = v.primitive ∧ w.name = v.name) ∧
    (∀ id name, (stateAt ops i).points.nameOf? id = some name →
      (stateAt ops j).points.nameOf? id = some name) ∧
    (stateAt ops i).constraints <+: (stateAt ops j).constraints ∧
    ∀ d ∈ (stateAt ops j).constraints, d.Refers (stateAt ops j) := by
  have hg := Steps.grown (steps_stateAt ops h)
  have hr : (stateAt ops j).Reachable := ⟨ops.take j, rfl⟩
  exact ⟨fun name v hv => hg.view hr.unambiguous hr.sound hv, fun id name hn => hg.nameOf? hn,
    hg.constraints, fun d hd => hr.referring.refers hd⟩

/-- A history of a point with two names. The second one is refused to another point and to a line,
and the point moves in a solve that succeeds after one that does not. -/
def aliased : List Operation := [
  .addPoint "p" 0 0,
  .addLine "l.start" (.shared ⟨0⟩) (.fresh 3 0),
  .constrainDistance "l.start.start" "p" 2,
  .addPoint "l.start.start" 9 9,
  .addLine "l" (.shared ⟨1⟩) (.fresh 1 1),
  .solveWith (fun _ _ => .done (.error (.notFound "p"))) {},
  .solveWith (fun start _ => .done (.ok ⟨start.map (· + 1), true, 1, 1, 0⟩)) {}]

theorem aliased_names_are_permanent :
    (stateAt aliased 2).view "l.start.start" = .ok (.point ⟨0⟩ ⟨"p", ⟨0, false⟩, ⟨0, false⟩⟩) ∧
    (∃ w, (stateAt aliased 7).view "l.start.start" = .ok w ∧
      w.primitive = .point ⟨0⟩ ∧ w.name = "p") ∧
    (stateAt aliased 7).points.param? ⟨⟨0⟩, .x⟩ = some ⟨1, false⟩ ∧
    (stateAt aliased 3).constraints = [⟨.pointDistance ⟨0⟩ ⟨0⟩ 2, ["l.start.start", "p"]⟩] ∧
    (stateAt aliased 7).point "l.start.start" = .ok ⟨0⟩ := by
  obtain ⟨hview, -, -, -⟩ := names_are_permanent aliased (Nat.le_add_left 2 5)
  obtain ⟨-, -, hprefix, hrefers⟩ := names_are_permanent aliased (Nat.le_add_left 3 4)
  have hv : (stateAt aliased 2).view "l.start.start" =
      .ok (.point ⟨0⟩ ⟨"p", ⟨0, false⟩, ⟨0, false⟩⟩) := by
    have hg : (stateAt aliased 2).points.get? ⟨0⟩ = some ⟨"p", ⟨0, false⟩, ⟨0, false⟩⟩ := by
      decide +kernel
    exact view_eq_ok.mpr ⟨.point ⟨0⟩, by decide +kernel, by simp [Primitive.view?, hg]⟩
  have hc : (stateAt aliased 3).constraints =
      [⟨.pointDistance ⟨0⟩ ⟨0⟩ 2, ["l.start.start", "p"]⟩] := by decide +kernel
  have hd : _ ∈ (stateAt aliased 7).constraints := hprefix.subset (hc ▸ List.mem_cons_self)
  obtain ⟨a, b, hab, hi, -⟩ := hrefers _ hd
  cases hab
  exact ⟨hv, hview _ _ hv, by decide +kernel, hc, hi⟩

end Problem

end PlaneSketch
