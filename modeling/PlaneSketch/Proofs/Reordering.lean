import PlaneSketch.Proofs.BuiltSketch
import PlaneSketch.Proofs.FreeParameters

namespace PlaneSketch

open Problem

section Congruence

variable {ds es : List Declaration}

theorem namesPoint_congr (h : ∀ d, d ∈ ds ↔ d ∈ es) (name : String) :
    NamesPoint ds name ↔ NamesPoint es name := by
  simp only [NamesPoint, h]

theorem namesLine_congr (h : ∀ d, d ∈ ds ↔ d ∈ es) (name : String) :
    NamesLine ds name ↔ NamesLine es name := by
  simp only [NamesLine, h]

theorem Requirement.fits_congr (h : ∀ d, d ∈ ds ↔ d ∈ es) (r : Requirement) :
    r.Fits ds ↔ r.Fits es := by
  cases r <;> simp only [Requirement.Fits, namesPoint_congr h, namesLine_congr h]

theorem Declaration.fits_congr (h : ∀ d, d ∈ ds ↔ d ∈ es) (d : Declaration) :
    d.Fits ds ↔ d.Fits es := by
  have hlabels : d.label ∈ ds.map label ↔ d.label ∈ es.map label := by
    simp only [List.mem_map, h]
  constructor
  · rintro ⟨hfresh, hfinite, hends⟩
    exact ⟨mt hlabels.mpr hfresh, hfinite, fun n hn => (namesPoint_congr h n).mp (hends n hn)⟩
  · rintro ⟨hfresh, hfinite, hends⟩
    exact ⟨mt hlabels.mp hfresh, hfinite, fun n hn => (namesPoint_congr h n).mpr (hends n hn)⟩

theorem fitting_congr (h : ∀ d, d ∈ ds ↔ d ∈ es) (rest : List Declaration) :
    Fitting ds rest ↔ Fitting es rest := by
  unfold Fitting
  refine forall₃_congr fun pre d post => imp_congr_right fun _ => Declaration.fits_congr ?_ d
  simp [h]

end Congruence

theorem fitting_append {before ds rest : List Declaration} :
    Fitting before (ds ++ rest) ↔ Fitting before ds ∧ Fitting (before ++ ds) rest := by
  induction ds generalizing before with
  | nil => simp [fitting_nil]
  | cons d ds ih => simp [fitting_cons, ih, and_assoc]

/-- The declaration gives none of its ends a name that the other one brings. -/
def Declaration.Avoids (d e : Declaration) : Prop :=
  ∀ name ∈ d.endNames, name ≠ e.label ∧ name ≠ startName e.label ∧ name ≠ finishName e.label

theorem Declaration.Avoids.not_mem {d e : Declaration} (h : d.Avoids e) {name : String}
    (hname : name ∈ d.endNames) : name ∉ e.pointNames := by
  obtain ⟨hlabel, hstart, hfinish⟩ := h name hname
  cases e with
  | point other x y => exact fun hmem => hlabel (mem_pointNames_point.mp hmem)
  | line other start finish =>
    rw [mem_pointNames_line, not_or]
    exact ⟨hstart, hfinish⟩

theorem Declaration.Avoids.fits_iff {d e : Declaration} (h : d.Avoids e)
    {before : List Declaration} :
    d.Fits (before ++ [e]) ↔ d.Fits before ∧ d.label ≠ e.label := by
  have hends : (∀ name ∈ d.endNames, NamesPoint (before ++ [e]) name) ↔
      ∀ name ∈ d.endNames, NamesPoint before name := by
    refine forall₂_congr fun name hname => ?_
    simp [NamesPoint, h.not_mem hname, or_and_right, exists_or]
  constructor
  · rintro ⟨hfresh, hfinite, hnames⟩
    simp only [List.map_append, List.map_cons, List.map_nil, List.mem_append, List.mem_singleton,
      not_or] at hfresh
    exact ⟨⟨hfresh.1, hfinite, hends.mp hnames⟩, hfresh.2⟩
  · rintro ⟨⟨hfresh, hfinite, hnames⟩, hlabel⟩
    refine ⟨?_, hfinite, hends.mpr hnames⟩
    simpa [hlabel] using hfresh

theorem fitting_swap {d e : Declaration} (hde : d.Avoids e) (hed : e.Avoids d)
    {before after : List Declaration} :
    Fitting [] (before ++ d :: e :: after) ↔ Fitting [] (before ++ e :: d :: after) := by
  have hmem : ∀ f, f ∈ before ++ [d] ++ [e] ↔ f ∈ before ++ [e] ++ [d] := by
    intro f
    simp [or_comm]
  simp only [fitting_append, fitting_cons, List.nil_append, hde.fits_iff, hed.fits_iff,
    fitting_congr hmem, ne_comm (a := d.label)]
  grind

theorem Sketch.wellFormed_swap {d e : Declaration} (hde : d.Avoids e) (hed : e.Avoids d)
    {before after : List Declaration} {rs : List Requirement} :
    (Sketch.mk (before ++ d :: e :: after) rs).WellFormed ↔
      (Sketch.mk (before ++ e :: d :: after) rs).WellFormed := by
  have hmem : ∀ f, f ∈ before ++ d :: e :: after ↔ f ∈ before ++ e :: d :: after := by
    intro f
    simp [or_left_comm]
  simp only [wellFormed_iff, fitting_swap hde hed, Requirement.fits_congr hmem]

namespace Declaration

theorem mem_endNames_of_mem_spots {d : Declaration} {name other : String}
    (h : (name, .named other) ∈ d.spots) : other ∈ d.endNames := by
  cases d with
  | point label x y => simp [spots] at h
  | line label start finish =>
    simp only [spots, List.mem_cons, Prod.mk.injEq, List.not_mem_nil, or_false] at h
    rcases h with ⟨-, rfl⟩ | ⟨-, rfl⟩ <;> simp [endNames, Spot.names]

end Declaration

/-- Followed from end to end, the name leads to the point that was made under the other name. -/
inductive Anchored (ds : List Declaration) : String → String → Prop where
  | made {d : Declaration} {name : String} {x y : Float} : d ∈ ds →
    (name, .coordinates x y) ∈ d.spots → Anchored ds name name
  | shared {d : Declaration} {name other anchor : String} : d ∈ ds →
    (name, .named other) ∈ d.spots → Anchored ds other anchor → Anchored ds name anchor

theorem Anchored.mono {ds es : List Declaration} {name anchor : String}
    (h : Anchored ds name anchor) (hsub : ∀ d ∈ ds, d ∈ es) : Anchored es name anchor := by
  induction h with
  | made hd hspot => exact .made (hsub _ hd) hspot
  | shared hd hspot _ ih => exact .shared (hsub _ hd) hspot ih

/-- Where the ends of lines are points declared before, no chain of ends goes on for ever. -/
theorem exists_anchored {ds : List Declaration}
    (hends : ∀ before d after, ds = before ++ d :: after → ∀ name ∈ d.endNames,
      NamesPoint before name) {name : String} (h : NamesPoint ds name) :
    ∃ anchor, Anchored ds name anchor := by
  induction ds using List.reverseRecOn generalizing name with
  | nil =>
    obtain ⟨d, hd, -⟩ := h
    cases hd
  | append_singleton ds d ih =>
    have hold {n : String} (hn : NamesPoint ds n) : ∃ anchor, Anchored (ds ++ [d]) n anchor := by
      obtain ⟨anchor, ha⟩ := ih
        (fun before e after he => hends before e (after ++ [d]) (by simp [he])) hn
      exact ⟨anchor, ha.mono fun e he => List.mem_append_left _ he⟩
    obtain ⟨e, he, hname⟩ := h
    rcases List.mem_append.mp he with he | he
    · exact hold ⟨e, he, hname⟩
    · obtain rfl := List.mem_singleton.mp he
      obtain ⟨spot, hspot⟩ := Declaration.mem_pointNames.mp hname
      have hlast : e ∈ ds ++ [e] := by simp
      cases spot with
      | coordinates x y => exact ⟨_, .made hlast hspot⟩
      | named other =>
        obtain ⟨anchor, ha⟩ := hold (hends ds e [] rfl other (e.mem_endNames_of_mem_spots hspot))
        exact ⟨anchor, .shared hlast hspot ha⟩

namespace Problem.Mirrors

variable {p : Problem} {s : Sketch}

theorem anchored (h : p.Mirrors s) {name anchor : String}
    (ha : Anchored s.declarations name anchor) :
    ∃ id, p.find? name = some (.point id) ∧ p.points.nameOf? id = some anchor := by
  induction ha with
  | made hd hspot =>
    obtain ⟨id, hfind, hget⟩ := h.leadsTo hd hspot
    exact ⟨id, hfind, Option.map_eq_some_iff.mpr ⟨_, hget, rfl⟩⟩
  | shared hd hspot _ ih =>
    obtain ⟨id, hfind, hother⟩ := h.leadsTo hd hspot
    obtain ⟨i, hi, hname⟩ := ih
    cases hother.symm.trans hi
    exact ⟨id, hfind, hname⟩

end Problem.Mirrors

/-- The kind of a primitive and the points that it has, whatever their handles. -/
def View.look : View → String × List Point
  | .point _ p => ("point", [p])
  | .line l => ("line", [l.start, l.finish])

/-- Each over its own arena, the constraints ask for and measure the same. -/
structure Constraint.Alike (a b : Arena) (c d : Constraint) : Prop where
  kind : c.kind = d.kind
  target : c.target = d.target
  value : c.value? a = d.value? b
  error : c.error? a = d.error? b

theorem Constraint.deviation_congr {c d : Constraint} (hkind : c.kind = d.kind)
    (htarget : c.target = d.target) : c.deviation = d.deviation := by
  cases c <;> cases d <;> simp only [kind, target, String.reduceEq] at hkind htarget <;>
    cases htarget <;> rfl

theorem Constraint.Alike.of_value {a b : Arena} {c d : Constraint} (hkind : c.kind = d.kind)
    (htarget : c.target = d.target) (hvalue : c.value? a = d.value? b) : c.Alike a b d := by
  refine ⟨hkind, htarget, hvalue, ?_⟩
  unfold error?
  rw [hvalue, deviation_congr hkind htarget]

/-- The two points have one name. -/
def SamePoint (p q : Problem) (i j : PointId) : Prop :=
  ∃ anchor, p.points.nameOf? i = some anchor ∧ q.points.nameOf? j = some anchor

def SamePrimitive (p q : Problem) : Primitive → Primitive → Prop
  | .point i, .point j => SamePoint p q i j
  | .line l, .line m => SamePoint p q l.start m.start ∧ SamePoint p q l.finish m.finish
  | _, _ => False

theorem map_look_view (p : Problem) (name : String) : (p.view name).map View.look =
    (p.find? name).elim (.error (.notFound name)) fun r =>
      ((r.view? name p.points).map View.look).elim (.error (.notFound name)) .ok := by
  unfold Problem.view
  rw [lookup_eq]
  cases p.find? name with
  | none => rfl
  | some r => cases h : r.view? name p.points <;> simp [h, bind, Except.bind] <;> rfl

/-- Where two lists go with the same third one, they go with each other. -/
theorem forall₂_join {α β γ : Type} {r : α → β → Prop} {r' : α → γ → Prop} {r'' : β → γ → Prop}
    {l : List α} {m : List β} {n : List γ} (h : List.Forall₂ r l m) (h' : List.Forall₂ r' l n)
    (hjoin : ∀ {a b c}, r a b → r' a c → r'' b c) : List.Forall₂ r'' m n := by
  induction h generalizing n with
  | nil =>
    cases h'
    exact .nil
  | cons hab _ ih =>
    cases h' with
    | cons hac hrest => exact .cons (hjoin hab hac) (ih hrest)

/-- The problems mirror the same declarations, each in an order of its own, and the same
requirements. -/
structure Twins (s t : Sketch) (p q : Problem) : Prop where
  left : p.Mirrors s
  right : q.Mirrors t
  wellFormed : s.WellFormed
  wellFormed' : t.WellFormed
  declarations : ∀ d, d ∈ s.declarations ↔ d ∈ t.declarations
  requirements : s.requirements = t.requirements

theorem SamePoint.symm {p q : Problem} {i j : PointId} (h : SamePoint p q i j) :
    SamePoint q p j i := by
  obtain ⟨anchor, hi, hj⟩ := h
  exact ⟨anchor, hj, hi⟩

theorem SamePrimitive.symm {p q : Problem} {a b : Primitive} (h : SamePrimitive p q a b) :
    SamePrimitive q p b a := by
  cases a <;> cases b
  · exact SamePoint.symm h
  · exact h
  · exact h
  · exact ⟨h.1.symm, h.2.symm⟩

theorem SamePoint.unique {p q : Problem} (hq : q.Unambiguous) {i j k : PointId}
    (h : SamePoint p q i j) (h' : SamePoint p q i k) : j = k := by
  obtain ⟨anchor, hi, hj⟩ := h
  obtain ⟨anchor', hi', hk⟩ := h'
  cases hi.symm.trans hi'
  cases hq.agree (.arena hj) (.arena hk)
  rfl

theorem SamePrimitive.handles {p q : Problem} {a b : Primitive} (h : SamePrimitive p q a b)
    {i : PointId} (hi : i ∈ a.handles) : ∃ j ∈ b.handles, SamePoint p q i j := by
  cases a with
  | point k =>
    cases b with
    | point j =>
      cases List.mem_singleton.mp hi
      exact ⟨j, List.mem_cons_self, h⟩
    | line m => cases h
  | line l =>
    cases b with
    | point j => cases h
    | line m =>
      simp only [Primitive.handles, Line.handles, List.mem_cons, List.not_mem_nil, or_false] at hi ⊢
      rcases hi with rfl | rfl
      · exact ⟨m.start, .inl rfl, h.1⟩
      · exact ⟨m.finish, .inr rfl, h.2⟩

namespace Twins

variable {s t : Sketch} {p q : Problem}

theorem symm (h : Twins s t p q) : Twins t s q p :=
  ⟨h.right, h.left, h.wellFormed', h.wellFormed, fun d => (h.declarations d).symm,
    h.requirements.symm⟩

theorem find?_point (h : Twins s t p q) {name : String} {i : PointId}
    (hi : p.find? name = some (.point i)) :
    ∃ j, q.find? name = some (.point j) ∧ SamePoint p q i j := by
  obtain ⟨anchor, ha⟩ := exists_anchored h.wellFormed.ends (h.left.find?_point_iff.mp ⟨i, hi⟩)
  obtain ⟨i', hi', hname⟩ := h.left.anchored ha
  obtain ⟨j, hj, hname'⟩ := h.right.anchored (ha.mono fun d => (h.declarations d).mp)
  cases hi.symm.trans hi'
  exact ⟨j, hj, anchor, hname, hname'⟩

theorem find?_line (h : Twins s t p q) {name : String} {l : Line}
    (hl : p.find? name = some (.line l)) :
    ∃ m, q.find? name = some (.line m) ∧ SamePrimitive p q (.line l) (.line m) := by
  have hname := h.left.find?_line_iff.mp ⟨l, hl⟩
  obtain ⟨m, hm⟩ := h.right.find?_line_iff.mpr ((namesLine_congr h.declarations name).mp hname)
  obtain ⟨hs, hf⟩ := h.left.unambiguous.find?_lineEnds hl
  obtain ⟨hs', hf'⟩ := h.right.unambiguous.find?_lineEnds hm
  obtain ⟨i, hi, hsame⟩ := h.find?_point hs
  obtain ⟨j, hj, hsame'⟩ := h.find?_point hf
  cases hs'.symm.trans hi
  cases hf'.symm.trans hj
  exact ⟨m, hm, hsame, hsame'⟩

/-- Every name leads to the same primitive in both problems. -/
theorem find? (h : Twins s t p q) {name : String} {a : Primitive} (ha : p.find? name = some a) :
    ∃ b, q.find? name = some b ∧ SamePrimitive p q a b := by
  cases a with
  | point i =>
    obtain ⟨j, hj, hsame⟩ := h.find?_point ha
    exact ⟨.point j, hj, hsame⟩
  | line l =>
    obtain ⟨m, hm, hsame⟩ := h.find?_line ha
    exact ⟨.line m, hm, hsame⟩

theorem find?_eq_none (h : Twins s t p q) {name : String} (hn : p.find? name = none) :
    q.find? name = none := by
  rw [h.left.find?_eq_none_iff] at hn
  rw [h.right.find?_eq_none_iff, ← namesPoint_congr h.declarations,
    ← namesLine_congr h.declarations]
  exact hn

/-- The same points are in both arenas. -/
theorem get? (h : Twins s t p q) {i j : PointId} (hij : SamePoint p q i j) :
    p.points.get? i = q.points.get? j := by
  obtain ⟨anchor, hi, hj⟩ := hij
  obtain ⟨point, hget, rfl⟩ := Option.map_eq_some_iff.mp hi
  obtain ⟨point', hget', hname⟩ := Option.map_eq_some_iff.mp hj
  have hmem : point' ∈ p.points.points := by
    have hmem' := List.mem_of_getElem? hget'
    rw [h.right.points] at hmem'
    obtain ⟨d, hd, hpoint⟩ := List.mem_flatMap.mp hmem'
    rw [h.left.points]
    exact List.mem_flatMap.mpr ⟨d, (h.declarations d).mpr hd, hpoint⟩
  obtain ⟨k, hk⟩ := List.mem_iff_getElem?.mp hmem
  have hget'' : p.points.get? ⟨k⟩ = some point' := hk
  -- Both points have this name in the first arena, and so they are one.
  have hagree := h.left.unambiguous.agree (.arena hi)
    (.arena (Option.map_eq_some_iff.mpr ⟨point', hget'', hname⟩))
  cases hagree
  rw [hget'', hget']

theorem mem_pinned (h : Twins s t p q) {a b : ParamId} (hab : SamePoint p q a.point b.point)
    (ha : a ∈ p.pinned) : b ∈ q.pinned := by
  obtain ⟨name, r, hname, hr, hmem⟩ := (h.left.pinned a).mp ha
  obtain ⟨r', hr', hsame⟩ := h.find? hr
  obtain ⟨j, hj, hij⟩ := hsame.handles hmem
  obtain rfl := hij.unique h.right.unambiguous hab
  exact (h.right.pinned b).mpr ⟨name, r', h.requirements ▸ hname, hr', hj⟩

theorem isParamFixed (h : Twins s t p q) {a b : ParamId} (hab : SamePoint p q a.point b.point)
    (haxis : a.axis = b.axis) : p.isParamFixed a = q.isParamFixed b := by
  have hpinned : p.pinned.contains a = q.pinned.contains b := by
    rw [Bool.eq_iff_iff, List.contains_iff_mem, List.contains_iff_mem]
    exact ⟨h.mem_pinned hab, h.symm.mem_pinned hab.symm⟩
  unfold Problem.isParamFixed Arena.param?
  rw [hpinned, h.get? hab, haxis]

theorem all_fixed (h : Twins s t p q) {a b : Primitive} (hab : SamePrimitive q p b a)
    (ha : (ParamId.ofPoints a.handles).all p.isParamFixed = true) :
    (ParamId.ofPoints b.handles).all q.isParamFixed = true := by
  rw [List.all_eq_true] at ha ⊢
  intro r hr
  obtain ⟨i, hi, hsame⟩ := hab.handles (ParamId.mem_ofPoints.mp hr)
  have hfixed := ha ⟨i, r.axis⟩ (ParamId.mem_ofPoints.mpr hi)
  rw [← h.isParamFixed (a := ⟨i, r.axis⟩) hsame.symm rfl]
  exact hfixed

theorem isFixed (h : Twins s t p q) (name : String) : p.isFixed name = q.isFixed name := by
  cases ha : p.find? name with
  | none =>
    have hb := h.find?_eq_none ha
    unfold Problem.isFixed
    rw [paramsOf_eq, paramsOf_eq, ha, hb]
    rfl
  | some a =>
    obtain ⟨b, hb, hab⟩ := h.find? ha
    rw [isFixed_eq_ok ha, isFixed_eq_ok hb]
    refine congrArg Except.ok (Bool.eq_iff_iff.mpr ⟨h.all_fixed hab.symm, h.symm.all_fixed hab⟩)

theorem vector? (h : Twins s t p q) {l m : Line} (hlm : SamePrimitive p q (.line l) (.line m)) :
    l.vector? p.points = m.vector? q.points := by
  unfold Line.vector? Arena.position?
  rw [h.get? hlm.1, h.get? hlm.2]

theorem view?_look (h : Twins s t p q) {a b : Primitive} (hab : SamePrimitive p q a b)
    (name : String) :
    (a.view? name p.points).map View.look = (b.view? name q.points).map View.look := by
  cases a <;> cases b
  · rename_i i j
    simp only [Primitive.view?, h.get? hab]
    cases q.points.get? j <;> rfl
  · cases hab
  · cases hab
  · rename_i l m
    simp only [Primitive.view?, Line.view?, h.get? hab.1, h.get? hab.2]
    cases q.points.get? m.start <;> cases q.points.get? m.finish <;> rfl

theorem view (h : Twins s t p q) (name : String) :
    (p.view name).map View.look = (q.view name).map View.look := by
  rw [map_look_view, map_look_view]
  cases ha : p.find? name with
  | none =>
    rw [h.find?_eq_none ha]
    rfl
  | some a =>
    obtain ⟨b, hb, hab⟩ := h.find? ha
    rw [hb, Option.elim_some, Option.elim_some, h.view?_look hab]

theorem samePrimitive (h : Twins s t p q) {name : String} {a b : Primitive}
    (ha : p.find? name = some a) (hb : q.find? name = some b) : SamePrimitive p q a b := by
  obtain ⟨_, hb', hab⟩ := h.find? ha
  cases hb.symm.trans hb'
  exact hab

theorem alike (h : Twins s t p q) {r : Requirement} {c d : Declared} (hc : r.Made p c)
    (hd : r.Made q d) : c.constraint.Alike p.points q.points d.constraint := by
  cases r with
  | fixed name => cases hc
  | length name target =>
    obtain ⟨l, hl, rfl⟩ := hc
    obtain ⟨m, hm, rfl⟩ := hd
    refine .of_value rfl rfl ?_
    simp only [Constraint.value?, h.vector? (h.samePrimitive hl hm)]
  | angle a b target =>
    obtain ⟨l, l', hl, hl', rfl⟩ := hc
    obtain ⟨m, m', hm, hm', rfl⟩ := hd
    refine .of_value rfl rfl ?_
    simp only [Constraint.value?, h.vector? (h.samePrimitive hl hm),
      h.vector? (h.samePrimitive hl' hm')]
  | distance a b target =>
    obtain ⟨i, i', hi, hi', rfl⟩ := hc
    obtain ⟨j, j', hj, hj', rfl⟩ := hd
    refine .of_value rfl rfl ?_
    simp only [Constraint.value?, Arena.position?, h.get? (h.samePrimitive hi hj),
      h.get? (h.samePrimitive hi' hj')]

theorem constraints (h : Twins s t p q) :
    List.Forall₂ (·.Alike p.points q.points ·) p.constraintList q.constraintList := by
  have hp := h.left.constraints
  rw [h.requirements] at hp
  unfold constraintList
  rw [List.forall₂_map_left_iff, List.forall₂_map_right_iff]
  exact forall₂_join hp h.right.constraints fun hc hd => h.alike hc hd

theorem error (h : Twins s t p q) : p.error = q.error := by
  have herrors : p.constraintList.map (fun c => (c.error? p.points).getD (0 / 0)) =
      q.constraintList.map fun c => (c.error? q.points).getD (0 / 0) := by
    rw [← List.forall₂_eq_eq_eq, List.forall₂_map_left_iff, List.forall₂_map_right_iff]
    exact h.constraints.imp fun _ _ halike => by rw [halike.error]
  unfold Problem.error Constraint.totalError
  rw [herrors]

end Twins

namespace Instruction

def declaration? : Instruction → Option Declaration
  | declare d => some d
  | require _ => none

def requirement? : Instruction → Option Requirement
  | declare _ => none
  | require r => some r

end Instruction

namespace Sketch

theorem declarations_eq (s : Sketch) :
    s.declarations = s.instructions.filterMap Instruction.declaration? := by
  simp [instructions, List.filterMap_map, Function.comp_def, Instruction.declaration?]

theorem requirements_eq (s : Sketch) :
    s.requirements = s.instructions.filterMap Instruction.requirement? := by
  simp [instructions, List.filterMap_map, Function.comp_def, Instruction.requirement?]

/-- The two lists of a sketch, where two declarations are next to each other among its lines. -/
theorem eq_of_instructions {s : Sketch} {before after : List Instruction} {d e : Declaration}
    (h : s.instructions = before ++ .declare d :: .declare e :: after) :
    s = ⟨before.filterMap Instruction.declaration? ++
          d :: e :: after.filterMap Instruction.declaration?,
        before.filterMap Instruction.requirement? ++
          after.filterMap Instruction.requirement?⟩ := by
  have hd := s.declarations_eq
  have hr := s.requirements_eq
  rw [h, List.filterMap_append] at hd hr
  exact congrArg₂ Sketch.mk hd hr

/-- Where two sketches differ in the order of two declarations next to each other, and neither of
these uses a name of the other, one is built if the other is. Names then lead to primitives of the
same kind, with the same points, and are fixed in both or in none; constraints agree one by one in
what they ask for and in what they measure, and so does the total error. -/
theorem order_of_declarations {text text' : String} {s t : Sketch} (hs : ofText text = .ok s)
    (ht : ofText text' = .ok t) {before after : List Instruction} {d e : Declaration}
    (hsd : s.instructions = before ++ .declare d :: .declare e :: after)
    (hte : t.instructions = before ++ .declare e :: .declare d :: after)
    (hde : d.Avoids e) (hed : e.Avoids d) :
    ((∃ p, s.build = .ok p) ↔ ∃ q, t.build = .ok q) ∧
    ∀ p q, s.build = .ok p → t.build = .ok q →
      (∀ name, (p.view name).map View.look = (q.view name).map View.look ∧
        p.isFixed name = q.isFixed name) ∧
      List.Forall₂ (·.Alike p.points q.points ·) p.constraintList q.constraintList ∧
      p.error = q.error := by
  have hsbuilds := builds (plain_of_ofText hs)
  have htbuilds := builds (plain_of_ofText ht)
  obtain rfl := eq_of_instructions hsd
  obtain rfl := eq_of_instructions hte
  refine ⟨?_, fun p q hp hq => ?_⟩
  · rw [hsbuilds.exists_iff, htbuilds.exists_iff]
    exact wellFormed_swap hde hed
  · rw [hp] at hsbuilds
    rw [hq] at htbuilds
    obtain ⟨hwell, hmirrors⟩ := hsbuilds.mirrors
    obtain ⟨hwell', hmirrors'⟩ := htbuilds.mirrors
    have htwins : Twins _ _ p q :=
      ⟨hmirrors, hmirrors', hwell, hwell', fun f => by simp [or_left_comm], rfl⟩
    exact ⟨fun name => ⟨htwins.view name, htwins.isFixed name⟩, htwins.constraints, htwins.error⟩

/-- Two lines that share a point, and one between their other ends. -/
def truss : Sketch where
  declarations := [.point "o" 0 0, .line "l" (.named "o") (.coordinates 3 4),
    .line "m" (.coordinates 1 1) (.named "o"), .line "n" (.named "m.start") (.named "l.end")]
  requirements := [.fixed "m", .length "l" 4, .angle "n" "m" 90]

/-- The same, with other handles. -/
def turned : Sketch where
  declarations := [.point "o" 0 0, .line "m" (.coordinates 1 1) (.named "o"),
    .line "l" (.named "o") (.coordinates 3 4), .line "n" (.named "m.start") (.named "l.end")]
  requirements := truss.requirements

theorem order_of_declarations_truss :
    ofText "# geometry\npoint o (0, 0)\nline l o (3, 4)\nline m (1, 1) o\nline n m.start l.end
# constraints\nfixed(m)\nlength(l) = 4\nangle(n, m) = 90" = .ok truss ∧
    ofText "# geometry\npoint o (0, 0)\nline m (1, 1) o\nline l o (3, 4)\nline n m.start l.end
# constraints\nfixed(m)\nlength(l) = 4\nangle(n, m) = 90" = .ok turned ∧
    ∃ p q, truss.build = .ok p ∧ turned.build = .ok q ∧
      p.find? "l.end" = some (.point ⟨1⟩) ∧ q.find? "l.end" = some (.point ⟨2⟩) ∧
      (p.view "l.end").map View.look = (q.view "l.end").map View.look ∧
      p.isFixed "n" = q.isFixed "n" ∧ p.error = q.error := by
  have hs : ofText "# geometry\npoint o (0, 0)\nline l o (3, 4)\nline m (1, 1) o
line n m.start l.end\n# constraints\nfixed(m)\nlength(l) = 4\nangle(n, m) = 90" =
      .ok truss := by decide +kernel
  have ht : ofText "# geometry\npoint o (0, 0)\nline m (1, 1) o\nline l o (3, 4)
line n m.start l.end\n# constraints\nfixed(m)\nlength(l) = 4\nangle(n, m) = 90" =
      .ok turned := by decide +kernel
  obtain ⟨p, hp, hpl⟩ := exists_build_of (s := truss)
    (fun p => p.find? "l.end" = some (.point ⟨1⟩)) (by decide +kernel)
  obtain ⟨q, hq, hql⟩ := exists_build_of (s := turned)
    (fun q => q.find? "l.end" = some (.point ⟨2⟩)) (by decide +kernel)
  have hinstructions : truss.instructions = [.declare (.point "o" 0 0)] ++
      .declare (.line "l" (.named "o") (.coordinates 3 4)) ::
      .declare (.line "m" (.coordinates 1 1) (.named "o")) :: _ := rfl
  obtain ⟨-, hlook⟩ := order_of_declarations hs ht hinstructions rfl
    (by
      intro name hname
      cases List.mem_singleton.mp hname
      decide +kernel)
    (by
      intro name hname
      cases List.mem_singleton.mp hname
      decide +kernel)
  obtain ⟨hnames, -, herror⟩ := hlook p q hp hq
  exact ⟨hs, ht, p, q, hp, hq, by simpa using hpl, by simpa using hql, (hnames "l.end").1,
    (hnames "n").2, herror⟩

end Sketch

end PlaneSketch
