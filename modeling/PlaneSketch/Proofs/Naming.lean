import Mathlib.Data.List.Nodup
import PlaneSketch.Proofs.History

namespace PlaneSketch

/-- The name that a point has in the arena. -/
def Arena.nameOf? (a : Arena) (id : PointId) : Option String := (a.get? id).map Point.name

namespace Arena

theorem nameOf?_eq_getElem? (a : Arena) (id : PointId) :
    a.nameOf? id = (a.points.map Point.name)[id.index]? := by
  rw [List.getElem?_map]
  rfl

theorem nameOf?_congr {a b : Arena} (hn : b.points.map Point.name = a.points.map Point.name)
    (id : PointId) : b.nameOf? id = a.nameOf? id := by
  rw [nameOf?_eq_getElem?, nameOf?_eq_getElem?, hn]

theorem nameOf?_of_idOf? {a : Arena} {name : String} {id : PointId} (h : a.idOf? name = some id) :
    a.nameOf? id = some name := by
  obtain ⟨point, hg, rfl⟩ := get?_of_idOf? h
  rw [nameOf?, hg]
  rfl

theorem nameOf?_ne_of_idOf? {a : Arena} {name : String} (h : a.idOf? name = none) (id : PointId) :
    a.nameOf? id ≠ some name := by
  intro hn
  obtain ⟨point, hg, rfl⟩ := Option.map_eq_some_iff.mp hn
  exact idOf?_eq_none.mp h point (List.mem_of_getElem? hg) rfl

/-- A name in an arena that has grown is an old one, or that of the added point at this place. -/
theorem nameOf?_append {points added : List Point} {name : String} {id : PointId}
    (h : (Arena.mk (points ++ added)).nameOf? id = some name) :
    (Arena.mk points).nameOf? id = some name ∨
      ∃ i point, id = ⟨points.length + i⟩ ∧ added[i]? = some point ∧ point.name = name := by
  obtain ⟨⟩ := id
  obtain ⟨point, hg, rfl⟩ := Option.map_eq_some_iff.mp h
  rcases getElem?_of_append hg with hold | ⟨i, rfl, hnew⟩
  · exact .inl (Option.map_eq_some_iff.mpr ⟨point, hold, rfl⟩)
  · exact .inr ⟨i, point, rfl, hnew, rfl⟩

theorem nameOf?_append_left {points added : List Point} {name : String} {id : PointId}
    (h : (Arena.mk points).nameOf? id = some name) :
    (Arena.mk (points ++ added)).nameOf? id = some name := by
  obtain ⟨point, hg, rfl⟩ := Option.map_eq_some_iff.mp h
  exact Option.map_eq_some_iff.mpr ⟨point, get?_append hg, rfl⟩

end Arena

/-- A new end of a line has the next handle, under the name that was given for it. -/
theorem Endpoint.added_getElem? {e : Endpoint} {name : String} {i : Nat} {point : Point}
    (h : (e.added name)[i]? = some point) (size : Nat) :
    point.name = name ∧ e.handle size = ⟨size + i⟩ := by
  cases e with
  | fresh x y =>
    cases i with
    | zero =>
      cases h
      exact ⟨rfl, rfl⟩
    | succ i => cases h
  | shared id => cases h

namespace Problem

theorem ne_startName (line : String) : line ≠ startName line := by
  intro h
  have hl := congrArg String.length h
  simp [startName] at hl

theorem ne_finishName (line : String) : line ≠ finishName line := by
  intro h
  have hl := congrArg String.length h
  simp [finishName] at hl

/-- The names that come with a primitive, and what they mean. -/
def namesOf (name : String) : Primitive → List (String × Primitive)
  | .point id => [(name, .point id)]
  | .line l =>
    [(name, .line l), (startName name, .point l.start), (finishName name, .point l.finish)]

theorem mem_namesOf (name : String) (q : Primitive) : (name, q) ∈ namesOf name q := by
  cases q <;> exact List.mem_cons_self

theorem namesOf_nodup (name : String) (q : Primitive) : ((namesOf name q).map Prod.fst).Nodup := by
  cases q with
  | point id => simp [namesOf]
  | line l => simp [namesOf, ne_startName, ne_finishName, startName_ne_finishName]

theorem endOf?_eq_some {name line : String} {l : Line} {id : PointId} :
    endOf? name line l = some id ↔ (name, .point id) ∈ namesOf line (.line l) := by
  unfold endOf? namesOf
  by_cases hs : name = startName line
  · subst hs
    simp [startName_ne_finishName, eq_comm (a := id)]
  · by_cases hf : name = finishName line
    · subst hf
      simp [(startName_ne_finishName line).symm, eq_comm (a := id)]
    · simp [hs, hf]

theorem endOf?_self (line : String) (l : Line) : endOf? line line l = none := by
  unfold endOf?
  rw [if_neg (ne_startName line), if_neg (ne_finishName line)]

/-- The name has this meaning in one of the places where it is looked for. -/
inductive Binds (p : Problem) (name : String) : Primitive → Prop where
  | registry {q : Primitive} (h : (name, q) ∈ p.primitives) : Binds p name q
  | arena {id : PointId} (h : p.points.nameOf? id = some name) : Binds p name (.point id)
  | lineEnd {line : String} {l : Line} {id : PointId} (h : (line, .line l) ∈ p.primitives)
      (he : endOf? name line l = some id) : Binds p name (.point id)

theorem endOf?_of_lineEnd? {p : Problem} {name line : String} {l : Line}
    (h : p.lineEnd? name = none) (hl : (line, .line l) ∈ p.primitives) :
    endOf? name line l = none :=
  List.findSome?_eq_none_iff.mp h (line, .line l) hl

/-- What each place has for a name, in the order in which they are asked. -/
def places (p : Problem) (name : String) : List (Option Primitive) :=
  [p.registered? name, (p.points.idOf? name).map .point, (p.lineEnd? name).map .point]

theorem find?_eq_findSome? (p : Problem) (name : String) :
    p.find? name = (p.places name).findSome? id := by
  rw [find?_eq, Option.map_or]
  simp only [places, List.findSome?_cons, List.findSome?_nil, id]
  cases p.registered? name <;> cases p.points.idOf? name <;> cases p.lineEnd? name <;> rfl

theorem binds_of_mem_places {p : Problem} {name : String} {q : Primitive}
    (h : some q ∈ p.places name) : p.Binds name q := by
  simp only [places, List.mem_cons, List.not_mem_nil, or_false] at h
  rcases h with h | h | h
  · exact .registry (mem_of_registered? h.symm)
  · obtain ⟨id, hid, rfl⟩ := Option.map_eq_some_iff.mp h.symm
    exact .arena (Arena.nameOf?_of_idOf? hid)
  · obtain ⟨id, hid, rfl⟩ := Option.map_eq_some_iff.mp h.symm
    obtain ⟨line, l, hl, he⟩ := mem_of_lineEnd? hid
    exact .lineEnd hl he

/-- Whatever a name resolves to, it has this meaning in some place. -/
theorem binds_of_find? {p : Problem} {name : String} {q : Primitive}
    (h : p.find? name = some q) : p.Binds name q := by
  rw [find?_eq_findSome?] at h
  obtain ⟨x, hx, rfl⟩ := List.exists_of_findSome?_eq_some h
  exact binds_of_mem_places hx

theorem not_binds_of_find? {p : Problem} {name : String} (h : p.find? name = none)
    (q : Primitive) : ¬ p.Binds name q := by
  obtain ⟨hr, ha, he⟩ := find?_eq_none.mp h
  intro hb
  cases hb with
  | registry hm =>
    have hne := List.lookup_eq_none_iff.mp hr (name, q) hm
    simp at hne
  | arena hn => exact Arena.nameOf?_ne_of_idOf? ha _ hn
  | lineEnd hl hid =>
    rw [endOf?_of_lineEnd? he hl] at hid
    cases hid

/-- All places agree on what a name means. Points are registered under the names that they have in
the arena, and nothing is registered under the name of a line's end. -/
structure Unambiguous (p : Problem) : Prop where
  agree : ∀ {name q r}, p.Binds name q → p.Binds name r → q = r
  points : ∀ {name id}, (name, .point id) ∈ p.primitives → p.points.nameOf? id = some name
  ends : ∀ {name q line l}, (name, q) ∈ p.primitives → (line, .line l) ∈ p.primitives →
    endOf? name line l = none

theorem unambiguous_empty : Unambiguous empty where
  agree h := by
    cases h with
    | registry h => cases h
    | arena h => cases h
    | lineEnd h => cases h
  points h := nomatch h
  ends h := nomatch h

theorem Unambiguous.find?_iff {p : Problem} (hp : p.Unambiguous) {name : String} {q : Primitive} :
    p.find? name = some q ↔ p.Binds name q := by
  refine ⟨binds_of_find?, fun h => ?_⟩
  cases hf : p.find? name with
  | none => exact (not_binds_of_find? hf q h).elim
  | some r => rw [hp.agree (binds_of_find? hf) h]

/-- Where a line is found, its ends are found under their names. -/
theorem Unambiguous.find?_lineEnds {p : Problem} (hp : p.Unambiguous) {line : String}
    {l : Line} (h : p.find? line = some (.line l)) :
    p.find? (startName line) = some (.point l.start) ∧
      p.find? (finishName line) = some (.point l.finish) := by
  cases hp.find?_iff.mp h with
  | registry hm =>
    exact ⟨hp.find?_iff.mpr (.lineEnd hm (endOf?_eq_some.mpr (by simp [namesOf]))),
      hp.find?_iff.mpr (.lineEnd hm (endOf?_eq_some.mpr (by simp [namesOf])))⟩

theorem Binds.congr {p q : Problem} (hprimitives : q.primitives = p.primitives)
    (hnames : q.points.points.map Point.name = p.points.points.map Point.name) {name : String}
    {r : Primitive} (h : q.Binds name r) : p.Binds name r := by
  cases h with
  | registry h => exact .registry (hprimitives ▸ h)
  | arena h => exact .arena (Arena.nameOf?_congr hnames _ ▸ h)
  | lineEnd h he => exact .lineEnd (hprimitives ▸ h) he

theorem Unambiguous.congr {p q : Problem} (hp : p.Unambiguous)
    (hprimitives : q.primitives = p.primitives)
    (hnames : q.points.points.map Point.name = p.points.points.map Point.name) :
    q.Unambiguous where
  agree h h' := hp.agree (h.congr hprimitives hnames) (h'.congr hprimitives hnames)
  points h := by
    rw [Arena.nameOf?_congr hnames]
    exact hp.points (hprimitives ▸ h)
  ends h h' := hp.ends (hprimitives ▸ h) (hprimitives ▸ h')

section Grow

variable {p : Problem} {added : List Point} {name : String} {q : Primitive}

/-- A registration gives a meaning to the names that come with the primitive, and to no others, if
no others are given to new points. -/
theorem binds_grow
    (hadded : ∀ {i point}, added[i]? = some point →
      (point.name, .point ⟨p.points.size + i⟩) ∈ namesOf name q)
    {n : String} {r : Primitive} (h : (p.grow added name q).Binds n r) :
    p.Binds n r ∨ (n, r) ∈ namesOf name q := by
  cases h with
  | registry h =>
    rcases List.mem_append.mp h with h | h
    · exact .inl (.registry h)
    · cases List.mem_singleton.mp h
      exact .inr (mem_namesOf name q)
  | arena h =>
    rcases Arena.nameOf?_append h with h | ⟨i, point, rfl, hi, rfl⟩
    · exact .inl (.arena h)
    · exact .inr (hadded hi)
  | lineEnd h he =>
    rcases List.mem_append.mp h with h | h
    · exact .inl (.lineEnd h he)
    · cases List.mem_singleton.mp h
      exact .inr (endOf?_eq_some.mp he)

theorem Unambiguous.grow (hp : p.Unambiguous)
    (hadded : ∀ {i point}, added[i]? = some point →
      (point.name, .point ⟨p.points.size + i⟩) ∈ namesOf name q)
    (free : ∀ entry ∈ namesOf name q, p.find? entry.1 = none)
    (point : ∀ id, q = .point id → (p.grow added name q).points.nameOf? id = some name) :
    (p.grow added name q).Unambiguous := by
  have fresh {n : String} {r r' : Primitive} (h : p.Binds n r) (h' : (n, r') ∈ namesOf name q) :
      False := not_binds_of_find? (free _ h') r h
  constructor
  · -- The new names were free, so that an old meaning and a new one never meet.
    intro n r r' h h'
    rcases binds_grow hadded h with h | h <;> rcases binds_grow hadded h' with h' | h'
    · exact hp.agree h h'
    · exact (fresh h h').elim
    · exact (fresh h' h).elim
    · exact congrArg Prod.snd (List.inj_on_of_nodup_map (namesOf_nodup name q) h h' rfl)
  · intro n id h
    rcases List.mem_append.mp h with h | h
    · exact Arena.nameOf?_append_left (hp.points h)
    · cases List.mem_singleton.mp h
      exact point id rfl
  · intro n r line l h hl
    rw [Option.eq_none_iff_forall_ne_some]
    intro id he
    rcases List.mem_append.mp h with hold | hnew <;>
      rcases List.mem_append.mp hl with hold' | hnew'
    · rw [hp.ends hold hold'] at he
      cases he
    · cases List.mem_singleton.mp hnew'
      exact fresh (.registry hold) (endOf?_eq_some.mp he)
    · cases List.mem_singleton.mp hnew
      exact fresh (.lineEnd hold' he) (mem_namesOf name q)
    · cases List.mem_singleton.mp hnew
      cases List.mem_singleton.mp hnew'
      rw [endOf?_self] at he
      cases he

end Grow

theorem Unambiguous.growPoint {p : Problem} (hp : p.Unambiguous) {name : String} (x y : Float)
    (free : p.find? name = none) :
    (p.grow [⟨name, ⟨x, false⟩, ⟨y, false⟩⟩] name (.point ⟨p.points.size⟩)).Unambiguous := by
  refine hp.grow (fun h => ?_) (fun entry h => ?_) fun id h => ?_
  · obtain ⟨hn, hid⟩ := Endpoint.added_getElem? (e := .fresh x y) h p.points.size
    rw [hn, ← hid]
    exact List.mem_cons_self
  · cases List.mem_singleton.mp h
    exact free
  · cases h
    rw [Arena.nameOf?_eq_getElem?]
    simp [Problem.grow, invalidate, Arena.size]

/-- The new points of a line are its ends, and go by their names. -/
theorem added_mem_namesOf (p : Problem) (name : String) (start finish : Endpoint) {i : Nat}
    {point : Point}
    (h : (start.added (startName name) ++ finish.added (finishName name))[i]? = some point) :
    (point.name, .point ⟨p.points.size + i⟩) ∈
      namesOf name (.line (p.lineBetween name start finish)) := by
  rcases getElem?_of_append h with hs | ⟨i, rfl, hf⟩
  · obtain ⟨hn, hid⟩ := Endpoint.added_getElem? hs p.points.size
    simp [namesOf, lineBetween, hn, hid]
  · obtain ⟨hn, hid⟩ :=
      Endpoint.added_getElem? hf (p.points.size + (start.added (startName name)).length)
    rw [Nat.add_assoc] at hid
    simp [namesOf, lineBetween, hn, hid]

theorem Unambiguous.growLine {p : Problem} (hp : p.Unambiguous) {name : String}
    {start finish : Endpoint} (fits : p.LineFits name start finish) :
    (p.growLine name start finish).Unambiguous := by
  refine hp.grow (added_mem_namesOf p name start finish) (fun entry h => ?_) fun id h => nomatch h
  simp only [namesOf, List.mem_cons, List.not_mem_nil, or_false] at h
  rcases h with rfl | rfl | rfl
  · exact fits.nameFree
  · exact fits.startFree
  · exact fits.finishFree

theorem Step.unambiguous {p q : Problem} (h : Step p q) (hp : p.Unambiguous) : q.Unambiguous := by
  cases h with
  | stay => exact hp
  | count => exact hp.congr rfl rfl
  | declare c names named admissible => exact hp.congr rfl rfl
  | point name x y free hx hy => exact hp.growPoint x y free
  | line name start finish fits => exact hp.growLine fits
  | repin pinned named => exact hp.congr rfl rfl
  | rewrite a rewritten => exact hp.congr rfl rewritten.names

theorem Reachable.unambiguous {p : Problem} (h : p.Reachable) : p.Unambiguous :=
  h.invariant Unambiguous unambiguous_empty Step.unambiguous

/-- Where all answers agree, it does not matter who is asked first. -/
theorem findSome?_perm {α : Type} {order asked : List (Option α)} (hperm : order.Perm asked)
    (agree : ∀ a b, some a ∈ asked → some b ∈ asked → a = b) :
    order.findSome? id = asked.findSome? id := by
  cases h : asked.findSome? id with
  | none =>
    rw [List.findSome?_eq_none_iff] at h ⊢
    exact fun x hx => h x (hperm.mem_iff.mp hx)
  | some a =>
    obtain ⟨x, hx, rfl⟩ := List.exists_of_findSome?_eq_some h
    cases h' : order.findSome? id with
    | none =>
      have hnone := List.findSome?_eq_none_iff.mp h' (some a) (hperm.mem_iff.mpr hx)
      cases hnone
    | some b =>
      obtain ⟨y, hy, rfl⟩ := List.exists_of_findSome?_eq_some h'
      rw [agree b a (hperm.mem_iff.mp hy) hx]

theorem Unambiguous.lineEnd?_iff {p : Problem} (hp : p.Unambiguous) {name : String}
    {id : PointId} : p.lineEnd? name = some id ↔
      ∃ line l, (line, .line l) ∈ p.primitives ∧ endOf? name line l = some id := by
  refine ⟨mem_of_lineEnd?, fun ⟨line, l, hl, he⟩ => ?_⟩
  cases h : p.lineEnd? name with
  | none =>
    rw [endOf?_of_lineEnd? h hl] at he
    cases he
  | some i =>
    obtain ⟨line', l', hl', he'⟩ := mem_of_lineEnd? h
    cases hp.agree (.lineEnd hl he) (.lineEnd hl' he')
    rfl

theorem Unambiguous.lineEnd?_eq_none {p : Problem} (hp : p.Unambiguous) {name : String}
    {q : Primitive} (h : (name, q) ∈ p.primitives) : p.lineEnd? name = none := by
  rw [Option.eq_none_iff_forall_ne_some]
  intro id he
  obtain ⟨line, l, hl, he⟩ := mem_of_lineEnd? he
  rw [hp.ends h hl] at he
  cases he

/-- In a problem that can be reached, no point of the arena and no end of a line is called like a
line, and a point is registered under its own name, which is not that of an end either. A point of
the arena that is called like an end of a line is this very end. So whatever a name means in any
of the three places is what it resolves to, in whichever order they are asked. -/
theorem names_are_unambiguous {p : Problem} (hp : p.Reachable) (name : String) :
    (∀ l, p.registered? name = some (.line l) →
      (∀ id, p.points.nameOf? id ≠ some name) ∧ p.lineEnd? name = none) ∧
    (∀ id, p.registered? name = some (.point id) →
      p.points.nameOf? id = some name ∧ p.lineEnd? name = none) ∧
    (∀ l, p.registered? name = some (.line l) →
      p.lineEnd? (startName name) = some l.start ∧ p.lineEnd? (finishName name) = some l.finish ∧
      (∀ id, p.points.nameOf? id = some (startName name) → id = l.start) ∧
      ∀ id, p.points.nameOf? id = some (finishName name) → id = l.finish) ∧
    (∀ q, p.Binds name q → p.find? name = some q) ∧
    ∀ order : List (Option Primitive), order.Perm (p.places name) →
      order.findSome? id = p.find? name := by
  have hu := hp.unambiguous
  refine ⟨fun l h => ?_, fun id h => ?_, fun l h => ?_, fun q => hu.find?_iff.mpr,
    fun order hperm => ?_⟩
  · have hl := mem_of_registered? h
    refine ⟨fun id hn => ?_, hu.lineEnd?_eq_none hl⟩
    cases hu.agree (.registry hl) (.arena hn)
  · have hid := mem_of_registered? h
    exact ⟨hu.points hid, hu.lineEnd?_eq_none hid⟩
  · have hl := mem_of_registered? h
    have hs : endOf? (startName name) name l = some l.start :=
      endOf?_eq_some.mpr (by simp [namesOf])
    have hf : endOf? (finishName name) name l = some l.finish :=
      endOf?_eq_some.mpr (by simp [namesOf])
    refine ⟨hu.lineEnd?_iff.mpr ⟨name, l, hl, hs⟩, hu.lineEnd?_iff.mpr ⟨name, l, hl, hf⟩,
      fun id hn => ?_, fun id hn => ?_⟩
    · cases hu.agree (.arena hn) (.lineEnd hl hs)
      rfl
    · cases hu.agree (.arena hn) (.lineEnd hl hf)
      rfl
  · rw [find?_eq_findSome?]
    exact findSome?_perm hperm fun q r hq hr =>
      hu.agree (binds_of_mem_places hq) (binds_of_mem_places hr)

/-- Names with many dots. The lines `m` and `b` are refused, since `m.start` and `b.start` are
taken, and so is a point that would be called like the shared end of the line `a`. -/
def dotted : Problem := empty.afterAll [
  .addPoint "m.start" 0 0,
  .addLine "m" (.fresh 0 0) (.fresh 1 1),
  .addLine "a" (.shared ⟨0⟩) (.fresh 1 0),
  .addPoint "a.start" 5 5,
  .addLine "b.start" (.shared ⟨1⟩) (.fresh 2 2),
  .addLine "b" (.fresh 0 0) (.fresh 1 1)]

theorem dotted_unambiguous : dotted.Reachable ∧
    dotted.registered? "b.start" = some (.line ⟨⟨1⟩, ⟨2⟩⟩) ∧
    dotted.points.idOf? "b.start.start" = none ∧
    dotted.lineEnd? "b.start.start" = some ⟨1⟩ ∧
    dotted.points.nameOf? ⟨2⟩ = some "b.start.end" ∧
    (dotted.places "b.start.end").reverse.findSome? id = dotted.find? "b.start.end" ∧
    dotted.registered? "m" = none ∧ dotted.registered? "b" = none := by
  have hr : dotted.Reachable := ⟨_, rfl⟩
  have hl : dotted.registered? "b.start" = some (.line ⟨⟨1⟩, ⟨2⟩⟩) := by decide +kernel
  obtain ⟨-, -, hends, -, -⟩ := names_are_unambiguous hr "b.start"
  obtain ⟨-, -, -, -, horder⟩ := names_are_unambiguous hr "b.start.end"
  exact ⟨hr, hl, by decide +kernel, (hends _ hl).1, by decide +kernel,
    horder _ (List.reverse_perm _), by decide +kernel, by decide +kernel⟩

end Problem

end PlaneSketch
