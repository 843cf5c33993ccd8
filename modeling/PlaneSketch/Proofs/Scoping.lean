import Mathlib.Data.List.Nodup
import PlaneSketch.Problem.Names
import PlaneSketch.Proofs.SketchText

namespace PlaneSketch

open Problem

namespace Spot

def Finite : Spot → Prop
  | coordinates x y => x.isFinite = true ∧ y.isFinite = true
  | named _ => True

def names : Spot → List String
  | coordinates _ _ => []
  | named label => [label]

end Spot

namespace Declaration

def label : Declaration → String
  | point label _ _ => label
  | line label _ _ => label

def Finite : Declaration → Prop
  | point _ x y => x.isFinite = true ∧ y.isFinite = true
  | line _ start finish => start.Finite ∧ finish.Finite

/-- The names of points that the declaration uses. -/
def endNames : Declaration → List String
  | point .. => []
  | line _ start finish => start.names ++ finish.names

/-- The names of points that the declaration gives. -/
def pointNames : Declaration → List String
  | point label _ _ => [label]
  | line label _ _ => [startName label, finishName label]

@[simp]
theorem mem_pointNames_point {label name : String} {x y : Float} :
    name ∈ (point label x y).pointNames ↔ name = label :=
  List.mem_singleton

@[simp]
theorem mem_pointNames_line {label name : String} {start finish : Spot} :
    name ∈ (line label start finish).pointNames ↔
      name = startName label ∨ name = finishName label := by
  simp [pointNames]

/-- Without the dot that names of ends have. -/
def Plain (d : Declaration) : Prop := '.' ∉ d.label.toList

end Declaration

/-- One of the declarations gives this name to a point. -/
def NamesPoint (ds : List Declaration) (name : String) : Prop := ∃ d ∈ ds, name ∈ d.pointNames

/-- One of the declarations is that of a line with this label. -/
def NamesLine (ds : List Declaration) (name : String) : Prop :=
  ∃ start finish, .line name start finish ∈ ds

/-- The requirement speaks of what is declared, and asks for what there can be. -/
def Requirement.Fits (ds : List Declaration) : Requirement → Prop
  | fixed name => NamesPoint ds name ∨ NamesLine ds name
  | length name target => NamesLine ds name ∧ target.isFinite = true ∧ 0 ≤ target
  | angle a b target => NamesLine ds a ∧ NamesLine ds b ∧ target.isFinite = true
  | distance a b target =>
    NamesPoint ds a ∧ NamesPoint ds b ∧ target.isFinite = true ∧ 0 ≤ target

/-- Every label is declared once, and every name that is used has been given before. -/
structure Sketch.WellFormed (s : Sketch) : Prop where
  distinct : (s.declarations.map Declaration.label).Nodup
  finite : ∀ d ∈ s.declarations, d.Finite
  /-- The ends of a line are points that have been declared before it. -/
  ends : ∀ before d after, s.declarations = before ++ d :: after →
    ∀ name ∈ d.endNames, NamesPoint before name
  required : ∀ r ∈ s.requirements, r.Fits s.declarations

/-- The declaration can come next. -/
structure Declaration.Fits (before : List Declaration) (d : Declaration) : Prop where
  fresh : d.label ∉ before.map label
  finite : d.Finite
  ends : ∀ name ∈ d.endNames, NamesPoint before name

/-- Each of the declarations can come next when its turn is. -/
def Fitting (before ds : List Declaration) : Prop :=
  ∀ pre d post, ds = pre ++ d :: post → d.Fits (before ++ pre)

theorem fitting_nil (before : List Declaration) : Fitting before [] := by
  intro pre d post h
  simp at h

theorem fitting_cons {before rest : List Declaration} {d : Declaration} :
    Fitting before (d :: rest) ↔ d.Fits before ∧ Fitting (before ++ [d]) rest := by
  constructor
  · intro h
    refine ⟨by simpa using h [] d rest rfl, fun pre e post he => ?_⟩
    have hfits := h (d :: pre) e post (by rw [he, List.cons_append])
    simpa using hfits
  · rintro ⟨hd, hrest⟩ pre e post h
    cases pre with
    | nil =>
      cases h
      simpa using hd
    | cons d' pre =>
      cases h
      have hfits := hrest pre e post rfl
      simpa using hfits

theorem nodup_map_iff {α β : Type} {f : α → β} {l : List α} :
    (l.map f).Nodup ↔ ∀ before a after, l = before ++ a :: after → f a ∉ before.map f := by
  constructor
  · rintro h before a after rfl hmem
    rw [List.map_append, List.nodup_append] at h
    exact h.2.2 _ hmem _ List.mem_cons_self rfl
  · intro h
    induction l using List.reverseRecOn with
    | nil => exact List.nodup_nil
    | append_singleton l a ih =>
      have hl : (l.map f).Nodup := ih fun before b after hb =>
        h before b (after ++ [a]) (by simp [hb])
      rw [List.map_append, List.nodup_append]
      refine ⟨hl, List.nodup_singleton _, ?_⟩
      intro x hx y hy hxy
      rw [List.map_singleton, List.mem_singleton] at hy
      exact h l a [] rfl (hy ▸ hxy ▸ hx)

theorem Sketch.wellFormed_iff {s : Sketch} :
    s.WellFormed ↔ Fitting [] s.declarations ∧ ∀ r ∈ s.requirements, r.Fits s.declarations := by
  constructor
  · rintro ⟨hdistinct, hfinite, hends, hrequired⟩
    refine ⟨fun pre d post h => ⟨?_, ?_, ?_⟩, hrequired⟩
    · exact nodup_map_iff.mp hdistinct pre d post h
    · exact hfinite d (by simp [h])
    · exact hends pre d post h
  · rintro ⟨hfitting, hrequired⟩
    refine ⟨nodup_map_iff.mpr fun pre d post h => (hfitting pre d post h).fresh, fun d hd => ?_,
      fun pre d post h => (hfitting pre d post h).ends, hrequired⟩
    obtain ⟨pre, post, h⟩ := List.append_of_mem hd
    exact (hfitting pre d post h).finite

theorem exists_mem_of_forall₂ {α β : Type} {r : α → β → Prop} {l : List α} {m : List β}
    (h : List.Forall₂ r l m) {b : β} (hb : b ∈ m) : ∃ a ∈ l, r a b := by
  induction h with
  | nil => cases hb
  | @cons a b' l m hab _ ih =>
    rcases List.mem_cons.mp hb with rfl | hb
    · exact ⟨a, List.mem_cons_self, hab⟩
    · obtain ⟨a', ha', hr⟩ := ih hb
      exact ⟨a', List.mem_cons_of_mem _ ha', hr⟩

theorem Grammar.DeclarationLine.plain (t : Grammar.DeclarationLine) : t.declaration.Plain := by
  have hname (n : Grammar.Name) : '.' ∉ n.label.toList := by
    intro h
    have hletter := n.uniform '.' (by simpa [Grammar.Name.label] using h)
    rw [Grammar.isLetter_of_lt (by decide)] at hletter
    cases hletter
  cases t <;> exact hname _

/-- All labels of a sketch that was read are plain. -/
theorem Sketch.plain_of_ofText {text : String} {s : Sketch} (h : ofText text = .ok s) :
    ∀ d ∈ s.declarations, d.Plain := by
  obtain ⟨-, declared, -, -, -, -, hd, -, -⟩ := ofLines_eq_ok.mp h
  intro d hmem
  obtain ⟨line, -, hsays⟩ := exists_mem_of_forall₂ hd hmem
  obtain ⟨t, -, rfl⟩ := Grammar.reads_declaration.whole_eq_ok_iff.mp hsays
  exact t.plain

theorem startName_inj {a b : String} : startName a = startName b ↔ a = b := by
  simp [startName]

theorem finishName_inj {a b : String} : finishName a = finishName b ↔ a = b := by
  simp [finishName]

/-- The last letters of the two names differ. -/
theorem startName_ne_finishName_of (a b : String) : startName a ≠ finishName b := by
  intro h
  have hlast := congrArg (fun s => s.toList.getLast?) h
  simp [startName, finishName] at hlast

namespace Declaration

theorem Plain.ne_startName {d : Declaration} (h : d.Plain) (line : String) :
    d.label ≠ startName line := by
  intro he
  apply h
  simp [he, startName]

theorem Plain.ne_finishName {d : Declaration} (h : d.Plain) (line : String) :
    d.label ≠ finishName line := by
  intro he
  apply h
  simp [he, finishName]

end Declaration

end PlaneSketch
