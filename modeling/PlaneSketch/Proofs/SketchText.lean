import Mathlib.Data.List.Forall2
import Mathlib.Data.List.Infix
import PlaneSketch.Proofs.Grammar
import PlaneSketch.Sketch.Reading

namespace PlaneSketch

/-- The same fault on a line with another number. -/
def TextError.renumber (f : Nat → Nat) : TextError → TextError
  | .malformed line text within column => .malformed (f line) text within column
  | .missingHeader expected => .missingHeader expected

namespace SignificantLine

/-- What stands in front of the first `//` of a line, without outer blanks. -/
def contentOf (line : List Char) : List Char :=
  Text.trim (line.take (line.tails.findIdx "//".toList.isPrefixOf))

/-- The lines that have content. Numbers count all lines, up from the given one. -/
def among (number : Nat) (lines : List (List Char)) : List SignificantLine :=
  ((lines.zipIdx number).map fun (line, number) => ⟨number, contentOf line⟩).filter
    (·.content ≠ [])

theorem splitLines_eq (s : List Char) : splitLines s = s.splitOn '\n' := by
  induction s with
  | nil => rfl
  | cons c s ih =>
    rw [splitLines, List.splitOn_cons_eq_if_modifyHead, ih]
    by_cases hc : c = '\n'
    · simp [hc]
    · cases hs : s.splitOn '\n' with
      | nil => exact absurd hs (by simp)
      | cons line rest => simp [hc]

theorem withoutComment_eq (line : List Char) :
    withoutComment line = line.take (line.tails.findIdx "//".toList.isPrefixOf) := by
  fun_induction withoutComment line with
  | case1 => rfl
  | case2 s => rfl
  | case3 c s hc ih =>
    have hfirst : "//".toList.isPrefixOf (c :: s) = false := by
      rw [← Bool.not_eq_true, List.isPrefixOf_iff_prefix]
      rintro ⟨t, ht⟩
      cases ht
      exact hc t rfl rfl
    rw [List.tails_cons, List.findIdx_cons, hfirst, ih]
    rfl

theorem among_cons (number : Nat) (line : List Char) (rest : List (List Char)) :
    among number (line :: rest) =
      if contentOf line = [] then among (number + 1) rest
      else ⟨number, contentOf line⟩ :: among (number + 1) rest := by
  by_cases h : contentOf line = [] <;> simp [among, h]

theorem numbered_eq (number : Nat) (lines : List (List Char)) :
    numbered number lines = among number lines := by
  induction lines generalizing number with
  | nil => rfl
  | cons line rest ih =>
    rw [numbered, among_cons, withoutComment_eq, ih]
    simp only [List.isEmpty_iff]
    rfl

theorem ofText_eq_among (text : String) : ofText text = among 1 (text.toList.splitOn '\n') := by
  rw [ofText, splitLines_eq, numbered_eq]

theorem among_append (number : Nat) (before after : List (List Char)) :
    among number (before ++ after) =
      among number before ++ among (number + before.length) after := by
  simp [among, List.zipIdx_append]

theorem among_eq_nil {lines : List (List Char)} (h : ∀ line ∈ lines, contentOf line = [])
    (number : Nat) : among number lines = [] := by
  induction lines generalizing number with
  | nil => rfl
  | cons line rest ih =>
    rw [among_cons, if_pos (h line (by simp))]
    exact ih (fun l hl => h l (by simp [hl])) _

def renumber (f : Nat → Nat) (line : SignificantLine) : SignificantLine :=
  { line with number := f line.number }

/-- Where lines are inserted, the numbers behind them grow. -/
def shifted (after count number : Nat) : Nat := if number ≤ after then number else number + count

/-- A shift of the numbers of these lines. -/
theorem among_renumber {number number' : Nat} {f : Nat → Nat} {lines : List (List Char)}
    (h : ∀ i < lines.length, f (number + i) = number' + i) :
    among number' lines = (among number lines).map (renumber f) := by
  induction lines generalizing number number' with
  | nil => rfl
  | cons line rest ih =>
    have hrest : among (number' + 1) rest = (among (number + 1) rest).map (renumber f) := by
      refine ih fun i hi => ?_
      have hnext := h (i + 1) (by simpa using hi)
      rw [show number + 1 + i = number + (i + 1) by omega, hnext]
      omega
    rw [among_cons, among_cons, hrest]
    by_cases hc : contentOf line = []
    · rw [if_pos hc, if_pos hc]
    · have hfirst : f number = number' := h 0 (by simp)
      rw [if_neg hc, if_neg hc, List.map_cons, renumber, hfirst]

theorem among_insert (before : List (List Char)) {blanks : List (List Char)}
    (h : ∀ line ∈ blanks, contentOf line = []) (after : List (List Char)) :
    among 1 (before ++ blanks ++ after) =
      (among 1 (before ++ after)).map (renumber (shifted before.length blanks.length)) := by
  rw [among_append, among_append, among_append, among_eq_nil h, List.append_nil, List.map_append]
  congr 1
  · exact among_renumber fun i hi => by simp only [shifted]; split <;> omega
  · exact among_renumber fun i hi => by simp only [shifted, List.length_append]; split <;> omega

/-- `#`, layout and the title of the section. -/
def IsHeader (s : Section) (line : SignificantLine) : Prop :=
  ∃ layout : Grammar.Layout, line.content = "#".toList ++ layout.text ++ s.title.toList

/-- The parser reads all of the line. -/
def Says {α : Type} (p : Parser α) (line : SignificantLine) (a : α) : Prop :=
  p.whole line.content = .ok a

/-- The error tells the line, and the column where the parser stopped. -/
def Misread {α : Type} (p : Parser α) (within : Section) (line : SignificantLine)
    (e : TextError) : Prop :=
  ∃ left, p.whole line.content = .error left ∧
    e = .malformed line.number (String.ofList line.content) within
      (utf8Size line.content - utf8Size left + 1)

theorem reads_header (s : Section) : Parser.Reads (header s)
    (fun t : Grammar.Layout × Unit => "#".toList ++ (t.1.text ++ s.title.toList))
    (fun _ => ()) Text.isSpace :=
  (Grammar.reads_spaces.bind (fun _ => Parser.reads_word s.title Text.isSpace) fun _ _ _ => by
    cases s <;> exact Parser.stops_cons.mpr rfl).after_word "#"

theorem isHeader_iff {s : Section} {line : SignificantLine} :
    line.isHeader s = true ↔ line.IsHeader s := by
  have hok : line.isHeader s = true ↔ (header s).whole line.content = .ok () := by
    unfold isHeader
    cases (header s).whole line.content <;> simp [Except.isOk, Except.toBool]
  rw [hok, (reads_header s).whole_eq_ok_iff]
  constructor
  · rintro ⟨⟨layout, ⟨⟩⟩, ht, -⟩
    exact ⟨layout, by rw [← ht, List.append_assoc]⟩
  · rintro ⟨layout, h⟩
    exact ⟨(layout, ()), by rw [h, List.append_assoc], rfl⟩

/-- A declaration begins with a letter. -/
theorem not_isHeader_of_declaration {line : SignificantLine} {d : Declaration}
    (h : line.Says Declaration.parser d) (s : Section) : ¬ line.IsHeader s := by
  rintro ⟨layout, hl⟩
  obtain ⟨t, ht, -⟩ := Grammar.reads_declaration.whole_eq_ok_iff.mp h
  rw [hl] at ht
  cases t <;> cases ht

theorem read_eq_ok {α : Type} {p : Parser α} {within : Section} {line : SignificantLine} {a : α} :
    line.read within p = .ok a ↔ line.Says p a := by
  unfold read Says
  cases p.whole line.content <;> simp

theorem read_eq_error {α : Type} {p : Parser α} {within : Section} {line : SignificantLine}
    {e : TextError} : line.read within p = .error e ↔ line.Misread p within e := by
  unfold read Misread
  cases p.whole line.content <;> simp [eq_comm (a := e)]

theorem isHeader_renumber (f : Nat → Nat) (s : Section) (line : SignificantLine) :
    (line.renumber f).isHeader s = line.isHeader s := rfl

theorem read_renumber {α : Type} (f : Nat → Nat) (line : SignificantLine) (within : Section)
    (p : Parser α) :
    (line.renumber f).read within p = (line.read within p).mapError (TextError.renumber f) := by
  unfold read renumber
  cases p.whole line.content <;> rfl

end SignificantLine

namespace Sketch

open SignificantLine

/-- A geometry header, declarations, a constraints header and requirements. -/
def Written (lines : List SignificantLine) (s : Sketch) : Prop :=
  ∃ geometry declared constraints required,
    lines = geometry :: (declared ++ constraints :: required) ∧
    geometry.IsHeader .geometry ∧
    List.Forall₂ (Says Declaration.parser) declared s.declarations ∧
    constraints.IsHeader .constraints ∧
    List.Forall₂ (Says Requirement.parser) required s.requirements

/-- How the first line that is out of place, or else the end, shows that this is no sketch. -/
inductive Broken : List SignificantLine → TextError → Prop where
  | empty : Broken [] (.missingHeader .geometry)
  | untitled {line : SignificantLine} {rest : List SignificantLine} :
    ¬ line.IsHeader .geometry → Broken (line :: rest) (.missingHeader .geometry)
  | declaration {geometry bad : SignificantLine} {declared rest : List SignificantLine}
      {e : TextError} :
    geometry.IsHeader .geometry → (∀ line ∈ declared, ∃ d, line.Says Declaration.parser d) →
    ¬ bad.IsHeader .constraints → bad.Misread Declaration.parser .geometry e →
    Broken (geometry :: (declared ++ bad :: rest)) e
  | unfinished {geometry : SignificantLine} {declared : List SignificantLine} :
    geometry.IsHeader .geometry → (∀ line ∈ declared, ∃ d, line.Says Declaration.parser d) →
    Broken (geometry :: declared) (.missingHeader .constraints)
  | requirement {geometry constraints bad : SignificantLine}
      {declared required rest : List SignificantLine} {e : TextError} :
    geometry.IsHeader .geometry → (∀ line ∈ declared, ∃ d, line.Says Declaration.parser d) →
    constraints.IsHeader .constraints →
    (∀ line ∈ required, ∃ r, line.Says Requirement.parser r) →
    bad.Misread Requirement.parser .constraints e →
    Broken (geometry :: (declared ++ constraints :: (required ++ bad :: rest))) e

theorem exists_says {α : Type} {p : Parser α} {lines : List SignificantLine}
    (h : ∀ line ∈ lines, ∃ a, line.Says p a) : ∃ as, List.Forall₂ (Says p) lines as := by
  induction lines with
  | nil => exact ⟨[], .nil⟩
  | cons line rest ih =>
    obtain ⟨a, ha⟩ := h line (by simp)
    obtain ⟨as, has⟩ := ih fun l hl => h l (by simp [hl])
    exact ⟨a :: as, .cons ha has⟩

/-- Lines can be read up to the end, or up to one that cannot. -/
theorem exists_unread {α : Type} (p : Parser α) (within : Section)
    (lines : List SignificantLine) :
    ∃ said rest, lines = said ++ rest ∧ (∀ line ∈ said, ∃ a, line.Says p a) ∧
      ∀ line ∈ rest.head?, ∃ e, line.Misread p within e := by
  induction lines with
  | nil => exact ⟨[], [], rfl, by simp, by simp⟩
  | cons line rest ih =>
    cases hline : line.read within p with
    | error e =>
      refine ⟨[], line :: rest, rfl, by simp, ?_⟩
      rintro l ⟨⟩
      exact ⟨e, read_eq_error.mp hline⟩
    | ok a =>
      obtain ⟨said, unread, rfl, hsaid, hunread⟩ := ih
      refine ⟨line :: said, unread, rfl, ?_, hunread⟩
      rintro l (_ | ⟨_, hl⟩)
      · exact ⟨a, read_eq_ok.mp hline⟩
      · exact hsaid l hl

theorem requirementsOf_append {required : List SignificantLine} {rs : List Requirement}
    (h : List.Forall₂ (Says Requirement.parser) required rs) (rest : List SignificantLine) :
    requirementsOf (required ++ rest) = (requirementsOf rest).map (rs ++ ·) := by
  induction h with
  | nil =>
    rw [List.nil_append]
    cases requirementsOf rest <;> rfl
  | cons hline _ ih =>
    rw [List.cons_append, requirementsOf, read_eq_ok.mpr hline, ih]
    cases requirementsOf rest <;> rfl

theorem requirementsOf_misread {bad : SignificantLine} {e : TextError}
    (h : bad.Misread Requirement.parser .constraints e) (rest : List SignificantLine) :
    requirementsOf (bad :: rest) = .error e := by
  rw [requirementsOf, read_eq_error.mpr h]
  rfl

theorem afterGeometry_append {declared : List SignificantLine} {ds : List Declaration}
    (h : List.Forall₂ (Says Declaration.parser) declared ds) (rest : List SignificantLine) :
    afterGeometry (declared ++ rest) =
      (afterGeometry rest).map fun s => { s with declarations := ds ++ s.declarations } := by
  induction h with
  | nil =>
    rw [List.nil_append]
    cases afterGeometry rest <;> rfl
  | cons hline _ ih =>
    rw [List.cons_append, afterGeometry, read_eq_ok.mpr hline, ih,
      if_neg (mt isHeader_iff.mp (not_isHeader_of_declaration hline _))]
    cases afterGeometry rest <;> rfl

theorem afterGeometry_header {constraints : SignificantLine}
    (h : constraints.IsHeader .constraints) (rest : List SignificantLine) :
    afterGeometry (constraints :: rest) = (requirementsOf rest).map (⟨[], ·⟩) := by
  rw [afterGeometry, if_pos (isHeader_iff.mpr h)]
  cases requirementsOf rest <;> rfl

theorem afterGeometry_misread {bad : SignificantLine} {e : TextError}
    (hbad : ¬ bad.IsHeader .constraints) (h : bad.Misread Declaration.parser .geometry e)
    (rest : List SignificantLine) : afterGeometry (bad :: rest) = .error e := by
  rw [afterGeometry, if_neg (mt isHeader_iff.mp hbad), read_eq_error.mpr h]
  rfl

theorem ofLines_header {geometry : SignificantLine} (h : geometry.IsHeader .geometry)
    (rest : List SignificantLine) : ofLines (geometry :: rest) = afterGeometry rest :=
  if_pos (isHeader_iff.mpr h)

theorem ofLines_of_written {lines : List SignificantLine} {s : Sketch} (h : Written lines s) :
    ofLines lines = .ok s := by
  obtain ⟨geometry, declared, constraints, required, rfl, hg, hd, hc, hr⟩ := h
  rw [ofLines_header hg, afterGeometry_append hd, afterGeometry_header hc,
    ← List.append_nil required, requirementsOf_append hr]
  simp [requirementsOf, Except.map, pure, Except.pure]

theorem ofLines_of_broken {lines : List SignificantLine} {e : TextError} (h : Broken lines e) :
    ofLines lines = .error e := by
  cases h with
  | empty => rfl
  | untitled h => exact if_neg (mt isHeader_iff.mp h)
  | declaration hg hd hb he =>
    obtain ⟨ds, hds⟩ := exists_says hd
    rw [ofLines_header hg, afterGeometry_append hds, afterGeometry_misread hb he]
    rfl
  | @unfinished _ declared hg hd =>
    obtain ⟨ds, hds⟩ := exists_says hd
    rw [ofLines_header hg, ← List.append_nil declared, afterGeometry_append hds]
    rfl
  | requirement hg hd hc hr he =>
    obtain ⟨ds, hds⟩ := exists_says hd
    obtain ⟨rs, hrs⟩ := exists_says hr
    rw [ofLines_header hg, afterGeometry_append hds, afterGeometry_header hc,
      requirementsOf_append hrs, requirementsOf_misread he]
    rfl

theorem written_or_broken (lines : List SignificantLine) :
    (∃ s, Written lines s) ∨ ∃ e, Broken lines e := by
  obtain _ | ⟨geometry, lines⟩ := lines
  · exact .inr ⟨_, .empty⟩
  by_cases hg : geometry.IsHeader .geometry
  swap
  · exact .inr ⟨_, .untitled hg⟩
  obtain ⟨declared, rest, rfl, hd, hrest⟩ := exists_unread Declaration.parser .geometry lines
  obtain _ | ⟨next, lines⟩ := rest
  · rw [List.append_nil]
    exact .inr ⟨_, .unfinished hg hd⟩
  by_cases hc : next.IsHeader .constraints
  swap
  · obtain ⟨e, he⟩ := hrest next rfl
    exact .inr ⟨e, .declaration hg hd hc he⟩
  obtain ⟨required, rest, rfl, hr, hrest⟩ :=
    exists_unread Requirement.parser .constraints lines
  obtain _ | ⟨bad, rest⟩ := rest
  · obtain ⟨ds, hds⟩ := exists_says hd
    obtain ⟨rs, hrs⟩ := exists_says hr
    exact .inl ⟨⟨ds, rs⟩, geometry, declared, next, required, by simp, hg, hds, hc, hrs⟩
  · obtain ⟨e, he⟩ := hrest bad rfl
    exact .inr ⟨e, .requirement hg hd hc hr he⟩

theorem ofLines_eq_ok {lines : List SignificantLine} {s : Sketch} :
    ofLines lines = .ok s ↔ Written lines s := by
  refine ⟨fun h => ?_, ofLines_of_written⟩
  obtain ⟨s', hs⟩ | ⟨e, he⟩ := written_or_broken lines
  · obtain rfl := Except.ok.inj (h.symm.trans (ofLines_of_written hs))
    exact hs
  · cases h.symm.trans (ofLines_of_broken he)

theorem ofLines_eq_error {lines : List SignificantLine} {e : TextError} :
    ofLines lines = .error e ↔ Broken lines e := by
  refine ⟨fun h => ?_, ofLines_of_broken⟩
  obtain ⟨s, hs⟩ | ⟨e', he⟩ := written_or_broken lines
  · cases h.symm.trans (ofLines_of_written hs)
  · obtain rfl := Except.error.inj (h.symm.trans (ofLines_of_broken he))
    exact he

theorem requirementsOf_renumber (f : Nat → Nat) (lines : List SignificantLine) :
    requirementsOf (lines.map (renumber f)) =
      (requirementsOf lines).mapError (TextError.renumber f) := by
  induction lines with
  | nil => rfl
  | cons line rest ih =>
    rw [List.map_cons, requirementsOf, requirementsOf, read_renumber, ih]
    cases line.read .constraints Requirement.parser <;> cases requirementsOf rest <;> rfl

theorem afterGeometry_renumber (f : Nat → Nat) (lines : List SignificantLine) :
    afterGeometry (lines.map (renumber f)) =
      (afterGeometry lines).mapError (TextError.renumber f) := by
  induction lines with
  | nil => rfl
  | cons line rest ih =>
    rw [List.map_cons, afterGeometry, afterGeometry, read_renumber, ih, isHeader_renumber,
      requirementsOf_renumber]
    split
    · cases requirementsOf rest <;> rfl
    · cases line.read .geometry Declaration.parser <;> cases afterGeometry rest <;> rfl

theorem ofLines_renumber (f : Nat → Nat) (lines : List SignificantLine) :
    ofLines (lines.map (renumber f)) = (ofLines lines).mapError (TextError.renumber f) := by
  cases lines with
  | nil => rfl
  | cons line rest =>
    rw [List.map_cons, ofLines, ofLines, isHeader_renumber, afterGeometry_renumber]
    split <;> rfl

/-- Lines without content change nothing but the number in an error. -/
theorem ofText_insert {text text' : String} {before blanks after : List (List Char)}
    (ht : text.toList.splitOn '\n' = before ++ after)
    (ht' : text'.toList.splitOn '\n' = before ++ blanks ++ after)
    (hb : ∀ line ∈ blanks, contentOf line = []) :
    ofText text' =
      (ofText text).mapError (TextError.renumber (shifted before.length blanks.length)) := by
  rw [ofText, ofText, ofText_eq_among, ofText_eq_among, ht, ht', among_insert before hb,
    ofLines_renumber]

/-- A text is a sketch if its lines with content are written like one, and then it is that sketch.
Otherwise the first of them that is out of place, or their end, makes the error. Where lines without
content are put in, only the number in an error changes. -/
theorem ofText_follows_lines :
    (∀ text s, ofText text = .ok s ↔ Written (among 1 (text.toList.splitOn '\n')) s) ∧
    (∀ text e, ofText text = .error e ↔ Broken (among 1 (text.toList.splitOn '\n')) e) ∧
    ∀ text text' before blanks after, text.toList.splitOn '\n' = before ++ after →
      text'.toList.splitOn '\n' = before ++ blanks ++ after →
      (∀ line ∈ blanks, contentOf line = []) →
      ofText text' =
        (ofText text).mapError (TextError.renumber (shifted before.length blanks.length)) := by
  refine ⟨fun text s => ?_, fun text e => ?_, fun _ _ _ _ _ ht ht' hb => ofText_insert ht ht' hb⟩
  · rw [ofText, ofText_eq_among, ofLines_eq_ok]
  · rw [ofText, ofText_eq_among, ofLines_eq_error]

theorem ofText_follows_lines_commented :
    "# geometry\n# constraints\nfixed p".toList.splitOn '\n' =
        ["# geometry".toList] ++ ["# constraints".toList, "fixed p".toList] ∧
    "# geometry\n\n // none\n# constraints\nfixed p".toList.splitOn '\n' =
        ["# geometry".toList] ++ [[], " // none".toList] ++
          ["# constraints".toList, "fixed p".toList] ∧
    (∀ line ∈ [[], " // none".toList], contentOf line = []) ∧
    ofText "# geometry\n# constraints\nfixed p" = .error (.malformed 3 "fixed p" .constraints 1) ∧
    ofText "# geometry\n\n // none\n# constraints\nfixed p" =
        .error (.malformed 5 "fixed p" .constraints 1) := by
  have ht : "# geometry\n# constraints\nfixed p".toList.splitOn '\n' =
      ["# geometry".toList] ++ ["# constraints".toList, "fixed p".toList] := by decide +kernel
  have ht' : "# geometry\n\n // none\n# constraints\nfixed p".toList.splitOn '\n' =
      ["# geometry".toList] ++ [[], " // none".toList] ++
        ["# constraints".toList, "fixed p".toList] := by decide +kernel
  have hb : ∀ line ∈ [[], " // none".toList], contentOf line = [] := by decide +kernel
  have he : ofText "# geometry\n# constraints\nfixed p" =
      .error (.malformed 3 "fixed p" .constraints 1) := by decide +kernel
  refine ⟨ht, ht', hb, he, ?_⟩
  rw [ofText_follows_lines.2.2 _ _ _ _ _ ht ht' hb, he]
  rfl

end Sketch

end PlaneSketch
