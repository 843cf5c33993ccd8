import Mathlib.Control.Monad.Basic
import PlaneSketch.Proofs.Numerals
import PlaneSketch.Sketch.Item

namespace PlaneSketch

open PlaneSketch.Parser Numeral

namespace Grammar

/-- Spaces and tabs that may be missing. -/
abbrev Layout := Span Text.isSpace

/-- Spaces and tabs that must be there. -/
abbrev Gap := NonemptySpan Text.isSpace

abbrev Name := NonemptySpan Label.isLetter

def Name.label (n : Name) : String := String.ofList n.text

abbrev Number := Token number

/-- The layout around a mark. -/
structure Mark where
  before : Layout
  after : Layout

def Mark.text (w : String) (m : Mark) : List Char :=
  [m.before.text, w.toList, m.after.text].flatten

inductive End where
  | start
  | finish

def End.text : End → List Char
  | start => ".start".toList
  | finish => ".end".toList

/-- A name, or that of an end of a line. -/
structure Reference where
  name : Name
  ending : Option End

namespace Reference

def text (r : Reference) : List Char := r.name.text ++ r.ending.elim [] End.text

def label (r : Reference) : String := String.ofList r.text

end Reference

/-- `( x , y )` -/
structure Coordinates where
  opening : Layout
  x : Number
  comma : Mark
  y : Number
  closing : Layout

def Coordinates.text (c : Coordinates) : List Char :=
  ["(".toList, c.opening.text, c.x.text, c.comma.text ",", c.y.text, c.closing.text,
    ")".toList].flatten

inductive Place where
  | coordinates (c : Coordinates)
  | named (r : Reference)

namespace Place

def text : Place → List Char
  | coordinates c => c.text
  | named r => r.text

def spot : Place → Spot
  | coordinates c => .coordinates c.x.value c.y.value
  | named r => .named r.label

end Place

/-- The word that a line begins with, and what comes after it. -/
def sentence (w : String) (parts : List (List Char)) : List Char := w.toList ++ parts.flatten

/-- A line of the first section, with all of its layout. -/
inductive DeclarationLine where
  | point (gap : Gap) (name : Name) (layout : Layout) (place : Coordinates)
  | line (gap : Gap) (name : Name) (gapStart : Gap) (start : Place) (gapFinish : Gap)
      (finish : Place)

namespace DeclarationLine

def text : DeclarationLine → List Char
  | point gap name layout place =>
    sentence "point" [gap.text, name.text, layout.text, place.text]
  | line gap name gapStart start gapFinish finish =>
    sentence "line" [gap.text, name.text, gapStart.text, start.text, gapFinish.text, finish.text]

def declaration : DeclarationLine → Declaration
  | point _ name _ place => .point name.label place.x.value place.y.value
  | line _ name _ start _ finish => .line name.label start.spot finish.spot

end DeclarationLine

/-- `( reference )` -/
structure Argument where
  bracket : Mark
  reference : Reference
  closing : Layout

def Argument.text (a : Argument) : List Char :=
  [a.bracket.text "(", a.reference.text, a.closing.text, ")".toList].flatten

/-- `( first , second )` -/
structure Arguments where
  bracket : Mark
  first : Reference
  comma : Mark
  second : Reference
  closing : Layout

def Arguments.text (a : Arguments) : List Char :=
  [a.bracket.text "(", a.first.text, a.comma.text ",", a.second.text, a.closing.text,
    ")".toList].flatten

/-- `= number` -/
structure Target where
  sign : Mark
  number : Number

def Target.text (t : Target) : List Char := [t.sign.text "=", t.number.text].flatten

/-- A line of the second section, with all of its layout. -/
inductive RequirementLine where
  | fixed (a : Argument)
  | length (a : Argument) (t : Target)
  | angle (a : Arguments) (t : Target)
  | distance (a : Arguments) (t : Target)

namespace RequirementLine

def text : RequirementLine → List Char
  | fixed a => sentence "fixed" [a.text]
  | length a t => sentence "length" [a.text, t.text]
  | angle a t => sentence "angle" [a.text, t.text]
  | distance a t => sentence "distance" [a.text, t.text]

def requirement : RequirementLine → Requirement
  | fixed a => .fixed a.reference.label
  | length a t => .length a.reference.label t.number.value
  | angle a t => .angle a.first.label a.second.label t.number.value
  | distance a t => .distance a.first.label a.second.label t.number.value

end RequirementLine

theorem reads_spaces : Reads spaces (@Span.text Text.isSpace) (fun _ => ()) Text.isSpace :=
  (reads_zeroOrMore Text.isSpace).map fun _ => ()

theorem reads_gap :
    Reads gap (@NonemptySpan.text Text.isSpace) (fun _ => ()) Text.isSpace :=
  (reads_oneOrMore Text.isSpace).map fun _ => ()

theorem reads_mark {w : String} (hw : ∀ rest, Stops Text.isSpace (w.toList ++ rest)) :
    Reads (mark w) (Mark.text w) (fun _ => ()) Text.isSpace := by
  have h := reads_spaces.bind (fun _ => reads_spaces.after_word w) fun t rest _ => by
    rw [List.append_assoc]
    exact hw _
  exact h.reshape ⟨fun m => (m.before, m.after), fun m => ⟨m.1, m.2⟩, fun _ => rfl, fun _ => rfl⟩
    (fun m => by simp [Mark.text]) fun _ => rfl

theorem reads_close (barred : Char → Bool) :
    Reads close (fun l : Layout => l.text ++ ")".toList) (fun _ => ()) barred := by
  have h := reads_spaces.bind (fun _ => reads_word ")" barred) fun _ _ _ => stops_cons.mpr rfl
  exact h.reshape ⟨fun l => (l, ()), fun l => l.1, fun _ => rfl, fun _ => rfl⟩
    (fun _ => rfl) fun _ => rfl

/-- No letter comes before the digits, but all layout and punctuation does. -/
theorem isLetter_of_lt {c : Char} (h : c.toNat < 48) : Label.isLetter c = false := by
  have hranges : Text.lowRanges = (48, 57) :: Text.lowRanges.tail := rfl
  have halphanumeric : Text.isAlphanumeric c = false := by
    unfold Text.isAlphanumeric
    rw [if_pos (by omega), hranges, Text.inRanges, Bool.and_eq_false_imp]
    intro hle
    exact absurd (of_decide_eq_true hle) (by omega)
  have hunderscore : (c == '_') = false := by
    rw [beq_eq_false_iff_ne]
    rintro rfl
    exact absurd h (by decide)
  rw [Label.isLetter, halphanumeric, hunderscore]
  rfl

theorem mayGoOn_of_isLetter (c : Char) (h : Label.isLetter c = true) : mayGoOn c = true := by
  rw [← Bool.not_eq_false]
  intro hd
  have hno : Label.isLetter c = false := by
    rcases mayGoOn_eq_false.mp hd with rfl | rfl | rfl | rfl <;> exact isLetter_of_lt (by decide)
  rw [h] at hno
  cases hno

theorem isSpace_of_isLetter (c : Char) (h : Label.isLetter c = true) : Text.isSpace c = false := by
  have hgo := mayGoOn_of_isLetter c h
  simp only [mayGoOn, isDelimiter, Bool.not_eq_true', Bool.or_eq_false_iff] at hgo
  exact hgo.1.1

theorem reads_declared :
    Reads Label.declared (@NonemptySpan.text Label.isLetter) Name.label Label.isLetter :=
  (reads_oneOrMore Label.isLetter).map String.ofList

theorem reads_suffix (w : String) (barred : Char → Bool) :
    Reads (Label.suffix w) (fun _ : Unit => w.toList) (fun _ => w) barred :=
  (reads_word w barred).map fun _ => w

/-- The two ends are the two alternatives of the parser. -/
def endEquiv : End ≃ Unit ⊕ Unit where
  toFun
    | .start => .inl ()
    | .finish => .inr ()
  invFun
    | .inl () => .start
    | .inr () => .finish
  left_inv e := by cases e <;> rfl
  right_inv e := by rcases e with ⟨⟩ | ⟨⟩ <;> rfl

theorem reads_ending (barred : Char → Bool) :
    Reads ((Label.suffix ".start").orElse (Label.suffix ".end")) End.text
      (fun e => String.ofList e.text) barred := by
  have h := (reads_suffix ".start" barred).orElse (reads_suffix ".end" barred)
    fun _ rest _ a mid hs => by
      obtain ⟨⟨⟩, rest', hword, -⟩ := bind_eq_found.mp hs
      cases word_eq_found.mp hword
  refine h.reshape endEquiv (fun e => ?_) fun e => ?_
  · cases e <;> rfl
  · cases e <;> rfl

theorem ending_ne_found {rest : List Char} (hr : Stops mayGoOn rest) (a : String)
    (mid : List Char) :
    (Label.suffix ".start").orElse (Label.suffix ".end") rest ≠ .found a mid := by
  intro h
  obtain ⟨e, rfl, -⟩ := (reads_ending mayGoOn).sound h
  have hpoint := hr '.' (by cases e <;> rfl)
  cases hpoint

theorem reads_reference : Reads Label.reference Reference.text Reference.label mayGoOn := by
  have hending := (reads_ending mayGoOn).optional ending_ne_found
  have h := reads_declared.bind (fun name => hending.map fun tail => name ++ tail.getD "")
    fun t rest hr => by
      cases t with
      | none => exact hr.mono mayGoOn_of_isLetter
      | some e => cases e <;> exact stops_cons.mpr (isLetter_of_lt (by decide))
  refine h.reshape ⟨fun r => (r.name, r.ending), fun r => ⟨r.1, r.2⟩, fun _ => rfl, fun _ => rfl⟩
    (fun r => rfl) fun r => ?_
  obtain ⟨name, ending⟩ := r
  cases ending with
  | none => simp [Reference.label, Reference.text, Name.label]
  | some e => simp [Reference.label, Reference.text, Name.label]

theorem stops_reference {kind : Char → Bool} (h : ∀ c, Label.isLetter c = true → kind c = false)
    (r : Reference) (rest : List Char) : Stops kind (r.text ++ rest) := by
  rw [Reference.text, List.append_assoc]
  exact stops_nonemptySpan r.name h _

theorem stops_mark {kind : Char → Bool} {w : String}
    (h : ∀ c, Text.isSpace c = true → kind c = false)
    (hw : ∀ rest, Stops kind (w.toList ++ rest)) (m : Mark) (rest : List Char) :
    Stops kind (m.text w ++ rest) := by
  simp only [Mark.text, List.flatten_cons, List.flatten_nil, List.append_nil, List.append_assoc]
  exact stops_span m.before h (hw _)

theorem mayGoOn_of_isSpace (c : Char) (h : Text.isSpace c = true) : mayGoOn c = false := by
  simp [mayGoOn, isDelimiter, h]

theorem stops_close {kind : Char → Bool} (h : ∀ c, Text.isSpace c = true → kind c = false)
    (hclose : kind ')' = false) (l : Layout) (rest : List Char) :
    Stops kind ((l.text ++ ")".toList) ++ rest) := by
  rw [List.append_assoc]
  exact stops_span l h (stops_cons.mpr hclose)

theorem reads_coordinates (barred : Char → Bool) :
    Reads Parser.coordinates Coordinates.text (fun c => (c.x.value, c.y.value)) barred := by
  have hcomma := reads_mark (w := ",") fun _ => stops_cons.mpr rfl
  have h := (reads_spaces.bind (fun _ => reads_number.bind (fun x => hcomma.bind
    (fun _ => reads_number.bind (fun y => (reads_close barred).map fun _ => (x, y))
      fun l rest _ => stops_close mayGoOn_of_isSpace rfl l rest)
    fun t rest _ => ?_)
    fun t rest _ => ?_)
    fun t rest _ => ?_).after_word "("
  · refine h.reshape ⟨fun c => (c.opening, c.x, c.comma, c.y, c.closing),
      fun c => ⟨c.1, c.2.1, c.2.2.1, c.2.2.2.1, c.2.2.2.2⟩, fun _ => rfl, fun _ => rfl⟩
      (fun c => ?_) fun c => rfl
    simp only [Coordinates.text, List.flatten_cons, List.flatten_nil, List.append_nil]
    rfl
  · exact stops_append (stops_number t.1) _ _
  · exact stops_append (stops_mark mayGoOn_of_isSpace (fun _ => stops_cons.mpr rfl) t.1) _ _
  · exact stops_append (stops_number t.1) _ _

theorem coordinates_ne_found {s : List Char} (h : s.head? ≠ some '(') (a : Float × Float)
    (mid : List Char) : Parser.coordinates s ≠ .found a mid :=
  word_bind_ne_found h (by decide) _ a mid

theorem bracket_ne_letter {c : Char} (h : Label.isLetter c = true) : c ≠ '(' := by
  rintro rfl
  rw [isLetter_of_lt (by decide)] at h
  cases h

/-- What follows a reference cannot make its first letter a bracket. -/
theorem head?_reference (r : Reference) (rest : List Char) :
    (r.text ++ rest).head? ≠ some '(' := by
  intro h
  obtain ⟨c, s, hcs⟩ := List.exists_cons_of_ne_nil r.name.nonempty
  rw [Reference.text, hcs] at h
  cases h
  exact bracket_ne_letter (r.name.uniform '(' (by simp [hcs])) rfl

def placeEquiv : Place ≃ Coordinates ⊕ Reference where
  toFun
    | .coordinates c => .inl c
    | .named r => .inr r
  invFun
    | .inl c => .coordinates c
    | .inr r => .named r
  left_inv p := by cases p <;> rfl
  right_inv p := by cases p <;> rfl

theorem reads_place : Reads Spot.parser Place.text Place.spot mayGoOn := by
  have hcoordinates := (reads_coordinates mayGoOn).map fun c => Spot.coordinates c.1 c.2
  have h := hcoordinates.orElse (reads_reference.map Spot.named) fun r rest _ a mid hs => by
    obtain ⟨c, rest', hc, -⟩ := bind_eq_found.mp hs
    exact coordinates_ne_found (head?_reference r rest) c rest' hc
  refine h.reshape placeEquiv (fun p => ?_) fun p => ?_
  · cases p <;> rfl
  · cases p <;> rfl

theorem stops_place (p : Place) (rest : List Char) : Stops Text.isSpace (p.text ++ rest) := by
  cases p with
  | coordinates c => exact stops_cons.mpr rfl
  | named r => exact stops_reference isSpace_of_isLetter r rest

theorem isLetter_of_isSpace (c : Char) (h : Text.isSpace c = true) : Label.isLetter c = false := by
  rw [← Bool.not_eq_true]
  intro hl
  rw [isSpace_of_isLetter c hl] at h
  cases h

theorem stops_name {kind : Char → Bool} (h : ∀ c, Label.isLetter c = true → kind c = false)
    (n : Name) (rest : List Char) : Stops kind (n.text ++ rest) :=
  stops_nonemptySpan n h rest

theorem stops_gap {kind : Char → Bool} (h : ∀ c, Text.isSpace c = true → kind c = false)
    (g : Gap) (rest : List Char) : Stops kind (g.text ++ rest) :=
  stops_nonemptySpan g h rest

theorem reads_point : Reads Declaration.point?
    (fun t : Gap × Name × Layout × Coordinates =>
      "point".toList ++ (t.1.text ++ (t.2.1.text ++ (t.2.2.1.text ++ t.2.2.2.text))))
    (fun t => .point t.2.1.label t.2.2.2.x.value t.2.2.2.y.value) mayGoOn := by
  refine (reads_gap.bind (fun _ => reads_declared.bind (fun label => reads_spaces.bind
    (fun _ => (reads_coordinates mayGoOn).map fun c => Declaration.point label c.1 c.2)
    fun t rest _ => ?_)
    fun t rest _ => ?_)
    fun t rest _ => ?_).after_word "point"
  · exact stops_cons.mpr rfl
  · rw [List.append_assoc]
    exact stops_span t.1 isLetter_of_isSpace (stops_cons.mpr (isLetter_of_lt (by decide)))
  · exact stops_append (stops_name isSpace_of_isLetter t.1) _ _

theorem reads_line : Reads Declaration.line?
    (fun t : Gap × Name × Gap × Place × Gap × Place =>
      "line".toList ++ (t.1.text ++ (t.2.1.text ++ (t.2.2.1.text ++ (t.2.2.2.1.text ++
        (t.2.2.2.2.1.text ++ t.2.2.2.2.2.text))))))
    (fun t => .line t.2.1.label t.2.2.2.1.spot t.2.2.2.2.2.spot) mayGoOn := by
  refine (reads_gap.bind (fun _ => reads_declared.bind (fun label => reads_gap.bind
    (fun _ => reads_place.bind (fun start => reads_gap.bind
      (fun _ => reads_place.map fun finish => Declaration.line label start finish)
    fun t rest _ => ?_)
    fun t rest _ => ?_)
    fun t rest _ => ?_)
    fun t rest _ => ?_)
    fun t rest _ => ?_).after_word "line"
  · exact stops_place t rest
  · exact stops_append (stops_gap mayGoOn_of_isSpace t.1) _ _
  · exact stops_append (stops_place t.1) _ _
  · exact stops_append (stops_gap isLetter_of_isSpace t.1) _ _
  · exact stops_append (stops_name isSpace_of_isLetter t.1) _ _

def declarationEquiv : DeclarationLine ≃
    (Gap × Name × Layout × Coordinates) ⊕ (Gap × Name × Gap × Place × Gap × Place) where
  toFun
    | .point g n l c => .inl (g, n, l, c)
    | .line g n gs s gf f => .inr (g, n, gs, s, gf, f)
  invFun
    | .inl (g, n, l, c) => .point g n l c
    | .inr (g, n, gs, s, gf, f) => .line g n gs s gf f
  left_inv t := by cases t <;> rfl
  right_inv t := by cases t <;> rfl

theorem reads_declaration : Reads Declaration.parser DeclarationLine.text
    DeclarationLine.declaration mayGoOn := by
  have h := reads_point.orElse reads_line fun t rest _ a mid =>
    word_bind_ne_found (by simp) (by decide) _ a mid
  unfold Declaration.parser
  refine h.reshape declarationEquiv (fun t => ?_) fun t => ?_
  · cases t <;> simp [DeclarationLine.text, sentence, declarationEquiv]
  · cases t <;> rfl

theorem reads_bracket : Reads (mark "(") (Mark.text "(") (fun _ => ()) Text.isSpace :=
  reads_mark fun _ => stops_cons.mpr rfl

theorem reads_comma : Reads (mark ",") (Mark.text ",") (fun _ => ()) Text.isSpace :=
  reads_mark fun _ => stops_cons.mpr rfl

theorem reads_equals : Reads equals Target.text (fun t => t.number.value) mayGoOn := by
  have hsign := reads_mark (w := "=") fun _ => stops_cons.mpr rfl
  have h := hsign.bind (fun _ => reads_number) fun t rest _ => stops_number t rest
  exact h.reshape ⟨fun t => (t.sign, t.number), fun t => ⟨t.1, t.2⟩, fun _ => rfl, fun _ => rfl⟩
    (fun t => by simp [Target.text]) fun t => rfl

theorem reads_argument (barred : Char → Bool) :
    Reads argument Argument.text (fun a => a.reference.label) barred := by
  have h := reads_bracket.bind (fun _ => reads_reference.bind
    (fun a => (reads_close barred).map fun _ => a)
    fun l rest _ => stops_close mayGoOn_of_isSpace rfl l rest)
    fun t rest _ => stops_append (stops_reference isSpace_of_isLetter t.1) _ _
  refine h.reshape ⟨fun a => (a.bracket, a.reference, a.closing), fun a => ⟨a.1, a.2.1, a.2.2⟩,
    fun _ => rfl, fun _ => rfl⟩ (fun a => ?_) fun a => rfl
  simp only [Argument.text, List.flatten_cons, List.flatten_nil, List.append_nil]
  rfl

theorem reads_arguments (barred : Char → Bool) :
    Reads arguments Arguments.text (fun a => (a.first.label, a.second.label)) barred := by
  have h := reads_bracket.bind (fun _ => reads_reference.bind (fun a => reads_comma.bind
    (fun _ => reads_reference.bind (fun b => (reads_close barred).map fun _ => (a, b))
      fun l rest _ => stops_close mayGoOn_of_isSpace rfl l rest)
    fun t rest _ => ?_)
    fun t rest _ => ?_)
    fun t rest _ => ?_
  · refine h.reshape ⟨fun a => (a.bracket, a.first, a.comma, a.second, a.closing),
      fun a => ⟨a.1, a.2.1, a.2.2.1, a.2.2.2.1, a.2.2.2.2⟩, fun _ => rfl, fun _ => rfl⟩
      (fun a => ?_) fun a => rfl
    simp only [Arguments.text, List.flatten_cons, List.flatten_nil, List.append_nil]
    rfl
  · exact stops_append (stops_reference isSpace_of_isLetter t.1) _ _
  · exact stops_append (stops_mark mayGoOn_of_isSpace (fun _ => stops_cons.mpr rfl) t.1) _ _
  · exact stops_append (stops_reference isSpace_of_isLetter t.1) _ _

theorem reads_fixed : Reads Requirement.fixed? (fun a : Argument => "fixed".toList ++ a.text)
    (fun a => .fixed a.reference.label) mayGoOn :=
  ((reads_argument mayGoOn).map Requirement.fixed).after_word "fixed"

theorem reads_length : Reads Requirement.length?
    (fun t : Argument × Target => "length".toList ++ (t.1.text ++ t.2.text))
    (fun t => .length t.1.reference.label t.2.number.value) mayGoOn :=
  ((reads_argument fun _ => false).bind (fun l => reads_equals.map (Requirement.length l))
    fun _ _ _ _ _ => rfl).after_word "length"

/-- A requirement on two things begins with a word of its own. -/
theorem reads_pair (w : String) (make : String → String → Float → Requirement) :
    Reads (do
      word w
      let (a, b) ← arguments
      return make a b (← equals))
    (fun t : Arguments × Target => w.toList ++ (t.1.text ++ t.2.text))
    (fun t => make t.1.first.label t.1.second.label t.2.number.value) mayGoOn := by
  have hequals (names : String × String) : Reads (match names with
      | (a, b) => do return make a b (← equals)) Target.text
      (fun t => make names.1 names.2 t.number.value) mayGoOn :=
    reads_equals.map (make names.1 names.2)
  exact ((reads_arguments fun _ => false).bind hequals fun _ _ _ _ _ => rfl).after_word w

def requirementEquiv : RequirementLine ≃
    Argument ⊕ (Argument × Target) ⊕ (Arguments × Target) ⊕ (Arguments × Target) where
  toFun
    | .fixed a => .inl a
    | .length a t => .inr (.inl (a, t))
    | .angle a t => .inr (.inr (.inl (a, t)))
    | .distance a t => .inr (.inr (.inr (a, t)))
  invFun
    | .inl a => .fixed a
    | .inr (.inl (a, t)) => .length a t
    | .inr (.inr (.inl (a, t))) => .angle a t
    | .inr (.inr (.inr (a, t))) => .distance a t
  left_inv t := by cases t <;> rfl
  right_inv t := by rcases t with t | t | t | t <;> rfl

theorem reads_requirement : Reads Requirement.parser RequirementLine.text
    RequirementLine.requirement mayGoOn := by
  have hangle : Reads Requirement.angle? _ _ mayGoOn := reads_pair "angle" Requirement.angle
  have hdistance : Reads Requirement.distance? _ _ mayGoOn :=
    reads_pair "distance" Requirement.distance
  have h := reads_fixed.orElse (reads_length.orElse (hangle.orElse hdistance
    fun t rest _ a mid => word_bind_ne_found (by simp) (by decide) _ a mid)
    fun t rest _ a mid => word_bind_ne_found (by cases t <;> simp) (by decide) _ a mid)
    fun t rest _ a mid =>
      word_bind_ne_found (by rcases t with t | t | t <;> simp) (by decide) _ a mid
  unfold Requirement.parser
  refine h.reshape requirementEquiv (fun t => ?_) fun t => ?_
  · cases t <;> simp [RequirementLine.text, sentence, requirementEquiv]
  · cases t <;> rfl

/-- A line is read as a declaration or as a requirement exactly if the grammar derives it, with the
labels and the numbers of the derivation. No line has two derivations. -/
theorem lines_follow_grammar :
    (∀ s d, Declaration.parser.whole s = .ok d ↔
      ∃ t : DeclarationLine, t.text = s ∧ t.declaration = d) ∧
    (∀ t u : DeclarationLine, t.text = u.text → t = u) ∧
    (∀ s r, Requirement.parser.whole s = .ok r ↔
      ∃ t : RequirementLine, t.text = s ∧ t.requirement = r) ∧
    ∀ t u : RequirementLine, t.text = u.text → t = u :=
  ⟨fun _ _ => reads_declaration.whole_eq_ok_iff, reads_declaration.injective,
    fun _ _ => reads_requirement.whole_eq_ok_iff, reads_requirement.injective⟩

theorem grammar_derives_length :
    (∃! t : RequirementLine, t.text = "length\t( l )= 5".toList) ∧
    (∀ t : RequirementLine, t.text = "length\t( l )= 5".toList →
      t.requirement = .length "l" 5) ∧
    ¬ ∃ t : DeclarationLine, t.text = "pointp (0, 0)".toList := by
  obtain ⟨hdeclaration, -, hrequirement, hunique⟩ := lines_follow_grammar
  have hlength : Requirement.parser.whole "length\t( l )= 5".toList = .ok (.length "l" 5) := by
    decide +kernel
  obtain ⟨t, ht, hr⟩ := (hrequirement _ _).mp hlength
  refine ⟨⟨t, ht, fun u hu => hunique u t (hu.trans ht.symm)⟩, fun u hu => ?_, ?_⟩
  · rw [hunique u t (hu.trans ht.symm), hr]
  · rintro ⟨u, hu⟩
    have hstuck : Declaration.parser.whole "pointp (0, 0)".toList =
        .error "pointp (0, 0)".toList := by decide +kernel
    cases hstuck.symm.trans ((hdeclaration _ _).mpr ⟨u, hu, rfl⟩)

end Grammar

end PlaneSketch
