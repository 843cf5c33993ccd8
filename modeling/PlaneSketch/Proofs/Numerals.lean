import PlaneSketch.Proofs.Phrase
import PlaneSketch.Sketch.Numeral

namespace PlaneSketch

namespace Parser

variable {α τ υ : Type}

/-- A text that the parser reads to its end. -/
structure Token (p : Parser α) where
  text : List Char
  value : α
  reads : p text = .found value []

theorem Token.text_injective (p : Parser α) : Function.Injective (Token.text (p := p)) := by
  rintro ⟨s, a, hs⟩ ⟨s', b, hs'⟩ (rfl : s = s')
  obtain ⟨rfl, -⟩ := Reply.found.inj (hs.symm.trans hs')
  rfl

theorem Token.text_ne_nil {p : Parser α} (t : Token p)
    (h : ∀ a mid, p [] ≠ .found a mid) : t.text ≠ [] := by
  intro hnil
  have hreads := t.reads
  rw [hnil] at hreads
  exact h _ _ hreads

/-- If a parser reads phrases of any shape, then their texts are all that it reads. -/
theorem Reads.token {p : Parser α} {text : τ → List Char} {value : τ → α} {barred : Char → Bool}
    (h : Reads p text value barred) : Reads p (Token.text (p := p)) Token.value barred where
  sound hs := by
    obtain ⟨t, ht, hv⟩ := h.sound hs
    exact ⟨⟨text t, value t, h.complete_whole t⟩, ht, hv⟩
  complete t rest hr := by
    obtain ⟨u, hu, hv⟩ := h.sound t.reads
    rw [List.append_nil] at hu
    rw [← hu, ← hv]
    exact h.complete u hr
  injective := Token.text_injective p

/-- One parser or another, by the kind of the next character. -/
def ifNext (kind : Char → Bool) (p q : Parser α) : Parser α := fun s =>
  if s.head?.any kind then p s else q s

theorem head?_append_left {s rest : List Char} (h : s ≠ []) : (s ++ rest).head? = s.head? := by
  obtain ⟨c, cs, rfl⟩ := List.exists_cons_of_ne_nil h
  rfl

theorem Reads.ifNext {p q : Parser α} {text : τ → List Char} {text' : υ → List Char}
    {value : τ → α} {value' : υ → α} {barred kind : Char → Bool}
    (hp : Reads p text value barred) (hq : Reads q text' value' barred)
    (nonempty : ∀ t, text t ≠ []) (hk : ∀ c, kind c = true → barred c = true) :
    Reads (ifNext kind p q) (Token.text (p := Parser.ifNext kind p q)) Token.value barred where
  sound {s a rest} hs := by
    unfold Parser.ifNext at hs
    split at hs
    · rename_i hnext
      obtain ⟨t, rfl, rfl⟩ := hp.sound hs
      rw [head?_append_left (nonempty t)] at hnext
      exact ⟨⟨text t, value t, by rw [Parser.ifNext, if_pos hnext, hp.complete_whole t]⟩, rfl, rfl⟩
    · rename_i hnext
      obtain ⟨u, rfl, rfl⟩ := hq.sound hs
      have hown : ¬ (text' u).head?.any kind = true := by
        intro hany
        have hne : text' u ≠ [] := fun he => by simp [he] at hany
        rw [head?_append_left hne] at hnext
        exact hnext hany
      exact ⟨⟨text' u, value' u, by rw [Parser.ifNext, if_neg hown, hq.complete_whole u]⟩, rfl, rfl⟩
  complete t rest hr := by
    have hreads := t.reads
    unfold Parser.ifNext at hreads ⊢
    split at hreads
    · rename_i hnext
      have hne : t.text ≠ [] := fun he => by simp [he] at hnext
      rw [if_pos (by rwa [head?_append_left hne])]
      exact hp.token.complete ⟨t.text, t.value, hreads⟩ hr
    · rename_i hnext
      have hown : ¬ (t.text ++ rest).head?.any kind = true := by
        by_cases he : t.text = []
        · rw [he, List.nil_append]
          intro hany
          obtain ⟨c, hc, hkind⟩ := (Option.any_eq_true ..).mp hany
          exact absurd (hk c hkind) (by simp [hr c hc])
        · rwa [head?_append_left he]
      rw [if_neg hown]
      exact hq.token.complete ⟨t.text, t.value, hreads⟩ hr
  injective := Token.text_injective _

theorem peek_bind_eq {f g : Option Char → Parser α} {kind : Char → Bool} {p : Parser α}
    (hp : ∀ c, kind c = true → f (some c) = p) (hg : ∀ o, o.any kind = false → f o = g o) :
    (peek >>= f) = ifNext kind p (peek >>= g) := by
  funext s
  change f s.head? s = if s.head?.any kind then p s else g s.head? s
  split
  · rename_i h
    obtain ⟨c, hc, hkind⟩ := (Option.any_eq_true ..).mp h
    rw [hc, hp c hkind]
  · rename_i h
    rw [hg _ (Bool.eq_false_iff.mpr h)]

theorem peek_bind_ite (c : Char) (p : Parser α) (g : Option Char → Parser α) :
    (peek >>= fun o => if o = some c then p else g o) = ifNext (· == c) p (peek >>= g) := by
  refine peek_bind_eq (fun d hd => if_pos (congrArg some (beq_iff_eq.mp hd))) fun o ho => ?_
  refine if_neg fun h => ?_
  rw [h, Option.any_some, beq_self_eq_true] at ho
  cases ho

theorem reads_pure (a : α) (barred : Char → Bool) :
    Reads (pure a) (fun _ : Unit => []) (fun _ => a) barred where
  sound hs := by
    cases hs
    exact ⟨(), rfl, rfl⟩
  complete _ _ _ := rfl
  injective _ _ _ := rfl

theorem reads_one (kind barred : Char → Bool) :
    Reads (one kind) (fun c : { c // kind c = true } => [c.val]) Subtype.val barred where
  sound {s a rest} hs := by
    cases s with
    | nil => cases hs
    | cons c s =>
      simp only [one] at hs
      split at hs
      · rename_i hc
        cases hs
        exact ⟨⟨a, hc⟩, rfl, rfl⟩
      · cases hs
  complete c rest _ := by
    rw [List.singleton_append, one, if_pos c.property]
  injective c d h := Subtype.ext (List.head_eq_of_cons_eq h)

theorem reads_anyCase (w : String) (barred : Char → Bool) :
    Reads (anyCase w)
      (fun t : { t // dropWord (fun w c => w == c.toLower) w.toList t = some [] } => t.val)
      (fun _ => ()) barred where
  sound hs := by
    obtain ⟨t, ht, hword⟩ := dropWord_eq_some (anyCase_eq_found.mp hs)
    exact ⟨⟨t, hword⟩, ht, rfl⟩
  complete t rest _ := anyCase_eq_found.mpr (dropWord_append t.property rest)
  injective _ _ h := Subtype.ext h

end Parser

namespace Numeral

open PlaneSketch.Parser

/-- What may follow a number besides the end of the text. -/
def isDelimiter (c : Char) : Bool := Text.isSpace c || c == ',' || c == ')'

/-- All other characters are barred, since a number might go on with them. -/
def mayGoOn (c : Char) : Bool := !isDelimiter c

theorem mayGoOn_eq_false {c : Char} :
    mayGoOn c = false ↔ c = ' ' ∨ c = '\t' ∨ c = ',' ∨ c = ')' := by
  rw [mayGoOn, Bool.not_eq_false']
  simp [isDelimiter, Text.isSpace, or_assoc]

/-- No delimiter is of a kind if the four of them are not. -/
theorem mayGoOn_of_kind {kind : Char → Bool}
    (h : [' ', '\t', ',', ')'].all (!kind ·) = true) (c : Char) (hc : kind c = true) :
    mayGoOn c = true := by
  rw [← Bool.not_eq_false]
  intro hd
  have hmem : c ∈ [' ', '\t', ',', ')'] := by simpa using mayGoOn_eq_false.mp hd
  have hno := List.all_eq_true.mp h c hmem
  rw [hc] at hno
  cases hno

def isMark (c : Char) : Bool := c == 'e' || c == 'E'

/-- An exponent whose mark has been seen. -/
def power : Parser Int := do
  let _ ← Parser.one fun _ => true
  let sign ← Parser.optional (Parser.one isSign)
  let size := ofDigits (← digits)
  return if sign = some '-' then -size else size

theorem exponent_eq : exponent = ifNext isMark power (pure (0 : Int)) := by
  refine peek_bind_eq (g := fun _ => pure 0) (fun c hc => ?_) fun o ho => ?_
  · simp only [isMark, Bool.or_eq_true, beq_iff_eq] at hc
    rcases hc with rfl | rfl <;> rfl
  · split
    · cases ho
    · cases ho
    · rfl

theorem reads_digits {barred : Char → Bool} (h : ∀ c, c.isDigit = true → barred c = true) :
    Reads digits (@NonemptySpan.text Char.isDigit) NonemptySpan.text barred :=
  (reads_oneOrMore Char.isDigit).widen h

theorem isSign_of_isDigit (c : Char) (h : c.isDigit = true) : isSign c = false := by
  rw [← Bool.not_eq_true]
  intro hs
  simp only [isSign, Bool.or_eq_true, beq_iff_eq] at hs
  rcases hs with rfl | rfl <;> cases h

theorem sign_ne_found {rest : List Char} (hr : Stops isSign rest) (c : Char) (mid : List Char) :
    one isSign rest ≠ .found c mid := by
  intro h
  obtain ⟨d, rfl, -⟩ := (reads_one isSign isSign).sound h
  have hsign := d.property
  rw [stops_cons.mp hr] at hsign
  cases hsign

theorem reads_exponent : Reads exponent (Token.text (p := exponent)) Token.value mayGoOn := by
  rw [exponent_eq]
  have hsign := (reads_one isSign isSign).optional sign_ne_found
  refine Reads.ifNext
    ((reads_one _ fun _ => false).bind (fun _ => hsign.bind (fun sign =>
      (reads_digits (mayGoOn_of_kind (by decide))).map _) ?_) ?_)
    (reads_pure 0 _) ?_ (mayGoOn_of_kind (by decide))
  · intro ds rest _
    exact stops_nonemptySpan ds isSign_of_isDigit rest
  · intro t rest _ c _
    rfl
  · intro t h
    cases h

/-- What stands before an exponent may go on with a digit or a point, but not with its mark. -/
def isDecimal (c : Char) : Bool := c.isDigit || c == '.'

theorem isDecimal_of_isDigit (c : Char) (h : c.isDigit = true) : isDecimal c = true := by
  simp [isDecimal, h]

theorem stops_exponent (t : Token exponent) {rest : List Char} (hr : Stops mayGoOn rest) :
    Stops isDecimal (t.text ++ rest) := by
  have hreads := (congrFun exponent_eq t.text).symm.trans t.reads
  cases ht : t.text with
  | nil => exact hr.mono (mayGoOn_of_kind (by decide))
  | cons c s =>
    rw [ht] at hreads
    rw [List.cons_append, stops_cons]
    cases hc : isMark c with
    | false =>
      simp only [ifNext, List.head?_cons, Option.any_some, hc] at hreads
      nomatch (Reply.found.inj hreads).2
    | true =>
      simp only [isMark, Bool.or_eq_true, beq_iff_eq] at hc
      rcases hc with rfl | rfl <;> rfl

def isInitialI (c : Char) : Bool := c == 'i' || c == 'I'

def infinity : Parser Float := do
  Parser.anyCase "inf"
  let _ ← Parser.optional (Parser.anyCase "inity")
  return 1 / 0

def fractional : Parser Float := do
  Parser.word "."
  let fraction ← digits
  let e ← exponent
  return decimal fraction (e - fraction.length)

/-- The point and the digits after it, if there are any. -/
def fraction : Parser (Option (List Char)) := Parser.optional do
  Parser.word "."
  Parser.zeroOrMore Char.isDigit

def mixed : Parser Float := do
  let whole ← digits
  let fraction ← fraction
  let fraction := fraction.getD []
  let e ← exponent
  return decimal (whole ++ fraction) (e - fraction.length)

theorem magnitude_eq :
    magnitude = ifNext isInitialI infinity (ifNext (· == '.') fractional mixed) := by
  have hi : magnitude = ifNext isInitialI infinity
      (peek >>= fun o => if o = some '.' then fractional else mixed) := by
    refine peek_bind_eq (fun c hc => ?_) fun o ho => ?_
    · simp only [isInitialI, Bool.or_eq_true, beq_iff_eq] at hc
      rcases hc with rfl | rfl <;> rfl
    · split
      · cases ho
      · cases ho
      · rfl
      · rename_i hne
        exact (if_neg hne).symm
  rw [hi, peek_bind_ite]
  rfl

theorem inity_ne_found {rest : List Char} (hr : Stops mayGoOn rest) (a : Unit) (mid : List Char) :
    anyCase "inity" rest ≠ .found a mid := by
  intro h
  have hword := anyCase_eq_found.mp h
  cases rest with
  | nil => cases hword
  | cons c rest =>
    rcases mayGoOn_eq_false.mp (stops_cons.mp hr) with rfl | rfl | rfl | rfl <;> cases hword

theorem reads_infinity : Reads infinity (Token.text (p := infinity)) Token.value mayGoOn :=
  Reads.token ((reads_anyCase "inf" fun _ => false).bind (fun _ =>
    ((reads_anyCase "inity" mayGoOn).optional inity_ne_found).map fun _ => (1 / 0 : Float))
    fun _ _ _ _ _ => rfl)

theorem reads_fractional : Reads fractional (Token.text (p := fractional)) Token.value mayGoOn := by
  have hdigits := reads_digits isDecimal_of_isDigit
  exact Reads.token ((hdigits.bind (fun _ => reads_exponent.map _)
    fun t _ hr => stops_exponent t hr).after_word ".")

theorem fraction_ne_found {rest : List Char} (hr : Stops isDecimal rest) (ds : List Char)
    (mid : List Char) : (do word "."; zeroOrMore Char.isDigit) rest ≠ .found ds mid := by
  refine word_bind_ne_found (fun h => ?_) (by decide) _ _ _
  have hpoint := hr '.' h
  cases hpoint

theorem reads_fraction : Reads fraction (Token.text (p := fraction)) Token.value isDecimal := by
  have hdigits := (reads_zeroOrMore Char.isDigit).widen isDecimal_of_isDigit
  exact Reads.token ((hdigits.after_word ".").optional fraction_ne_found)

theorem stops_fraction (t : Token fraction) {rest : List Char} (hr : Stops isDecimal rest) :
    Stops Char.isDigit (t.text ++ rest) := by
  have hdigit : Stops Char.isDigit rest := hr.mono isDecimal_of_isDigit
  rcases optional_eq_found.mp t.reads with ⟨ds, hds, -⟩ | ⟨-, -, hnil⟩
  · obtain ⟨⟨⟩, mid, hpoint, -⟩ := bind_eq_found.mp hds
    rw [word_eq_found.mp hpoint]
    exact stops_cons.mpr rfl
  · rw [hnil]
    exact hdigit

theorem reads_mixed : Reads mixed (Token.text (p := mixed)) Token.value mayGoOn :=
  Reads.token ((reads_digits fun _ => id).bind (fun _ => reads_fraction.bind
    (fun _ => reads_exponent.map _) fun t _ hr => stops_exponent t hr)
    fun t _ hr => by
      rw [List.append_assoc]
      exact stops_fraction t.1 (stops_exponent t.2 hr))

theorem reads_magnitude : Reads magnitude (Token.text (p := magnitude)) Token.value mayGoOn := by
  rw [magnitude_eq]
  refine reads_infinity.ifNext
    (reads_fractional.ifNext reads_mixed (fun t => ?_) (mayGoOn_of_kind (by decide)))
    (fun t => ?_) (mayGoOn_of_kind (by decide))
  · exact Token.text_ne_nil t fun _ _ h => by cases h
  · exact Token.text_ne_nil t fun _ _ h => by cases h

def isInitialN (c : Char) : Bool := c == 'n' || c == 'N'

def undefined : Parser Float := do
  Parser.anyCase "nan"
  return 0 / 0

def positive : Parser Float := do
  Parser.word "+"
  magnitude

def negative : Parser Float := do
  Parser.word "-"
  return -(← magnitude)

theorem number_eq : number = ifNext isInitialN undefined
    (ifNext (· == '+') positive (ifNext (· == '-') negative magnitude)) := by
  have hn : number = ifNext isInitialN undefined (peek >>= fun o =>
      if o = some '+' then positive else if o = some '-' then negative else magnitude) := by
    refine peek_bind_eq (fun c hc => ?_) fun o ho => ?_
    · simp only [isInitialN, Bool.or_eq_true, beq_iff_eq] at hc
      rcases hc with rfl | rfl <;> rfl
    · split
      · cases ho
      · cases ho
      · rfl
      · rfl
      · rename_i hplus hminus
        exact ((if_neg hplus).trans (if_neg hminus)).symm
  rw [hn, peek_bind_ite, peek_bind_ite]
  rfl

/-- Numbers are read up to their ends where nothing follows that they might go on with. -/
theorem reads_number : Reads number (Token.text (p := number)) Token.value mayGoOn := by
  have hundefined : Reads undefined (Token.text (p := undefined)) Token.value mayGoOn :=
    Reads.token ((reads_anyCase "nan" mayGoOn).map fun _ => (0 / 0 : Float))
  have hpositive : Reads positive (Token.text (p := positive)) Token.value mayGoOn :=
    Reads.token (reads_magnitude.after_word "+")
  have hnegative : Reads negative (Token.text (p := negative)) Token.value mayGoOn :=
    Reads.token ((reads_magnitude.map fun x => -x).after_word "-")
  rw [number_eq]
  refine hundefined.ifNext (hpositive.ifNext (hnegative.ifNext reads_magnitude
    (fun t => ?_) (mayGoOn_of_kind (by decide))) (fun t => ?_) (mayGoOn_of_kind (by decide)))
    (fun t => ?_) (mayGoOn_of_kind (by decide))
  · exact Token.text_ne_nil t fun _ _ h => by cases h
  · exact Token.text_ne_nil t fun _ _ h => by cases h
  · exact Token.text_ne_nil t fun _ _ h => by cases h

theorem stops_number (t : Token number) (rest : List Char) :
    Stops Text.isSpace (t.text ++ rest) := by
  have hreads := t.reads
  cases ht : t.text with
  | nil =>
    rw [ht] at hreads
    cases hreads
  | cons c s =>
    rw [ht] at hreads
    rw [List.cons_append, stops_cons, ← Bool.not_eq_true]
    intro hc
    simp only [Text.isSpace, Bool.or_eq_true, beq_iff_eq] at hc
    rcases hc with rfl | rfl <;> cases hreads

end Numeral

end PlaneSketch
