import Mathlib.Logic.Equiv.Defs
import PlaneSketch.Sketch.Parser

namespace PlaneSketch

namespace Parser

variable {α β σ τ υ : Type}

/-- The text is at its end, or goes on with a character of another kind. -/
def Stops (kind : Char → Bool) (rest : List Char) : Prop := ∀ c ∈ rest.head?, kind c = false

theorem stops_nil (kind : Char → Bool) : Stops kind [] := fun _ h => nomatch h

theorem stops_cons {kind : Char → Bool} {c : Char} {rest : List Char} :
    Stops kind (c :: rest) ↔ kind c = false := by
  simp [Stops]

theorem Stops.mono {kind wider : Char → Bool} {rest : List Char} (h : Stops wider rest)
    (hk : ∀ c, kind c = true → wider c = true) : Stops kind rest := by
  intro c hc
  rw [← Bool.not_eq_true]
  intro ht
  exact absurd (hk c ht) (by simp [h c hc])

/-- Only the first part of a text matters, if it stops the kind before any other text. -/
theorem stops_append {kind : Char → Bool} {s : List Char} (h : ∀ rest, Stops kind (s ++ rest))
    (s' rest : List Char) : Stops kind ((s ++ s') ++ rest) := by
  rw [List.append_assoc]
  exact h _

theorem bind_of_found {p : Parser α} {s mid : List Char} {a : α} (h : p s = .found a mid)
    (f : α → Parser β) : (p >>= f) s = f a mid := by
  simp only [bind, h]

theorem bind_eq_found {p : Parser α} {f : α → Parser β} {s rest : List Char} {b : β} :
    (p >>= f) s = .found b rest ↔ ∃ a mid, p s = .found a mid ∧ f a mid = .found b rest := by
  cases hp : p s with
  | found a mid =>
    rw [bind_of_found hp]
    refine ⟨fun h => ⟨a, mid, rfl, h⟩, ?_⟩
    rintro ⟨_, _, hfound, h⟩
    cases hfound
    exact h
  | stopped mid => simp [bind, hp]

theorem orElse_eq_found {p q : Parser α} {s rest : List Char} {a : α} :
    p.orElse q s = .found a rest ↔
      p s = .found a rest ∨ (∀ b mid, p s ≠ .found b mid) ∧ q s = .found a rest := by
  unfold orElse
  cases p s <;> simp

theorem optional_eq_found {p : Parser α} {s rest : List Char} {o : Option α} :
    p.optional s = .found o rest ↔
      (∃ a, p s = .found a rest ∧ o = some a) ∨
      (∀ b mid, p s ≠ .found b mid) ∧ o = none ∧ s = rest := by
  unfold optional
  cases p s with
  | found a mid => simp [and_assoc, eq_comm (a := o), and_comm (a := some a = o)]
  | stopped mid => simp [eq_comm (a := o)]

theorem whole_eq_ok {p : Parser α} {s : List Char} {a : α} :
    p.whole s = .ok a ↔ p s = .found a [] := by
  unfold whole
  rcases p s with ⟨b, _ | ⟨c, rest⟩⟩ | rest <;> simp

/-- The parser finds the values of phrases at the front of what it is given, and always does where
none of the barred characters follows. A text is that of one phrase only. -/
structure Reads (p : Parser α) (text : τ → List Char) (value : τ → α) (barred : Char → Bool) :
    Prop where
  sound : ∀ {s a rest}, p s = .found a rest → ∃ t, text t ++ rest = s ∧ value t = a
  complete : ∀ t {rest}, Stops barred rest → p (text t ++ rest) = .found (value t) rest
  injective : Function.Injective text

namespace Reads

variable {p : Parser α} {text : τ → List Char} {value : τ → α} {barred : Char → Bool}

theorem complete_whole (h : Reads p text value barred) (t : τ) :
    p (text t) = .found (value t) [] := by
  simpa using h.complete t (stops_nil barred)

/-- Reading a whole text, the parser finds the value of the only phrase that has it. -/
theorem whole_eq_ok_iff (h : Reads p text value barred) {s : List Char} {a : α} :
    p.whole s = .ok a ↔ ∃ t, text t = s ∧ value t = a := by
  rw [whole_eq_ok]
  constructor
  · intro hs
    obtain ⟨t, ht, ha⟩ := h.sound hs
    exact ⟨t, by simpa using ht, ha⟩
  · rintro ⟨t, rfl, rfl⟩
    exact h.complete_whole t

theorem widen (h : Reads p text value barred) {wider : Char → Bool}
    (hk : ∀ c, barred c = true → wider c = true) : Reads p text value wider :=
  ⟨h.sound, fun t _ hr => h.complete t (hr.mono hk), h.injective⟩

/-- The same phrases in another shape. -/
theorem reshape (h : Reads p text value barred) (e : σ ≃ τ) {text' : σ → List Char}
    {value' : σ → α} (ht : ∀ t, text' t = text (e t)) (hv : ∀ t, value' t = value (e t)) :
    Reads p text' value' barred where
  sound hs := by
    obtain ⟨t, ht', ha⟩ := h.sound hs
    exact ⟨e.symm t, by simpa [ht] using ht', by simpa [hv] using ha⟩
  complete t rest hr := by
    rw [ht, hv]
    exact h.complete (e t) hr
  injective t u htu := by
    rw [ht, ht] at htu
    exact e.injective (h.injective htu)

theorem map (h : Reads p text value barred) (g : α → β) :
    Reads (p >>= fun a => pure (g a)) text (fun t => g (value t)) barred where
  sound hs := by
    obtain ⟨a, mid, ha, hb⟩ := bind_eq_found.mp hs
    cases hb
    obtain ⟨t, ht, rfl⟩ := h.sound ha
    exact ⟨t, ht, rfl⟩
  complete t rest hr := bind_of_found (h.complete t hr) _
  injective := h.injective

/-- One phrase after another. The first must be told apart from the second one. -/
theorem bind (h : Reads p text value barred) {f : α → Parser β} {text' : υ → List Char}
    {value' : α → υ → β} {barred' : Char → Bool}
    (hf : ∀ a, Reads (f a) text' (value' a) barred')
    (apart : ∀ u {rest}, Stops barred' rest → Stops barred (text' u ++ rest)) :
    Reads (p >>= f) (fun t : τ × υ => text t.1 ++ text' t.2)
      (fun t => value' (value t.1) t.2) barred' where
  sound hs := by
    obtain ⟨a, mid, ha, hb⟩ := bind_eq_found.mp hs
    obtain ⟨t, rfl, rfl⟩ := h.sound ha
    obtain ⟨u, rfl, rfl⟩ := (hf (value t)).sound hb
    exact ⟨(t, u), List.append_assoc _ _ _, rfl⟩
  complete t rest hr := by
    rw [List.append_assoc, bind_of_found (h.complete t.1 (apart t.2 hr))]
    exact (hf _).complete t.2 hr
  injective := by
    intro ⟨t, u⟩ ⟨t', u'⟩ heq
    dsimp only at heq
    -- The parser finds where the first phrase ends, and so this is the same place in both.
    have hend (v : υ) : Stops barred (text' v) := by simpa using apart v (stops_nil barred')
    have hfound := (h.complete t (hend u)).symm.trans (heq ▸ h.complete t' (hend u'))
    obtain ⟨-, hrest⟩ := Reply.found.inj hfound
    rw [hrest, List.append_cancel_right_eq] at heq
    rw [h.injective heq, (hf (value t)).injective hrest]

theorem orElse {p q : Parser α} {text' : υ → List Char} {value' : υ → α}
    (hp : Reads p text value barred) (hq : Reads q text' value' barred)
    (apart : ∀ u {rest}, Stops barred rest → ∀ a mid, p (text' u ++ rest) ≠ .found a mid) :
    Reads (p.orElse q) (Sum.elim text text') (Sum.elim value value') barred where
  sound hs := by
    rcases orElse_eq_found.mp hs with hs | ⟨-, hs⟩
    · obtain ⟨t, ht, hv⟩ := hp.sound hs
      exact ⟨.inl t, ht, hv⟩
    · obtain ⟨u, hu, hv⟩ := hq.sound hs
      exact ⟨.inr u, hu, hv⟩
  complete t rest hr := by
    cases t with
    | inl t => exact orElse_eq_found.mpr (.inl (hp.complete t hr))
    | inr u => exact orElse_eq_found.mpr (.inr ⟨apart u hr, hq.complete u hr⟩)
  injective := by
    have hne (t : τ) (u : υ) : text t ≠ text' u := by
      intro heq
      have hstop := apart u (stops_nil barred) (value t) []
      rw [List.append_nil, ← heq] at hstop
      exact hstop (hp.complete_whole t)
    intro t u heq
    cases t <;> cases u
    · exact congrArg Sum.inl (hp.injective heq)
    · exact (hne _ _ heq).elim
    · exact (hne _ _ heq.symm).elim
    · exact congrArg Sum.inr (hq.injective heq)

theorem optional (h : Reads p text value barred)
    (apart : ∀ {rest}, Stops barred rest → ∀ a mid, p rest ≠ .found a mid) :
    Reads p.optional (fun t => t.elim [] text) (Option.map value) barred where
  sound hs := by
    rcases optional_eq_found.mp hs with ⟨a, ha, rfl⟩ | ⟨-, rfl, rfl⟩
    · obtain ⟨t, ht, rfl⟩ := h.sound ha
      exact ⟨some t, ht, rfl⟩
    · exact ⟨none, rfl, rfl⟩
  complete t rest hr := by
    cases t with
    | none => exact optional_eq_found.mpr (.inr ⟨apart hr, rfl, rfl⟩)
    | some t => exact optional_eq_found.mpr (.inl ⟨value t, h.complete t hr, rfl⟩)
  injective := by
    have hne (t : τ) : text t ≠ [] := by
      intro heq
      have hfound := h.complete_whole t
      rw [heq] at hfound
      exact apart (stops_nil barred) _ _ hfound
    intro t u heq
    cases t <;> cases u
    · rfl
    · exact (hne _ heq.symm).elim
    · exact (hne _ heq).elim
    · exact congrArg some (h.injective heq)

end Reads

theorem dropWord_cons {same : Char → Char → Bool} {c : Char} {w s rest : List Char} :
    dropWord same (c :: w) s = some rest ↔
      ∃ d s', s = d :: s' ∧ same c d = true ∧ dropWord same w s' = some rest := by
  cases s with
  | nil => exact iff_of_false nofun fun ⟨_, _, hs, _⟩ => nomatch hs
  | cons d s =>
    change (if same c d = true then dropWord same w s else none) = some rest ↔ _
    rw [Option.ite_none_right_eq_some]
    constructor
    · exact fun h => ⟨d, s, rfl, h⟩
    · rintro ⟨_, _, ⟨⟩, h⟩
      exact h

theorem dropWord_append {same : Char → Char → Bool} {w s : List Char}
    (h : dropWord same w s = some []) (rest : List Char) :
    dropWord same w (s ++ rest) = some rest := by
  induction w generalizing s with
  | nil =>
    cases h
    rfl
  | cons c w ih =>
    obtain ⟨d, s, rfl, hcd, hs⟩ := dropWord_cons.mp h
    exact dropWord_cons.mpr ⟨d, s ++ rest, rfl, hcd, ih hs⟩

theorem dropWord_eq_some {same : Char → Char → Bool} {w s rest : List Char}
    (h : dropWord same w s = some rest) : ∃ t, t ++ rest = s ∧ dropWord same w t = some [] := by
  induction w generalizing s with
  | nil =>
    cases h
    exact ⟨[], rfl, rfl⟩
  | cons c w ih =>
    obtain ⟨d, s, rfl, hcd, hs⟩ := dropWord_cons.mp h
    obtain ⟨t, rfl, ht⟩ := ih hs
    exact ⟨d :: t, rfl, dropWord_cons.mpr ⟨d, t, rfl, hcd, ht⟩⟩

theorem dropWord_beq {w s : List Char} :
    dropWord (· == ·) w s = some [] ↔ s = w := by
  induction w generalizing s with
  | nil => exact Option.some_inj
  | cons c w ih =>
    simp only [dropWord_cons, ih, beq_iff_eq]
    constructor
    · rintro ⟨_, _, rfl, rfl, rfl⟩
      rfl
    · rintro rfl
      exact ⟨c, w, rfl, rfl, rfl⟩

theorem word_eq_found {w : String} {s rest : List Char} :
    word w s = .found () rest ↔ s = w.toList ++ rest := by
  have hword : word w s = .found () rest ↔ dropWord (· == ·) w.toList s = some rest := by
    unfold word
    cases dropWord (· == ·) w.toList s <;> simp
  rw [hword]
  constructor
  · intro h
    obtain ⟨t, rfl, ht⟩ := dropWord_eq_some h
    rw [dropWord_beq.mp ht]
  · rintro rfl
    exact dropWord_append (dropWord_beq.mpr rfl) rest

theorem anyCase_eq_found {w : String} {s rest : List Char} :
    anyCase w s = .found () rest ↔
      dropWord (fun w c => w == c.toLower) w.toList s = some rest := by
  unfold anyCase
  cases dropWord (fun w c => w == c.toLower) w.toList s <;> simp

/-- A word is not found in front of a text that starts with another character. -/
theorem word_bind_ne_found {w : String} {s : List Char} (h : s.head? ≠ w.toList.head?)
    (hw : w.toList ≠ []) (f : Unit → Parser α) (a : α) (rest : List Char) :
    (word w >>= f) s ≠ .found a rest := by
  intro hs
  obtain ⟨⟨⟩, mid, hfound, -⟩ := bind_eq_found.mp hs
  obtain ⟨c, cs, hcs⟩ := List.exists_cons_of_ne_nil hw
  rw [word_eq_found.mp hfound, hcs] at h
  exact h rfl

theorem Reads.after_word {p : Parser α} {text : τ → List Char} {value : τ → α}
    {barred : Char → Bool} (h : Reads p text value barred) (w : String) :
    Reads (word w >>= fun _ => p) (fun t => w.toList ++ text t) value barred where
  sound hs := by
    obtain ⟨⟨⟩, mid, hfound, hp⟩ := bind_eq_found.mp hs
    obtain ⟨t, rfl, rfl⟩ := h.sound hp
    exact ⟨t, by rw [word_eq_found.mp hfound, List.append_assoc], rfl⟩
  complete t rest hr := by
    rw [List.append_assoc, bind_of_found (word_eq_found.mpr rfl)]
    exact h.complete t hr
  injective t u heq := h.injective (List.append_cancel_left heq)

theorem reads_word (w : String) (barred : Char → Bool) :
    Reads (word w) (fun _ : Unit => w.toList) id barred where
  sound hs := ⟨(), (word_eq_found.mp hs).symm, rfl⟩
  complete _ _ _ := word_eq_found.mpr rfl
  injective _ _ _ := rfl

end Parser

/-- Characters of one kind. -/
@[ext]
structure Span (kind : Char → Bool) where
  text : List Char
  uniform : ∀ c ∈ text, kind c = true

/-- Characters of one kind, at least one. -/
@[ext]
structure NonemptySpan (kind : Char → Bool) where
  text : List Char
  uniform : ∀ c ∈ text, kind c = true
  nonempty : text ≠ []

namespace Parser

variable {kind : Char → Bool}

theorem takeWhile_append_of_stops {s rest : List Char} (hs : ∀ c ∈ s, kind c = true)
    (hr : Stops kind rest) :
    (s ++ rest).takeWhile kind = s ∧ (s ++ rest).dropWhile kind = rest := by
  rw [List.takeWhile_append_of_pos hs, List.dropWhile_append_of_pos hs]
  cases rest with
  | nil => simp
  | cons c rest => simp [stops_cons.mp hr]

theorem reads_zeroOrMore (kind : Char → Bool) :
    Reads (zeroOrMore kind) (@Span.text kind) Span.text kind where
  sound hs := by
    cases hs
    exact ⟨⟨_, List.all_eq_true.mp List.all_takeWhile⟩, List.takeWhile_append_dropWhile, rfl⟩
  complete t rest hr := by
    obtain ⟨htake, hdrop⟩ := takeWhile_append_of_stops t.uniform hr
    rw [zeroOrMore, htake, hdrop]
  injective _ _ h := Span.ext h

theorem reads_oneOrMore (kind : Char → Bool) :
    Reads (oneOrMore kind) (@NonemptySpan.text kind) NonemptySpan.text kind where
  sound hs := by
    unfold oneOrMore at hs
    split at hs
    · cases hs
    · rename_i hne
      cases hs
      exact ⟨⟨_, List.all_eq_true.mp List.all_takeWhile, by simpa using hne⟩,
        List.takeWhile_append_dropWhile, rfl⟩
  complete t rest hr := by
    obtain ⟨htake, hdrop⟩ := takeWhile_append_of_stops t.uniform hr
    rw [oneOrMore, htake, hdrop, if_neg (by simpa using t.nonempty)]
  injective _ _ h := NonemptySpan.ext h

theorem stops_span {other : Char → Bool} (t : Span kind)
    (h : ∀ c, kind c = true → other c = false) {rest : List Char} (hr : Stops other rest) :
    Stops other (t.text ++ rest) := by
  cases ht : t.text with
  | nil => exact hr
  | cons c s => exact stops_cons.mpr (h c (t.uniform c (by simp [ht])))

theorem stops_nonemptySpan {other : Char → Bool} (t : NonemptySpan kind)
    (h : ∀ c, kind c = true → other c = false) (rest : List Char) :
    Stops other (t.text ++ rest) := by
  obtain ⟨c, s, ht⟩ := List.exists_cons_of_ne_nil t.nonempty
  rw [ht]
  exact stops_cons.mpr (h c (t.uniform c (by simp [ht])))

end Parser

end PlaneSketch
