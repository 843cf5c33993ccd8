import PlaneSketch.Search.Basic

namespace PlaneSketch.Search

/-- On answers of this kind, the search has a result of that kind. -/
def Ensures {α : Type} (answer : List Float → Float → Prop) (post : α → Prop) : Search α → Prop
  | .done a => post a
  | .evaluate x next => ∀ c, answer x c → (next c).Ensures answer post

namespace Ensures

variable {α β σ : Type} {answer : List Float → Float → Prop} {post : α → Prop} {search : Search α}

theorem mono {weaker : α → Prop} (h : search.Ensures answer post) (hw : ∀ a, post a → weaker a) :
    search.Ensures answer weaker := by
  induction search with
  | done a => exact hw a h
  | evaluate x next ih => exact fun c hc => ih c (h c hc)

theorem bind {f : α → Search β} {after : β → Prop} (h : search.Ensures answer post)
    (hf : ∀ a, post a → (f a).Ensures answer after) : (search >>= f).Ensures answer after := by
  induction search with
  | done a => exact hf a h
  | evaluate x next ih => exact fun c hc => ih c (h c hc)

theorem mapCost {f : Float → Float}
    (h : search.Ensures (fun x c => ∃ d, answer x d ∧ c = f d) post) :
    (search.mapCost f).Ensures answer post := by
  induction search with
  | done a => exact h
  | evaluate x next ih => exact fun c hc => ih (f c) (h (f c) ⟨c, hc, rfl⟩)

theorem counted (h : search.Ensures answer post) (asked : Nat) :
    (search.counted asked).Ensures answer fun result => post result.1 := by
  induction search generalizing asked with
  | done a => exact h
  | evaluate x next ih => exact fun c hc => ih c (h c hc) (asked + 1)

/-- The objective gives such answers in every state that it can get into. -/
theorem run {objective : List Float → σ → Float × σ} {holds : σ → Prop}
    (h : search.Ensures answer post)
    (hq : ∀ x s, holds s → answer x (objective x s).1 ∧ holds (objective x s).2) {s : σ}
    (hs : holds s) : post (search.run objective s).1 := by
  induction search generalizing s with
  | done a => exact h
  | evaluate x next ih =>
    obtain ⟨hanswer, hnext⟩ := hq x s hs
    exact ih _ (h _ hanswer) hnext

end Ensures

end PlaneSketch.Search
