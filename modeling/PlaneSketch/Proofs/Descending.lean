import PlaneSketch.Proofs.Comparison
import PlaneSketch.Proofs.SearchLogic
import PlaneSketch.Search.Descent

namespace PlaneSketch

variable {answer : List Float → Float → Prop}

namespace Vertex

/-- The vertex has a cost that it may have been told. -/
def Priced (answer : List Float → Float → Prop) (v : Vertex) : Prop := answer v.x v.cost

theorem evaluate_ensures (x : List Float) :
    (evaluate x).Ensures answer fun v => v.x = x ∧ v.Priced answer :=
  fun _ hc => ⟨rfl, hc⟩

theorem evaluateAll_ensures (xs : List (List Float)) :
    (evaluateAll xs).Ensures answer fun vs => ∀ v ∈ vs, v.Priced answer := by
  induction xs with
  | nil => exact fun _ hv => nomatch hv
  | cons x xs ih =>
    refine (evaluate_ensures x).bind fun v hv => ih.bind fun vs hvs => ?_
    intro w hw
    rcases List.mem_cons.mp hw with rfl | hw
    · exact hv.2
    · exact hvs w hw

theorem insert_perm (v : Vertex) (ws : List Vertex) : (insert v ws).Perm (v :: ws) := by
  induction ws with
  | nil => exact .refl _
  | cons w ws ih =>
    unfold insert
    split
    · exact .refl _
    · exact (ih.cons w).trans (.swap v w ws)

theorem sort_perm (vs : List Vertex) : (sort vs).Perm vs := by
  induction vs with
  | nil => exact .refl _
  | cons v vs ih => exact (insert_perm v (sort vs)).trans (ih.cons v)

/-- The first vertex in ascending order costs no more than any other. -/
theorem le_of_sort {vs rest : List Vertex} {best : Vertex}
    (hn : ∀ v ∈ vs, v.cost.isNaN = false) (h : sort vs = best :: rest) :
    ∀ v ∈ vs, best.cost ≤ v.cost := by
  induction vs generalizing best rest with
  | nil => cases h
  | cons w ws ih =>
    have hw := hn w List.mem_cons_self
    have hws (v : Vertex) (hv : v ∈ ws) := hn v (List.mem_cons_of_mem w hv)
    change insert w (sort ws) = best :: rest at h
    cases hs : sort ws with
    | nil =>
      have hnil : ws = [] := (hs ▸ sort_perm ws).symm.eq_nil
      rw [hs] at h
      cases h
      intro v hv
      rw [hnil] at hv
      obtain rfl := List.mem_singleton.mp hv
      exact Number.le_refl hw
    | cons b bs =>
      have hb : b.cost.isNaN = false := hws b ((sort_perm ws).mem_iff.mp (hs ▸ List.mem_cons_self))
      have hleast := ih hws hs
      rw [hs] at h
      unfold insert at h
      intro v hv
      split at h <;> cases h <;> rcases List.mem_cons.mp hv with rfl | hv
      · exact Number.le_refl hw
      · exact Number.le_trans ‹_› (hleast v hv)
      · exact Number.le_of_not_le hw hb ‹_›
      · exact hleast v hv

end Vertex

namespace Simplex

def vertices (s : Simplex) : List Vertex := s.best :: s.rest

def Priced (answer : List Float → Float → Prop) (s : Simplex) : Prop :=
  ∀ v ∈ s.vertices, v.Priced answer

theorem vertices_order (first : Vertex) (others : List Vertex) :
    (order first others).vertices = Vertex.sort (first :: others) := by
  unfold order
  cases h : Vertex.sort (first :: others) with
  | nil =>
    have hl := (Vertex.sort_perm (first :: others)).length_eq
    rw [h] at hl
    cases hl
  | cons best rest => rfl

theorem order_priced {first : Vertex} {others : List Vertex}
    (h : ∀ v ∈ first :: others, v.Priced answer) : (order first others).Priced answer := by
  intro v hv
  rw [vertices_order] at hv
  exact h v ((Vertex.sort_perm _).mem_iff.mp hv)

theorem best_order_le {first : Vertex} {others : List Vertex}
    (hn : ∀ v ∈ first :: others, v.cost.isNaN = false) :
    (order first others).best.cost ≤ first.cost :=
  Vertex.le_of_sort hn (vertices_order first others).symm first List.mem_cons_self

theorem replaceWorst_priced {s : Simplex} {v : Vertex} (hs : s.Priced answer)
    (hv : v.Priced answer) : (s.replaceWorst v).Priced answer := by
  apply order_priced
  intro w hw
  rcases List.mem_cons.mp hw with rfl | hw
  · exact hs _ List.mem_cons_self
  · rcases List.mem_append.mp hw with hw | hw
    · exact hs w (List.mem_cons_of_mem _ (List.dropLast_subset _ hw))
    · exact List.mem_singleton.mp hw ▸ hv

theorem shrink_ensures {s : Simplex} (hs : s.Priced answer) :
    s.shrink.Ensures answer (Priced answer) := by
  refine (Vertex.evaluateAll_ensures _).bind fun moved hmoved => order_priced fun v hv => ?_
  rcases List.mem_cons.mp hv with rfl | hv
  · exact hs _ List.mem_cons_self
  · exact hmoved v hv

/-- Whatever vertex comes into the simplex, it is evaluated first. -/
theorem step_ensures {s : Simplex} (hs : s.Priced answer) :
    s.step.Ensures answer (Priced answer) := by
  unfold step
  refine (Vertex.evaluate_ensures _).bind fun reflected hr => ?_
  split
  · exact replaceWorst_priced hs hr.2
  · split
    · refine (Vertex.evaluate_ensures _).bind fun expanded he => ?_
      refine replaceWorst_priced hs ?_
      split
      · exact he.2
      · exact hr.2
    · split
      all_goals
        refine (Vertex.evaluate_ensures _).bind fun contracted hc => ?_
        split
        · exact replaceWorst_priced hs hc.2
        · exact shrink_ensures hs

end Simplex

namespace Descent

/-- The best vertex and those of the simplex are priced, and the best costs at most so much. -/
structure Within (answer : List Float → Float → Prop) (bound : Float) (d : Descent) : Prop where
  best : d.best.Priced answer
  simplex : d.simplex.Priced answer
  low : d.best.cost ≤ bound

theorem le_of_better {a b : Float} (h : (decide (a < b) || (a.isInf && a == b)) = true) : a ≤ b := by
  rcases Bool.or_eq_true_iff.mp h with h | h
  · exact Number.le_of_lt (of_decide_eq_true h)
  · exact Number.le_of_beq (Bool.and_eq_true_iff.mp h).2

theorem Within.advance {bound : Float} {d : Descent} {s : Simplex} (h : d.Within answer bound)
    (hs : s.Priced answer) : (d.advance s).Within answer bound := by
  refine ⟨?_, hs, ?_⟩ <;> unfold Descent.advance <;> dsimp only <;> split
  · exact hs _ List.mem_cons_self
  · exact h.best
  · exact Number.le_trans (le_of_better ‹_›) h.low
  · exact h.low

theorem go_ensures (tolerance : Float) (left : Nat) {bound : Float} {d : Descent}
    (h : d.Within answer bound) :
    (go tolerance left d).Ensures answer fun result => result.1.Within answer bound := by
  induction left generalizing d with
  | zero => exact h
  | succ left ih =>
    unfold go
    split
    · exact h
    · exact (Simplex.step_ensures h.simplex).bind fun s hs => ih (h.advance hs)

end Descent

namespace Simplex

theorem descend_ensures (hn : ∀ x c, answer x c → c.isNaN = false) (x : List Float)
    (settings : Settings) : (descend x settings).Ensures answer fun result =>
      ∃ c, answer x c ∧ result.1.Within answer c := by
  refine (Vertex.evaluate_ensures x).bind fun first hfirst => ?_
  refine (Vertex.evaluateAll_ensures _).bind fun others hothers => ?_
  obtain ⟨rfl, hfirst⟩ := hfirst
  have hall : ∀ v ∈ first :: others, v.Priced answer := by
    intro v hv
    rcases List.mem_cons.mp hv with rfl | hv
    · exact hfirst
    · exact hothers v hv
  have hsimplex := order_priced hall
  refine (Descent.go_ensures _ _ ⟨hsimplex _ List.mem_cons_self, hsimplex, ?_⟩).mono
    fun result h => ⟨first.cost, hfirst, h⟩
  exact best_order_le fun v hv => hn v.x v.cost (hall v hv)

end Simplex

/-- A cost that may have been told, with NaN taken for infinity. -/
def Compared (answer : List Float → Float → Prop) (x : List Float) (cost : Float) : Prop :=
  ∃ c, answer x c ∧ cost = Simplex.comparable c

theorem Simplex.isNaN_comparable (cost : Float) : (comparable cost).isNaN = false := by
  unfold comparable
  split
  · rfl
  · exact Bool.eq_false_iff.mpr ‹_›

/-- The point has a cost that it was told, and costs no more than the start was told. -/
structure Attained (answer : List Float → Float → Prop) (start x : List Float) (cost : Float) :
    Prop where
  told : Compared answer x cost
  low : ∃ c, Compared answer start c ∧ cost ≤ c

/-- What a descent from any point ensures that ends at all. -/
def Attains (answer : List Float → Float → Prop) (run : List Float → Search (Except Error Run)) :
    Prop :=
  ∀ start, (run start).Ensures answer fun result =>
    ∀ found, result = .ok found → Attained answer start found.x found.cost

theorem Simplex.run_attains (answer : List Float → Float → Prop) (settings : Settings) :
    Attains answer (run settings) := by
  intro start
  unfold run
  split
  · exact fun _ h => nomatch h
  · have hn : ∀ x c, Compared answer x c → c.isNaN = false := by
      rintro x _ ⟨c, -, rfl⟩
      exact isNaN_comparable c
    refine ((descend_ensures hn start settings).mapCost.counted 0).bind ?_
    rintro ⟨⟨d, converged⟩, evaluations⟩ ⟨c, hc, hd⟩ found hfound
    cases hfound
    exact ⟨hd.best, c, hc, hd.low⟩

section

variable {run : List Float → Search (Except Error Run)} {start : List Float}

theorem Attained.isNaN {x : List Float} {cost : Float} (h : Attained answer start x cost) :
    cost.isNaN = false := by
  obtain ⟨c, -, rfl⟩ := h.told
  exact Simplex.isNaN_comparable c

/-- A run that found nothing better is not taken, and a better one is lower still. -/
theorem Attained.absorb {best : Minimum} {found : Run}
    (h : Attained answer start best.x best.error) (hf : Compared answer found.x found.cost) :
    Attained answer start (best.absorb found).x (best.absorb found).error := by
  by_cases hle : found.cost ≤ best.error
  · obtain ⟨c, hc, hlow⟩ := h.low
    simp only [Minimum.absorb, hle, if_true]
    exact ⟨hf, c, hc, Number.le_trans hle hlow⟩
  · simp only [Minimum.absorb, hle, if_false]
    exact h

theorem Attained.absorb_start {found : Run} (h : Attained answer start found.x found.cost) :
    Attained answer start ((Minimum.start start).absorb found).x
      ((Minimum.start start).absorb found).error := by
  have hle : found.cost ≤ (Minimum.start start).error := Number.le_infinity h.isNaN
  simp only [Minimum.absorb, hle, if_true]
  exact h

theorem keepBestFrom_ensures (hrun : Attains answer run) (tolerance : Float) (runs : Nat)
    {best : Minimum} (h : Attained answer start best.x best.error) :
    (keepBestFrom run tolerance runs best).Ensures answer fun result =>
      ∀ m, result = .ok m → Attained answer start m.x m.error := by
  induction runs generalizing best with
  | zero =>
    intro m hm
    cases hm
    exact h
  | succ runs ih =>
    refine (hrun best.x).bind fun result hresult => ?_
    cases result with
    | error e => exact fun _ hm => nomatch hm
    | ok found =>
      have habsorb := h.absorb (hresult found rfl).told
      dsimp only
      split
      · intro m hm
        cases hm
        exact habsorb
      · exact ih habsorb

/-- However many runs there are, the point that is kept is the best one of all. -/
theorem keepBest_ensures (hrun : Attains answer run) (start : List Float) (settings : Settings) :
    (keepBest run start settings).Ensures answer fun result =>
      ∀ m, result = .ok m → Attained answer start m.x m.error := by
  refine (hrun start).bind fun result hresult => ?_
  cases result with
  | error e => exact fun _ hm => nomatch hm
  | ok found =>
    have habsorb := (hresult found rfl).absorb_start
    dsimp only
    split
    · intro m hm
      cases hm
      exact habsorb
    · exact keepBestFrom_ensures hrun _ _ habsorb

end

end PlaneSketch
