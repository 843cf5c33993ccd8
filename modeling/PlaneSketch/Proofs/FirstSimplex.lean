import Mathlib.Algebra.Order.Field.Rat
import Mathlib.LinearAlgebra.LinearIndependent.Defs
import Mathlib.Tactic.Linarith
import Mathlib.Tactic.NormNum
import PlaneSketch.Search.Simplex

namespace PlaneSketch.Simplex

section

variable {α : Type}

/-- The vertices are `x` and, one for each coordinate, `x` with that coordinate moved. -/
structure Surrounds (move : α → α) (x : List α) (vertices : List (List α)) : Prop where
  count : vertices.length = x.length + 1
  start : vertices.head? = some x
  dimensions : ∀ v ∈ vertices, v.length = x.length
  moved : ∀ i v, vertices[i + 1]? = some v → v[i]? = x[i]?.map move
  others : ∀ i j v, vertices[i + 1]? = some v → j ≠ i → v[j]? = x[j]?

variable [Add α] [Mul α] [BEq α] [OfNat α 0] [OfNat α 1] [OfScientific α]

theorem surrounds_around (step : α) (x : List α) : Surrounds (nudge step) x (around step x) := by
  have hvertex {i : Nat} {v : List α} (hv : (around step x)[i + 1]? = some v) :
      v = x.modify i (nudge step) := by
    obtain ⟨j, hj, rfl⟩ := by simpa [around] using hv
    rw [(List.getElem?_eq_some_iff.mp hj).2.symm, List.getElem_range]
  refine ⟨by simp [around], rfl, fun v hv => ?_, fun i v hv => ?_, fun i j v hv hj => ?_⟩
  · rcases List.mem_cons.mp hv with rfl | hv
    · rfl
    · obtain ⟨i, -, rfl⟩ := List.mem_map.mp hv
      exact List.length_modify _ _ _
  · rw [hvertex hv, List.getElem?_modify_eq]
    rfl
  · rw [hvertex hv, List.getElem?_modify_ne _ _ hj.symm]

end

/-- By how much the vertex that moves the `i`-th coordinate differs from `x`. -/
def edge (x : List ℚ) (vertices : List (List ℚ)) (i j : Fin x.length) : ℚ :=
  (vertices[i.val + 1]?.bind (·[j.val]?)).getD 0 - x[j]

theorem Surrounds.edge_eq {move : ℚ → ℚ} {x : List ℚ} {vertices : List (List ℚ)}
    (h : Surrounds move x vertices) (i j : Fin x.length) :
    edge x vertices i j = if i = j then move x[i] - x[i] else 0 := by
  have hi : i.val + 1 < vertices.length := by
    rw [h.count]
    omega
  have hv : vertices[i.val + 1]? = some vertices[i.val + 1] := List.getElem?_eq_getElem hi
  unfold edge
  rw [hv, Option.bind_some]
  split
  · rename_i hij
    subst hij
    rw [h.moved i _ hv]
    simp
  · rename_i hij
    rw [h.others i j _ hv fun he => hij (Fin.ext he.symm)]
    simp

/-- Any coordinate is moved, unless the step is zero: a zero by a step of its own, and others by
a part of themselves. -/
theorem nudge_ne {step : ℚ} (hs : step ≠ 0) (coordinate : ℚ) :
    nudge step coordinate ≠ coordinate := by
  unfold nudge
  split
  · rename_i hzero
    rw [beq_iff_eq] at hzero
    rw [hzero]
    norm_num
  · rename_i hne
    rw [beq_iff_eq] at hne
    intro h
    exact mul_ne_zero hne hs (by linarith)

theorem Surrounds.linearIndependent {move : ℚ → ℚ} {x : List ℚ} {vertices : List (List ℚ)}
    (h : Surrounds move x vertices) (hmove : ∀ coordinate, move coordinate ≠ coordinate) :
    LinearIndependent ℚ (edge x vertices) := by
  rw [Fintype.linearIndependent_iff]
  intro factor hsum j
  have hj : factor j * (move x[j] - x[j]) = 0 := by
    have hcoordinate := congrFun hsum j
    simpa [Finset.sum_apply, h.edge_eq] using hcoordinate
  exact (mul_eq_zero.mp hj).resolve_right (sub_ne_zero.mpr (hmove x[j]))

/-- The first simplex around any point has the point itself as its first vertex, and for each
coordinate one more, which has as many coordinates and differs in this one only. Over exact numbers
its edges from the point are linearly independent, whichever coordinates are zero or negative, if
only the step is not zero. -/
theorem first_simplex_spans :
    (∀ (step : Float) (x : List Float), Surrounds (nudge step) x (around step x)) ∧
    ∀ (step : ℚ) (x : List ℚ), Surrounds (nudge step) x (around step x) ∧
      (step ≠ 0 → LinearIndependent ℚ (edge x (around step x))) :=
  ⟨surrounds_around, fun step x => ⟨surrounds_around step x, fun hs =>
    (surrounds_around step x).linearIndependent (nudge_ne hs)⟩⟩

theorem mixed_simplex_spans :
    around (1 / 20) [2, 0, -3] =
      ([[2, 0, -3], [21 / 10, 0, -3], [2, 1 / 4000, -3], [2, 0, -63 / 20]] : List (List ℚ)) ∧
    (1 / 20 : ℚ) ≠ 0 ∧
    LinearIndependent ℚ (edge [2, 0, -3] (around (1 / 20) [2, 0, -3])) := by
  have hs : (1 / 20 : ℚ) ≠ 0 := by norm_num
  exact ⟨by decide +kernel, hs, (first_simplex_spans.2 (1 / 20) [2, 0, -3]).2 hs⟩

end PlaneSketch.Simplex
