import Mathlib.Data.List.Induction
import PlaneSketch.Handle

namespace PlaneSketch

theorem eraseDups_concat {α : Type} [DecidableEq α] (l : List α) (a : α) :
    (l ++ [a]).eraseDups = l.eraseDups ++ if a ∈ l then [] else [a] := by
  rw [List.eraseDups_append]
  by_cases h : a ∈ l <;> simp [List.removeAll, h, List.eraseDups_cons]

/-- What is kept is in the order in which it was met first. -/
theorem pairwise_eraseDups {α : Type} [DecidableEq α] (l : List α) :
    l.eraseDups.Pairwise (l.idxOf · < l.idxOf ·) := by
  induction l using List.reverseRecOn with
  | nil => exact .nil
  | append_singleton l a ih =>
    have hold {b : α} (hb : b ∈ l.eraseDups) : (l ++ [a]).idxOf b = l.idxOf b := by
      rw [List.idxOf_append, if_pos (List.mem_eraseDups.mp hb)]
    rw [eraseDups_concat, List.pairwise_append]
    refine ⟨?_, by split <;> simp, fun b hb c hc => ?_⟩
    · exact ih.imp_of_mem fun hb hc h => by rwa [hold hb, hold hc]
    · -- Only what was not there before is added, and it comes after all that was.
      split at hc
      · cases hc
      · rename_i ha
        rw [List.mem_singleton.mp hc, hold hb, List.idxOf_append, if_neg ha]
        have hlt := List.idxOf_lt_length_of_mem (List.mem_eraseDups.mp hb)
        exact Nat.lt_add_left _ hlt

theorem nodup_eraseDups {α : Type} [DecidableEq α] (l : List α) : l.eraseDups.Nodup :=
  (pairwise_eraseDups l).imp fun h he => Nat.ne_of_lt h (congrArg l.idxOf he)

namespace ParamId

theorem nodup_ofPoints (ids : List PointId) : (ofPoints ids).Nodup := nodup_eraseDups _

/-- Two points have a coordinate in common only if they are one. -/
theorem removeAll_both (id : PointId) (ids : List PointId) :
    (ids.flatMap both).removeAll (both id) = (ids.filter fun i => !i == id).flatMap both := by
  unfold List.removeAll
  induction ids with
  | nil => rfl
  | cons i rest ih =>
    rw [List.flatMap_cons, List.filter_append, ih, List.filter_cons]
    by_cases h : i = id <;> simp [both, h]

theorem ofPoints_eq (ids : List PointId) : ofPoints ids = ids.eraseDups.flatMap both := by
  match ids with
  | [] => rfl
  | i :: rest =>
    have hb : (both i).eraseDups = both i := by simp [both, List.eraseDups_cons]
    have ih := ofPoints_eq (rest.filter fun j => !j == i)
    unfold ofPoints at ih ⊢
    rw [List.flatMap_cons, List.eraseDups_append, hb, removeAll_both, ih, List.eraseDups_cons,
      List.flatMap_cons]
termination_by ids.length
decreasing_by exact Nat.lt_succ_of_le (List.length_filter_le _ _)

/-- Parameters are ordered as their points are met first in this list, and the parameters of one
point with x before y. -/
def Precedes (ids : List PointId) (r s : ParamId) : Prop :=
  ids.idxOf r.point < ids.idxOf s.point ∨ r.point = s.point ∧ r.axis = .x ∧ s.axis = .y

theorem pairwise_ofPoints (ids : List PointId) : (ofPoints ids).Pairwise (Precedes ids) := by
  rw [ofPoints_eq, List.pairwise_flatMap]
  refine ⟨fun id _ => ?_, (pairwise_eraseDups ids).imp fun h r hr s hs => .inl ?_⟩
  · exact List.pairwise_pair.mpr (.inr ⟨rfl, rfl, rfl⟩)
  · rwa [mem_both.mp hr, mem_both.mp hs]

end ParamId

namespace PointId

/-- The points below `n` are mentioned and no others, the first mentions in the order of their
handles. -/
def Numbered (mentions : List PointId) (n : Nat) : Prop :=
  mentions.eraseDups = (List.range n).map PointId.mk

theorem numbered_nil : Numbered [] 0 := rfl

theorem Numbered.mem_iff {mentions : List PointId} {n : Nat} (h : Numbered mentions n)
    {id : PointId} : id ∈ mentions ↔ id.index < n := by
  rw [← List.mem_eraseDups, h]
  obtain ⟨i⟩ := id
  simp

theorem Numbered.old {mentions : List PointId} {n : Nat} (h : Numbered mentions n) {id : PointId}
    (hi : id.index < n) : Numbered (mentions ++ [id]) n := by
  unfold Numbered
  rw [eraseDups_concat, if_pos (h.mem_iff.mpr hi), List.append_nil, h]

theorem Numbered.next {mentions : List PointId} {n : Nat} (h : Numbered mentions n) :
    Numbered (mentions ++ [⟨n⟩]) (n + 1) := by
  have hn : (⟨n⟩ : PointId) ∉ mentions := fun hm => Nat.lt_irrefl n (h.mem_iff.mp hm)
  unfold Numbered
  rw [eraseDups_concat, if_neg hn, h, List.range_succ, List.map_append]
  rfl

end PointId

end PlaneSketch
