import PlaneSketch.Proofs.History

namespace PlaneSketch.Problem

/-- Nothing that bears on the free parameters differs. -/
structure SameGeometry (p q : Problem) : Prop where
  points : q.points = p.points
  primitives : q.primitives = p.primitives
  pinned : q.pinned = p.pinned

theorem SameGeometry.refl (p : Problem) : SameGeometry p p := ⟨rfl, rfl, rfl⟩

theorem SameGeometry.symm {p q : Problem} (h : SameGeometry p q) : SameGeometry q p :=
  ⟨h.points.symm, h.primitives.symm, h.pinned.symm⟩

theorem SameGeometry.trans {p q r : Problem} (h : SameGeometry p q) (h' : SameGeometry q r) :
    SameGeometry p r :=
  ⟨h'.points.trans h.points, h'.primitives.trans h.primitives, h'.pinned.trans h.pinned⟩

theorem SameGeometry.isParamFixed {p q : Problem} (h : SameGeometry p q) (r : ParamId) :
    q.isParamFixed r = p.isParamFixed r :=
  isParamFixed_congr h.pinned (fun _ => by rw [h.points]) r

/-- A step that does not raise the generation leaves the geometry alone. -/
theorem Step.generation {p q : Problem} (h : Step p q) :
    p.generation < q.generation ∨ (p.generation = q.generation ∧ SameGeometry p q) := by
  cases h with
  | stay => exact .inr ⟨rfl, .refl p⟩
  | count => exact .inr ⟨rfl, rfl, rfl, rfl⟩
  | declare c names named admissible => exact .inr ⟨rfl, rfl, rfl, rfl⟩
  | point name x y free hx hy => exact .inl (Nat.lt_succ_self _)
  | line name start finish fits => exact .inl (Nat.lt_succ_self _)
  | repin pinned named => exact .inl (Nat.lt_succ_self _)
  | rewrite a rewritten => exact .inl (Nat.lt_succ_self _)

theorem Steps.generation {p q : Problem} (h : Steps p q) :
    p.generation < q.generation ∨ (p.generation = q.generation ∧ SameGeometry p q) := by
  induction h with
  | refl => exact .inr ⟨rfl, .refl p⟩
  | tail _ step ih =>
    rcases ih with hlt | ⟨he, hsame⟩ <;> rcases step.generation with hlt' | ⟨he', hsame'⟩
    · exact .inl (by omega)
    · exact .inl (by omega)
    · exact .inl (by omega)
    · exact .inr ⟨he.trans he', hsame.trans hsame'⟩

theorem afterAll_append (p : Problem) (ops rest : List Operation) :
    p.afterAll (ops ++ rest) = (p.afterAll ops).afterAll rest := by
  simp [afterAll]

def stateAt (ops : List Operation) (n : Nat) : Problem := empty.afterAll (ops.take n)

theorem sound_stateAt (ops : List Operation) (n : Nat) : (stateAt ops n).Sound :=
  Reachable.sound ⟨ops.take n, rfl⟩

theorem steps_stateAt (ops : List Operation) {i j : Nat} (h : i ≤ j) :
    Steps (stateAt ops i) (stateAt ops j) := by
  have he : ops.take j = ops.take i ++ (ops.take j).drop i := by
    have hsplit := List.take_append_drop i (ops.take j)
    rw [List.take_take, Nat.min_eq_left h] at hsplit
    exact hsplit.symm
  have hs : stateAt ops j = (stateAt ops i).afterAll ((ops.take j).drop i) := by
    unfold stateAt
    rw [← afterAll_append, ← he]
  rw [hs]
  exact (sound_stateAt ops i).steps_afterAll _

theorem sameGeometry_of_generation (ops : List Operation) {i j : Nat}
    (h : (stateAt ops i).generation = (stateAt ops j).generation) :
    SameGeometry (stateAt ops i) (stateAt ops j) := by
  rcases Nat.le_total i j with hij | hji
  · rcases (steps_stateAt ops hij).generation with hlt | ⟨-, hsame⟩
    · omega
    · exact hsame
  · rcases (steps_stateAt ops hji).generation with hlt | ⟨-, hsame⟩
    · omega
    · exact hsame.symm

/-- At every point of a history, the free parameters that the problem keeps are the ones it would
find anew. At any two points of the same generation the problem has the same primitives, the same
parameters are fixed, and the same ones are free. -/
theorem generation_stamps_free (ops : List Operation) (i j : Nat) :
    (∀ known, (stateAt ops i).knownFree = some known → known = (stateAt ops i).computeFree) ∧
      ((stateAt ops i).generation = (stateAt ops j).generation →
        (stateAt ops i).primitives = (stateAt ops j).primitives ∧
        (∀ r, (stateAt ops i).isParamFixed r = (stateAt ops j).isParamFixed r) ∧
        (stateAt ops i).free = (stateAt ops j).free) := by
  refine ⟨(sound_stateAt ops i).coherent, fun h => ?_⟩
  have hsame := (sameGeometry_of_generation ops h).symm
  refine ⟨hsame.primitives, hsame.isParamFixed, ?_⟩
  rw [(sound_stateAt ops i).free_eq, (sound_stateAt ops j).free_eq]
  exact computeFree_congr hsame.primitives hsame.isParamFixed

/-- A history in which two reads frame edits that do not bear on the free parameters. -/
def readings : List Operation := [
  .addLine "a" (.fresh 0 0) (.fresh 3 4),
  .freeParameters,
  .constrainLength "a" 1,
  .addPoint "a.end" 0 0,
  .describe]

theorem readings_generation_stamps_free : (stateAt readings 5).knownFree =
      some [⟨⟨0⟩, .x⟩, ⟨⟨0⟩, .y⟩, ⟨⟨1⟩, .x⟩, ⟨⟨1⟩, .y⟩] ∧
    (stateAt readings 5).computeFree = [⟨⟨0⟩, .x⟩, ⟨⟨0⟩, .y⟩, ⟨⟨1⟩, .x⟩, ⟨⟨1⟩, .y⟩] ∧
    (stateAt readings 5).generation = (stateAt readings 1).generation ∧
    (stateAt readings 5).free = (stateAt readings 1).free := by
  obtain ⟨hknown, hstamp⟩ := generation_stamps_free readings 5 1
  have hk : (stateAt readings 5).knownFree =
      some [⟨⟨0⟩, .x⟩, ⟨⟨0⟩, .y⟩, ⟨⟨1⟩, .x⟩, ⟨⟨1⟩, .y⟩] := by decide +kernel
  have hg : (stateAt readings 5).generation = (stateAt readings 1).generation := by
    decide +kernel
  exact ⟨hk, (hknown _ hk).symm, hg, (hstamp hg).2.2⟩

end PlaneSketch.Problem
