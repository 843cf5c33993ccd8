import PlaneSketch.Proofs.History
import PlaneSketch.Sketch.Build

namespace PlaneSketch

open Edit

theorem Spot.on_resolve (spot : Spot) (p : Problem) :
    ∃ x : Except Error Endpoint, spot.resolve.on p = (x, p) := by
  cases spot with
  | coordinates x y => exact ⟨.ok (.fresh x y), rfl⟩
  | named label =>
    unfold Spot.resolve
    rw [on_get_bind, on_lift_bind]
    cases p.point label with
    | error err => exact ⟨.error err, rfl⟩
    | ok id => exact ⟨.ok (.shared id), rfl⟩

theorem Declaration.after_apply {d : Declaration} {p q : Problem}
    (h : d.apply.on p = (.ok (), q)) : ∃ op : Operation, op.after p = q := by
  cases d with
  | point label x y => exact ⟨.addPoint label x y, congrArg Prod.snd h⟩
  | line label start finish =>
    unfold Declaration.apply at h
    obtain ⟨s, hs⟩ := start.on_resolve p
    rw [on_bind, hs] at h
    cases s with
    | error err => cases h
    | ok s =>
      obtain ⟨f, hf⟩ := finish.on_resolve p
      dsimp only at h
      rw [on_bind, hf] at h
      cases f with
      | error err => cases h
      | ok f => exact ⟨.addLine label s f, congrArg Prod.snd h⟩

theorem Requirement.after_apply (r : Requirement) (p : Problem) :
    ∃ op : Operation, op.after p = (r.apply.on p).2 := by
  cases r with
  | fixed label => exact ⟨.pin label, rfl⟩
  | length l target => exact ⟨.constrainLength l target, rfl⟩
  | angle a b target => exact ⟨.constrainAngle a b target, rfl⟩
  | distance a b target => exact ⟨.constrainDistance a b target, rfl⟩

theorem Instruction.after_apply {i : Instruction} {p q : Problem}
    (h : i.apply.on p = (.ok (), q)) : ∃ op : Operation, op.after p = q := by
  cases i with
  | declare d => exact Declaration.after_apply h
  | require r =>
    obtain ⟨op, hop⟩ := r.after_apply p
    exact ⟨op, hop.trans (congrArg Prod.snd h)⟩

theorem Instruction.afterAll_applyAll {is : List Instruction} {p q : Problem}
    (h : (applyAll is).on p = (.ok (), q)) : ∃ ops, p.afterAll ops = q := by
  induction is generalizing p with
  | nil =>
    cases h
    exact ⟨[], rfl⟩
  | cons i rest ih =>
    unfold applyAll at h
    rw [on_bind] at h
    generalize hi : i.apply.on p = result at h
    obtain ⟨_ | ⟨⟩, r⟩ := result
    · cases h
    · obtain ⟨op, rfl⟩ := Instruction.after_apply hi
      obtain ⟨ops, rfl⟩ := ih h
      exact ⟨op :: ops, rfl⟩

/-- The problem of a sketch can be reached. -/
theorem Sketch.build_reachable {s : Sketch} {p : Problem} (h : s.build = .ok p) :
    p.Reachable := by
  have hall : (Instruction.applyAll s.instructions).on .empty = (.ok (), p) := by
    unfold Sketch.build at h
    unfold Edit.on
    split at h
    · rename_i q hq
      cases h
      exact hq
    · cases h
  obtain ⟨ops, hops⟩ := Instruction.afterAll_applyAll hall
  exact ⟨ops, hops.symm⟩

end PlaneSketch
