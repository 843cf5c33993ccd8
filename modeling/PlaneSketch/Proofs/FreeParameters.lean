import PlaneSketch.Proofs.History

namespace PlaneSketch.Problem

theorem Sound.computeFree_eq {p : Problem} (hp : p.Sound) :
    p.computeFree = (p.points.ids.flatMap ParamId.both).filter (!p.isParamFixed ·) := by
  have hids : p.mentions.eraseDups = p.points.ids := hp.numbered
  change (ParamId.ofPoints p.mentions).filter _ = _
  rw [ParamId.ofPoints_eq, hids]

theorem nodup_computeFree (p : Problem) : p.computeFree.Nodup :=
  (ParamId.nodup_ofPoints _).filter _

theorem Sound.mem_free {p : Problem} (hp : p.Sound) {q : ParamId} :
    q ∈ p.free ↔ p.points.contains q.point = true ∧ p.isParamFixed q = false := by
  rw [hp.free_eq, mem_computeFree, Arena.contains_iff, hp.numbered.mem_iff]

theorem isFixed_eq_ok {p : Problem} {name : String} {q : Primitive}
    (h : p.find? name = some q) :
    p.isFixed name = .ok ((ParamId.ofPoints q.handles).all p.isParamFixed) := by
  unfold isFixed
  rw [paramsOf_eq, h]
  rfl

/-- Two lines that share a corner, with one coordinate of the corner fixed by its flag and the
far end of the second line pinned. -/
def corner : Problem := empty.afterAll [
  .addLine "a" (.fresh 0 0) (.fresh 1 0),
  .addLine "b" (.shared ⟨1⟩) (.fresh 1 1),
  .editParameter ⟨⟨1⟩, .x⟩ [.setFixed true],
  .pin "b.end"]

end PlaneSketch.Problem
