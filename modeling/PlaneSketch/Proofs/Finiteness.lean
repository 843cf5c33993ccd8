import PlaneSketch.Proofs.History

namespace PlaneSketch

namespace Arena

/-- No value in the arena is NaN or infinite. -/
def Finite (a : Arena) : Prop := ∀ q r, a.param? q = some r → r.value.isFinite = true

theorem Finite.rewritten {a b : Arena} (ha : a.Finite) (h : a.Rewritten b) : b.Finite := by
  intro q r hr
  rcases h.values q r hr with hf | hold
  · exact hf
  · obtain ⟨s, hs, he⟩ := Option.map_eq_some_iff.mp hold
    exact he ▸ ha q s hs

theorem Finite.append {a : Arena} (ha : a.Finite) {added : List Point}
    (h : ∀ point ∈ added, ∀ axis, (point.param axis).value.isFinite = true) :
    (Arena.mk (a.points ++ added)).Finite := by
  intro q r hr
  obtain ⟨point, hp, rfl⟩ := Option.map_eq_some_iff.mp hr
  rcases getElem?_of_append hp with hold | ⟨i, -, hnew⟩
  · exact ha q _ (Option.map_eq_some_iff.mpr ⟨point, hold, rfl⟩)
  · exact h point (List.mem_of_getElem? hnew) q.axis

end Arena

theorem Endpoint.Fits.finite {p : Problem} {e : Endpoint} (h : e.Fits p) (name : String) :
    ∀ point ∈ e.added name, ∀ axis, (point.param axis).value.isFinite = true := by
  cases e with
  | fresh x y =>
    intro point hm axis
    obtain rfl := List.mem_singleton.mp hm
    cases axis with
    | x => exact h.1
    | y => exact h.2
  | shared id =>
    intro point hm
    cases hm

namespace Problem

/-- No step writes a value that is not finite. -/
theorem Step.finite {p q : Problem} (h : Step p q) (hp : p.points.Finite) : q.points.Finite := by
  cases h with
  | stay => exact hp
  | count => exact hp
  | declare c names named admissible => exact hp
  | point name x y free hx hy =>
    have hfits : (Endpoint.fresh x y).Fits p := ⟨hx, hy⟩
    exact hp.append (hfits.finite name)
  | line name start finish fits =>
    refine hp.append fun point hm => ?_
    rcases List.mem_append.mp hm with hm | hm
    · exact fits.startFits.finite _ point hm
    · exact fits.finishFits.finite _ point hm
  | repin pinned named => exact hp
  | rewrite a rewritten => exact hp.rewritten rewritten

theorem Reachable.finite {p : Problem} (h : p.Reachable) : p.points.Finite :=
  h.invariant (fun p => p.points.Finite) (fun _ _ hr => nomatch hr) Step.finite

end Problem

end PlaneSketch
