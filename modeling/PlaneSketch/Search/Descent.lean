import PlaneSketch.Search.Restart
import PlaneSketch.Search.Simplex

namespace PlaneSketch

namespace Simplex

/-- Moves every vertex but the best one half the way towards it. -/
def shrink (s : Simplex) : Search Simplex := do
  let moved ← Vertex.evaluateAll (s.rest.map fun v => offset s.best.x v.x s.best.x 0.5)
  return order s.best moved

/-- Reflects the worst vertex at the mean of the others, and expands, contracts or shrinks the
simplex by what is found there. No derivatives are taken, so the objective may have kinks. -/
def step (s : Simplex) : Search Simplex := do
  let c := s.centroid
  let reflected ← Vertex.evaluate (offset c c s.worst.x 1)
  if reflected.cost < s.secondWorst.cost ∧ s.best.cost ≤ reflected.cost then
    return s.replaceWorst reflected
  else if reflected.cost < s.best.cost then
    let expanded ← Vertex.evaluate (offset c reflected.x c 2)
    return s.replaceWorst (if expanded.cost < reflected.cost then expanded else reflected)
  else if reflected.cost < s.worst.cost then
    let contracted ← Vertex.evaluate (offset c reflected.x c 0.5)
    if contracted.cost ≤ reflected.cost then return s.replaceWorst contracted else s.shrink
  else
    let contracted ← Vertex.evaluate (offset c s.worst.x c 0.5)
    if contracted.cost < s.worst.cost then return s.replaceWorst contracted else s.shrink

end Simplex

/-- Where a descent stands: the best vertex of all times, and the simplex now. -/
structure Descent where
  best : Vertex
  simplex : Simplex
  iterations : Nat

namespace Descent

def start (s : Simplex) : Descent := ⟨s.best, s, 0⟩

/-- Takes over the simplex. Its best vertex counts if it costs less, or if both costs are the same
infinity. -/
def advance (d : Descent) (s : Simplex) : Descent :=
  let better := s.best.cost < d.best.cost || (s.best.cost.isInf && s.best.cost == d.best.cost)
  ⟨if better then s.best else d.best, s, d.iterations + 1⟩

/-- Iterates until the costs spread less than the tolerance, the cost cannot fall any further, or
the iterations are used up. Only the last is no success. -/
def go (tolerance : Float) : Nat → Descent → Search (Descent × Bool)
  | 0, d => return (d, d.simplex.spread < tolerance)
  | left + 1, d =>
    if d.simplex.spread < tolerance ∨ d.best.cost ≤ -1 / 0 then return (d, true)
    else do go tolerance left (d.advance (← d.simplex.step))

end Descent

namespace Simplex

def descend (x : List Float) (settings : Settings) : Search (Descent × Bool) := do
  let first ← Vertex.evaluate x
  let others ← Vertex.evaluateAll (around settings.initialStep x).tail
  Descent.go settings.tolerance settings.iterationLimit (.start (order first others))

/-- NaN cannot be compared, and counts as the highest cost. -/
def comparable (cost : Float) : Float := if cost.isNaN then 1 / 0 else cost

def run (settings : Settings) (x : List Float) : Search (Except Error Run) := do
  if settings.tolerance < 0 then
    return .error (.solverFailure .negativeTolerance)
  else
    let ((d, converged), evaluations) ← ((descend x settings).mapCost comparable).counted 0
    return .ok { x := d.best.x, cost := d.best.cost, converged, iterations := d.iterations,
                 evaluations }

/-- Restarted descents. In a space without dimensions there is but one point to evaluate. -/
def minimizer : Minimizer := fun x settings => do
  if x.isEmpty then
    return .ok { x, success := true, iterations := 0, evaluations := 1, error := ← Search.cost x }
  else keepBest (run settings) x settings

end Simplex

end PlaneSketch
