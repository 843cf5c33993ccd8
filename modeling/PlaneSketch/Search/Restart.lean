import PlaneSketch.Search.Basic

namespace PlaneSketch

structure Run where
  x : List Float
  cost : Float
  converged : Bool
  iterations : Nat
  evaluations : Nat
deriving DecidableEq

namespace Minimum

/-- Before any run nothing is known but where to start. -/
def start (x : List Float) : Minimum :=
  { x, success := false, iterations := 0, evaluations := 0, error := 1 / 0 }

/-- Takes a run's point unless it is worse. All of the run's work is counted. -/
def absorb (best : Minimum) (run : Run) : Minimum :=
  let better := run.cost ≤ best.error
  { x := if better then run.x else best.x
    success := if better then run.converged else best.success
    iterations := best.iterations + run.iterations
    evaluations := best.evaluations + run.evaluations
    error := if better then run.cost else best.error }

end Minimum

/-- A run that converged and gained no more than the tolerance is the last one. -/
def Run.isLast (run : Run) (best : Minimum) (tolerance : Float) : Bool :=
  run.converged && !(tolerance < best.error - run.cost)

/-- Does up to this many runs, each from the best point so far. Runs are in any monad, so that the
rule can be read apart from what a run does. -/
def keepBestFrom {m : Type → Type} [Monad m] (run : List Float → m (Except Error Run))
    (tolerance : Float) : Nat → Minimum → m (Except Error Minimum)
  | 0, best => pure (.ok best)
  | runs + 1, best => do
    match ← run best.x with
    | .error e => pure (.error e)
    | .ok found =>
      if found.isLast best tolerance then pure (.ok (best.absorb found))
      else keepBestFrom run tolerance runs (best.absorb found)

/-- Does one run and up to `restarts` more. -/
def keepBest {m : Type → Type} [Monad m] (run : List Float → m (Except Error Run))
    (x : List Float) (settings : Settings) : m (Except Error Minimum) :=
  keepBestFrom run settings.tolerance (settings.restarts + 1) (.start x)

end PlaneSketch
