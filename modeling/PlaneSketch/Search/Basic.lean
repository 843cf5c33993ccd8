import PlaneSketch.Error

namespace PlaneSketch

/-- A search for a minimum has its result, or asks for the cost of one more candidate and goes on by
the answer. So it may adapt to all it has seen, and can be run against any objective, also one that
keeps state. -/
inductive Search (α : Type) where
  | done (result : α)
  | evaluate (candidate : List Float) (next : Float → Search α)

namespace Search

def cost (candidate : List Float) : Search Float := .evaluate candidate .done

protected def bind {α β : Type} : Search α → (α → Search β) → Search β
  | .done a, f => f a
  | .evaluate x next, f => .evaluate x fun c => (next c).bind f

instance : Monad Search where
  pure := .done
  bind := Search.bind

/-- Answers every question by the objective, whose state may change with each. -/
def run {α σ : Type} (objective : List Float → σ → Float × σ) : Search α → σ → α × σ
  | .done a, s => (a, s)
  | .evaluate x next, s => (next (objective x s).1).run objective (objective x s).2

def costs {α σ : Type} (objective : List Float → σ → Float × σ) : Search α → σ → List Float
  | .done _, _ => []
  | .evaluate x next, s =>
    (objective x s).1 :: (next (objective x s).1).costs objective (objective x s).2

/-- The same search, with each answer changed before it is seen. -/
def mapCost {α : Type} (f : Float → Float) : Search α → Search α
  | .done a => .done a
  | .evaluate x next => .evaluate x fun c => (next (f c)).mapCost f

/-- The same search, with the number of its questions added to `asked`. -/
def counted {α : Type} : Search α → Nat → Search (α × Nat)
  | .done a, asked => .done (a, asked)
  | .evaluate x next, asked => .evaluate x fun c => (next c).counted (asked + 1)

theorem run_bind {α β σ : Type} (objective : List Float → σ → Float × σ) (x : Search α)
    (f : α → Search β) (s : σ) :
    (x >>= f).run objective s = (f (x.run objective s).1).run objective (x.run objective s).2 := by
  induction x generalizing s with
  | done a => rfl
  | evaluate c next ih => exact ih _ _

end Search

structure Settings where
  /-- A run has converged once its simplex has costs that spread less than this. -/
  tolerance : Float := 1e-12
  iterationLimit : Nat := 10000
  /-- Further runs after the first one, each from the best point so far. -/
  restarts : Nat := 3
  /-- Size of the first simplex, relative to the starting point. -/
  initialStep : Float := 0.05
deriving DecidableEq

structure Minimum where
  x : List Float
  success : Bool
  iterations : Nat
  evaluations : Nat
  error : Float
deriving DecidableEq

/-- Any way to look for a minimum near a starting point. -/
abbrev Minimizer := List Float → Settings → Search (Except Error Minimum)

end PlaneSketch
