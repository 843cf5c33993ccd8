import PlaneSketch.Search.Basic

namespace PlaneSketch

structure Vertex where
  x : List Float
  cost : Float
deriving DecidableEq

/-- The vertices in ascending order of cost. There are at least two of them. -/
structure Simplex where
  best : Vertex
  rest : List Vertex
deriving DecidableEq

namespace Vertex

def evaluate (x : List Float) : Search Vertex := do
  return ⟨x, ← Search.cost x⟩

def evaluateAll : List (List Float) → Search (List Vertex)
  | [] => return []
  | x :: xs => do
    let v ← Vertex.evaluate x
    return v :: (← evaluateAll xs)

/-- Puts a vertex before the first one that costs as much or more. -/
def insert (v : Vertex) : List Vertex → List Vertex
  | [] => [v]
  | w :: ws => if v.cost ≤ w.cost then v :: w :: ws else w :: insert v ws

/-- Ascending by cost; vertices of equal cost keep their order. -/
def sort : List Vertex → List Vertex
  | [] => []
  | v :: vs => insert v (sort vs)

end Vertex

namespace Simplex

/-- `base + (a - b) * factor`, coordinate by coordinate. -/
def offset (base a b : List Float) (factor : Float) : List Float :=
  List.zipWith (· + ·) base ((List.zipWith (· - ·) a b).map (· * factor))

section
variable {α : Type} [Add α] [Mul α] [BEq α] [OfNat α 0] [OfNat α 1] [OfScientific α]

/-- Moves a coordinate by a part of itself, or by a small step when it is zero. -/
def nudge (step coordinate : α) : α :=
  if coordinate == 0 then 0.00025 else coordinate * (1 + step)

/-- The starting point, and for each coordinate the point with only that coordinate moved. -/
def around (step : α) (x : List α) : List (List α) :=
  x :: (List.range x.length).map fun i => x.modify i (nudge step)

end

def order (first : Vertex) (others : List Vertex) : Simplex :=
  match Vertex.sort (first :: others) with
  | best :: rest => ⟨best, rest⟩
  | [] => ⟨first, others⟩

def worst (s : Simplex) : Vertex := s.rest.getLast?.getD s.best

/-- All but the best and the worst vertex. -/
def middle (s : Simplex) : List Vertex := s.rest.dropLast

def secondWorst (s : Simplex) : Vertex := s.middle.getLast?.getD s.best

def centroid (s : Simplex) : List Float :=
  let total := s.middle.foldl (fun t v => List.zipWith (· + ·) t v.x) s.best.x
  total.map (· * (1 / Float.ofNat (s.middle.length + 1)))

def replaceWorst (s : Simplex) (v : Vertex) : Simplex := order s.best (s.middle ++ [v])

def spread (s : Simplex) : Float :=
  let costs := s.best.cost :: s.rest.map Vertex.cost
  let n := Float.ofNat costs.length
  let mean := Number.sum costs / n
  (1 / (n - 1) * Number.sum (costs.map fun c => (c - mean) * (c - mean))).sqrt

end Simplex

end PlaneSketch
