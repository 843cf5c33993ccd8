import PlaneSketch.Number.Hypot

namespace PlaneSketch

structure Vec where
  x : Float
  y : Float
deriving Repr, DecidableEq

namespace Vec

protected def sub (a b : Vec) : Vec := ⟨a.x - b.x, a.y - b.y⟩

instance : Sub Vec := ⟨Vec.sub⟩

def length (v : Vec) : Float := Number.hypot v.x v.y

/-- Lengths below this one are no lengths to speak of. -/
def leastLength : Float := 1e-8

def isShort (v : Vec) : Bool := v.length < leastLength

def dot (a b : Vec) : Float := a.x * b.x + a.y * b.y

def cross (a b : Vec) : Float := a.x * b.y - a.y * b.x

end Vec

end PlaneSketch
