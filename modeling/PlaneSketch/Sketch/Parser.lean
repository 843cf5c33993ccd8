import PlaneSketch.Text

namespace PlaneSketch

/-- What a parser makes of its input. Either it finds something and leaves a rest, or it stops
somewhere, which is what an error points at. -/
inductive Reply (α : Type) where
  | found (value : α) (rest : List Char)
  | stopped (rest : List Char)

/-- A reader of characters from the front. -/
def Parser (α : Type) := List Char → Reply α

namespace Parser

instance : Monad Parser where
  pure a := fun s => .found a s
  bind p f := fun s =>
    match p s with
    | .found a rest => f a rest
    | .stopped rest => .stopped rest

/-- The second parser starts over where the first one did, and has the last word. -/
def orElse {α : Type} (p q : Parser α) : Parser α := fun s =>
  match p s with
  | .found a rest => .found a rest
  | .stopped _ => q s

/-- Never stops: what cannot be read is left alone. -/
def optional {α : Type} (p : Parser α) : Parser (Option α) := fun s =>
  match p s with
  | .found a rest => .found (some a) rest
  | .stopped _ => .found none s

/-- Looks at the next character without reading it. -/
def peek : Parser (Option Char) := fun s => .found s.head? s

/-- One character of a kind. -/
def one (kind : Char → Bool) : Parser Char
  | [] => .stopped []
  | c :: s => if kind c then .found c s else .stopped (c :: s)

/-- What is left after the word, if the word comes first. -/
def dropWord (same : Char → Char → Bool) : List Char → List Char → Option (List Char)
  | [], s => some s
  | _ :: _, [] => none
  | w :: word, c :: s => if same w c then dropWord same word s else none

/-- This very word, or nothing of it. -/
def word (w : String) : Parser Unit := fun s =>
  match dropWord (· == ·) w.toList s with
  | some rest => .found () rest
  | none => .stopped s

/-- A word of small letters, written in letters of either case. -/
def anyCase (w : String) : Parser Unit := fun s =>
  match dropWord (fun w c => w == c.toLower) w.toList s with
  | some rest => .found () rest
  | none => .stopped s

/-- As many characters of a kind as there are, possibly none. -/
def zeroOrMore (kind : Char → Bool) : Parser (List Char) := fun s =>
  .found (s.takeWhile kind) (s.dropWhile kind)

/-- As many characters of a kind as there are, and at least one. -/
def oneOrMore (kind : Char → Bool) : Parser (List Char) := fun s =>
  if (s.takeWhile kind).isEmpty then .stopped s else .found (s.takeWhile kind) (s.dropWhile kind)

/-- Spaces and tabs that may be missing. -/
def spaces : Parser Unit := do
  let _ ← zeroOrMore Text.isSpace

/-- Spaces and tabs that must be there. -/
def gap : Parser Unit := do
  let _ ← oneOrMore Text.isSpace

/-- Reads a whole text. Otherwise gives what was left where the reading stopped. -/
def whole {α : Type} (p : Parser α) (s : List Char) : Except (List Char) α :=
  match p s with
  | .found a [] => .ok a
  | .found _ rest => .error rest
  | .stopped rest => .error rest

end Parser

end PlaneSketch
