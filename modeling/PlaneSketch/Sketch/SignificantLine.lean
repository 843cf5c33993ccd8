import PlaneSketch.Error
import PlaneSketch.Sketch.Parser

namespace PlaneSketch

/-- A line that is not blank, without its comment and outer blanks. It keeps its number in the text,
for errors to point at. -/
structure SignificantLine where
  number : Nat
  content : List Char
deriving DecidableEq

namespace SignificantLine

/-- The part of a line in front of the first `//`. -/
def withoutComment : List Char → List Char
  | [] => []
  | '/' :: '/' :: _ => []
  | c :: s => c :: withoutComment s

/-- Splits a text at line feeds. -/
def splitLines : List Char → List (List Char)
  | [] => [[]]
  | c :: s =>
    if c = '\n' then [] :: splitLines s
    else
      match splitLines s with
      | [] => [[c]]
      | line :: rest => (c :: line) :: rest

/-- Numbers lines and leaves out those without content. -/
def numbered (number : Nat) : List (List Char) → List SignificantLine
  | [] => []
  | line :: rest =>
    let content := Text.trim (withoutComment line)
    if content.isEmpty then numbered (number + 1) rest
    else ⟨number, content⟩ :: numbered (number + 1) rest

/-- All significant lines of a text; the first line has number one. -/
def ofText (text : String) : List SignificantLine := numbered 1 (splitLines text.toList)

/-- The header of a section: `#` and the section's title. -/
def header (s : Section) : Parser Unit := do
  Parser.word "#"
  Parser.spaces
  Parser.word s.title

def isHeader (s : Section) (line : SignificantLine) : Bool :=
  ((header s).whole line.content).isOk

def utf8Size (s : List Char) : Nat := s.foldr (fun c size => c.utf8Size + size) 0

/-- Reads the whole line as an item of the section. -/
def read {α : Type} (line : SignificantLine) (within : Section) (p : Parser α) :
    Except TextError α :=
  match p.whole line.content with
  | .ok a => .ok a
  | .error rest => .error (.malformed line.number (String.ofList line.content) within
      (utf8Size line.content - utf8Size rest + 1))

end SignificantLine

end PlaneSketch
