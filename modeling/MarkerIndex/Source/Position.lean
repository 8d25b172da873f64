/-!
Places in a source text. Lines and columns count from one; a column counts characters.
-/

namespace MarkerIndex

structure Position where
  line : Nat
  column : Nat
  deriving DecidableEq

namespace Position

/-- The first place of a text. Failures at the end of a whole text are reported there too. -/
def first : Position := ⟨1, 1⟩

def step (p : Position) (c : Char) : Position :=
  if c = '\n' then ⟨p.line + 1, 1⟩ else ⟨p.line, p.column + 1⟩

/-- The place behind a stretch of characters. -/
def advance (p : Position) (cs : List Char) : Position :=
  cs.foldl step p

end Position

end MarkerIndex
