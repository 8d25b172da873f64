import MarkerIndex.Grammar.File
/-!
Item paths: the identity of a declared thing, as the names from its crate down to it. Two paths are
the same only when all segments agree. Paths are written with double colons between the segments.
-/

namespace MarkerIndex

structure ItemPath where
  segments : List String
  deriving DecidableEq

namespace ItemPath

/-- The word for the crate that is being read. -/
def crateWord : String := "crate"

def crateRoot : ItemPath := ⟨[crateWord]⟩

def display (p : ItemPath) : String :=
  String.intercalate "::" p.segments

/-- The last segment. -/
def simpleName (p : ItemPath) : String :=
  p.segments.getLast?.getD ""

def isLocal (p : ItemPath) : Bool :=
  p.segments.head? = some crateWord

def join (p : ItemPath) (segment : String) : ItemPath :=
  ⟨p.segments ++ [segment]⟩

def extend (p : ItemPath) (segments : List String) : ItemPath :=
  ⟨p.segments ++ segments⟩

/-- The path without its last segment, unless one segment is all it has. -/
def parent? (p : ItemPath) : Option ItemPath :=
  if p.segments.length ≤ 1 then none else some ⟨p.segments.dropLast⟩

/-- Reads a path as it is spelled in sources. Arguments on a segment are refused. -/
def parse? (text : String) : Option ItemPath :=
  match Grammar.parsePath (Text.trim text) with
  | .ok shape => if shape.plain then some ⟨shape.path.segments⟩ else none
  | .error _ => none

/-- The segments of a text between double colons, taken as they are. -/
def split (text : String) : ItemPath :=
  ⟨text.splitOn "::"⟩

def compareSegments : List String → List String → Ordering
  | [], [] => .eq
  | [], _ :: _ => .lt
  | _ :: _, [] => .gt
  | a :: as, b :: bs => (Ord.compare a b).then (compareSegments as bs)

def compare (p q : ItemPath) : Ordering :=
  compareSegments p.segments q.segments

end ItemPath

end MarkerIndex
