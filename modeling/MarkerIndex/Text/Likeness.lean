/-!
How alike two words are. Characters are matched with equal ones that stand not too far away, from
left to right. The likeness is the mean of three shares: of either word that is matched, and of the
matched characters that keep their order. It is a fraction and compared as one.
-/

namespace MarkerIndex.Text

/-- A fraction. -/
structure Likeness where
  num : Nat
  den : Nat
  deriving DecidableEq

namespace Likeness

def le (a b : Likeness) : Bool :=
  a.num * b.den ≤ b.num * a.den

/-- Words this much alike are taken for each other. -/
def threshold : Likeness := ⟨7, 10⟩

/-- Marks the first unmarked `c` among the positions from `low` on and before `high`. -/
def markFirst (c : Char) (low high : Nat) : Nat → List (Char × Bool) →
    Option (List (Char × Bool))
  | _, [] => none
  | position, (b, marked) :: rest =>
    if high ≤ position then none
    else if low ≤ position && b = c && !marked then some ((b, true) :: rest)
    else (markFirst c low high (position + 1) rest).map ((b, marked) :: ·)

/-- The matched characters of the first word, and the second word with its matched ones marked. -/
def markAll (reach : Nat) : Nat → List Char → List (Char × Bool) →
    List Char × List (Char × Bool)
  | _, [], other => ([], other)
  | position, c :: cs, other =>
    match markFirst c (position - reach) (position + reach + 1) 0 other with
    | some marked =>
      let (found, final) := markAll reach (position + 1) cs marked
      (c :: found, final)
    | none => markAll reach (position + 1) cs other

/-- How far away a matched character may stand. -/
def reach (a b : List Char) : Nat :=
  max a.length b.length / 2 - 1

/-- The matched characters of both words, each in the order of its word. -/
def matched (a b : List Char) : List Char × List Char :=
  let (left, marked) := markAll (reach a b) 0 a (b.map (·, false))
  (left, (marked.filter (·.2)).map (·.1))

def ofWords (a b : List Char) : Likeness :=
  let (left, right) := matched a b
  let count := left.length
  if count = 0 then ⟨0, 1⟩
  else
    let moved := ((left.zip right).filter fun (x, y) => x ≠ y).length / 2
    ⟨count * count * (a.length + b.length) + (count - moved) * a.length * b.length,
      3 * a.length * b.length * count⟩

end Likeness

/-- Those of some names that a word is much alike to, the most alike last. -/
def similar (word : String) (names : List String) : List String :=
  let rated := names.map fun name => (Likeness.ofWords word.toList name.toList, name)
  ((rated.filter fun (l, _) => Likeness.threshold.le l).mergeSort fun a b => a.1.le b.1).map (·.2)

/-- The name that a word is most alike to, if it is much alike to any. -/
def nearest? (word : String) (names : List String) : Option String :=
  (similar word names).getLast?

end MarkerIndex.Text
