/-!
Failures of reading a TOML text. A failure points at a stretch of the text, and its report shows the
line that the stretch begins in with marks under it.
-/

namespace MarkerIndex.Toml

/-- A stretch of a text, in characters from its beginning. -/
structure Span where
  start : Nat
  stop : Nat
  deriving DecidableEq

namespace Span

/-- The empty stretch in front of another. -/
def before (s : Span) : Span := ⟨s.start, s.start⟩

/-- The empty stretch behind another. -/
def after (s : Span) : Span := ⟨s.stop, s.stop⟩

/-- From the beginning of one stretch to the end of another. -/
def through (s t : Span) : Span := ⟨s.start, t.stop⟩

end Span

structure Failure where
  span : Span
  message : String
  deriving DecidableEq

namespace Failure

/-- A failure in which something else had to stand. -/
def expecting (span : Span) (what : String) (choices : List String) : Failure :=
  ⟨span, what ++ ", expected " ++
    (if choices.isEmpty then "nothing" else String.intercalate ", " choices)⟩

def byteLength (cs : List Char) : Nat :=
  cs.foldl (fun n c => n + c.utf8Size) 0

/-- The number of the line of a place, and its column there, both from zero. A place behind the text
is counted on from its last character. A character of several bytes has the column of its bytes. -/
def lineAndColumn (cs : List Char) (index : Nat) : Nat × Nat :=
  if cs.isEmpty then (0, index)
  else
    let place := min index (cs.length - 1)
    let before := cs.take place
    let line := before.count '\n'
    let ahead := (before.reverse.takeWhile (· ≠ '\n')).reverse
    let wide := place = index && (match cs[place]? with
      | some c => 1 < c.utf8Size
      | none => false)
    (line, (if wide then byteLength ahead else ahead.length) + (index - place))

def blanks (n : Nat) : String := String.ofList (List.replicate n ' ')

/-- The report of a failure in a text. At least one mark is shown, none beyond the line's end. -/
def report (f : Failure) (source : String) : String :=
  let cs := source.toList
  let (line, column) := lineAndColumn cs f.span.start
  let number := toString (line + 1)
  let content := ((source.splitOn "\n")[line]?).getD ""
  let marked := byteLength ((cs.drop f.span.start).take (f.span.stop - f.span.start))
  let marks := max 1 (min marked (content.utf8ByteSize - column))
  let gutter := blanks (number.length + 1)
  "TOML parse error at line " ++ number ++ ", column " ++ toString (column + 1) ++ "\n" ++
    gutter ++ "|\n" ++
    number ++ " | " ++ content ++ "\n" ++
    gutter ++ "|" ++ blanks (column + 1) ++ String.ofList (List.replicate marks '^') ++ "\n" ++
    f.message ++ "\n"

end Failure

end MarkerIndex.Toml
