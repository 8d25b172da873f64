import MarkerIndex.Declaration
import MarkerIndex.Error
import MarkerIndex.Text.Quoted
/-!
The generated source. A classification is written as one module with one constant per marker, in a
fixed layout of lines, so that the same lists always give the same text. Two different markers may
not share the name of a constant.
-/

namespace MarkerIndex

/-- How the generated module and its type are called. -/
structure Emission where
  module : String
  container : String

namespace Emission

/-- The first line of everything that is generated. -/
def header : String := "// @generated by markscan. Do not edit."

def indent (depth : Nat) (line : String) : String :=
  String.ofList (List.replicate (4 * depth) ' ') ++ line

/-- The lines of one constant. Each name stands on a line of its own. -/
def entryLines (e : ListEntry) : List String :=
  let start := indent 2 ("pub const " ++ e.bindingName ++ ": &'static [&'static str] = &[")
  indent 2 ("/// Registration names of functions marked `#[" ++ e.marker.display ++ "]`.") ::
    if e.names.isEmpty then [start ++ "];"]
    else start :: (e.names.map fun name => indent 3 (Text.Quoted.encode name ++ ",")) ++
      [indent 2 "];"]

/-- The lines of all constants, with an empty line between two. -/
def bodyLines (entries : List ListEntry) : List String :=
  (entries.map entryLines).intersperse [""] |>.flatten

def lines (s : Emission) (entries : List ListEntry) : List String :=
  [header, "", "pub mod " ++ s.module ++ " \x7b", indent 1 ("pub struct " ++ s.container ++ ";"),
    "",
    indent 1 "#[allow(non_upper_case_globals)]", indent 1 ("impl " ++ s.container ++ " \x7b")] ++
    bodyLines entries ++ [indent 1 "\x7d", "\x7d"]

/-- Lines as a text, each with its line break. -/
def join (lines : List String) : String :=
  String.join (lines.map (· ++ "\n"))

/-- The first entry, if any, whose constant has the name of an earlier one with another marker. The
markers last seen under each name are given. -/
def collision? (seen : List (String × ItemPath)) : List ListEntry → Option Error
  | [] => none
  | e :: entries =>
    match seen.lookup e.bindingName with
    | some first =>
      if first = e.marker then collision? ((e.bindingName, e.marker) :: seen) entries
      else some (.bindingCollision e.bindingName first e.marker)
    | none => collision? ((e.bindingName, e.marker) :: seen) entries

/-- The generated text, or none where no list was asked for. -/
def emit (s : Emission) (c : Classification) : Except Error (Option String) :=
  if c.isEmpty then .ok none
  else match collision? [] c.entries with
    | some error => .error error
    | none => .ok (some (join (s.lines c.entries)))

end Emission

end MarkerIndex
