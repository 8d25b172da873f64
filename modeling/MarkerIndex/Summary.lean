import MarkerIndex.Pass
import MarkerIndex.Terminal.Style
import MarkerIndex.Text.Quoted
/-!
A report for people to read: each list with its names, then each attributed function with its
registration name and its place in the sources.
-/

namespace MarkerIndex

open Terminal (Style)

namespace ListEntry

/-- The lines on one list: what it is called and asks for, and one line for each name. -/
def summaryLines (colors : Bool) (e : ListEntry) : List String :=
  ("  " ++ Style.name.paint colors e.bindingName ++ " " ++
    Style.faint.paint colors ("#[" ++ e.marker.display ++ "]") ++ " (" ++
    toString e.names.length ++ ")") :: e.names.map ("    - " ++ ·)

end ListEntry

namespace Declaration

def summaryLine (colors : Bool) (d : Declaration) : String :=
  let registration := match d.registration with
    | some name => Style.present.paint colors (Text.Quoted.encode name)
    | none => Style.absent.paint colors "unregistered"
  "  " ++ d.qualifiedName ++ " " ++ registration ++ " " ++
    Style.faint.paint colors (d.file.text ++ ":" ++ toString d.line)

end Declaration

namespace Report

/-- A heading and the lines below it, or a remark that there are none. -/
def part (colors : Bool) (title : String) (isEmpty : Bool) (remark : String)
    (lines : List String) : List String :=
  Style.heading.paint colors title ::
    ((if isEmpty then ["  " ++ Style.faint.paint colors remark] else []) ++ lines)

def summaryLines (r : Report) (colors : Bool) : List String :=
  part colors "Groupings" r.markers.isEmpty "none requested"
      (r.classification.entries.flatMap (·.summaryLines colors)) ++
    [""] ++
    part colors "Attributed functions" r.declarations.isEmpty "none found"
      (r.declarations.map (·.summaryLine colors))

def summary (r : Report) (colors : Bool) : String :=
  String.join ((r.summaryLines colors).map (· ++ "\n"))

end Report

end MarkerIndex
