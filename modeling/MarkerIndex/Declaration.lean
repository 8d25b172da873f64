import MarkerIndex.ItemPath
import MarkerIndex.Path.Basic
/-!
What a pass finds out about a crate: its attributed functions, the markers it asks lists for, and
the names on each list.
-/

namespace MarkerIndex

/-- A function with at least one attribute. -/
structure Declaration where
  module : ItemPath
  /-- The type or trait that the function belongs to, spelled with a space between tokens. -/
  owner : Option String
  name : String
  file : FilePath
  line : Nat
  /-- The identities of its attributes in the order written, each once. -/
  markers : List ItemPath
  /-- The text argument of the registration attribute. -/
  registration : Option String
  deriving DecidableEq

namespace Declaration

def qualifiedName (d : Declaration) : String :=
  match d.owner with
  | some owner => d.module.display ++ "::" ++ owner ++ "::" ++ d.name
  | none => d.module.display ++ "::" ++ d.name

def carries (d : Declaration) (marker : ItemPath) : Bool :=
  d.markers.contains marker

end Declaration

/-- The registration names on the list of one marker. -/
structure ListEntry where
  marker : ItemPath
  names : List String
  deriving DecidableEq

namespace ListEntry

/-- The name of the constant that holds the list. -/
def bindingName (e : ListEntry) : String :=
  e.marker.simpleName

end ListEntry

/-- One entry for each requested marker, in the order of the requests. -/
structure Classification where
  entries : List ListEntry
  deriving DecidableEq

namespace Classification

/-- A function is on the list of a marker when it carries the marker and has a registration name.
Names keep the order of the functions, and none is dropped for being there twice. -/
def ofDeclarations (declarations : List Declaration) (markers : List ItemPath) : Classification :=
  ⟨markers.map fun marker =>
    ⟨marker, (declarations.filter (·.carries marker)).filterMap (·.registration)⟩⟩

def isEmpty (c : Classification) : Bool :=
  c.entries.isEmpty

def namesFor? (c : Classification) (marker : ItemPath) : Option (List String) :=
  (c.entries.find? (·.marker = marker)).map (·.names)

end Classification

end MarkerIndex
