import MarkerIndex.Crate.Resolution
import MarkerIndex.Declaration
/-!
The attributed functions of a crate, in file order and inside a file in source order. Functions are
looked for at the level of items, in implementations and traits and in modules written in place,
never inside bodies.
-/

namespace MarkerIndex

namespace Attribute

/-- The attribute marks a function: it stands in front of it and is not its documentation. -/
def isMarker (a : Attribute) : Bool :=
  !a.inner && !a.path.isName "doc"

/-- The text that is the only argument of an attribute. -/
def textArgument? (a : Attribute) : Option String :=
  match a.argument with
  | .tokens [.leaf _ (.literal text)] => Text.literalValue? text
  | _ => none

end Attribute

namespace Declaration

/-- Where a function stands. -/
structure Place where
  file : FilePath
  module : ItemPath
  owner : Option String

section

variable (t : SymbolTable) (registration : ItemPath)

/-- The declaration of a function, if anything marks it. The registration name is the argument of
the first attribute that means the registration marker, whatever later ones say. -/
def ofFunction? (place : Place) (f : Function) : Option Declaration :=
  let marks := (f.attributes.filter Attribute.isMarker).map fun a =>
    ((t.resolvePath place.module a.path).path, a)
  if marks.isEmpty then none
  else some {
    module := place.module
    owner := place.owner
    name := Text.unraw f.name
    file := place.file
    line := f.line
    markers := (marks.map (·.1)).eraseDups
    registration := (marks.find? (·.1 = registration)).bind (·.2.textArgument?) }

mutual

def ofItem (place : Place) : Item → List Declaration
  | .function f => (ofFunction? t registration place f).toList
  | .implementation owner functions =>
    functions.filterMap (ofFunction? t registration { place with owner := some owner })
  | .contract name functions =>
    functions.filterMap (ofFunction? t registration { place with owner := some (Text.unraw name) })
  | .submodule name _ (some content) =>
    ofItems { place with module := place.module.join name, owner := none } content
  | .submodule _ _ none => []
  | .use _ _ => []
  | .externalCrate _ _ => []
  | .invocation _ _ => []
  | .declaration _ => []
  | .other => []

def ofItems (place : Place) : List Item → List Declaration
  | [] => []
  | item :: items => ofItem place item ++ ofItems place items

end

/-- The attributed functions of all files. -/
def ofCorpus (c : Corpus) : List Declaration :=
  c.files.flatMap fun f => ofItems t registration ⟨f.path, f.module, none⟩ f.items

end

end Declaration

end MarkerIndex
