import MarkerIndex.Source.Token
import MarkerIndex.Text.Quoted
/-!
What a source file declares, as far as names, attributes and nested functions go. Bodies of
functions and the insides of types are checked when a file is read, but nothing of them is kept.
-/

namespace MarkerIndex

/-- A path as it is spelled: names between double colons, maybe with a double colon in front. -/
structure WrittenPath where
  leadingColon : Bool
  segments : List String
  /-- The line of the first segment. -/
  line : Nat
  deriving DecidableEq

namespace WrittenPath

/-- Whether the path is one bare name. -/
def isName (p : WrittenPath) (name : String) : Bool :=
  !p.leadingColon && p.segments = [name]

def spelling (p : WrittenPath) : String :=
  (if p.leadingColon then "::" else "") ++ String.intercalate "::" p.segments

end WrittenPath

inductive AttributeArgument
  | none
  /-- The tokens between the brackets behind the attribute's path. -/
  | tokens (content : List TokenTree)
  /-- A value behind an equals sign, with its text where it is a text literal. -/
  | value (text : Option String)

structure Attribute where
  /-- An inner attribute stands inside what it describes. -/
  inner : Bool
  path : WrittenPath
  argument : AttributeArgument

/-- A named function with what is written above it. -/
structure Function where
  attributes : List Attribute
  name : String
  line : Nat

inductive UseTree
  | path (name : String) (tree : UseTree)
  | name (name : String)
  | rename (name binding : String)
  | glob
  | group (trees : List UseTree)

inductive Item
  | use (leadingColon : Bool) (tree : UseTree)
  | externalCrate (name : String) (rename : Option String)
  /-- A module, with its items where they are written in place. -/
  | submodule (name : String) (attributes : List Attribute) (content : Option (List Item))
  | function (function : Function)
  /-- The functions of one type. The owner is spelled with a space between tokens. -/
  | implementation (owner : String) (functions : List Function)
  /-- A trait. It declares its name and owns its functions. -/
  | contract (name : String) (functions : List Function)
  /-- A call of a syntax extension at the place of an item. -/
  | invocation (path : WrittenPath) (body : List TokenTree)
  /-- Any other item that declares a name. -/
  | declaration (name : String)
  | other

namespace Text

/-- A name without the mark of raw names. -/
def unraw (name : String) : String :=
  match name.toList with
  | 'r' :: '#' :: rest => String.ofList rest
  | _ => name

/-- The value of a text literal of a source file, cooked or raw. -/
def literalValue? (literal : String) : Option String :=
  match literal.toList with
  | '"' :: rest =>
    (Quoted.read Quoted.ordinary .plain rest).map fun (value, _) => String.ofList value
  | 'r' :: rest =>
    let body := (rest.dropWhile (· = '#')).drop 1
    some (String.ofList ((body.reverse.dropWhile (· ≠ '"')).drop 1).reverse)
  | _ => none

end Text

end MarkerIndex
