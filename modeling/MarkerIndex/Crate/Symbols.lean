import MarkerIndex.Crate.Corpus
/-!
What the modules of a crate declare and import. A table is the list of these facts in source order;
scopes are read off it. Of two imports under one name in one module the later counts.
-/

namespace MarkerIndex

/-- The path that an import names. -/
structure ImportTarget where
  segments : List String
  leadingColon : Bool
  deriving DecidableEq

/-- Something that a source file says about a module. -/
inductive Fact
  | module
  | item (name : String)
  | binding (name : String) (target : ImportTarget)
  | glob (target : ImportTarget)
  deriving DecidableEq

structure SymbolTable where
  facts : List (ItemPath × Fact)
  /-- Items of other crates that may be reached through a glob import. -/
  external : List ItemPath

namespace Fact

mutual

/-- What an import says, given the names in front of it. -/
def ofUseTree (leadingColon : Bool) (before : List String) : UseTree → List Fact
  | .path name tree => ofUseTree leadingColon (before ++ [name]) tree
  | .name name =>
    if name = "self" then
      match before.getLast? with
      | some last => [binding last ⟨before, leadingColon⟩]
      | none => []
    else [binding name ⟨before ++ [name], leadingColon⟩]
  | .rename name as_ =>
    if as_ = "_" then []
    else [binding as_ ⟨if name = "self" then before else before ++ [name], leadingColon⟩]
  | .glob => [glob ⟨before, leadingColon⟩]
  | .group trees => ofUseTrees leadingColon before trees

def ofUseTrees (leadingColon : Bool) (before : List String) : List UseTree → List Fact
  | [] => []
  | tree :: trees => ofUseTree leadingColon before tree ++ ofUseTrees leadingColon before trees

end

/-- What the import of another crate, or of this one under another name, says. -/
def ofExternalCrate (name : String) (rename : Option String) : Fact :=
  binding (rename.getD name)
    (if name = "self" then ⟨[ItemPath.crateWord], false⟩ else ⟨[name], true⟩)

/-- What an item says that declares a name and nothing more. An underscore is no name. -/
def ofName (name : String) : List Fact :=
  if name = "_" then [] else [item name]

mutual

/-- What an item says about its module and, where it is a module written in place, about that. -/
def ofItem (m : ItemPath) : Item → List (ItemPath × Fact)
  | .use leadingColon tree => (ofUseTree leadingColon [] tree).map fun fact => (m, fact)
  | .externalCrate name rename => [(m, ofExternalCrate name rename)]
  | .submodule name _ content =>
    (m, item name) ::
      match content with
      | some nested => (m.join name, module) :: ofItems (m.join name) nested
      | none => []
  | .function f => (ofName f.name).map fun fact => (m, fact)
  | .contract name _ => (ofName name).map fun fact => (m, fact)
  | .declaration name => (ofName name).map fun fact => (m, fact)
  | .implementation _ _ => []
  | .invocation _ _ => []
  | .other => []

def ofItems (m : ItemPath) : List Item → List (ItemPath × Fact)
  | [] => []
  | i :: is => ofItem m i ++ ofItems m is

end

def ofFile (f : SourceFile) : List (ItemPath × Fact) :=
  (f.module, module) :: ofItems f.module f.items

end Fact

namespace SymbolTable

def ofCorpus (c : Corpus) : SymbolTable :=
  ⟨c.files.flatMap Fact.ofFile, []⟩

/-- Makes items of other crates visible to glob imports. Paths of this crate are left out. -/
def withExternal (t : SymbolTable) (items : List ItemPath) : SymbolTable :=
  { t with external := t.external ++ items.filter (!·.isLocal) }

def factsOf (t : SymbolTable) (m : ItemPath) : List Fact :=
  (t.facts.filter (·.1 = m)).map (·.2)

def isModule (t : SymbolTable) (m : ItemPath) : Bool :=
  t.facts.any (·.1 = m)

/-- The module holds an item of that name. -/
def hasItem (t : SymbolTable) (m : ItemPath) (name : String) : Bool :=
  t.facts.contains (m, .item name)

/-- The import that binds a name in a module, the last one if several do. -/
def import? (t : SymbolTable) (m : ItemPath) (name : String) : Option ImportTarget :=
  (t.factsOf m).reverse.findSome? fun
    | .binding bound target => if bound = name then some target else none
    | _ => none

def globs (t : SymbolTable) (m : ItemPath) : List ImportTarget :=
  (t.factsOf m).filterMap fun
    | .glob target => some target
    | _ => none

/-- The name is declared in the module, as an item or a child module. -/
def declares (t : SymbolTable) (m : ItemPath) (name : String) : Bool :=
  t.hasItem m name || t.isModule (m.join name)

/-- A path of this crate names a declared item or module. -/
def contains (t : SymbolTable) (p : ItemPath) : Bool :=
  t.isModule p ||
    match p.parent? with
    | some m => t.hasItem m p.simpleName
    | none => false

end SymbolTable

end MarkerIndex
