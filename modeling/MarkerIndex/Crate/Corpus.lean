import MarkerIndex.Path.Normal
import MarkerIndex.Session.Event
/-!
The source files of a crate. Loading starts at the root file and follows every `mod name;`
declaration, so that a file which no module declares is never read. Each file is tagged with the
module it defines, and a corpus keeps its files in path order. The files a loading has got through
are kept in the order of loading, also when it fails. A file is entered before it is parsed and
counted when it has been, so a file that cannot be parsed is entered and left and never counted.
-/

namespace MarkerIndex

structure SourceFile where
  path : FilePath
  /-- The module that the file defines. -/
  module : ItemPath
  items : List Item
  isRoot : Bool

structure Corpus where
  files : List SourceFile

/-- A declared module that is still to be looked for. The first of its candidates that exists holds
it; each comes with the directory that its own modules lie in. -/
structure PendingModule where
  module : ItemPath
  candidates : List (FilePath × FilePath)

namespace Attribute

/-- The text that a `path` attribute names. -/
def pathValue? (a : Attribute) : Option String :=
  if a.path.isName "path" then
    match a.argument with
    | .value text => text
    | _ => none
  else none

end Attribute

namespace PendingModule

/-- Where a module is declared. -/
structure Site where
  module : ItemPath
  /-- The directory of the declaring file. -/
  fileDirectory : FilePath
  /-- The directory that the modules declared here lie in. -/
  directory : FilePath
  /-- The declaration stands inside a module that is written in place. -/
  inline : Bool

/-- The files that a declaration without a body may mean. -/
def candidatesOf (site : Site) (name : String) (path : Option String) :
    List (FilePath × FilePath) :=
  match path with
  | some path =>
    let base := if site.inline then site.directory else site.fileDirectory
    let file := (base.join ⟨path⟩).normalize
    [(file, file.directory)]
  | none =>
    let own := (site.directory / name).normalize
    [((site.directory / (name ++ ".rs")).normalize, own), (own / "mod.rs", own)]

mutual

/-- The modules without a body that an item declares, in source order. -/
def declared (site : Site) : Item → List PendingModule
  | .submodule rawName attributes content =>
    let name := Text.unraw rawName
    let path := attributes.findSome? Attribute.pathValue?
    match content with
    | some nested =>
      declaredAll
        { site with
          module := site.module.join name
          directory := site.directory / path.getD name
          inline := true }
        nested
    | none => [⟨site.module.join name, candidatesOf site name path⟩]
  | _ => []

def declaredAll (site : Site) : List Item → List PendingModule
  | [] => []
  | item :: items => declared site item ++ declaredAll site items

end

end PendingModule

namespace SourceFile

/-- The modules that a file declares, given the directory its modules lie in. -/
def declaredModules (f : SourceFile) (directory : FilePath) : List PendingModule :=
  PendingModule.declaredAll ⟨f.module, f.path.directory, directory, false⟩ f.items

end SourceFile

/-- Why a loading stops early. -/
inductive LoadProblem
  | unreadable (error : Error)
  | unparsable (file : FilePath) (failure : Grammar.Failure)
  /-- A file was found beyond the number of files that may be loaded. -/
  | beyondLimit (file : FilePath)

namespace LoadProblem

def error : LoadProblem → Error
  | unreadable error => error
  | unparsable file failure => .parse file failure
  | beyondLimit _ => .fileSystem .read .tooManyFiles

/-- A file that cannot be parsed was entered. -/
def events : LoadProblem → List Event
  | unreadable _ | beyondLimit _ => []
  | unparsable file _ => Event.inFile file []

end LoadProblem

/-- The files that were loaded, in the order of loading, and what stopped it, if anything did. -/
structure Loading where
  loaded : List SourceFile
  problem : Option LoadProblem

/-- What a loading asks of its surroundings: the text of a file, unless there is none to be read,
and the items of a text. -/
structure Loader where
  read : FilePath → Except Error (Option String)
  parse : String → Except Grammar.Failure (List Item)

/-- A file that was found for a module, with the directory that its own modules lie in. -/
structure FoundFile where
  path : FilePath
  directory : FilePath
  text : String

namespace Loader

/-- Looks for the file of a module. A candidate that was loaded before ends the search. -/
def find (l : Loader) (visited : List FilePath) :
    List (FilePath × FilePath) → Except Error (Option FoundFile)
  | [] => .ok none
  | (path, directory) :: others =>
    if visited.contains path then .ok none
    else match l.read path with
      | .error error => .error error
      | .ok (some text) => .ok (some ⟨path, directory, text⟩)
      | .ok none => l.find visited others

/-- Loads what is pending, the last declared module first. At most `limit` files are loaded. -/
def run (l : Loader) (limit : Nat) (visited : List FilePath) (pending : List PendingModule) :
    Loading :=
  match pending with
  | [] => ⟨[], none⟩
  | next :: pending =>
    match l.find visited next.candidates with
    | .error error => ⟨[], some (.unreadable error)⟩
    | .ok none => l.run limit visited pending
    | .ok (some found) =>
      match limit with
      | 0 => ⟨[], some (.beyondLimit found.path)⟩
      | limit + 1 =>
        match l.parse found.text with
        | .error failure => ⟨[], some (.unparsable found.path failure)⟩
        | .ok items =>
          let file : SourceFile := ⟨found.path, next.module, items, false⟩
          let declared := (file.declaredModules found.directory).reverse
          let later := l.run limit (found.path :: visited) (declared ++ pending)
          { later with loaded := file :: later.loaded }
termination_by (limit, pending.length)

/-- Loads a crate from the text of its root file. -/
def load (l : Loader) (limit : Nat) (root : FilePath) (text : String) : Loading :=
  match l.parse text with
  | .error failure => ⟨[], some (.unparsable root failure)⟩
  | .ok items =>
    let file : SourceFile := ⟨root, .crateRoot, items, true⟩
    let later := l.run limit [root] (file.declaredModules root.directory).reverse
    { later with loaded := file :: later.loaded }

end Loader

namespace Loading

/-- The corpus of a loading that got through, its files in path order. -/
def corpus (l : Loading) : Except Error Corpus :=
  match l.problem with
  | some problem => .error problem.error
  | none => .ok ⟨l.loaded.mergeSort fun f g => f.path.le g.path⟩

/-- The events of a loading, file by file. -/
def events (l : Loading) : List Event :=
  (l.loaded.flatMap fun f => Event.inFile f.path [.fileDone]) ++
    (l.problem.map LoadProblem.events).getD []

end Loading

/-- Texts under the paths of their files, each path once. -/
structure SourceTable where
  entries : List (FilePath × String)

namespace SourceTable

def lookup (t : SourceTable) (path : FilePath) : Option String :=
  t.entries.lookup path

/-- Puts a text under a path, in place of any text that is there. -/
def insert (t : SourceTable) (path : FilePath) (text : String) : SourceTable :=
  ⟨t.entries.filter (·.1 ≠ path) ++ [(path, text)]⟩

/-- A table of sources that are listed by path. Paths count in normal form, and of two texts for one
path the later stands. -/
def ofList (sources : List (FilePath × String)) : SourceTable :=
  sources.foldl (fun t (path, text) => t.insert path.normalize text) ⟨[]⟩

/-- The names of the file that a crate starts from, in the order in which they are tried. -/
def rootNames : List FilePath := [⟨"lib.rs"⟩, ⟨"main.rs"⟩]

def root? (t : SourceTable) : Option (FilePath × String) :=
  rootNames.findSome? fun name => (t.lookup name).map fun text => (name, text)

def loader (t : SourceTable) : Loader where
  read path := .ok (t.lookup path)
  parse := Grammar.parseFile

/-- Loads the crate that the sources hold, unless they lack a root. -/
def load? (t : SourceTable) : Option Loading :=
  t.root?.map fun (path, text) => t.loader.load t.entries.length path text

/-- The crate that the sources hold. Without a root nothing is entered. -/
def loadTraced (t : SourceTable) : Traced Corpus :=
  match t.load? with
  | none => ⟨.error (.configuration .noRootAmongSources), []⟩
  | some loading => ⟨loading.corpus, .setProgress 0 t.entries.length :: loading.events⟩

def events (t : SourceTable) : List Event :=
  t.loadTraced.events

end SourceTable

namespace Corpus

/-- The corpus of a list of sources, by paths relative to the source directory. -/
def ofSources (sources : List (FilePath × String)) : Except Error Corpus :=
  (SourceTable.ofList sources).loadTraced.result

def root? (c : Corpus) : Option SourceFile :=
  c.files.find? (·.isRoot)

end Corpus

end MarkerIndex
