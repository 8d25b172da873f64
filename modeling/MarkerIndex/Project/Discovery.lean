import MarkerIndex.Files.Access
import MarkerIndex.Files.Walk
import MarkerIndex.Crate.Corpus
import MarkerIndex.Settings
/-!
Finding and loading the crate of a project. The root file is located first; the source files are
those below its directory that are not ignored. A declared module whose file lies there is loaded
only if it is one of them; a file that lies elsewhere is loaded if it exists.
-/

namespace MarkerIndex

/-- What loading starts from: the root file, its directory, and the source files below that. -/
structure SourceSet where
  root : FilePath
  directory : FilePath
  candidates : List FilePath
  deriving DecidableEq

namespace Disk

/-- The names of the root file of a project, in the order in which they are tried. -/
def rootNames : List String := ["src/lib.rs", "src/main.rs"]

/-- The root file of a project, as it is spelled from the project's directory. -/
def crateRoot (d : Disk) (project : FilePath) (named : Option FilePath) : Except Error FilePath :=
  match named with
  | some named =>
    let path := project.join named
    if d.isFile path then .ok path else .error (.configuration (.rootMissing path))
  | none =>
    match (rootNames.map (project / ·)).find? d.isFile with
    | some path => .ok path
    | none => .error (.configuration (.noRootUnder project))

/-- The source files of a project. -/
def sourceSet (d : Disk) (project : FilePath) (settings : Settings) : Except Error SourceSet :=
  match d.crateRoot project settings.crateRoot with
  | .error error => .error error
  | .ok located =>
    let root := located.normalize
    (d.sourceFiles root.directory settings.ignore).map fun candidates =>
      ⟨root, root.directory, candidates⟩

/-- The text of a file that a module may be loaded from, unless there is none. -/
def moduleText (d : Disk) (sources : SourceSet) (p : FilePath) : Except Error (Option String) :=
  let hidden := match p.below? sources.directory with
    | some below => !sources.candidates.contains (FilePath.ofComponents below)
    | none => false
  if hidden || !d.isFile p then .ok none else (d.read p).map some

def loader (d : Disk) (sources : SourceSet) : Loader where
  read := d.moduleText sources
  parse := Grammar.parseFile

/-- More files than there are spellings of what lies on the disk are never loaded: a normal path
goes up from here, as often as there are directories to go up from, or starts at the root, and then
goes down. That there are no more spellings rests on `Disk.step`, which does not go up from the
root. -/
def loadLimit (d : Disk) : Nat :=
  d.tree.entries.length * (d.here.length + 2)

/-- Loads the crate of its sources. -/
def load (d : Disk) (sources : SourceSet) : Loading :=
  match d.read sources.root with
  | .error error => ⟨[], some (.unreadable error)⟩
  | .ok text => (d.loader sources).load d.loadLimit sources.root text

/-- Finds and loads the crate of a project. -/
def discover (d : Disk) (project : FilePath) (settings : Settings) : Traced Corpus :=
  let searching := Event.within .discovery []
  match d.sourceSet project settings with
  | .error error => ⟨.error error, searching⟩
  | .ok sources =>
    let loading := d.load sources
    let counted := .setProgress 0 sources.candidates.length :: loading.events
    ⟨loading.corpus, searching ++ Event.within .parsing counted⟩

end Disk

end MarkerIndex
