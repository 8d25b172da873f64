import MarkerIndex.Program
/-!
Which places a run may look at. A disk that holds only some of the files tells which further ones
matter, so that a disk which is asked for more until nothing more is wanted answers every question
of the run.
-/

namespace MarkerIndex

namespace Disk

/-- The place that a path names if every name on the way is that of a directory. -/
def spelledPlace (d : Disk) (p : FilePath) : Place :=
  p.components.foldl
    (fun place c => match c with
      | .root => []
      | .current => place
      | .parent => place.dropLast
      | .normal name => place ++ [name])
    d.here

end Disk

namespace SourceFile

/-- The files that the modules declared in a file may lie in. -/
def wantedFiles (f : SourceFile) : List FilePath :=
  let stem := f.path.text.toList.dropLast.dropLast.dropLast
  let directories := [f.path.directory, ⟨String.ofList stem⟩]
  directories.flatMap fun directory =>
    (f.declaredModules directory).flatMap fun m => m.candidates.map (·.1)

end SourceFile

namespace FileTree

/-- The places that tell whether what lies at a place is ignored. -/
def ignoreFiles (place : Place) : List Place :=
  (above place).flatMap fun base =>
    [[".ignore"], [".gitignore"], [".git"], [".git", "info", "exclude"], [".jj"]].map (base ++ ·)

end FileTree

namespace Program

/-- The files that a pass over a project may read. -/
def wantedSources (d : Disk) (project : FilePath) (settings : Settings) : List FilePath :=
  let roots := match settings.crateRoot with
    | some named => [project.join named]
    | none => Disk.rootNames.map (project / ·)
  let loaded := match d.sourceSet project settings with
    | .error _ => []
    | .ok sources => (d.load sources).loaded
  roots ++ loaded.flatMap SourceFile.wantedFiles

/-- The files that a command may read for a project. -/
def wantedForProject (d : Disk) (project : FilePath) (config : Option FilePath) :
    List FilePath :=
  let configs := match config with
    | some named => [named]
    | none => Config.places project
  configs ++ match Config.settings d project config with
    | .error _ => []
    | .ok settings => wantedSources d project settings

def wantedForCommand (d : Disk) : Command → List FilePath
  | .generate request =>
    wantedForProject d request.project request.config ++ request.output.toList
  | .scan request => wantedForProject d request.project request.config
  | .setUp directory _ => [directory / Config.fileNameInProject]

/-- The places that a run may look at, as far as the disk tells. -/
def wanted (d : Disk) (configured : Option String) (arguments : List String) : List Place :=
  match CommandLine.read configured arguments with
  | .error _ => []
  | .ok invocation =>
    let places := (wantedForCommand d invocation.command).map d.spelledPlace
    (places ++ places.flatMap FileTree.ignoreFiles).eraseDups

end Program

end MarkerIndex
