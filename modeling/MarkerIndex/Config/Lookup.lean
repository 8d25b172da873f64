import MarkerIndex.Config.Reading
import MarkerIndex.Config.Validation
import MarkerIndex.Files.Disk
/-!
Where a configuration comes from. A file that is named must be there and readable. Otherwise the
directories are tried from the project's upward, and a file that cannot be read as a configuration
is passed over like one that is not there.
-/

namespace MarkerIndex.Config

/-- How many directories are tried, the first included. -/
def searchDepth : Nat := 10

/-- The files that may hold the configuration of a project, in the order in which they are tried. -/
def places (project : FilePath) : List FilePath :=
  (project.ancestors searchDepth).map (· / fileNameInProject)

/-- The nearest configuration file, whatever it holds. -/
def find? (d : Disk) (project : FilePath) : Option FilePath :=
  (places project).find? d.isFile

/-- The configuration in a file, if it can be read as one. -/
def tryRead? (d : Disk) (p : FilePath) : Option Config :=
  match d.readText p with
  | .error _ => none
  | .ok text => (ofText text).toOption

/-- The configuration of a project: that of the nearest file that holds one. -/
def load (d : Disk) (project : FilePath) : Config :=
  ((places project).findSome? (tryRead? d)).getD standard

/-- The configuration in a file that must hold one. -/
def loadFrom (d : Disk) (p : FilePath) : Except Error Config :=
  match d.readText p with
  | .error problem => .error (.fileSystem .readConfig problem)
  | .ok text =>
    match ofText text with
    | .ok config => .ok config
    | .error failure => .error (.configuration (.malformed (failureReport text failure)))

/-- The settings for a project. A file that is named decides alone. -/
def settings (d : Disk) (project : FilePath) (named : Option FilePath) : Except Error Settings :=
  match named with
  | some p => (loadFrom d p).bind validate
  | none => validate (load d project)

end MarkerIndex.Config
