import MarkerIndex.Command.Basic
import MarkerIndex.Config.Lookup
import MarkerIndex.Project.Output
/-!
Generating while a package is being built. The build is told first which paths to watch; the file
then goes to the directory that the build keeps for such files, under the configured name.
-/

namespace MarkerIndex.Disk

/-- The paths whose change makes the build run again. -/
def watched (d : Disk) (package : FilePath) : List FilePath :=
  (package / "src") :: (Config.find? d package).toList

def watchLine (p : FilePath) : String :=
  "cargo:rerun-if-changed=" ++ p.text ++ "\n"

/-- The path of the generated file, if one is to stand. -/
def buildResult (path : FilePath) : Delivery → Option FilePath
  | .written | .unchanged => some path
  | .removed | .skipped => none

/-- Generates for a package into a directory. -/
def generateInto (d : Disk) (package out : FilePath) : Change (Traced (Option FilePath)) :=
  match Config.settings d package none with
  | .error error => ⟨⟨.error error, []⟩, d⟩
  | .ok settings =>
    let made := d.generateTraced package settings
    match made.result with
    | .error error => ⟨⟨.error error, made.events⟩, d⟩
    | .ok artifact =>
      let path := out / settings.fileName
      let change := d.deliver path (artifact.map (·.contents))
      ⟨⟨change.result.map (buildResult path), made.events⟩, change.disk⟩

def build (d : Disk) (package out : FilePath) : Outcome Error (Option FilePath) :=
  let change := d.generateInto package out
  ⟨change.result.result, String.join ((d.watched package).map watchLine), "", change.disk,
    change.result.events⟩

/-- A directory that the build names in a variable. -/
def buildDirectory (environment : List (String × String)) (name : String) : Except Error FilePath :=
  match environment.lookup name with
  | some value => .ok ⟨value⟩
  | none => .error (.configuration (.notSet name))

/-- Generates for the package that is being built. -/
def buildFromVariables (d : Disk) (environment : List (String × String)) :
    Outcome Error (Option FilePath) :=
  let named := do
    let package ← buildDirectory environment "CARGO_MANIFEST_DIR"
    let out ← buildDirectory environment "OUT_DIR"
    return (package, out)
  match named with
  | .error error => ⟨.error error, "", "", d, []⟩
  | .ok (package, out) => d.build package out

end MarkerIndex.Disk
