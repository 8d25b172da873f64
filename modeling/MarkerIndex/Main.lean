import MarkerIndex.Program.Demand
/-!
The command line. What the run may look at is read first, then the program is run on it, and what it
changed is written back.
-/

namespace MarkerIndex.Main

def pathOf (place : Place) : String :=
  "/" ++ String.intercalate "/" place

def placeOf (path : String) : Place :=
  (path.splitOn "/").filter (· ≠ "")

/-- What lies at a place. Whatever can be read is taken for a file, except for the null device,
which every tree knows; what cannot be read is taken not to be there. -/
def look (place : Place) : IO (Option FileNode) := do
  try
    return some (.file (← IO.FS.readBinFile (pathOf place)))
  catch
    | .inappropriateType .. => return some .directory
    | _ => return none

/-- Adds what lies at a place, and on the way there. -/
def learn (tree : FileTree) (place : Place) : IO FileTree := do
  let mut tree := tree
  for n in List.range place.length do
    let stop := place.take (n + 1)
    unless tree.exists? stop do
      match ← look stop with
      | some node => tree := tree.put stop node
      | none => return tree
  return tree

/-- Reads places until nothing more is wanted. -/
partial def gather (wanted : Disk → List Place) (asked : List Place) (d : Disk) : IO Disk := do
  let missing := (wanted d).filter (!asked.contains ·)
  if missing.isEmpty then return d
  let tree ← missing.foldlM learn d.tree
  gather wanted (asked ++ missing) { d with tree }

/-- Brings the file system in line with a changed tree. -/
def writeBack (before after : FileTree) : IO Unit := do
  for (place, _) in before.entries do
    unless after.exists? place do IO.FS.removeFile (pathOf place)
  for (place, node) in after.entries do
    unless before.node? place = some node do
      match node with
      | .directory => IO.FS.createDirAll (pathOf place)
      | .file contents => IO.FS.writeBinFile (pathOf place) contents
      | .special _ => pure ()

def environment : IO (List (String × String)) := do
  let names := [CommandLine.Switch.configVariable, "CLICOLOR_FORCE", "NO_COLOR", "CLICOLOR"]
  names.filterMapM fun name => do return (← IO.getEnv name).map fun value => (name, value)

/-- Runs the program in the current directory. -/
def run (arguments : List String) : IO UInt32 := do
  let here := placeOf (← IO.currentDir).toString
  let environment ← environment
  let configured := environment.lookup CommandLine.Switch.configVariable
  let tree ← learn .empty here
  let disk ← gather (Program.wanted · configured arguments) [] ⟨tree, here⟩
  let exit := Program.run disk environment (← (← IO.getStdout).isTty) arguments
  writeBack disk.tree exit.disk.tree
  IO.print exit.output
  IO.eprint exit.notes
  return exit.code.toUInt32

end MarkerIndex.Main

def main (arguments : List String) : IO UInt32 :=
  MarkerIndex.Main.run arguments
