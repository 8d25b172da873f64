import MarkerIndex.Files.Access
import MarkerIndex.Pass
import MarkerIndex.Project.Discovery
/-!
Bringing a file in line with a pass. A file that already holds the generated text is left alone, and
where nothing was generated no file is to stand.
-/

namespace MarkerIndex

/-- What was done to the file. -/
inductive Delivery
  | written
  | unchanged
  | removed
  | skipped
  deriving DecidableEq

namespace Disk

/-- The text that a file holds, if there is a file. -/
def existing (d : Disk) (p : FilePath) : Except Error (Option String) :=
  if d.isFile p then (d.read p).map some else .ok none

/-- Makes a file hold the generated text, or none stand where nothing was generated. -/
def deliver (d : Disk) (p : FilePath) (generated : Option String) :
    Change (Except Error Delivery) :=
  match d.existing p with
  | .error error => ⟨.error error, d⟩
  | .ok existing =>
    match generated, existing with
    | none, none => ⟨.ok .skipped, d⟩
    | none, some _ =>
      let change := d.remove p
      ⟨change.result.map fun () => .removed, change.disk⟩
    | some text, existing =>
      if existing = some text then ⟨.ok .unchanged, d⟩
      else
        let change := d.write p text
        ⟨change.result.map fun () => .written, change.disk⟩

/-- Fails unless a file holds exactly what would be delivered to it. -/
def verify (d : Disk) (p : FilePath) (generated : Option String) : Except Error Unit :=
  match d.existing p with
  | .error error => .error error
  | .ok existing => if existing = generated then .ok () else .error (.staleOutput p)

/-- Loads the crate of a project and runs a pass over it. -/
def generateTraced (d : Disk) (project : FilePath) (settings : Settings) :
    Traced (Option Artifact) := do
  let corpus ← d.discover project settings
  Pass.generateTraced corpus settings

def generate (d : Disk) (project : FilePath) (settings : Settings) :
    Except Error (Option Artifact) :=
  (d.generateTraced project settings).result

end Disk

end MarkerIndex
