import MarkerIndex.Files.Disk
/-!
Reading and writing files as a pass does it. A failure is an error of the pass that tells what was
being done.
-/

namespace MarkerIndex.Disk

/-- An outcome as one of the pass. -/
def Attempt.during (a : Attempt) (task : FileTask) : Change (Except Error Unit) :=
  ⟨a.result.mapError (.fileSystem task), a.disk⟩

def read (d : Disk) (p : FilePath) : Except Error String :=
  (d.readText p).mapError (.fileSystem .read)

/-- Makes sure of a directory. -/
def ensure (d : Disk) (p : FilePath) : Change (Except Error Unit) :=
  Attempt.during (d.ensureDirectory p) .createDirectory

/-- Writes a file, after the directories that it lies in where they are missing. -/
def write (d : Disk) (p : FilePath) (text : String) : Change (Except Error Unit) :=
  let ready := if p.directory.text.isEmpty then ⟨.ok (), d⟩ else d.ensure p.directory
  match ready.result with
  | .error error => ⟨.error error, ready.disk⟩
  | .ok () => Attempt.during (ready.disk.writeContents p text) .write

def remove (d : Disk) (p : FilePath) : Change (Except Error Unit) :=
  Attempt.during (d.removeFile p) .remove

end MarkerIndex.Disk
