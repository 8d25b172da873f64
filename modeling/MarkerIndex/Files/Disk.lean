import MarkerIndex.Files.Tree
/-!
A file tree as a program sees it that works in one of its directories. Paths are followed name by
name from there: every directory on the way must exist, also one that is left again by going up.
Going up from the root fails, so that a path has no more steps up than there are directories to go
up from; on a system that stays at the root instead, such paths have no counterpart here. Operations
that change the tree give the new one, also when they fail.
-/

namespace MarkerIndex

structure Disk where
  tree : FileTree
  /-- The directory that relative paths start from. -/
  here : Place
  deriving DecidableEq

namespace Disk

/-- Takes one more stretch of a path. What is gone through must be a directory. -/
def step (t : FileTree) (place : Place) (name : String) : Except FileProblem Place :=
  match t.node? place with
  | none => .error .notFound
  | some (.file _) | some (.special _) => .error .notDirectory
  | some .directory =>
    if name = "" || name = "." then .ok place
    else if name = ".." then (if place = [] then .error .notFound else .ok place.dropLast)
    else .ok (place ++ [name])

/-- The place that a path names. Nothing needs to lie there yet. -/
def locate (d : Disk) (p : FilePath) : Except FileProblem Place :=
  if p.text.isEmpty then .error .notFound
  else
    ((FilePath.splitSlashes p.text.toList).map String.ofList).foldlM (step d.tree)
      (if p.isAbsolute then [] else d.here)

/-- What a path leads to. -/
def node (d : Disk) (p : FilePath) : Except FileProblem FileNode :=
  match d.locate p with
  | .error problem => .error problem
  | .ok place =>
    match d.tree.node? place with
    | none => .error .notFound
    | some node => .ok node

def exists? (d : Disk) (p : FilePath) : Bool :=
  match d.node p with
  | .ok _ => true
  | .error _ => false

def isDirectory (d : Disk) (p : FilePath) : Bool :=
  match d.node p with
  | .ok .directory => true
  | _ => false

def isFile (d : Disk) (p : FilePath) : Bool :=
  match d.node p with
  | .ok (.file _) => true
  | _ => false

/-- What is read at a path. -/
def readBytes (d : Disk) (p : FilePath) : Except FileProblem ByteArray :=
  match d.node p with
  | .error problem => .error problem
  | .ok .directory => .error .isDirectory
  | .ok (.file contents) => .ok contents
  | .ok (.special device) =>
    match device.source with
    | some contents => .ok contents
    | none => .error .noDevice

/-- The text that is read at a path. -/
def readText (d : Disk) (p : FilePath) : Except FileProblem String :=
  match d.readBytes p with
  | .error problem => .error problem
  | .ok contents =>
    match String.fromUTF8? contents with
    | some text => .ok text
    | none => .error .notText

/-- The outcome of an operation with the tree that it leaves behind. -/
structure Change (α : Type) where
  result : α
  disk : Disk

abbrev Attempt := Change (Except FileProblem Unit)

def fail (d : Disk) (problem : FileProblem) : Attempt := ⟨.error problem, d⟩

/-- Makes one directory. -/
def makeDirectory (d : Disk) (p : FilePath) : Attempt :=
  match d.locate p.withoutEnd with
  | .error problem => d.fail problem
  | .ok place =>
    if d.tree.exists? place then d.fail .alreadyExists
    else ⟨.ok (), { d with tree := d.tree.put place .directory }⟩

/-- Makes a directory, after the directories that it lies in where they are missing. A directory
that is there already is as good. -/
def makeDirectories (d : Disk) : Nat → FilePath → Attempt
  | 0, _ => ⟨.ok (), d⟩
  | fuel + 1, p =>
    if p.text.isEmpty then ⟨.ok (), d⟩
    else
      let settle (tried : Attempt) : Attempt :=
        if tried.disk.isDirectory p then ⟨.ok (), tried.disk⟩ else tried
      let first := d.makeDirectory p
      match first.result with
      | .error .notFound =>
        let parents := d.makeDirectories fuel p.directory
        match parents.result with
        | .error problem => parents.disk.fail problem
        | .ok () => settle (parents.disk.makeDirectory p)
      | _ => settle first

/-- Makes a directory with all that it lies in, unless something lies at its path already. -/
def ensureDirectory (d : Disk) (p : FilePath) : Attempt :=
  if d.exists? p then ⟨.ok (), d⟩ else d.makeDirectories (p.text.length + 1) p

/-- Gives a file its contents, which is open and empty by now. If the write breaks off, the file
keeps what was taken. -/
def fill (d : Disk) (place : Place) (contents : ByteArray) : Attempt :=
  let holding (part : ByteArray) : Disk :=
    { d with tree := d.tree.begun.put place (.file part) }
  match d.tree.fault? with
  | some fault =>
    if fault.taken < contents.size then
      ⟨.error fault.problem, holding (contents.extract 0 fault.taken)⟩
    else ⟨.ok (), holding contents⟩
  | none => ⟨.ok (), holding contents⟩

/-- Gives a file its contents. Only the file itself is made where it is missing. -/
def writeContents (d : Disk) (p : FilePath) (text : String) : Attempt :=
  match d.locate p.withoutEnd with
  | .error problem => d.fail problem
  | .ok place =>
    match d.tree.node? place with
    | some .directory => d.fail .isDirectory
    | some (.file _) =>
      if p.endsWithSlash then d.fail .notDirectory else d.fill place text.toUTF8
    | some (.special device) =>
      if p.endsWithSlash then d.fail .notDirectory
      else match device.refusal with
        | some problem => d.fail problem
        | none => ⟨.ok (), d⟩
    | none => if p.endsWithSlash then d.fail .isDirectory else d.fill place text.toUTF8

/-- Takes a file away. -/
def removeFile (d : Disk) (p : FilePath) : Attempt :=
  match d.locate p with
  | .error problem => d.fail problem
  | .ok place =>
    match d.tree.node? place with
    | none => d.fail .notFound
    | some .directory => d.fail .isDirectory
    | some (.file _) | some (.special _) => ⟨.ok (), { d with tree := d.tree.erase place }⟩

end Disk

end MarkerIndex
