import MarkerIndex.Path.Basic
/-!
What is known about a running pass while it runs: the phase, the file being read, and how many files
are done. A guard is taken whenever the phase or the file changes, and gives back the whole context
that it found when it is dropped. Progress is not guarded.
-/

namespace MarkerIndex

/-- The stages of a pass. -/
inductive Phase
  | discovery
  | parsing
  | symbolResolution
  | directiveCollection
  | declarationScan
  | classification
  | emission
  deriving DecidableEq

namespace Phase

def all : List Phase :=
  [discovery, parsing, symbolResolution, directiveCollection, declarationScan, classification,
    emission]

def name : Phase → String
  | discovery => "discovery"
  | parsing => "parsing"
  | symbolResolution => "symbol_resolution"
  | directiveCollection => "directive_collection"
  | declarationScan => "declaration_scan"
  | classification => "classification"
  | emission => "emission"

end Phase

structure Context where
  phase : Option Phase
  file : Option FilePath
  deriving DecidableEq

def Context.empty : Context := ⟨none, none⟩

structure Progress where
  processed : Nat
  total : Nat
  deriving DecidableEq

/-- The context with the guards that are alive, newest first, each as the context it gives back. -/
structure Session where
  context : Context
  progress : Progress
  guards : List Context
  deriving DecidableEq

namespace Session

def start : Session := ⟨.empty, ⟨0, 0⟩, []⟩

def enterPhase (s : Session) (phase : Phase) : Session :=
  { s with context := { s.context with phase := some phase }, guards := s.context :: s.guards }

def enterFile (s : Session) (file : FilePath) : Session :=
  { s with context := { s.context with file := some file }, guards := s.context :: s.guards }

/-- Drops the newest guard. -/
def leave (s : Session) : Session :=
  match s.guards with
  | [] => s
  | saved :: guards => { s with context := saved, guards }

/-- Drops the oldest guard, which gives back its context all the same. -/
def leaveOldest (s : Session) : Session :=
  match s.guards.getLast? with
  | none => s
  | some saved => { s with context := saved, guards := s.guards.dropLast }

/-- Forgets the context. Guards that are alive still give theirs back. -/
def reset (s : Session) : Session :=
  { s with context := .empty }

def setProgress (s : Session) (processed total : Nat) : Session :=
  { s with progress := ⟨processed, total⟩ }

/-- Counts one more file as done. -/
def fileDone (s : Session) : Session :=
  { s with progress := { s.progress with processed := s.progress.processed + 1 } }

end Session

end MarkerIndex
