import MarkerIndex.Files.Disk
import MarkerIndex.Session.Event
/-!
What a user can ask for, what comes of it, and why it may fail.
-/

namespace MarkerIndex

inductive ReportFormat
  | json
  | terminal
  deriving DecidableEq

/-- Generates the lists of a project, into a file or for everyone to see. When checking, the file is
only compared. -/
structure GenerateRequest where
  project : FilePath
  output : Option FilePath
  check : Bool
  config : Option FilePath
  deriving DecidableEq

/-- Reports what a pass over a project sees. -/
structure ScanRequest where
  project : FilePath
  format : ReportFormat
  config : Option FilePath
  deriving DecidableEq

inductive Command
  | generate (request : GenerateRequest)
  | scan (request : ScanRequest)
  /-- Writes a standard configuration file, also over one that is there if forced to. -/
  | setUp (directory : FilePath) (force : Bool)
  deriving DecidableEq

inductive CommandFailure
  | pass (error : Error)
  | settings (project : FilePath) (error : Error)
  | alreadySetUp
  deriving DecidableEq

namespace CommandFailure

/-- What went wrong, then the causes behind it, outermost first. -/
def causes : CommandFailure → List String
  | pass error => error.message :: error.details
  | settings project error =>
    ("Failed to load configuration for " ++ project.text) :: error.message :: error.details
  | alreadySetUp => ["Configuration file already exists. Use --force to overwrite."]

/-- The failure in one stretch. -/
def summary (f : CommandFailure) : String :=
  String.intercalate ": " f.causes

/-- A text with something before its first line, and as much room before the others. -/
def indented (lead : String) (text : String) : String :=
  lead ++ String.intercalate ("\n" ++ String.ofList (List.replicate lead.length ' '))
    (text.splitOn "\n")

/-- A number on the right of five columns, for one of several causes. -/
def numberLead (n : Nat) : String :=
  let digits := toString n
  String.ofList (List.replicate (5 - digits.length) ' ') ++ digits ++ ": "

def causeLines : List String → List String
  | [cause] => [indented "    " cause]
  | several => several.zipIdx.map fun (cause, n) => indented (numberLead n) cause

/-- The failure as the user is told of it. Several causes are numbered. -/
def report (f : CommandFailure) : String :=
  match f.causes with
  | [] => ""
  | [only] => "Error: " ++ only ++ "\n"
  | outermost :: causes =>
    "Error: " ++ outermost ++ "\n\nCaused by:\n" ++ String.intercalate "\n" (causeLines causes) ++
      "\n"

end CommandFailure

/-- What is left when something has been run: its result, what it printed, what it said beside that,
the disk, and the events on the way. -/
structure Outcome (ε α : Type) where
  result : Except ε α
  output : String
  notes : String
  disk : Disk
  events : List Event

end MarkerIndex
