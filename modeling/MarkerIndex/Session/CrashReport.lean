import MarkerIndex.Session.Context
/-!
The report of a crash: what went wrong, the phase and the file it went wrong in, and how far the
pass had come.
-/

namespace MarkerIndex.CrashReport

def version : String := "0.1.0"

/-- The name of the system that the program runs on. -/
def platform : String := "linux"

/-- A text of at most `limit` characters, the last three of which are dots if some were cut off. -/
def truncate (limit : Nat) (s : String) : String :=
  if s.length ≤ limit then s
  else String.ofList (s.toList.take (limit - 3)) ++ "..."

def rule : String := "---------------------------------------------------------------"

def phaseLine (s : Session) : String :=
  match s.context.phase with
  | some phase => "  Phase: " ++ phase.name
  | none => "  Phase: (not set - crash occurred before scanning started)"

def fileLines (s : Session) : List String :=
  match s.context.file with
  | some file => ["  File: " ++ file.text]
  | none => []

def progressLines (s : Session) : List String :=
  if s.progress.total = 0 then []
  else ["  Progress: " ++ toString s.progress.processed ++ " / " ++ toString s.progress.total ++
    " files"]

/-- The lines of a report. A crash may come without a message. -/
def lines (s : Session) (message : Option String) : List String :=
  ["", "==================== MARKSCAN CRASH REPORT ====================", "  Version: " ++ version,
    "  Platform: " ++ platform, "  PANIC: " ++ truncate 200 (message.getD "Unknown panic"), rule,
    phaseLine s] ++ fileLines s ++ progressLines s ++
    [rule, "  Run with RUST_BACKTRACE=1 for stack trace"]

end MarkerIndex.CrashReport
