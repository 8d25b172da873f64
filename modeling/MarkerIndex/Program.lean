import MarkerIndex.Command.Run
import MarkerIndex.CommandLine.Reading
/-!
The program as a function: from a command line, the environment and the disk to what is printed, how
the disk changes, and the exit code.
-/

namespace MarkerIndex

structure Exit where
  code : Nat
  output : String
  notes : String
  disk : Disk

namespace Program

def run (d : Disk) (environment : List (String × String)) (isTerminal : Bool)
    (arguments : List String) : Exit :=
  let configured := environment.lookup CommandLine.Switch.configVariable
  match CommandLine.read configured arguments with
  | .error refusal =>
    if refusal.isAnswer then ⟨0, refusal.text configured, "", d⟩
    else ⟨2, "", refusal.text configured, d⟩
  | .ok invocation =>
    let outcome := invocation.command.run d (Terminal.usesColors environment isTerminal)
    match outcome.result with
    | .ok () => ⟨0, outcome.output, outcome.notes, outcome.disk⟩
    | .error failure => ⟨1, outcome.output, outcome.notes ++ failure.report, outcome.disk⟩

end Program

end MarkerIndex
