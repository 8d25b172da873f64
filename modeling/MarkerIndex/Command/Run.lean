import MarkerIndex.Command.Basic
import MarkerIndex.Config.Lookup
import MarkerIndex.Encoding
import MarkerIndex.Project.Output
import MarkerIndex.Summary
/-!
Running commands. Generated text and reports are output, all else is said beside it, so that the
output can be used as it is. A command that fails has printed nothing.
-/

namespace MarkerIndex

namespace Outcome

def fail {ε α : Type} (d : Disk) (failure : ε) (events : List Event) : Outcome ε α :=
  ⟨.error failure, "", "", d, events⟩

end Outcome

namespace Delivery

def remark (output : FilePath) : Delivery → String
  | written => "Wrote " ++ output.text
  | unchanged => output.text ++ " is up to date"
  | removed => "Removed " ++ output.text ++ " (no grouping directives)"
  | skipped => "No grouping directives; nothing written"

end Delivery

abbrev CommandOutcome := Outcome CommandFailure Unit

namespace Disk

/-- The settings that a command runs with. -/
def commandSettings (d : Disk) (project : FilePath) (config : Option FilePath) :
    Except CommandFailure Settings :=
  (Config.settings d project config).mapError (.settings project)

/-- Compares a file with what was generated. -/
def runCheck (d : Disk) (output : FilePath) (generated : Option String) (events : List Event) :
    CommandOutcome :=
  match d.verify output generated with
  | .error error => .fail d (.pass error) events
  | .ok () => ⟨.ok (), "", output.text ++ " is up to date\n", d, events⟩

/-- Brings a file in line with what was generated. -/
def runDelivery (d : Disk) (output : FilePath) (generated : Option String)
    (events : List Event) : CommandOutcome :=
  let change := d.deliver output generated
  match change.result with
  | .error error => .fail change.disk (.pass error) events
  | .ok delivery => ⟨.ok (), "", delivery.remark output ++ "\n", change.disk, events⟩

/-- Settings are read, and results delivered, outside of any phase. -/
def runGenerate (d : Disk) (request : GenerateRequest) : CommandOutcome :=
  match d.commandSettings request.project request.config with
  | .error failure => .fail d failure []
  | .ok settings =>
    let made := d.generateTraced request.project settings
    match made.result with
    | .error error => .fail d (.pass error) made.events
    | .ok artifact =>
      let generated := artifact.map (·.contents)
      match request.output with
      | none => ⟨.ok (), generated.getD "", "", d, made.events⟩
      | some output =>
        if request.check then d.runCheck output generated made.events
        else d.runDelivery output generated made.events

/-- The report on a project. -/
def reportTraced (d : Disk) (project : FilePath) (settings : Settings) : Traced Report := do
  let corpus ← d.discover project settings
  Pass.analyzeTraced corpus settings

def report (d : Disk) (project : FilePath) (settings : Settings) : Except Error Report :=
  (d.reportTraced project settings).result

def runScan (d : Disk) (colors : Bool) (request : ScanRequest) : CommandOutcome :=
  match d.commandSettings request.project request.config with
  | .error failure => .fail d failure []
  | .ok settings =>
    let made := d.reportTraced request.project settings
    match made.result with
    | .error error => .fail d (.pass error) made.events
    | .ok report =>
      let output := match request.format with
        | .json => report.toJson.pretty ++ "\n"
        | .terminal => report.summary colors
      ⟨.ok (), output, "", d, made.events⟩

def runSetUp (d : Disk) (directory : FilePath) (force : Bool) : CommandOutcome :=
  let path := directory / Config.fileNameInProject
  if d.exists? path && !force then .fail d .alreadySetUp []
  else
    let change := d.write path Config.standardText
    match change.result with
    | .error error => .fail change.disk (.pass error) []
    | .ok () => ⟨.ok (), "Created " ++ Config.fileNameInProject ++ " configuration file\n", "",
        change.disk, []⟩

end Disk

namespace Command

def run (d : Disk) (colors : Bool) : Command → CommandOutcome
  | generate request => d.runGenerate request
  | scan request => d.runScan colors request
  | setUp directory force => d.runSetUp directory force

end Command

end MarkerIndex
