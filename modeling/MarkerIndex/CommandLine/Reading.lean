import MarkerIndex.Command.Basic
import MarkerIndex.CommandLine.Refusal
/-!
Reading a command line from left to right. A value is looked at only when the next thing is read, so
that a mistake in the next thing may be reported first.
-/

namespace MarkerIndex.CommandLine

/-- A command to be run, and how much the user wants to hear of it. -/
structure Invocation where
  command : Command
  verbosity : Nat
  deriving DecidableEq

/-- What was read behind a command. -/
structure Reading where
  scope : Scope
  /-- The filled slots, in the order in which each was last filled. -/
  given : List (Slot × String)
  verbosity : Nat
  /-- A slot that is still to be filled, with its value once that has been read. -/
  pending : Option (Slot × Option String)
  /-- Everything that follows is taken as it stands. -/
  literal : Bool
  deriving DecidableEq

namespace Reading

def start (scope : Scope) : Reading := ⟨scope, [], 0, none, false⟩

def value? (r : Reading) (slot : Slot) : Option String :=
  r.given.lookup slot

def isGiven (r : Reading) (slot : Slot) : Bool :=
  (r.value? slot).isSome

/-- The slots that the user has filled so far. -/
def used (r : Reading) : List Slot :=
  r.given.map (·.1)

def without (r : Reading) (slot : Slot) : Reading :=
  { r with given := r.given.filter (·.1 ≠ slot) }

/-- Whether a value will do for a slot. -/
def accepts (slot : Slot) (value : String) : Bool :=
  match slot with
  | .path => true
  | .switch s => s.values.isEmpty || s.values.contains value

/-- Why a value cannot fill a slot, if it cannot. A slot is filled once. -/
def problem? (r : Reading) : Slot → Option String → Option Refusal
  | slot, none => some (.missingValue slot)
  | slot, some value =>
    match slot with
    | .switch s =>
      if r.isGiven slot then some (.repeated r.scope s)
      else if value.isEmpty then some (.missingValue slot)
      else if accepts slot value then none
      else some (.unknownValue s value)
    | .path => if value.isEmpty then some (.missingValue slot) else none

/-- Fills a slot as far as that goes. A slot that is filled again becomes empty. -/
def fill (r : Reading) (slot : Slot) : Option String → Reading
  | none => r
  | some value =>
    if r.isGiven slot then r.without slot else { r with given := r.given ++ [(slot, value)] }

/-- Why the pending slot cannot be filled, if it cannot. -/
def pendingProblem? (r : Reading) : Option Refusal :=
  r.pending.bind fun (slot, value) => r.problem? slot value

/-- The reading with the pending slot filled as far as that goes. -/
def settled (r : Reading) : Reading :=
  match r.pending with
  | none => r
  | some (slot, value) => fill { r with pending := none } slot value

def settle (r : Reading) : Except Refusal Reading :=
  match r.pendingProblem? with
  | some refusal => .error refusal
  | none => .ok r.settled

/-- Fills a slot at once. -/
def record (r : Reading) (slot : Slot) (value : String) : Except Refusal Reading := do
  let r ← r.settle
  match r.problem? slot (some value) with
  | some refusal => .error refusal
  | none => .ok (r.fill slot (some value))

/-- The highest level of verbosity. -/
def maxVerbosity : Nat := 255

/-- Hears a switch that takes no value. -/
def hear (r : Reading) (s : Switch) : Except Refusal Reading := do
  let r ← r.settle
  match s with
  | .help => .error (.help r.scope)
  | .version => .error .version
  | .verbose =>
    let cleared := r.without (.switch s)
    .ok { cleared with
      given := cleared.given ++ [(.switch s, "")], verbosity := min maxVerbosity (r.verbosity + 1) }
  | _ => r.record (.switch s) "true"

/-- Waits for the value of a switch. -/
def await (r : Reading) (s : Switch) : Except Refusal Reading := do
  let r ← r.settle
  .ok { r with pending := some (.switch s, none) }

/-- What to do about something that looks like a switch and is none. -/
def passTip (scope : Scope) (written : String) : Option Tip :=
  if scope.takesPath then some (.passAsValue written) else none

/-- The refusal of a long switch that is not known. A similar one counts as used. -/
def unknownLong (r : Reading) (name : String) : Refusal :=
  let used := r.settled.used
  let written := "--" ++ name
  match (Text.nearest? name (r.scope.switches.map Switch.long)).bind r.scope.switchNamed? with
  | some s =>
    let slot := Slot.switch s
    .unknownArgument r.scope written (some (.similarSwitch s))
      (if used.contains slot then used else used ++ [slot])
  | none => .unknownArgument r.scope written (passTip r.scope written) used

/-- A name, and the value behind the first equals sign if there is one. -/
def splitValue (body : List Char) : String × Option String :=
  let name := String.ofList (body.takeWhile (· ≠ '='))
  match body.dropWhile (· ≠ '=') with
  | [] => (name, none)
  | _ :: value => (name, some (String.ofList value))

/-- Reads what follows two dashes. -/
def takeLong (r : Reading) (body : List Char) : Except Refusal Reading :=
  let (name, value?) := splitValue body
  match r.scope.switchNamed? name, value? with
  | none, _ => .error (r.unknownLong name)
  | some s, some value =>
    if s.takesValue then r.record (.switch s) value
    else .error (.unexpectedValue r.scope s value (r.used ++ [.switch s]))
  | some s, none => if s.takesValue then r.await s else r.hear s

/-- Reads what follows one dash: letters, the last of which may have its value right behind it. -/
def takeShort (r : Reading) : List Char → Except Refusal Reading
  | [] => .ok r
  | c :: cs =>
    match r.scope.switchLettered? c with
    | none =>
      let written := "-" ++ String.singleton c
      .error (.unknownArgument r.scope written (passTip r.scope written) [])
    | some s =>
      if s.takesValue then
        match cs with
        | [] => r.await s
        | '=' :: value => r.record (.switch s) (String.ofList value)
        | value => r.record (.switch s) (String.ofList value)
      else
        match r.hear s with
        | .error refusal => .error refusal
        | .ok r => r.takeShort cs

/-- Whether a path has been read already. -/
def hasPath (r : Reading) : Bool :=
  r.isGiven .path || r.pending.any (·.1 = .path)

/-- Reads something that is no switch. -/
def takePlain (r : Reading) (word : String) : Except Refusal Reading :=
  if r.scope.takesPath && !r.hasPath then do
    let r ← r.settle
    .ok { r with pending := some (.path, some word) }
  else .error (.unknownArgument r.scope word none [])

/-- Reads one word. -/
def take (r : Reading) (word : String) : Except Refusal Reading :=
  if r.literal then r.takePlain word
  else
    match word.toList with
    | ['-', '-'] => .ok { r with literal := true }
    | '-' :: '-' :: body => r.takeLong body
    | '-' :: c :: cs => r.takeShort (c :: cs)
    | _ =>
      match r.pending with
      | some (slot, none) => .ok { r with pending := some (slot, some word) }
      | _ => r.takePlain word

/-- The reading when nothing follows any more. The variable for the configuration file fills its
slot if nothing else did. -/
def finish (configured : Option String) (r : Reading) : Except Refusal Reading := do
  let r ← r.settle
  let r ← match configured with
    | some value =>
      if r.scope.switches.contains .config && !r.isGiven (.switch .config) then
        r.record (.switch .config) value
      else .ok r
    | none => .ok r
  if r.isGiven (.switch .check) && !r.isGiven (.switch .output) then .error (.missingOutput r.used)
  else .ok r

def file? (r : Reading) (s : Switch) : Option FilePath :=
  (r.value? (.switch s)).map (⟨·⟩)

/-- The command that a finished reading asks for. -/
def invocation (r : Reading) : Invocation :=
  let project : FilePath := ⟨(r.value? .path).getD "."⟩
  let command := match r.scope with
    | .generate =>
      .generate ⟨project, r.file? .output, r.isGiven (.switch .check), r.file? .config⟩
    | .scan =>
      let format := if r.value? (.switch .format) = some "json" then .json else .terminal
      .scan ⟨project, format, r.file? .config⟩
    | _ => .setUp ⟨"."⟩ (r.isGiven (.switch .force))
  ⟨command, r.verbosity⟩

end Reading

/-- The help that is asked for by naming commands. -/
def helpOn (scope : Scope) : List String → Refusal
  | [] => .help scope
  | word :: words =>
    match (if scope = .program then Scope.command? word else none) with
    | some command => helpOn command words
    | none => .unknownCommand scope word []

/-- The refusal of a long switch that stands before any command and is not known there. -/
def unknownFirstLong (name : String) (rest : List String) : Refusal :=
  let written := "--" ++ name
  let unknown := Refusal.unknownArgument .program written
  let nearIn (scope : Scope) : Option Switch :=
    (Text.nearest? name (scope.switches.map Switch.long)).bind scope.switchNamed?
  match nearIn .program with
  | some s => unknown (some (.similarSwitch s)) [.switch s]
  | none =>
    let later := (rest.filterMap Scope.command?).findSome? fun command =>
      (nearIn command).map (Tip.switchOfCommand command)
    unknown later []

/-- The answer to a first word that is no command. -/
def refuseFirst (word : String) (rest : List String) : Refusal :=
  match word.toList with
  | '-' :: '-' :: body =>
    match (Reading.start .program).takeLong body with
    | .error (.unknownArgument ..) => unknownFirstLong (Reading.splitValue body).1 rest
    | .error refusal => refusal
    | .ok _ => .nothing
  | '-' :: c :: cs =>
    match (Reading.start .program).takeShort (c :: cs) with
    | .error refusal => refusal
    | .ok _ => .nothing
  | _ => .unknownCommand .program word (Text.similar word (Scope.commands.map Scope.word))

/-- The answer to a first word behind two dashes, where no command is looked for. -/
def refuseLiteral (word : String) : Refusal :=
  match Scope.command? word with
  | some command => .unknownArgument .program word (some (.dropDashes command)) []
  | none => .unknownCommand .program word (Text.similar word (Scope.commands.map Scope.word))

/-- What a command line asks for. `configured` is the value of the variable for the configuration
file. -/
def read (configured : Option String) : List String → Except Refusal Invocation
  | [] | ["--"] => .error .nothing
  | "--" :: word :: _ => .error (refuseLiteral word)
  | word :: rest =>
    match Scope.command? word with
    | none => .error (refuseFirst word rest)
    | some .help => .error (helpOn .program rest)
    | some command => do
      let r ← rest.foldlM Reading.take (Reading.start command)
      let r ← r.finish configured
      return r.invocation

/-- What is logged at a level of verbosity. -/
def logFilter : Nat → String
  | 0 => "markscan=warn"
  | 1 => "markscan=info"
  | _ => "markscan=debug"

end MarkerIndex.CommandLine
