import MarkerIndex.CommandLine.Help
import MarkerIndex.Session.CrashReport
import MarkerIndex.Text.Likeness
/-!
Why a command line is answered with a text instead of being followed. Asking for help is one of the
reasons; the others are mistakes, told with a hint where one can be given.
-/

namespace MarkerIndex.CommandLine

/-- A way out of a mistake. -/
inductive Tip
  | passAsValue (written : String)
  | similarSwitch (s : Switch)
  /-- A command that stands further on knows the switch. -/
  | switchOfCommand (command : Scope) (s : Switch)
  | dropDashes (command : Scope)
  deriving DecidableEq

inductive Refusal
  | help (scope : Scope)
  | version
  /-- Nothing was asked for. -/
  | nothing
  | unknownCommand (scope : Scope) (written : String) (similar : List String)
  | unknownArgument (scope : Scope) (written : String) (tip : Option Tip) (used : List Slot)
  | repeated (scope : Scope) (s : Switch)
  | missingValue (slot : Slot)
  | unknownValue (s : Switch) (value : String)
  | unexpectedValue (scope : Scope) (s : Switch) (value : String) (used : List Slot)
  /-- There is nothing to check without an output file. -/
  | missingOutput (used : List Slot)
  deriving DecidableEq

def quoted (s : String) : String := "'" ++ s ++ "'"

namespace Tip

def message : Tip → String
  | passAsValue written =>
    "to pass " ++ quoted written ++ " as a value, use " ++ quoted ("-- " ++ written)
  | similarSwitch s => "a similar argument exists: " ++ quoted ("--" ++ s.long)
  | switchOfCommand command s => quoted (command.word ++ " --" ++ s.long) ++ " exists"
  | dropDashes command =>
    "subcommand " ++ quoted command.word ++ " exists; to use it, remove the '--' before it"

end Tip

namespace Refusal

/-- The hint that names which some names are similar to. -/
def similarMessage (what : String) : List String → List String
  | [] => []
  | [name] => ["a similar " ++ what ++ " exists: " ++ quoted name]
  | names =>
    ["some similar " ++ what ++ "s exist: " ++ String.intercalate ", " (names.map quoted)]

/-- What is wrong. -/
def message : Refusal → String
  | help _ | version | nothing => ""
  | unknownCommand _ written _ => "unrecognized subcommand " ++ quoted written
  | unknownArgument _ written _ _ => "unexpected argument " ++ quoted written ++ " found"
  | repeated _ s => "the argument " ++ quoted s.display ++ " cannot be used multiple times"
  | missingValue slot =>
    "a value is required for " ++ quoted slot.display ++ " but none was supplied"
  | unknownValue s value => "invalid value " ++ quoted value ++ " for " ++ quoted s.display
  | unexpectedValue _ s value _ =>
    "unexpected value " ++ quoted value ++ " for " ++ quoted s.display ++
      " found; no more were expected"
  | missingOutput _ =>
    "the following required arguments were not provided:\n  " ++ Switch.output.display

/-- The switch whose accepted values are listed below the message. -/
def valued? : Refusal → Option Switch
  | missingValue (.switch s) => some s
  | unknownValue s _ => some s
  | _ => none

def valueList (r : Refusal) : String :=
  match (r.valued?.map Switch.values).getD [] with
  | [] => ""
  | values => "\n  [possible values: " ++ String.intercalate ", " values ++ "]"

def tips : Refusal → List String
  | unknownCommand _ _ similar => similarMessage "subcommand" similar
  | unknownArgument _ _ tip _ => (tip.map Tip.message).toList
  | unknownValue s value => similarMessage "value" (Text.nearest? value s.values).toList
  | _ => []

def tipList (r : Refusal) : String :=
  match r.tips with
  | [] => ""
  | tips => "\n" ++ String.join (tips.map ("\n  tip: " ++ ·))

def usage? : Refusal → Option String
  | unknownCommand scope _ _ => some (scope.usage [])
  | unknownArgument scope _ _ used => some (scope.usage used)
  | repeated scope _ => some (scope.usage [])
  | unexpectedValue scope _ _ used => some (scope.usage used)
  | missingOutput used => some (Scope.generate.usage (.switch .output :: used))
  | _ => none

/-- Where to learn more. Help itself has no help. -/
def advice : Refusal → String
  | unknownCommand .help _ _ => "\n"
  | _ => "\n\nFor more information, try '--help'.\n"

/-- The text that is shown. `configured` is the value of the variable for the configuration file. -/
def text (configured : Option String) : Refusal → String
  | help scope => scope.helpPage configured
  | version => Scope.program.word ++ " " ++ CrashReport.version ++ "\n"
  | nothing => Scope.program.helpPage configured
  | mistake =>
    "error: " ++ mistake.message ++ mistake.valueList ++ mistake.tipList ++
      ((mistake.usage?.map ("\n\nUsage: " ++ ·)).getD "") ++ mistake.advice

/-- Whether the text is what was asked for. -/
def isAnswer : Refusal → Bool
  | help _ | version => true
  | _ => false

end Refusal

end MarkerIndex.CommandLine
