/-!
What can stand on the command line: commands, the switches that each of them knows, and a path.
-/

namespace MarkerIndex.CommandLine

inductive Switch
  | output
  | check
  | config
  | format
  | verbose
  | force
  | help
  | version
  deriving DecidableEq

namespace Switch

def long : Switch → String
  | output => "output"
  | check => "check"
  | config => "config"
  | format => "format"
  | verbose => "verbose"
  | force => "force"
  | help => "help"
  | version => "version"

def short? : Switch → Option Char
  | output => some 'o'
  | check => none
  | config => some 'c'
  | format => some 'f'
  | verbose => some 'v'
  | force => some 'f'
  | help => some 'h'
  | version => some 'V'

/-- What the value of a switch is called, if it takes one. -/
def valueName? : Switch → Option String
  | output => some "OUTPUT"
  | config => some "CONFIG"
  | format => some "FORMAT"
  | _ => none

def takesValue (s : Switch) : Bool :=
  s.valueName?.isSome

/-- The values that are accepted, where not any is. -/
def values : Switch → List String
  | format => ["json", "terminal"]
  | _ => []

/-- A switch with what follows it. Dots say that it counts. -/
def display (s : Switch) : String :=
  "--" ++ s.long ++ match s.valueName? with
    | some name => " <" ++ name ++ ">"
    | none => if s = verbose then "..." else ""

end Switch

/-- Where on the command line one is: before a command, or behind it. -/
inductive Scope
  | program
  | generate
  | scan
  | init
  | help
  deriving DecidableEq

namespace Scope

/-- The commands in the order in which they are listed. -/
def commands : List Scope := [generate, scan, init, help]

/-- The word that a command is called by. -/
def word : Scope → String
  | program => "markscan"
  | generate => "generate"
  | scan => "scan"
  | init => "init"
  | help => "help"

def command? (word : String) : Option Scope :=
  commands.find? (·.word = word)

/-- The words that lead here. -/
def path : Scope → String
  | program => program.word
  | scope => program.word ++ " " ++ scope.word

/-- The known switches in the order in which they are listed. -/
def switches : Scope → List Switch
  | program => [.help, .version]
  | generate => [.output, .check, .config, .verbose, .help]
  | scan => [.format, .config, .verbose, .help]
  | init => [.force, .help]
  | help => []

def takesPath : Scope → Bool
  | generate | scan => true
  | _ => false

def switchNamed? (scope : Scope) (long : String) : Option Switch :=
  scope.switches.find? (·.long = long)

def switchLettered? (scope : Scope) (short : Char) : Option Switch :=
  scope.switches.find? (·.short? = some short)

end Scope

/-- A place that a command line can fill. -/
inductive Slot
  | path
  | switch (s : Switch)
  deriving DecidableEq

namespace Slot

def display : Slot → String
  | path => "[PATH]"
  | switch s => s.display

end Slot

end MarkerIndex.CommandLine
