import MarkerIndex.CommandLine.Switch
/-!
What is said about how to use a command. The short form names what was used so far; the help page
explains everything, with descriptions in one column.
-/

namespace MarkerIndex.CommandLine

/-- Words with a space between them. -/
def spaced (words : List String) : String :=
  String.intercalate " " words

namespace Scope

/-- Whether there are switches beside those about the program itself. -/
def hasOptions (scope : Scope) : Bool :=
  scope.switches.any fun s => s ≠ .help && s ≠ .version

/-- The last words of a usage line. -/
def usageEnd : Scope → List String
  | program => ["<COMMAND>"]
  | help => ["[COMMAND]..."]
  | _ => []

/-- How a command is used. Slots in `used` are shown as filled, each switch once; without any,
switches are only hinted at. -/
def usage (scope : Scope) (used : List Slot) : String :=
  let switches := used.filterMap fun
    | .switch s => some s.display
    | .path => none
  let options :=
    if used.isEmpty then (if scope.hasOptions then ["[OPTIONS]"] else []) else switches.eraseDups
  let path :=
    if used.contains .path then ["<PATH>"] else if scope.takesPath then ["[PATH]"] else []
  spaced ([scope.path] ++ options ++ path ++ scope.usageEnd)

def about : Scope → String
  | program =>
    "Group registered functions by marker attributes and emit the lists as Rust source"
  | generate => "Run a generation pass over a crate"
  | scan => "Report directives, attributed functions and groupings without emitting"
  | init => "Initialize configuration file"
  | help => "Print this message or the help of the given subcommand(s)"

end Scope

namespace Switch

/-- The variable that stands in for the value of `config`. -/
def configVariable : String := "MARKSCAN_CONFIG"

/-- The description of a switch. `configured` is the value of the variable for `config`. -/
def about (configured : Option String) : Switch → String
  | output => "Output file (defaults to stdout)"
  | check => "Verify that the output file is up to date instead of writing it"
  | config => "Configuration file [env: " ++ configVariable ++ "=" ++ configured.getD "" ++ "]"
  | format => "Output format [default: terminal] [possible values: json, terminal]"
  | verbose => "Increase verbosity level (can be repeated: -v, -vv)"
  | force => "Force overwrite existing config"
  | help => "Print help"
  | version => "Print version"

/-- A switch as it is listed, with room for a letter where it has none. -/
def listed (s : Switch) : String :=
  (match s.short? with
    | some c => "-" ++ String.singleton c ++ ", "
    | none => "    ") ++ s.display

end Switch

/-- The widest line of a help page. -/
def pageWidth : Nat := 100

/-- Fills lines of at most `width` characters with words. A word that is too long stands alone. -/
def fill (width : Nat) : String → List String → List String
  | line, [] => [line]
  | line, word :: words =>
    if line.length + 1 + word.length ≤ width then fill width (line ++ " " ++ word) words
    else line :: fill width word words

/-- One entry of a list: a name, and its description in a column of its own. -/
def entryLines (column : Nat) (name description : String) : List String :=
  let margin := String.ofList (List.replicate (column + 4) ' ')
  let words := description.splitOn " "
  match fill (pageWidth - (column + 4)) (words.headD "") words.tail with
  | [] => []
  | first :: more =>
    ("  " ++ name ++ String.ofList (List.replicate (column - name.length) ' ') ++ "  " ++ first) ::
      more.map (margin ++ ·)

/-- A titled list, with a blank line before it. An empty list is left out. -/
def listLines (title : String) (entries : List (String × String)) : List String :=
  let column := (entries.map (·.1.length)).foldl max 0
  if entries.isEmpty then []
  else ["", title ++ ":"] ++ entries.flatMap fun (name, about) => entryLines column name about

namespace Scope

def arguments : Scope → List (String × String)
  | generate | scan => [("[PATH]", "Crate directory (containing src/) [default: .]")]
  | help => [("[COMMAND]...", "Print help for the subcommand(s)")]
  | _ => []

def subcommands : Scope → List (String × String)
  | program => commands.map fun c => (c.word, c.about)
  | _ => []

def helpLines (scope : Scope) (configured : Option String) : List String :=
  [scope.about, "", "Usage: " ++ scope.usage []] ++
    listLines "Commands" scope.subcommands ++
    listLines "Arguments" scope.arguments ++
    listLines "Options" (scope.switches.map fun s => (s.listed, s.about configured))

/-- The help page of a command. -/
def helpPage (scope : Scope) (configured : Option String) : String :=
  String.join ((scope.helpLines configured).map (· ++ "\n"))

end Scope

end MarkerIndex.CommandLine
