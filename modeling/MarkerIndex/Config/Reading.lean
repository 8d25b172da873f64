import MarkerIndex.Config.Basic
import MarkerIndex.Text.Quoted
import MarkerIndex.Toml.Document
/-!
Reading a configuration file. Every section and every entry may be left out, and what nobody asks
for is passed over. Of several wrong entries the first by name is reported.
-/

namespace MarkerIndex.Config

open Toml (Failure Value)

/-- How an integer is called that stands where it must not. Its width is told when it is unusual. -/
def integerDescription (n : Int) : String :=
  let plain := "integer `" ++ toString n ++ "`"
  if -Int.pow 2 63 ≤ n ∧ n < Int.pow 2 64 then plain
  else if n < Int.pow 2 127 then plain ++ " as i128"
  else plain ++ " as u128"

def description : Value → String
  | .scalar _ (.text value) => "string " ++ Text.Quoted.encode value
  | .scalar _ (.number (.integer value)) => integerDescription value
  | .scalar _ (.number .noDigits) => "integer"
  | .scalar _ (.number (.decimal negative value)) =>
    "floating point `" ++ (if negative then "-" else "") ++
      (value.map Toml.Double.text).getD "inf" ++ "`"
  | .scalar _ (.special written) => "floating point `" ++ written ++ "`"
  | .scalar _ (.boolean true) => "boolean `true`"
  | .scalar _ (.boolean false) => "boolean `false`"
  | .scalar _ .date => "map"
  | .array _ _ _ => "sequence"
  | .table _ _ _ => "map"

/-- Refuses a number that is too great to be held. -/
def checkNumber (span : Toml.Span) : Toml.Number → Except Failure Unit
  | .integer n =>
    if -Int.pow 2 127 ≤ n ∧ n < Int.pow 2 128 then .ok ()
    else .error ⟨span, "integer number overflowed"⟩
  | .noDigits => .error ⟨span, "integer number overflowed"⟩
  | .decimal _ value =>
    if value.isNone then .error ⟨span, "floating-point number overflowed"⟩ else .ok ()

mutual

/-- Looks through a value that nobody asks for. Its numbers must be ones that can be held. -/
def passOver : Value → Except Failure Unit
  | .scalar span (.number n) => checkNumber span n
  | .scalar _ _ => .ok ()
  | .array _ _ items => passOverItems items
  | .table _ _ entries => passOverEntries entries

def passOverItems : List Value → Except Failure Unit
  | [] => .ok ()
  | item :: items =>
    match passOver item with
    | .error failure => .error failure
    | .ok () => passOverItems items

def passOverEntries : Toml.Entries → Except Failure Unit
  | [] => .ok ()
  | (_, value) :: entries =>
    match passOver value with
    | .error failure => .error failure
    | .ok () => passOverEntries entries

end

/-- Refuses a value that is not of the kind asked for. -/
def wrongKind {α : Type} (found : Value) (expected : String) : Except Failure α :=
  let wrong : Except Failure α :=
    .error ⟨found.span, "invalid type: " ++ description found ++ ", expected " ++ expected⟩
  match found with
  | .scalar span (.number n) =>
    match checkNumber span n with
    | .error failure => .error failure
    | .ok () => wrong
  | _ => wrong

def readText (expected : String) : Value → Except Failure String
  | .scalar _ (.text value) => .ok value
  | found => wrongKind found expected

def readTexts : Value → Except Failure (List String)
  | .array _ _ items => items.mapM (readText "a string")
  | found => wrongKind found "a sequence"

/-- A named entry, and what it changes in a configuration. -/
abbrev Field := String × (Config → Value → Except Failure Config)

def markerFields : List Field := [
  ("registration", fun c v => (readText "a string" v).map fun s => { c with registration := s }),
  ("directive", fun c v => (readText "a string" v).map fun s => { c with directive := s })]

def outputFields : List Field := [
  ("namespace", fun c v => (readText "a string" v).map fun s => { c with module := s }),
  ("container", fun c v => (readText "a string" v).map fun s => { c with container := s }),
  ("file_name", fun c v => (readText "a string" v).map fun s => { c with fileName := s })]

def sourceFields : List Field := [
  ("crate_root", fun c v =>
    (readText "path string" v).map fun s => { c with crateRoot := some ⟨s⟩ })]

def ignoreFields : List Field := [
  ("patterns", fun c v => (readTexts v).map fun ps => { c with ignore := ps })]

/-- Takes entries in the order of their names. Unknown names change nothing. -/
def readEntries (fields : List Field) (c : Config) (entries : Toml.Entries) :
    Except Failure Config :=
  (entries.mergeSort fun a b => a.1 ≤ b.1).foldlM
    (fun c (name, value) =>
      match fields.lookup name with
      | some read => read c value
      | none => (passOver value).map fun () => c)
    c

/-- Reads a section. A list stands for entries in their fixed order. -/
def readSection (name : String) (fields : List Field) (c : Config) : Value → Except Failure Config
  | .table _ _ entries => readEntries fields c entries
  | .array _ _ items =>
    (fields.zip items).foldlM (fun c (field, item) => field.2 c item) c
  | found => wrongKind found ("struct " ++ name)

def sections : List Field := [
  ("markers", readSection "MarkersConfig" markerFields),
  ("output", readSection "OutputConfig" outputFields),
  ("source", readSection "SourceConfig" sourceFields),
  ("ignore", readSection "IgnoreConfig" ignoreFields)]

/-- The configuration that a text writes down. -/
def ofText (s : String) : Except Failure Config :=
  match Toml.Document.ofText s with
  | .error failure => .error failure
  | .ok entries => readEntries sections standard entries

/-- What is said about a configuration file that cannot be read as one. -/
def failureReport (s : String) (failure : Failure) : String :=
  "Failed to parse " ++ fileNameInProject ++ ": " ++ failure.report s

end MarkerIndex.Config
