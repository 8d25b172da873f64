import MarkerIndex.Json.Value
import MarkerIndex.Path.Basic
/-!
The configuration file as it is written: texts that nobody has looked at yet. What is left out has a
standard value.
-/

namespace MarkerIndex

structure Config where
  registration : String
  directive : String
  module : String
  container : String
  fileName : String
  crateRoot : Option FilePath
  ignore : List String
  deriving DecidableEq

namespace Config

def standard : Config where
  registration := "functions_worker::function"
  directive := "markscan::generate_functions_with"
  module := "functions_attributes"
  container := "GenerateFunctionsWith"
  fileName := "functions_attributes.rs"
  crateRoot := none
  ignore := ["bin/**"]

/-- The name of a configuration file, wherever it lies. -/
def fileNameInProject : String := ".markscan.toml"

/-- The lines of a configuration file that says what is standard anyway. -/
def standardLines : List String := [
  "# markscan configuration",
  "",
  "[markers]",
  "# Attribute whose string argument is the registration name",
  "registration = \"functions_worker::function\"",
  "# Crate-root macro that requests a grouping list",
  "directive = \"markscan::generate_functions_with\"",
  "",
  "[output]",
  "namespace = \"functions_attributes\"",
  "container = \"GenerateFunctionsWith\"",
  "file_name = \"functions_attributes.rs\"",
  "",
  "[source]",
  "# crate_root = \"src/lib.rs\"",
  "",
  "[ignore]",
  "# Globs relative to src/",
  "patterns = [\"bin/**\"]"]

def standardText : String :=
  String.join (standardLines.map (· ++ "\n"))

def toJson (c : Config) : Json :=
  .object [
    ("markers", .object [
      ("registration", .string c.registration), ("directive", .string c.directive)]),
    ("output", .object [
      ("namespace", .string c.module), ("container", .string c.container),
      ("file_name", .string c.fileName)]),
    ("source", .object [("crate_root", Json.ofOption (fun p => .string p.text) c.crateRoot)]),
    ("ignore", .object [("patterns", .array (c.ignore.map .string))])]

end Config

end MarkerIndex
