import MarkerIndex.ItemPath
import MarkerIndex.Path.Basic
/-!
Why a pass fails. Each cause carries what its wording needs; `Error.message` is the wording and
`Error.details` the causes behind it, outermost first.
-/

namespace MarkerIndex

/-- What the file system answers instead of doing what it was asked. -/
inductive FileProblem
  | notFound
  | alreadyExists
  | notDirectory
  | isDirectory
  | inputOutput
  | noDevice
  | tooManyFiles
  | fileTooLarge
  | noSpace
  | quotaExceeded
  /-- The contents are no text. -/
  | notText
  deriving DecidableEq

def FileProblem.message : FileProblem → String
  | notFound => "No such file or directory (os error 2)"
  | alreadyExists => "File exists (os error 17)"
  | notDirectory => "Not a directory (os error 20)"
  | isDirectory => "Is a directory (os error 21)"
  | inputOutput => "Input/output error (os error 5)"
  | noDevice => "No such device or address (os error 6)"
  | tooManyFiles => "Too many open files (os error 24)"
  | fileTooLarge => "File too large (os error 27)"
  | noSpace => "No space left on device (os error 28)"
  | quotaExceeded => "Disk quota exceeded (os error 122)"
  | notText => "stream did not contain valid UTF-8"

/-- What was asked of the file system. -/
inductive FileTask
  | read
  | write
  | remove
  | createDirectory
  | readConfig
  deriving DecidableEq

def FileTask.failure : FileTask → String
  | read => "Failed to read file"
  | write => "Failed to write file"
  | remove => "Failed to remove file"
  | createDirectory => "Failed to create directory"
  | readConfig => "Failed to read config file"

/-- Why a configuration does not fit. -/
inductive ConfigProblem
  | noRootAmongSources
  | rootMissing (path : FilePath)
  | noRootUnder (directory : FilePath)
  | notAPath (key value : String)
  | notAName (key value : String)
  | blankFileName
  | notSet (variable_ : String)
  /-- The configuration file itself cannot be read as one. -/
  | malformed (text : String)
  deriving DecidableEq

def ConfigProblem.message : ConfigProblem → String
  | noRootAmongSources => "no lib.rs or main.rs among the sources"
  | rootMissing path => "crate root " ++ path.text ++ " does not exist"
  | noRootUnder directory => "no src/lib.rs or src/main.rs under " ++ directory.text
  | notAPath key value => key ++ ": `" ++ value ++ "` is not a Rust path"
  | notAName key value => key ++ ": `" ++ value ++ "` is not a Rust identifier"
  | blankFileName => "output.file_name must not be empty"
  | notSet variable_ => variable_ ++ " is not set; run from a build script"
  | malformed text => text

/-- Why the argument of a directive is not one marker path. -/
inductive DirectiveProblem
  | notAPath (failure : Grammar.Failure)
  | hasArguments
  deriving DecidableEq

def DirectiveProblem.message : DirectiveProblem → String
  | notAPath failure => "expected exactly one marker path: " ++ failure.message
  | hasArguments => "marker path must not have generic arguments"

/-- A file name pattern that cannot be read, and the character where it goes wrong. -/
structure PatternError where
  position : Nat
  problem : String
  deriving DecidableEq

inductive Error
  | fileSystem (task : FileTask) (problem : FileProblem)
  | parse (file : FilePath) (failure : Grammar.Failure)
  | configuration (problem : ConfigProblem)
  | malformedDirective (file : FilePath) (line : Nat) (problem : DirectiveProblem)
  | unresolvedDirective (file : FilePath) (line : Nat) (path : String)
  | bindingCollision (name : String) (first second : ItemPath)
  | staleOutput (path : FilePath)
  | pattern (error : PatternError)
  /-- A directory to be searched cannot be entered. -/
  | walk (path : FilePath) (problem : FileProblem)
  deriving DecidableEq

namespace Error

def message : Error → String
  | fileSystem task _ => "File system error: " ++ task.failure
  | parse file failure =>
    "Parse error in " ++ file.text ++ ":" ++ toString failure.pos.line ++ ":" ++
      toString failure.pos.column ++ ": " ++ failure.message
  | configuration problem => "Configuration error: " ++ problem.message
  | malformedDirective file line problem =>
    "Malformed directive in " ++ file.text ++ ":" ++ toString line ++ ": " ++ problem.message
  | unresolvedDirective file line path =>
    "Unresolved directive in " ++ file.text ++ ":" ++ toString line ++ ": `" ++ path ++
      "` does not name a marker item"
  | bindingCollision name first second =>
    "Binding `" ++ name ++ "` would be generated for both `" ++ first.display ++ "` and `" ++
      second.display ++ "`"
  | staleOutput path => "Generated output is out of date: " ++ path.text
  | pattern error =>
    "Pattern syntax error near position " ++ toString error.position ++ ": " ++ error.problem
  | walk path problem =>
    path.text ++ ": IO error for operation on " ++ path.text ++ ": " ++ problem.message

/-- The causes behind an error, each the cause of the one before. -/
def details : Error → List String
  | fileSystem _ problem => [problem.message]
  | _ => []

end Error

end MarkerIndex
