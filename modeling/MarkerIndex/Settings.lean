import MarkerIndex.ItemPath
import MarkerIndex.Path.Basic
/-!
What a pass over a crate is told: which markers to look for and how the result is named.
-/

namespace MarkerIndex

structure Settings where
  /-- The attribute whose text argument is the registration name of a function. -/
  registration : ItemPath
  /-- The call at the top of a crate that asks for a list. -/
  directive : ItemPath
  /-- The module that the generated lists stand in. -/
  module : String
  /-- The type that they belong to. -/
  container : String
  fileName : String
  crateRoot : Option FilePath
  /-- Patterns of files below the source directory that are passed over. -/
  ignore : List String
  deriving DecidableEq

namespace Settings

def standard : Settings where
  registration := ⟨["functions_worker", "function"]⟩
  directive := ⟨["markscan", "generate_functions_with"]⟩
  module := "functions_attributes"
  container := "GenerateFunctionsWith"
  fileName := "functions_attributes.rs"
  crateRoot := none
  ignore := ["bin/**"]

end Settings

end MarkerIndex
