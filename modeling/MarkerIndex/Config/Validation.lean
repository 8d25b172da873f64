import MarkerIndex.Config.Basic
import MarkerIndex.Path.Pattern
import MarkerIndex.Settings
/-!
From a configuration to settings. Entries are looked at in a fixed order, and the first that does
not fit is reported.
-/

namespace MarkerIndex.Config

def markerPath (key value : String) : Except Error ItemPath :=
  match ItemPath.parse? value with
  | some p => .ok p
  | none => .error (.configuration (.notAPath key value))

/-- A name that can be declared. Blanks around it are taken off. -/
def declarableName (key value : String) : Except Error String :=
  match Grammar.parseName (Text.trim value) with
  | .ok name => .ok name
  | .error _ => .error (.configuration (.notAName key value))

def checkFileName (name : String) : Except Error Unit :=
  if (Text.trim name).isEmpty then .error (.configuration .blankFileName) else .ok ()

def checkPattern (pattern : String) : Except Error Unit :=
  match Pattern.ofText pattern with
  | .ok _ => .ok ()
  | .error error => .error (.pattern error)

def validate (c : Config) : Except Error Settings := do
  let registration ← markerPath "markers.registration" c.registration
  let directive ← markerPath "markers.directive" c.directive
  let module ← declarableName "output.namespace" c.module
  let container ← declarableName "output.container" c.container
  checkFileName c.fileName
  c.ignore.forM checkPattern
  return ⟨registration, directive, module, container, c.fileName, c.crateRoot, c.ignore⟩

end MarkerIndex.Config
