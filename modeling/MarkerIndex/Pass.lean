import MarkerIndex.Crate.Directive
import MarkerIndex.Crate.Scan
import MarkerIndex.Emission
/-!
One pass over a crate: the markers it asks lists for, its attributed functions, and the lists. The
configured paths, and the markers of other crates that directives name, are known to glob imports;
directives are read before the latter are.
-/

namespace MarkerIndex

/-- A generated text with the name of the file that it belongs in. -/
structure Artifact where
  fileName : String
  contents : String
  deriving DecidableEq

/-- All that a pass learns. -/
structure Report where
  markers : List ItemPath
  declarations : List Declaration
  classification : Classification
  deriving DecidableEq

/-- The table is built in one go. -/
def SymbolTable.build (c : Corpus) : Traced SymbolTable :=
  .within .symbolResolution (.ok (.ofCorpus c)) []

/-- Directives stand in the root file. Without one, no file is entered. -/
def Directive.collect (c : Corpus) (t : SymbolTable) (settings : Settings) :
    Traced (List ItemPath) :=
  .within .directiveCollection (markers c t settings)
    (c.root?.toList.flatMap fun root => Event.inFile root.path [])

/-- Every file of the crate is gone through. -/
def Declaration.scan (c : Corpus) (t : SymbolTable) (registration : ItemPath) :
    Traced (List Declaration) :=
  .within .declarationScan (.ok (ofCorpus t registration c))
    (c.files.flatMap fun f => Event.inFile f.path [])

def Classification.sort (declarations : List Declaration) (markers : List ItemPath) :
    Traced Classification :=
  .within .classification (.ok (ofDeclarations declarations markers)) []

/-- The phase is entered also where nothing is written, or where names collide. -/
def Emission.write (s : Emission) (c : Classification) : Traced (Option String) :=
  .within .emission (s.emit c) []

namespace Pass

/-- The requested markers, and the table that attributes are read with. -/
def requestTraced (c : Corpus) (settings : Settings) : Traced (SymbolTable × List ItemPath) := do
  let known ← SymbolTable.build c
  let t := known.withExternal [settings.registration, settings.directive]
  let markers ← Directive.collect c t settings
  return (t.withExternal markers, markers)

def reportTraced (c : Corpus) (settings : Settings) (t : SymbolTable) (markers : List ItemPath) :
    Traced Report := do
  let declarations ← Declaration.scan c t settings.registration
  let classification ← Classification.sort declarations markers
  return ⟨markers, declarations, classification⟩

def analyzeTraced (c : Corpus) (settings : Settings) : Traced Report := do
  let (t, markers) ← requestTraced c settings
  reportTraced c settings t markers

/-- Where no list is asked for, functions are not looked for either. -/
def generateTraced (c : Corpus) (settings : Settings) : Traced (Option Artifact) := do
  let (t, markers) ← requestTraced c settings
  if markers.isEmpty then return none
  else
    let report ← reportTraced c settings t markers
    let contents ← Emission.write ⟨settings.module, settings.container⟩ report.classification
    return contents.map fun contents => ⟨settings.fileName, contents⟩

/-- All that a pass learns, short of writing it down. -/
def analyze (c : Corpus) (settings : Settings) : Except Error Report :=
  (analyzeTraced c settings).result

/-- The generated text, or none where the crate asks for no list. -/
def generate (c : Corpus) (settings : Settings) : Except Error (Option Artifact) :=
  (generateTraced c settings).result

end Pass

end MarkerIndex
