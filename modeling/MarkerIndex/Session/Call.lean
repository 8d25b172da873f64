import MarkerIndex.Command.Run
import MarkerIndex.Project.BuildScript
/-!
The calls that users of the library make, and what each does to a session.
-/

namespace MarkerIndex

/-- A call of the library: a single stage, a pass, or all that a command or a build script does. -/
inductive Call
  | load (sources : List (FilePath × String))
  | discover (d : Disk) (project : FilePath) (settings : Settings)
  | table (c : Corpus)
  | markers (c : Corpus) (t : SymbolTable) (settings : Settings)
  | declarations (c : Corpus) (t : SymbolTable) (registration : ItemPath)
  | classify (declarations : List Declaration) (markers : List ItemPath)
  | emit (s : Emission) (c : Classification)
  | analyze (c : Corpus) (settings : Settings)
  | generate (c : Corpus) (settings : Settings)
  | generateProject (d : Disk) (project : FilePath) (settings : Settings)
  | resolve (d : Disk) (project : FilePath) (config : Option FilePath)
  | deliver (d : Disk) (p : FilePath) (generated : Option String)
  | verify (d : Disk) (p : FilePath) (generated : Option String)
  | build (d : Disk) (package out : FilePath)
  | run (d : Disk) (colors : Bool) (command : Command)

def Call.events : Call → List Event
  | load sources => (SourceTable.ofList sources).events
  | discover d project settings => (d.discover project settings).events
  | table c => (SymbolTable.build c).events
  | markers c t settings => (Directive.collect c t settings).events
  | declarations c t registration => (Declaration.scan c t registration).events
  | classify found asked => (Classification.sort found asked).events
  | emit s c => (s.write c).events
  | analyze c settings => (Pass.analyzeTraced c settings).events
  | generate c settings => (Pass.generateTraced c settings).events
  | generateProject d project settings => (d.generateTraced project settings).events
  | resolve _ _ _ | deliver _ _ _ | verify _ _ _ => []
  | build d package out => (d.build package out).events
  | run d colors command => (command.run d colors).events

end MarkerIndex
