import MarkerIndex.Path.Basic
/-!
The normal form of a path: no dots, and steps up only where nothing is left to go up from. It is
found from the spelling alone, so that one file has one key.
-/

namespace MarkerIndex

namespace FilePath

/-- Goes on from a normal path, given last component first, by one component. -/
def normalStep (done : List Component) (c : Component) : List Component :=
  match c, done with
  | .current, _ => done
  | .parent, .normal _ :: above => above
  | c, _ => c :: done

def normalComponents (cs : List Component) : List Component :=
  (cs.foldl normalStep []).reverse

def normalize (p : FilePath) : FilePath :=
  ofComponents (normalComponents p.components)

end FilePath

end MarkerIndex
