import MarkerIndex.Files.Disk
import MarkerIndex.Files.Ignore
import MarkerIndex.Path.Pattern
/-!
The source files below a directory. A file is listed unless an ignore file speaks against it or
against a directory that it lies in, or a pattern of the settings matches its path. What stands in
`.ignore` counts always; what stands in `.gitignore` and `.git/info/exclude` counts only inside a
directory with `.git` or `.jj`, and not for what lies in a further such directory below. A `.git`
that is a file and names another directory counts, but the `info/exclude` there is not looked for.
-/

namespace MarkerIndex

namespace FileTree

/-- The path from one place to another below it. -/
def pathBelow (base place : Place) : List Char :=
  (String.intercalate "/" (place.drop base.length)).toList

/-- The first answer of an ignore file in one of the directories, nearest first. -/
def verdictOf? (t : FileTree) (file : Place) (place : Place) (isDirectory : Bool)
    (directories : List Place) : Option Bool :=
  directories.findSome? fun base =>
    (t.contents? (base ++ file)).bind fun contents =>
      (IgnoreFile.ofContents contents).verdict? (pathBelow base place) isDirectory

/-- The directories that a place lies in, nearest first. -/
def above (place : Place) : List Place :=
  ((List.range place.length).map fun n => place.take n).reverse

def hasVersionControl (t : FileTree) (place : Place) : Bool :=
  t.exists? (place ++ [".git"]) || t.exists? (place ++ [".jj"])

/-- The directories, nearest first, up to the first that is under version control. There are none if
none is. -/
def controlled (t : FileTree) (directories : List Place) : List Place :=
  if directories.any t.hasVersionControl then
    let inside := directories.takeWhile (!t.hasVersionControl ·)
    directories.take (inside.length + 1)
  else []

/-- Whether ignore files speak against a place. -/
def isIgnored (t : FileTree) (place : Place) (isDirectory : Bool) : Bool :=
  let directories := above place
  let controlled := t.controlled directories
  let verdicts := [
    t.verdictOf? [".ignore"] place isDirectory directories,
    t.verdictOf? [".gitignore"] place isDirectory controlled,
    t.verdictOf? [".git", "info", "exclude"] place isDirectory controlled]
  (verdicts.findSome? id).getD false

/-- Whether a walk from `base` comes to a place below it: nothing on the way is ignored. -/
def isReached (t : FileTree) (base place : Place) : Bool :=
  (List.range (place.length - base.length)).all fun n =>
    let stop := place.take (base.length + n + 1)
    !t.isIgnored stop (t.isDirectory stop)

/-- The files that a walk from a directory comes to, by their paths below it. -/
def reachedFiles (t : FileTree) (base : Place) : List FilePath :=
  t.entries.filterMap fun (place, node) =>
    match node with
    | .directory | .special _ => none
    | .file _ =>
      if base.isPrefixOf place && base.length < place.length && t.isReached base place then
        some ⟨String.ofList (pathBelow base place)⟩
      else none

end FileTree

/-- Whether a file is a source file that no pattern passes over. Patterns that cannot be read match
nothing. -/
def FilePath.isSource (p : FilePath) (ignore : List String) : Bool :=
  let shown := String.ofList (p.text.toList.map fun c => if c = '\\' then '/' else c)
  p.extension? = some "rs" && !ignore.any fun pattern =>
    match Pattern.ofText pattern with
    | .ok pattern => pattern.matches? shown
    | .error _ => false

namespace Disk

/-- The source files below a directory in path order, by their paths below it. The walk fails where
the directory cannot be found; a single entry below it never fails, since every directory of a tree
can be listed and nothing in it is a link. -/
def sourceFiles (d : Disk) (p : FilePath) (ignore : List String) :
    Except Error (List FilePath) :=
  match d.locate p with
  | .error problem => .error (.walk p problem)
  | .ok place =>
    if d.tree.exists? place then
      .ok (((d.tree.reachedFiles place).filter (·.isSource ignore)).mergeSort FilePath.le)
    else .error (.walk p .notFound)

end Disk

end MarkerIndex
