import MarkerIndex.Crate.Resolution
import MarkerIndex.Settings
/-!
Directives: calls at the top of a crate that ask for the list of a marker. A call is a directive
when its path means the configured one, or is its bare name with nothing in scope. Its argument must
be one path that means a declared item of the crate or an item of another crate.
-/

namespace MarkerIndex

namespace Directive

/-- The call asks for a list. -/
def isDirective (called : Resolution) (directive : ItemPath) : Bool :=
  called.path = directive ||
    (called.origin = .unscoped && called.path.simpleName = directive.simpleName)

/-- What was found is a marker that can be grouped by. -/
def isKnown (t : SymbolTable) (found : Resolution) : Bool :=
  match found.origin with
  | .local => t.contains found.path
  | .external => true
  | .unscoped => false

/-- The marker that the argument of a directive names. -/
def marker (t : SymbolTable) (root : SourceFile) (line : Nat) (body : List TokenTree) :
    Except Error ItemPath :=
  match Grammar.parsePathTokens body with
  | .error failure => .error (.malformedDirective root.path line (.notAPath failure))
  | .ok shape =>
    if !shape.plain then .error (.malformedDirective root.path line .hasArguments)
    else
      let found := t.resolvePath root.module shape.path
      if isKnown t found then .ok found.path
      else .error (.unresolvedDirective root.path line shape.path.spelling)

/-- The lines and arguments of the directives among the items of the root file. -/
def calls (t : SymbolTable) (settings : Settings) (root : SourceFile) :
    List (Nat × List TokenTree) :=
  root.items.filterMap fun
    | .invocation path body =>
      if isDirective (t.resolvePath root.module path) settings.directive then
        some (path.line, body)
      else none
    | _ => none

/-- The elements of a list, each where it stands first. -/
def firstSeen (paths : List ItemPath) : List ItemPath :=
  paths.foldl (fun seen p => if seen.contains p then seen else seen ++ [p]) []

/-- The markers that a crate asks lists for, each once, in the order of the directives. -/
def markers (c : Corpus) (t : SymbolTable) (settings : Settings) : Except Error (List ItemPath) :=
  match c.root? with
  | none => .ok []
  | some root =>
    ((calls t settings root).mapM fun (line, body) => marker t root line body).map firstSeen

end Directive

end MarkerIndex
