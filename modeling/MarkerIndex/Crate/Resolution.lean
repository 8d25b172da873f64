import MarkerIndex.Crate.Symbols
/-!
What a path means inside a module. A path is followed through imports and re-exports to the place of
the definition, so that an identity never depends on how it was spelled. Imports may lead in
circles: each one that is followed goes down a level, and at the last level a path is left as it
stands.
-/

namespace MarkerIndex

/-- Where a resolved path points. -/
inductive Origin
  /-- Into this crate. -/
  | local
  | external
  /-- A bare name with nothing in scope. -/
  | unscoped
  deriving DecidableEq

structure Resolution where
  path : ItemPath
  origin : Origin
  deriving DecidableEq

/-- A path that is to be looked up inside a module. -/
structure Query where
  module : ItemPath
  target : ImportTarget
  /-- An import that is not consulted for the first segment, since it is being followed. -/
  skip : Option String
  /-- Whether glob imports are consulted for the first segment. -/
  throughGlobs : Bool

/-- How paths are looked up and followed from one level on. -/
structure Level where
  /-- The meaning of a path inside a module. -/
  resolve : Query → Resolution
  /-- The meaning of segments below a module of this crate. -/
  descend : ItemPath → List String → Resolution

namespace Level

/-- The last level, where nothing is followed any more. -/
def last : Level where
  resolve q :=
    if q.target.segments = [] then ⟨q.module, .local⟩
    else if q.target.leadingColon then ⟨⟨q.target.segments⟩, .external⟩
    else ⟨⟨q.target.segments⟩, .unscoped⟩
  descend base rest := ⟨base.extend rest, .local⟩

section

variable (t : SymbolTable) (lower : Level)

/-- What an import means that binds `name` in `m`. Outside this crate it is another crate's item. -/
def followImport (m : ItemPath) (name : String) (target : ImportTarget) : Resolution :=
  let found := lower.resolve ⟨m, target, some name, true⟩
  match found.origin with
  | .unscoped => ⟨found.path, .external⟩
  | _ => found

/-- Goes on from what was found by further segments. -/
def append (found : Resolution) (rest : List String) : Resolution :=
  if rest = [] then found
  else match found.origin with
    | .local => lower.descend found.path rest
    | _ => ⟨found.path.extend rest, .external⟩

/-- The module that a glob import reads from. Other globs are not consulted for it. -/
def globBase (m : ItemPath) (target : ImportTarget) : Resolution :=
  lower.resolve ⟨m, target, none, false⟩

/-- The module of this crate that a name comes from by a glob import of `m`. -/
def globSource? (m : ItemPath) (name : String) : Option ItemPath :=
  (t.globs m).findSome? fun target =>
    let base := lower.globBase m target
    if base.origin = .local && (t.declares base.path name || (t.import? base.path name).isSome) then
      some base.path
    else none

/-- The registered item of another crate that segments mean by a glob import of `m`. -/
def externalGlob? (m : ItemPath) (segments : List String) : Option ItemPath :=
  (t.globs m).findSome? fun target =>
    let base := lower.globBase m target
    let candidate := base.path.extend segments
    if base.origin ≠ .local && t.external.contains candidate then some candidate else none

/-- Walks down from a module of this crate. A segment is a declared name first, then an import, then
a name from a glob import; what is none of these ends the walk. -/
def descendFrom (current : ItemPath) : List String → Resolution
  | [] => ⟨current, .local⟩
  | segment :: rest =>
    if !t.isModule current then ⟨current.extend (segment :: rest), .local⟩
    else if t.declares current segment then descendFrom (current.join segment) rest
    else match t.import? current segment with
      | some target => lower.append (lower.followImport current segment target) rest
      | none =>
        match lower.globSource? t current segment with
        | some source => lower.descend source (segment :: rest)
        | none => ⟨current.extend (segment :: rest), .local⟩

/-- The module that leading `super` segments reach, and the segments behind them. Above the root of
a crate is the root itself. -/
def climb (m : ItemPath) : List String → ItemPath × List String
  | [] => (m, [])
  | segment :: rest =>
    if segment = "super" then climb (m.parent?.getD .crateRoot) rest else (m, segment :: rest)

/-- The meaning of a path that begins with a name. An import comes before a declaration, and both
come before glob imports. -/
def resolveName (q : Query) (first : String) (rest : List String) : Resolution :=
  let binding := if q.skip = some first then none else t.import? q.module first
  match binding with
  | some target => lower.append (lower.followImport q.module first target) rest
  | none =>
    if t.declares q.module first then lower.descendFrom t q.module (first :: rest)
    else
      let source := if q.throughGlobs then lower.globSource? t q.module first else none
      match source with
      | some source => lower.descendFrom t source (first :: rest)
      | none =>
        let item := if q.throughGlobs then lower.externalGlob? t q.module (first :: rest) else none
        match item with
        | some path => ⟨path, .external⟩
        | none => ⟨⟨first :: rest⟩, if rest = [] then .unscoped else .external⟩

def resolveFrom (q : Query) : Resolution :=
  match q.target.segments with
  | [] => ⟨q.module, .local⟩
  | first :: rest =>
    if q.target.leadingColon then ⟨⟨first :: rest⟩, .external⟩
    else if first = "crate" then lower.descendFrom t .crateRoot rest
    else if first = "self" then lower.descendFrom t q.module rest
    else if first = "super" then
      let (base, rest) := climb q.module (first :: rest)
      lower.descendFrom t base rest
    else lower.resolveName t q first rest

/-- The level above `lower`. -/
def above : Level where
  resolve := lower.resolveFrom t
  descend := lower.descendFrom t

end

/-- The level from which so many imports can be followed. -/
def ofDepth (t : SymbolTable) : Nat → Level
  | 0 => last
  | depth + 1 => (ofDepth t depth).above t

/-- How many imports are followed before a path is taken to lead in a circle. -/
def depthLimit : Nat := 17

end Level

namespace SymbolTable

/-- The meaning of a path inside a module. -/
def resolve (t : SymbolTable) (m : ItemPath) (segments : List String) (leadingColon : Bool) :
    Resolution :=
  (Level.ofDepth t Level.depthLimit).resolve ⟨m, ⟨segments, leadingColon⟩, none, true⟩

def resolvePath (t : SymbolTable) (m : ItemPath) (p : WrittenPath) : Resolution :=
  t.resolve m p.segments p.leadingColon

end SymbolTable

end MarkerIndex
