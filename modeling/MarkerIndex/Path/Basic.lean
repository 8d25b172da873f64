/-!
File paths as texts. The components of a path are its names between slashes; a dot counts only in
front, and repeated slashes count once. Two paths are the same file name when their components
agree, and paths are ordered by components, so that what lies in `a` comes before `a.rs`.
-/

namespace MarkerIndex

inductive Component
  | root
  | current
  | parent
  | normal (name : String)
  deriving DecidableEq

namespace Component

/-- The place of the kinds of component in the order of paths. -/
def rank : Component → Nat
  | root => 0
  | current => 1
  | parent => 2
  | normal _ => 3

def compare : Component → Component → Ordering
  | normal a, normal b => Ord.compare a b
  | a, b => Ord.compare a.rank b.rank

def text : Component → String
  | root => "/"
  | current => "."
  | parent => ".."
  | normal name => name

/-- What a stretch between slashes names, unless it is empty or a dot. -/
def ofName? (name : List Char) : Option Component :=
  if name = [] || name = ['.'] then none
  else if name = ['.', '.'] then some parent
  else some (normal (String.ofList name))

/-- A component that its text names, wherever it stands in a path. -/
def IsName (c : Component) : Prop :=
  '/' ∉ c.text.toList ∧ ofName? c.text.toList = some c

instance (c : Component) : Decidable c.IsName :=
  inferInstanceAs (Decidable (_ ∧ _))

end Component

structure FilePath where
  text : String
  deriving DecidableEq

namespace FilePath

/-- Names that are read back as they are spelled. -/
def AreNames (names : List String) : Prop :=
  ∀ name ∈ names, (Component.normal name).IsName

instance (names : List String) : Decidable (AreNames names) :=
  inferInstanceAs (Decidable (∀ _ ∈ _, _))

/-- The stretches of a text between slashes. -/
def splitSlashes : List Char → List (List Char)
  | [] => [[]]
  | c :: cs =>
    match splitSlashes cs with
    | [] => [[c]]
    | part :: parts => if c = '/' then [] :: part :: parts else (c :: part) :: parts

def componentsOf (cs : List Char) : List Component :=
  let names := (splitSlashes cs).filterMap Component.ofName?
  match cs with
  | '/' :: _ => .root :: names
  | ['.'] => .current :: names
  | '.' :: '/' :: _ => .current :: names
  | _ => names

def components (p : FilePath) : List Component :=
  componentsOf p.text.toList

def isAbsolute (p : FilePath) : Bool :=
  p.text.toList.head? = some '/'

def endsWithSlash (p : FilePath) : Bool :=
  p.text.toList.getLast? = some '/'

/-- The path without slashes at its end, unless it consists of them. -/
def withoutEnd (p : FilePath) : FilePath :=
  match p.text.toList.reverse.dropWhile (· = '/') with
  | [] => p
  | cs => ⟨String.ofList cs.reverse⟩

/-- Goes on from `p` by `q`. An absolute path starts anew. -/
def join (p q : FilePath) : FilePath :=
  if q.isAbsolute || p.text.isEmpty then q
  else if p.endsWithSlash then ⟨p.text ++ q.text⟩
  else ⟨p.text ++ "/" ++ q.text⟩

instance : HDiv FilePath String FilePath := ⟨fun p name => p.join ⟨name⟩⟩

/-- The text that spells a list of components. -/
def ofComponents (cs : List Component) : FilePath :=
  cs.foldl (fun p c => p.join ⟨c.text⟩) ⟨""⟩

def compareComponents : List Component → List Component → Ordering
  | [], [] => .eq
  | [], _ :: _ => .lt
  | _ :: _, [] => .gt
  | a :: as, b :: bs => (a.compare b).then (compareComponents as bs)

/-- The order of files in every pass: by component. -/
def compare (p q : FilePath) : Ordering :=
  compareComponents p.components q.components

def le (p q : FilePath) : Bool :=
  compare p q ≠ .gt

/-- Takes back slashes and stray dots at the end. The text is given last character first. -/
def dropTail : Nat → List Char → List Char
  | 0, cs => cs
  | _ + 1, [] => []
  | n + 1, cs =>
    let name := cs.takeWhile (· ≠ '/')
    if name = [] || name = ['.'] then dropTail n ((cs.drop name.length).drop 1) else cs

/-- The path that `p` lies in: all but its last component, spelled as in `p`. A root and an empty
path lie in nothing. -/
def parent? (p : FilePath) : Option FilePath :=
  let cs := p.text.toList
  let lead := match cs with
    | '/' :: _ => ['/']
    | ['.'] => ['.']
    | '.' :: '/' :: _ => ['.']
    | _ => []
  let body := (cs.drop lead.length).reverse
  match dropTail (body.length + 1) body with
  | [] => if lead = ['.'] then some ⟨""⟩ else none
  | tail =>
    let left := (tail.dropWhile (· ≠ '/')).drop 1
    some ⟨String.ofList (lead ++ (dropTail (left.length + 1) left).reverse)⟩

/-- The directory of a file, empty where the path has none. -/
def directory (p : FilePath) : FilePath :=
  p.parent?.getD ⟨""⟩

/-- A path and those that it lies in, innermost first, `depth` of them at most. -/
def ancestors : Nat → FilePath → List FilePath
  | 0, _ => []
  | depth + 1, p =>
    p :: match p.parent? with
      | some above => ancestors depth above
      | none => []

/-- The components of `p` below `base`, if `p` lies there. -/
def componentsBelow? : List Component → List Component → Option (List Component)
  | [], cs => some cs
  | _ :: _, [] => none
  | b :: bs, c :: cs => if b = c then componentsBelow? bs cs else none

def below? (p base : FilePath) : Option (List Component) :=
  componentsBelow? base.components p.components

/-- What stands behind the last dot of a file name, unless nothing stands before it. -/
def extension? (p : FilePath) : Option String :=
  match p.components.getLast? with
  | some (.normal name) =>
    let cs := name.toList.reverse
    match cs.dropWhile (· ≠ '.') with
    | _ :: _ :: _ => some (String.ofList (cs.takeWhile (· ≠ '.')).reverse)
    | _ => none
  | _ => none

end FilePath

end MarkerIndex
