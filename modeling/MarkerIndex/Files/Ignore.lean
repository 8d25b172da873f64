import MarkerIndex.Files.Tree
/-!
Ignore files: lists of rules about what is not to be looked at, in the form that version control
uses. A rule tells of the paths below the directory of its file; of several rules that tell of one
path the last counts. A pattern without a slash tells of names at any depth.
-/

namespace MarkerIndex

inductive IgnoreToken
  | char (c : Char)
  /-- One character of a single byte, not a slash. -/
  | anyChar
  /-- Any characters but slashes. -/
  | anyName
  /-- Any leading directories. -/
  | leading
  /-- A slash, or any directories between two. -/
  | between
  /-- Everything below. -/
  | inside
  | oneOf (negated : Bool) (ranges : List (Char × Char))
  /-- One of the choices in braces. Without any, it stands for nothing. -/
  | choice (branches : List (List IgnoreToken))

structure IgnoreRule where
  /-- The rule takes back what an earlier one says. -/
  negated : Bool
  directoriesOnly : Bool
  pattern : List IgnoreToken

namespace IgnoreRule

/-- What comes of brackets in a pattern. -/
inductive ClassEnd
  | closed (token : IgnoreToken) (rest : List Char)
  /-- A range runs backward. -/
  | backward
  | unclosed

/-- The characters of brackets from behind the opening one. `ranges` are those read so far, the last
first. A hyphen between two characters makes a range. -/
def classTail (negated inRange : Bool) (ranges : List (Char × Char)) : List Char → ClassEnd
  | [] => .unclosed
  | c :: rest =>
    if c = ']' && !ranges.isEmpty then
      let ranges := if inRange then ('-', '-') :: ranges else ranges
      .closed (.oneOf negated ranges.reverse) rest
    else if inRange then
      match ranges with
      | (first, _) :: others =>
        if first ≤ c then classTail negated false ((first, c) :: others) rest else .backward
      | [] => .backward
    else if c = '-' && !ranges.isEmpty then classTail negated true ranges rest
    else classTail negated false ((c, c) :: ranges) rest

def classEnd (cs : List Char) : ClassEnd :=
  match cs with
  | '!' :: rest => classTail true false [] rest
  | '^' :: rest => classTail true false [] rest
  | cs => classTail false false [] cs

/-- What was read of a pattern: the tokens since the last brace or comma, the choices before them in
the same braces, and the same again for all that surrounds these braces. The last is the first. -/
structure Reading where
  done : List IgnoreToken
  choices : List (List IgnoreToken)
  outside : List (List IgnoreToken × List (List IgnoreToken))

namespace Reading

def start : Reading := ⟨[], [], []⟩

def inBraces (r : Reading) : Bool := !r.outside.isEmpty

def push (r : Reading) (token : IgnoreToken) : Reading :=
  { r with done := token :: r.done }

def openBrace (r : Reading) : Reading :=
  ⟨[], [], (r.done, r.choices) :: r.outside⟩

def nextChoice (r : Reading) : Reading :=
  { r with done := [], choices := r.done.reverse :: r.choices }

/-- A choice that stands for nothing is none. -/
def isVoid (branch : List IgnoreToken) : Bool :=
  branch.all fun token =>
    match token with
    | .choice [] => true
    | _ => false

def closeBrace? (r : Reading) : Option Reading :=
  match r.outside with
  | [] => none
  | (done, choices) :: outside =>
    let branches := r.nextChoice.choices.reverse.filter (!isVoid ·)
    some ⟨.choice branches :: done, choices, outside⟩

/-- Reads two asterisks in front of `rest`. They stand for directories only where they are a whole
component. -/
def wide (r : Reading) (previous : Option Char) (rest : List Char) : Reading × List Char :=
  let plain := ((r.push .anyName).push .anyName, rest)
  match r.done with
  | [] =>
    match rest with
    | [] => (r.push .leading, [])
    | '/' :: rest => (r.push .leading, rest)
    | _ => plain
  | last :: before =>
    if previous = some '/' || r.inBraces && (previous = some ',' || previous = some '\x7b') then
      let joined (token : IgnoreToken) : Reading :=
        match last with
        | .leading | .inside => r
        | _ => { r with done := token :: before }
      match rest with
      | [] => (joined .inside, [])
      | '/' :: rest => (joined .between, rest)
      | c :: _ => if r.inBraces && (c = ',' || c = '\x7d') then (joined .inside, rest) else plain
    else plain

end Reading

/-- Reads a pattern. A bracket that is not closed is one like any other character, and so are those
behind it. -/
def tokens (r : Reading) (previous : Option Char) (unclosed : Bool) :
    Nat → List Char → Option (List IgnoreToken)
  | 0, _ => none
  | _ + 1, [] => if r.inBraces then none else some r.done.reverse
  | fuel + 1, c :: rest =>
    let goOn (r : Reading) := tokens r (some c) unclosed fuel rest
    match c with
    | '?' => goOn (r.push .anyChar)
    | '*' =>
      match rest with
      | '*' :: rest =>
        let (r, left) := r.wide previous rest
        let slashTaken := left.length < rest.length
        tokens r (some (if slashTaken then '/' else '*')) unclosed fuel left
      | _ => goOn (r.push .anyName)
    | '[' =>
      if unclosed then goOn (r.push (.char '['))
      else match classEnd rest with
        | .closed token rest => tokens (r.push token) (some ']') false fuel rest
        | .backward => none
        | .unclosed => tokens (r.push (.char '[')) (some '[') true fuel rest
    | '\x7b' => goOn r.openBrace
    | '\x7d' => r.closeBrace?.bind goOn
    | ',' => goOn (if r.inBraces then r.nextChoice else r.push (.char ','))
    | '\\' =>
      match rest with
      | [] => none
      | c :: rest => tokens (r.push (.char c)) (some c) unclosed fuel rest
    | c => goOn (r.push (.char c))

def dropTrailingBlanks (cs : List Char) : List Char :=
  if ['\\', ' '].isSuffixOf cs then cs
  else (cs.reverse.dropWhile Text.isBlank).reverse

/-- A pattern that any directories may come before, unless it is bound to its place. -/
def anchor (bound : Bool) (cs : List Char) : List Char :=
  if bound || cs.contains '/' || cs = ['*', '*'] then cs else ['*', '*', '/'] ++ cs

/-- What follows two asterisks at the end is at least one name. -/
def insideOnly (cs : List Char) : List Char :=
  if ['/', '*', '*'].isSuffixOf cs then cs ++ ['/', '*'] else cs

/-- The rule of a line, if there is one. Comments, empty lines and patterns that make no sense say
nothing. -/
def ofLine? (line : List Char) : Option IgnoreRule :=
  if line.head? = some '#' then none
  else
    let cs := dropTrailingBlanks line
    if cs = [] then none
    else
      let (negated, bound, cs) := match cs with
        | '\\' :: '!' :: rest => (false, false, '!' :: rest)
        | '\\' :: '#' :: rest => (false, false, '#' :: rest)
        | '!' :: '/' :: rest => (true, true, rest)
        | '!' :: rest => (true, false, rest)
        | '/' :: rest => (false, true, rest)
        | cs => (false, false, cs)
      let directoriesOnly := cs.getLast? = some '/'
      let cs := if directoriesOnly then cs.dropLast else cs
      let cs := if directoriesOnly && cs.getLast? = some '\\' then cs.dropLast else cs
      let cs := insideOnly (anchor bound cs)
      (tokens .start none false (cs.length + 1) cs).map fun pattern =>
        ⟨negated, directoriesOnly, pattern⟩

def inRanges (ranges : List (Char × Char)) (c : Char) : Bool :=
  ranges.any fun (first, last) => first ≤ c && c ≤ last

/-- The rests of a text behind its slashes. -/
def behindSlashes : List Char → List (List Char)
  | [] => []
  | c :: cs => if c = '/' then cs :: behindSlashes cs else behindSlashes cs

/-- The rests of a text that are left when some of its first characters, no slashes among them, are
taken away. -/
def behindNames : List Char → List (List Char)
  | [] => []
  | c :: cs => if c = '/' then [] else cs :: behindNames cs

def suffixes : List Char → List (List Char)
  | [] => [[]]
  | c :: cs => (c :: cs) :: suffixes cs

/-- A character of one byte. -/
def isNarrow (c : Char) : Bool := c.toNat < 0x80

mutual

/-- The rests of a text behind what a token stands for, one for each way to read it. -/
def restsOf (cs : List Char) : IgnoreToken → List (List Char)
  | .char d =>
    match cs with
    | c :: rest => if c = d then [rest] else []
    | [] => []
  | .anyChar =>
    match cs with
    | c :: rest => if c ≠ '/' && isNarrow c then [rest] else []
    | [] => []
  | .anyName => cs :: behindNames cs
  | .leading => cs :: behindSlashes cs
  | .between =>
    match cs with
    | '/' :: rest => rest :: behindSlashes rest
    | _ => []
  | .inside =>
    match cs with
    | '/' :: rest => suffixes rest
    | _ => []
  | .oneOf negated ranges =>
    match cs with
    | c :: rest => if isNarrow c && (inRanges ranges c != negated) then [rest] else []
    | [] => []
  | .choice branches => if branches.isEmpty then [cs] else restsOfAny cs branches

/-- The rests behind what tokens stand for, one after the other. -/
def restsOfAll (cs : List Char) : List IgnoreToken → List (List Char)
  | [] => [cs]
  | token :: tokens => (restsOf cs token).flatMap fun rest => restsOfAll rest tokens

def restsOfAny (cs : List Char) : List (List IgnoreToken) → List (List Char)
  | [] => []
  | branch :: branches => restsOfAll cs branch ++ restsOfAny cs branches

end

/-- Whether the pattern stands for a whole path. -/
def stands (pattern : List IgnoreToken) (path : List Char) : Bool :=
  match pattern with
  | [.leading] => true
  | pattern => (restsOfAll path pattern).any (·.isEmpty)

/-- Whether the rule tells of a path below its directory. -/
def applies (r : IgnoreRule) (path : List Char) (isDirectory : Bool) : Bool :=
  (isDirectory || !r.directoriesOnly) && stands r.pattern path

end IgnoreRule

structure IgnoreFile where
  rules : List IgnoreRule

namespace IgnoreFile

def byteOrderMark : Char := Char.ofNat 0xfeff

/-- The lines of contents, up to the first that is no text. -/
def lines (contents : ByteArray) : List (List Char) :=
  let pieces := (contents.toList.splitOnP (· = 10)).map fun bytes =>
    String.fromUTF8? ⟨bytes.toArray⟩
  let texts := (pieces.takeWhile (·.isSome)).filterMap id
  texts.map fun line =>
    let cs := line.toList
    if cs.getLast? = some '\r' then cs.dropLast else cs

def ofContents (contents : ByteArray) : IgnoreFile :=
  match lines contents with
  | [] => ⟨[]⟩
  | first :: others =>
    ⟨(first.dropWhile (· = byteOrderMark) :: others).filterMap IgnoreRule.ofLine?⟩

/-- What the file says about a path below its directory: whether it is ignored, if anything. -/
def verdict? (f : IgnoreFile) (path : List Char) (isDirectory : Bool) : Option Bool :=
  (f.rules.reverse.find? (·.applies path isDirectory)).map (!·.negated)

end IgnoreFile

end MarkerIndex
