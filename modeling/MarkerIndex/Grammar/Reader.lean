import MarkerIndex.Grammar.Failure
import MarkerIndex.Source.Scan
/-!
Reading a list of token trees from the left. A reader either fails with one place and problem or
goes on behind what it has read. Its state remembers what was read, each operator spaced in its own
way whatever the text had, and the first token that some closed bracket left unread: such a token is
an error only when everything else is in order.
-/

namespace MarkerIndex.Grammar

/-- The brackets that are being read. -/
structure Scope where
  /-- Where it is reported that the tokens ran out. -/
  stop : Position
  within : Option Delimiter

structure State where
  rest : List TokenTree
  /-- What was read, last token first. -/
  read : List TokenTree
  leftover : Option (Position × Option Delimiter)

abbrev Reader := ReaderT Scope (StateT State (Except Failure))

/-- Words that are not names. -/
def keywords : List String :=
  ["_", "abstract", "as", "async", "await", "become", "box", "break", "const", "continue", "crate",
    "do", "dyn", "else", "enum", "extern", "false", "final", "fn", "for", "if", "impl", "in", "let",
    "loop", "macro", "match", "mod", "move", "mut", "override", "priv", "pub", "ref", "return",
    "Self", "self", "static", "struct", "super", "trait", "true", "try", "type", "typeof", "unsafe",
    "unsized", "use", "virtual", "where", "while", "yield"]

/-- An identifier, raw or not, that is no keyword. -/
def isName (word : String) : Bool :=
  !keywords.contains word && decide (Scan.nameEnd word.toList = some [])

/-- A name or keyword stands first. -/
def atWord : List TokenTree → Bool
  | .leaf _ (.word _) :: _ => true
  | _ => false

def atName : List TokenTree → Bool
  | .leaf _ (.word w) :: _ => isName w
  | _ => false

def atKeyword (keyword : String) : List TokenTree → Bool
  | .leaf _ (.word w) :: _ => w = keyword
  | _ => false

/-- The operator's characters stand first, each joined to the next. -/
def opRest : List Char → List TokenTree → Option (List TokenTree)
  | [], ts => some ts
  | [c], .leaf _ (.punct d _) :: ts => if c = d && d ≠ '\'' then some ts else none
  | c :: cs, .leaf _ (.punct d joint) :: ts =>
    if c = d && d ≠ '\'' && joint then opRest cs ts else none
  | _ :: _, _ => none

def atOp (op : String) (ts : List TokenTree) : Bool :=
  (opRest op.toList ts).isSome

def atGroup (delimiter : Delimiter) : List TokenTree → Bool
  | .group d _ _ _ :: _ => d = delimiter
  | _ => false

def atParen : List TokenTree → Bool := atGroup .parenthesis

def atBrace : List TokenTree → Bool := atGroup .brace

def atBracket : List TokenTree → Bool := atGroup .bracket

def atLifetime : List TokenTree → Bool
  | .leaf _ (.punct '\'' true) :: .leaf _ (.word _) :: _ => true
  | _ => false

/-- The kinds of literal that the grammar tells apart. -/
inductive LiteralKind
  | text
  | character
  | bytes
  | integer (suffix : String)
  | fraction
  | boolean
  | placeholder
  deriving DecidableEq

/-- The kind of a number, from its spelling. -/
def numberKind (cs : List Char) : LiteralKind :=
  let digits := cs.takeWhile fun c => c.isDigit || c = '_'
  let rest := cs.drop digits.length
  let suffixed (cs : List Char) : LiteralKind := .integer (String.ofList cs)
  match cs with
  | '0' :: 'x' :: r => suffixed (r.dropWhile fun c => (Text.Quoted.hexValue? c).isSome || c = '_')
  | '0' :: 'o' :: r => suffixed (r.dropWhile fun c => c.isDigit || c = '_')
  | '0' :: 'b' :: r => suffixed (r.dropWhile fun c => c.isDigit || c = '_')
  | _ =>
    match rest with
    | '.' :: _ => .fraction
    | e :: r =>
      let power := (r.dropWhile fun c => c = '+' || c = '-' || c = '_').head?.any (·.isDigit)
      if (e = 'e' || e = 'E') && power then .fraction else suffixed rest
    | [] => suffixed rest

def literalKind (text : String) : LiteralKind :=
  match text.toList with
  | '"' :: _ => .text
  | 'r' :: _ => .text
  | '\'' :: _ => .character
  | 'b' :: _ => .bytes
  | 'c' :: _ => .bytes
  | '(' :: _ => .placeholder
  | cs => numberKind cs

/-- The literal that stands first, which may be a truth value or a negative number. -/
def literalAhead : List TokenTree → Option (LiteralKind × List TokenTree × List TokenTree)
  | t@(.leaf _ (.literal text)) :: rest => some (literalKind text, [t], rest)
  | t@(.leaf _ (.word w)) :: rest =>
    if w = "true" || w = "false" then some (.boolean, [t], rest) else none
  | .leaf pos (.punct '-' _) :: t@(.leaf _ (.literal text)) :: rest =>
    match literalKind text with
    | .integer suffix => some (.integer suffix, [.leaf pos (.punct '-' false), t], rest)
    | .fraction => some (.fraction, [.leaf pos (.punct '-' false), t], rest)
    | _ => none
  | _ => none

def atLiteral (ts : List TokenTree) : Bool :=
  (literalAhead ts).isSome

def atText (ts : List TokenTree) : Bool :=
  (literalAhead ts).any fun (kind, _, _) => kind = .text

/-- The trees behind the first, where a lifetime counts as one. -/
def behind : List TokenTree → List TokenTree
  | .leaf _ (.punct '\'' true) :: .leaf _ (.word _) :: rest => rest
  | _ :: rest => rest
  | [] => []

def tick (token : String) : String := "`" ++ token ++ "`"

def rest : Reader (List TokenTree) := do
  return (← get).rest

/-- The place of the next token, or the end of the brackets that are being read. -/
def herePos : Reader Position := do
  match (← get).rest with
  | t :: _ => return t.pos
  | [] => return (← read).stop

def failAt {α : Type} (pos : Position) (problem : Problem) : Reader α :=
  throw ⟨pos, false, problem⟩

/-- Fails at the next token, or for want of one. -/
def fail {α : Type} (problem : Problem) : Reader α := do
  throw ⟨← herePos, (← get).rest.isEmpty, problem⟩

def failExpected {α : Type} (choices : List String) : Reader α :=
  fail (.expected choices)

/-- Goes on behind `ts`, having read `taken`. -/
def take (taken : List TokenTree) (ts : List TokenTree) : Reader Unit :=
  modify fun s => { s with rest := ts, read := taken.reverse ++ s.read }

/-- An operator as it is spaced when written: only its own characters are joined. -/
def opTokens (pos : Position) : List Char → List TokenTree
  | [] => []
  | [c] => [.leaf pos (.punct c false)]
  | c :: cs => .leaf pos (.punct c true) :: opTokens pos cs

/-- An operator. Where it is missing the tokens have not run out, they are wrong. -/
def op (text : String) : Reader Unit := do
  match opRest text.toList (← rest) with
  | some ts => take (opTokens (← herePos) text.toList) ts
  | none => failAt (← herePos) (.expected [tick text])

def keyword (word : String) : Reader Unit := do
  match ← rest with
  | t@(.leaf _ (.word w)) :: ts => if w = word then take [t] ts else failExpected [tick word]
  | _ => failExpected [tick word]

/-- The operator, if it stands here. -/
def op? (text : String) : Reader Bool := do
  if atOp text (← rest) then
    op text
    return true
  else return false

def keyword? (word : String) : Reader Bool := do
  if atKeyword word (← rest) then
    keyword word
    return true
  else return false

/-- Any word, with its place. -/
def anyWord : Reader (String × Position) := do
  match ← rest with
  | t@(.leaf pos (.word w)) :: ts =>
    take [t] ts
    return (w, pos)
  | _ => failExpected ["ident"]

def name : Reader (String × Position) := do
  match ← rest with
  | t@(.leaf pos (.word w)) :: ts =>
    if isName w then
      take [t] ts
      return (w, pos)
    else fail (.keywordAsName w)
  | _ => failExpected ["identifier"]

/-- A name, or a keyword that is let through here. -/
def nameOr (allowed : List String) : Reader (String × Position) := do
  if allowed.any (atKeyword · (← rest)) then anyWord else name

def lifetime : Reader Unit := do
  match ← rest with
  | .leaf pos (.punct '\'' true) :: t@(.leaf _ (.word _)) :: ts =>
    take [.leaf pos (.punct '\'' true), t] ts
  | _ => failExpected ["lifetime"]

def lifetime? : Reader Bool := do
  if atLifetime (← rest) then
    lifetime
    return true
  else return false

def literal : Reader LiteralKind := do
  match literalAhead (← rest) with
  | some (kind, taken, ts) =>
    take taken ts
    return kind
  | none => failExpected ["literal"]

def groupName : Delimiter → String
  | .parenthesis => "parentheses"
  | .brace => "curly braces"
  | .bracket => "square brackets"

/-- Reads the inside of a bracketed group. What `inside` leaves unread is remembered. -/
def group {α : Type} (delimiter : Delimiter) (inside : Reader α) : Reader α := do
  let state ← get
  match state.rest with
  | .group d start close content :: ts =>
    if d = delimiter then
      let scope : Scope := ⟨close, some d⟩
      match inside.run scope |>.run ⟨content, [], state.leftover⟩ with
      | .error failure => throw failure
      | .ok (value, inner) =>
        let unread := inner.rest.head?.map fun t => (t.pos, some d)
        set { rest := ts
              read := .group d start close inner.read.reverse :: state.read
              leftover := inner.leftover.orElse fun _ => unread : State }
        return value
    else failExpected [groupName delimiter]
  | _ => failExpected [groupName delimiter]

def parens {α : Type} : Reader α → Reader α := group .parenthesis

def braces {α : Type} : Reader α → Reader α := group .brace

def brackets {α : Type} : Reader α → Reader α := group .bracket

/-- Any bracketed group, taken over as it is. -/
def anyGroup : Reader (Delimiter × List TokenTree) := do
  match ← rest with
  | t@(.group d _ _ content) :: ts =>
    take [t] ts
    return (d, content)
  | _ => failExpected ["delimiter"]

/-- Takes over everything that is left. -/
def everything : Reader Unit := do
  let ts ← rest
  take ts []

def atEnd : Reader Bool := do
  return (← get).rest.isEmpty

/-- Runs a reader and goes back to where it began, giving the state it reached. -/
def probe {α : Type} (reader : Reader α) : Reader (Option (α × State)) := do
  match reader.run (← read) |>.run (← get) with
  | .ok result => return some result
  | .error _ => return none

/-- Runs a reader, and goes back to where it began when it fails. -/
def attempt {α : Type} (reader : Reader α) : Reader (Option α) := do
  match ← probe reader with
  | some (value, state) =>
    set state
    return some value
  | none => return none

/-- The trees ahead once a reader has gone on, or none if it fails. -/
def restAfter {α : Type} (reader : Reader α) : Reader (List TokenTree) := do
  match ← probe reader with
  | some (_, state) => return state.rest
  | none => return []

/-- Runs a reader and gives what it read. -/
def recorded {α : Type} (reader : Reader α) : Reader (α × List TokenTree) := do
  let earlier := (← get).read
  modify fun s => { s with read := [] }
  let value ← reader
  let taken := (← get).read
  modify fun s => { s with read := taken ++ earlier }
  return (value, taken.reverse)

/-- Replaces what a reader has recorded by the tokens of the text, spaced as they were. -/
def asWritten {α : Type} (reader : Reader α) : Reader α := do
  let ahead ← rest
  let (value, taken) ← recorded reader
  let left ← rest
  let verbatim := ahead.take (ahead.length - left.length)
  modify fun s => { s with read := verbatim.reverse ++ s.read.drop taken.length }
  return value

/-- Runs `step` until it says to stop, at most as often as there are tokens ahead and once more. -/
def loopFrom {α : Type} (fuel : Nat) (step : α → Reader (Bool × α)) (acc : α) : Reader α := do
  match fuel with
  | 0 => return acc
  | n + 1 =>
    let (more, acc) ← step acc
    if more then loopFrom n step acc else return acc

def loop {α : Type} (acc : α) (step : α → Reader (Bool × α)) : Reader α := do
  loopFrom ((← rest).length + 1) step acc

/-- Repeats a reader while a test of what lies ahead holds. -/
def whileAt {α : Type} (test : List TokenTree → Bool) (reader : Reader α) : Reader (List α) := do
  let found ← loop [] fun acc => do
    if test (← rest) then
      let value ← reader
      return (true, value :: acc)
    else return (false, acc)
  return found.reverse

/-- Repeats a reader up to the end of the brackets. -/
def untilEnd {α : Type} (reader : Reader α) : Reader (List α) :=
  whileAt (fun ts => !ts.isEmpty) reader

/-- Repeats a reader with separators between, up to a point where `done` holds. A separator may
stand before that point. -/
def separated {α : Type} (separator : String) (done : List TokenTree → Bool) (reader : Reader α) :
    Reader (List α) := do
  let found ← loop [] fun acc => do
    if done (← rest) then return (false, acc)
    else
      let value ← reader
      if done (← rest) then return (false, value :: acc)
      else
        op separator
        return (true, value :: acc)
  return found.reverse

/-- Repeats a reader with commas between, up to the end of the brackets. -/
def commaList {α : Type} (reader : Reader α) : Reader (List α) :=
  separated "," List.isEmpty reader

/-- Reads summands while plus signs join them. No summand is read where `done` holds. -/
def summands {α : Type} (done : List TokenTree → Bool) (reader : Reader α) : Reader Unit :=
  loop () fun _ => do
    if done (← rest) then return (false, ())
    else
      let _ ← reader
      return (← op? "+", ())

end MarkerIndex.Grammar
