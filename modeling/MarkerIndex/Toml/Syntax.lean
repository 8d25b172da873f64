import MarkerIndex.Toml.Token
/-!
The statements of a TOML text: headers and assignments, with keys and values as they are spelled. A
key or value may be missing here, as an empty stretch; decoding refuses it, after the structure of
the whole text has been read.
-/

namespace MarkerIndex.Toml

/-- One name of a dotted key as it is spelled. -/
structure KeyPart where
  quote : Option Quote
  span : Span
  text : List Char
  deriving DecidableEq

inductive RawValue
  | scalar (quote : Option Quote) (span : Span) (text : List Char)
  | array (span : Span) (items : List RawValue)
  | inlineTable (span : Span) (entries : List (List KeyPart × RawValue))

inductive Statement
  | header (many : Bool) (span : Span) (key : List KeyPart)
  | assignment (key : List KeyPart) (value : RawValue)

namespace Syntax

def quoted (mark : String) : String := "`" ++ mark ++ "`"

section

-- The number of characters of the text.
variable (stop : Nat)

/-- The empty stretch in front of the next token. -/
def here : List Token → Span
  | [] => ⟨stop, stop⟩
  | t :: _ => t.span.before

def skipBlanks (ts : List Token) : List Token :=
  ts.dropWhile (·.kind = .blank)

/-- A comment shows no control characters but tabs. -/
def checkComment (t : Token) : Except Failure Unit :=
  match t.text.findIdx? fun c => (c.toNat < 0x20 && c ≠ '\t') || c.toNat = 0x7f with
  | some i =>
    .error (.expecting ⟨t.start + i, t.start + i⟩ "invalid comment character"
      ["printable characters"])
  | none => .ok ()

def checkNewline (t : Token) : Except Failure Unit :=
  if t.text = ['\r'] then
    .error (.expecting t.span.after "carriage return must be followed by newline" ["newline"])
  else .ok ()

/-- Checks a token that may stand between others, where line breaks are allowed. -/
def checkGap (t : Token) : Except Failure Unit :=
  if t.kind = .comment then checkComment t
  else if t.kind = .newline then checkNewline t
  else .ok ()

def isGap (t : Token) : Bool :=
  t.kind = .blank || t.kind = .comment || t.kind = .newline

/-- Reads one name, and tells whether it is there. -/
def keyPart (ts : List Token) : KeyPart × Bool × List Token :=
  let ts := skipBlanks ts
  let missing : KeyPart := ⟨none, here stop ts, []⟩
  match ts with
  | [] => (missing, false, [])
  | t :: rest =>
    match t.kind with
    | .quoted quote => (⟨some quote, t.span, t.text⟩, true, rest)
    | .bare => (⟨none, t.span, t.text⟩, true, rest)
    | _ => (missing, false, t :: rest)

/-- Reads the names behind the first, each behind a dot. -/
def keyTail : Nat → List Token → List KeyPart × Bool × List Token
  | 0, ts => ([], true, ts)
  | fuel + 1, ts =>
    match skipBlanks ts with
    | [] => ([], true, [])
    | t :: rest =>
      if t.kind = .dot then
        let (part, there, rest) := keyPart stop rest
        let anotherDot := (rest.head?.map (·.kind)) = some .dot
        if there || anotherDot then
          let (parts, whole, rest) := keyTail fuel rest
          (part :: parts, whole, rest)
        else ([part], false, rest)
      else ([], true, t :: rest)

/-- Reads a dotted key, and tells whether all of its names are there. -/
def key (ts : List Token) : List KeyPart × Bool × List Token :=
  let (first, there, rest) := keyPart stop ts
  if there || rest.head?.map (·.kind) = some .dot then
    let (parts, whole, rest) := keyTail stop rest.length rest
    (first :: parts, there && whole, skipBlanks rest)
  else ([first], false, skipBlanks rest)

def dropLine (ts : List Token) : List Token :=
  (ts.dropWhile (·.kind ≠ .newline)).drop 1

/-- The end of a statement: only a comment may stand before the line's end. -/
def endOfLine (ts : List Token) : Except Failure (Unit × List Token) :=
  match skipBlanks ts with
  | [] => .ok ((), [])
  | t :: rest =>
    if t.kind = .newline then do
      checkNewline t
      return ((), rest)
    else if t.kind = .comment then do
      checkComment t
      match rest with
      | [] => return ((), [])
      | next :: rest =>
        checkNewline next
        return ((), rest)
    else .error (.expecting t.span.before "unexpected key or value" ["newline", quoted "#"])

/-- Further stretches of an unquoted value: dots and what follows them, and words behind blanks. -/
def scalarTail : Nat → List Token → List Token × List Token
  | 0, ts => ([], ts)
  | fuel + 1, ts =>
    match ts with
    | blank :: word :: rest =>
      if blank.kind = .blank && word.kind = .bare then
        let (more, rest) := scalarTail fuel rest
        (blank :: word :: more, rest)
      else if blank.kind = .dot || blank.kind = .bare then
        let (more, rest) := scalarTail fuel (word :: rest)
        (blank :: more, rest)
      else ([], ts)
    | [t] => if t.kind = .dot || t.kind = .bare then ([t], []) else ([], [t])
    | [] => ([], [])

/-- Reads an unquoted value that begins with `t`. -/
def scalar (t : Token) (rest : List Token) : RawValue × List Token :=
  let (more, rest) := scalarTail rest.length rest
  let last := more.getLast?.getD t
  (.scalar none (t.span.through last.span) (t.text ++ more.flatMap (·.text)), rest)

def noInlineTable (t : Token) : Failure :=
  .expecting t.span.before "missing inline table opening" [quoted "\x7b"]

def noKey (t : Token) : Failure :=
  .expecting t.span.before "missing key for inline table element" ["key"]

def noAssignment (ts : List Token) : Failure :=
  .expecting (here stop ts) "missing assignment between key-value pairs" [quoted "="]

/-- How many arrays and tables in braces may stand open at one place. -/
def maxDepth : Nat := 80

def tooDeep (t : Token) : Failure :=
  .expecting t.span "cannot recurse further; max recursion depth met" []

mutual

/-- Reads a value behind `depth` brackets and braces that are still open. Where none begins an
empty one stands for it. -/
def value : Nat → Nat → List Token → Except Failure (RawValue × List Token)
  | 0, _, ts => .error (.expecting (here stop ts) "missing value" [])
  | fuel + 1, depth, ts =>
    let ts := skipBlanks ts
    match ts with
    | [] => .ok (.scalar none (here stop []) [], [])
    | t :: rest =>
      match t.kind with
      | .quoted quote => .ok (.scalar (some quote) t.span t.text, rest)
      | .bare => .ok (scalar t rest)
      | .dot => .ok (scalar t rest)
      | .openBracket =>
        if depth < maxDepth then arrayItems fuel (depth + 1) t true [] rest
        else .error (tooDeep t)
      | .openBrace =>
        if depth < maxDepth then tableEntries fuel (depth + 1) t true [] rest
        else .error (tooDeep t)
      | .equals => .error (.expecting t.span ("extra " ++ quoted "=") [])
      | .closeBrace => .error (noInlineTable t)
      | .closeBracket => .error (.expecting t.span.before "missing array opening" [quoted "["])
      | _ => .ok (.scalar none (here stop ts) [], ts)

/-- Reads the items of an array. `open_` is whether a value may come next. -/
def arrayItems : Nat → Nat → Token → Bool → List RawValue → List Token →
    Except Failure (RawValue × List Token)
  | 0, _, _, _, _, ts => .error (.expecting (here stop ts) "missing value" [])
  | fuel + 1, depth, opening, open_, items, ts =>
    match ts with
    | [] => .error (.expecting (here stop []) "unclosed array" [quoted "]"])
    | t :: rest =>
      if isGap t then do
        checkGap t
        arrayItems fuel depth opening open_ items rest
      else match t.kind with
        | .closeBracket => .ok (.array (opening.span.through t.span) items, rest)
        | .comma =>
          if open_ then .error (.expecting t.span "extra comma in array" ["value"])
          else arrayItems fuel depth opening true items rest
        | .equals =>
          let what := "unexpected " ++ quoted "=" ++ " in array"
          .error (.expecting t.span what ["value", quoted "]"])
        | .closeBrace => .error (noInlineTable t)
        | _ =>
          if open_ then do
            let (item, rest) ← value fuel depth (t :: rest)
            arrayItems fuel depth opening false (items ++ [item]) rest
          else .error (.expecting t.span.before "missing comma between array elements" [quoted ","])

/-- Reads the entries of a table in braces. `open_` is whether a key may come next. -/
def tableEntries : Nat → Nat → Token → Bool → List (List KeyPart × RawValue) →
    List Token → Except Failure (RawValue × List Token)
  | 0, _, _, _, _, ts => .error (.expecting (here stop ts) "missing value" [])
  | fuel + 1, depth, opening, open_, entries, ts =>
    match ts with
    | [] => .error (.expecting (here stop []) "unclosed inline table" [quoted "\x7d"])
    | t :: rest =>
      if isGap t then do
        checkGap t
        tableEntries fuel depth opening open_ entries rest
      else match t.kind with
        | .closeBrace => .ok (.inlineTable (opening.span.through t.span) entries, rest)
        | .comma =>
          if open_ then .error (.expecting t.span.before "extra comma in inline table" ["key"])
          else tableEntries fuel depth opening true entries rest
        | .openBracket => .error (noKey t)
        | .closeBracket => .error (noKey t)
        | .openBrace => .error (noKey t)
        | _ =>
          if open_ then
            let (parts, _, rest) := key stop (t :: rest)
            match rest with
            | [] => .error (noAssignment stop [])
            | equals :: rest =>
              if equals.kind = .equals then do
                let (assigned, rest) ← value fuel depth rest
                tableEntries fuel depth opening false (entries ++ [(parts, assigned)]) rest
              else .error (noAssignment stop (equals :: rest))
          else
            .error (.expecting t.span.before "missing comma between key-value pairs" [quoted ","])

end

/-- Reads a header behind its first bracket. Where its key is not whole, the rest of the line is
passed over. -/
def header (opening : Token) (ts : List Token) : Except Failure (Statement × List Token) :=
  let many := ts.head?.map (·.kind) = some .openBracket
  let (parts, whole, ts) := key stop (if many then ts.drop 1 else ts)
  let end_ := (parts.getLast?.map (·.span)).getD opening.span
  let what := if many then "unclosed array table" else "unclosed table"
  match ts with
  | close :: rest =>
    if close.kind = .closeBracket then
      if many then
        match rest with
        | second :: rest =>
          if second.kind = .closeBracket then do
            let ((), rest) ← endOfLine rest
            return (.header true (opening.span.through second.span) parts, rest)
          else .error (.expecting close.span.after what [quoted "]"])
        | [] => .error (.expecting close.span.after what [quoted "]"])
      else do
        let ((), rest) ← endOfLine rest
        return (.header false (opening.span.through close.span) parts, rest)
    else if whole then .error (.expecting end_.after what [quoted (if many then "]]" else "]")])
    else .ok (.header many opening.span parts, dropLine (close :: rest))
  | [] =>
    if whole then .error (.expecting end_.after what [quoted (if many then "]]" else "]")])
    else .ok (.header many opening.span parts, [])

/-- Reads an assignment from its key on. -/
def assignment (ts : List Token) : Except Failure (Statement × List Token) :=
  let (parts, _, ts) := key stop ts
  match ts with
  | t :: rest =>
    if t.kind = .equals then do
      let (assigned, rest) ← value stop (2 * rest.length + 2) 0 rest
      let ((), rest) ← endOfLine rest
      return (.assignment parts assigned, rest)
    else .error (.expecting t.span.before "key with no value" [quoted "="])
  | [] => .error (.expecting (here stop []) "key with no value" [quoted "="])

/-- Reads the statements of a text. Each takes at least one token. -/
def statements : Nat → List Token → Except Failure (List Statement)
  | 0, _ => .ok []
  | fuel + 1, ts =>
    match ts with
    | [] => .ok []
    | t :: rest =>
      if isGap t then do
        checkGap t
        statements fuel rest
      else match t.kind with
        | .openBracket => do
          let (statement, rest) ← header stop t rest
          return statement :: (← statements fuel rest)
        | .closeBracket => .error (.expecting t.span.before "missing table open" [quoted "["])
        | .comma => .error (.expecting t.span.before "invalid key" ["key"])
        | .openBrace => .error (.expecting t.span.before "invalid key" ["key"])
        | .closeBrace => .error (.expecting t.span.before "invalid key" ["key"])
        | _ => do
          let (statement, rest) ← assignment stop (t :: rest)
          return statement :: (← statements fuel rest)

end

/-- The statements of a whole text. -/
def ofText (s : String) : Except Failure (List Statement) :=
  let ts := Token.ofText s
  statements s.length ts.length ts

end Syntax

end MarkerIndex.Toml
