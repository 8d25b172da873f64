import MarkerIndex.Source.Scan
import MarkerIndex.Source.Token
/-!
From a source text to token trees. `Lexeme.ofChars` cuts the text into lexemes up to the first place
where no lexeme begins, and `TokenTree.assemble` nests them by their brackets. A text that cannot be
cut or nested is refused with one place: the first bad character, the first bracket that closes
nothing open, or the innermost bracket that stays open.
-/

namespace MarkerIndex

inductive Lexeme
  | opening (pos : Position) (delimiter : Delimiter)
  | closing (pos : Position) (delimiter : Delimiter)
  | leaf (pos : Position) (leaf : Leaf)
  /-- A documentation comment from its first to its last character. -/
  | doc (pos last : Position) (inner : Bool) (text : String)

namespace Lexeme

open Scan

def opening? : Char → Option Delimiter
  | '(' => some .parenthesis
  | '[' => some .bracket
  | '\x7b' => some .brace
  | _ => none

def closing? : Char → Option Delimiter
  | ')' => some .parenthesis
  | ']' => some .bracket
  | '\x7d' => some .brace
  | _ => none

/-- What stands for a value that could not be written. It is one literal, brackets and all. -/
def placeholder : String := "(/*ERROR*/)"

/-- The bracket that a character opens in front of others. -/
def opened? (c : Char) (rest : List Char) : Option Delimiter :=
  if startsWith placeholder (c :: rest) then none else opening? c

/-- The leaf that the characters begin with, and what follows it. Literals are tried first, since
some begin like names. -/
def leaf? (cs : List Char) : Option (Leaf × List Char) :=
  match literal cs with
  | some rest => some (.literal (String.ofList (before cs rest)), rest)
  | none =>
    match punctChar cs with
    | some ('\'', rest) => if apostropheAllowed rest then some (.punct '\'' true, rest) else none
    | some (c, rest) => some (.punct c (punctChar rest).isSome, rest)
    | none =>
      match word cs with
      | some rest => some (.word (String.ofList (before cs rest)), rest)
      | none => (afterText placeholder.toList cs).map fun rest => (.literal placeholder, rest)

/-- The lexeme that the characters begin with, and what follows it. -/
def next? (pos : Position) (cs : List Char) : Option (Lexeme × List Char) :=
  match docComment cs with
  | some comment =>
    let last := pos.advance ((before cs comment.rest).dropLast)
    some (.doc pos last comment.inner (String.ofList comment.text), comment.rest)
  | none =>
    match cs with
    | [] => none
    | c :: rest =>
      match opened? c rest, closing? c with
      | some d, _ => some (.opening pos d, rest)
      | none, some d => some (.closing pos d, rest)
      | none, none => (leaf? (c :: rest)).map fun (token, rest) => (.leaf pos token, rest)

/-- The lexemes of a text from a place on, and the place where the cutting failed, if it did. -/
def ofChars (pos : Position) (cs : List Char) : List Lexeme × Option Position :=
  let ahead := skipSpace cs
  let pos := pos.advance (before cs ahead)
  if ahead.isEmpty then ([], none)
  else match next? pos ahead with
    | none => ([], some pos)
    | some (lexeme, rest) =>
      if rest.length < cs.length then
        let (lexemes, failure) := ofChars (pos.advance (before ahead rest)) rest
        (lexeme :: lexemes, failure)
      else ([lexeme], some pos)
termination_by cs.length

end Lexeme

namespace TokenTree

/-- A documentation comment stands for an attribute: a number sign, an exclamation mark where it
documents what encloses it, and the text in brackets. -/
def ofDoc (pos last : Position) (inner : Bool) (text : String) : List TokenTree :=
  let content := [leaf pos (.word "doc"), leaf pos (.punct '=' false),
    leaf pos (.literal (Text.Quoted.encode text))]
  let mark := if inner then [leaf pos (.punct '!' false)] else []
  leaf pos (.punct '#' false) :: (mark ++ [group .bracket pos last content])

/-- A bracket that is still open: what it is, where it stands and what was read before it. -/
structure Open where
  delimiter : Delimiter
  pos : Position
  before : List TokenTree

/-- Nests lexemes by their brackets. `current` holds the trees of the innermost open bracket, last
one first; `failure` is the place where the cutting into lexemes failed. -/
def assemble (failure : Option Position) (current : List TokenTree) (stack : List Open) :
    List Lexeme → Except Position (List TokenTree)
  | [] =>
    match failure, stack with
    | some pos, _ => .error pos
    | none, bracket :: _ => .error bracket.pos
    | none, [] => .ok current.reverse
  | .opening pos delimiter :: rest => assemble failure [] (⟨delimiter, pos, current⟩ :: stack) rest
  | .closing pos delimiter :: rest =>
    match stack with
    | bracket :: stack =>
      if bracket.delimiter = delimiter then
        let whole := group delimiter bracket.pos pos current.reverse
        assemble failure (whole :: bracket.before) stack rest
      else .error pos
    | [] => .error pos
  | .leaf pos token :: rest => assemble failure (leaf pos token :: current) stack rest
  | .doc pos last inner text :: rest =>
    assemble failure ((ofDoc pos last inner text).reverse ++ current) stack rest

/-- The character that may open a text to show its byte order, and that means nothing else. -/
def byteOrderMark : Char := '\ufeff'

/-- The token trees of a text. -/
def ofText (cs : List Char) : Except Position (List TokenTree) :=
  let (pos, cs) := match cs with
    | c :: rest => if c = byteOrderMark then (Position.first.step c, rest) else (Position.first, cs)
    | [] => (Position.first, cs)
  let (lexemes, failure) := Lexeme.ofChars pos cs
  assemble failure [] [] lexemes

end TokenTree

end MarkerIndex
