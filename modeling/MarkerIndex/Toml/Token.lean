import MarkerIndex.Toml.Failure
/-!
The tokens of a TOML text. Cutting never fails: a quoted text that is not closed ends with its line,
or with the text if it may span lines, and is found wanting when it is decoded.
-/

namespace MarkerIndex.Toml

/-- The four kinds of quoted text. -/
inductive Quote
  | basic
  | literal
  | longBasic
  | longLiteral
  deriving DecidableEq

inductive TokenKind
  | dot
  | equals
  | comma
  | openBracket
  | closeBracket
  | openBrace
  | closeBrace
  | blank
  | newline
  | comment
  | quoted (quote : Quote)
  /-- A stretch of other characters. -/
  | bare
  deriving DecidableEq

structure Token where
  kind : TokenKind
  start : Nat
  text : List Char
  deriving DecidableEq

namespace Token

def span (t : Token) : Span := ⟨t.start, t.start + t.text.length⟩

/-- The marks that are tokens by themselves. -/
def mark? (c : Char) : Option TokenKind :=
  if c = '.' then some .dot
  else if c = '=' then some .equals
  else if c = ',' then some .comma
  else if c = '[' then some .openBracket
  else if c = ']' then some .closeBracket
  else if c = '\x7b' then some .openBrace
  else if c = '\x7d' then some .closeBrace
  else none

def isBlank (c : Char) : Bool := c = ' ' || c = '\t'

def endsBare (c : Char) : Bool :=
  (mark? c).isSome || isBlank c || c = '#' || c = '\r' || c = '\n'

/-- The number of characters up to the end of a literal text, from behind its first quote. -/
def literalLength : List Char → Nat
  | [] => 0
  | c :: rest => if c = '\'' then 1 else if c = '\n' then 0 else 1 + literalLength rest

def basicLength : List Char → Nat
  | [] => 0
  | '\\' :: '\\' :: rest => 2 + basicLength rest
  | '\\' :: '"' :: rest => 2 + basicLength rest
  | c :: rest => if c = '"' then 1 else if c = '\n' then 0 else 1 + basicLength rest

/-- Up to two more quotes belong to a text that was closed by three. -/
def moreQuotes (quote : Char) (rest : List Char) : Nat :=
  ((rest.take 2).takeWhile (· = quote)).length

def longLiteralLength : List Char → Nat
  | [] => 0
  | '\'' :: '\'' :: '\'' :: rest => 3 + moreQuotes '\'' rest
  | _ :: rest => 1 + longLiteralLength rest

def longBasicLength : List Char → Nat
  | [] => 0
  | '\\' :: '\\' :: rest => 2 + longBasicLength rest
  | '\\' :: '"' :: rest => 2 + longBasicLength rest
  | '"' :: '"' :: '"' :: rest => 3 + moreQuotes '"' rest
  | _ :: rest => 1 + longBasicLength rest

/-- The kind of the token that begins with `c`, and the number of its further characters. -/
def shape (c : Char) (rest : List Char) : TokenKind × Nat :=
  match mark? c with
  | some kind => (kind, 0)
  | none =>
    if isBlank c then (.blank, (rest.takeWhile isBlank).length)
    else if c = '\n' then (.newline, 0)
    else if c = '\r' then (.newline, if rest.head? = some '\n' then 1 else 0)
    else if c = '#' then (.comment, (rest.takeWhile fun c => c ≠ '\n' && c ≠ '\r').length)
    else if c = '\'' then
      match rest with
      | '\'' :: '\'' :: rest => (.quoted .longLiteral, 2 + longLiteralLength rest)
      | _ => (.quoted .literal, literalLength rest)
    else if c = '"' then
      match rest with
      | '"' :: '"' :: rest => (.quoted .longBasic, 2 + longBasicLength rest)
      | _ => (.quoted .basic, basicLength rest)
    else (.bare, (rest.takeWhile fun c => !endsBare c).length)

/-- The tokens of a text whose first character has the number `start`. -/
def ofChars (start : Nat) : List Char → List Token
  | [] => []
  | c :: rest =>
    let (kind, more) := shape c rest
    ⟨kind, start, c :: rest.take more⟩ :: ofChars (start + 1 + more) (rest.drop more)
termination_by cs => cs.length
decreasing_by rw [List.length_drop, List.length_cons]; omega

def byteOrderMark : Char := Char.ofNat 0xfeff

/-- The tokens of a whole text. A byte order mark in front is passed over. -/
def ofText (s : String) : List Token :=
  match s.toList with
  | c :: rest => if c = byteOrderMark then ofChars 1 rest else ofChars 0 (c :: rest)
  | [] => []

end Token

end MarkerIndex.Toml
