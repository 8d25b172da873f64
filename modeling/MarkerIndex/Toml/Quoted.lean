import MarkerIndex.Toml.Digits
import MarkerIndex.Toml.Syntax
/-!
Decoding quoted texts, of which there are four kinds, and names. A name is a quoted text on one
line, or a word of letters, digits, hyphens and underscores.
-/

namespace MarkerIndex.Toml

namespace Quoted

def escapeChoices : List String :=
  ["b", "e", "f", "n", "r", "\\", "\"", "x", "u", "U"].map Syntax.quoted

def noEscape (place : Nat) : Failure :=
  .expecting ⟨place, place⟩ "missing escaped value" escapeChoices

/-- The escapes of one letter. -/
def simpleEscape? (c : Char) : Option Char :=
  if c = 'b' then some '\x08'
  else if c = 'e' then some '\x1b'
  else if c = 'f' then some '\x0c'
  else if c = 'n' then some '\n'
  else if c = 'r' then some '\r'
  else if c = 't' then some '\t'
  else if c = '\\' then some '\\'
  else if c = '"' then some '"'
  else none

/-- How many digits follow the letter of an escape by number. -/
def escapeDigits? (c : Char) : Option Nat :=
  if c = 'x' then some 2 else if c = 'u' then some 4 else if c = 'U' then some 8 else none

/-- The character that an escape by number stands for. -/
def numbered (place count : Nat) (cs : List Char) : Except Failure Char :=
  let digits := (cs.take count).takeWhile isHex
  if digits.length < count then
    let behind := place + digits.length
    .error
      (.expecting ⟨behind, behind⟩ "too few unicode value digits" ["unicode hexadecimal value"])
  else
    let n := digitsValue 16 digits
    if n.isValidChar then .ok (Char.ofNat n)
    else .error (.expecting ⟨place, place⟩ "invalid value" ["unicode hexadecimal value"])

/-- A control character other than the tab. -/
def isControl (c : Char) : Bool :=
  (c.toNat < 0x20 && c ≠ '\t') || c.toNat = 0x7f

def isBreak (c : Char) : Bool := c = '\n' || c = '\r'

/-- The kind of a quoted text as it is called in failures. -/
def what (quote : Quote) : String :=
  match quote with
  | .basic => "invalid basic string"
  | .literal => "invalid literal string"
  | .longBasic => "invalid multi-line basic string"
  | .longLiteral => "invalid multi-line literal string"

def mark (quote : Quote) : String :=
  match quote with
  | .basic => "\""
  | .literal => "'"
  | .longBasic => "\"\"\""
  | .longLiteral => "'''"

def isLong (quote : Quote) : Bool := quote = .longBasic || quote = .longLiteral

def hasEscapes (quote : Quote) : Bool := quote = .basic || quote = .longBasic

/-- What may stand in a quoted text. -/
def choices (quote : Quote) : List String :=
  match quote with
  | .basic => ["non-double-quote visible characters", Syntax.quoted "\\"]
  | .literal => ["non-single-quote visible characters"]
  | .longBasic => [Syntax.quoted "\\", "characters"]
  | .longLiteral => ["non-single-quote characters"]

/-- Decodes what stands between the quotes. -/
def unescape (quote : Quote) : Nat → Nat → List Char → Except Failure (List Char)
  | 0, _, _ => .ok []
  | _ + 1, _, [] => .ok []
  | fuel + 1, place, c :: rest =>
    if c = '\\' && hasEscapes quote then
      match rest with
      | [] => .error (noEscape (place + 1))
      | letter :: after =>
        if isLong quote && (Token.isBlank letter || isBreak letter) then
          let left := rest.dropWhile fun c => Token.isBlank c || isBreak c
          unescape quote fuel (place + 1 + (rest.length - left.length)) left
        else match simpleEscape? letter, escapeDigits? letter with
          | some value, _ => (unescape quote fuel (place + 2) after).map (value :: ·)
          | none, some count =>
            match numbered (place + 2) count after with
            | .error failure => .error failure
            | .ok value =>
              (unescape quote fuel (place + 2 + count) (after.drop count)).map (value :: ·)
          | none, none => .error (noEscape (place + 1))
    else if isLong quote && c = '\n' then (unescape quote fuel (place + 1) rest).map (c :: ·)
    else if isLong quote && c = '\r' then
      match rest with
      | '\n' :: after => (unescape quote fuel (place + 2) after).map (['\r', '\n'] ++ ·)
      | _ =>
        .error (.expecting ⟨place + 1, place + 1⟩ "carriage return must be followed by newline"
          ["newline"])
    else if isControl c then
      let width := (rest.takeWhile isControl).length + 1
      let stop := if hasEscapes quote then place + width else place
      .error (.expecting ⟨place, stop⟩ (what quote) (choices quote))
    else (unescape quote fuel (place + 1) rest).map (c :: ·)

def dropFirstBreak : List Char → List Char
  | '\n' :: rest => rest
  | '\r' :: '\n' :: rest => rest
  | cs => cs

/-- The value of a quoted text, given with its quotes. -/
def decode (quote : Quote) (span : Span) (text : List Char) : Except Failure String :=
  let mark := mark quote
  let body := text.drop mark.length
  if body.length < mark.length || body.drop (body.length - mark.length) ≠ mark.toList then
    .error (.expecting span.after (what quote) [Syntax.quoted mark])
  else
    let body := body.take (body.length - mark.length)
    let inner := if isLong quote then dropFirstBreak body else body
    let place := span.start + mark.length + (body.length - inner.length)
    (unescape quote (inner.length + 1) place inner).map String.ofList

end Quoted

namespace KeyPart

def keyChoices : List String := ["letters", "numbers", Syntax.quoted "-", Syntax.quoted "_"]

def isKeyChar (c : Char) : Bool := c.isAlphanum || c = '-' || c = '_'

/-- The name that one part of a key spells. -/
def decode (part : KeyPart) : Except Failure String :=
  match part.quote with
  | some .longBasic =>
    .error (.expecting part.span "keys cannot be multi-line basic strings"
      ["basic string", "literal string"])
  | some .longLiteral =>
    .error (.expecting part.span "keys cannot be multi-line literal strings"
      ["basic string", "literal string"])
  | some quote => Quoted.decode quote part.span part.text
  | none =>
    if part.text = [] then
      .error (.expecting part.span "unquoted keys cannot be empty" keyChoices)
    else match part.text.findIdx? (!isKeyChar ·) with
      | some i =>
        let place := part.span.start + i
        .error (.expecting ⟨place, place⟩ "invalid unquoted key" keyChoices)
      | none => .ok (String.ofList part.text)

end KeyPart

end MarkerIndex.Toml
