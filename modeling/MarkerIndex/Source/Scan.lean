import MarkerIndex.Text.Blank
import MarkerIndex.Text.Identifier
import MarkerIndex.Text.Quoted
/-!
Scanners for the leaves of a source text. Each takes the characters that lie ahead and, when they
begin with its kind of leaf, gives back what follows it.
-/

namespace MarkerIndex.Scan

open MarkerIndex.Text

/-- What is left behind a fixed text. -/
def afterText : List Char → List Char → Option (List Char)
  | [], cs => some cs
  | _ :: _, [] => none
  | p :: ps, c :: cs => if p = c then afterText ps cs else none

def startsWith (text : String) (cs : List Char) : Bool :=
  (afterText text.toList cs).isSome

/-- The blanks between tokens: white space and the two marks of writing direction. -/
def isSpace (c : Char) : Bool :=
  isBlank c || c = '\u200e' || c = '\u200f'

/-- What is left behind a line's last character, the line break not included. -/
def lineEnd : List Char → List Char
  | [] => []
  | '\n' :: rest => '\n' :: rest
  | '\r' :: '\n' :: rest => '\n' :: rest
  | _ :: rest => lineEnd rest

/-- The text of a line, without its line break. -/
def lineText : List Char → List Char
  | [] => []
  | '\n' :: _ => []
  | '\r' :: '\n' :: _ => []
  | c :: rest => c :: lineText rest

/-- What is left behind a block comment, read from behind its opening mark. Block comments nest,
and `depth` counts those that are open inside the first. -/
def blockEnd (depth : Nat) : List Char → Option (List Char)
  | '/' :: '*' :: rest => blockEnd (depth + 1) rest
  | '*' :: '/' :: rest => if depth = 0 then some rest else blockEnd (depth - 1) rest
  | _ :: rest => blockEnd depth rest
  | [] => none

/-- What is left behind a comment that documents nothing. -/
def plainComment (cs : List Char) : Option (List Char) :=
  if startsWith "//" cs && (!startsWith "///" cs || startsWith "////" cs) &&
      !startsWith "//!" cs then
    some (lineEnd cs)
  else if startsWith "/**/" cs then some (cs.drop 4)
  else if startsWith "/*" cs && (!startsWith "/**" cs || startsWith "/***" cs) &&
      !startsWith "/*!" cs then
    blockEnd 0 (cs.drop 2)
  else none

/-- One step over blanks and plain comments. -/
def spaceStep : List Char → Option (List Char)
  | [] => none
  | c :: rest => if isSpace c then some rest else plainComment (c :: rest)

/-- What is left behind all blanks and plain comments. -/
def skipSpace (cs : List Char) : List Char :=
  match spaceStep cs with
  | none => cs
  | some rest => if rest.length < cs.length then skipSpace rest else cs
termination_by cs.length

/-- A comment that documents what follows it, or with `inner` what encloses it. -/
structure DocComment where
  inner : Bool
  text : List Char
  rest : List Char

/-- The characters of `cs` before `rest`, a text that `cs` ends with. -/
def before (cs rest : List Char) : List Char :=
  cs.take (cs.length - rest.length)

/-- Every carriage return stands before a line feed. -/
def returnsPaired : List Char → Bool
  | [] => true
  | '\r' :: '\n' :: rest => returnsPaired rest
  | '\r' :: _ => false
  | _ :: rest => returnsPaired rest

def docComment (cs : List Char) : Option DocComment :=
  let line (inner : Bool) : DocComment := ⟨inner, lineText (cs.drop 3), lineEnd (cs.drop 3)⟩
  let block (inner : Bool) : Option DocComment :=
    (blockEnd 0 (cs.drop 2)).map fun rest =>
      let text := before (cs.drop 3) rest
      ⟨inner, text.take (text.length - 2), rest⟩
  let found : Option DocComment :=
    if startsWith "//!" cs then some (line true)
    else if startsWith "/*!" cs then block true
    else if startsWith "///" cs then if startsWith "////" cs then none else some (line false)
    else if startsWith "/**" cs && !startsWith "/***" cs then block false
    else none
  found.filter fun comment => returnsPaired comment.text

def wordEnd (cs : List Char) : Option (List Char) :=
  match cs with
  | c :: rest => if isIdentStart c then some (rest.dropWhile isIdentContinue) else none
  | [] => none

/-- Names that may not be written raw. -/
def neverRaw : List String := ["_", "super", "self", "Self", "crate"]

/-- What is left behind a name, raw or not. -/
def nameEnd (cs : List Char) : Option (List Char) :=
  if startsWith "r#" cs then
    (wordEnd (cs.drop 2)).filter fun rest =>
      !neverRaw.contains (String.ofList (before (cs.drop 2) rest))
  else wordEnd cs

/-- The beginnings of quoted texts that look like names. -/
def quoteMarks : List String :=
  ["r\"", "r#\"", "r##", "b\"", "b'", "br\"", "br#", "c\"", "cr\"", "cr#"]

def word (cs : List Char) : Option (List Char) :=
  if quoteMarks.any (startsWith · cs) then none else nameEnd cs

/-- A literal may end in a name that qualifies it. -/
def suffixEnd (cs : List Char) : List Char :=
  (wordEnd cs).getD cs

def quotedEnd (rules : Quoted.Rules) (cs : List Char) : Option (List Char) :=
  (Quoted.read rules .plain cs).map fun (_, rest) => suffixEnd rest

/-- What is left behind a raw text that `marks` number signs close. -/
def rawEnd (allowed : Char → Bool) (marks : Nat) : List Char → Option (List Char)
  | [] => none
  | '"' :: rest =>
    if (rest.take marks) = List.replicate marks '#' then some (suffixEnd (rest.drop marks))
    else rawEnd allowed marks rest
  | '\r' :: '\n' :: rest => rawEnd allowed marks rest
  | '\r' :: _ => none
  | c :: rest => if allowed c then rawEnd allowed marks rest else none

/-- A raw text, read from behind the letters that announce it. -/
def rawQuoted (allowed : Char → Bool) (cs : List Char) : Option (List Char) :=
  let marks := (cs.takeWhile (· = '#')).length
  match cs.drop marks with
  | '"' :: rest => if marks ≤ 255 then rawEnd allowed marks rest else none
  | _ => none

def stringLiteral (cs : List Char) : Option (List Char) :=
  match cs with
  | '"' :: rest => quotedEnd Quoted.ordinary rest
  | 'r' :: rest => rawQuoted (fun _ => true) rest
  | 'b' :: '"' :: rest => quotedEnd Quoted.byteString rest
  | 'b' :: 'r' :: rest => rawQuoted (·.toNat < 0x80) rest
  | 'c' :: '"' :: rest => quotedEnd Quoted.zeroTerminated rest
  | 'c' :: 'r' :: rest => rawQuoted (· ≠ '\x00') rest
  | _ => none

/-- The end of a quoted character: the closing apostrophe and a suffix. -/
def closeCharacter : List Char → Option (List Char)
  | '\'' :: rest => some (suffixEnd rest)
  | _ => none

/-- What is left behind a braced code point, read from behind the letter `u`. -/
def codePointEnd (cs : List Char) : Option (List Char) :=
  match cs with
  | '\x7b' :: rest =>
    let body := rest.takeWhile (· ≠ '\x7d')
    match Quoted.read Quoted.ordinary .brace ('\x7b' :: body ++ ['\x7d', '"']) with
    | some ([_], []) => some (rest.drop (body.length + 1))
    | _ => none
  | _ => none

/-- What is left behind one escape, read from behind the backslash. -/
def characterEscape (highBytes codePoints : Bool) : List Char → Option (List Char)
  | 'x' :: high :: low :: rest =>
    (Quoted.hexValue? high).bind fun h =>
      (Quoted.hexValue? low).bind fun _ => if highBytes || h < 8 then some rest else none
  | 'u' :: rest => if codePoints then codePointEnd rest else none
  | c :: rest => (Quoted.simpleEscape? Quoted.ordinary c).map fun _ => rest
  | [] => none

def characterLiteral (cs : List Char) : Option (List Char) :=
  match cs with
  | '\'' :: '\\' :: rest => (characterEscape false true rest).bind closeCharacter
  | '\'' :: _ :: rest => closeCharacter rest
  | 'b' :: '\'' :: '\\' :: rest => (characterEscape true false rest).bind closeCharacter
  | 'b' :: '\'' :: c :: rest => if c.toNat < 0x80 then closeCharacter rest else none
  | _ => none

/-- A number may end in a name that qualifies it; no other word may follow at once. -/
def numberEnd (cs : List Char) : Option (List Char) :=
  match cs with
  | c :: _ =>
    if isIdentStart c then wordEnd cs
    else if isIdentContinue c then none
    else some cs
  | [] => some []

/-- The digits of a whole number in a base below seventeen. -/
def digits (base : Nat) (empty : Bool) : List Char → Option (List Char)
  | [] => if empty then none else some []
  | c :: rest =>
    if c.isDigit then if c.toNat - '0'.toNat < base then digits base false rest else none
    else if c = '_' then if empty && base = 10 then none else digits base empty rest
    else match Quoted.hexValue? c with
      | some n =>
        if n < base then digits base false rest else if empty then none else some (c :: rest)
      | none => if empty then none else some (c :: rest)

def integer (cs : List Char) : Option (List Char) :=
  let behind :=
    if startsWith "0x" cs then digits 16 true (cs.drop 2)
    else if startsWith "0o" cs then digits 8 true (cs.drop 2)
    else if startsWith "0b" cs then digits 2 true (cs.drop 2)
    else digits 10 true cs
  behind.bind numberEnd

/-- The part of a fractional number before its exponent, with whether it has a point. -/
def mantissa (point : Bool) : List Char → Option (Bool × List Char)
  | [] => some (point, [])
  | '.' :: rest =>
    if point then some (point, '.' :: rest)
    else match rest with
      | c :: _ => if c = '.' || isIdentStart c then none else mantissa true rest
      | [] => some (true, [])
  | c :: rest =>
    if c.isDigit || c = '_' then mantissa point rest else some (point, c :: rest)

/-- What is left behind an exponent, read from behind its letter. A second sign spoils it. -/
def exponent (sign value : Bool) : List Char → Option (List Char)
  | [] => if value then some [] else none
  | c :: rest =>
    if (c = '+' || c = '-') && !value then if sign then none else exponent true value rest
    else if c.isDigit then exponent sign true rest
    else if c = '_' then exponent sign value rest
    else if value then some (c :: rest) else none

def fractional (cs : List Char) : Option (List Char) :=
  match cs with
  | c :: _ =>
    if c.isDigit then
      (mantissa false cs).bind fun (point, rest) =>
        let plain := if point then some rest else none
        let behind := match rest with
          | e :: after =>
            if e = 'e' || e = 'E' then (exponent false false after).orElse fun _ => plain else plain
          | [] => plain
        behind.bind numberEnd
    else none
  | [] => none

def literal (cs : List Char) : Option (List Char) :=
  (stringLiteral cs) <|> (characterLiteral cs) <|> (fractional cs) <|> (integer cs)

def isPunct (c : Char) : Bool :=
  "~!@#$%^&*-=+|;:,<.>/?'".toList.contains c

/-- The punctuation character ahead, unless a comment begins there. -/
def punctChar (cs : List Char) : Option (Char × List Char) :=
  if startsWith "//" cs || startsWith "/*" cs then none
  else match cs with
    | c :: rest => if isPunct c then some (c, rest) else none
    | [] => none

/-- The apostrophe of a lifetime stands before a name, which no other apostrophe may follow. -/
def apostropheAllowed (cs : List Char) : Bool :=
  match nameEnd cs with
  | some ('\'' :: _) => false
  | some ('#' :: _) => startsWith "r#" cs
  | some _ => true
  | none => false

end MarkerIndex.Scan
