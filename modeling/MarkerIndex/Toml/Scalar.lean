import MarkerIndex.Toml.Date
import MarkerIndex.Toml.Number
import MarkerIndex.Toml.Quoted
/-!
Decoding the values of a TOML text. What is not quoted must be a number, a truth value or a date;
its first character tells which it is meant to be.
-/

namespace MarkerIndex.Toml

/-- A value that holds no others. -/
inductive Scalar
  | text (value : String)
  | number (value : Number)
  /-- A number that is not finite, as it is written. -/
  | special (written : String)
  | boolean (value : Bool)
  | date

namespace Scalar

/-- A value that is nothing known. It is taken for a text that lacks its quotes. -/
def notQuoted {α : Type} (s : Stretch) : Except Failure α :=
  let ends (mark : String) : Bool :=
    mark.length ≤ s.text.length && s.text.drop (s.text.length - mark.length) = mark.toList
  match ["'''", "\"\"\"", "'", "\""].find? ends with
  | some mark => s.refuse 0 0 "missing opening quote" [Syntax.quoted mark]
  | none => s.refuse 0 s.text.length "string values must be quoted" ["literal string"]

/-- Reads a date, a number with a point or an exponent, or a decimal integer. -/
def dateOrNumber (s : Stretch) (cs : List Char) : Except Failure Scalar :=
  let rest := cs.dropWhile Char.isDigit
  let begins (c : Char) : Bool := rest.head? = some c
  if rest.isEmpty then (Number.integerOf s cs).map .number
  else if begins '-' || begins ':' then
    match Date.check s.text with
    | .ok () => .ok .date
    | .error problem => .error ⟨s.span, problem.message⟩
  else if rest.contains ' ' then notQuoted s
  else if rest.any fun c => c = '.' || c = 'e' || c = 'E' then
    (Number.decimalOf s cs).map .number
  else if begins '_' then (Number.integerOf s cs).map .number
  else notQuoted s

/-- Reads what begins with a zero. -/
def fromZero (s : Stretch) (signed : Bool) (cs : List Char) : Except Failure Scalar :=
  match cs with
  | [_] => .ok (.number (.integer 0))
  | _ :: letter :: digits =>
    match Number.basedOf? s signed letter digits with
    | some found => found.map .number
    | none => dateOrNumber s cs
  | [] => notQuoted s

/-- Reads a value that can only be one word. -/
def word (s : Stretch) (expected kind : String) (value : Scalar) : Except Failure Scalar :=
  if s.text = expected.toList then .ok value
  else if s.text.contains ' ' then notQuoted s
  else s.refuse 0 s.text.length ("invalid " ++ kind) [Syntax.quoted expected]

/-- Reads a word behind a sign. -/
def signedWord (s : Stretch) (cs : List Char) (expected : String) (value : Scalar) :
    Except Failure Scalar :=
  if cs = expected.toList then .ok value
  else s.refuse (s.offset cs) s.text.length "invalid float" [Syntax.quoted expected]

/-- Reads what follows a sign. -/
def fromSign (s : Stretch) (negative : Bool) : List Char → Except Failure Scalar
  | [] => notQuoted s
  | c :: rest =>
    let cs := c :: rest
    if c = '+' || c = '-' then s.refuse 1 2 "redundant numeric sign" []
    else if c = '0' then fromZero s true cs
    else if c = '_' || c.isDigit then dateOrNumber s cs
    else if c = '.' then (Number.decimalOf s cs).map .number
    else if c = 'i' || c = 'I' then
      signedWord s cs "inf" (.special (if negative then "-inf" else "inf"))
    else if c = 'n' || c = 'N' then signedWord s cs "nan" (.special "NaN")
    else notQuoted s

/-- The value of an unquoted stretch. -/
def bare (s : Stretch) : Except Failure Scalar :=
  match s.text with
  | [] => notQuoted s
  | c :: rest =>
    let cs := c :: rest
    if c = '+' || c = '-' then fromSign s (c = '-') rest
    else if c = '0' then fromZero s false cs
    else if c = '_' || c.isDigit then dateOrNumber s cs
    else if c = '.' then (Number.decimalOf s cs).map .number
    else if c = 't' || c = 'T' then word s "true" "boolean" (.boolean true)
    else if c = 'f' || c = 'F' then word s "false" "boolean" (.boolean false)
    else if c = 'i' || c = 'I' then word s "inf" "float" (.special "inf")
    else if c = 'n' || c = 'N' then word s "nan" "float" (.special "NaN")
    else notQuoted s

/-- The value of a quoted or unquoted stretch. -/
def decode (quote : Option Quote) (span : Span) (text : List Char) : Except Failure Scalar :=
  match quote with
  | some quote => (Quoted.decode quote span text).map .text
  | none => bare ⟨span, text⟩

end Scalar

end MarkerIndex.Toml
