import MarkerIndex.Toml.Double
import MarkerIndex.Toml.Syntax
/-!
Numbers. Digits may be parted by single underscores. A number with a point or an exponent has double
precision.
-/

namespace MarkerIndex.Toml

/-- An unquoted stretch of the text. Its places are counted from its beginning. -/
structure Stretch where
  span : Span
  text : List Char

namespace Stretch

/-- A part of a stretch. -/
def part (s : Stretch) (start stop : Nat) : Span :=
  ⟨s.span.start + start, s.span.start + stop⟩

/-- Where the last characters of a stretch begin. -/
def offset (s : Stretch) (rest : List Char) : Nat :=
  s.text.length - rest.length

/-- A failure at a part of a stretch. -/
def refuse {α : Type} (s : Stretch) (start stop : Nat) (what : String) (choices : List String) :
    Except Failure α :=
  .error (.expecting (s.part start stop) what choices)

end Stretch

/-- What is read from a stretch that looks like a number. -/
inductive Number
  | integer (value : Int)
  /-- An integer without digits. -/
  | noDigits
  /-- A number with a point or an exponent, by its absolute value, unless that is too great. -/
  | decimal (negative : Bool) (value : Option Double)

namespace Number

def ungroup (cs : List Char) : List Char := cs.filter (· ≠ '_')

def misplaced {α : Type} (s : Stretch) (start : Nat) : Except Failure α :=
  s.refuse start (start + 1) (Syntax.quoted "_" ++ " may only go between digits") []

/-- Checks the parts between underscores, the first of which begins at `start`. -/
def checkParts (s : Stretch) (isDigit : Char → Bool) : Nat → List (List Char) →
    Except Failure Unit
  | _, [] => .ok ()
  | start, part :: parts =>
    let stop := start + part.length
    if 0 < start && !isDigit (part.head?.getD '0') then misplaced s (start - 1)
    else if 1 < part.length && stop < s.text.length && !isDigit (part.getLast?.getD '0') then
      misplaced s stop
    else if part.isEmpty && start ≠ 0 && stop ≠ s.text.length then misplaced s start
    else checkParts s isDigit (stop + 1) parts

/-- Refuses underscores that do not stand between digits, in the last characters of a stretch. -/
def checkUnderscores (s : Stretch) (isDigit : Char → Bool) (cs : List Char) :
    Except Failure Unit :=
  let start := s.offset cs
  if !cs.contains '_' then .ok ()
  else if cs.head? = some '_' then misplaced s start
  else if cs.getLast? = some '_' then misplaced s (start + cs.length - 1)
  else checkParts s isDigit start (((String.ofList cs).splitOn "_").map String.toList)

/-- Refuses a leading zero. -/
def checkLead (s : Stretch) (cs : List Char) : Except Failure Unit :=
  if cs.head? = some '0' then
    s.refuse (s.offset cs) (s.offset cs + 1) "unexpected leading zero" []
  else .ok ()

/-- Reads a run of digits and underscores, and gives what follows it. -/
def run (s : Stretch) (what : String) (zeros : Bool) (cs : List Char) :
    Except Failure (List Char) := do
  let found := cs.takeWhile fun c => c.isDigit || c = '_'
  let count := found.countP Char.isDigit
  if count = 0 then s.refuse (s.offset cs) (s.offset cs) what ["digits"]
  if 1 < count && !zeros then checkLead s cs
  return cs.drop found.length

/-- Checks the spelling of a number with a point or an exponent. -/
def checkDecimal (s : Stretch) (cs : List Char) : Except Failure Unit := do
  let rest ← run s "invalid mantissa" false cs
  let rest ← match rest with
    | '.' :: rest => run s "invalid fraction" true rest
    | rest => .ok rest
  let exponent (rest : List Char) := run s "invalid exponent" true rest
  let rest ← match rest with
    | e :: sign :: rest =>
      if e = 'e' || e = 'E' then
        exponent (if sign = '+' || sign = '-' then rest else sign :: rest)
      else .ok (e :: sign :: rest)
    | [e] => if e = 'e' || e = 'E' then exponent [] else .ok [e]
    | [] => .ok []
  if rest.isEmpty then return
  else s.refuse (s.offset rest) s.text.length "invalid float" []

/-- The number of a whole stretch that has a point or an exponent. -/
def decimalOf (s : Stretch) (cs : List Char) : Except Failure Number := do
  checkDecimal s cs
  checkUnderscores s Char.isDigit s.text
  return .decimal (s.text.head? = some '-') (Double.ofDecimal? (.ofChars (ungroup cs)))

/-- The number of a whole stretch that is an integer. -/
def integerOf (s : Stretch) (cs : List Char) : Except Failure Number := do
  checkLead s cs
  checkUnderscores s isHex s.text
  let n : Int := digitsValue 10 (ungroup cs)
  return .integer (if s.text.head? = some '-' then -n else n)

/-- How digits are called in some base. -/
structure Base where
  radix : Nat
  name : String
  mark : String

def base? (letter : Char) : Option Base :=
  if letter = 'x' || letter = 'X' then some ⟨16, "hexadecimal", "0x"⟩
  else if letter = 'o' || letter = 'O' then some ⟨8, "octal", "0o"⟩
  else if letter = 'b' || letter = 'B' then some ⟨2, "binary", "0b"⟩
  else none

/-- Refuses a sign in front of a number with a base. -/
def checkUnsigned (s : Stretch) (signed : Bool) : Except Failure Unit :=
  if signed then s.refuse 0 1 "integers with a radix cannot be signed" [] else .ok ()

/-- The integer with the given digits in some base. -/
def based (s : Stretch) (base : Base) (digits : List Char) : Except Failure Number := do
  let isDigit (c : Char) : Bool := (hexValue? c).any (· < base.radix)
  let start := s.offset digits
  let unsigned ← match digits with
    | c :: rest =>
      if c = '+' || c = '-' then s.refuse start (start + 1) "unexpected sign" []
      else .ok (c :: rest)
    | [] => .ok []
  match unsigned.findIdx? fun c => !isDigit c && c ≠ '_' with
  | some i =>
    let place := s.part (start + i) (start + i)
    .error ⟨place, "invalid " ++ base.name ++ " number"⟩
  | none =>
    checkUnderscores s isHex digits
    return if unsigned.isEmpty then .noDigits
      else .integer (digitsValue base.radix (ungroup unsigned))

/-- Reads a number whose zero is followed by a letter, if the letter names a base. -/
def basedOf? (s : Stretch) (signed : Bool) (letter : Char) (digits : List Char) :
    Option (Except Failure Number) :=
  let start := s.text.length - digits.length - 2
  match base? letter with
  | some base => some do
    checkUnsigned s signed
    if letter.isUpper then
      s.refuse start (start + 2) "radix must be lowercase" [Syntax.quoted base.mark]
    based s base digits
  | none =>
    if letter = 'd' || letter = 'D' then some do
      checkUnsigned s signed
      s.refuse 0 2 "redundant integer number prefix" []
    else none

end Number

end MarkerIndex.Toml
