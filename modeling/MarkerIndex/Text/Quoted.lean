import MarkerIndex.Text.Visible
/-!
Quoted texts. `encode` writes a text between double quotes so that it stays on one line, and `read`
takes a quoted text apart again, from behind the opening quote. The reader accepts more spellings
than the writer uses: two-digit byte escapes and a backslash at the end of a line. Its `Rules` tell
apart the three kinds of quoted text that a source file may hold.
-/

namespace MarkerIndex.Text.Quoted

def hexDigit (n : Nat) : Char :=
  if n < 10 then Char.ofNat ('0'.toNat + n) else Char.ofNat ('a'.toNat + (n - 10))

/-- A number in base sixteen, most significant digit first. -/
def hex (n : Nat) : List Char :=
  if n < 16 then [hexDigit n] else hex (n / 16) ++ [hexDigit (n % 16)]

def hexValue? (c : Char) : Option Nat :=
  if '0' ≤ c ∧ c ≤ '9' then some (c.toNat - '0'.toNat)
  else if 'a' ≤ c ∧ c ≤ 'f' then some (c.toNat - 'a'.toNat + 10)
  else if 'A' ≤ c ∧ c ≤ 'F' then some (c.toNat - 'A'.toNat + 10)
  else none

/-- How one character is written between quotes: as itself where it is visible. -/
def escape (c : Char) : List Char :=
  if c = '\x00' then ['\\', '0']
  else if c = '\t' then ['\\', 't']
  else if c = '\r' then ['\\', 'r']
  else if c = '\n' then ['\\', 'n']
  else if c = '\\' then ['\\', '\\']
  else if c = '"' then ['\\', '"']
  else if isVisible c then [c]
  else ['\\', 'u', '\x7b'] ++ hex c.toNat ++ ['\x7d']

def encodeChars (cs : List Char) : List Char :=
  '"' :: (cs.flatMap escape ++ ['"'])

/-- A text as a quoted literal on one line. -/
def encode (s : String) : String :=
  String.ofList (encodeChars s.toList)

/-- What may stand in a quoted text. -/
structure Rules where
  /-- Two-digit escapes above `\x7f`. -/
  highBytes : Bool
  /-- Braced escapes of any code point. -/
  codePoints : Bool
  /-- Characters above ASCII as themselves. -/
  nonAscii : Bool
  /-- The code point zero, in any spelling. -/
  zero : Bool

def ordinary : Rules := ⟨false, true, true, true⟩

def byteString : Rules := ⟨true, false, false, true⟩

def zeroTerminated : Rules := ⟨true, true, true, false⟩

/-- Where a reader stands inside a quoted text. -/
inductive Mode
  | plain
  /-- Behind a carriage return, which only a line feed may follow. -/
  | returned
  /-- Behind a backslash. -/
  | escaped
  /-- Behind a backslash at a line's end, where blanks are passed over. -/
  | skipping
  | skippingReturn
  | firstHex
  | secondHex (high : Nat)
  /-- Before the opening brace of a code point. -/
  | brace
  | digits (count value : Nat)

/-- The escapes of one letter. -/
def simpleEscape? (rules : Rules) (c : Char) : Option Char :=
  if c = 'n' then some '\n'
  else if c = 'r' then some '\r'
  else if c = 't' then some '\t'
  else if c = '\\' then some '\\'
  else if c = '\'' then some '\''
  else if c = '"' then some '"'
  else if c = '0' && rules.zero then some '\x00'
  else none

/-- A code point by its number, where there is such a character and the rules allow it. -/
def charOf? (rules : Rules) (n : Nat) : Option Char :=
  if n.isValidChar && (rules.zero || n ≠ 0) then some (Char.ofNat n) else none

/-- The value of a quoted text and what follows the closing quote. -/
def read (rules : Rules) (mode : Mode) : List Char → Option (List Char × List Char)
  | [] => none
  | c :: rest =>
    let put (value : Char) : Option (List Char × List Char) :=
      (read rules .plain rest).map fun (tail, after) => (value :: tail, after)
    let plain : Option (List Char × List Char) :=
      if c = '"' then some ([], rest)
      else if c = '\\' then read rules .escaped rest
      else if c = '\r' then read rules .returned rest
      else if !rules.nonAscii && 0x80 ≤ c.toNat then none
      else if !rules.zero && c = '\x00' then none
      else put c
    match mode with
    | .plain => plain
    | .returned => if c = '\n' then put c else none
    | .escaped =>
      if c = 'x' then read rules .firstHex rest
      else if c = 'u' && rules.codePoints then read rules .brace rest
      else if c = '\n' then read rules .skipping rest
      else if c = '\r' then read rules .skippingReturn rest
      else (simpleEscape? rules c).bind put
    | .skipping =>
      if c = ' ' || c = '\t' || c = '\n' then read rules .skipping rest
      else if c = '\r' then read rules .skippingReturn rest
      else plain
    | .skippingReturn => if c = '\n' then read rules .skipping rest else none
    | .firstHex =>
      (hexValue? c).bind fun high =>
        if rules.highBytes || high < 8 then read rules (.secondHex high) rest else none
    | .secondHex high =>
      (hexValue? c).bind fun low => (charOf? rules (high * 16 + low)).bind put
    | .brace => if c = '\x7b' then read rules (.digits 0 0) rest else none
    | .digits count value =>
      if 0 < count && c = '_' then read rules (.digits count value) rest
      else if 0 < count && c = '\x7d' then (charOf? rules value).bind put
      else (hexValue? c).bind fun digit =>
        if count = 6 then none else read rules (.digits (count + 1) (value * 16 + digit)) rest

/-- The value of a text that is one ordinary quoted literal and nothing else. -/
def decodeChars : List Char → Option (List Char)
  | '"' :: rest =>
    match read ordinary .plain rest with
    | some (value, []) => some value
    | _ => none
  | _ => none

/-- Undoes `encode`. -/
def decode (s : String) : Option String :=
  (decodeChars s.toList).map String.ofList

end MarkerIndex.Text.Quoted
