import MarkerIndex.Json.Value
/-!
Reading JSON texts. Blanks may stand between any two parts. Every step of the reader takes at least
one character, so the length of the text bounds its depth.
-/

namespace MarkerIndex.Json

def isBlank (c : Char) : Bool :=
  c = ' ' || c = '\t' || c = '\n' || c = '\r'

def skipBlanks (cs : List Char) : List Char :=
  cs.dropWhile isBlank

def hexValue? (c : Char) : Option Nat :=
  if '0' ≤ c ∧ c ≤ '9' then some (c.toNat - '0'.toNat)
  else if 'a' ≤ c ∧ c ≤ 'f' then some (c.toNat - 'a'.toNat + 10)
  else if 'A' ≤ c ∧ c ≤ 'F' then some (c.toNat - 'A'.toNat + 10)
  else none

/-- The number that four digits in base sixteen spell. -/
def unit? (a b c d : Char) : Option Nat := do
  return (((← hexValue? a) * 16 + (← hexValue? b)) * 16 + (← hexValue? c)) * 16 + (← hexValue? d)

/-- The escapes of one letter. -/
def simpleEscape? (c : Char) : Option Char :=
  if c = '"' then some '"'
  else if c = '\\' then some '\\'
  else if c = '/' then some '/'
  else if c = 'b' then some '\x08'
  else if c = 'f' then some '\x0c'
  else if c = 'n' then some '\n'
  else if c = 'r' then some '\r'
  else if c = 't' then some '\t'
  else none

/-- The character that two units of a pair stand for. -/
def pairChar? (high low : Nat) : Option Char :=
  if 0xd800 ≤ high && high ≤ 0xdbff && 0xdc00 ≤ low && low ≤ 0xdfff then
    some (Char.ofNat (0x10000 + (high - 0xd800) * 0x400 + (low - 0xdc00)))
  else none

/-- Reads a text from behind its opening quote. -/
def readText : List Char → Option (List Char × List Char)
  | [] => none
  | '"' :: rest => some ([], rest)
  | '\\' :: 'u' :: a :: b :: c :: d :: rest =>
    (unit? a b c d).bind fun n =>
      if n.isValidChar then (readText rest).map fun (tail, after) => (Char.ofNat n :: tail, after)
      else match rest with
        | '\\' :: 'u' :: a :: b :: c :: d :: rest =>
          (unit? a b c d).bind fun low => (pairChar? n low).bind fun char =>
            (readText rest).map fun (tail, after) => (char :: tail, after)
        | _ => none
  | '\\' :: c :: rest =>
    (simpleEscape? c).bind fun char =>
      (readText rest).map fun (tail, after) => (char :: tail, after)
  | c :: rest =>
    if c = '\\' || c.toNat < 0x20 then none
    else (readText rest).map fun (tail, after) => (c :: tail, after)

def digitsValue (digits : List Char) : Nat :=
  digits.foldl (fun n c => 10 * n + (c.toNat - '0'.toNat)) 0

/-- Reads an integer. A zero in front of other digits is refused. -/
def readInteger (cs : List Char) : Option (Int × List Char) :=
  let (negative, cs) := match cs with
    | '-' :: rest => (true, rest)
    | _ => (false, cs)
  let digits := cs.takeWhile Char.isDigit
  match digits with
  | [] => none
  | '0' :: _ :: _ => none
  | _ =>
    let value : Int := digitsValue digits
    some (if negative then -value else value, cs.dropWhile Char.isDigit)

mutual

/-- Reads one value. -/
def read : Nat → List Char → Option (Json × List Char)
  | 0, _ => none
  | fuel + 1, cs =>
    match skipBlanks cs with
    | 'n' :: 'u' :: 'l' :: 'l' :: rest => some (.null, rest)
    | 't' :: 'r' :: 'u' :: 'e' :: rest => some (.bool true, rest)
    | 'f' :: 'a' :: 'l' :: 's' :: 'e' :: rest => some (.bool false, rest)
    | '"' :: rest => (readText rest).map fun (text, rest) => (.string (String.ofList text), rest)
    | '[' :: rest =>
      match skipBlanks rest with
      | ']' :: rest => some (.array [], rest)
      | rest =>
        (read fuel rest).bind fun (item, rest) =>
          (readItems fuel rest).map fun (items, rest) => (.array (item :: items), rest)
    | '\x7b' :: rest =>
      match skipBlanks rest with
      | '\x7d' :: rest => some (.object [], rest)
      | rest =>
        (readField fuel rest).bind fun (field, rest) =>
          (readFields fuel rest).map fun (fields, rest) => (.object (field :: fields), rest)
    | rest => (readInteger rest).map fun (value, rest) => (.integer value, rest)

/-- Reads the later items of an array, to its closing bracket. -/
def readItems : Nat → List Char → Option (List Json × List Char)
  | 0, _ => none
  | fuel + 1, cs =>
    match skipBlanks cs with
    | ']' :: rest => some ([], rest)
    | ',' :: rest =>
      (read fuel rest).bind fun (item, rest) =>
        (readItems fuel rest).map fun (items, rest) => (item :: items, rest)
    | _ => none

def readField : Nat → List Char → Option ((String × Json) × List Char)
  | 0, _ => none
  | fuel + 1, cs =>
    match skipBlanks cs with
    | '"' :: rest =>
      (readText rest).bind fun (name, rest) =>
        match skipBlanks rest with
        | ':' :: rest =>
          (read fuel rest).map fun (value, rest) => ((String.ofList name, value), rest)
        | _ => none
    | _ => none

def readFields : Nat → List Char → Option (List (String × Json) × List Char)
  | 0, _ => none
  | fuel + 1, cs =>
    match skipBlanks cs with
    | '\x7d' :: rest => some ([], rest)
    | ',' :: rest =>
      (readField fuel rest).bind fun (field, rest) =>
        (readFields fuel rest).map fun (fields, rest) => (field :: fields, rest)
    | _ => none

end

/-- Reads a text that is one value and nothing else. -/
def ofText? (s : String) : Option Json :=
  match read (s.length + 1) s.toList with
  | some (value, rest) => if skipBlanks rest = [] then some value else none
  | none => none

end MarkerIndex.Json
