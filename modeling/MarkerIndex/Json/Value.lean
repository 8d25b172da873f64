/-!
JSON values and their two written forms, on one line and indented. An object keeps its fields in the
order in which they were put. Numbers are integers; nothing here is measured.
-/

namespace MarkerIndex

inductive Json
  | null
  | bool (value : Bool)
  | integer (value : Int)
  | string (text : String)
  | array (items : List Json)
  | object (fields : List (String × Json))
  deriving Inhabited

namespace Json

def hexDigit (n : Nat) : Char :=
  if n < 10 then Char.ofNat ('0'.toNat + n) else Char.ofNat ('a'.toNat + (n - 10))

/-- How a character is written between quotes. Only quotes, backslashes and control characters are
not written as themselves. -/
def escape (c : Char) : List Char :=
  if c = '"' then ['\\', '"']
  else if c = '\\' then ['\\', '\\']
  else if c = '\x08' then ['\\', 'b']
  else if c = '\t' then ['\\', 't']
  else if c = '\n' then ['\\', 'n']
  else if c = '\x0c' then ['\\', 'f']
  else if c = '\r' then ['\\', 'r']
  else if c.toNat < 0x20 then
    ['\\', 'u', '0', '0', hexDigit (c.toNat / 16), hexDigit (c.toNat % 16)]
  else [c]

def quote (s : String) : List Char :=
  '"' :: (s.toList.flatMap escape ++ ['"'])

/-- A value that holds no others. -/
def leaf : Json → List Char
  | null => "null".toList
  | bool true => "true".toList
  | bool false => "false".toList
  | integer value => (toString value).toList
  | string text => quote text
  | array _ => ['[', ']']
  | object _ => ['\x7b', '\x7d']

mutual

/-- A value on one line, without blanks. -/
def compact : Json → List Char
  | array (item :: items) => '[' :: (compact item ++ compactItems items)
  | object ((name, value) :: fields) =>
    '\x7b' :: (quote name ++ ':' :: (compact value ++ compactFields fields))
  | value => leaf value

/-- The later items of an array, to its closing bracket. -/
def compactItems : List Json → List Char
  | [] => [']']
  | item :: items => ',' :: (compact item ++ compactItems items)

def compactFields : List (String × Json) → List Char
  | [] => ['\x7d']
  | (name, value) :: fields =>
    ',' :: (quote name ++ ':' :: (compact value ++ compactFields fields))

end

/-- A line break, and the blanks in front of the next line. -/
def newline (depth : Nat) : List Char :=
  '\n' :: List.replicate (2 * depth) ' '

mutual

/-- A value with each item and field on a line of its own. -/
def indented (depth : Nat) : Json → List Char
  | array (item :: items) =>
    '[' :: (newline (depth + 1) ++ indented (depth + 1) item ++ indentedItems depth items)
  | object ((name, value) :: fields) =>
    '\x7b' :: (newline (depth + 1) ++ quote name ++ [':', ' '] ++ indented (depth + 1) value ++
      indentedFields depth fields)
  | value => leaf value

def indentedItems (depth : Nat) : List Json → List Char
  | [] => newline depth ++ [']']
  | item :: items =>
    ',' :: (newline (depth + 1) ++ indented (depth + 1) item ++ indentedItems depth items)

def indentedFields (depth : Nat) : List (String × Json) → List Char
  | [] => newline depth ++ ['\x7d']
  | (name, value) :: fields =>
    ',' :: (newline (depth + 1) ++ quote name ++ [':', ' '] ++ indented (depth + 1) value ++
      indentedFields depth fields)

end

/-- The text of a value on one line. -/
def text (j : Json) : String :=
  String.ofList j.compact

/-- The text of a value on several lines. -/
def pretty (j : Json) : String :=
  String.ofList (j.indented 0)

def ofOption {α : Type} (encode : α → Json) : Option α → Json
  | none => null
  | some value => encode value

end Json

end MarkerIndex
