import MarkerIndex.Toml.Scalar
/-!
The table that a TOML text describes. Statements are taken in order, and each adds to the table; a
name may be given only once. Which tables may still be added to depends on how they came about.
-/

namespace MarkerIndex.Toml

/-- How a table came about. -/
inductive Origin
  /-- By a header of its own, or as the whole text. -/
  | header
  /-- As part of the header of another table. -/
  | implied
  /-- As part of a dotted key. -/
  | dotted
  /-- Written in braces. -/
  | inline
  deriving DecidableEq

inductive Value
  | scalar (span : Span) (value : Scalar)
  /-- An array, with whether it was made by headers of its tables. -/
  | array (span : Span) (ofTables : Bool) (items : List Value)
  | table (span : Span) (origin : Origin) (entries : List (String × Value))

namespace Value

def span : Value → Span
  | scalar span _ => span
  | array span _ _ => span
  | table span _ _ => span

def kind : Value → String
  | scalar _ (.text _) => "string"
  | scalar _ (.number (.decimal ..)) => "float"
  | scalar _ (.number _) => "integer"
  | scalar _ (.special _) => "float"
  | scalar _ (.boolean _) => "boolean"
  | scalar _ .date => "datetime"
  | array _ _ _ => "array"
  | table _ .inline _ => "inline table"
  | table _ _ _ => "table"

end Value

/-- A decoded name with its place. -/
structure Name where
  text : String
  span : Span

abbrev Entries := List (String × Value)

namespace Entries

/-- Puts a value under a name, in place of one that is there. -/
def put (es : Entries) (name : String) (value : Value) : Entries :=
  if es.any (·.1 = name) then es.map fun e => if e.1 = name then (name, value) else e
  else es ++ [(name, value)]

def duplicate (name : Name) : Failure := ⟨name.span, "duplicate key"⟩

def notExtensible (name : Name) (value : Value) : Failure :=
  ⟨name.span, "cannot extend value of type " ++ value.kind ++ " with a dotted key"⟩

/-- Goes down a path of names and applies `f` to the table there, which it is told the origin of.
Tables that are missing are made on the way. -/
def descend (dotted : Bool) (f : Origin → Entries → Except Failure Entries) :
    List Name → Origin → Entries → Except Failure Entries
  | [], origin, es => f origin es
  | name :: path, _, es =>
    let made : Origin := if dotted then .dotted else .implied
    match es.lookup name.text with
    | none =>
      (descend dotted f path made []).map fun inner =>
        es.put name.text (.table name.span made inner)
    | some (.table span origin inner) =>
      if origin = .inline then .error (notExtensible name (.table span origin inner))
      else if dotted && origin = .header then .error (duplicate name)
      else (descend dotted f path origin inner).map fun inner =>
        es.put name.text (.table span origin inner)
    | some (.array span true items) =>
      match items.getLast? with
      | some (.table last origin inner) =>
        (descend dotted f path origin inner).map fun inner =>
          es.put name.text (.array span true (items.dropLast ++ [.table last origin inner]))
      | _ => .error (notExtensible name (.array span true items))
    | some value => .error (notExtensible name value)

/-- Gives a new name a value. Behind a dotted key only tables made by such keys can be added to. -/
def assign (path : List Name) (name : Name) (value : Value) (es : Entries) :
    Except Failure Entries :=
  descend true
    (fun origin es =>
      if path.isEmpty = (origin = .dotted) then .error (duplicate name)
      else if (es.lookup name.text).isSome then .error (duplicate name)
      else .ok (es.put name.text value))
    path .header es

/-- Opens a table by its header. A table may be opened that so far was only implied. -/
def openTable (span : Span) (path : List Name) (name : Name) (es : Entries) :
    Except Failure Entries :=
  descend false
    (fun _ es =>
      match es.lookup name.text with
      | none => .ok (es.put name.text (.table span .header []))
      | some (.table _ .implied inner) => .ok (es.put name.text (.table span .header inner))
      | some _ => .error (duplicate name))
    path .header es

/-- Opens one more table of an array of tables. -/
def openItem (span : Span) (path : List Name) (name : Name) (es : Entries) :
    Except Failure Entries :=
  let item : Value := .table span .header []
  descend false
    (fun _ es =>
      match es.lookup name.text with
      | none => .ok (es.put name.text (.array span true [item]))
      | some (.array first true items) =>
        .ok (es.put name.text (.array first true (items ++ [item])))
      | some _ => .error (duplicate name))
    path .header es

end Entries

namespace Document

def names (parts : List KeyPart) : Except Failure (List Name) :=
  parts.mapM fun part => part.decode.map fun text => ⟨text, part.span⟩

/-- Splits the last name off a key. -/
def split (names : List Name) : List Name × Name :=
  (names.dropLast, names.getLast?.getD ⟨"", ⟨0, 0⟩⟩)

mutual

def decode : RawValue → Except Failure Value
  | .scalar quote span text => (Scalar.decode quote span text).map (.scalar span)
  | .array span items => (decodeItems items).map (.array span false)
  | .inlineTable span entries => (decodeEntries [] entries).map (.table span .inline)

def decodeItems : List RawValue → Except Failure (List Value)
  | [] => .ok []
  | item :: items =>
    match decode item with
    | .error failure => .error failure
    | .ok value => (decodeItems items).map (value :: ·)

def decodeEntries (done : Entries) : List (List KeyPart × RawValue) → Except Failure Entries
  | [] => .ok done
  | (parts, raw) :: entries =>
    match names parts, decode raw with
    | .error failure, _ => .error failure
    | .ok _, .error failure => .error failure
    | .ok key, .ok value =>
      let (path, name) := split key
      match Entries.assign path name value done with
      | .error failure => .error failure
      | .ok done => decodeEntries done entries

end

/-- Takes the statements into a table. `current` is the key of the last header. -/
def build (es : Entries) (current : List Name) : List Statement → Except Failure Entries
  | [] => .ok es
  | .header many span parts :: statements =>
    match names parts with
    | .error failure => .error failure
    | .ok key =>
      let (path, name) := split key
      match (if many then es.openItem span path name else es.openTable span path name) with
      | .error failure => .error failure
      | .ok es => build es key statements
  | .assignment parts raw :: statements =>
    match names parts, decode raw with
    | .error failure, _ => .error failure
    | .ok _, .error failure => .error failure
    | .ok key, .ok value =>
      let (path, name) := split key
      match Entries.descend false (fun _ es => es.assign path name value) current .header es with
      | .error failure => .error failure
      | .ok es => build es current statements

/-- The table that a text describes. -/
def ofText (s : String) : Except Failure Entries :=
  match Syntax.ofText s with
  | .error failure => .error failure
  | .ok statements => build [] [] statements

end Document

end MarkerIndex.Toml
