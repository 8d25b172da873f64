import MarkerIndex.Json.Value
/-!
Taking values out of JSON. A decoder either gives a value or says what was wrong and where, as the
steps that lead down to the place. `endOf` finds the end of that place in the written form.
-/

namespace MarkerIndex.Json

/-- A step from a value down to one that it holds. -/
inductive Step
  | item (index : Nat)
  | field (name : String)
  deriving DecidableEq

inductive DecodeProblem
  | wrongKind (found expected : String)
  | wrongValue (found expected : String)
  | wrongLength (length : Nat) (expected : String)
  | missingField (name : String)
  /-- The words of whoever was to take the value. -/
  | refused (reason : String)
  deriving DecidableEq

def DecodeProblem.message : DecodeProblem → String
  | wrongKind found expected => "invalid type: " ++ found ++ ", expected " ++ expected
  | wrongValue found expected => "invalid value: " ++ found ++ ", expected " ++ expected
  | wrongLength length expected =>
    "invalid length " ++ toString length ++ ", expected " ++ expected
  | missingField name => "missing field `" ++ name ++ "`"
  | refused reason => reason

structure DecodeFailure where
  place : List Step
  problem : DecodeProblem
  deriving DecidableEq

abbrev Decoder (α : Type) := Json → Except DecodeFailure α

/-- How a value is called that was not expected. A text is given as it is quoted in sources. -/
def description (quoted : String → String) : Json → String
  | null => "null"
  | bool true => "boolean `true`"
  | bool false => "boolean `false`"
  | integer value => "integer `" ++ toString value ++ "`"
  | string text => "string " ++ quoted text
  | array _ => "sequence"
  | object _ => "map"

def fail {α : Type} (problem : DecodeProblem) : Except DecodeFailure α :=
  .error ⟨[], problem⟩

/-- Puts a step in front of the place of a failure. -/
def under {α : Type} (step : Step) : Except DecodeFailure α → Except DecodeFailure α
  | .ok value => .ok value
  | .error failure => .error { failure with place := step :: failure.place }

section

variable (quoted : String → String)

def wrongKind {α : Type} (found : Json) (expected : String) : Except DecodeFailure α :=
  fail (.wrongKind (found.description quoted) expected)

/-- A text, which is called `expected` where there is none. -/
def decodeText (expected : String) : Decoder String
  | string text => .ok text
  | found => wrongKind quoted found expected

def decodeNat (expected : String) : Decoder Nat
  | integer value =>
    if 0 ≤ value then .ok value.toNat
    else fail (.wrongValue ((integer value).description quoted) expected)
  | found => wrongKind quoted found expected

def decodeOption {α : Type} (decode : Decoder α) : Decoder (Option α)
  | null => .ok none
  | value => (decode value).map some

/-- The items of a list, of which `index` come before. -/
def decodeItems {α : Type} (decode : Decoder α) (index : Nat) :
    List Json → Except DecodeFailure (List α)
  | [] => .ok []
  | item :: items =>
    match under (.item index) (decode item) with
    | .error failure => .error failure
    | .ok value => (decodeItems decode (index + 1) items).map (value :: ·)

def decodeList {α : Type} (decode : Decoder α) : Decoder (List α)
  | array items => decodeItems decode 0 items
  | found => wrongKind quoted found "a sequence"

end

/-- A record that is read field by field. The fields may also come as a list, in their order. -/
structure Shape (α : Type) where
  name : String
  fields : List String
  /-- Takes one field into what was read so far. Unknown fields change nothing. -/
  put : α → String → Json → Except DecodeFailure α

namespace Shape

variable {α : Type} (s : Shape α)

def putFields (draft : α) : List (String × Json) → Except DecodeFailure α
  | [] => .ok draft
  | (name, value) :: fields =>
    match under (.field name) (s.put draft name value) with
    | .error failure => .error failure
    | .ok draft => putFields draft fields

/-- How the record is called together with the number of its fields. -/
def sized : String :=
  "struct " ++ s.name ++ " with " ++ toString s.fields.length ++
    (if s.fields.length = 1 then " element" else " elements")

/-- Takes the items of a list for the fields that are left. -/
def putItems (draft : α) (index : Nat) : List String → List Json → Except DecodeFailure α
  | [], [] => .ok draft
  | [], items => fail (.wrongLength (index + items.length) "fewer elements in array")
  | _ :: _, [] => fail (.wrongLength index s.sized)
  | name :: names, item :: items =>
    match under (.item index) (s.put draft name item) with
    | .error failure => .error failure
    | .ok draft => putItems draft (index + 1) names items

/-- Reads what a value says about a record, starting from a draft that knows nothing. -/
def read (quoted : String → String) (draft : α) : Decoder α
  | object fields => s.putFields draft fields
  | array items => s.putItems draft 0 s.fields items
  | found => wrongKind quoted found ("struct " ++ s.name)

end Shape

/-- A field that must have been there. -/
def required {α : Type} (name : String) : Option α → Except DecodeFailure α
  | some value => .ok value
  | none => fail (.missingField name)

/-- The number of bytes of the one-line form. -/
def width (j : Json) : Nat :=
  j.text.utf8ByteSize

/-- The number of bytes of the one-line form of a value up to the end of the part at a place. The
bracket or comma behind an item is counted, and the brace behind a last field. -/
def endOf : List Step → Json → Nat
  | .item index :: place, array items =>
    match items[index]? with
    | none => 0
    | some item =>
      let before := (items.take index).map (fun j => j.width + 1)
      1 + before.sum + endOf place item + (if place = [] then 1 else 0)
  | .field name :: place, object fields =>
    let before := fields.takeWhile (·.1 ≠ name)
    match fields.drop before.length with
    | [] => 0
    | (_, value) :: later =>
      let labelWidth (name : String) : Nat := (String.ofList (quote name)).utf8ByteSize + 1
      let widths := before.map fun (name, j) => labelWidth name + j.width + 1
      1 + widths.sum + labelWidth name + endOf place value +
        (if place = [] && later.isEmpty then 1 else 0)
  | _, j => j.width

end MarkerIndex.Json
