import MarkerIndex.Json.Decode
import MarkerIndex.Json.Reader
import MarkerIndex.Pass
/-!
Reports in JSON. Item paths are written as texts with double colons, and reading one back takes the
text as a path in a source file, so that what no source file could say is refused.
-/

namespace MarkerIndex

open Json (Decoder DecodeFailure)

namespace Encoding

def quoted : String → String := Text.Quoted.encode

end Encoding

namespace ItemPath

def toJson (p : ItemPath) : Json :=
  .string p.display

def decode : Decoder ItemPath := fun j =>
  match Json.decodeText Encoding.quoted "a string" j with
  | .error failure => .error failure
  | .ok text =>
    match parse? text with
    | some p => .ok p
    | none => Json.fail (.refused ("`" ++ text ++ "` is not a Rust path"))

end ItemPath

namespace Declaration

def toJson (d : Declaration) : Json :=
  .object [
    ("module", d.module.toJson),
    ("owner", Json.ofOption .string d.owner),
    ("name", .string d.name),
    ("file", .string d.file.text),
    ("line", .integer d.line),
    ("markers", .array (d.markers.map ItemPath.toJson)),
    ("registration_name", Json.ofOption .string d.registration)]

/-- What was read so far of a declaration. -/
structure Draft where
  module : Option ItemPath
  owner : Option String
  name : Option String
  file : Option FilePath
  line : Option Nat
  markers : Option (List ItemPath)
  registration : Option String

def Draft.empty : Draft := ⟨none, none, none, none, none, none, none⟩

def Draft.put (d : Draft) (field : String) (j : Json) : Except DecodeFailure Draft :=
  let text := Json.decodeText Encoding.quoted "a string"
  if field = "module" then (ItemPath.decode j).map fun m => { d with module := some m }
  else if field = "owner" then (Json.decodeOption text j).map fun o => { d with owner := o }
  else if field = "name" then (text j).map fun n => { d with name := some n }
  else if field = "file" then
    (Json.decodeText Encoding.quoted "path string" j).map fun f => { d with file := some ⟨f⟩ }
  else if field = "line" then
    (Json.decodeNat Encoding.quoted "usize" j).map fun n => { d with line := some n }
  else if field = "markers" then
    (Json.decodeList Encoding.quoted ItemPath.decode j).map fun m => { d with markers := some m }
  else if field = "registration_name" then
    (Json.decodeOption text j).map fun r => { d with registration := r }
  else .ok d

def Draft.finish (d : Draft) : Except DecodeFailure Declaration := do
  let module ← Json.required "module" d.module
  let name ← Json.required "name" d.name
  let file ← Json.required "file" d.file
  let line ← Json.required "line" d.line
  let markers ← Json.required "markers" d.markers
  return ⟨module, d.owner, name, file, line, markers, d.registration⟩

def shape : Json.Shape Draft where
  name := "MethodDeclaration"
  fields := ["module", "owner", "name", "file", "line", "markers", "registration_name"]
  put := Draft.put

/-- A declaration by its fields, of which only the two that may be absent can be left out. -/
def decode : Decoder Declaration := fun j =>
  match shape.read Encoding.quoted .empty j with
  | .error failure => .error failure
  | .ok draft => draft.finish

def listToJson (declarations : List Declaration) : Json :=
  .array (declarations.map toJson)

def decodeList : Decoder (List Declaration) :=
  Json.decodeList Encoding.quoted decode

end Declaration

namespace Encoding

/-- A marker as something that lists are asked for. -/
def grouping (marker : ItemPath) : Json :=
  .object [("marker", marker.toJson)]

def groupingShape : Json.Shape (Option ItemPath) where
  name := "Grouping"
  fields := ["marker"]
  put draft field j :=
    if field = "marker" then (ItemPath.decode j).map some else .ok draft

def decodeGrouping : Decoder ItemPath := fun j =>
  match groupingShape.read quoted none j with
  | .error failure => .error failure
  | .ok marker => Json.required "marker" marker

def decodeGroupings : Decoder (List ItemPath) :=
  Json.decodeList quoted decodeGrouping

def entry (e : ListEntry) : Json :=
  .object [("grouping", grouping e.marker), ("names", .array (e.names.map .string))]

def classification (c : Classification) : Json :=
  .object [("entries", .array (c.entries.map entry))]

end Encoding

namespace Report

def toJson (r : Report) : Json :=
  .object [
    ("groupings", .array (r.markers.map Encoding.grouping)),
    ("declarations", Declaration.listToJson r.declarations),
    ("classification", Encoding.classification r.classification)]

end Report

namespace Declaration

/-- Why a written list of declarations cannot be read back: the failure, and the column of the text
at which the reader stands when it gives up. -/
structure ReadBackFailure where
  failure : DecodeFailure
  column : Nat

def ReadBackFailure.message (f : ReadBackFailure) : String :=
  f.failure.problem.message ++ " at line 1 column " ++ toString f.column

/-- Reads a list of declarations from the text that was written for it. -/
def ofText (text : String) : Except ReadBackFailure (List Declaration) :=
  match Json.ofText? text with
  | none => .error ⟨⟨[], .refused "expected value"⟩, 1⟩
  | some j =>
    match decodeList j with
    | .ok declarations => .ok declarations
    | .error failure => .error ⟨failure, Json.endOf failure.place j⟩

end Declaration

end MarkerIndex
