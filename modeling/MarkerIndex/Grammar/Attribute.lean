import MarkerIndex.Grammar.Rules
/-!
Attributes, the plain paths that name them, and blocks of statements.
-/

namespace MarkerIndex.Grammar

/-- The keywords that may be a segment of a path. -/
def pathKeywords : List String := ["super", "self", "Self", "crate"]

def atPathWord (ts : List TokenTree) : Bool :=
  atName ts || pathKeywords.any (atKeyword · ts)

/-- A path without arguments, as it stands in attributes and calls of syntax extensions. -/
def plainPath : Reader WrittenPath := do
  let leadingColon ← op? "::"
  let (found, open_) ← loop (([] : List (String × Position)), true) fun (acc, _) => do
    if atPathWord (← rest) then
      let word ← anyWord
      if ← op? "::" then return (true, (word :: acc, true))
      else return (false, (word :: acc, false))
    else return (false, (acc, true))
  match found.reverse with
  | [] =>
    let _ ← name
    failExpected ["identifier"]
  | (first, pos) :: more =>
    if open_ then fail (.expected ["path segment after `::`"])
    else return ⟨leadingColon, first :: more.map (·.1), pos.line⟩

/-- The keyword that may stand for the path of an attribute. -/
def attributePath : Reader WrittenPath := do
  if atKeyword "unsafe" (← rest) then
    let (word, pos) ← anyWord
    return ⟨false, [word], pos.line⟩
  else plainPath

def attributeValue (g : Readers) : Reader AttributeArgument := do
  op "="
  let ts ← rest
  match literalAhead ts with
  | some (kind, [.leaf _ (.literal text)], []) =>
    let _ ← literal
    return .value (if kind = .text then Text.literalValue? text else none)
  | _ =>
    if atOp "#" ts && atBracket (behind ts) then
      fail (.remark "unexpected attribute inside of attribute")
    else
      let _ ← g.expr
      return .value none

def attributeArgument (g : Readers) : Reader AttributeArgument := do
  let ts ← rest
  if atParen ts || atBracket ts || atBrace ts then
    let (_, content) ← anyGroup
    return .tokens content
  else if atOp "=" ts then attributeValue g
  else return .none

def oneAttribute (g : Readers) (inner : Bool) : Reader Attribute := do
  op "#"
  if inner then op "!"
  brackets do
    let path ← attributePath
    return ⟨inner, path, ← attributeArgument g⟩

def outerAttributes (g : Readers) : Reader (List Attribute) :=
  whileAt (atOp "#") (oneAttribute g false)

def innerAttributes (g : Readers) : Reader (List Attribute) :=
  whileAt (fun ts => atOp "#" ts && atOp "!" (behind ts)) (oneAttribute g true)

/-- Statements in curly braces. -/
def block (g : Readers) : Reader Unit :=
  braces g.statements

/-- Statements in curly braces, with attributes of the whole in front of them. -/
def body (g : Readers) : Reader (List Attribute) :=
  braces do
    let attributes ← innerAttributes g
    g.statements
    return attributes

end MarkerIndex.Grammar
