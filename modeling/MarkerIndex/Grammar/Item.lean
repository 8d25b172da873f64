import MarkerIndex.Grammar.Expression
/-!
Items and statements. A form that the grammar accepts but that declares nothing by itself, such as a
function without a body outside a trait, becomes `Item.other`.
-/

namespace MarkerIndex.Grammar

section

variable (g : Readers)

/-- What stands in parentheses behind `pub`. Fails where the parentheses are not a restriction. -/
def restriction : Reader Unit :=
  parens do
    let ts ← rest
    if ["crate", "self", "super"].any (atKeyword · ts) then
      let _ ← anyWord
      if !(← atEnd) then failExpected []
    else
      keyword "in"
      let _ ← plainPath

/-- Gives whether the item is marked visible. A failure inside a restriction that names a path is a
failure of the whole; other parentheses are left for what follows. -/
def visibility : Reader Bool := do
  if ← keyword? "pub" then
    match ← rest with
    | .group .parenthesis _ _ content :: _ =>
      if atKeyword "in" content then restriction
      else
        let _ ← attempt restriction
    | _ => pure ()
    return true
  else return false

/-- What may stand before the keyword of a function. -/
def functionQualifiers (allowSafe : Bool) : Reader Unit := do
  let _ ← keyword? "const"
  let _ ← keyword? "async"
  if allowSafe && atKeyword "safe" (← rest) then keyword "safe"
  else
    let _ ← keyword? "unsafe"
  let _ ← callingConvention?

/-- Whether a function's qualifiers and keyword lie ahead. -/
def atSignature (allowSafe : Bool) : Reader Bool := do
  return atKeyword "fn" (← restAfter (functionQualifiers allowSafe))

inductive ParameterShape
  | receiver (pos : Position)
  | typed
  | variadic

def receiver : Reader Position := do
  let byReference ← op? "&"
  if byReference then
    let _ ← lifetime?
  let _ ← keyword? "mut"
  let pos ← herePos
  keyword "self"
  if !byReference then
    if ← op? ":" then
      let _ ← g.type
  return pos

def functionParameter : Reader ParameterShape := do
  match ← attempt (receiver g) with
  | some pos => return .receiver pos
  | none =>
    let ts ← rest
    if atName ts && atOp "<" (behind ts) then
      let _ ← g.type
      return .typed
    let _ ← g.pattern
    op ":"
    if ← op? "..." then return .variadic
    let _ ← g.type
    return .typed

/-- The parameters of a function. Only the first may be a receiver, and dots may end them. -/
def functionParameters : Reader Unit := do
  let _ ← loop (0, false) fun (count, received) => do
    if ← atEnd then return (false, (count, received))
    let _ ← outerAttributes g
    let shape ← (do
      if ← op? "..." then return .variadic else functionParameter g : Reader ParameterShape)
    match shape with
    | .variadic =>
      if !(← atEnd) then op ","
      return (false, (count, received))
    | .receiver pos =>
      if received then failAt pos (.remark "unexpected second method receiver")
      if count ≠ 0 then failAt pos (.remark "unexpected method receiver")
    | .typed => pure ()
    let received := received || shape matches .receiver _
    if ← atEnd then return (false, (count + 1, received))
    op ","
    return (true, (count + 1, received))

/-- A function up to its body: its name and the line of the name. -/
def signature (allowSafe : Bool) : Reader (String × Nat) := do
  functionQualifiers allowSafe
  keyword "fn"
  let (word, pos) ← name
  let _ ← parameters g
  parens (functionParameters g)
  returnType g true
  let _ ← whereClause? g
  return (word, pos.line)

/-- A call of a syntax extension with what follows its path. Arguments that do not stand in curly
braces need a semicolon. -/
def callTail : Reader (List TokenTree) := do
  let (delimiter, content) ← anyGroup
  if delimiter ≠ .brace then op ";"
  return content

def memberCall : Reader Unit := do
  let _ ← plainPath
  op "!"
  let _ ← callTail

/-- The words that may begin a call of a syntax extension, in the order they are asked for. -/
def callChoices : List String :=
  ["identifier", tick "self", tick "super", tick "crate", tick "::"]

def atCall (ts : List TokenTree) : Bool :=
  atName ts || ["self", "super", "crate"].any (atKeyword · ts) || atOp "::" ts

inductive WherePlace
  | beforeDefinition
  | afterDefinition
  | either
  deriving DecidableEq

/-- A type item behind its visibility. Gives its name, whether it has bounds, and whether it is
defined. -/
def typeItem (place : WherePlace) : Reader (String × Bool × Bool) := do
  keyword "type"
  let (word, _) ← name
  let _ ← parameters g
  let bounded ← op? ":"
  if bounded then
    let done (ts : List TokenTree) : Bool := atKeyword "where" ts || atOp "=" ts || atOp ";" ts
    let _ ← separated "+" done (bound g false true)
  let constrained ← if place ≠ .afterDefinition then whereClause? g else pure false
  let defined ← op? "="
  if defined then
    let _ ← g.type
  if place ≠ .beforeDefinition && !constrained then
    let _ ← whereClause? g
  op ";"
  return (word, bounded, defined)

/-- A constant behind its keyword: its name, and whether it is plain, with a value, no parameters
and no conditions. -/
def constItem : Reader (String × Bool) := do
  let ts ← rest
  if !(atName ts || atKeyword "_" ts) then failExpected ["identifier", tick "_"]
  let (word, _) ← anyWord
  let generic ← parameters g
  op ":"
  let _ ← g.type
  let valued ← op? "="
  if valued then
    let _ ← g.expr
  let constrained ← whereClause? g
  op ";"
  return (word, valued && !generic && !constrained)

def traitMember : Reader (Option Function) := do
  let attributes ← outerAttributes g
  let visible ← visibility
  let preset ← keyword? "default"
  let function : Reader (Option Function) := do
    let inner ← outerAttributes g
    let (word, line) ← signature g false
    let ts ← rest
    if atBrace ts then
      let more ← body g
      return some ⟨attributes ++ inner ++ more, word, line⟩
    else if atOp ";" ts then
      op ";"
      return some ⟨attributes ++ inner, word, line⟩
    else failExpected ["curly braces", tick ";"]
  let found ← (do
    let ts ← rest
    if atKeyword "fn" ts || (← atSignature false) then function
    else if atKeyword "const" ts then
      let second := behind ts
      if atName second || atKeyword "_" second then
        keyword "const"
        let _ ← constItem g
        return none
      else if ["async", "unsafe", "extern", "fn"].any (atKeyword · second) then function
      else
        keyword "const"
        failExpected ["identifier", tick "_", tick "async", tick "unsafe", tick "extern", tick "fn"]
    else if atKeyword "type" ts then
      let _ ← typeItem g .afterDefinition
      return none
    else if !visible && !preset && atCall ts then
      memberCall
      return none
    else
      failExpected ([tick "fn", tick "const", tick "type"] ++
        if visible || preset then [] else callChoices) : Reader (Option Function))
  return if visible || preset then none else found

def implementationMember : Reader (Option Function) := do
  let attributes ← outerAttributes g
  let visible ← visibility
  let ts ← rest
  let preset ← (do
    if atKeyword "default" ts && !atOp "!" (behind ts) then keyword? "default" else return false :
      Reader Bool)
  let asked := if preset then [] else [tick "default"]
  let ts ← rest
  if atKeyword "fn" ts || (← atSignature false) then
    let (word, line) ← signature g false
    if ← op? ";" then return none
    let more ← body g
    return some ⟨attributes ++ more, word, line⟩
  else if atKeyword "const" ts then
    keyword "const"
    let _ ← constItem g
    return none
  else if atKeyword "type" ts then
    let _ ← typeItem g .afterDefinition
    return none
  else if !visible && !preset && atCall ts then
    memberCall
    return none
  else
    failExpected (asked ++ [tick "fn", tick "const", tick "type"] ++
      if visible || preset then [] else callChoices)

def foreignMember : Reader Unit := do
  let _ ← outerAttributes g
  let visible ← visibility
  let ts ← rest
  let second := behind ts
  if atKeyword "fn" ts || (← atSignature true) then
    let _ ← signature g true
    if atBrace (← rest) then
      let _ ← body g
    else op ";"
  else if atKeyword "static" ts ||
      ((atKeyword "unsafe" ts || atKeyword "safe" ts) && atKeyword "static" second) then
    if !(← keyword? "unsafe") then
      let _ ← keyword? "safe"
    keyword "static"
    let _ ← keyword? "mut"
    let _ ← name
    op ":"
    let _ ← g.type
    if ← op? "=" then
      let _ ← g.expr
    op ";"
  else if atKeyword "type" ts then
    let _ ← typeItem g .either
  else if !visible && atCall ts then memberCall
  else
    failExpected ([tick "fn", tick "static", tick "type"] ++ if visible then [] else callChoices)

def importName : Reader String := do
  let ts ← rest
  if atName ts then
    let (word, _) ← name
    return word
  else if atKeyword "_" ts then
    keyword "_"
    return "_"
  else failExpected ["identifier or underscore"]

/-- One branch of an import, or nothing where a part of it begins at the root of all names, which is
accepted but binds nothing. -/
def useTreeRule (fromRoot : Bool) : Reader (Option UseTree) := do
  let ts ← rest
  if atName ts || ["self", "super", "crate", "try"].any (atKeyword · ts) then
    let (word, _) ← anyWord
    let ts ← rest
    if atOp "::" ts then
      op "::"
      return (← g (.useTree false)).map (.path word)
    else if atKeyword "as" ts then
      keyword "as"
      return some (.rename word (← importName))
    else return some (.name word)
  else if atOp "*" ts then
    op "*"
    return some .glob
  else if atBrace ts then
    let trees ← braces <| commaList do
      let root ← if fromRoot then op? "::" else pure false
      let tree ← g (.useTree (fromRoot && !root))
      return if root then none else tree
    return (trees.mapM id).map .group
  else
    failExpected ["identifier", tick "self", tick "super", tick "crate", tick "try", tick "*",
      "curly braces"]

def fieldNamed : Nat → Reader Unit
  | 0 => fail (.remark "nested too deeply")
  | depth + 1 => do
    let _ ← outerAttributes g
    let _ ← visibility
    let unnamed := atKeyword "_" (← rest)
    let _ ← nameOr ["_"]
    op ":"
    let ts ← rest
    if unnamed && (atKeyword "struct" ts || (atKeyword "union" ts && atBrace (behind ts))) then
      let _ ← anyWord
      let _ ← braces (commaList (fieldNamed depth))
    else
      let _ ← g.type

def namedFields : Reader Unit := do
  let depth := TokenTree.countAll (← rest) + 1
  let _ ← braces (commaList (fieldNamed g depth))

def tupleFields : Reader Unit := do
  let _ ← parens <| commaList do
    let _ ← outerAttributes g
    let _ ← visibility
    g.type

/-- What follows the name and parameters of a structure. -/
def structureBody : Reader Unit := do
  let constrained ← whereClause? g
  let asked := if constrained then [] else [tick "where"]
  let ts ← rest
  if !constrained && atParen ts then
    tupleFields g
    let constrained ← whereClause? g
    if atOp ";" (← rest) then op ";"
    else failExpected (if constrained then [tick ";"] else [tick "where", tick ";"])
  else if atBrace ts then namedFields g
  else if atOp ";" ts then op ";"
  else failExpected (asked ++ (if constrained then [] else ["parentheses"]) ++
    ["curly braces", tick ";"])

def variant : Reader Unit := do
  let _ ← outerAttributes g
  let _ ← visibility
  let _ ← name
  let ts ← rest
  if atBrace ts then namedFields g
  else if atParen ts then tupleFields g
  if ← op? "=" then
    let _ ← g.expr

/-- The items of a module or file up to its end. -/
def items : Reader (List Item) :=
  untilEnd do
    let attributes ← outerAttributes g
    g (.item attributes)

def submodule (attributes : List Attribute) : Reader Item := do
  let _ ← keyword? "unsafe"
  keyword "mod"
  let (word, _) ← nameOr ["try"]
  let ts ← rest
  if atOp ";" ts then
    op ";"
    return .submodule word attributes none
  else if atBrace ts then
    let (inner, content) ← braces do
      let inner ← innerAttributes g
      return (inner, ← items g)
    return .submodule word (attributes ++ inner) (some content)
  else failExpected [tick ";", "curly braces"]

/-- A trait behind its name and parameters. -/
def traitBody (word : String) : Reader Item := do
  if ← op? ":" then
    let done (ts : List TokenTree) : Bool := atKeyword "where" ts || atBrace ts
    let _ ← separated "+" done (bound g false true)
  let _ ← whereClause? g
  let functions ← braces do
    let _ ← innerAttributes g
    untilEnd (traitMember g)
  return .contract word (functions.filterMap id)

def traitItem : Reader Item := do
  let _ ← keyword? "unsafe"
  let _ ← keyword? "auto"
  keyword "trait"
  let (word, _) ← name
  let _ ← parameters g
  traitBody g word

/-- A trait, or another name for a sum of traits. -/
def traitOrAlias : Reader Item := do
  keyword "trait"
  let (word, _) ← name
  let _ ← parameters g
  let ts ← rest
  if atBrace ts || atOp ":" ts || atKeyword "where" ts then traitBody g word
  else if atOp "=" ts then
    op "="
    let done (ts : List TokenTree) : Bool := atKeyword "where" ts || atOp ";" ts
    let _ ← separated "+" done (bound g false true)
    let _ ← whereClause? g
    op ";"
    return .declaration word
  else failExpected ["curly braces", tick ":", tick "where", tick "="]

/-- The functions of a type. Implementations that are marked visible or constant, and those of
something other than a trait, declare nothing. -/
def implementation : Reader Item := do
  let visible ← visibility
  let _ ← keyword? "default"
  let _ ← keyword? "unsafe"
  keyword "impl"
  if atParameters (← rest) then
    let _ ← parameters g
  let ts ← rest
  let constant := atKeyword "const" ts || (atOp "?" ts && atKeyword "const" (behind ts))
  if constant then
    let _ ← op? "?"
    keyword "const"
  let start ← rest
  let negative := atOp "!" start && !atBrace (behind start)
  if negative then op "!"
  let (shape, first) ← recorded g.type
  let between ← rest
  let written := start.take (start.length - between.length)
  let forTrait ← keyword? "for"
  let ((), second) ← recorded do
    if forTrait then
      let _ ← g.type
  let _ ← whereClause? g
  let functions ← braces do
    let _ ← innerAttributes g
    untilEnd (implementationMember g)
  let functions := functions.filterMap id
  if visible || constant then return .other
  if forTrait then
    match shape with
    | .path path =>
      if path.qualified then return .other
      let spelled := TokenTree.renderAll second
      let owner := "<" ++ spelled ++ " as " ++ TokenTree.renderAll first ++ ">"
      return .implementation owner functions
    | _ => return .other
  else
    return .implementation (TokenTree.renderAll (if negative then written else first)) functions

def externalCrate : Reader Item := do
  keyword "extern"
  keyword "crate"
  let (word, _) ← nameOr ["self"]
  let binding ← (do
    if ← keyword? "as" then
      let (binding, _) ← nameOr ["_"]
      return some binding
    else return none : Reader (Option String))
  op ";"
  return .externalCrate word binding

def foreignBlock : Reader Item := do
  let _ ← keyword? "unsafe"
  keyword "extern"
  if atText (← rest) then
    let _ ← literal
  braces do
    let _ ← innerAttributes g
    let _ ← untilEnd (foreignMember g)
  return .other

def staticItem : Reader Item := do
  let _ ← visibility
  keyword "static"
  let _ ← keyword? "mut"
  let (word, _) ← name
  if ← op? "=" then
    let _ ← g.expr
    op ";"
    return .other
  op ":"
  let _ ← g.type
  if ← op? ";" then return .other
  op "="
  let _ ← g.expr
  op ";"
  return .declaration word

/-- The definition of a syntax extension by a keyword. -/
def extensionItem : Reader Item := do
  keyword "macro"
  let _ ← name
  let arguments := atParen (← rest)
  if arguments then parens everything
  if atBrace (← rest) then
    braces everything
    return .other
  else failExpected (if arguments then ["curly braces"] else ["parentheses", "curly braces"])

/-- A call of a syntax extension, or with a name behind the exclamation mark a definition of one. -/
def callItem : Reader Item := do
  let path ← plainPath
  op "!"
  let ts ← rest
  if atName ts || atKeyword "try" ts then
    let (word, _) ← nameOr ["try"]
    let _ ← callTail
    return .declaration word
  else
    return .invocation path (← callTail)

/-- The words to offer where none of them leads on. A word that stands there, and fails only for
what follows it, is not offered. -/
def offered (words : List String) (ts : List TokenTree) : List String :=
  (words.filter fun word => !atKeyword word ts).map tick

/-- What may begin an item, in the order in which it is asked for. -/
def itemChoices (visible : Bool) (ts : List TokenTree) : List String :=
  offered ["fn", "extern", "use", "static", "const", "unsafe", "mod", "type", "struct", "enum",
    "union", "trait", "auto", "impl", "default", "macro"] ts ++ if visible then [] else callChoices

/-- An item that begins with the keyword for foreign things. -/
def foreignItem (ts : List TokenTree) : Reader Item := do
  let second := behind ts
  let whole (reader : Reader Item) : Reader Item := do
    if atKeyword "pub" (← rest) then failExpected [tick "extern"]
    reader
  if atKeyword "crate" second then
    let _ ← visibility
    externalCrate
  else if atBrace second then whole (foreignBlock g)
  else if atText second then
    if atBrace (behind second) then whole (foreignBlock g)
    else
      let _ ← visibility
      keyword "extern"
      let _ ← literal
      failExpected ["curly braces"]
  else
    let _ ← visibility
    keyword "extern"
    failExpected [tick "crate", "curly braces", "string literal"]

/-- An item that begins with a mark for lack of safety, not a function. -/
def unsafeItem (ts : List TokenTree) : Reader Item := do
  let second := behind ts
  if atKeyword "trait" second || (atKeyword "auto" second && atKeyword "trait" (behind second)) then
    let _ ← visibility
    traitItem g
  else if atKeyword "impl" second then implementation g
  else if atKeyword "extern" second then
    if atKeyword "pub" (← rest) then failExpected [tick "extern"]
    foreignBlock g
  else
    let _ ← visibility
    if atKeyword "mod" second then submodule g []
    else
      keyword "unsafe"
      failExpected (offered ["trait", "auto", "impl", "extern", "mod"] second)

/-- An item whose name alone matters: behind its keyword come name, parameters and `tail`. -/
def namedItem (word : String) (tail : Reader Unit) : Reader Item := do
  let _ ← visibility
  keyword word
  let (found, _) ← name
  let _ ← parameters g
  tail
  return .declaration found

def itemRule (attributes : List Attribute) : Reader Item := do
  let ahead ← probe visibility
  let (visible, ts) ← (do
    match ahead with
    | some (visible, state) => return (visible, state.rest)
    | none => return (← visibility, ← rest) : Reader (Bool × List TokenTree))
  let second := behind ts
  let function ← probe do
    let _ ← visibility
    if !(← atSignature false) then failExpected []
  if function.isSome then
    let _ ← visibility
    let (word, line) ← signature g false
    if ← op? ";" then return .other
    let inner ← body g
    return .function ⟨attributes ++ inner, word, line⟩
  else if atKeyword "extern" ts then foreignItem g ts
  else if atKeyword "use" ts then
    let _ ← visibility
    keyword "use"
    let leadingColon ← op? "::"
    let tree ← g (.useTree (!leadingColon))
    op ";"
    return tree.elim .other (.use leadingColon)
  else if atKeyword "static" ts then staticItem g
  else if atKeyword "const" ts then
    let _ ← visibility
    keyword "const"
    let (word, plain) ← constItem g
    return if plain then .declaration word else .other
  else if atKeyword "unsafe" ts then
    match ← unsafeItem g ts with
    | .submodule word inner content => return .submodule word (attributes ++ inner) content
    | item => return item
  else if atKeyword "mod" ts then
    let _ ← visibility
    submodule g attributes
  else if atKeyword "type" ts then
    let _ ← visibility
    let (word, bounded, defined) ← typeItem g .beforeDefinition
    return if defined && !bounded then .declaration word else .other
  else if atKeyword "struct" ts then namedItem g "struct" (structureBody g)
  else if atKeyword "enum" ts then
    namedItem g "enum" do
      let _ ← whereClause? g
      let _ ← braces (commaList (variant g))
  else if atKeyword "union" ts && atName second then
    namedItem g "union" do
      let _ ← whereClause? g
      namedFields g
  else if atKeyword "trait" ts then
    let _ ← visibility
    traitOrAlias g
  else if atKeyword "auto" ts && atKeyword "trait" second then
    let _ ← visibility
    traitItem g
  else if atKeyword "impl" ts || (atKeyword "default" ts && !atOp "!" second) then implementation g
  else if atKeyword "macro" ts then
    let _ ← visibility
    extensionItem
  else if !visible && atCall ts then callItem
  else
    let _ ← visibility
    failExpected (itemChoices visible ts)

/-- How a statement ends. -/
inductive StatementEnd
  | closed
  /-- Something must follow before the next statement. -/
  | open
  deriving DecidableEq

def letStatement : Reader Unit := do
  keyword "let"
  let _ ← g.pattern
  if ← op? ":" then
    let _ ← g.type
  if ← op? "=" then
    let _ ← g.expr
    let braced := match (← get).read with
      | .group .brace _ _ _ :: _ => true
      | _ => false
    if !braced && atKeyword "else" (← rest) then
      keyword "else"
      block g
  op ";"

/-- Whether an item, and no expression, begins here. -/
def atItem (ts : List TokenTree) : Bool :=
  let second := behind ts
  let third := behind second
  atKeyword "pub" ts || (atKeyword "crate" ts && !atOp "::" second) || atKeyword "extern" ts ||
    atKeyword "use" ts ||
    (atKeyword "static" ts && (atKeyword "mut" second || atName second)) ||
    (atKeyword "const" ts &&
      !(atBrace second || atKeyword "static" second ||
        (atKeyword "async" second &&
          !(atKeyword "unsafe" third || atKeyword "extern" third || atKeyword "fn" third)) ||
        atKeyword "move" second || atOp "|" second)) ||
    (atKeyword "unsafe" ts && !atBrace second) ||
    (atKeyword "async" ts &&
      (atKeyword "unsafe" second || atKeyword "extern" second || atKeyword "fn" second)) ||
    ["fn", "mod", "type", "struct", "enum", "trait", "impl", "macro"].any (atKeyword · ts) ||
    (atKeyword "union" ts && atName second) || (atKeyword "auto" ts && atKeyword "trait" second) ||
    (atKeyword "default" ts && (atKeyword "unsafe" second || atKeyword "impl" second))

/-- What a path and an exclamation mark ahead begin. -/
inductive CallAhead
  | none
  | definition
  | braced

def callAhead : Reader CallAhead := do
  let ts ← restAfter plainPath
  let second := behind ts
  let third := behind second
  if !atOp "!" ts then return .none
  else if atName second || atKeyword "try" second then return .definition
  else if atBrace second && !((atOp "." third && !atOp ".." third) || atOp "?" third) then
    return .braced
  else return .none

def statement : Reader StatementEnd := do
  let attributes ← outerAttributes g
  let ts ← rest
  match ← callAhead with
  | .braced =>
    let _ ← plainPath
    op "!"
    let _ ← anyGroup
    let _ ← op? ";"
    return .closed
  | .definition =>
    let _ ← g (.item attributes)
    return .closed
  | .none =>
    if atKeyword "let" ts then
      letStatement g
      return .closed
    else if atItem ts then
      let _ ← g (.item attributes)
      return .closed
    else
      let shape ← g .leadingExpr
      if ← op? ";" then return .closed
      match shape with
      | .block => return .closed
      | .invocation true => return .closed
      | _ => return .open

/-- Statements up to the end of their block. Only the last may lack its semicolon. -/
def statementsRule : Reader Unit :=
  loop () fun _ => do
    let _ ← whileAt (atOp ";") (op ";")
    if ← atEnd then return (false, ())
    let finish ← statement g
    if ← atEnd then return (false, ())
    if finish = .open then fail (.remark "unexpected token, expected `;`")
    return (true, ())

end

def rule (g : Readers) : Readers
  | .type allowPlus => typeRule g allowPlus
  | .argument => argument g
  | .binder => binder g
  | .pattern => patternRule g
  | .expr structs => exprRule g structs
  | .unary structs => unaryRule g structs
  | .leadingExpr => leadingExprRule g
  | .statements => statementsRule g
  | .item attributes => itemRule g attributes
  | .useTree fromRoot => useTreeRule g fromRoot

/-- The grammar with parts nested at most so deep. -/
def ofDepth : Nat → Readers
  | 0 => fun _ => fail (.remark "nested too deeply")
  | depth + 1 => rule (ofDepth depth)

end MarkerIndex.Grammar
