import MarkerIndex.Grammar.Pattern
/-!
Expressions. Operators are read by precedence; a comparison cannot be compared further, and a range
or cast limits what may follow it.
-/

namespace MarkerIndex.Grammar

/-- How tightly an operator binds, loosest first. -/
inductive Precedence
  | jump
  | assign
  | range
  | or
  | and
  | binding
  | compare
  | bitOr
  | bitXor
  | bitAnd
  | shift
  | sum
  | product
  | cast
  deriving DecidableEq

namespace Precedence

def rank (p : Precedence) : Nat := p.ctorIdx

end Precedence

/-- Binary operators, longer ones first. -/
def binaryOperators : List (String × Precedence) :=
  [("+=", .assign), ("-=", .assign), ("*=", .assign), ("/=", .assign), ("%=", .assign),
    ("^=", .assign), ("&=", .assign), ("|=", .assign), ("<<=", .assign), (">>=", .assign),
    ("&&", .and), ("||", .or), ("<<", .shift), (">>", .shift), ("==", .compare), ("<=", .compare),
    ("!=", .compare), (">=", .compare), ("+", .sum), ("-", .sum), ("*", .product), ("/", .product),
    ("%", .product), ("^", .bitXor), ("&", .bitAnd), ("|", .bitOr), ("<", .compare),
    (">", .compare)]

def operatorAhead (ts : List TokenTree) : Option (String × Precedence) :=
  binaryOperators.find? fun (text, _) => atOp text ts

def precedenceAhead (ts : List TokenTree) : Precedence :=
  match operatorAhead ts with
  | some (_, precedence) => precedence
  | none =>
    if atOp "=" ts && !atOp "=>" ts then .assign
    else if atOp ".." ts then .range
    else if atKeyword "as" ts then .cast
    else .jump

/-- Whether something that can begin an expression lies ahead. -/
def atExpr (ts : List TokenTree) : Bool :=
  (atWord ts && !atKeyword "as" ts) || atParen ts || atBracket ts || atBrace ts || atLiteral ts ||
    (atOp "!" ts && !atOp "!=" ts) || (atOp "-" ts && !atOp "-=" ts && !atOp "->" ts) ||
    (atOp "*" ts && !atOp "*=" ts) || (atOp "|" ts && !atOp "|=" ts) ||
    (atOp "&" ts && !atOp "&=" ts) || atOp ".." ts ||
    (atOp "<" ts && !atOp "<=" ts && !atOp "<<=" ts) || atOp "::" ts || atLifetime ts || atOp "#" ts

/-- Whether a half-open range has no upper end here. -/
def atRangeEnd (structs : Bool) (ts : List TokenTree) : Bool :=
  ts.isEmpty || atOp "," ts || atOp ";" ts || (atOp "." ts && !atOp ".." ts) || atOp "?" ts ||
    atOp "=>" ts || (!structs && atBrace ts) || atOp "=" ts || atOp "+" ts || atOp "/" ts ||
    atOp "%" ts || atOp "^" ts || atOp ">" ts || atOp "<=" ts || atOp "!=" ts || atOp "-=" ts ||
    atOp "*=" ts || atOp "&=" ts || atOp "|=" ts || atOp "<<=" ts || atKeyword "as" ts

section

variable (g : Readers)

/-- A cast may not be followed by what would bind to its type. -/
def checkCast : Reader Unit := do
  let ts ← rest
  let second := behind ts
  let third := behind second
  let kind : Option String :=
    if atOp "." ts && !atOp ".." ts then
      if atKeyword "await" second then some "`.await`"
      else if atName second && (atParen third || atOp "::" third) then some "a method call"
      else some "a field access"
    else if atOp "?" ts then some "`?`"
    else if atBracket ts then some "indexing"
    else if atParen ts then some "a function call"
    else none
  match kind with
  | some kind => fail (.remark ("casts cannot be followed by " ++ kind))
  | none => return ()

mutual

/-- Goes on behind a left operand with operators that bind at least as tightly as `base`. -/
def operators (fuel : Nat) (structs : Bool) (left : ExprShape) (base : Precedence) :
    Reader ExprShape := do
  match fuel with
  | 0 => fail (.remark "nested too deeply")
  | fuel + 1 =>
    if left = .range then return left
    let ts ← rest
    match operatorAhead ts with
    | some (text, precedence) =>
      if precedence.rank < base.rank then return left
      if precedence = .compare && left = .comparison then
        fail (.remark "comparison operators cannot be chained")
      op text
      rightOperand fuel structs precedence
      operators fuel structs (if precedence = .compare then .comparison else .other) base
    | none =>
      if base.rank ≤ Precedence.assign.rank && atOp "=" ts && !atOp "=>" ts then
        op "="
        rightOperand fuel structs .assign
        operators fuel structs .other base
      else if base.rank ≤ Precedence.range.rank && atOp ".." ts then
        let limits ← rangeLimits false
        rangeEnd fuel structs limits
        operators fuel structs .range base
      else if base.rank ≤ Precedence.cast.rank && atKeyword "as" ts then
        keyword "as"
        let _ ← g.typeNoPlus
        checkCast
        operators fuel structs .other base
      else return left

/-- The right operand of an operator, with all that binds more tightly. -/
def rightOperand (fuel : Nat) (structs : Bool) (precedence : Precedence) : Reader Unit := do
  match fuel with
  | 0 => fail (.remark "nested too deeply")
  | fuel + 1 => rightOperators fuel structs precedence (← g (.unary structs))

/-- Goes on behind a right operand while tighter operators follow. -/
def rightOperators (fuel : Nat) (structs : Bool) (precedence : Precedence) (right : ExprShape) :
    Reader Unit := do
  match fuel with
  | 0 => fail (.remark "nested too deeply")
  | fuel + 1 =>
    let ts ← rest
    let next := precedenceAhead ts
    if precedence.rank < next.rank || (next = precedence && precedence = .assign) then
      let right ← operators fuel structs right next
      if (← rest).length < ts.length then rightOperators fuel structs precedence right

/-- The upper end of a range, if there is one. -/
def rangeEnd (fuel : Nat) (structs : Bool) (limits : RangeLimits) : Reader Unit := do
  match fuel with
  | 0 => fail (.remark "nested too deeply")
  | fuel + 1 =>
    if limits = .halfOpen && atRangeEnd structs (← rest) then return ()
    rightOperand fuel structs .range

end

/-- Enough steps for all operators ahead. -/
def operatorFuel : Reader Nat := do
  return 8 * (← rest).length + 8

def exprFrom (structs : Bool) (left : ExprShape) (base : Precedence) : Reader ExprShape := do
  operators g (← operatorFuel) structs left base

def exprRule (structs : Bool) : Reader ExprShape := do
  let left ← g (.unary structs)
  exprFrom g structs left .jump

/-- The parts of a number behind a point, which may itself look like a fraction: each must be a
whole number. Gives whether a point ends it. -/
def indexParts : Reader Bool := do
  match literalAhead (← rest) with
  | some (.fraction, [.leaf pos (.literal text)], _) =>
    let _ ← literal
    let parts := text.splitOn "."
    let trailing := parts.getLast? = some ""
    for part in (if trailing then parts.dropLast else parts) do
      match literalKind part with
      | .integer "" => pure ()
      | .integer _ => failAt pos (.remark "expected unsuffixed integer")
      | _ => failAt pos (.expected ["integer literal"])
    return trailing
  | _ => return true

/-- The calls, fields, methods, indices and question marks behind an atom. -/
def trailers (atom : ExprShape) : Reader ExprShape :=
  loop atom fun shape => do
    let ts ← rest
    if atParen ts then
      let _ ← parens (commaList g.expr)
      return (true, .other)
    else if atOp "." ts && !atOp ".." ts && shape ≠ .range then
      op "."
      if !(← indexParts) then return (true, .other)
      if ← keyword? "await" then return (true, .other)
      let field ← member
      let turbofish ← (do
        if field = .named && atOp "::" (← rest) then
          angleArguments g
          return true
        else return false : Reader Bool)
      if field = .named && (turbofish || atParen (← rest)) then
        let _ ← parens (commaList g.expr)
      return (true, .other)
    else if atBracket ts then
      let _ ← brackets g.expr
      return (true, .other)
    else if atOp "?" ts && shape ≠ .range then
      op "?"
      return (true, .other)
    else return (false, shape)

def fieldValue : Reader Unit := do
  let _ ← outerAttributes g
  let field ← member
  if atOp ":" (← rest) || field = .numbered then
    op ":"
    let _ ← g.expr

/-- The fields of a structure value, and what the others are taken from. -/
def structureValue : Reader Unit :=
  braces <| loop () fun _ => do
    if ← atEnd then return (false, ())
    if atOp ".." (← rest) then
      op ".."
      if !(← atEnd) then
        let _ ← g.expr
      return (false, ())
    fieldValue g
    if ← atEnd then return (false, ())
    op ","
    return (true, ())

/-- A path, a call of a syntax extension, or a structure value. -/
def pathExpr (structs : Bool) : Reader ExprShape := do
  let shape ← qualifiedPath g true
  let ts ← rest
  if !shape.qualified && atOp "!" ts && !atOp "!=" ts && shape.plain then
    op "!"
    let (delimiter, _) ← anyGroup
    return .invocation (delimiter = .brace)
  else if structs && atBrace ts then
    structureValue g
    return .other
  else return .other

/-- The elements of an array, or one element and how often it is repeated. -/
def arrayContent : Reader Unit := do
  if ← atEnd then return ()
  let _ ← g.expr
  let ts ← rest
  if ts.isEmpty then return ()
  else if atOp "," ts then
    op ","
    let _ ← commaList g.expr
  else if atOp ";" ts then
    op ";"
    let _ ← g.expr
  else failExpected [tick ",", tick ";"]

def closureParameter : Reader Unit := do
  let _ ← outerAttributes g
  let _ ← g.pattern
  if ← op? ":" then
    let _ ← g.type

def closure (structs : Bool) : Reader Unit := do
  let _ ← binder? g
  let _ ← keyword? "const"
  let _ ← keyword? "static"
  let _ ← keyword? "async"
  let _ ← keyword? "move"
  op "|"
  let _ ← separated "," (atOp "|") (closureParameter g)
  op "|"
  if atOp "->" (← rest) then
    op "->"
    let _ ← g.type
    block g
  else
    let _ ← g (.expr structs)

def ifExpr : Reader Unit :=
  loop () fun _ => do
    keyword "if"
    let _ ← g.condition
    block g
    if ← keyword? "else" then
      let ts ← rest
      if atKeyword "if" ts then return (true, ())
      else if atBrace ts then
        block g
        return (false, ())
      else failExpected [tick "if", "curly braces"]
    else return (false, ())

def whileExpr : Reader Unit := do
  keyword "while"
  let _ ← g.condition
  let _ ← body g

def forExpr : Reader Unit := do
  keyword "for"
  let _ ← patternAlternatives g
  keyword "in"
  let _ ← g.condition
  let _ ← body g

def loopExpr : Reader Unit := do
  keyword "loop"
  let _ ← body g

/-- An arm of a match. A comma must follow unless the arm ends in a block or is the last. -/
def matchArm : Reader Unit := do
  let _ ← outerAttributes g
  let _ ← patternAlternatives g
  if ← keyword? "if" then
    let _ ← g.expr
  op "=>"
  let shape ← g .leadingExpr
  if shape = .block || (← atEnd) then
    let _ ← op? ","
  else op ","

def matchExpr : Reader Unit := do
  keyword "match"
  let _ ← g.condition
  braces do
    let _ ← innerAttributes g
    let _ ← untilEnd (matchArm g)

/-- A loop or block behind its label. -/
def labelled : Reader ExprShape := do
  lifetime
  op ":"
  let ts ← rest
  if atKeyword "while" ts then whileExpr g
  else if atKeyword "for" ts then forExpr g
  else if atKeyword "loop" ts then loopExpr g
  else if atBrace ts then
    let _ ← body g
  else failExpected ["loop or block expression"]
  return .block

def breakExpr (structs : Bool) : Reader Unit := do
  keyword "break"
  let ts ← rest
  if atLifetime ts && atOp ":" (behind ts) then
    let pos ← herePos
    let _ ← g.expr
    failAt pos (.remark "parentheses required")
  let _ ← lifetime?
  let ts ← rest
  if atExpr ts && (structs || !atBrace ts) then
    let _ ← g (.expr structs)

/-- A keyword with an expression behind it, or without one where none can begin. -/
def keywordExpr (word : String) : Reader Unit := do
  keyword word
  if atExpr (← rest) then
    let _ ← g.expr

/-- The expressions that end in a block and begin with a keyword or brace. -/
def blockExpr? : Reader Bool := do
  let ts ← rest
  let second := behind ts
  if atKeyword "if" ts then ifExpr g
  else if atKeyword "while" ts then whileExpr g
  else if atKeyword "for" ts && !atParameters second then forExpr g
  else if atKeyword "loop" ts then loopExpr g
  else if atKeyword "match" ts then matchExpr g
  else if atKeyword "try" ts && atBrace second then
    keyword "try"
    block g
  else if atKeyword "unsafe" ts then
    keyword "unsafe"
    let _ ← body g
  else if atKeyword "const" ts && atBrace second then
    keyword "const"
    let _ ← body g
  else if atBrace ts then
    let _ ← body g
  else return false
  return true

def atClosure (ts : List TokenTree) : Bool :=
  let second := behind ts
  atOp "|" ts || atKeyword "move" ts || (atKeyword "for" ts && atParameters second) ||
    (atKeyword "const" ts && !atBrace second) || atKeyword "static" ts ||
    (atKeyword "async" ts && (atOp "|" second || atKeyword "move" second))

def atom (structs : Bool) : Reader ExprShape := do
  let ts ← rest
  let second := behind ts
  if atLiteral ts then
    let _ ← literal
    return .other
  else if atKeyword "async" ts &&
      (atBrace second || (atKeyword "move" second && atBrace (behind second))) then
    keyword "async"
    let _ ← keyword? "move"
    block g
    return .other
  else if atKeyword "try" ts && atBrace second then
    keyword "try"
    block g
    return .block
  else if atClosure ts then
    closure g structs
    return .other
  else if atKeyword "builtin" ts && atOp "#" second then
    keyword "builtin"
    op "#"
    let _ ← name
    parens everything
    return .other
  else if atPathWord ts || atOp "::" ts || atOp "<" ts ||
      (atKeyword "try" ts && (atOp "!" second || atOp "::" second)) then
    pathExpr g structs
  else if atParen ts then
    let _ ← parens (commaList g.expr)
    return .other
  else if atKeyword "break" ts then
    breakExpr g structs
    return .other
  else if atKeyword "continue" ts then
    keyword "continue"
    let _ ← lifetime?
    return .other
  else if atKeyword "return" ts then
    keywordExpr g "return"
    return .other
  else if atKeyword "become" ts then
    keyword "become"
    let _ ← g.expr
    return .other
  else if atBracket ts then
    brackets (arrayContent g)
    return .other
  else if atKeyword "let" ts then
    keyword "let"
    let _ ← patternAlternatives g
    op "="
    let left ← g (.unary structs)
    let _ ← exprFrom g structs left .compare
    return .other
  else if ← blockExpr? g then return .block
  else if atKeyword "yield" ts then
    keywordExpr g "yield"
    return .other
  else if atOp ".." ts then
    let limits ← rangeLimits false
    rangeEnd g (← operatorFuel) structs limits
    return .range
  else if atKeyword "_" ts then
    keyword "_"
    return .other
  else if atLifetime ts then labelled g
  else failExpected ["an expression"]

def unaryRule (structs : Bool) : Reader ExprShape := do
  let start ← herePos
  let attributes ← outerAttributes g
  let ts ← rest
  let second := behind ts
  if atOp "&" ts then
    op "&"
    let raw := atKeyword "raw" second &&
      (atKeyword "mut" (behind second) || atKeyword "const" (behind second))
    if raw then keyword "raw"
    let mutable ← keyword? "mut"
    if raw && !mutable then keyword "const"
    let _ ← g (.unary structs)
    return .other
  else if atOp "*" ts || atOp "!" ts || atOp "-" ts then
    op (if atOp "*" ts then "*" else if atOp "!" ts then "!" else "-")
    let _ ← g (.unary structs)
    return .other
  else
    let shape ← trailers g (← atom g structs)
    if shape = .range && !attributes.isEmpty then
      failAt start (.remark "attributes are not allowed on range expressions starting with `..`")
    return shape

/-- A leading expression that ends in a block goes on only with a field, method or question mark. -/
def leadingExprRule : Reader ExprShape := do
  let _ ← outerAttributes g
  let ts ← rest
  let shape ← (do
    if atLifetime ts then labelled g
    else if ← blockExpr? g then return .block
    else g (.unary true) : Reader ExprShape)
  if shape ≠ .block then exprFrom g true shape .jump
  else
    let ts ← rest
    if (atOp "." ts && !atOp ".." ts) || atOp "?" ts then
      let shape ← trailers g shape
      exprFrom g true shape .jump
    else return shape

end

end MarkerIndex.Grammar
