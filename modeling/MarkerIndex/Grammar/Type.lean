import MarkerIndex.Grammar.Attribute
/-!
Types, and what they are made of: paths with arguments, bounds, parameters and conditions.
-/

namespace MarkerIndex.Grammar

/-- A value at the place of an argument: a literal, a name or a block. -/
def constArgument (g : Readers) : Reader Unit := do
  let ts ← rest
  if atLiteral ts then
    let _ ← literal
  else if atName ts then
    let _ ← name
  else if atBrace ts then
    let _ ← body g
  else
    failAt (← herePos)
      (.remark (if ts.isEmpty then "unexpected end of input" else "unexpected token"))

/-- An argument between angle brackets, as it was read. -/
structure Argument where
  lifetime : Bool
  tokens : List TokenTree
  comma : List TokenTree

/-- Arguments in the order they are written in: lifetimes first. A comma is put in where the new
order needs one. -/
def arrange (arguments : List Argument) : List TokenTree :=
  let lifetimes := arguments.filter (·.lifetime)
  let others := arguments.filter (!·.lifetime)
  let start := (lifetimes.flatMap fun a => a.tokens ++ a.comma,
    lifetimes.getLast?.all fun a => !a.comma.isEmpty)
  (others.foldl (fun (acc, parted) a =>
    let gap := if parted then [] else [.leaf .first (.punct ',' false)]
    (acc ++ gap ++ a.tokens ++ a.comma, !a.comma.isEmpty)) start).1

section

variable (g : Readers)

/-- Angle brackets with arguments. -/
def angleArguments : Reader Unit := do
  let _ ← op? "::"
  op "<"
  let (found, taken) ← recorded <| loop ([] : List Argument) fun acc => do
    if atOp ">" (← rest) then return (false, acc)
    let (isLifetime, tokens) ← recorded g.argument
    if atOp ">" (← rest) then return (false, ⟨isLifetime, tokens, []⟩ :: acc)
    let ((), comma) ← recorded (op ",")
    return (true, ⟨isLifetime, tokens, comma⟩ :: acc)
  modify fun s => { s with read := (arrange found.reverse).reverse ++ s.read.drop taken.length }
  op ">"

/-- A segment of a path, and whether it has arguments. Inside expressions a double colon must stand
before the arguments. -/
def segment (inExpr : Bool) : Reader (String × Position × Bool) := do
  let ts ← rest
  if ["super", "self", "crate", "try"].any (atKeyword · ts) then
    let (word, pos) ← anyWord
    return (word, pos, false)
  let (word, pos) ← nameOr ["Self"]
  let ts ← rest
  let bare := !inExpr && atOp "<" ts && !atOp "<=" ts && !atOp "<<=" ts
  if bare || (atOp "::" ts && atOp "<" (behind (behind ts))) then
    angleArguments g
    return (word, pos, true)
  else return (word, pos, false)

/-- The segments of a path behind its first. -/
def moreSegments (inExpr : Bool) : Reader (List (String × Position × Bool)) :=
  whileAt (fun ts => atOp "::" ts && !atParen (behind (behind ts))) do
    op "::"
    segment g inExpr

def shapeOf (leadingColon qualified : Bool) (segments : List (String × Position × Bool)) :
    PathShape where
  path := ⟨leadingColon, segments.map (·.1), segments.head?.elim 0 (·.2.1.line)⟩
  plain := segments.all (!·.2.2)
  lastPlain := segments.getLast?.all (!·.2.2)
  qualified := qualified

def path (inExpr : Bool) : Reader PathShape := do
  let leadingColon ← op? "::"
  let first ← segment g inExpr
  return shapeOf leadingColon false (first :: (← moreSegments g inExpr))

/-- A path that may begin with a type in angle brackets, maybe seen as a trait. -/
def qualifiedPath (inExpr : Bool) : Reader PathShape := do
  if atOp "<" (← rest) then
    op "<"
    let _ ← g.type
    if ← keyword? "as" then
      let _ ← path g false
    op ">"
    op "::"
    let first ← segment g inExpr
    let more ← whileAt (atOp "::") do
      op "::"
      segment g inExpr
    return shapeOf false true (first :: more)
  else path g inExpr

inductive BoundShape
  | trait
  | lifetime
  | capture
  deriving DecidableEq

/-- The type behind an arrow, if there is one. -/
def returnType (allowPlus : Bool) : Reader Unit := do
  if ← op? "->" then
    let _ ← g (.type allowPlus)

/-- Arguments in parentheses, as callable traits have them. -/
def parenArguments : Reader Unit := do
  let _ ← parens (commaList g.type)
  returnType g false

/-- The lifetimes and parameters that a `use` bound names. -/
def capturedParameters : Reader Unit := do
  keyword "use"
  op "<"
  loop () fun _ => do
    let ts ← rest
    if atLifetime ts then lifetime
    else if atName ts || atKeyword "Self" ts then
      let _ ← nameOr ["Self"]
    else if atOp ">" ts then return (false, ())
    else failExpected ["lifetime", "identifier", tick ">"]
    let ts ← rest
    if atOp "," ts then
      op ","
      return (true, ())
    else if atOp ">" ts then return (false, ())
    else failExpected [tick ",", tick ">"]
  op ">"

/-- A binder, if one stands here. -/
def binder? : Reader Bool := do
  if atKeyword "for" (← rest) then
    g.binder
    return true
  else return false

/-- A trait with its modifiers. Only where `allowConst` holds may it be marked constant. -/
def traitBound (allowConst : Bool) : Reader Unit := do
  let quantified ← binder? g
  let pos ← herePos
  if atBracket (← rest) then
    brackets (keyword "const")
    if !allowConst then failAt pos (.remark "`[const]` is not allowed here")
  else if ← keyword? "const" then
    if !allowConst then failAt pos (.remark "`const` is not allowed here")
  let questionPos ← herePos
  let relaxed ← op? "?"
  let quantified ← if !quantified && relaxed then binder? g else pure quantified
  let shape ← path g false
  let ts ← rest
  if shape.lastPlain && (atParen ts || (atOp "::" ts && atParen (behind (behind ts)))) then
    let _ ← op? "::"
    parenArguments g
  if quantified && relaxed then
    failAt questionPos
      (.remark "`for<...>` binder not allowed with `?` trait polarity modifier")

def bound (allowCapture allowConst : Bool) : Reader BoundShape := do
  let ts ← rest
  if atLifetime ts then
    lifetime
    return .lifetime
  else if atKeyword "use" ts then
    let pos ← herePos
    capturedParameters
    if allowCapture then return .capture
    else failAt pos (.remark "`use<...>` precise capturing syntax is not allowed here")
  else if atParen ts then
    parens (traitBound g allowConst)
    return .trait
  else
    traitBound g allowConst
    return .trait

/-- Bounds joined by plus signs, with whether a plus sign ends them. -/
def bounds (allowPlus allowCapture allowConst : Bool) : Reader (List BoundShape × Bool) := do
  let (found, trailing) ← loop (([] : List BoundShape), false) fun (acc, _) => do
    let shape ← bound g allowCapture allowConst
    let acc := shape :: acc
    if !(allowPlus && atOp "+" (← rest)) then return (false, (acc, false))
    op "+"
    let ts ← rest
    let more := atWord ts || atOp "::" ts || atOp "?" ts || atLifetime ts || atParen ts ||
      (allowConst && (atBracket ts || atKeyword "const" ts))
    return (more, (acc, !more))
  return (found.reverse, trailing)

/-- Bounds joined by plus signs, one at least of them a trait. -/
def objectBounds (start : Position) (allowPlus : Bool) : Reader (List BoundShape × Bool) := do
  let found ← bounds g allowPlus false false
  if found.1.contains .trait then return found
  else failAt start (.remark "at least one trait is required for an object type")

/-- An argument between angle brackets: a lifetime, a value, a type, or a name with its type, value
or bounds. -/
def argument : Reader Bool := do
  let ts ← rest
  if atLifetime ts && !atOp "+" (behind ts) then
    lifetime
    return true
  if atLiteral ts || atBrace ts then
    constArgument g
    return false
  match ← g.type with
  | .path shape =>
    if shape.isSingle then
      if ← op? "=" then
        let ts ← rest
        if atLiteral ts || atBrace ts then constArgument g
        else
          let _ ← g.type
      else if ← op? ":" then
        summands (fun ts => atOp "," ts || atOp ">" ts) (bound g false true)
    return false
  | _ => return false

/-- A lifetime and the lifetimes that bound it. -/
def lifetimeParameter : Reader Unit := do
  lifetime
  if ← op? ":" then
    summands (fun ts => ts.isEmpty || atOp "," ts || atOp ">" ts) lifetime

def typeParameter : Reader Unit := do
  let _ ← name
  if ← op? ":" then
    summands (fun ts => ts.isEmpty || atOp "," ts || atOp ">" ts || atOp "=" ts)
      (bound g false true)
  if ← op? "=" then
    let _ ← g.type

def constParameter : Reader Unit := do
  keyword "const"
  let _ ← name
  op ":"
  let _ ← g.type
  if ← op? "=" then constArgument g

/-- A parameter of a binder. -/
def boundParameter : Reader Unit := do
  let _ ← outerAttributes g
  let ts ← rest
  if atName ts then typeParameter g
  else if atLifetime ts then lifetimeParameter
  else if atKeyword "const" ts then constParameter g
  else failExpected ["identifier", "lifetime", tick "const"]

/-- The parameters that a type or trait is quantified over. -/
def binder : Reader Unit := do
  keyword "for"
  op "<"
  let _ ← separated "," (atOp ">") (boundParameter g)
  op ">"

/-- The parameters of an item, where an underscore may stand for a type. -/
def parameter : Reader Unit := do
  let _ ← outerAttributes g
  let ts ← rest
  if atLifetime ts then lifetimeParameter
  else if atName ts then typeParameter g
  else if atKeyword "const" ts then constParameter g
  else if atKeyword "_" ts then
    let _ ← anyWord
  else failExpected ["lifetime", "identifier", tick "const"]

/-- Gives whether there are angle brackets at all. -/
def parameters : Reader Bool := do
  if atOp "<" (← rest) then
    op "<"
    let _ ← separated "," (atOp ">") (parameter g)
    op ">"
    return true
  else return false

/-- Angle brackets ahead hold parameters rather than the type that a path begins with. -/
def atParameters (ts : List TokenTree) : Bool :=
  let second := behind ts
  let third := behind second
  atOp "<" ts &&
    (atOp ">" second || atOp "#" second || atKeyword "const" second ||
      ((atLifetime second || atName second) &&
        (atOp ">" third || atOp "," third || (atOp ":" third && !atOp "::" third) ||
          atOp "=" third)))

/-- Where a list of conditions ends. -/
def atConditionEnd (ts : List TokenTree) : Bool :=
  ts.isEmpty || atBrace ts || atOp "," ts || atOp ";" ts || (atOp ":" ts && !atOp "::" ts) ||
    atOp "=" ts

def condition : Reader Unit := do
  let ts ← rest
  if atLifetime ts && atOp ":" (behind ts) then
    lifetime
    op ":"
    summands (fun ts => atConditionEnd ts || atOp ":" ts) lifetime
  else
    let _ ← binder? g
    let _ ← g.type
    op ":"
    summands atConditionEnd (bound g false true)

def whereClause : Reader Unit := do
  keyword "where"
  if atParameters (← rest) then
    fail (.remark "generic parameters on `where` clauses are reserved for future use")
  loop () fun _ => do
    if atConditionEnd (← rest) then return (false, ())
    condition g
    return (← op? ",", ())

/-- Gives whether conditions stand here. -/
def whereClause? : Reader Bool := do
  if atKeyword "where" (← rest) then
    whereClause g
    return true
  else return false

/-- The calling convention of a function. -/
def callingConvention? : Reader Bool := do
  if ← keyword? "extern" then
    if atText (← rest) then
      let _ ← literal
    return true
  else return false

/-- What a function type says of one argument: attributes, maybe a name, and a type. A receiver may
stand first. -/
def functionTypeArgument (first : Bool) : Reader Unit := do
  let ts ← rest
  if first && atKeyword "mut" ts && atKeyword "self" (behind ts) then
    asWritten do
      keyword "mut"
      let ts ← rest
      if atOp ":" (behind ts) && !atOp "::" (behind ts) then
        let _ ← anyWord
        op ":"
        let _ ← g.type
      else keyword "self"
  else
    let named := atName ts || atKeyword "_" ts || (first && atKeyword "self" ts)
    if named && atOp ":" (behind ts) && !atOp "::" (behind ts) then
      let _ ← anyWord
      op ":"
    let _ ← g.type

/-- The arguments of a function type. Dots may end them, with or without a name. -/
def functionTypeArguments : Reader Unit := do
  let _ ← loop true fun first => do
    if ← atEnd then return (false, first)
    let _ ← outerAttributes g
    let ts ← rest
    let second := behind ts
    if atOp "..." ts then
      op "..."
      let _ ← op? ","
      return (false, first)
    else if (atName ts || atKeyword "_" ts) && atOp ":" second && atOp "..." (behind second) then
      let _ ← anyWord
      op ":"
      op "..."
      let _ ← op? ","
      return (false, first)
    else
      functionTypeArgument g first
      if ← atEnd then return (false, first)
      op ","
      return (true, false)

def functionType : Reader Unit := do
  let _ ← binder? g
  let _ ← keyword? "unsafe"
  let _ ← callingConvention?
  keyword "fn"
  parens (functionTypeArguments g)
  returnType g false

/-- Traits that follow a first one, each behind a plus sign. -/
def moreBounds : Reader Unit :=
  loop () fun _ => do
    if ← op? "+" then
      let _ ← bound g false false
      return (true, ())
    else return (false, ())

/-- What stands in the parentheses of a type, and how the type may go on behind them. -/
inductive ParenShape
  | done
  /-- The first trait of a sum. -/
  | firstBound
  /-- A trait that lacks what it is for. -/
  | relaxedBound

def parenContent : Reader ParenShape := do
  let ts ← rest
  if ts.isEmpty then return .done
  if atLifetime ts then
    let _ ← objectBounds g (← herePos) true
    return .done
  if atOp "?" ts then
    traitBound g false
    return .relaxedBound
  let shape ← g.type
  if atOp "," (← rest) then
    op ","
    let _ ← commaList g.type
    return .done
  match shape with
  | .path path => return if path.qualified then .done else .firstBound
  | .singleBound => return .firstBound
  | .other => return .done

def parenType (allowPlus : Bool) : Reader TypeShape := do
  match ← parens (parenContent g) with
  | .done => return .other
  | .relaxedBound =>
    moreBounds g
    return .other
  | .firstBound =>
    if allowPlus && atOp "+" (← rest) then moreBounds g
    return .other

/-- What may begin a type, in the order in which it is asked for. -/
def typeChoices : List String :=
  [tick "for", "parentheses", tick "fn", tick "unsafe", tick "extern", "identifier", tick "::",
    tick "<", tick "dyn", "square brackets", tick "*", tick "&", tick "!", tick "impl", tick "_",
    "lifetime"]

/-- A type that begins with a path: the path itself, a call of a syntax extension, or the first
trait of a sum. -/
def pathType (allowPlus quantified : Bool) : Reader TypeShape := do
  let shape ← qualifiedPath g false
  if shape.qualified then return .path shape
  let ts ← rest
  if atOp "!" ts && !atOp "!=" ts && shape.plain then
    op "!"
    let _ ← anyGroup
    return .other
  if quantified || (allowPlus && atOp "+" ts) then
    let single ← loop true fun single => do
      if !(allowPlus && atOp "+" (← rest)) then return (false, single)
      op "+"
      let ts ← rest
      if atWord ts || atOp "::" ts || atOp "?" ts || atLifetime ts || atParen ts then
        let _ ← bound g false false
        return (true, false)
      else return (false, false)
    return if single then .singleBound else .other
  return .path shape

def typeBody (allowPlus quantified : Bool) : Reader TypeShape := do
  let ts ← rest
  if atParen ts then parenType g allowPlus
  else if atKeyword "fn" ts || atKeyword "unsafe" ts || atKeyword "extern" ts then
    functionType g
    return .other
  else if atPathWord ts || atOp "::" ts || atOp "<" ts then pathType g allowPlus quantified
  else if atKeyword "dyn" ts then
    let pos ← herePos
    if atOp "*" (behind ts) then
      asWritten do
        keyword "dyn"
        op "*"
        let _ ← objectBounds g pos allowPlus
    else
      keyword "dyn"
      let _ ← objectBounds g pos allowPlus
    return .other
  else if atBracket ts then
    brackets do
      let _ ← g.type
      if ← op? ";" then
        let _ ← g.expr
    return .other
  else if atOp "*" ts then
    op "*"
    let ts ← rest
    if atKeyword "const" ts then keyword "const"
    else if atKeyword "mut" ts then keyword "mut"
    else failExpected [tick "const", tick "mut"]
    let _ ← g.typeNoPlus
    return .other
  else if atOp "&" ts then
    op "&"
    let _ ← lifetime?
    let _ ← keyword? "mut"
    let _ ← g.typeNoPlus
    return .other
  else if atOp "!" ts && !atOp "=" ts then
    op "!"
    return .other
  else if atKeyword "impl" ts then
    let pos ← herePos
    keyword "impl"
    let (found, _) ← bounds g allowPlus true true
    if !found.contains .trait then
      failAt pos (.remark "at least one trait must be specified")
    return .other
  else if atKeyword "_" ts then
    keyword "_"
    return .other
  else if atLifetime ts then
    let (found, trailing) ← objectBounds g (← herePos) true
    return if found.length = 1 && !trailing then .singleBound else .other
  else failExpected typeChoices

def typeRule (allowPlus : Bool) : Reader TypeShape := do
  if atKeyword "for" (← rest) then
    g.binder
    let ts ← rest
    let words := ["fn", "unsafe", "extern", "super", "self", "Self", "crate"]
    if !(atName ts || words.any (atKeyword · ts)) || atKeyword "dyn" ts then
      failExpected ("identifier" :: words.map tick)
    typeBody g allowPlus true
  else typeBody g allowPlus false

end

end MarkerIndex.Grammar
