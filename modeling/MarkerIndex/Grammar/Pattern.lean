import MarkerIndex.Grammar.Type
/-!
Patterns.
-/

namespace MarkerIndex.Grammar

section

variable (g : Readers)

/-- Alternatives, with or without a vertical bar in front. The shape is that of a single one. -/
def patternAlternatives : Reader PatternShape := do
  let leading ← op? "|"
  let first ← g.pattern
  let more ← whileAt (fun ts => atOp "|" ts && !atOp "||" ts && !atOp "|=" ts) do
    op "|"
    g.pattern
  return if leading || !more.isEmpty then .other else first

inductive Member
  | named
  | numbered
  deriving DecidableEq

/-- The name or number of a field. -/
def member : Reader Member := do
  let ts ← rest
  if atName ts then
    let _ ← name
    return .named
  match literalAhead ts with
  | some (.integer "", _, _) =>
    let _ ← literal
    return .numbered
  | some (.integer _, _, _) => failAt (← herePos) (.remark "expected unsuffixed integer")
  | _ => failExpected ["identifier or integer"]

inductive RangeLimits
  | halfOpen
  | closed
  deriving DecidableEq

/-- The dots of a range. Three dots pass for a closed one only in patterns. -/
def rangeLimits (inPattern : Bool) : Reader RangeLimits := do
  let ts ← rest
  if atOp "..=" ts then
    op "..="
    return .closed
  else if atOp "..." ts then
    if inPattern then
      op "..."
      return .closed
    else failExpected [tick "..", tick "..="]
  else if atOp ".." ts then
    op ".."
    return .halfOpen
  else failExpected [tick ".."]

/-- A literal, path or constant block that bounds a range pattern. Gives whether there is one. -/
def rangeBound : Reader Bool := do
  let ts ← rest
  if ts.isEmpty || atOp "|" ts || atOp "=" ts || (atOp ":" ts && !atOp "::" ts) || atOp "," ts ||
      atOp ";" ts || atKeyword "if" ts then return false
  if atLiteral ts then
    let _ ← literal
    return true
  else if atPathWord ts || atOp "::" ts || atOp "<" ts then
    let _ ← qualifiedPath g true
    return true
  else if atKeyword "const" ts then
    keyword "const"
    let _ ← body g
    return true
  else failExpected ["literal", "identifier", tick "::", tick "<", tick "self", tick "Self",
    tick "super", tick "crate", tick "const"]

/-- What follows the lower bound of a range pattern. -/
def rangeTail : Reader PatternShape := do
  let pos ← herePos
  let limits ← rangeLimits true
  if ← rangeBound g then return .other
  match limits with
  | .halfOpen => return .openRange pos
  | .closed => fail (.expected ["range upper bound"])

/-- One field of a structure pattern behind its attributes. -/
def fieldPattern : Reader Unit := do
  let boxed ← keyword? "box"
  let byReference ← keyword? "ref"
  let mutable ← keyword? "mut"
  if boxed || byReference || mutable then
    let _ ← name
  else
    let field ← member
    if atOp ":" (← rest) || field = .numbered then
      op ":"
      let _ ← patternAlternatives g

def structurePattern : Reader Unit :=
  braces <| loop () fun _ => do
    if ← atEnd then return (false, ())
    let _ ← outerAttributes g
    if ← op? ".." then return (false, ())
    fieldPattern g
    if ← atEnd then return (false, ())
    op ","
    return (true, ())

/-- A pattern that begins with a path. -/
def pathPattern : Reader PatternShape := do
  let shape ← qualifiedPath g true
  let ts ← rest
  if !shape.qualified && atOp "!" ts && !atOp "!=" ts && shape.plain then
    op "!"
    let _ ← anyGroup
    return .other
  else if atBrace ts then
    structurePattern g
    return .other
  else if atParen ts then
    let _ ← parens (commaList (patternAlternatives g))
    return .other
  else if atOp ".." ts then rangeTail g
  else return .other

def namePattern : Reader Unit := do
  let _ ← keyword? "ref"
  let _ ← keyword? "mut"
  let _ ← nameOr ["self"]
  if ← op? "@" then
    let _ ← g.pattern

/-- Patterns in square brackets, where an open range must stand in parentheses. -/
def slicePattern : Reader Unit := do
  let _ ← brackets <| commaList do
    match ← patternAlternatives g with
    | .openRange pos =>
      failAt pos
        (.remark "range pattern is not allowed unparenthesized inside slice pattern")
    | _ => return ()

def patternRule : Reader PatternShape := do
  let ts ← rest
  let second := behind ts
  if (atName ts && (atOp "::" second || atOp "!" second || atBrace second || atParen second ||
        atOp ".." second)) ||
      (atKeyword "self" ts && atOp "::" second) || atOp "::" ts || atOp "<" ts ||
      ["Self", "super", "crate"].any (atKeyword · ts) then
    pathPattern g
  else if atKeyword "_" ts then
    keyword "_"
    return .other
  else if atKeyword "box" ts then
    keyword "box"
    let _ ← g.pattern
    return .other
  else if atOp "-" ts || atLiteral ts || atKeyword "const" ts then
    let _ ← rangeBound g
    if atOp ".." (← rest) then rangeTail g else return .other
  else if atKeyword "ref" ts || atKeyword "mut" ts || atKeyword "self" ts || atName ts then
    namePattern g
    return .other
  else if atOp "&" ts then
    op "&"
    let _ ← keyword? "mut"
    let _ ← g.pattern
    return .other
  else if atParen ts then
    let _ ← parens (commaList (patternAlternatives g))
    return .other
  else if atBracket ts then
    slicePattern g
    return .other
  else if atOp ".." ts && !atOp "..." ts then
    let pos ← herePos
    let limits ← rangeLimits false
    if ← rangeBound g then return .openRange pos
    match limits with
    | .halfOpen => return .dots
    | .closed => fail (.expected ["range upper bound"])
  else failExpected ["identifier", tick "::", tick "<", tick "_", "literal", tick "const",
    tick "ref", tick "mut", tick "&", "parentheses", "square brackets", tick "..", tick "const"]

end

end MarkerIndex.Grammar
