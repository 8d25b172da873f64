import MarkerIndex.Grammar.Reader
import MarkerIndex.Source.Item
/-!
The parts of the grammar that contain one another. A rule gets the whole grammar as an argument and
calls it where a part occurs inside another, so that each rule is an ordinary function; the knot is
tied once, by counting how deep the calls go.
-/

namespace MarkerIndex.Grammar

/-- A path with what later rules ask about it. -/
structure PathShape where
  path : WrittenPath
  /-- No segment has arguments. -/
  plain : Bool
  /-- The last segment has no arguments. -/
  lastPlain : Bool
  /-- The path begins with a type in angle brackets. -/
  qualified : Bool

namespace PathShape

/-- One unqualified name, maybe with arguments in angle brackets. -/
def isSingle (p : PathShape) : Bool :=
  !p.qualified && !p.path.leadingColon && p.path.segments.length = 1

end PathShape

inductive TypeShape
  | path (shape : PathShape)
  /-- A sum of traits without a keyword, of one summand and no trailing plus sign. -/
  | singleBound
  | other

inductive PatternShape
  /-- Two dots alone. -/
  | dots
  /-- A range that lacks an end; the place is that of its dots. -/
  | openRange (pos : Position)
  | other

inductive ExprShape
  /-- An expression that ends a statement without a semicolon. -/
  | block
  /-- A call of a syntax extension, and whether its arguments stand in curly braces. -/
  | invocation (braced : Bool)
  | range
  /-- A comparison, which cannot be compared further. -/
  | comparison
  | other
  deriving DecidableEq

inductive Nonterminal
  | type (allowPlus : Bool)
  /-- An argument between angle brackets; the answer tells lifetimes apart. -/
  | argument
  /-- The parameters that a type or trait is quantified over. -/
  | binder
  | pattern
  /-- An expression; with `structs` a path before a curly brace is a structure value. -/
  | expr (structs : Bool)
  | unary (structs : Bool)
  /-- An expression at the place of a statement or match arm. -/
  | leadingExpr
  | statements
  /-- What follows the attributes of an item, which are given. -/
  | item (attributes : List Attribute)
  /-- One branch of an import; with `fromRoot` it may begin with a double colon. -/
  | useTree (fromRoot : Bool)

abbrev Nonterminal.Result : Nonterminal → Type
  | type _ => TypeShape
  | argument => Bool
  | binder => Unit
  | pattern => PatternShape
  | expr _ => ExprShape
  | unary _ => ExprShape
  | leadingExpr => ExprShape
  | statements => Unit
  | item _ => Item
  | useTree _ => Option UseTree

abbrev Readers := (part : Nonterminal) → Reader part.Result

namespace Readers

variable (g : Readers)

def type : Reader TypeShape := g (.type true)

/-- A type that a plus sign does not continue. -/
def typeNoPlus : Reader TypeShape := g (.type false)

def argument : Reader Bool := g .argument

def binder : Reader Unit := g .binder

def pattern : Reader PatternShape := g .pattern

def expr : Reader ExprShape := g (.expr true)

/-- An expression before a block, where a curly brace opens the block. -/
def condition : Reader ExprShape := g (.expr false)

def statements : Reader Unit := g .statements

end Readers

end MarkerIndex.Grammar
