import MarkerIndex.Source.Token
/-!
Why a source text is refused: a place and a problem. `Failure.message` is the wording.
-/

namespace MarkerIndex.Grammar

inductive Problem
  /-- None of the listed tokens stands here. -/
  | expected (choices : List String)
  /-- A keyword stands where a name must. -/
  | keywordAsName (keyword : String)
  /-- Something is left over inside brackets, or behind a whole text. -/
  | leftOver (within : Option Delimiter)
  /-- The text does not consist of tokens. -/
  | noTokens
  | remark (text : String)
  deriving DecidableEq

structure Failure where
  pos : Position
  /-- The tokens ran out. -/
  ended : Bool
  problem : Problem
  deriving DecidableEq

/-- A list of choices in words. -/
def choiceText : List String → String
  | [] => "unexpected token"
  | [a] => "expected " ++ a
  | [a, b] => "expected " ++ a ++ " or " ++ b
  | choices => "expected one of: " ++ String.intercalate ", " choices

def Problem.text : Problem → String
  | .expected choices => choiceText choices
  | .keywordAsName keyword => "expected identifier, found keyword `" ++ keyword ++ "`"
  | .leftOver none => "unexpected token"
  | .leftOver (some .parenthesis) => "unexpected token, expected `)`"
  | .leftOver (some .brace) => "unexpected token, expected `\x7d`"
  | .leftOver (some .bracket) => "unexpected token, expected `]`"
  | .noTokens => "cannot parse string into token stream"
  | .remark text => text

def Failure.message (f : Failure) : String :=
  (if f.ended then "unexpected end of input, " else "") ++ f.problem.text

end MarkerIndex.Grammar
