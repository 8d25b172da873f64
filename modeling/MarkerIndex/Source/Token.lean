import MarkerIndex.Source.Position
/-!
Token trees: the leaves and bracketed groups that a source text consists of, each with its place.
An operator of several characters is a run of punctuation leaves, where each leaf but the last is
joined to the next. `TokenTree.renderAll` writes trees on one line.
-/

namespace MarkerIndex

inductive Delimiter
  | parenthesis
  | brace
  | bracket
  deriving DecidableEq

inductive Leaf
  /-- A name or keyword. A raw name keeps its mark `r#`. -/
  | word (text : String)
  | punct (char : Char) (joint : Bool)
  | literal (text : String)
  deriving DecidableEq

inductive TokenTree
  | leaf (pos : Position) (leaf : Leaf)
  | group (delimiter : Delimiter) (start close : Position) (content : List TokenTree)

namespace TokenTree

def pos : TokenTree → Position
  | leaf pos _ => pos
  | group _ start _ _ => start

mutual

/-- The number of leaves and groups in a tree. -/
def count : TokenTree → Nat
  | leaf _ _ => 1
  | group _ _ _ content => countAll content + 1

def countAll : List TokenTree → Nat
  | [] => 0
  | t :: ts => t.count + countAll ts

end

/-- Whether the next tree is written without a space before it. -/
def joinsNext : TokenTree → Bool
  | leaf _ (.punct _ joint) => joint
  | _ => false

mutual

def render : TokenTree → String
  | leaf _ (.word text) => text
  | leaf _ (.punct char _) => String.singleton char
  | leaf _ (.literal text) => text
  | group .parenthesis _ _ content => "(" ++ renderAll content ++ ")"
  | group .bracket _ _ content => "[" ++ renderAll content ++ "]"
  | group .brace _ _ [] => "\x7b \x7d"
  | group .brace _ _ (t :: ts) => "\x7b " ++ renderAll (t :: ts) ++ " \x7d"

/-- Trees on one line, parted by single spaces except behind joined punctuation. -/
def renderAll : List TokenTree → String
  | [] => ""
  | [t] => t.render
  | t :: u :: ts => t.render ++ (if t.joinsNext then "" else " ") ++ renderAll (u :: ts)

end

end TokenTree

end MarkerIndex
