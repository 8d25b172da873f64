import MarkerIndex.Error
/-!
File name patterns. A question mark stands for one character, an asterisk for any number of them,
slashes included, and two asterisks, which must be a whole component, for any number of components.
Brackets hold the characters that may stand in one place, or behind an exclamation mark those that
may not.
-/

namespace MarkerIndex

/-- Characters from one to another, both included. -/
structure CharRange where
  first : Char
  last : Char
  deriving DecidableEq

inductive PatternToken
  | char (c : Char)
  | anyChar
  | anySequence
  | anyComponents
  | within (ranges : List CharRange)
  | except (ranges : List CharRange)
  deriving DecidableEq

structure Pattern where
  tokens : List PatternToken
  deriving DecidableEq

namespace Pattern

def badWildcards : String := "wildcards are either regular `*` or recursive `**`"

def badComponents : String := "recursive wildcards must form a single path component"

def badRange : String := "invalid range pattern"

/-- What stands between brackets, as ranges. A hyphen between two characters makes one of them. -/
def rangesOf : List Char → List CharRange
  | a :: '-' :: b :: rest => ⟨a, b⟩ :: rangesOf rest
  | a :: rest => ⟨a, a⟩ :: rangesOf rest
  | [] => []

/-- The brackets that a pattern goes on with behind the opening one. At least one character stands
in them, and a closing bracket that comes first is one. -/
def brackets? (cs : List Char) : Option (PatternToken × List Char) :=
  let (negated, body) := match cs with
    | '!' :: body => (true, body)
    | body => (false, body)
  match body with
  | [] => none
  | first :: rest =>
    let inside := rest.takeWhile (· ≠ ']')
    match rest.drop inside.length with
    | [] => none
    | _ :: after =>
      let ranges := rangesOf (first :: inside)
      some (if negated then .except ranges else .within ranges, after)

/-- Reads the tokens of a pattern from a place on. `previous` is the character in front of it. -/
def read (place : Nat) (previous : Option Char) :
    List Char → Except PatternError (List PatternToken)
  | [] => .ok []
  | '*' :: '*' :: rest =>
    if rest.head? = some '*' then .error ⟨place + 2, badWildcards⟩
    else if previous.isSome && previous ≠ some '/' then .error ⟨place - 1, badComponents⟩
    else match rest with
      | [] => .ok [.anyComponents]
      | next :: rest =>
        if next = '/' then (read (place + 3) (some '/') rest).map (.anyComponents :: ·)
        else .error ⟨place + 2, badComponents⟩
  | c :: rest =>
    if c = '*' then (read (place + 1) (some c) rest).map (.anySequence :: ·)
    else if c = '?' then (read (place + 1) (some c) rest).map (.anyChar :: ·)
    else if c = '[' then
      match brackets? rest with
      | none => .error ⟨place, badRange⟩
      | some (token, after) =>
        if after.length < rest.length then
          (read (place + (rest.length - after.length) + 1) (some ']') after).map (token :: ·)
        else .error ⟨place, badRange⟩
    else (read (place + 1) (some c) rest).map (.char c :: ·)
termination_by cs => cs.length

def ofText (s : String) : Except PatternError Pattern :=
  (read 0 none s.toList).map .mk

def inRanges (ranges : List CharRange) (c : Char) : Bool :=
  ranges.any fun r => r.first ≤ c && c ≤ r.last

/-- Whether a token stands for a character. -/
def accepts (token : PatternToken) (c : Char) : Bool :=
  match token with
  | .char d => c = d
  | .anyChar => true
  | .within ranges => inRanges ranges c
  | .except ranges => !inRanges ranges c
  | .anySequence => false
  | .anyComponents => false

/-- The rests of a text that are left when some of its first characters are taken away. -/
def rests : List Char → List (List Char)
  | [] => []
  | _ :: cs => cs :: rests cs

/-- The rests of a text behind its slashes, and the empty rest of a text that is not empty. -/
def restsBehindSlashes : List Char → List (List Char)
  | [] => []
  | [_] => [[]]
  | c :: cs => if c = '/' then cs :: restsBehindSlashes cs else restsBehindSlashes cs

/-- Whether tokens stand for a whole text. -/
def matchTokens : List PatternToken → List Char → Bool
  | [], cs => cs.isEmpty
  | .anySequence :: tokens, cs => (cs :: rests cs).any (matchTokens tokens)
  | .anyComponents :: tokens, cs => (cs :: restsBehindSlashes cs).any (matchTokens tokens)
  | _ :: _, [] => false
  | token :: tokens, c :: cs => accepts token c && matchTokens tokens cs

def matches? (p : Pattern) (s : String) : Bool :=
  matchTokens p.tokens s.toList

end Pattern

end MarkerIndex
