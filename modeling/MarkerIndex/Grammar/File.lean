import MarkerIndex.Grammar.Item
import MarkerIndex.Source.Lexer
import MarkerIndex.Text.Blank
/-!
Reading whole texts: source files, paths, names and attributes. A text is accepted when the grammar
takes all of its tokens and no brackets inside it were left with unread ones.
-/

namespace MarkerIndex.Grammar

/-- Runs a reader over all of `ts`. Running out of tokens is reported at `stop`. -/
def readAll {α : Type} (reader : Readers → Reader α) (stop : Position) (ts : List TokenTree) :
    Except Failure α :=
  let grammar := ofDepth (8 * TokenTree.countAll ts + 16)
  match (reader grammar).run ⟨stop, none⟩ |>.run ⟨ts, [], none⟩ with
  | .error failure => .error failure
  | .ok (value, state) =>
    match state.leftover, state.rest with
    | some (pos, within), _ => .error ⟨pos, false, .leftOver within⟩
    | none, t :: _ => .error ⟨t.pos, false, .leftOver none⟩
    | none, [] => .ok value

/-- Runs a reader over a whole text. -/
def readText {α : Type} (reader : Readers → Reader α) (cs : List Char) : Except Failure α :=
  match TokenTree.ofText cs with
  | .error pos => .error ⟨pos, false, .noTokens⟩
  | .ok ts => readAll reader .first ts

/-- A first line that names an interpreter is no part of the source, unless it begins an attribute.
Its line break stays, so that lines keep their numbers. -/
def dropInterpreter (cs : List Char) : List Char :=
  match cs with
  | '#' :: '!' :: rest =>
    match Scan.skipSpace rest with
    | '[' :: _ => cs
    | _ => cs.dropWhile (· ≠ '\n')
  | _ => cs

def dropByteOrderMark : List Char → List Char
  | c :: rest => if c = TokenTree.byteOrderMark then rest else c :: rest
  | [] => []

def file (g : Readers) : Reader (List Item) := do
  let _ ← innerAttributes g
  items g

/-- The items of a source file. -/
def parseFile (text : String) : Except Failure (List Item) :=
  readText file (dropInterpreter (dropByteOrderMark text.toList))

/-- A path of which arguments are allowed by the grammar. -/
def parsePath (text : String) : Except Failure PathShape :=
  readText (path · false) text.toList

/-- The path that the argument of a call consists of. -/
def parsePathTokens (ts : List TokenTree) : Except Failure PathShape :=
  readAll (path · false) .first ts

/-- A single name that is no keyword. -/
def parseName (text : String) : Except Failure String :=
  readText (fun _ => do return (← name).1) text.toList

/-- Any number of outer attributes. -/
def parseAttributes (text : String) : Except Failure (List Attribute) :=
  readText outerAttributes text.toList

end MarkerIndex.Grammar
