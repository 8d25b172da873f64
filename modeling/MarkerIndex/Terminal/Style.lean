/-!
Text for a terminal. A style is a list of display codes. Styled text starts with them and ends with
a reset; where the text itself resets the display, the style is taken up again.
-/

namespace MarkerIndex.Terminal

structure Style where
  codes : List Nat
  deriving DecidableEq

namespace Style

/-- Bold and underlined. -/
def heading : Style := ⟨[1, 4]⟩

/-- Bold and green. -/
def name : Style := ⟨[1, 32]⟩

def faint : Style := ⟨[2]⟩

/-- Cyan. -/
def present : Style := ⟨[36]⟩

/-- Yellow. -/
def absent : Style := ⟨[33]⟩

/-- The text that puts display codes into effect. -/
def escape (codes : List Nat) : String :=
  "\x1b[" ++ String.intercalate ";" (codes.map toString) ++ "m"

def reset : String := escape [0]

def start (s : Style) : String := escape s.codes

/-- A text in a style, or as it is where there are no colours. -/
def paint (s : Style) (colors : Bool) (text : String) : String :=
  if colors then s.start ++ String.intercalate (reset ++ s.start) (text.splitOn reset) ++ reset
  else text

end Style

/-- Whether to use colours. Forcing them wins over refusing them, and both over what the output
is. -/
def usesColors (environment : List (String × String)) (isTerminal : Bool) : Bool :=
  let isOn (name : String) : Option Bool := (environment.lookup name).map (· ≠ "0")
  if isOn "CLICOLOR_FORCE" = some true then true
  else if (isOn "NO_COLOR").isSome then false
  else (isOn "CLICOLOR").getD true && isTerminal

end MarkerIndex.Terminal
