import MarkerIndex.Toml.Digits
/-!
Decimal fractions, exactly as they are written.
-/

namespace MarkerIndex.Toml

/-- Digits, and the power of ten that they are multiplied by. -/
structure Decimal where
  digits : List Char
  exponent : Int

namespace Decimal

def dropZeros (cs : List Char) : List Char := cs.dropWhile (· = '0')

/-- The positional notation of a number, with one digit at least on each side of the point. -/
def text (d : Decimal) : String :=
  let significant := dropZeros d.digits
  let trimmed := (dropZeros significant.reverse).reverse
  let exponent := d.exponent + (significant.length - trimmed.length : Nat)
  if trimmed = [] then "0.0"
  else if 0 ≤ exponent then
    String.ofList (trimmed ++ List.replicate exponent.toNat '0') ++ ".0"
  else
    let places := exponent.natAbs
    let padded := List.replicate (places + 1 - trimmed.length) '0' ++ trimmed
    String.ofList (padded.take (padded.length - places)) ++ "." ++
      String.ofList (padded.drop (padded.length - places))

/-- The number of digits in front of the point. -/
def magnitude (d : Decimal) : Int :=
  (dropZeros d.digits).length + d.exponent

/-- Splits digits with a point and an exponent. -/
def ofChars (cs : List Char) : Decimal :=
  let whole := cs.takeWhile Char.isDigit
  let rest := cs.drop whole.length
  let (fraction, rest) := match rest with
    | '.' :: rest => (rest.takeWhile Char.isDigit, rest.dropWhile Char.isDigit)
    | _ => ([], rest)
  let exponent : Int := match rest with
    | _ :: '-' :: digits => -(digitsValue 10 digits : Nat)
    | _ :: '+' :: digits => digitsValue 10 digits
    | _ :: digits => digitsValue 10 digits
    | [] => 0
  ⟨whole ++ fraction, exponent - (fraction.length : Nat)⟩

end Decimal

end MarkerIndex.Toml
