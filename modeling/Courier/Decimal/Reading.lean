import Courier.Decimal.Binary
/-!
Floating point numbers read from decimal text, rounded once to the nearest.
-/

namespace Courier.Decimal

def digitsValue (digits : List Char) : Nat :=
  digits.foldl (fun n c => 10 * n + (c.toNat - 48)) 0

/-- An optional sign, then the rest. -/
def signed : List Char → Bool × List Char
  | '-' :: rest => (true, rest)
  | '+' :: rest => (false, rest)
  | cs => (false, cs)

/-- The exponent after `e`, or zero if there is none. -/
def exponent? : List Char → Option Int
  | [] => some 0
  | c :: rest =>
    if c = 'e' ∨ c = 'E' then
      let (negative, digits) := signed rest
      if digits.isEmpty || !digits.all Char.isDigit then none
      else some (if negative then -(digitsValue digits : Int) else digitsValue digits)
    else none

/-- Past this many places every number is zero or beyond the greatest. -/
def farExponent : Int := 2000

/-- The magnitude `digits * 10 ^ exponent`; a far exponent is not worked out. -/
def magnitude (f : Format) (digits : Nat) (exponent : Int) : Option Finite :=
  let lead := exponent + Int.ofNat digits.repr.length
  if digits = 0 || lead < -farExponent then some (Finite.zero f)
  else if farExponent < lead then none
  else Finite.ofDecimal f digits exponent

/-- Reads digits with an optional point and exponent, or the name of a value that is not finite. -/
def Binary.ofText? (f : Format) (text : String) : Option Binary :=
  let (negative, cs) := signed text.toList
  let name := String.ofList (cs.map Char.toLower)
  if name = "nan" then some .nan
  else if name = "inf" ∨ name = "infinity" then some (.infinite negative)
  else
    let whole := cs.takeWhile Char.isDigit
    let rest := cs.dropWhile Char.isDigit
    let (places, rest) := match rest with
      | '.' :: rest => (rest.takeWhile Char.isDigit, rest.dropWhile Char.isDigit)
      | rest => ([], rest)
    if whole.isEmpty && places.isEmpty then none
    else (exponent? rest).map fun e =>
      Binary.ofMagnitude negative
        (magnitude f (digitsValue (whole ++ places)) (e - Int.ofNat places.length))

end Courier.Decimal
