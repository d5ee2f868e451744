import Courier.Decimal.Shortest
/-!
How a floating point number is laid out as text: its shortest digits, either in place or with an
exponent, as a style decides.
-/

namespace Courier.Decimal

structure Style where
  tie : Tie
  /-- Whether a number whose leading digit has this exponent is written without an exponent. -/
  positional : Int → Bool
  /-- Whether a whole number keeps `.0`. -/
  keepsPoint : Bool
  /-- Whether a positive exponent has a `+`. -/
  plus : Bool

namespace Style

/-- Scalars: in place from `1e-4` up to `1e16`, always with a decimal place. -/
def scalar : Style := ⟨.up, fun e => -4 ≤ e && e < 16, true, false⟩

/-- Parameters: always in place, whole numbers without a point. -/
def parameter : Style := ⟨.up, fun _ => true, false, false⟩

/-- JSON numbers: in place from `1e-5` up to `1e16`. -/
def json : Style := ⟨.even, fun e => -5 ≤ e && e < 16, true, true⟩

/-- JSON numbers of single precision: in place from `1e-6` up to `1e13`. -/
def jsonSingle : Style := ⟨.even, fun e => -6 ≤ e && e < 13, true, true⟩

end Style

def zeros (n : Nat) : String := String.ofList (List.replicate n '0')

/-- The digits with the point where the exponent says. -/
def Digits.inPlace (keepsPoint : Bool) (d : Digits) : String :=
  let text := d.digits.repr
  match d.exponent with
  | .ofNat k => text ++ zeros k ++ (if keepsPoint then ".0" else "")
  | .negSucc k =>
    let places := k + 1
    if places < text.length then
      String.ofList (text.toList.take (text.length - places)) ++ "."
        ++ String.ofList (text.toList.drop (text.length - places))
    else "0." ++ zeros (places - text.length) ++ text

def Digits.leading (d : Digits) : Int := d.exponent + Int.ofNat (d.digits.repr.length - 1)

/-- The digits with a point after the first and an exponent. -/
def Digits.withExponent (plus : Bool) (d : Digits) : String :=
  let sign := if plus && 0 ≤ d.leading then "+" else ""
  let mantissa := match d.digits.repr.toList with
    | c :: r@(_ :: _) => String.ofList (c :: '.' :: r)
    | cs => String.ofList cs
  mantissa ++ "e" ++ sign ++ toString d.leading

def Digits.render (s : Style) (d : Digits) : String :=
  if s.positional d.leading then d.inPlace s.keepsPoint else d.withExponent s.plus

def Binary.render (s : Style) (f : Format) : Binary → String
  | .nan => "NaN"
  | .infinite negative => (if negative then "-" else "") ++ "inf"
  | .finite negative x => (if negative then "-" else "") ++ (x.shortest f s.tie).render s

end Courier.Decimal
