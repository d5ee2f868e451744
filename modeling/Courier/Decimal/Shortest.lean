import Courier.Decimal.Binary
/-!
The shortest decimal of a floating point number: the fewest digits that read back as the number,
and of those the nearest to it.
-/

namespace Courier.Decimal

/-- Which of two equally near digit strings is taken. -/
inductive Tie where
  | up
  | even
  deriving DecidableEq, Repr

/-- The number `digits * 10 ^ exponent`. -/
structure Digits where
  digits : Nat
  exponent : Int
  deriving DecidableEq, Repr

/-- The reals that round to a number, as quarters of its last place: the interval from `low` to
`high` around `mid`, each times `2 ^ exponent`, with its ends if `closed`. -/
structure Interval where
  low : Nat
  mid : Nat
  high : Nat
  exponent : Int
  closed : Bool

/-- The gap below a power of two is half as wide, except at the bottom of the range. -/
def Finite.interval (f : Format) (x : Finite) : Interval where
  low := if x.significand = Nat.pow 2 (f.bits - 1) ∧ f.least < x.exponent then 4 * x.significand - 1
    else 4 * x.significand - 2
  mid := 4 * x.significand
  high := 4 * x.significand + 2
  exponent := x.exponent - 2
  closed := x.significand % 2 = 0

/-- The quotient `n * 2 ^ two / 10 ^ ten` of naturals. -/
def onGrid (n : Nat) (two ten : Int) : Nat × Nat :=
  let (num, den) := scaled n 1 two
  match ten with
  | .ofNat k => (num, den * Nat.pow 10 k)
  | .negSucc k => (num * Nat.pow 10 (k + 1), den)

namespace Interval

/-- Whether `c * 10 ^ ten` lies in the interval. -/
def contains (i : Interval) (ten : Int) (c : Nat) : Bool :=
  let (l, dl) := onGrid i.low i.exponent ten
  let (h, dh) := onGrid i.high i.exponent ten
  if i.closed then l ≤ c * dl && c * dh ≤ h else l < c * dl && c * dh < h

/-- The multiple of `10 ^ ten` in the interval that is nearest to its middle, if there is one. -/
def nearest? (i : Interval) (tie : Tie) (ten : Int) : Option Nat :=
  let (n, d) := onGrid i.mid i.exponent ten
  let below := n / d
  let above := below + 1
  match i.contains ten below, i.contains ten above with
  | true, false => some below
  | false, true => some above
  | false, false => none
  | true, true =>
    let r := n % d
    if 2 * r < d then some below
    else if d < 2 * r then some above
    else match tie with
      | .up => some above
      | .even => if below % 2 = 0 then some below else some above

end Interval

/-- Whether `10 ^ ten` is at most `n * 2 ^ two`. -/
def powerAtMost (n : Nat) (two ten : Int) : Bool :=
  let (num, den) := onGrid n two ten
  den ≤ num

/-- The exponent of the leading decimal digit of a positive number. -/
def Finite.leadingExponent (x : Finite) : Int :=
  let size := Int.ofNat x.significand.log2 + x.exponent
  let guess := (size * 30103).fdiv 100000
  if powerAtMost x.significand x.exponent (guess + 1) then guess + 1
  else if powerAtMost x.significand x.exponent guess then guess
  else guess - 1

/-- Drops trailing zeros, of which there are at most `bound`. -/
def Digits.trim : Nat → Digits → Digits
  | 0, d => d
  | bound + 1, d =>
    if d.digits % 10 = 0 ∧ d.digits ≠ 0 then trim bound ⟨d.digits / 10, d.exponent + 1⟩ else d

/-- As many digits as a number of either format can need. -/
def mostDigits : Nat := 17

def Finite.shortest (f : Format) (tie : Tie) (x : Finite) : Digits :=
  if x.significand = 0 then ⟨0, 0⟩ else
    let lead := x.leadingExponent
    let i := x.interval f
    let found := (List.range mostDigits).findSome? fun more =>
      let ten := lead - Int.ofNat more
      (i.nearest? tie ten).map fun c => (⟨c, ten⟩ : Digits)
    ((found.getD ⟨0, 0⟩).trim (mostDigits + 1))

end Courier.Decimal
