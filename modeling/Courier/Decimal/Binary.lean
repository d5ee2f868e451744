/-!
Binary floating point numbers as exact naturals: a finite number is a significand times a power of
two, and every operation rounds the exact result once, to the nearest number and on a tie to the
even one.
-/

namespace Courier.Decimal

/-- A binary format: the digits of its significand, the exponent of its least positive number and
the greatest exponent of a finite number. -/
structure Format where
  bits : Nat
  least : Int
  greatest : Int
  deriving DecidableEq, Repr

def Format.double : Format := ⟨53, -1074, 971⟩

def Format.single : Format := ⟨24, -149, 104⟩

/-- The number `significand * 2 ^ exponent`. -/
structure Finite where
  significand : Nat
  exponent : Int
  deriving DecidableEq, Repr

inductive Binary where
  | nan
  | infinite (negative : Bool)
  | finite (negative : Bool) (magnitude : Finite)
  deriving DecidableEq, Repr

/-- The quotient `num / den` times `2 ^ power`, again as a quotient. -/
def scaled (num den : Nat) : Int → Nat × Nat
  | .ofNat k => (num * Nat.pow 2 k, den)
  | .negSucc k => (num, den * Nat.pow 2 (k + 1))

/-- The natural nearest to `num / den`, the even one of two. -/
def roundHalfEven (num den : Nat) : Nat :=
  let q := num / den
  let r := num % den
  if 2 * r < den then q
  else if den < 2 * r then q + 1
  else if q % 2 = 0 then q else q + 1

namespace Finite

def zero (f : Format) : Finite := ⟨0, f.least⟩

/-- The number of the format nearest to `num / den`, or nothing when that is beyond the greatest. -/
def round (f : Format) (num den : Nat) : Option Finite :=
  if num = 0 then some (zero f) else
    let size : Int := Int.ofNat num.log2 - Int.ofNat den.log2
    let low := max f.least (size - f.bits)
    let (n, d) := scaled num den (-low)
    let exponent := if Nat.pow 2 f.bits * d ≤ n then low + 1 else low
    let (n, d) := scaled num den (-exponent)
    let m := roundHalfEven n d
    let (m, exponent) := if m = Nat.pow 2 f.bits then (m / 2, exponent + 1) else (m, exponent)
    if f.greatest < exponent then none else some ⟨m, exponent⟩

/-- The value as a quotient of naturals. -/
def toQuotient (x : Finite) : Nat × Nat := scaled x.significand 1 x.exponent

def ofNat (f : Format) (n : Nat) : Option Finite := round f n 1

def mul (f : Format) (x y : Finite) : Option Finite :=
  let (n, d) := scaled (x.significand * y.significand) 1 (x.exponent + y.exponent)
  round f n d

def div (f : Format) (x y : Finite) : Option Finite :=
  let (n, d) := scaled x.significand y.significand (x.exponent - y.exponent)
  round f n d

/-- The number `digits * 10 ^ exponent`, rounded once. -/
def ofDecimal (f : Format) (digits : Nat) : Int → Option Finite
  | .ofNat k => round f (digits * Nat.pow 10 k) 1
  | .negSucc k => round f digits (Nat.pow 10 (k + 1))

/-- The same number in another format, rounded where that is coarser. -/
def convert (f : Format) (x : Finite) : Option Finite :=
  let (n, d) := x.toQuotient
  round f n d

end Finite

namespace Binary

/-- A magnitude beyond the greatest number is infinite. -/
def ofMagnitude (negative : Bool) : Option Finite → Binary
  | none => .infinite negative
  | some x => .finite negative x

def isFinite : Binary → Bool
  | .finite .. => true
  | _ => false

def convert (f : Format) : Binary → Binary
  | .finite negative x => ofMagnitude negative (x.convert f)
  | x => x

end Binary

end Courier.Decimal
