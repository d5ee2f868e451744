import Courier.Json.Basic
import Courier.Json.Error
/-!
Numbers in JSON text.

Digits are gathered in a 64-bit significand and a power of ten. Digits that no longer fit are
dropped, and the double is the significand times or divided by the power of ten, each step rounded.
-/

namespace Courier.Json

/-- A fault and how many bytes stand after the place it is reported at. -/
structure Fault where
  cause : Cause
  left : Nat
  deriving DecidableEq, Repr

/-- Reports a fault after the bytes read so far. -/
def fail {α : Type} (cause : Cause) (rest : Bytes) : Except Fault α :=
  .error ⟨cause, rest.length⟩

/-- Reports a fault at the next byte, or at the end if there is none. -/
def failNext {α : Type} (cause : Cause) (rest : Bytes) : Except Fault α :=
  .error ⟨cause, rest.length - 1⟩

def isDigit (b : UInt8) : Bool := 48 ≤ b && b ≤ 57

def digitValue (b : UInt8) : Nat := b.toNat - 48

def isExponentMark (b : UInt8) : Bool := b == 101 || b == 69

namespace Number

def wordLimit : Nat := 0x10000000000000000

/-- The greatest power of ten that is a double. -/
def greatestPower : Nat := 308

def powerOfTen (k : Nat) : Decimal.Finite :=
  (Decimal.Finite.ofDecimal .double 1 k).getD (Decimal.Finite.zero .double)

/-- Multiplies by a power of ten. Far below the range the division takes several steps. -/
def timesPower (x : Decimal.Finite) : Int → Option Decimal.Finite
  | .ofNat k =>
    if k ≤ greatestPower then x.mul .double (powerOfTen k)
    else if x.significand = 0 then some x else none
  | .negSucc k => divide (k + 1) x (k + 1)
where
  /-- Divides by `10 ^ k`, at most `10 ^ 308` at a time. -/
  divide : Nat → Decimal.Finite → Nat → Option Decimal.Finite
    | 0, x, _ => some x
    | steps + 1, x, k =>
      if k ≤ greatestPower then x.div .double (powerOfTen k)
      else if x.significand = 0 then some x
      else (x.div .double (powerOfTen greatestPower)).bind (divide steps · (k - greatestPower))

/-- The double with this significand and power of ten. -/
def assemble (negative : Bool) (significand : Nat) (exponent : Int) (rest : Bytes) :
    Except Fault (Number × Bytes) :=
  match (Decimal.Finite.ofNat .double significand).bind (timesPower · exponent) with
  | some x => .ok (.double negative x, rest)
  | none => fail .numberOutOfRange rest

def exponentLimit : Nat := 0x7FFFFFFF

/-- The digits of an exponent after its first. Past the 32-bit range the sign alone decides. -/
def exponentDigits (negative : Bool) (significand : Nat) (start : Int) (falls : Bool) (e : Nat) :
    Bytes → Except Fault (Number × Bytes)
  | [] => assemble negative significand (if falls then start - e else start + e) []
  | b :: rest =>
    if isDigit b then
      let e := 10 * e + digitValue b
      if e ≤ exponentLimit then exponentDigits negative significand start falls e rest
      else if significand ≠ 0 && !falls then fail .numberOutOfRange rest
      else .ok (.double negative (Decimal.Finite.zero .double), rest.dropWhile isDigit)
    else assemble negative significand (if falls then start - e else start + e) (b :: rest)

/-- What follows the exponent mark. -/
def exponent (negative : Bool) (significand : Nat) (start : Int) (rest : Bytes) :
    Except Fault (Number × Bytes) :=
  let (falls, rest) := match rest with
    | 43 :: rest => (false, rest)
    | 45 :: rest => (true, rest)
    | rest => (false, rest)
  match rest with
  | [] => fail .endInValue []
  | b :: rest =>
    if isDigit b then exponentDigits negative significand start falls (digitValue b) rest
    else fail .invalidNumber rest

/-- The end of a number whose digits are all read. -/
def finish (negative : Bool) (significand : Nat) (power : Int) :
    Bytes → Except Fault (Number × Bytes)
  | b :: rest =>
    if isExponentMark b then exponent negative significand power rest
    else assemble negative significand power (b :: rest)
  | [] => assemble negative significand power []

/-- Decimal places. Those past the width of the significand are skipped. -/
def places (negative : Bool) (significand : Nat) (power : Int) (seen : Bool) :
    Bytes → Except Fault (Number × Bytes)
  | b :: rest =>
    if isDigit b then
      let next := 10 * significand + digitValue b
      if next < wordLimit then places negative next (power - 1) true rest
      else finish negative significand power (rest.dropWhile isDigit)
    else if seen then finish negative significand power (b :: rest)
    else failNext .invalidNumber (b :: rest)
  | [] => if seen then finish negative significand power [] else failNext .endInValue []

/-- Whole digits past the width of the significand only raise the power of ten. -/
def longWhole (negative : Bool) (significand : Nat) (power : Int) :
    Bytes → Except Fault (Number × Bytes)
  | b :: rest =>
    if isDigit b then longWhole negative significand (power + 1) rest
    else if b = 46 then places negative significand power false rest
    else finish negative significand power (b :: rest)
  | [] => finish negative significand power []

/-- A whole number that fits in 64 bits stays one; minus zero is a double. -/
def whole (negative : Bool) (significand : Nat) (rest : Bytes) : Except Fault (Number × Bytes) :=
  if !negative then .ok (.natural significand, rest)
  else if significand = 0 || 0x8000000000000000 < significand then assemble true significand 0 rest
  else .ok (.negative significand, rest)

/-- Whole digits after the first. -/
def digits (negative : Bool) (significand : Nat) : Bytes → Except Fault (Number × Bytes)
  | b :: rest =>
    if isDigit b then
      let next := 10 * significand + digitValue b
      if next < wordLimit then digits negative next rest
      else longWhole negative significand 1 rest
    else if b = 46 then places negative significand 0 false rest
    else if isExponentMark b then exponent negative significand 0 rest
    else whole negative significand (b :: rest)
  | [] => whole negative significand []

/-- Reads a number after its sign. A leading zero stands alone. -/
def read (negative : Bool) : Bytes → Except Fault (Number × Bytes)
  | [] => fail .endInValue []
  | b :: rest =>
    if b = 48 then
      match rest with
      | c :: rest =>
        if isDigit c then failNext .invalidNumber (c :: rest) else digits negative 0 (c :: rest)
      | [] => digits negative 0 []
    else if isDigit b then digits negative (digitValue b) rest
    else fail .invalidNumber rest

end Number

end Courier.Json
