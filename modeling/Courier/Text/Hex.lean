import Courier.Text.Utf8
/-!
Bytes as pairs of hexadecimal digits.
-/

namespace Courier.Hex

def upperDigit (n : Nat) : Char :=
  if n < 10 then Char.ofNat (48 + n) else Char.ofNat (55 + n)

def lowerDigit (n : Nat) : Char :=
  if n < 10 then Char.ofNat (48 + n) else Char.ofNat (87 + n)

/-- The value of a hexadecimal digit of either case. -/
def digit? (c : Char) : Option Nat :=
  if '0' ≤ c ∧ c ≤ '9' then some (c.toNat - 48)
  else if 'a' ≤ c ∧ c ≤ 'f' then some (c.toNat - 87)
  else if 'A' ≤ c ∧ c ≤ 'F' then some (c.toNat - 55)
  else none

def upper (b : UInt8) : List Char :=
  [upperDigit (b.toNat / 16), upperDigit (b.toNat % 16)]

def lower (b : UInt8) : List Char :=
  [lowerDigit (b.toNat / 16), lowerDigit (b.toNat % 16)]

/-- The lower-case digits of a run of bytes. -/
def encode (bytes : Bytes) : String :=
  String.ofList (bytes.flatMap lower)

def decodeFrom (read : Bytes) : List Char → Option Bytes
  | [] => some read.reverse
  | [_] => none
  | a :: b :: rest =>
    match digit? a, digit? b with
    | some x, some y => decodeFrom (UInt8.ofNat (16 * x + y) :: read) rest
    | _, _ => none

def decode? (text : String) : Option Bytes :=
  decodeFrom [] text.toList

end Courier.Hex
