import Courier.Text.Hex
/-!
Percent encoding. A byte that may stand for itself is kept and every other byte becomes a `%` and
two upper-case digits, so the encoded text is ASCII and the bytes can be read back from it.
-/

namespace Courier.Percent

def isAlphanumeric (b : UInt8) : Bool :=
  (48 ≤ b && b ≤ 57) || (65 ≤ b && b ≤ 90) || (97 ≤ b && b ≤ 122)

/-- The bytes that need no escape in a path or a query: letters, digits, `-`, `.`, `_` and `~`. -/
def isUnreserved (b : UInt8) : Bool :=
  isAlphanumeric b || b == 45 || b == 46 || b == 95 || b == 126

def encodeByte (keep : UInt8 → Bool) (b : UInt8) : List Char :=
  if keep b then [Char.ofNat b.toNat] else '%' :: Hex.upper b

def encodeBytes (keep : UInt8 → Bool) (bytes : Bytes) : List Char :=
  bytes.flatMap (encodeByte keep)

/-- A text with every byte of its UTF-8 form escaped, except those that `keep` admits. -/
def encode (keep : UInt8 → Bool) (text : String) : String :=
  String.ofList (encodeBytes keep (Utf8.encode text))

def decodeFrom (read : Bytes) : List Char → Option Bytes
  | [] => some read.reverse
  | c :: rest =>
    if c = '%' then
      match rest with
      | a :: b :: rest =>
        match Hex.digit? a, Hex.digit? b with
        | some x, some y => decodeFrom (UInt8.ofNat (16 * x + y) :: read) rest
        | _, _ => none
      | _ => none
    else decodeFrom ((String.utf8EncodeChar c).reverse ++ read) rest

/-- The bytes that an encoded text stands for; `none` if a `%` is not followed by two digits. -/
def decodeBytes? (text : List Char) : Option Bytes :=
  decodeFrom [] text

def decode? (text : String) : Option String :=
  (decodeBytes? text.toList).bind Utf8.decode?

end Courier.Percent
