import Courier.Text.Utf8
/-!
What can go wrong when JSON is read or written, and where.
-/

namespace Courier.Json

inductive Cause where
  | endInList
  | endInObject
  | endInString
  | endInValue
  | expectedColon
  | expectedListCommaOrEnd
  | expectedObjectCommaOrEnd
  | expectedIdentifier
  | expectedValue
  | invalidEscape
  | invalidNumber
  | numberOutOfRange
  | invalidCodePoint
  | controlCharacter
  | keyNotString
  | keyNotFinite
  | loneSurrogate
  | trailingComma
  | trailingCharacters
  | unexpectedEndOfEscape
  | tooDeep
  /-- A complaint of whoever takes or offers the data. -/
  | other (text : String)
  deriving DecidableEq, Repr

def Cause.message : Cause → String
  | .endInList => "EOF while parsing a list"
  | .endInObject => "EOF while parsing an object"
  | .endInString => "EOF while parsing a string"
  | .endInValue => "EOF while parsing a value"
  | .expectedColon => "expected `:`"
  | .expectedListCommaOrEnd => "expected `,` or `]`"
  | .expectedObjectCommaOrEnd => "expected `,` or `\x7d`"
  | .expectedIdentifier => "expected ident"
  | .expectedValue => "expected value"
  | .invalidEscape => "invalid escape"
  | .invalidNumber => "invalid number"
  | .numberOutOfRange => "number out of range"
  | .invalidCodePoint => "invalid unicode code point"
  | .controlCharacter => "control character (\\u0000-\\u001F) found while parsing a string"
  | .keyNotString => "key must be a string"
  | .keyNotFinite => "float key must be finite (got NaN or +/-inf)"
  | .loneSurrogate => "lone leading surrogate in hex escape"
  | .trailingComma => "trailing comma"
  | .trailingCharacters => "trailing characters"
  | .unexpectedEndOfEscape => "unexpected end of hex escape"
  | .tooDeep => "recursion limit exceeded"
  | .other text => text

/-- A line, counted from one, and a column, counted in bytes. -/
structure Position where
  line : Nat
  column : Nat
  deriving DecidableEq, Repr

/-- The position after the given bytes. -/
def Position.after (bytes : Bytes) : Position :=
  bytes.foldl (fun p b => if b = 10 then ⟨p.line + 1, 0⟩ else ⟨p.line, p.column + 1⟩) ⟨1, 0⟩

structure Error where
  cause : Cause
  place : Option Position := none
  deriving DecidableEq, Repr

def Error.message (e : Error) : String :=
  match e.place with
  | none => e.cause.message
  | some p => e.cause.message ++ s!" at line {p.line} column {p.column}"

/-- Splits `" column C"` off the end of reversed text, as the digits and what stands before. -/
def splitNumber (mark : String) (reversed : List Char) : Option (Nat × List Char) :=
  let digits := (reversed.takeWhile Char.isDigit).reverse
  let rest := reversed.dropWhile Char.isDigit
  let mark := mark.toList.reverse
  if digits.isEmpty || !mark.isPrefixOf rest then none
  else
    let n := digits.foldl (fun n c => 10 * n + (c.toNat - 48)) 0
    if n < 0x10000000000000000 then some (n, rest.drop mark.length) else none

/-- A complaint in words. One that ends in a position is taken to be about that position, and line
zero is no position. -/
def Error.ofText (text : String) : Error :=
  match splitNumber " column " text.toList.reverse with
  | none => ⟨.other text, none⟩
  | some (column, rest) =>
    match splitNumber " at line " rest with
    | none => ⟨.other text, none⟩
    | some (line, rest) =>
      let cause := Cause.other (String.ofList rest.reverse)
      if line = 0 then ⟨cause, none⟩ else ⟨cause, some ⟨line, column⟩⟩

end Courier.Json
