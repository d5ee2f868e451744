import Courier.Json.Number
/-!
JSON text read into documents.

A reader takes the bytes ahead of it and gives back what it read with the bytes that remain. Lists
and objects nest at most `depthLimit` deep, which bounds the recursion; a list or object is read
item by item, and each item takes at least one byte.
-/

namespace Courier.Json

abbrev Reader (α : Type) := Bytes → Except Fault (α × Bytes)

def isBlank (b : UInt8) : Bool := b == 32 || b == 10 || b == 9 || b == 13

def skipBlanks (rest : Bytes) : Bytes := rest.dropWhile isBlank

/-- Reads the rest of a word. -/
def word : Bytes → Reader Unit
  | [], rest => .ok ((), rest)
  | _ :: _, [] => fail .endInValue []
  | e :: expected, b :: rest => if b = e then word expected rest else fail .expectedIdentifier rest

def hexValue? (b : UInt8) : Option Nat :=
  if 48 ≤ b && b ≤ 57 then some (b.toNat - 48)
  else if 65 ≤ b && b ≤ 70 then some (b.toNat - 55)
  else if 97 ≤ b && b ≤ 102 then some (b.toNat - 87)
  else none

def hex4? (a b c d : UInt8) : Option Nat := do
  let a ← hexValue? a
  let b ← hexValue? b
  let c ← hexValue? c
  let d ← hexValue? d
  return ((a * 16 + b) * 16 + c) * 16 + d

def isLeading (unit : Nat) : Bool := 0xD800 ≤ unit && unit ≤ 0xDBFF

def isTrailing (unit : Nat) : Bool := 0xDC00 ≤ unit && unit ≤ 0xDFFF

/-- The byte that a one-letter escape stands for. -/
def simpleEscape? (b : UInt8) : Option UInt8 :=
  if b == 34 || b == 92 || b == 47 then some b
  else if b == 98 then some 8
  else if b == 102 then some 12
  else if b == 110 then some 10
  else if b == 114 then some 13
  else if b == 116 then some 9
  else none

def pushChar (code : Nat) (read : Bytes) : Bytes :=
  (String.utf8EncodeChar (Char.ofNat code)).reverse ++ read

/-- Reads a string after its opening quote; `read` holds its bytes so far, last first. -/
def stringBytes (read : Bytes) : Reader Bytes
  | [] => fail .endInString []
  | b :: rest =>
    if b = 34 then .ok (read.reverse, rest)
    else if b = 92 then
      match rest with
      | [] => fail .endInString []
      | e :: rest =>
        if e = 117 then
          match rest with
          | h1 :: h2 :: h3 :: h4 :: rest =>
            match hex4? h1 h2 h3 h4 with
            | none => fail .invalidEscape rest
            | some unit =>
              if isTrailing unit then fail .loneSurrogate rest
              else if isLeading unit then
                match rest with
                | [] => fail .endInString []
                | s :: rest =>
                  if s = 92 then
                    match rest with
                    | [] => fail .endInString []
                    | u :: rest =>
                      if u = 117 then
                        match rest with
                        | h1 :: h2 :: h3 :: h4 :: rest =>
                          match hex4? h1 h2 h3 h4 with
                          | none => fail .invalidEscape rest
                          | some second =>
                            if isTrailing second then
                              stringBytes (pushChar
                                ((unit - 0xD800) * 1024 + (second - 0xDC00) + 0x10000) read) rest
                            else fail .loneSurrogate rest
                        | _ => fail .endInString []
                      else fail .unexpectedEndOfEscape rest
                  else fail .unexpectedEndOfEscape rest
              else stringBytes (pushChar unit read) rest
          | _ => fail .endInString []
        else
          match simpleEscape? e with
          | some c => stringBytes (c :: read) rest
          | none => fail .invalidEscape rest
    else if b < 32 then fail .controlCharacter rest
    else stringBytes (b :: read) rest

/-- Reads a string after its opening quote. What is not UTF-8 is reported as far before the end of
the string as the bytes that it spells reach past the first bad one, so without escapes at that
byte. -/
def readString : Reader String := fun rest => do
  let (bytes, rest) ← stringBytes [] rest
  match Utf8.decode bytes with
  | .ok text => .ok (text, rest)
  | .error f => .error ⟨.invalidCodePoint, rest.length + (bytes.length - f.index)⟩

/-- Reads the items of a list after its opening bracket; there are fewer than `bound`. -/
def readItems {α : Type} (item : Reader α) : Nat → List α → Reader (List α)
  | 0, _, rest => failNext .endInList rest
  | bound + 1, done, rest =>
    match skipBlanks rest with
    | [] => failNext .endInList []
    | b :: rest =>
      if b = 93 then .ok (done.reverse, rest)
      else if done.isEmpty then do
        let (v, rest) ← item (b :: rest)
        readItems item bound (v :: done) rest
      else if b = 44 then
        match skipBlanks rest with
        | [] => failNext .endInValue []
        | b :: rest =>
          if b = 93 then failNext .trailingComma (b :: rest)
          else do
            let (v, rest) ← item (b :: rest)
            readItems item bound (v :: done) rest
      else failNext .expectedListCommaOrEnd (b :: rest)

/-- Reads a member from the opening quote of its name on. -/
def readMember {α : Type} (item : Reader α) : Reader (String × α) := fun rest =>
  match rest with
  | [] => failNext .endInValue []
  | q :: rest =>
    if q ≠ 34 then failNext .keyNotString (q :: rest) else do
      let (name, rest) ← readString rest
      match skipBlanks rest with
      | [] => failNext .endInObject []
      | c :: rest =>
        if c = 58 then do
          let (v, rest) ← item rest
          .ok ((name, v), rest)
        else failNext .expectedColon (c :: rest)

/-- Reads the members of an object after its opening brace; there are fewer than `bound`. -/
def readMembers {α : Type} (item : Reader α) : Nat → List (String × α) → Reader (List (String × α))
  | 0, _, rest => failNext .endInObject rest
  | bound + 1, done, rest =>
    match skipBlanks rest with
    | [] => failNext .endInObject []
    | b :: rest =>
      if b = 125 then .ok (done.reverse, rest)
      else if done.isEmpty then do
        let (m, rest) ← readMember item (b :: rest)
        readMembers item bound (m :: done) rest
      else if b = 44 then
        match skipBlanks rest with
        | [] => failNext .endInValue []
        | b :: rest =>
          if b = 125 then failNext .trailingComma (b :: rest)
          else do
            let (m, rest) ← readMember item (b :: rest)
            readMembers item bound (m :: done) rest
      else failNext .expectedObjectCommaOrEnd (b :: rest)

def readNumber (b : UInt8) (rest : Bytes) : Except Fault (Number × Bytes) :=
  if b = 45 then Number.read true rest else Number.read false (b :: rest)

/-- Reads a value; `nested` reads what a list or object holds, and is absent at the depth limit. -/
def valueWith (bound : Nat) (nested : Option (Reader Json)) : Reader Json := fun rest =>
  match skipBlanks rest with
  | [] => failNext .endInValue []
  | b :: rest =>
    if b = 110 then do
      let (_, rest) ← word [117, 108, 108] rest
      .ok (.null, rest)
    else if b = 116 then do
      let (_, rest) ← word [114, 117, 101] rest
      .ok (.bool true, rest)
    else if b = 102 then do
      let (_, rest) ← word [97, 108, 115, 101] rest
      .ok (.bool false, rest)
    else if b = 45 || isDigit b then do
      let (n, rest) ← readNumber b rest
      .ok (.number n, rest)
    else if b = 34 then do
      let (text, rest) ← readString rest
      .ok (.string text, rest)
    else if b = 91 then
      match nested with
      | none => failNext .tooDeep (b :: rest)
      | some item => do
        let (items, rest) ← readItems item bound [] rest
        .ok (.array items, rest)
    else if b = 123 then
      match nested with
      | none => failNext .tooDeep (b :: rest)
      | some item => do
        let (members, rest) ← readMembers item bound [] rest
        .ok (ofMembers members, rest)
    else failNext .expectedValue (b :: rest)

/-- Reads a value whose lists and objects nest at most `depth` deep. -/
def readValue (bound : Nat) : Nat → Reader Json
  | 0 => valueWith bound none
  | depth + 1 => valueWith bound (some (readValue bound depth))

def depthLimit : Nat := 127

/-- Runs a reader over a whole text, after which only blanks may stand. -/
def readAll {α : Type} (reader : Reader α) (text : Bytes) : Except Error α :=
  let result := do
    let (v, rest) ← reader text
    match skipBlanks rest with
    | [] => .ok v
    | rest => failNext .trailingCharacters rest
  result.mapError fun f => ⟨f.cause, some (Position.after (text.take (text.length - f.left)))⟩

/-- Reads a JSON document. -/
def parse (text : Bytes) : Except Error Json :=
  readAll (readValue (text.length + 1) depthLimit) text

end Courier.Json
