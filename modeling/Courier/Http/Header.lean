import Courier.Text.Hex
import Courier.Text.Quoted
/-!
Header fields. A name is a token compared without regard to case and kept in lower case. A header
list holds its fields in order and may hold several values of one name.
-/

namespace Courier

structure HeaderName where
  text : String
  deriving DecidableEq, Repr

structure HeaderValue where
  bytes : Bytes
  deriving DecidableEq, Repr

/-- Why a field cannot be sent. -/
inductive HeaderFault where
  | name (text : String)
  | value (text : String)
  deriving DecidableEq, Repr

namespace HeaderFault

def summary : HeaderFault → String
  | .name _ => "invalid header name"
  | .value _ => "invalid header value"

def message : HeaderFault → String
  | .name text => "invalid header name: " ++ text
  | .value text => "invalid header value: " ++ text

end HeaderFault

namespace HeaderName

def contentType : HeaderName := ⟨"content-type"⟩

def isTokenChar (c : Char) : Bool :=
  c.isAlphanum || "!#$%&'*+-.^_`|~".toList.contains c

def greatestLength : Nat := 65535

def ofText? (text : String) : Option HeaderName :=
  let cs := text.toList
  if !cs.isEmpty && cs.all isTokenChar && text.utf8ByteSize ≤ greatestLength then
    some ⟨text.toLower⟩
  else none

end HeaderName

namespace HeaderValue

/-- A value holds no control characters but the tab. -/
def isValueByte (b : UInt8) : Bool := (32 ≤ b && b != 127) || b == 9

def ofBytes? (bytes : Bytes) : Option HeaderValue :=
  if bytes.all isValueByte then some ⟨bytes⟩ else none

def ofText? (text : String) : Option HeaderValue := ofBytes? (Utf8.encode text)

def describeByte (b : UInt8) : List Char :=
  if b = 34 then ['\\', '"']
  else if (32 ≤ b && b ≤ 126) || b == 9 then [Char.ofNat b.toNat]
  else '\\' :: 'x' :: Hex.lower b

def describe (v : HeaderValue) : String :=
  String.ofList ('"' :: v.bytes.flatMap describeByte ++ ['"'])

end HeaderValue

/-- A field from its texts; a bad name is noticed before a bad value. -/
def readField (name value : String) : Except HeaderFault (HeaderName × HeaderValue) :=
  match HeaderName.ofText? name with
  | none => .error (.name name)
  | some n =>
    match HeaderValue.ofText? value with
    | none => .error (.value value)
    | some v => .ok (n, v)

structure Headers where
  fields : List (HeaderName × HeaderValue)
  deriving DecidableEq, Repr

namespace Headers

def empty : Headers := ⟨[]⟩

/-- The values of a name, in order. -/
def values (h : Headers) (name : HeaderName) : List HeaderValue :=
  (h.fields.filter (·.1 = name)).map (·.2)

def names (h : Headers) : List HeaderName := (h.fields.map (·.1)).eraseDups

/-- Puts these values in place of all of the name, where its first one stood or else at the end. -/
def setAllIn (name : HeaderName) (vs : List HeaderValue) :
    List (HeaderName × HeaderValue) → List (HeaderName × HeaderValue)
  | [] => vs.map (name, ·)
  | f :: rest =>
    if f.1 = name then vs.map (name, ·) ++ rest.filter (·.1 ≠ name)
    else f :: setAllIn name vs rest

def setAll (h : Headers) (name : HeaderName) (vs : List HeaderValue) : Headers :=
  ⟨setAllIn name vs h.fields⟩

/-- Makes this the only value of the name. -/
def insert (h : Headers) (name : HeaderName) (v : HeaderValue) : Headers := h.setAll name [v]

/-- Adds a value beside those the name has. -/
def append (h : Headers) (name : HeaderName) (v : HeaderValue) : Headers :=
  ⟨h.fields ++ [(name, v)]⟩

def erase (h : Headers) (name : HeaderName) : Headers :=
  ⟨h.fields.filter (·.1 ≠ name)⟩

/-- Lays another list over this one: every name of the other takes the values it has there. -/
def extend (h top : Headers) : Headers :=
  top.names.foldl (fun h name => h.setAll name (top.values name)) h

theorem values_pairs_self (name : HeaderName) (vs : List HeaderValue) :
    ((vs.map (name, ·)).filter (·.1 = name)).map (·.2) = vs := by
  induction vs with
  | nil => rfl
  | cons v vs ih => simpa using ih

theorem values_pairs_of_ne {name other : HeaderName} (vs : List HeaderValue) (h : other ≠ name) :
    ((vs.map (name, ·)).filter (·.1 = other)).map (·.2) = [] := by
  simp [h.symm]

theorem values_setAllIn_self (name : HeaderName) (vs : List HeaderValue)
    (fields : List (HeaderName × HeaderValue)) :
    Headers.values ⟨setAllIn name vs fields⟩ name = vs := by
  induction fields with
  | nil => exact values_pairs_self name vs
  | cons f rest ih =>
    by_cases h : f.1 = name
    · have none : (rest.filter (·.1 ≠ name)).filter (·.1 = name) = [] := by
        simp [List.filter_filter]
      simp only [setAllIn, h, if_true, values, List.filter_append, none, List.append_nil]
      exact values_pairs_self name vs
    · simpa [setAllIn, values, h] using ih

theorem values_setAllIn_of_ne {name other : HeaderName} (vs : List HeaderValue)
    (fields : List (HeaderName × HeaderValue)) (h : other ≠ name) :
    Headers.values ⟨setAllIn name vs fields⟩ other = Headers.values ⟨fields⟩ other := by
  induction fields with
  | nil => exact values_pairs_of_ne vs h
  | cons f rest ih =>
    by_cases hf : f.1 = name
    · have kept : (rest.filter (·.1 ≠ name)).filter (·.1 = other) = rest.filter (·.1 = other) := by
        rw [List.filter_filter]
        apply List.filter_congr
        intro g _
        by_cases hg : g.1 = other <;> simp [hg, h]
      have first : f.1 ≠ other := fun e => h (e ▸ hf)
      simp only [setAllIn, hf, if_true, values, List.filter_append, kept, List.map_append,
        values_pairs_of_ne vs h, List.nil_append]
      simp [first]
    · simp only [setAllIn, hf, if_false]
      simp only [values] at ih ⊢
      by_cases hfo : f.1 = other <;> simp [hfo, ih]

@[simp] theorem values_insert_self (h : Headers) (name : HeaderName) (v : HeaderValue) :
    (h.insert name v).values name = [v] :=
  values_setAllIn_self name [v] h.fields

theorem values_insert_of_ne (h : Headers) {name other : HeaderName} (v : HeaderValue)
    (ne : other ≠ name) : (h.insert name v).values other = h.values other :=
  values_setAllIn_of_ne [v] h.fields ne

@[simp] theorem values_erase_self (h : Headers) (name : HeaderName) :
    (h.erase name).values name = [] := by
  simp [erase, values, List.filter_filter]

@[simp] theorem values_append_self (h : Headers) (name : HeaderName) (v : HeaderValue) :
    (h.append name v).values name = h.values name ++ [v] := by
  simp [append, values]

def describe (h : Headers) : String :=
  "\x7b" ++ String.intercalate ", "
    (h.fields.map fun f => "\"" ++ f.1.text ++ "\": " ++ f.2.describe) ++ "\x7d"

end Headers

end Courier
