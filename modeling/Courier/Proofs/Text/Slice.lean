import Courier.Proofs.Text.Utf8
/-!
Texts that are searched and cut by offsets in their UTF-8 form.

A cut has to stay within the text and may not go through a character: `slice?` fails where it would.
Offsets that come from a search for an ASCII character are where the character begins, and one further
on is where it ends, so such cuts do not fail (`offset?_found`, `slice?_between`).
-/

namespace Courier.Utf8

/-- Whether a text can be cut at the offset: at its start, at its end and where a character begins. -/
def isBoundary (bytes : Bytes) (offset : Nat) : Bool :=
  offset == 0 || offset == bytes.length || bytes[offset]?.any fun b => !isTail b

/-- The part from one offset up to another, if both are in the text and no character is cut. -/
def slice? (bytes : Bytes) (start stop : Nat) : Option Bytes :=
  if start ≤ stop ∧ stop ≤ bytes.length ∧ isBoundary bytes start ∧ isBoundary bytes stop then
    some ((bytes.take stop).drop start)
  else none

/-- The offset at which an ASCII character comes first. -/
def offset? (c : Char) (bytes : Bytes) : Option Nat := bytes.idxOf? (UInt8.ofNat c.toNat)

/-- The UTF-8 form of characters one after the other. -/
def spell (cs : List Char) : Bytes := encode (String.ofList cs)

theorem spell_append (a b : List Char) : spell (a ++ b) = spell a ++ spell b := by
  rw [spell, String.ofList_append, encode_append]
  rfl

theorem spell_cons (c : Char) (cs : List Char) :
    spell (c :: cs) = String.utf8EncodeChar c ++ spell cs := by
  simp [spell, encode]

/-- The first byte of a character is no tail. -/
theorem encodeChar_head (c : Char) :
    ∃ b rest, String.utf8EncodeChar c = b :: rest ∧ isTail b = false := by
  have no {n : Nat} (hi : n < 256) (other : n < 0x80 ∨ 0xC0 ≤ n) :
      isTail (UInt8.ofNat n) = false := by
    simp only [isTail, Bool.and_eq_false_iff, decide_eq_false_iff_not, UInt8.le_iff_toNat_le,
      toNat_ofNat hi]
    obtain low | high := other
    · left
      exact Nat.not_le.mpr low
    · right
      exact Nat.not_le.mpr high
  fun_cases String.utf8EncodeChar with
  | case1 v h => exact ⟨_, _, rfl, no (by omega) (by omega)⟩
  | case2 v => exact ⟨_, _, rfl, no (by omega) (by omega)⟩
  | case3 v => exact ⟨_, _, rfl, no (by omega) (by omega)⟩
  | case4 v => exact ⟨_, _, rfl, no (by omega) (by omega)⟩

theorem isBoundary_spell (a b : List Char) :
    isBoundary (spell (a ++ b)) (spell a).length = true := by
  cases b with
  | nil => simp [isBoundary]
  | cons c b =>
    obtain ⟨first, rest, whole, lead⟩ := encodeChar_head c
    simp [isBoundary, spell_append, spell_cons, whole, lead]

/-- A part between characters is cut out whole. -/
theorem slice?_between (a m b : List Char) :
    slice? (spell (a ++ m ++ b)) (spell a).length (spell (a ++ m)).length = some (spell m) := by
  have within : (spell a).length ≤ (spell (a ++ m)).length ∧
      (spell (a ++ m)).length ≤ (spell (a ++ m ++ b)).length := by
    simp only [spell_append, List.length_append]
    omega
  have start : isBoundary (spell (a ++ m ++ b)) (spell a).length = true := by
    rw [List.append_assoc]
    exact isBoundary_spell a (m ++ b)
  rw [slice?, if_pos ⟨within.1, within.2, start, isBoundary_spell (a ++ m) b⟩]
  rw [spell_append (a ++ m) b, List.take_left, spell_append a m, List.drop_left]

section ascii

variable {c : Char}

theorem encodeChar_ascii (ascii : c.toNat < 0x80) :
    String.utf8EncodeChar c = [UInt8.ofNat c.toNat] := by
  fun_cases String.utf8EncodeChar with
  | case1 v h => rfl
  | case2 v h => exact absurd (Nat.le_of_lt_succ ascii) h
  | case3 v h => exact absurd (Nat.le_of_lt_succ ascii) h
  | case4 v h => exact absurd (Nat.le_of_lt_succ ascii) h

theorem length_spell_concat (ascii : c.toNat < 0x80) (cs : List Char) :
    (spell (cs ++ [c])).length = (spell cs).length + 1 := by
  have one : spell [c] = [UInt8.ofNat c.toNat] := by
    rw [spell_cons, encodeChar_ascii ascii]
    rfl
  rw [spell_append, one, List.length_append, List.length_singleton]

theorem byte_not_mem_spell (ascii : c.toNat < 0x80) {cs : List Char} (other : c ∉ cs) :
    UInt8.ofNat c.toNat ∉ spell cs := by
  have same : (UInt8.ofNat c.toNat).toNat = c.toNat := toNat_ofNat (by omega)
  have small : UInt8.ofNat c.toNat < 0x80 := by
    rw [UInt8.lt_iff_toNat_lt, same]
    exact ascii
  have absent : Char.ofNat (UInt8.ofNat c.toNat).toNat ∉ (String.ofList cs).toList := by
    rwa [same, Char.ofNat_toNat, String.toList_ofList]
  exact not_mem_encode small absent

theorem offset?_none (ascii : c.toNat < 0x80) {cs : List Char} (other : c ∉ cs) :
    offset? c (spell cs) = none :=
  List.idxOf?_eq_none_iff.mpr (byte_not_mem_spell ascii other)

/-- A character is found behind all that comes before it. -/
theorem offset?_found (ascii : c.toNat < 0x80) {a : List Char} (first : c ∉ a) (b : List Char) :
    offset? c (spell (a ++ c :: b)) = some (spell a).length := by
  have absent := byte_not_mem_spell ascii first
  rw [offset?, spell_append, spell_cons, encodeChar_ascii ascii, List.singleton_append]
  have unseen : (spell a).findIdx? (· == UInt8.ofNat c.toNat) = none :=
    List.idxOf?_eq_none_iff.mpr absent
  simp [List.idxOf?, List.findIdx?_append, List.findIdx?_cons, unseen]

end ascii

end Courier.Utf8
