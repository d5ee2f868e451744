import Courier.Text.Utf8
/-!
Texts survive their UTF-8 form: the strict reader accepts what is written and gives the text back.
-/

namespace Courier.Utf8

theorem toNat_ofNat {n : Nat} (h : n < 256) : (UInt8.ofNat n).toNat = n := by
  simp [Nat.mod_eq_of_lt h]

theorem ofNat_le_ofNat {m n : Nat} (hn : n < 256) (h : m ≤ n) : UInt8.ofNat m ≤ UInt8.ofNat n := by
  rw [UInt8.le_iff_toNat_le, toNat_ofNat hn, toNat_ofNat (by omega)]
  exact h

section

variable {index : Nat} {read : List Char} {a b c d : UInt8} {rest : Bytes}

theorem decodeFrom_one (ha : a < 0x80) :
    decodeFrom index read (a :: rest) =
      decodeFrom (index + 1) (Char.ofNat a.toNat :: read) rest := by
  rw [decodeFrom.eq_def]
  simp only [ha, ↓reduceIte]

theorem decodeFrom_two (lo : 0xC2 ≤ a) (hi : a ≤ 0xDF) (hb : isTail b = true) :
    decodeFrom index read (a :: b :: rest) = decodeFrom (index + 2) (char2 a b :: read) rest := by
  have h1 : ¬ a < 0x80 := by grind
  rw [decodeFrom.eq_def]
  simp only [h1, lo, hi, hb, ↓reduceIte, decide_true, Bool.and_self]

theorem decodeFrom_three (lo : 0xE0 ≤ a) (hi : a ≤ 0xEF) (hb : isSecondOfThree a b = true)
    (hc : isTail c = true) :
    decodeFrom index read (a :: b :: c :: rest) =
      decodeFrom (index + 3) (char3 a b c :: read) rest := by
  have h1 : ¬ a < 0x80 := by grind
  have h2 : ¬ a ≤ 0xDF := by grind
  rw [decodeFrom.eq_def]
  simp only [h1, h2, lo, hi, hb, hc, ↓reduceIte, decide_true, decide_false, Bool.and_self,
    Bool.and_false, Bool.false_eq_true]

theorem decodeFrom_four (lo : 0xF0 ≤ a) (hi : a ≤ 0xF4) (hb : isSecondOfFour a b = true)
    (hc : isTail c = true) (hd : isTail d = true) :
    decodeFrom index read (a :: b :: c :: d :: rest) =
      decodeFrom (index + 4) (char4 a b c d :: read) rest := by
  have h1 : ¬ a < 0x80 := by grind
  have h2 : ¬ a ≤ 0xDF := by grind
  have h3 : ¬ a ≤ 0xEF := by grind
  rw [decodeFrom.eq_def]
  simp only [h1, h2, h3, lo, hi, hb, hc, hd, ↓reduceIte, decide_true, decide_false,
    Bool.and_self, Bool.and_false, Bool.false_eq_true]

end

theorem isTail_ofNat {n : Nat} (lo : 0x80 ≤ n) (hi : n ≤ 0xBF) : isTail (UInt8.ofNat n) = true := by
  simp only [isTail, Bool.and_eq_true, decide_eq_true_eq]
  exact ⟨ofNat_le_ofNat (by omega) lo, ofNat_le_ofNat (by decide) hi⟩

/-- The second byte may be any tail, but after the lead `x` it starts at `low` and after the lead `y`
it ends at `high`. -/
theorem second_ofNat {m n x low y high : Nat} (hm : m < 256) (hx : x < 256) (hy : y < 256)
    (hlow : low < 256) (hhigh : high < 256) (lo : 0x80 ≤ n) (hi : n ≤ 0xBF)
    (first : m = x → low ≤ n) (last : m = y → n ≤ high) :
    (if UInt8.ofNat m = UInt8.ofNat x then
        decide (UInt8.ofNat low ≤ UInt8.ofNat n) && decide (UInt8.ofNat n ≤ 0xBF)
      else if UInt8.ofNat m = UInt8.ofNat y then
        decide (0x80 ≤ UInt8.ofNat n) && decide (UInt8.ofNat n ≤ UInt8.ofNat high)
      else isTail (UInt8.ofNat n)) = true := by
  have hn : n < 256 := by omega
  simp only [← UInt8.toNat_inj, toNat_ofNat hm, toNat_ofNat hx, toNat_ofNat hy]
  split
  · rename_i h
    simp only [Bool.and_eq_true, decide_eq_true_eq, UInt8.le_iff_toNat_le, toNat_ofNat hn,
      toNat_ofNat hlow]
    exact ⟨first h, hi⟩
  · split
    · rename_i h
      simp only [Bool.and_eq_true, decide_eq_true_eq, UInt8.le_iff_toNat_le, toNat_ofNat hn,
        toNat_ofNat hhigh]
      exact ⟨lo, last h⟩
    · exact isTail_ofNat lo hi

theorem isSecondOfThree_ofNat {m n : Nat} (hm : m < 256) (lo : 0x80 ≤ n) (hi : n ≤ 0xBF)
    (short : m = 0xE0 → 0xA0 ≤ n) (surrogate : m = 0xED → n ≤ 0x9F) :
    isSecondOfThree (UInt8.ofNat m) (UInt8.ofNat n) = true :=
  second_ofNat hm (by decide) (by decide) (by decide) (by decide) lo hi short surrogate

theorem isSecondOfFour_ofNat {m n : Nat} (hm : m < 256) (lo : 0x80 ≤ n) (hi : n ≤ 0xBF)
    (short : m = 0xF0 → 0x90 ≤ n) (past : m = 0xF4 → n ≤ 0x8F) :
    isSecondOfFour (UInt8.ofNat m) (UInt8.ofNat n) = true :=
  second_ofNat hm (by decide) (by decide) (by decide) (by decide) lo hi short past

/-- Reading one written character takes exactly its bytes. -/
theorem decodeFrom_encodeChar (index : Nat) (read : List Char) (c : Char) (rest : Bytes) :
    decodeFrom index read (String.utf8EncodeChar c ++ rest) =
      decodeFrom (index + c.utf8Size) (c :: read) rest := by
  have valid : c.val.toNat < 0xD800 ∨ 0xDFFF < c.val.toNat ∧ c.val.toNat < 0x110000 := c.valid
  have back : Char.ofNat c.val.toNat = c := Char.ofNat_toNat c
  rw [← String.length_utf8EncodeChar]
  fun_cases String.utf8EncodeChar with
  | case1 v h =>
    have ha : (UInt8.ofNat v).toNat = v := toNat_ofNat (by omega)
    have small : UInt8.ofNat v < 0x80 := by
      rw [UInt8.lt_iff_toNat_lt, ha]
      exact Nat.lt_succ_of_le h
    rw [List.singleton_append, decodeFrom_one small, ha, back]
    rfl
  | case2 v h h' =>
    have ha : (UInt8.ofNat (v / 64 % 32 + 0xc0)).toNat = v / 64 % 32 + 0xc0 :=
      toNat_ofNat (by omega)
    have hb : (UInt8.ofNat (v % 64 + 0x80)).toNat = v % 64 + 0x80 := toNat_ofNat (by omega)
    have spelled : (v / 64 % 32 + 0xc0) % 32 * 64 + (v % 64 + 0x80) % 64 = v := by omega
    have lo : 0xC2 ≤ UInt8.ofNat (v / 64 % 32 + 0xc0) :=
      ofNat_le_ofNat (m := 0xC2) (by omega) (by omega)
    have hi : UInt8.ofNat (v / 64 % 32 + 0xc0) ≤ 0xDF :=
      ofNat_le_ofNat (n := 0xDF) (by omega) (by omega)
    rw [List.cons_append, List.singleton_append,
      decodeFrom_two lo hi (isTail_ofNat (by omega) (by omega)), char2, low6, ha, hb, spelled, back]
    rfl
  | case3 v h h' h'' =>
    have ha : (UInt8.ofNat (v / 4096 % 16 + 0xe0)).toNat = v / 4096 % 16 + 0xe0 :=
      toNat_ofNat (by omega)
    have hb : (UInt8.ofNat (v / 64 % 64 + 0x80)).toNat = v / 64 % 64 + 0x80 :=
      toNat_ofNat (by omega)
    have hc : (UInt8.ofNat (v % 64 + 0x80)).toNat = v % 64 + 0x80 := toNat_ofNat (by omega)
    have spelled : ((v / 4096 % 16 + 0xe0) % 16 * 64 + (v / 64 % 64 + 0x80) % 64) * 64 +
        (v % 64 + 0x80) % 64 = v := by omega
    have lo : 0xE0 ≤ UInt8.ofNat (v / 4096 % 16 + 0xe0) :=
      ofNat_le_ofNat (m := 0xE0) (by omega) (by omega)
    have hi : UInt8.ofNat (v / 4096 % 16 + 0xe0) ≤ 0xEF :=
      ofNat_le_ofNat (n := 0xEF) (by omega) (by omega)
    rw [List.cons_append, List.cons_append, List.singleton_append,
      decodeFrom_three lo hi
        (isSecondOfThree_ofNat (by omega) (by omega) (by omega) (by omega) (by omega))
        (isTail_ofNat (by omega) (by omega)),
      char3, low6, low6, ha, hb, hc, spelled, back]
    rfl
  | case4 v h h' h'' =>
    have ha : (UInt8.ofNat (v / 262144 % 8 + 0xf0)).toNat = v / 262144 % 8 + 0xf0 :=
      toNat_ofNat (by omega)
    have hb : (UInt8.ofNat (v / 4096 % 64 + 0x80)).toNat = v / 4096 % 64 + 0x80 :=
      toNat_ofNat (by omega)
    have hc : (UInt8.ofNat (v / 64 % 64 + 0x80)).toNat = v / 64 % 64 + 0x80 :=
      toNat_ofNat (by omega)
    have hd : (UInt8.ofNat (v % 64 + 0x80)).toNat = v % 64 + 0x80 := toNat_ofNat (by omega)
    have spelled : (((v / 262144 % 8 + 0xf0) % 8 * 64 + (v / 4096 % 64 + 0x80) % 64) * 64 +
        (v / 64 % 64 + 0x80) % 64) * 64 + (v % 64 + 0x80) % 64 = v := by omega
    have lo : 0xF0 ≤ UInt8.ofNat (v / 262144 % 8 + 0xf0) :=
      ofNat_le_ofNat (m := 0xF0) (by omega) (by omega)
    have hi : UInt8.ofNat (v / 262144 % 8 + 0xf0) ≤ 0xF4 :=
      ofNat_le_ofNat (n := 0xF4) (by omega) (by omega)
    rw [List.cons_append, List.cons_append, List.cons_append, List.singleton_append,
      decodeFrom_four lo hi
        (isSecondOfFour_ofNat (by omega) (by omega) (by omega) (by omega) (by omega))
        (isTail_ofNat (by omega) (by omega)) (isTail_ofNat (by omega) (by omega)),
      char4, low6, low6, low6, ha, hb, hc, hd, spelled, back]
    rfl

theorem decodeFrom_flatMap (index : Nat) (read chars : List Char) :
    decodeFrom index read (chars.flatMap String.utf8EncodeChar) = .ok (read.reverse ++ chars) := by
  induction chars generalizing index read with
  | nil => simp [decodeFrom]
  | cons c chars ih =>
    rw [List.flatMap_cons, decodeFrom_encodeChar, ih]
    simp

@[simp] theorem decode?_encode (text : String) : decode? (encode text) = some text := by
  simp only [decode?, decode, encode, decodeFrom_flatMap, List.reverse_nil, List.nil_append,
    Except.map, String.ofList_toList]
  rfl

@[simp] theorem encode_append (s t : String) : encode (s ++ t) = encode s ++ encode t := by
  simp [encode]

/-- A byte below 0x80 stands only for the character of its number, never inside another. -/
theorem eq_of_mem_encodeChar {b : UInt8} (hb : b < 0x80) {c : Char}
    (h : b ∈ String.utf8EncodeChar c) : c = Char.ofNat b.toNat := by
  have small : b.toNat < 0x80 := UInt8.lt_iff_toNat_lt.mp hb
  have no {n : Nat} (lo : 0x80 ≤ n) (hi : n < 256) : b ≠ UInt8.ofNat n := by
    rintro rfl
    rw [toNat_ofNat hi] at small
    omega
  revert h
  fun_cases String.utf8EncodeChar with
  | case1 v h =>
    intro member
    rw [List.mem_singleton.mp member, toNat_ofNat (by omega)]
    exact (Char.ofNat_toNat c).symm
  | case2 v =>
    simp only [List.mem_cons, List.not_mem_nil, or_false]
    rintro (eq | eq) <;> exact absurd eq (no (by omega) (by omega))
  | case3 v =>
    simp only [List.mem_cons, List.not_mem_nil, or_false]
    rintro (eq | eq | eq) <;> exact absurd eq (no (by omega) (by omega))
  | case4 v =>
    simp only [List.mem_cons, List.not_mem_nil, or_false]
    rintro (eq | eq | eq | eq) <;> exact absurd eq (no (by omega) (by omega))

theorem not_mem_encode {b : UInt8} (hb : b < 0x80) {text : String}
    (h : Char.ofNat b.toNat ∉ text.toList) : b ∉ encode text := by
  intro member
  obtain ⟨c, hc, inside⟩ := List.mem_flatMap.mp member
  exact h (eq_of_mem_encodeChar hb inside ▸ hc)

end Courier.Utf8
