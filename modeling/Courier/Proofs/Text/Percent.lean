import Courier.Proofs.Text.Utf8
import Courier.Text.Percent
/-!
Escapes read back. Whatever bytes stand for themselves, as long as they are ASCII and not the mark
of an escape, an encoded text gives back the text, and it is made of those bytes, letters, digits
and the mark alone. Where these bytes are the unreserved ones, `Escaped` says how it is spelled.
-/

namespace Courier

/-- What holds of every ASCII byte can be checked byte by byte. -/
theorem forall_ascii_byte {P : UInt8 → Prop} (h : ∀ n < 128, P (UInt8.ofNat n)) {b : UInt8}
    (hb : b < 0x80) : P b := by
  have := h b.toNat (UInt8.lt_iff_toNat_lt.mp hb)
  rwa [UInt8.ofNat_toNat] at this

theorem Hex.digit?_upperDigit {n : Nat} (h : n < 16) : digit? (upperDigit n) = some n := by
  have checked : ∀ n < 16, digit? (upperDigit n) = some n := by decide
  exact checked n h

namespace Percent

theorem isAlphanumeric_ascii {b : UInt8} (h : isAlphanumeric b = true) : b < 0x80 := by
  simp only [isAlphanumeric, Bool.or_eq_true, Bool.and_eq_true, decide_eq_true_eq] at h
  grind

theorem exists_alphanumeric_upperDigit {n : Nat} (h : n < 16) :
    ∃ b, isAlphanumeric b = true ∧ Hex.upperDigit n = Char.ofNat b.toNat := by
  have checked : ∀ n < 16, isAlphanumeric (UInt8.ofNat (Hex.upperDigit n).toNat) = true ∧
      Hex.upperDigit n = Char.ofNat (UInt8.ofNat (Hex.upperDigit n).toNat).toNat := by decide
  exact ⟨_, checked n h⟩

/-- The bytes that stand for themselves can be told from escapes. -/
def Plain (keep : UInt8 → Bool) : Prop := ∀ b, keep b = true → b < 0x80 ∧ b ≠ 0x25

theorem plain_isAlphanumeric : Plain isAlphanumeric := by
  intro b h
  refine ⟨isAlphanumeric_ascii h, ?_⟩
  rintro rfl
  exact absurd h (by decide)

theorem plain_isUnreserved : Plain isUnreserved := by
  intro b kept
  simp only [isUnreserved, Bool.or_eq_true, beq_iff_eq] at kept
  obtain (((alphanumeric | rfl) | rfl) | rfl) | rfl := kept
  · exact plain_isAlphanumeric b alphanumeric
  all_goals decide

theorem decodeFrom_ascii (read : Bytes) {b : UInt8} (hb : b < 0x80) (hm : b ≠ 0x25)
    (rest : List Char) :
    decodeFrom read (Char.ofNat b.toNat :: rest) = decodeFrom (b :: read) rest := by
  have mark : b ≠ 0x25 → Char.ofNat b.toNat ≠ '%' :=
    forall_ascii_byte (P := fun b => b ≠ 0x25 → Char.ofNat b.toNat ≠ '%') (by decide) hb
  have bytes : String.utf8EncodeChar (Char.ofNat b.toNat) = [b] :=
    forall_ascii_byte (P := fun b => String.utf8EncodeChar (Char.ofNat b.toNat) = [b]) (by decide) hb
  rw [decodeFrom.eq_def]
  simp only [mark hm, ↓reduceIte, bytes, List.reverse_singleton, List.singleton_append]

theorem decodeFrom_escape (read : Bytes) (b : UInt8) (rest : List Char) :
    decodeFrom read ('%' :: (Hex.upper b ++ rest)) = decodeFrom (b :: read) rest := by
  have hb := b.toNat_lt
  have byte : 16 * (b.toNat / 16) + b.toNat % 16 = b.toNat := by omega
  rw [decodeFrom.eq_def]
  simp only [Hex.upper, List.cons_append, List.nil_append, ↓reduceIte,
    Hex.digit?_upperDigit (show b.toNat / 16 < 16 by omega),
    Hex.digit?_upperDigit (show b.toNat % 16 < 16 by omega), byte, UInt8.ofNat_toNat]

variable {keep : UInt8 → Bool}

theorem decodeFrom_encodeByte (plain : Plain keep) (read : Bytes) (b : UInt8) (rest : List Char) :
    decodeFrom read (encodeByte keep b ++ rest) = decodeFrom (b :: read) rest := by
  unfold encodeByte
  split
  · rename_i kept
    obtain ⟨ascii, mark⟩ := plain b kept
    exact decodeFrom_ascii read ascii mark rest
  · exact decodeFrom_escape read b rest

theorem decodeFrom_encodeBytes (plain : Plain keep) (read bytes : Bytes) :
    decodeFrom read (encodeBytes keep bytes) = some (read.reverse ++ bytes) := by
  induction bytes generalizing read with
  | nil => simp [encodeBytes, decodeFrom]
  | cons b bytes ih =>
    have step := decodeFrom_encodeByte plain read b (encodeBytes keep bytes)
    rw [ih] at step
    simpa [encodeBytes] using step

theorem decodeBytes?_encode (plain : Plain keep) (text : String) :
    decodeBytes? (encode keep text).toList = some (Utf8.encode text) := by
  simp [decodeBytes?, encode, decodeFrom_encodeBytes plain]

theorem decode?_encode (plain : Plain keep) (text : String) :
    decode? (encode keep text) = some text := by
  simp [decode?, decodeBytes?_encode plain]

theorem mem_encodeByte {b : UInt8} {c : Char} (h : c ∈ encodeByte keep b) :
    c = '%' ∨ ∃ b, (isAlphanumeric b = true ∨ keep b = true) ∧ c = Char.ofNat b.toNat := by
  have hb := b.toNat_lt
  unfold encodeByte at h
  split at h
  · rename_i kept
    exact .inr ⟨b, .inr kept, List.mem_singleton.mp h⟩
  · simp only [Hex.upper, List.mem_cons, List.not_mem_nil, or_false] at h
    obtain mark | high | low := h
    · exact .inl mark
    · obtain ⟨d, hd, eq⟩ := exists_alphanumeric_upperDigit (show b.toNat / 16 < 16 by omega)
      exact .inr ⟨d, .inl hd, high.trans eq⟩
    · obtain ⟨d, hd, eq⟩ := exists_alphanumeric_upperDigit (show b.toNat % 16 < 16 by omega)
      exact .inr ⟨d, .inl hd, low.trans eq⟩

/-- An encoded text is written with the mark, letters, digits and what may stand for itself. -/
theorem mem_encode {text : String} {c : Char} (h : c ∈ (encode keep text).toList) :
    c = '%' ∨ ∃ b, (isAlphanumeric b = true ∨ keep b = true) ∧ c = Char.ofNat b.toNat := by
  rw [encode, String.toList_ofList] at h
  obtain ⟨_, _, hc⟩ := List.mem_flatMap.mp h
  exact mem_encodeByte hc

/-! ## Spelling -/

/-- A letter, a digit, `-`, `.`, `_` or `~`. -/
def isUnreservedChar (c : Char) : Bool := c.isAlphanum || ['-', '.', '_', '~'].contains c

/-- Neither unreserved nor the mark of an escape. -/
def isReservedChar (c : Char) : Bool := c != '%' && !isUnreservedChar c

/-- Text of unreserved characters and of escapes, which are a `%` and two hexadecimal digits. -/
inductive Escaped : List Char → Prop where
  | nil : Escaped []
  | char {c : Char} {rest : List Char} :
    isUnreservedChar c = true → Escaped rest → Escaped (c :: rest)
  | triplet {a b : Char} {rest : List Char} :
    (Hex.digit? a).isSome → (Hex.digit? b).isSome → Escaped rest → Escaped ('%' :: a :: b :: rest)

theorem isUnreservedChar_ofNat {b : UInt8} (kept : isUnreserved b = true) :
    isUnreservedChar (Char.ofNat b.toNat) = true := by
  have ascii := (plain_isUnreserved b kept).1
  exact forall_ascii_byte (P := fun b => isUnreserved b = true →
    isUnreservedChar (Char.ofNat b.toNat) = true) (by decide) ascii kept

theorem isUnreservedChar_of_digit? {c : Char} (digit : (Hex.digit? c).isSome) :
    isUnreservedChar c = true := by
  have alphanumeric : c.isAlphanum = true := by
    unfold Hex.digit? at digit
    delta Char.isAlphanum Char.isAlpha Char.isUpper Char.isLower Char.isDigit
    grind [Char.le_def]
  simp [isUnreservedChar, alphanumeric]

theorem escaped_encodeBytes (bytes : Bytes) : Escaped (encodeBytes isUnreserved bytes) := by
  induction bytes with
  | nil => exact .nil
  | cons b bytes ih =>
    have hb := b.toNat_lt
    rw [encodeBytes, List.flatMap_cons, ← encodeBytes, encodeByte]
    split
    · rename_i kept
      exact .char (isUnreservedChar_ofNat kept) ih
    · have digit {n : Nat} (small : n < 16) : (Hex.digit? (Hex.upperDigit n)).isSome := by
        rw [Hex.digit?_upperDigit small]
        rfl
      exact .triplet (digit (by omega)) (digit (by omega)) ih

theorem escaped_encode (text : String) : Escaped (encode isUnreserved text).toList := by
  rw [encode, String.toList_ofList]
  exact escaped_encodeBytes (Utf8.encode text)

theorem Escaped.not_reserved {cs : List Char} (escaped : Escaped cs) {c : Char} (mem : c ∈ cs) :
    isReservedChar c = false := by
  have unreserved {c : Char} (kept : isUnreservedChar c = true) : isReservedChar c = false := by
    simp [isReservedChar, kept]
  induction escaped with
  | nil => cases mem
  | char kept _ ih =>
    obtain rfl | later := List.mem_cons.mp mem
    · exact unreserved kept
    · exact ih later
  | triplet high low _ ih =>
    simp only [List.mem_cons] at mem
    obtain rfl | rfl | rfl | later := mem
    · rfl
    · exact unreserved (isUnreservedChar_of_digit? high)
    · exact unreserved (isUnreservedChar_of_digit? low)
    · exact ih later

end Percent

end Courier
