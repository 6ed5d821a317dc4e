import TokenLedger.Hex
import TokenLedger.Proofs.Except

/-! # Reading hexadecimal text

A text is read as a byte string just if in lower case it is the hex form of the byte
string (`decode_eq_ok_iff`).  Every digit is one byte of the text, and no character of more
bytes begins with the byte of a digit, so that the reader takes two characters for each
byte. -/

namespace TokenLedger.Hex

/-! ## Digits -/

/-- The bytes of a character are one byte for it, or begin with one that is no digit. -/
theorem utf8EncodeChar_cases (c : Char) :
    (c.toNat < 128 ∧ String.utf8EncodeChar c = [UInt8.ofNat c.toNat]) ∨
      128 ≤ c.toNat ∧ ∃ byte more, String.utf8EncodeChar c = byte :: more ∧
        digitValue? byte = none := by
  have high : ∀ m, 128 ≤ m → m < 256 → digitValue? (UInt8.ofNat m) = none := by
    intro m large small
    have number : (UInt8.ofNat m).toNat = m := UInt8.toNat_ofNat_of_lt small
    have digits : '9'.toNat < 128 ∧ 'f'.toNat < 128 ∧ 'F'.toNat < 128 := by decide
    rw [digitValue?, number, if_neg (by omega), if_neg (by omega), if_neg (by omega)]
  rcases Nat.lt_or_ge c.toNat 128 with small | large
  · exact .inl ⟨small, if_pos (Nat.le_of_lt_succ small)⟩
  · refine .inr ⟨large, ?_⟩
    rw [String.utf8EncodeChar, if_neg (show ¬c.val.toNat ≤ 127 from Nat.not_le.mpr large)]
    split
    · exact ⟨_, _, rfl, high _ (by omega) (by omega)⟩
    · split <;> exact ⟨_, _, rfl, high _ (by omega) (by omega)⟩

theorem toLower_digit {n : Nat} (small : n < 16) : (digit n).toLower = digit n := by
  have all : ∀ n < 16, (digit n).toLower = digit n := by decide
  exact all n small

theorem toLower_ne_digit {c : Char} {n : Nat} (large : 128 ≤ c.toNat) (small : n < 16) :
    c.toLower ≠ digit n := by
  have ascii : ∀ n < 16, (digit n).toNat < 128 := by decide
  have last : 'Z'.val.toNat < 128 := by decide
  have other : ¬(c.val ≥ 'A'.val ∧ c.val ≤ 'Z'.val) := fun upper =>
    absurd (Nat.le_trans large (UInt32.le_iff_toNat_le.mp upper.2)) (Nat.not_le.mpr last)
  have same : c.toLower = c := dif_neg other
  rw [same]
  rintro rfl
  exact absurd (ascii n small) (Nat.not_lt.mpr large)

/-- What is read as the digit for a number is that digit in lower case. -/
theorem digitValue?_eq_some {c : Char} {byte : UInt8} {more : Bytes} {n : Nat}
    (bytes : String.utf8EncodeChar c = byte :: more) (value : digitValue? byte = some n) :
    more = [] ∧ n < 16 ∧ c.toLower = digit n := by
  have all : ∀ m < 128, ∀ n ∈ digitValue? (UInt8.ofNat m), n < 16 ∧
      (Char.ofNat m).toLower = digit n := by decide +kernel
  rcases utf8EncodeChar_cases c with ⟨small, one⟩ | ⟨_, first, rest, more, none⟩
  · cases bytes.symm.trans one
    have digit := all c.toNat small n value
    rw [Char.ofNat_toNat] at digit
    exact ⟨rfl, digit⟩
  · cases bytes.symm.trans more
    cases none.symm.trans value

theorem exists_byte_of_toLower {c : Char} {n : Nat} (small : n < 16) (lower : c.toLower = digit n) :
    ∃ byte, String.utf8EncodeChar c = [byte] ∧ digitValue? byte = some n := by
  have all : ∀ m < 128, ∀ n < 16, (Char.ofNat m).toLower = digit n →
      digitValue? (UInt8.ofNat m) = some n := by decide +kernel
  rcases utf8EncodeChar_cases c with ⟨ascii, one⟩ | ⟨large, _⟩
  · refine ⟨_, one, all c.toNat ascii n small ?_⟩
    rwa [Char.ofNat_toNat]
  · exact absurd lower (toLower_ne_digit large small)

/-! ## Byte strings -/

theorem ofText_eq (text : String) :
    Bytes.ofText text = text.toList.flatMap String.utf8EncodeChar := by
  have bytes : text.toByteArray = text.toList.utf8Encode := by simp
  simp [Bytes.ofText, bytes, List.utf8Encode, List.data_toByteArray]

/-- A character is taken off the front for the digit that is read there. -/
theorem exists_char_of_front {chars : List Char} {byte : UInt8} {rest : Bytes} {n : Nat}
    (bytes : chars.flatMap String.utf8EncodeChar = byte :: rest)
    (value : digitValue? byte = some n) :
    ∃ c more, chars = c :: more ∧ n < 16 ∧ c.toLower = digit n ∧
      more.flatMap String.utf8EncodeChar = rest := by
  cases chars with
  | nil => cases bytes
  | cons c more =>
    rw [List.flatMap_cons] at bytes
    obtain ⟨first, others, front⟩ := List.exists_cons_of_ne_nil (@String.utf8EncodeChar_ne_nil c)
    rw [front, List.cons_append, List.cons.injEq] at bytes
    obtain ⟨rfl, rfl⟩ := bytes
    obtain ⟨rfl, small, lower⟩ := digitValue?_eq_some front value
    exact ⟨c, more, rfl, small, lower, rfl⟩

/-- In lower case a text is the hex form of a byte string if its characters are the digits. -/
theorem toLower_eq_encode_iff {text : String} {bytes : Bytes} :
    text.toLower = encode bytes ↔ text.toList.map Char.toLower = digits bytes := by
  have lower : text.toLower.toList = text.toList.map Char.toLower := String.toList_map
  rw [encode, ← lower, ← String.toList_inj, String.toList_ofList]

theorem map_toLower_of_decodePairs {chars : List Char} {bytes : Bytes} {position : Nat}
    (read : decodePairs position (chars.flatMap String.utf8EncodeChar) = .ok bytes) :
    chars.map Char.toLower = digits bytes := by
  -- the reader goes by bytes, and each byte that it takes for a digit is a character
  generalize written : chars.flatMap String.utf8EncodeChar = input at read
  induction position, input using decodePairs.induct generalizing chars bytes with
  | case1 position =>
    cases read
    cases chars with
    | nil => rfl
    | cons c more =>
      rw [List.flatMap_cons] at written
      exact absurd (List.append_eq_nil_iff.mp written).1 String.utf8EncodeChar_ne_nil
  | case2 position byte => cases read
  | case3 position high low rest none =>
    simp only [decodePairs, none] at read
    cases read
  | case4 position high low rest n value none =>
    simp only [decodePairs, value, none] at read
    cases read
  | case5 position high low rest m value n value' ih =>
    simp only [decodePairs, value, value'] at read
    obtain ⟨others, more, rfl⟩ := map_eq_ok_iff.mp read
    obtain ⟨c, tail, rfl, small, upper, front⟩ := exists_char_of_front written value
    obtain ⟨d, tail, rfl, small', lower, back⟩ := exists_char_of_front front value'
    have number : (UInt8.ofNat (16 * m + n)).toNat = 16 * m + n :=
      UInt8.toNat_ofNat_of_lt (show _ < 256 by omega)
    have halves : (16 * m + n) / 16 = m ∧ (16 * m + n) % 16 = n := by omega
    rw [List.map_cons, List.map_cons, upper, lower, ih back more, digits, number, halves.1,
      halves.2]

theorem decodePairs_of_map_toLower {bytes : Bytes} {chars : List Char} (position : Nat)
    (lower : chars.map Char.toLower = digits bytes) :
    (chars.flatMap String.utf8EncodeChar).length = 2 * bytes.length ∧
      decodePairs position (chars.flatMap String.utf8EncodeChar) = .ok bytes := by
  induction bytes generalizing chars position with
  | nil =>
    cases List.map_eq_nil_iff.mp lower
    exact ⟨rfl, rfl⟩
  | cons byte rest ih =>
    have small := byte.toNat_lt
    rw [digits, List.map_eq_cons_iff] at lower
    obtain ⟨c, more, rfl, high, lower⟩ := lower
    obtain ⟨d, more, rfl, low, lower⟩ := List.map_eq_cons_iff.mp lower
    obtain ⟨first, written, value⟩ := exists_byte_of_toLower (by omega) high
    obtain ⟨second, written', value'⟩ := exists_byte_of_toLower (by omega) low
    obtain ⟨length, read⟩ := ih (position + 2) lower
    simp only [List.flatMap_cons, written, written', List.singleton_append, List.length_cons,
      length, decodePairs, value, value', read, Nat.div_add_mod, UInt8.ofNat_toNat]
    exact ⟨rfl, rfl⟩

/-- A text is read as the byte string whose hex form it is in lower case. -/
theorem decode_eq_ok_iff {text : String} {bytes : Bytes} :
    decode text = .ok bytes ↔ text.toLower = encode bytes := by
  rw [toLower_eq_encode_iff, decode, ofText_eq]
  constructor
  · intro read
    split at read
    · cases read
    · exact map_toLower_of_decodePairs read
  · intro same
    obtain ⟨length, read⟩ := decodePairs_of_map_toLower 0 same
    rw [length, if_neg (by omega), read]

/-- The hex form of a byte string is read as the byte string. -/
theorem decode_encode (bytes : Bytes) : decode (encode bytes) = .ok bytes := by
  have lower : (digits bytes).map Char.toLower = digits bytes := by
    induction bytes with
    | nil => rfl
    | cons byte rest ih =>
      have small := byte.toNat_lt
      simp only [digits, List.map_cons, toLower_digit (show byte.toNat / 16 < 16 by omega),
        toLower_digit (show byte.toNat % 16 < 16 by omega), ih]
  rw [decode_eq_ok_iff, toLower_eq_encode_iff, encode, String.toList_ofList, lower]

end TokenLedger.Hex
