import TokenLedger.Cbor.Reader
import TokenLedger.Proofs.BigEndian

/-! # Heads

A head is a major type and an argument, and the argument can be written in any form that
has room for it (`HeadForm`).  The forms are told apart by the low bits of the first byte,
so that a head can be told from what comes after it (`HeadForm.bytes_append_inj`).  There
is nothing else to choose from: what is read as a head is a head in some form, or opens
something that has no length (`exists_form_of_readHead`).

Writing takes the shortest form, and that settles more than the length.  A form with more
bytes has greater low bits, and is only taken for arguments that have no room in the forms
before it.  So the heads of one major type come in the order of their arguments, whatever
their forms (`head_lt_head_iff`), and all of them come before those of the next major type
(`head_append_lt`).
-/

namespace TokenLedger.Cbor

/-! ## First bytes -/

theorem toNat_firstByte (major : Major) {info : Nat} (small : info < 32) :
    (UInt8.ofNat (32 * major.code + info)).toNat = 32 * major.code + info := by
  rw [UInt8.toNat_ofNat']
  cases major <;> simp only [Major.code] <;> omega

/-- The first byte of a head falls apart into the major type and the low five bits. -/
theorem firstByte_parts (major : Major) {info : Nat} (small : info < 32) :
    (UInt8.ofNat (32 * major.code + info)).toNat / 32 = major.code ∧
      (UInt8.ofNat (32 * major.code + info)).toNat % 32 = info := by
  rw [toNat_firstByte major small]
  omega

/-- The first bytes of heads tell the major types and the low bits. -/
theorem firstByte_inj {major major' : Major} {info info' : Nat} (small : info < 32)
    (small' : info' < 32)
    (same : UInt8.ofNat (32 * major.code + info) = UInt8.ofNat (32 * major'.code + info')) :
    major = major' ∧ info = info' := by
  obtain ⟨upper, lower⟩ := firstByte_parts major small
  obtain ⟨upper', lower'⟩ := firstByte_parts major' small'
  rw [same] at upper lower
  refine ⟨?_, lower.symm.trans lower'⟩
  have codes : major.code = major'.code := upper.symm.trans upper'
  cases major <;> cases major' <;> first | rfl | cases codes

theorem exists_code_eq {code : Nat} (small : code < 8) : ∃ major : Major, major.code = code := by
  have all : ∀ code < 8, ∃ major ∈ [Major.unsigned, .negative, .bytes, .text, .array, .map, .tag,
      .simple], major.code = code := by decide
  obtain ⟨major, _, same⟩ := all code small
  exact ⟨major, same⟩

theorem exists_firstByte_eq (first : UInt8) :
    ∃ major : Major, major.code = first.toNat / 32 ∧
      UInt8.ofNat (32 * major.code + first.toNat % 32) = first := by
  have bound := first.toNat_lt
  obtain ⟨major, same⟩ := exists_code_eq (show first.toNat / 32 < 8 by omega)
  refine ⟨major, same, ?_⟩
  rw [same, Nat.div_add_mod, UInt8.ofNat_toNat]

/-! ## Forms -/

/-- Where the argument of a head is written: in its first byte, or in the one, two, four or eight
    bytes after that. -/
inductive HeadForm where
  | within
  | one
  | two
  | four
  | eight
deriving DecidableEq

namespace HeadForm

/-- How many bytes come after the first. -/
def width : HeadForm → Nat
  | within => 0
  | one => 1
  | two => 2
  | four => 4
  | eight => 8

/-- The low five bits of the first byte. -/
def info (n : Nat) : HeadForm → Nat
  | within => n
  | one => 24
  | two => 25
  | four => 26
  | eight => 27

/-- Whether an argument has room in the form. -/
def Holds (n : Nat) : HeadForm → Prop
  | within => n < 24
  | form => n < 256 ^ form.width

/-- The head of a major type with an argument in this form. -/
def bytes (form : HeadForm) (major : Major) (n : Nat) : Bytes :=
  UInt8.ofNat (32 * major.code + form.info n) :: Bytes.ofNatBE form.width n

/-- The first form that has room for an argument. -/
def shortest (n : Nat) : HeadForm :=
  if n < 24 then within else if n < 2 ^ 8 then one else if n < 2 ^ 16 then two
  else if n < 2 ^ 32 then four else eight

@[simp] theorem length_bytes (form : HeadForm) (major : Major) (n : Nat) :
    (form.bytes major n).length = form.width + 1 := by
  simp [bytes]

variable {form form' : HeadForm} {n k : Nat}

theorem info_lt (holds : form.Holds n) : form.info n < 28 := by
  cases form with
  | within => exact Nat.lt_of_lt_of_le holds (by decide)
  | one | two | four | eight => exact Nat.lt_of_sub_pos (Nat.zero_lt_succ _)

/-- Only in the first byte do the low bits depend on the argument. -/
theorem info_eq (after : form ≠ within) (n k : Nat) : form.info n = form.info k := by
  cases form with
  | within => exact absurd rfl after
  | one | two | four | eight => rfl

theorem lt_of_holds (holds : form.Holds n) (after : form ≠ within) : n < 256 ^ form.width := by
  cases form with
  | within => exact absurd rfl after
  | _ => exact holds

theorem lt_size_of_holds (holds : form.Holds n) : n < 2 ^ 64 := by
  cases form <;> simp only [Holds, width] at holds <;> omega

theorem bytes_append_inj {major major' : Major} {n' : Nat} {rest rest' : Bytes}
    (holds : form.Holds n) (holds' : form'.Holds n')
    (same : form.bytes major n ++ rest = form'.bytes major' n' ++ rest') :
    form = form' ∧ major = major' ∧ n = n' ∧ rest = rest' := by
  obtain ⟨first, after⟩ := List.cons.inj same
  have small := info_lt holds
  have small' := info_lt holds'
  obtain ⟨majors, infos⟩ := firstByte_inj (by omega) (by omega) first
  -- the low bits give the form away, and the argument too where it is within the first byte
  have forms : form = form' ∧ (form = within → n = n') := by
    cases form <;> cases form' <;> simp only [info, Holds] at infos holds holds' <;>
      first
      | exact ⟨rfl, fun _ => infos⟩
      | exact ⟨rfl, fun impossible => nomatch impossible⟩
      | omega
  obtain ⟨rfl, within_eq⟩ := forms
  obtain ⟨arguments, rests⟩ := List.append_inj after (by simp)
  refine ⟨rfl, majors, ?_, rests⟩
  by_cases inside : form = within
  · exact within_eq inside
  · rw [← Bytes.toNatBE_ofNatBE (lt_of_holds holds inside), arguments,
      Bytes.toNatBE_ofNatBE (lt_of_holds holds' inside)]

/-! ### The shortest form -/

theorem holds_shortest (fits : n < 2 ^ 64) : (shortest n).Holds n := by
  unfold shortest
  split_ifs <;> simp only [Holds, width] <;> omega

theorem head_eq (major : Major) (n : Nat) : head major n = (shortest n).bytes major n := by
  simp only [head, shortest, UInt8.size, UInt16.size, UInt32.size, Nat.reducePow]
  split_ifs <;> rfl

theorem eq_shortest_or_width_lt (holds : form.Holds n) :
    form = shortest n ∨ (shortest n).width < form.width := by
  unfold shortest
  cases form <;> simp only [Holds, width] at holds <;> split_ifs <;> simp [width] <;> omega

theorem info_shortest_lt (n : Nat) : (shortest n).info n < 28 := by
  unfold shortest
  split_ifs <;> simp only [info] <;> omega

/-- A greater argument has greater low bits, or else both arguments are written after the first
    byte and in as many bytes. -/
theorem info_shortest_lt_or (less : n < k) :
    (shortest n).info n < (shortest k).info k ∨ shortest n = shortest k ∧ shortest k ≠ within := by
  unfold shortest
  split_ifs <;> simp [info] <;> omega

end HeadForm

/-- Whether bytes are a head of a major type with an argument, in a form that has room for it. -/
def IsHead (major : Major) (n : Nat) (bytes : Bytes) : Prop :=
  ∃ form : HeadForm, form.Holds n ∧ bytes = form.bytes major n

variable {major major' : Major} {n k : Nat} {bytes rest rest' : Bytes}

theorem isHead_head (major : Major) (fits : n < 2 ^ 64) : IsHead major n (head major n) :=
  ⟨.shortest n, HeadForm.holds_shortest fits, HeadForm.head_eq major n⟩

theorem IsHead.eq_or_length_lt (isHead : IsHead major n bytes) :
    bytes = head major n ∨ (head major n).length < bytes.length := by
  obtain ⟨form, holds, rfl⟩ := isHead
  rw [HeadForm.head_eq]
  rcases HeadForm.eq_shortest_or_width_lt holds with rfl | shorter
  · exact .inl rfl
  · right
    simpa using shorter

/-- No other head stands at the front of the same bytes. -/
theorem head_append_inj (fits : n < 2 ^ 64) (isHead : IsHead major' k bytes)
    (same : head major n ++ rest = bytes ++ rest') :
    major = major' ∧ n = k ∧ head major n = bytes ∧ rest = rest' := by
  obtain ⟨form, holds, rfl⟩ := isHead
  rw [HeadForm.head_eq] at same ⊢
  obtain ⟨rfl, rfl, rfl, rfl⟩ :=
    HeadForm.bytes_append_inj (HeadForm.holds_shortest fits) holds same
  exact ⟨rfl, rfl, rfl, rfl⟩

theorem head_isPrefix_iff (fits : n < 2 ^ 64) (fits' : k < 2 ^ 64) :
    head major n <+: head major k ↔ n = k := by
  constructor
  · rintro ⟨rest, whole⟩
    rw [← List.append_nil (head major k)] at whole
    exact (head_append_inj fits (isHead_head major fits') whole).2.1
  · rintro rfl
    exact List.prefix_rfl

/-! ## Order -/

theorem head_lt_head (major : Major) (less : n < k) (fits : k < 2 ^ 64) :
    head major n < head major k := by
  have small := HeadForm.info_shortest_lt n
  have small' := HeadForm.info_shortest_lt k
  rw [HeadForm.head_eq, HeadForm.head_eq, HeadForm.bytes, HeadForm.bytes, List.cons_lt_cons_iff,
    UInt8.lt_iff_toNat_lt, toNat_firstByte major (by omega), toNat_firstByte major (by omega)]
  rcases HeadForm.info_shortest_lt_or less with greater | ⟨same, after⟩
  · exact .inl (by omega)
  · -- the first bytes are the same, and so is the number of those after them
    rw [same, HeadForm.info_eq after n k]
    have room := HeadForm.lt_of_holds (HeadForm.holds_shortest fits) after
    exact .inr ⟨rfl, Bytes.ofNatBE_lt_ofNatBE less room⟩

theorem head_lt_head_iff (major : Major) (fits : n < 2 ^ 64) (fits' : k < 2 ^ 64) :
    head major n < head major k ↔ n < k := by
  refine ⟨fun before => ?_, fun less => head_lt_head major less fits'⟩
  rcases Nat.lt_trichotomy n k with less | rfl | greater
  · exact less
  · exact absurd before (List.lt_irrefl _)
  · exact absurd before (List.lt_asymm (head_lt_head major greater fits))

theorem head_append_lt (less : major.code < major'.code) (n k : Nat) (rest rest' : Bytes) :
    head major n ++ rest < head major' k ++ rest' := by
  have small := HeadForm.info_shortest_lt n
  have small' := HeadForm.info_shortest_lt k
  rw [HeadForm.head_eq, HeadForm.head_eq, HeadForm.bytes, HeadForm.bytes, List.cons_append,
    List.cons_append, List.cons_lt_cons_iff, UInt8.lt_iff_toNat_lt,
    toNat_firstByte major (by omega), toNat_firstByte major' (by omega)]
  exact .inl (by omega)

/-! ## Reading -/

theorem HeadForm.readHead_bytes {form : HeadForm} (holds : form.Holds n) (rest : Bytes) :
    readHead (form.bytes major n ++ rest) =
      .ok (Head.ofArgument major.code (form.info n) n, rest) := by
  have small := info_lt holds
  obtain ⟨upper, lower⟩ := firstByte_parts major (show form.info n < 32 by omega)
  have argument := Bytes.split?_ofNatBE form.width n rest
  have room := lt_of_holds holds
  -- each form is a branch of its own in the reader
  cases form with
  | within =>
    simp only [info] at upper lower
    simp only [bytes, info, width, Bytes.ofNatBE, List.cons_append, List.nil_append, readHead,
      upper, lower, if_pos (show n < 24 from holds)]
  | one | two | four | eight =>
    have value := Bytes.toNatBE_ofNatBE (room (by decide))
    simp only [info, width] at upper lower argument value
    simp only [bytes, info, width, List.cons_append, readHead, upper, lower, argument, value,
      Nat.reduceLT, Nat.reduceEqDiff, if_true, if_false]

/-- A written head is read as its major type and argument.  The low bits `info`
    are left open because only heads of simple values depend on them. -/
theorem readHead_head (major : Major) (fits : n < 2 ^ 64) (rest : Bytes) :
    ∃ info, readHead (head major n ++ rest) = .ok (Head.ofArgument major.code info n, rest) := by
  rw [HeadForm.head_eq]
  exact ⟨_, HeadForm.readHead_bytes (HeadForm.holds_shortest fits) rest⟩

/-- The branch of the reader for an argument after the first byte. -/
theorem HeadForm.exists_of_split {form : HeadForm} (after : form ≠ within) {info : Nat}
    (announced : info = form.info 0) {input : Bytes} {found : Head}
    (read : (match Bytes.split? form.width input with
      | none => .error .endOfInput
      | some (digits, rest) => .ok (Head.ofArgument major.code info digits.toNatBE, rest)) =
        (.ok (found, rest) : Except ReadError (Head × Bytes))) :
    ∃ n, form.Holds n ∧
      UInt8.ofNat (32 * major.code + info) :: input = form.bytes major n ++ rest ∧
        found = Head.ofArgument major.code (form.info n) n := by
  split at read
  · cases read
  next digits _ split =>
    cases read
    obtain ⟨rfl, length⟩ := Bytes.append_of_split? split
    have room := digits.toNatBE_lt
    have back := digits.ofNatBE_toNatBE
    rw [length] at room back
    rw [announced, info_eq after 0 digits.toNatBE]
    refine ⟨digits.toNatBE, ?_, ?_, rfl⟩
    · cases form with
      | within => exact absurd rfl after
      | one | two | four | eight => exact room
    · rw [HeadForm.bytes, back, List.cons_append]

/-- What is read as a head is a head in some form, or opens something that has no length. -/
theorem exists_form_of_readHead {input : Bytes} {found : Head}
    (read : readHead input = .ok (found, rest)) :
    (∃ (major : Major) (form : HeadForm) (n : Nat), form.Holds n ∧
        input = form.bytes major n ++ rest ∧ found = Head.ofArgument major.code (form.info n) n) ∨
      ∃ code, Head.openEnded? code = some found := by
  cases input with
  | nil => cases read
  | cons first input =>
    obtain ⟨major, code, firstByte⟩ := exists_firstByte_eq first
    simp only [readHead, ← code] at read
    rw [← firstByte]
    split at read
    next short =>
      cases read
      exact .inl ⟨major, .within, _, short, rfl, rfl⟩
    split at read
    next one => exact .inl ⟨major, .one, HeadForm.exists_of_split (by decide) one read⟩
    split at read
    next two => exact .inl ⟨major, .two, HeadForm.exists_of_split (by decide) two read⟩
    split at read
    next four => exact .inl ⟨major, .four, HeadForm.exists_of_split (by decide) four read⟩
    split at read
    next eight => exact .inl ⟨major, .eight, HeadForm.exists_of_split (by decide) eight read⟩
    split at read
    · split at read
      next opened =>
        cases read
        exact .inr ⟨_, opened⟩
      · cases read
    · cases read

/-- The argument can be told from what is read, but for floats, whose argument is dropped. -/
theorem Head.ofArgument_inj (carries : major ≠ .simple) {info info' : Nat}
    (same : ofArgument major.code info n = ofArgument major'.code info' k) :
    major = major' ∧ n = k := by
  cases major <;> cases major' <;> simp_all [ofArgument, Major.code] <;> split at same <;>
    simp_all

theorem Head.openEnded?_ne_ofArgument (carries : major ≠ .simple) (code info n : Nat) :
    openEnded? code ≠ some (ofArgument major.code info n) := by
  unfold openEnded?
  cases major <;> split <;> simp_all [ofArgument, Major.code]

theorem isHead_iff_readHead (carries : major ≠ .simple) :
    IsHead major n bytes ↔
      ∃ info, readHead bytes = .ok (Head.ofArgument major.code info n, []) := by
  constructor
  · rintro ⟨form, holds, rfl⟩
    have read := @HeadForm.readHead_bytes major n form holds []
    rw [List.append_nil] at read
    exact ⟨_, read⟩
  · rintro ⟨info, read⟩
    rcases exists_form_of_readHead read with ⟨major', form, k, holds, rfl, same⟩ | ⟨code, opened⟩
    · obtain ⟨rfl, rfl⟩ := Head.ofArgument_inj carries same
      exact ⟨form, holds, List.append_nil _⟩
    · exact absurd opened (Head.openEnded?_ne_ofArgument carries code info n)

end TokenLedger.Cbor
