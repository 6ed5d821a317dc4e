import TokenLedger.Proofs.Cbor.Spelling

/-! # The order of keys

The entries of a map are sorted by the bytes of their keys.  For integers this is an
order of the values: an integer is encoded as a head and nothing else, so that those from
zero up are in the order of their values, and those below zero the other way round.  The
major type decides between the two, and between integers and everything else.

So sorting a map puts its integer keys in front (`sortByKey_eq_integersFirst`).  The proof
divides the entries twice, into integers and others and then by sign.  Where one part comes
before the other, each can be sorted for itself (`insertionSort_eq_append`).
-/

namespace TokenLedger.Cbor

/-! ## Sorting in parts -/

section Parts

variable {α : Type} {a : α} {front rest items : List α}

theorem orderedInsert_append_left {r : α → α → Prop} [DecidableRel r]
    (before : ∀ b ∈ rest, r a b) :
    (front ++ rest).orderedInsert r a = front.orderedInsert r a ++ rest := by
  induction front with
  | nil => cases rest <;> simp_all
  | cons first front ih => by_cases here : r a first <;> simp [here, ih]

theorem orderedInsert_append_right {r : α → α → Prop} [DecidableRel r]
    (after : ∀ b ∈ front, ¬r a b) :
    (front ++ rest).orderedInsert r a = front ++ rest.orderedInsert r a := by
  induction front with
  | nil => rfl
  | cons first front ih =>
    obtain ⟨here, after⟩ := List.forall_mem_cons.mp after
    simp [here, ih after]

/-- Where some items all come before the others, each of the two kinds is sorted for itself. -/
theorem insertionSort_eq_append {key : α → Bytes} (p : α → Bool)
    (apart : ∀ a ∈ items, ∀ b ∈ items, p a = true → p b = false → key a < key b) :
    items.insertionSort (KeyLe key) =
      (items.filter p).insertionSort (KeyLe key) ++
        (items.filter (!p ·)).insertionSort (KeyLe key) := by
  induction items with
  | nil => rfl
  | cons a items ih =>
    have inside := ih fun a seen b seen' => apart a (.tail _ seen) b (.tail _ seen')
    cases kind : p a with
    | true =>
      have before : ∀ b ∈ (items.filter (!p ·)).insertionSort (KeyLe key), KeyLe key a b := by
        intro b member
        obtain ⟨member, kind'⟩ := List.mem_filter.mp ((List.mem_insertionSort _).mp member)
        exact List.lt_asymm (apart a (.head _) b (.tail _ member) kind (by simpa using kind'))
      simp [kind, inside, orderedInsert_append_left before]
    | false =>
      have after : ∀ b ∈ (items.filter p).insertionSort (KeyLe key), ¬KeyLe key a b := by
        intro b member
        obtain ⟨member, kind'⟩ := List.mem_filter.mp ((List.mem_insertionSort _).mp member)
        exact not_not_intro (apart b (.tail _ member) a (.head _) kind' kind)
      simp [kind, inside, orderedInsert_append_right after]

theorem insertionSort_congr {r s : α → α → Prop} [DecidableRel r] [DecidableRel s]
    (agree : ∀ a ∈ items, ∀ b ∈ items, r a b ↔ s a b) :
    items.insertionSort r = items.insertionSort s := by
  have mapped := List.map_insertionSort r s id items agree
  rwa [List.map_id, List.map_id] at mapped

end Parts

/-! ## Encoded integers -/

namespace Item

variable {a b : Item} {n k : Int}

theorem encode_lt_of_leading (less : a.leading.1.code < b.leading.1.code) :
    a.encode < b.encode := by
  rw [encode_eq_head_append a, encode_eq_head_append b]
  exact head_append_lt less _ _ _ _

theorem encode_nonneg_lt_iff (nonneg : 0 ≤ n) (nonneg' : 0 ≤ k) (high : n < 2 ^ 64)
    (high' : k < 2 ^ 64) : (int n).encode < (int k).encode ↔ n < k := by
  rw [encode, encode, if_pos nonneg, if_pos nonneg', head_lt_head_iff _ (by omega) (by omega)]
  omega

theorem encode_negative_lt_iff (negative : n < 0) (negative' : k < 0) (low : -2 ^ 64 ≤ n)
    (low' : -2 ^ 64 ≤ k) : (int n).encode < (int k).encode ↔ k < n := by
  rw [encode, encode, if_neg (Int.not_le.mpr negative), if_neg (Int.not_le.mpr negative'),
    head_lt_head_iff _ (by omega) (by omega)]
  omega

theorem encode_nonneg_lt_negative (nonneg : 0 ≤ n) (negative : k < 0) :
    (int n).encode < (int k).encode := by
  refine encode_lt_of_leading ?_
  simp [leading, nonneg, Int.not_le.mpr negative, Major.code]

theorem encode_int_lt_other (n : Int) (other : ∀ k, a ≠ int k) : (int n).encode < a.encode := by
  refine encode_lt_of_leading ?_
  have low : (int n).leading.1.code ≤ 1 := by
    rcases leading_int_fst n with same | same <;> rw [same] <;> decide
  have high : 2 ≤ a.leading.1.code := by
    cases a with
    | int k => exact absurd rfl (other k)
    | _ => simp [leading, Major.code]
  omega

end Item

/-! ## Maps -/

/-- The key and the value of an entry whose key is an integer. -/
def integerKeyed? : Item × Item → Option (Int × Item)
  | (.int n, value) => some (n, value)
  | _ => none

/-- An entry with an integer as key. -/
def integerKeyed (entry : Int × Item) : Item × Item := (.int entry.1, entry.2)

/-- The entries of a map with the integer keys in front: first those from 0 up, then those from -1
    down, and after them the other keys in the order of their encodings. Entries with equal keys
    stay in the order they were in. -/
def integersFirst (entries : List (Item × Item)) : List (Item × Item) :=
  let integers := entries.filterMap integerKeyed?
  ((integers.filter (0 ≤ ·.1)).insertionSort (·.1 ≤ ·.1) ++
      (integers.filter (·.1 < 0)).insertionSort (·.1 ≥ ·.1)).map integerKeyed ++
    sortByKey (entries.filter fun entry => !(integerKeyed? entry).isSome)

theorem eq_integerKeyed {entry : Item × Item} {found : Int × Item}
    (integer : integerKeyed? entry = some found) : entry = integerKeyed found := by
  obtain ⟨key, value⟩ := entry
  cases key <;> cases integer
  rfl

theorem ne_int_of_isSome_eq_false {entry : Item × Item}
    (other : (integerKeyed? entry).isSome = false) (n : Int) : entry.1 ≠ .int n := by
  obtain ⟨key, value⟩ := entry
  rintro rfl
  cases other

theorem filter_isSome_eq_map (entries : List (Item × Item)) :
    entries.filter (fun entry => (integerKeyed? entry).isSome) =
      (entries.filterMap integerKeyed?).map integerKeyed := by
  induction entries with
  | nil => rfl
  | cons first rest ih =>
    cases integer : integerKeyed? first with
    | none => simp [integer, ih]
    | some found =>
      have same := eq_integerKeyed integer
      simp [integer, ih, ← same]

theorem sortByKey_map_integerKeyed {integers : List (Int × Item)}
    (inRange : ∀ entry ∈ integers, -2 ^ 64 ≤ entry.1 ∧ entry.1 < 2 ^ 64) :
    sortByKey (integers.map integerKeyed) =
      ((integers.filter (0 ≤ ·.1)).insertionSort (·.1 ≤ ·.1) ++
        (integers.filter (·.1 < 0)).insertionSort (·.1 ≥ ·.1)).map integerKeyed := by
  have keys := List.map_insertionSort (KeyLe fun entry : Int × Item => (Item.int entry.1).encode)
    (KeyLe fun entry : Item × Item => entry.1.encode) integerKeyed integers fun _ _ _ _ => Iff.rfl
  have apart : ∀ a ∈ integers, ∀ b ∈ integers, decide (0 ≤ a.1) = true →
      decide (0 ≤ b.1) = false → (Item.int a.1).encode < (Item.int b.1).encode :=
    fun a _ b _ nonneg negative => Item.encode_nonneg_lt_negative (of_decide_eq_true nonneg)
      (Int.not_le.mp (of_decide_eq_false negative))
  rw [sortByKey, ← keys, insertionSort_eq_append _ apart]
  simp only [← decide_not, Int.not_le]
  refine congrArg _ (congrArg₂ _ (insertionSort_congr fun a seen b seen' => ?_)
    (insertionSort_congr fun a seen b seen' => ?_))
  · obtain ⟨seen, nonneg⟩ := List.mem_filter.mp seen
    obtain ⟨seen', nonneg'⟩ := List.mem_filter.mp seen'
    rw [KeyLe, Item.encode_nonneg_lt_iff (of_decide_eq_true nonneg') (of_decide_eq_true nonneg)
      (inRange b seen').2 (inRange a seen).2, Int.not_lt]
  · obtain ⟨seen, negative⟩ := List.mem_filter.mp seen
    obtain ⟨seen', negative'⟩ := List.mem_filter.mp seen'
    rw [KeyLe, Item.encode_negative_lt_iff (of_decide_eq_true negative')
      (of_decide_eq_true negative) (inRange b seen').1 (inRange a seen).1, Int.not_lt]

theorem sortByKey_eq_integersFirst {entries : List (Item × Item)}
    (inRange : ∀ entry ∈ entries, ∀ n, entry.1 = .int n → -2 ^ 64 ≤ n ∧ n < 2 ^ 64) :
    sortByKey entries = integersFirst entries := by
  have apart : ∀ a ∈ entries, ∀ b ∈ entries, (integerKeyed? a).isSome = true →
      (integerKeyed? b).isSome = false → a.1.encode < b.1.encode := by
    intro a _ b _ integer other
    obtain ⟨found, integer⟩ := Option.isSome_iff_exists.mp integer
    rw [eq_integerKeyed integer]
    exact Item.encode_int_lt_other found.1 (ne_int_of_isSome_eq_false other)
  have keys : ∀ entry ∈ entries.filterMap integerKeyed?,
      -2 ^ 64 ≤ entry.1 ∧ entry.1 < 2 ^ 64 := by
    intro found member
    obtain ⟨entry, seen, integer⟩ := List.mem_filterMap.mp member
    exact inRange entry seen found.1 (congrArg Prod.fst (eq_integerKeyed integer))
  rw [sortByKey, insertionSort_eq_append _ apart, filter_isSome_eq_map]
  exact congrArg (· ++ _) (sortByKey_map_integerKeyed keys)

/-! ## Main statement -/

/-- A head is the shortest for its major type and argument, in any form (the forms being what the
    reader takes for heads, which drops the argument of a float), and the argument is read back from
    it.  The heads of one major type come in the order of their arguments, none at the front of
    another, so that a map is sorted with the integer keys in front: from 0 up, then from -1 down.
    -/
theorem head_shortest_ordered (major : Major) (n k : UInt64) :
    (IsHead major n.toNat (head major n.toNat) ∧
      ∀ bytes, IsHead major n.toNat bytes →
        bytes = head major n.toNat ∨ (head major n.toNat).length < bytes.length) ∧
    (major ≠ .simple → ∀ bytes, IsHead major n.toNat bytes ↔
      ∃ info, readHead bytes = .ok (Head.ofArgument major.code info n.toNat, [])) ∧
    (∀ rest, readHead (head major n.toNat ++ rest) =
      .ok (Head.ofArgument major.code ((HeadForm.shortest n.toNat).info n.toNat) n.toNat, rest)) ∧
    (∀ major' n' bytes rest rest', IsHead major' n' bytes →
      head major n.toNat ++ rest = bytes ++ rest' →
        major = major' ∧ n.toNat = n' ∧ head major n.toNat = bytes ∧ rest = rest') ∧
    (head major n.toNat <+: head major k.toNat ↔ n = k) ∧
    (head major n.toNat < head major k.toNat ↔ n < k) ∧
    ∀ entries : List (Item × Item),
      (∀ entry ∈ entries, ∀ n, entry.1 = .int n → -2 ^ 64 ≤ n ∧ n < 2 ^ 64) →
        sortEntries (encodeEntries entries) = encodeEntries (integersFirst entries) := by
  have fits := n.toNat_lt
  have fits' := k.toNat_lt
  refine ⟨⟨isHead_head major fits, fun bytes => IsHead.eq_or_length_lt⟩,
    fun carries bytes => isHead_iff_readHead carries, fun rest => ?_,
    fun major' n' bytes rest rest' => head_append_inj fits, ?_, ?_, fun entries inRange => ?_⟩
  · rw [HeadForm.head_eq]
    exact HeadForm.readHead_bytes (HeadForm.holds_shortest fits) rest
  · rw [head_isPrefix_iff fits fits', UInt64.toNat_inj]
  · rw [head_lt_head_iff major fits fits', UInt64.lt_iff_toNat_lt]
  · rw [sortEntries_encodeEntries, sortByKey_eq_integersFirst inRange]

/-- The two bytes for 255 and three that it could be written in, and a map whose keys stand on both
    sides of where heads become longer. -/
theorem head_shortest_ordered_boundary :
    let long : Bytes := [0x19, 0x00, 0xff]
    let entries : List (Item × Item) := [(.bytes [], .null), (.int (-1), .null), (.int 256, .null),
      (.int (-2 ^ 64), .null), (.int 255, .bool true), (.int (2 ^ 64 - 1), .null),
      (.int 255, .bool false), (.int 24, .null), (.int 23, .null)]
    let sorted : List (Item × Item) := [(.int 23, .null), (.int 24, .null), (.int 255, .bool true),
      (.int 255, .bool false), (.int 256, .null), (.int (2 ^ 64 - 1), .null), (.int (-1), .null),
      (.int (-2 ^ 64), .null), (.bytes [], .null)]
    IsHead .unsigned 255 long ∧ (head .unsigned 255).length < long.length ∧
      (∃ info, readHead long = .ok (Head.ofArgument 0 info 255, [])) ∧
      readHead [0x18, 0xff, 0x07] = .ok (.unsigned 255, [0x07]) ∧
      (∀ rest rest', head .unsigned 255 ++ rest ≠ long ++ rest') ∧
      ¬head .unsigned 255 <+: head .unsigned 256 ∧ head .unsigned 255 < head .unsigned 256 ∧
      (∀ entry ∈ entries, ∀ n, entry.1 = .int n → -2 ^ 64 ≤ n ∧ n < 2 ^ 64) ∧
      sortEntries (encodeEntries entries) = encodeEntries sorted := by
  intro long entries sorted
  obtain ⟨⟨_, shortest⟩, heads, read, alone, inFront, order, keys⟩ :=
    head_shortest_ordered .unsigned 255 256
  have isHead : IsHead .unsigned 255 long := ⟨.two, show 255 < 256 ^ 2 by decide, rfl⟩
  have inRange : ∀ entry ∈ entries, ∀ n, entry.1 = .int n → -2 ^ 64 ≤ n ∧ n < 2 ^ 64 := by
    simp [entries]
  exact ⟨isHead, (shortest long isHead).resolve_left (by decide),
    (heads (by decide) long).mp isHead, read [0x07],
    fun rest rest' same => absurd (alone _ _ _ _ _ isHead same).2.2.1 (by decide),
    fun proper => absurd (inFront.mp proper) (by decide), order.mpr (by decide), inRange,
    keys entries inRange⟩

end TokenLedger.Cbor
