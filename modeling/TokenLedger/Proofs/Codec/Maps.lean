import Mathlib.Data.List.Perm.Subperm
import TokenLedger.Codec
import TokenLedger.Proofs.Cbor.Deterministic
import TokenLedger.Proofs.Cbor.KeyOrder

/-! # Maps in deterministic encoding

Everything that is stored or signed is one map, and all bytes pass through `decodeMap`
first.  It accepts the deterministic encodings of maps and nothing else
(`decodeMap_eq_ok_iff`).

Records and operations are flat maps: numbers and byte strings of 32 bytes, under
numbers that fit in one byte each and increase.  Such a map is decoded as it is, its
entries are found under their keys, and bytes in which all of them are found are its
encoding just if they hold as many entries (`Flat.eq_encode_iff`).
-/

namespace TokenLedger.Codec

open Cbor (Item Spelling KeyLe)

variable {data : Bytes} {entries fields : List (Item × Item)}

/-! ## What is accepted -/

theorem decodeMap_eq_ok :
    decodeMap data = .ok entries ↔
      ∃ rest, Cbor.readItem Cbor.maxDepth data = .ok (.map entries, rest) ∧
        (Item.map entries).encode = data := by
  unfold decodeMap
  cases read : Cbor.readItem Cbor.maxDepth data with
  | error e => simp
  | ok found =>
    obtain ⟨item, rest⟩ := found
    dsimp only
    split
    next other =>
      constructor
      · intro impossible; cases impossible
      · rintro ⟨_, same, canonical⟩
        cases same
        exact absurd canonical other
    next canonical =>
      rw [not_not] at canonical
      constructor
      · intro accepted
        split at accepted <;> cases accepted
        exact ⟨rest, rfl, canonical⟩
      · rintro ⟨_, same, _⟩
        cases same
        rfl

/-- Bytes are accepted just if they are the encoding of a map that is plain and in order. -/
theorem decodeMap_eq_ok_iff (short : data.length < 2 ^ 64) :
    decodeMap data = .ok entries ↔
      data = (Item.map entries).encode ∧ (Item.map entries).Plain Cbor.maxDepth ∧
        (Item.map entries).InOrder := by
  rw [decodeMap_eq_ok]
  constructor
  · rintro ⟨rest, read⟩
    obtain ⟨same, _, plain⟩ := (Cbor.readItem_canonical_iff short).mp read
    exact ⟨same, plain⟩
  · rintro ⟨same, plain⟩
    exact ⟨[], (Cbor.readItem_canonical_iff short).mpr ⟨same, rfl, plain⟩⟩

/-- The deterministic encodings of maps are all that is accepted, with the entries in the order in
    which they stand there.  An item that is spelled in another way, or followed by anything, is
    refused. -/
theorem decodeMap_deterministic (short : data.length < 2 ^ 64) :
    (∀ entries, decodeMap data = .ok entries ↔
      data = (Item.map entries).encode ∧ (Item.map entries).Plain 256 ∧
        (Item.map entries).InOrder) ∧
    ∀ (spelling : Spelling) (rest : Bytes), spelling.WellFormed → data = spelling.bytes ++ rest →
      rest ≠ [] ∨ ¬spelling.Deterministic → ∃ e, decodeMap data = .error e := by
  refine ⟨fun entries => decodeMap_eq_ok_iff short, ?_⟩
  intro spelling rest wellFormed spelled unwanted
  cases decoded : decodeMap data with
  | error e => exact ⟨e, rfl⟩
  | ok entries =>
    obtain ⟨rfl, plain, ordered⟩ := (decodeMap_eq_ok_iff short).mp decoded
    have same : spelling.bytes ++ rest = (Item.map entries).encode ++ [] := by
      rw [List.append_nil, spelled]
    obtain ⟨⟨deterministic, _⟩, rfl⟩ :=
      Spelling.isEncoding_of_append_eq wellFormed plain ordered short same
    rcases unwanted with more | other
    · exact absurd rfl more
    · exact absurd deterministic other

/-- A map that holds an array, and the same map with a break instead of a length. -/
theorem decodeMap_deterministic_array :
    decodeMap [0xa1, 0x01, 0x80] = .ok [(.int 1, .array [])] ∧
      ∃ e, decodeMap [0xbf, 0x01, 0x80, 0xff] = .error e := by
  refine ⟨((decodeMap_deterministic (by decide)).1 _).mpr ⟨rfl, ?_, ?_⟩,
    (decodeMap_deterministic (by decide)).2
      (.map none [(.int false .within 1, .array (some .within) [])]) [] ?_ rfl (.inr ?_)⟩
  · exact .map (by simpa using .int (by decide) (by decide)) (by simpa using .array (by simp))
  · exact .map (by simpa using .int 1) (by simpa using .array (by simp))
      (List.pairwise_singleton _ _)
  · refine .map (by simp) ?_ ?_
    · simpa using .int (show 1 < 24 by decide)
    · simpa using .array (by simp [Cbor.HeadForm.Holds]) (by simp)
  · intro impossible
    cases impossible

/-! ## Looking up -/

/-- Whether looking up the key of an entry, which is a number, gives its value. -/
def Finds (entries : List (Item × Item)) (entry : Item × Item) : Prop :=
  ∃ key : Nat, entry.1 = .int key ∧ lookup entries key = some entry.2

theorem finds_number {key n : Nat} :
    Finds entries (number key n) ↔ lookup entries key = some (.int n) := by
  constructor
  · rintro ⟨_, same, found⟩
    cases same
    exact found
  · exact fun found => ⟨key, rfl, found⟩

theorem finds_bytes32 {key : Nat} {value : Bytes32} :
    Finds entries (bytes32 key value) ↔ lookup entries key = some (.bytes value.toBytes) := by
  constructor
  · rintro ⟨_, same, found⟩
    cases same
    exact found
  · exact fun found => ⟨key, rfl, found⟩

theorem mem_of_lookup {key : Nat} {value : Item} (found : lookup entries key = some value) :
    (.int key, value) ∈ entries := by
  fun_induction lookup entries key with
  | case1 => cases found
  | case2 => cases found; exact List.mem_cons_self
  | case3 _ _ _ _ ih => exact List.mem_cons_of_mem _ (ih found)
  | case4 _ _ _ ih => exact List.mem_cons_of_mem _ (ih found)

theorem Finds.mem {entry : Item × Item} (finds : Finds entries entry) : entry ∈ entries := by
  obtain ⟨key, same, found⟩ := finds
  have present := mem_of_lookup found
  rwa [← same] at present

/-! ## Flat maps -/

/-- An entry of a record: a number or 32 bytes under a key that takes one byte. -/
inductive FlatEntry : Nat → Item × Item → Prop
  | number {key n : Nat} (small : key < 24) (fits : n < 2 ^ 64) : FlatEntry key (number key n)
  | bytes32 {key : Nat} (small : key < 24) (value : Bytes32) : FlatEntry key (bytes32 key value)

namespace FlatEntry

variable {key : Nat} {entry : Item × Item}

theorem small (flat : FlatEntry key entry) : key < 24 := by
  cases flat <;> assumption

theorem key_eq (flat : FlatEntry key entry) : entry.1 = .int key := by
  cases flat <;> rfl

theorem readsAs (flat : FlatEntry key entry) {inner : Option (Cbor.Reader Item)} :
    Cbor.ReadsAs (Cbor.readItemWith inner) entry.1 entry.1 ∧
      Cbor.ReadsAs (Cbor.readItemWith inner) entry.2 entry.2 := by
  cases flat with
  | number small fits =>
    exact ⟨Cbor.readsAs_int (by omega) (by omega), Cbor.readsAs_int (by omega) (by omega)⟩
  | bytes32 small value =>
    refine ⟨Cbor.readsAs_int (by omega) (by omega), Cbor.readsAs_bytes ?_⟩
    rw [value.length_toBytes]
    decide

end FlatEntry

/-- Numbers and byte strings of 32 bytes under keys of one byte each, which increase and do not
    begin before `least`. -/
inductive Flat : (least : Nat) → List (Item × Item) → Prop
  | nil {least : Nat} : Flat least []
  | cons {least key : Nat} {entry : Item × Item} {rest : List (Item × Item)}
    (first : FlatEntry key entry) (after : least ≤ key) (others : Flat (key + 1) rest) :
    Flat least (entry :: rest)

namespace Flat

variable {least : Nat} {entry : Item × Item}

theorem entry_of_mem (flat : Flat least entries) (member : entry ∈ entries) :
    ∃ key, least ≤ key ∧ FlatEntry key entry := by
  induction flat with
  | nil => cases member
  | @cons least key first rest flat after _ ih =>
    rcases List.mem_cons.mp member with rfl | member
    · exact ⟨key, after, flat⟩
    · obtain ⟨other, greater, flat⟩ := ih member
      exact ⟨other, by omega, flat⟩

/-- There is one entry at most for each key of one byte. -/
theorem length_le (flat : Flat least entries) (small : least ≤ 24) :
    least + entries.length ≤ 24 := by
  induction flat with
  | nil => exact small
  | cons first after _ ih =>
    have bound := ih first.small
    rw [List.length_cons]
    omega

theorem encode_lt (flat : Flat least entries) :
    entries.Pairwise fun a b => a.1.encode < b.1.encode := by
  induction flat with
  | nil => exact .nil
  | @cons least key entry rest first after others ih =>
    refine List.pairwise_cons.mpr ⟨fun other member => ?_, ih⟩
    obtain ⟨key', greater, second⟩ := others.entry_of_mem member
    have small := first.small
    have small' := second.small
    rw [first.key_eq, second.key_eq, Item.encode_nonneg_lt_iff] <;> omega

theorem inOrder (flat : Flat least entries) :
    entries.Pairwise (KeyLe fun entry => entry.1.encode) :=
  flat.encode_lt.imp fun less => List.lt_asymm less

theorem nodup_encode (flat : Flat least entries) :
    (entries.map fun entry => entry.1.encode).Nodup := by
  refine List.pairwise_map.mpr (flat.encode_lt.imp fun {a b} less => ?_)
  intro same
  rw [same] at less
  exact List.lt_irrefl _ less

theorem decodeMap_encode (flat : Flat least entries) (small : least ≤ 24) :
    decodeMap (Item.map entries).encode = .ok entries := by
  have short := flat.length_le small
  obtain ⟨inner, eq⟩ := Cbor.readItem_eq 255
  have back : ∀ entry ∈ entries, Cbor.ReadsAs (Cbor.readItem 255) entry.1 (id entry.1) ∧
      Cbor.ReadsAs (Cbor.readItem 255) entry.2 (id entry.2) := by
    intro entry member
    obtain ⟨key, _, flat⟩ := flat.entry_of_mem member
    exact eq ▸ flat.readsAs
  have read := Cbor.readsAs_map (by omega) back []
  rw [List.append_nil, Cbor.sortByKey_eq_self flat.inOrder, Prod.map_id, List.map_id] at read
  exact decodeMap_eq_ok.mpr ⟨[], read, rfl⟩

theorem finds (flat : Flat least entries) (member : entry ∈ entries) : Finds entries entry := by
  induction flat with
  | nil => cases member
  | @cons least key first rest flat after others ih =>
    obtain ⟨firstKey, value⟩ := first
    obtain rfl : firstKey = .int key := flat.key_eq
    rcases List.mem_cons.mp member with rfl | member
    · exact ⟨key, rfl, if_pos rfl⟩
    · obtain ⟨key', greater, second⟩ := others.entry_of_mem member
      obtain ⟨other, same, found⟩ := ih member
      -- its key is greater than the first one, so the look-up goes on to the rest
      obtain rfl : key' = other := by
        have both := Item.int.inj (second.key_eq.symm.trans same)
        omega
      refine ⟨key', same, ?_⟩
      rw [lookup, if_neg (by omega), found]

/-- Bytes in which all entries are found are their encoding just if there are no more entries. -/
theorem eq_encode_iff (flat : Flat least fields) (small : least ≤ 24)
    (decoded : decodeMap data = .ok entries) (found : ∀ field ∈ fields, Finds entries field) :
    data = (Item.map fields).encode ↔ entries.length = fields.length := by
  constructor
  · rintro rfl
    have same := flat.decodeMap_encode small
    rw [decoded] at same
    rw [Except.ok.inj same]
  · intro length
    obtain ⟨_, _, rfl⟩ := decodeMap_eq_ok.mp decoded
    -- as many entries, all of which are fields: the same entries, so the same once sorted
    have perm : fields.Perm entries :=
      (List.Nodup.subperm (flat.nodup_encode.of_map _) fun field member =>
        (found field member).mem).perm_of_length_le (Nat.le_of_eq length)
    have sorted : Cbor.sortByKey entries = fields := by
      refine List.Perm.eq_of_pairwise (fun a b seen seen' le le' => ?_)
        (Cbor.pairwise_sortByKey entries) flat.inOrder ?_
      · exact List.inj_on_of_nodup_map flat.nodup_encode
          (perm.mem_iff.mpr (Cbor.mem_sortByKey.mp seen)) seen' (le.antisymm le')
      · exact (List.perm_insertionSort _ entries).trans perm.symm
    rw [Item.encode_map, Item.encode_map, sorted, Cbor.sortByKey_eq_self flat.inOrder, length]

end Flat

end TokenLedger.Codec
