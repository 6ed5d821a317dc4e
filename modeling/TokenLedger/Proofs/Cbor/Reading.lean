import Mathlib.Algebra.Order.BigOperators.Group.List
import TokenLedger.Proofs.Cbor.Heads
import TokenLedger.Proofs.Cbor.Items

/-! # Reading back what was written

The reader accepts many encodings that the writer never produces.  This module
is about the other direction: what the reader makes of an encoding that the writer
did produce, whatever bytes come after it.

A head is read as its major type and argument (`readHead_head`), and what follows it
is then read by the major type.  So an item is read as itself but for two things
(`readsAs_of_short`): the entries of its maps have been sorted, and null has come in for
what has no encoding.  All that is asked of the lengths in it is that each fits in a head
(`Item.Short`), as they do if the encoding is shorter than `2^64` bytes.
-/

namespace TokenLedger.Cbor

/-! ## Leaves -/

/-- A reader makes `found` of the encoding of an item, and leaves what follows. -/
def ReadsAs (read : Reader Item) (item found : Item) : Prop :=
  ∀ rest, read (item.encode ++ rest) = .ok (found, rest)

variable {inner : Option (Reader Item)}

theorem readsAs_int {n : Int} (low : -2 ^ 64 ≤ n) (high : n < 2 ^ 64) :
    ReadsAs (readItemWith inner) (.int n) (.int n) := by
  intro rest
  unfold Item.encode
  split
  next nonneg =>
    obtain ⟨info, read⟩ := readHead_head .unsigned (show n.toNat < 2 ^ 64 by omega) rest
    have back : ((n.toNat : Nat) : Int) = n := by omega
    simp only [readItemWith, read, Head.ofArgument, Major.code, back]
  next negative =>
    obtain ⟨info, read⟩ := readHead_head .negative (show (-1 - n).toNat < 2 ^ 64 by omega) rest
    have back : -1 - (((-1 - n).toNat : Nat) : Int) = n := by omega
    simp only [readItemWith, read, Head.ofArgument, Major.code, back]

theorem readsAs_bytes {content : Bytes} (short : content.length < 2 ^ 64) :
    ReadsAs (readItemWith inner) (.bytes content) (.bytes content) := by
  intro rest
  obtain ⟨info, read⟩ := readHead_head .bytes short (content ++ rest)
  simp only [Item.encode, List.append_assoc, readItemWith, read, Head.ofArgument, Major.code,
    readBytes, Bytes.split?_append, Except.map]

theorem readsAs_text {content : String} (short : (Bytes.ofText content).length < 2 ^ 64) :
    ReadsAs (readItemWith inner) (.text content) (.text content) := by
  intro rest
  obtain ⟨info, read⟩ := readHead_head .text short (Bytes.ofText content ++ rest)
  simp only [Item.encode, List.append_assoc, readItemWith, read, Head.ofArgument, Major.code,
    readText, Bytes.split?_append, Bytes.toText?_ofText, Except.map]

theorem readsAs_bool (b : Bool) : ReadsAs (readItemWith inner) (.bool b) (.bool b) := by
  intro rest
  cases b <;> rfl

theorem readsAs_null : ReadsAs (readItemWith inner) .null .null := fun _ => rfl

/-- The byte for "undefined" is read as null. -/
theorem readsAs_other : ReadsAs (readItemWith inner) .other .null := fun _ => rfl

/-! ## Lists of items -/

/-- What is written one after the other is read one after the other. -/
theorem readMany_flatten {α β : Type} {step : Reader β} {write : α → Bytes} {f : α → β}
    {items : List α} (back : ∀ item ∈ items, ∀ rest, step (write item ++ rest) = .ok (f item, rest))
    (rest : Bytes) :
    readMany step items.length ((items.map write).flatten ++ rest) = .ok (items.map f, rest) := by
  induction items with
  | nil => rfl
  | cons first items ih =>
    obtain ⟨readFirst, back⟩ := List.forall_mem_cons.mp back
    rw [List.map_cons, List.flatten_cons, List.append_assoc, List.length_cons, readMany, readFirst]
    simp only [ih back, List.map_cons]

theorem length_le_length_flatten {items : List Bytes} (nonempty : ∀ item ∈ items, item ≠ []) :
    items.length ≤ items.flatten.length := by
  have each : ∀ n ∈ items.map List.length, 1 ≤ n :=
    List.forall_mem_map.mpr fun item member => List.length_pos_iff.mpr (nonempty item member)
  have sum := List.length_le_sum_of_one_le _ each
  rwa [List.length_map, ← List.length_flatten] at sum

theorem length_le_of_mem {items : List Bytes} {item : Bytes} (member : item ∈ items) :
    item.length ≤ items.flatten.length :=
  (List.sublist_flatten_of_mem member).length_le

namespace Item

theorem length_le_encode_array (items : List Item) :
    items.length ≤ (array items).encode.length := by
  have count := length_le_length_flatten (List.forall_mem_map.mpr fun item (_ : item ∈ items) =>
    item.encode_ne_nil)
  rw [List.length_map] at count
  rw [encode_array, List.length_append]
  omega

theorem encode_length_le_array {items : List Item} {item : Item} (member : item ∈ items) :
    item.encode.length ≤ (array items).encode.length := by
  have part := length_le_of_mem (List.mem_map_of_mem (f := encode) member)
  rw [encode_array, List.length_append]
  omega

theorem length_le_encode_map (entries : List (Item × Item)) :
    entries.length ≤ (map entries).encode.length := by
  have count := length_le_length_flatten (List.forall_mem_map.mpr
    fun entry (_ : entry ∈ sortByKey entries) =>
      List.append_ne_nil_of_left_ne_nil entry.1.encode_ne_nil entry.2.encode)
  rw [List.length_map, length_sortByKey] at count
  rw [encode_map, List.length_append]
  omega

theorem encode_length_le_map {entries : List (Item × Item)} {entry : Item × Item}
    (member : entry ∈ entries) : entry.1.encode.length ≤ (map entries).encode.length ∧
      entry.2.encode.length ≤ (map entries).encode.length := by
  have part := length_le_of_mem (List.mem_map_of_mem
    (f := fun entry : Item × Item => entry.1.encode ++ entry.2.encode) (mem_sortByKey.mpr member))
  rw [List.length_append] at part
  rw [encode_map, List.length_append]
  omega

/-- Whether every length in an item fits in a head: those of its byte strings, of its texts in
    UTF-8, of its arrays and of its maps. -/
inductive Short : Item → Prop
  | int (n : Int) : Short (.int n)
  | bytes {content : Bytes} (fits : content.length < 2 ^ 64) : Short (.bytes content)
  | text {content : String} (fits : (Bytes.ofText content).length < 2 ^ 64) :
    Short (.text content)
  | array {items : List Item} (fits : items.length < 2 ^ 64)
    (members : ∀ item ∈ items, Short item) : Short (.array items)
  | map {entries : List (Item × Item)} (fits : entries.length < 2 ^ 64)
    (keys : ∀ entry ∈ entries, Short entry.1) (values : ∀ entry ∈ entries, Short entry.2) :
    Short (.map entries)
  | bool (b : Bool) : Short (.bool b)
  | null : Short .null
  | other : Short .other

theorem short_of_encode {item : Item} (short : item.encode.length < 2 ^ 64) : item.Short := by
  induction item using Item.induct with
  | int n => exact .int n
  | bytes content =>
    rw [encode, List.length_append] at short
    exact .bytes (by omega)
  | text content =>
    rw [encode, List.length_append] at short
    exact .text (by omega)
  | array items ih =>
    -- the members are as many as their bytes at most, so their number fits in a head
    have count := length_le_encode_array items
    refine .array (by omega) fun item member => ih item member ?_
    have part := encode_length_le_array member
    omega
  | map entries ih =>
    have count := length_le_encode_map entries
    refine .map (by omega) (fun entry member => (ih entry member).1 ?_)
      fun entry member => (ih entry member).2 ?_
    all_goals
      obtain ⟨key, value⟩ := encode_length_le_map member
      omega
  | bool b => exact .bool b
  | null => exact .null
  | other => exact .other

end Item

/-! ## Items -/

theorem readItem_eq (depth : Nat) : ∃ inner, readItem depth = readItemWith inner := by
  cases depth with
  | zero => exact ⟨none, rfl⟩
  | succ depth => exact ⟨some (readItem depth), rfl⟩

theorem readsAs_array {read : Reader Item} {items : List Item} {f : Item → Item}
    (short : items.length < 2 ^ 64) (back : ∀ item ∈ items, ReadsAs read item (f item)) :
    ReadsAs (readItemWith (some read)) (.array items) (.array (items.map f)) := by
  intro rest
  obtain ⟨info, head⟩ := readHead_head .array short ((items.map Item.encode).flatten ++ rest)
  rw [Item.encode_array, List.append_assoc]
  simp only [readItemWith, head, Head.ofArgument, Major.code, readSequence, readMany_flatten back,
    Except.map]

/-- The entries of a map are read in the order in which they are written. -/
theorem readsAs_map {read : Reader Item} {entries : List (Item × Item)} {f : Item → Item}
    (short : entries.length < 2 ^ 64)
    (back : ∀ entry ∈ entries,
      ReadsAs read entry.1 (f entry.1) ∧ ReadsAs read entry.2 (f entry.2)) :
    ReadsAs (readItemWith (some read)) (.map entries)
      (.map ((sortByKey entries).map (Prod.map f f))) := by
  intro rest
  have pairs : ∀ entry ∈ sortByKey entries, ∀ rest,
      readPair read read (entry.1.encode ++ entry.2.encode ++ rest) =
        .ok (Prod.map f f entry, rest) := by
    intro entry member rest
    obtain ⟨key, value⟩ := back entry (mem_sortByKey.mp member)
    rw [List.append_assoc, readPair, key]
    simp only [value rest]
    rfl
  have body := readMany_flatten pairs rest
  obtain ⟨info, head⟩ := readHead_head .map short
    (((sortByKey entries).map fun entry => entry.1.encode ++ entry.2.encode).flatten ++ rest)
  rw [length_sortByKey] at body
  rw [Item.encode_map, List.append_assoc]
  simp only [readItemWith, head, Head.ofArgument, Major.code, readSequence, body, Except.map]

/-- An item is read back from its encoding, sorted and with null for what has no encoding. -/
theorem readsAs_of_short {item : Item} {depth : Nat} (plain : item.nulled.Plain depth)
    (short : item.Short) : ReadsAs (readItem depth) item item.sorted.nulled := by
  induction item using Item.induct generalizing depth with
  | int n =>
    obtain ⟨inner, eq⟩ := readItem_eq depth
    cases plain with | int low high =>
    exact eq ▸ readsAs_int low high
  | bytes content =>
    obtain ⟨inner, eq⟩ := readItem_eq depth
    cases short with | bytes fits =>
    exact eq ▸ readsAs_bytes fits
  | text content =>
    obtain ⟨inner, eq⟩ := readItem_eq depth
    cases short with | text fits =>
    exact eq ▸ readsAs_text fits
  | array items ih =>
    rw [Item.nulled_array] at plain
    cases plain with | array members =>
    cases short with | array fits short =>
    rw [Item.sorted_array, Item.nulled_array, List.map_map]
    exact readsAs_array fits fun item member =>
      ih item member (members _ (List.mem_map_of_mem member)) (short item member)
  | map entries ih =>
    rw [Item.nulled_map] at plain
    cases plain with | map keys values =>
    cases short with | map fits shortKeys shortValues =>
    -- sorted on the outside first, for this is the order in which the entries are read
    rw [Item.sorted_map_eq, Item.nulled_map, List.map_map]
    refine readsAs_map (f := fun item => item.sorted.nulled) fits fun entry member => ?_
    have present := List.mem_map_of_mem (f := Prod.map Item.nulled Item.nulled) member
    exact ⟨(ih entry member).1 (keys _ present) (shortKeys entry member),
      (ih entry member).2 (values _ present) (shortValues entry member)⟩
  | bool b =>
    obtain ⟨inner, eq⟩ := readItem_eq depth
    exact eq ▸ readsAs_bool b
  | null =>
    obtain ⟨inner, eq⟩ := readItem_eq depth
    exact eq ▸ readsAs_null
  | other =>
    obtain ⟨inner, eq⟩ := readItem_eq depth
    exact eq ▸ readsAs_other

theorem readsAs_sorted_nulled {item : Item} {depth : Nat} (plain : item.nulled.Plain depth)
    (short : item.encode.length < 2 ^ 64) : ReadsAs (readItem depth) item item.sorted.nulled :=
  readsAs_of_short plain (Item.short_of_encode short)

end TokenLedger.Cbor
