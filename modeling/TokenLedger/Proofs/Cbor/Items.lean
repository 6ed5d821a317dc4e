import Mathlib.Algebra.Group.Int.Defs
import Mathlib.Data.List.Sort
import TokenLedger.Cbor.Item

/-! # Items as trees

Items hold items in lists and in lists of pairs.  `Item.induct` is the induction that
goes with this shape: a property holds of every item if it holds of the leaves and is
handed on from the members of an array and from the keys and values of a map.

Two functions on trees say what becomes of an item when it is written and read again.
`Item.sorted` puts the entries of every map in the order of their encoded keys, which
changes nothing in the encoding (`Item.encode_sorted`).  `Item.nulled` replaces what
has no encoding of its own.  Two predicates say that there is nothing left for them to
do: `Item.InOrder` of the order, `Item.Plain` of the kinds of item, and of how deep
arrays and maps nest.
-/

namespace TokenLedger.Cbor

/-! ## Induction -/

@[elab_as_elim]
theorem Item.induct {P : Item → Prop} (int : ∀ n, P (.int n))
    (bytes : ∀ content, P (.bytes content)) (text : ∀ content, P (.text content))
    (array : ∀ items, (∀ item ∈ items, P item) → P (.array items))
    (map : ∀ entries, (∀ entry ∈ entries, P entry.1 ∧ P entry.2) → P (.map entries))
    (bool : ∀ b, P (.bool b)) (null : P .null) (other : P .other) (item : Item) : P item :=
  @Item.rec P (fun items => ∀ item ∈ items, P item)
    (fun entries => ∀ entry ∈ entries, P entry.1 ∧ P entry.2) (fun entry => P entry.1 ∧ P entry.2)
    int bytes text array map bool null other
    (by simp) (fun _ _ first rest => List.forall_mem_cons.mpr ⟨first, rest⟩)
    (by simp) (fun _ _ first rest => List.forall_mem_cons.mpr ⟨first, rest⟩)
    (fun _ _ key value => ⟨key, value⟩) item

/-! ## Encodings of lists -/

theorem encodeItems_eq (items : List Item) :
    encodeItems items = (items.map Item.encode).flatten := by
  induction items with
  | nil => rfl
  | cons first rest ih => rw [encodeItems, ih, List.map_cons, List.flatten_cons]

theorem encodeEntries_eq (entries : List (Item × Item)) :
    encodeEntries entries = entries.map fun entry => (entry.1.encode, entry.2.encode) := by
  induction entries with
  | nil => rfl
  | cons first rest ih => rw [encodeEntries, ih, List.map_cons]

theorem joinEntries_eq (entries : List (Bytes × Bytes)) :
    joinEntries entries = (entries.map fun entry => entry.1 ++ entry.2).flatten := by
  induction entries with
  | nil => rfl
  | cons first rest ih => rw [joinEntries, ih, List.map_cons, List.flatten_cons]

theorem head_ne_nil (major : Major) (n : Nat) : head major n ≠ [] := by
  unfold head
  split_ifs <;> exact List.cons_ne_nil _ _

theorem Item.encode_ne_nil (item : Item) : item.encode ≠ [] := by
  cases item with
  | int n => unfold encode; split <;> exact head_ne_nil _ _
  | bytes content => simp [encode, head_ne_nil]
  | text content => simp [encode, head_ne_nil]
  | array items => simp [encode, head_ne_nil]
  | map entries => simp [encode, head_ne_nil]
  | bool b => simp [encode]
  | null => simp [encode]
  | other => simp [encode]

/-! ## The order of entries -/

/-- Whether something does not come after something else in the order of their keys. -/
def KeyLe {α : Type} (key : α → Bytes) (a b : α) : Prop := ¬key b < key a

section KeyLe

variable {α : Type} {key : α → Bytes}

instance : DecidableRel (KeyLe key) := fun _ _ => inferInstanceAs (Decidable ¬_)

instance : Std.Total (KeyLe key) where
  total _ _ := (List.le_total _ _).imp List.not_lt.mpr List.not_lt.mpr

instance : IsTrans α (KeyLe key) where
  trans _ _ _ first second :=
    List.not_lt.mpr (List.le_trans (List.not_lt.mp first) (List.not_lt.mp second))

theorem KeyLe.antisymm {a b : α} (first : KeyLe key a b) (second : KeyLe key b a) :
    key a = key b :=
  List.le_antisymm (List.not_lt.mp first) (List.not_lt.mp second)

end KeyLe

theorem sortEntries_eq (entries : List (Bytes × Bytes)) :
    sortEntries entries = entries.insertionSort (KeyLe Prod.fst) := by
  -- both put an entry before the first one whose key is not smaller
  have insert : ∀ entry sorted,
      insertEntry entry sorted = sorted.orderedInsert (KeyLe Prod.fst) entry := by
    intro entry sorted
    induction sorted with
    | nil => rfl
    | cons first rest ih =>
      rw [insertEntry, List.orderedInsert_cons, ih]
      exact (ite_not _ _ _).symm
  induction entries with
  | nil => rfl
  | cons first rest ih => rw [List.insertionSort_cons, ← ih, ← insert]; rfl

/-- The entries of a map in the order of their encoded keys. -/
def sortByKey (entries : List (Item × Item)) : List (Item × Item) :=
  entries.insertionSort (KeyLe fun entry => entry.1.encode)

/-- Entries may be sorted before they are encoded. -/
theorem sortEntries_encodeEntries (entries : List (Item × Item)) :
    sortEntries (encodeEntries entries) = encodeEntries (sortByKey entries) := by
  rw [sortEntries_eq, encodeEntries_eq, encodeEntries_eq]
  exact (List.map_insertionSort (KeyLe fun entry : Item × Item => entry.1.encode)
    (KeyLe Prod.fst) _ _ fun _ _ _ _ => Iff.rfl).symm

@[simp] theorem mem_sortByKey {entries : List (Item × Item)} {entry : Item × Item} :
    entry ∈ sortByKey entries ↔ entry ∈ entries := List.mem_insertionSort _

@[simp] theorem length_sortByKey (entries : List (Item × Item)) :
    (sortByKey entries).length = entries.length := List.length_insertionSort _ _

theorem pairwise_sortByKey (entries : List (Item × Item)) :
    (sortByKey entries).Pairwise (KeyLe fun entry => entry.1.encode) :=
  List.pairwise_insertionSort _ _

theorem sortByKey_eq_self {entries : List (Item × Item)}
    (sorted : entries.Pairwise (KeyLe fun entry => entry.1.encode)) : sortByKey entries = entries :=
  sorted.insertionSort_eq

/-- A change of the entries that leaves their encoded keys alone can wait until they are sorted. -/
theorem sortByKey_map {f : Item × Item → Item × Item} {entries : List (Item × Item)}
    (keeps : ∀ entry ∈ entries, (f entry).1.encode = entry.1.encode) :
    sortByKey (entries.map f) = (sortByKey entries).map f :=
  (List.map_insertionSort _ _ f entries fun a seen b seen' => by
    simp only [KeyLe, keeps a seen, keeps b seen']).symm

namespace Item

theorem encode_array (items : List Item) :
    (array items).encode = head .array items.length ++ (items.map encode).flatten := by
  rw [encode, encodeItems_eq]

/-- The entries of a map are written in the order of their keys. -/
theorem encode_map (entries : List (Item × Item)) :
    (map entries).encode = head .map entries.length ++
      ((sortByKey entries).map fun entry => entry.1.encode ++ entry.2.encode).flatten := by
  rw [encode, sortEntries_encodeEntries, joinEntries_eq, encodeEntries_eq, List.map_map]
  rfl

end Item

/-! ## Rebuilding -/

section Rebuild

variable (arrange : List (Item × Item) → List (Item × Item)) (blank : Item)

mutual

/-- The item built anew from its leaves: the entries of every map are arranged once they are
    rebuilt, and something stands for what has no encoding of its own. -/
def Item.rebuild : Item → Item
  | .int n => .int n
  | .bytes content => .bytes content
  | .text content => .text content
  | .array items => .array (rebuildItems items)
  | .map entries => .map (arrange (rebuildEntries entries))
  | .bool b => .bool b
  | .null => .null
  | .other => blank

/-- Items built anew. -/
def rebuildItems : List Item → List Item
  | [] => []
  | item :: rest => Item.rebuild item :: rebuildItems rest

/-- Entries with keys and values built anew. -/
def rebuildEntries : List (Item × Item) → List (Item × Item)
  | [] => []
  | (key, value) :: rest => (Item.rebuild key, Item.rebuild value) :: rebuildEntries rest

end

theorem rebuildItems_eq (items : List Item) :
    rebuildItems arrange blank items = items.map (Item.rebuild arrange blank) := by
  induction items with
  | nil => rfl
  | cons first rest ih => rw [rebuildItems, ih, List.map_cons]

theorem rebuildEntries_eq (entries : List (Item × Item)) :
    rebuildEntries arrange blank entries =
      entries.map (Prod.map (Item.rebuild arrange blank) (Item.rebuild arrange blank)) := by
  induction entries with
  | nil => rfl
  | cons first rest ih => rw [rebuildEntries, ih, List.map_cons]; rfl

end Rebuild

namespace Item

/-- The item with the entries of every map in it in the order of their encoded keys; entries with
    the same key stay in the order they were in. -/
def sorted (item : Item) : Item := rebuild sortByKey .other item

/-- The item with null for everything that has no encoding of its own. -/
def nulled (item : Item) : Item := rebuild id .null item

theorem sorted_array (items : List Item) : (array items).sorted = .array (items.map sorted) :=
  congrArg array (rebuildItems_eq sortByKey .other items)

theorem sorted_map (entries : List (Item × Item)) :
    (map entries).sorted = .map (sortByKey (entries.map (Prod.map sorted sorted))) :=
  congrArg (fun rebuilt => map (sortByKey rebuilt)) (rebuildEntries_eq sortByKey .other entries)

theorem nulled_array (items : List Item) : (array items).nulled = .array (items.map nulled) :=
  congrArg array (rebuildItems_eq id .null items)

theorem nulled_map (entries : List (Item × Item)) :
    (map entries).nulled = .map (entries.map (Prod.map nulled nulled)) :=
  congrArg map (rebuildEntries_eq id .null entries)

/-- Encoding sorts, so sorting before it makes no difference. -/
@[simp] theorem encode_sorted (item : Item) : item.sorted.encode = item.encode := by
  induction item using Item.induct with
  | array items ih =>
    rw [sorted_array, encode_array, encode_array, List.length_map, List.map_map]
    exact congrArg (fun encoded => head _ _ ++ List.flatten encoded) (List.map_congr_left ih)
  | map entries ih =>
    -- the keys are encoded as before, so what is sorted already is not moved by encoding
    have keys : ∀ entry ∈ entries, (Prod.map sorted sorted entry).1.encode = entry.1.encode :=
      fun entry member => (ih entry member).1
    rw [sorted_map, encode_map, encode_map, length_sortByKey, List.length_map,
      sortByKey_eq_self (pairwise_sortByKey _), sortByKey_map keys, List.map_map]
    refine congrArg (fun encoded => head _ _ ++ List.flatten encoded)
      (List.map_congr_left fun entry member => ?_)
    obtain ⟨key, value⟩ := ih entry (mem_sortByKey.mp member)
    exact congrArg₂ _ key value
  | _ => rfl

/-- Sorting leaves the encoded keys of entries alone, so it can wait or be done first. -/
theorem sorted_map_eq (entries : List (Item × Item)) :
    (map entries).sorted = .map ((sortByKey entries).map (Prod.map sorted sorted)) := by
  have keeps : ∀ entry ∈ entries, (Prod.map sorted sorted entry).1.encode = entry.1.encode :=
    fun entry _ => encode_sorted entry.1
  rw [sorted_map, sortByKey_map keeps]

/-! ## Order -/

/-- Whether the entries of every map in an item are in the order of their encoded keys. -/
inductive InOrder : Item → Prop
  | int (n : Int) : InOrder (.int n)
  | bytes (content : Bytes) : InOrder (.bytes content)
  | text (content : String) : InOrder (.text content)
  | array {items : List Item} (members : ∀ item ∈ items, InOrder item) : InOrder (.array items)
  | map {entries : List (Item × Item)} (keys : ∀ entry ∈ entries, InOrder entry.1)
    (values : ∀ entry ∈ entries, InOrder entry.2)
    (sorted : entries.Pairwise (KeyLe fun entry => entry.1.encode)) : InOrder (.map entries)
  | bool (b : Bool) : InOrder (.bool b)
  | null : InOrder .null
  | other : InOrder .other

theorem inOrder_sorted (item : Item) : item.sorted.InOrder := by
  induction item using Item.induct with
  | int n => exact .int n
  | bytes content => exact .bytes content
  | text content => exact .text content
  | array items ih =>
    rw [sorted_array]
    exact .array (List.forall_mem_map.mpr ih)
  | map entries ih =>
    rw [sorted_map]
    refine .map (fun entry member => ?_) (fun entry member => ?_) (pairwise_sortByKey _)
    · obtain ⟨former, present, rfl⟩ := List.mem_map.mp (mem_sortByKey.mp member)
      exact (ih former present).1
    · obtain ⟨former, present, rfl⟩ := List.mem_map.mp (mem_sortByKey.mp member)
      exact (ih former present).2
  | bool b => exact .bool b
  | null => exact .null
  | other => exact .other

theorem InOrder.sorted_eq {item : Item} (ordered : item.InOrder) : item.sorted = item := by
  induction item using Item.induct with
  | array items ih =>
    cases ordered with | array ordered =>
    rw [sorted_array, List.map_congr_left fun item member => ih item member (ordered item member),
      List.map_id']
  | map entries ih =>
    cases ordered with | map keys values sorted =>
    -- the entries stay where they are, so only what is inside them is left to compare
    rw [sorted_map_eq, sortByKey_eq_self sorted]
    have same : ∀ entry ∈ entries, Prod.map Item.sorted Item.sorted entry = entry :=
      fun entry member => Prod.ext ((ih entry member).1 (keys entry member))
        ((ih entry member).2 (values entry member))
    rw [List.map_congr_left same, List.map_id']
  | _ => rfl

/-! ## Kinds of item -/

/-- Whether an item is made of integers between `-2^64` and `2^64 - 1`, byte strings, texts,
    booleans, null, arrays and maps alone, with arrays and maps nested at most `depth` deep. -/
inductive Plain : (depth : Nat) → Item → Prop
  | int {depth : Nat} {n : Int} (low : -2 ^ 64 ≤ n) (high : n < 2 ^ 64) : Plain depth (.int n)
  | bytes {depth : Nat} (content : Bytes) : Plain depth (.bytes content)
  | text {depth : Nat} (content : String) : Plain depth (.text content)
  | array {depth : Nat} {items : List Item} (members : ∀ item ∈ items, Plain depth item) :
    Plain (depth + 1) (.array items)
  | map {depth : Nat} {entries : List (Item × Item)} (keys : ∀ entry ∈ entries, Plain depth entry.1)
    (values : ∀ entry ∈ entries, Plain depth entry.2) : Plain (depth + 1) (.map entries)
  | bool {depth : Nat} (b : Bool) : Plain depth (.bool b)
  | null {depth : Nat} : Plain depth .null

theorem Plain.nulled_eq {depth : Nat} {item : Item} (plain : item.Plain depth) :
    item.nulled = item := by
  induction plain with
  | array _ ih => rw [nulled_array, List.map_congr_left ih, List.map_id']
  | map _ _ ihKeys ihValues =>
    have same : ∀ entry ∈ _, Prod.map nulled nulled entry = entry :=
      fun entry member => Prod.ext (ihKeys entry member) (ihValues entry member)
    rw [nulled_map, List.map_congr_left same, List.map_id']
  | _ => rfl

@[simp] theorem nulled_nulled (item : Item) : item.nulled.nulled = item.nulled := by
  induction item using Item.induct with
  | array items ih =>
    rw [nulled_array, nulled_array, List.map_map]
    exact congrArg array (List.map_congr_left ih)
  | map entries ih =>
    rw [nulled_map, nulled_map, List.map_map]
    exact congrArg map (List.map_congr_left fun entry member =>
      Prod.ext (ih entry member).1 (ih entry member).2)
  | _ => rfl

/-- Sorting brings nothing into an item that has no encoding. -/
theorem nulled_sorted_nulled (item : Item) : item.nulled.sorted.nulled = item.nulled.sorted := by
  induction item using Item.induct with
  | array items ih =>
    simp only [nulled_array, sorted_array, List.map_map]
    exact congrArg array (List.map_congr_left ih)
  | map entries ih =>
    rw [nulled_map, sorted_map, nulled_map]
    refine congrArg map ((List.map_congr_left fun entry member => ?_).trans (List.map_id' _))
    -- the sorted entries are among those that were rebuilt
    obtain ⟨_, rebuilt, rfl⟩ := List.mem_map.mp (mem_sortByKey.mp member)
    obtain ⟨former, present, rfl⟩ := List.mem_map.mp rebuilt
    exact Prod.ext (ih former present).1 (ih former present).2
  | _ => rfl

/-- What is unchanged by being written and read again has no need of it. -/
theorem sorted_eq_and_nulled_eq {item : Item} (same : item.sorted.nulled = item) :
    item.sorted = item ∧ item.nulled = item := by
  have nulled : item.nulled = item := by rw [← same, nulled_nulled]
  have sorted := nulled_sorted_nulled item
  rw [nulled, same] at sorted
  exact ⟨sorted.symm, nulled⟩

end Item

end TokenLedger.Cbor
