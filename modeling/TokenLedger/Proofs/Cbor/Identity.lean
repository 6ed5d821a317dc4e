import TokenLedger.Proofs.Cbor.Reading

/-! # What an encoding says of an item

The encoding of an item leaves out one thing, which is the order of the entries in its
maps.  Items that differ in no more are those that come out of each other by exchanging
neighbouring entries with different keys, inside an item at any depth (`Item.Reordered`).
Sorting does just such exchanges, and items that are exchanged so are sorted alike
(`sorted_eq_iff_reordered`).  Everything else can be read back from the encoding, whatever
comes after it, so it also says where it ends (`encode_append_eq_iff`).

Keys count as different if their encodings are: two maps as keys are the same key if they
differ in the order of their entries alone.
-/

namespace TokenLedger.Cbor

/-! ## Exchanging neighbours -/

section Insert

variable {α : Type} {key : α → Bytes} {a b : α}

theorem orderedInsert_of_before (before : KeyLe key a b) (strictly : ¬KeyLe key b a)
    (items : List α) :
    (items.orderedInsert (KeyLe key) b).orderedInsert (KeyLe key) a =
      (items.orderedInsert (KeyLe key) a).orderedInsert (KeyLe key) b := by
  induction items with
  | nil => simp [before, strictly]
  | cons first rest ih =>
    by_cases here : KeyLe key a first
    · by_cases here' : KeyLe key b first <;> simp [before, strictly, here, here']
    · -- the other belongs further down still, so both are passed on
      have there : ¬KeyLe key b first := fun here' => here (IsTrans.trans _ _ _ before here')
      simp [here, there, ih]

/-- Entries with different keys may be inserted in either order. -/
theorem orderedInsert_comm (distinct : key a ≠ key b) (items : List α) :
    (items.orderedInsert (KeyLe key) b).orderedInsert (KeyLe key) a =
      (items.orderedInsert (KeyLe key) a).orderedInsert (KeyLe key) b := by
  rcases Std.Total.total (r := KeyLe key) a b with before | after
  · exact orderedInsert_of_before before (fun after => distinct (before.antisymm after)) items
  · have strictly : ¬KeyLe key a b := fun before => distinct (before.antisymm after)
    exact (orderedInsert_of_before after strictly items).symm

end Insert

theorem sortByKey_swap (front : List (Item × Item)) {x y : Item × Item} (rest : List (Item × Item))
    (distinct : x.1.encode ≠ y.1.encode) :
    sortByKey (front ++ x :: y :: rest) = sortByKey (front ++ y :: x :: rest) := by
  induction front with
  | nil => exact @orderedInsert_comm _ (fun entry => entry.1.encode) x y distinct _
  | cons first front ih => exact congrArg (List.orderedInsert _ first) ih

namespace Item

/-- Whether an item comes out of another by exchanging, one pair after the other, neighbouring
    entries with different keys in the maps that it is or holds. -/
inductive Reordered : Item → Item → Prop
  | refl (item : Item) : Reordered item item
  | trans {first second third : Item} (now : Reordered first second)
    (later : Reordered second third) : Reordered first third
  | swap (front : List (Item × Item)) {x y : Item × Item} (rest : List (Item × Item))
    (distinct : x.1.encode ≠ y.1.encode) :
    Reordered (.map (front ++ x :: y :: rest)) (.map (front ++ y :: x :: rest))
  | member (front : List Item) {a b : Item} (rest : List Item) (inside : Reordered a b) :
    Reordered (.array (front ++ a :: rest)) (.array (front ++ b :: rest))
  | key (front : List (Item × Item)) {a b : Item} (value : Item) (rest : List (Item × Item))
    (inside : Reordered a b) :
    Reordered (.map (front ++ (a, value) :: rest)) (.map (front ++ (b, value) :: rest))
  | value (front : List (Item × Item)) (key : Item) {a b : Item} (rest : List (Item × Item))
    (inside : Reordered a b) :
    Reordered (.map (front ++ (key, a) :: rest)) (.map (front ++ (key, b) :: rest))

namespace Reordered

variable {a b : Item}

theorem symm (reordered : a.Reordered b) : b.Reordered a := by
  induction reordered with
  | refl item => exact .refl item
  | trans _ _ now later => exact later.trans now
  | swap front rest distinct => exact .swap front rest distinct.symm
  | member front rest _ inside => exact .member front rest inside
  | key front value rest _ inside => exact .key front value rest inside
  | value front key rest _ inside => exact .value front key rest inside

theorem sorted_eq (reordered : a.Reordered b) : a.sorted = b.sorted := by
  induction reordered with
  | refl => rfl
  | trans _ _ now later => exact now.trans later
  | swap front rest distinct =>
    rw [sorted_map_eq, sorted_map_eq, sortByKey_swap front rest distinct]
  | member front rest _ inside =>
    simp only [sorted_array, List.map_append, List.map_cons, inside]
  | key front value rest _ inside =>
    simp only [sorted_map, List.map_append, List.map_cons, Prod.map_apply, inside]
  | value front key rest _ inside =>
    simp only [sorted_map, List.map_append, List.map_cons, Prod.map_apply, inside]

/-! ## Sorting -/

theorem members (front : List Item) {items : List Item} {f : Item → Item}
    (each : ∀ item ∈ items, item.Reordered (f item)) :
    (array (front ++ items)).Reordered (array (front ++ items.map f)) := by
  induction items generalizing front with
  | nil => exact .refl _
  | cons first rest ih =>
    obtain ⟨one, each⟩ := List.forall_mem_cons.mp each
    -- the rest comes after the first member as it will be
    have others := ih (front ++ [f first]) each
    rw [List.append_assoc, List.append_assoc] at others
    exact (member front rest one).trans others

theorem entries (front : List (Item × Item)) {entries : List (Item × Item)} {f : Item → Item}
    (each : ∀ entry ∈ entries, entry.1.Reordered (f entry.1) ∧ entry.2.Reordered (f entry.2)) :
    (map (front ++ entries)).Reordered (map (front ++ entries.map (Prod.map f f))) := by
  induction entries generalizing front with
  | nil => exact .refl _
  | cons first rest ih =>
    obtain ⟨⟨one, one'⟩, each⟩ := List.forall_mem_cons.mp each
    have others := ih (front ++ [(f first.1, f first.2)]) each
    rw [List.append_assoc, List.append_assoc] at others
    exact ((key front first.2 rest one).trans (value front (f first.1) rest one')).trans others

/-- An entry is inserted by exchanging it with each that it has to come after. -/
theorem orderedInsert (front : List (Item × Item)) (entry : Item × Item)
    (rest : List (Item × Item)) :
    (map (front ++ entry :: rest)).Reordered
      (map (front ++ rest.orderedInsert (KeyLe fun entry => entry.1.encode) entry)) := by
  induction rest generalizing front with
  | nil => exact .refl _
  | cons first rest ih =>
    rw [List.orderedInsert_cons]
    split
    · exact .refl _
    next after =>
      have distinct : entry.1.encode ≠ first.1.encode := by
        intro same
        rw [KeyLe, same] at after
        exact after (List.lt_irrefl _)
      have further := ih (front ++ [first])
      rw [List.append_assoc, List.append_assoc] at further
      exact (swap front rest distinct).trans further

theorem sortByKey (front entries : List (Item × Item)) :
    (map (front ++ entries)).Reordered (map (front ++ sortByKey entries)) := by
  induction entries generalizing front with
  | nil => exact .refl _
  | cons first rest ih =>
    have others := ih (front ++ [first])
    rw [List.append_assoc, List.append_assoc] at others
    exact others.trans (orderedInsert front first _)

end Reordered

theorem reordered_sorted (item : Item) : item.Reordered item.sorted := by
  induction item using Item.induct with
  | array items ih =>
    rw [sorted_array]
    exact .members [] ih
  | map entries ih =>
    rw [sorted_map]
    exact (Reordered.entries [] ih).trans (.sortByKey [] _)
  | _ => exact .refl _

theorem sorted_eq_iff_reordered {a b : Item} : a.sorted = b.sorted ↔ a.Reordered b := by
  constructor
  · intro same
    exact (reordered_sorted a).trans (same ▸ (reordered_sorted b).symm)
  · exact Reordered.sorted_eq

/-! ## Reading back -/

/-- Whether an item is made of what has an encoding of its own, nested to any depth, with
    lengths that fit in a head. -/
structure Encodable (item : Item) : Prop where
  plain : ∃ depth, item.Plain depth
  short : item.Short

theorem Plain.mono {depth : Nat} {item : Item} (plain : item.Plain depth) {deeper : Nat}
    (le : depth ≤ deeper) : item.Plain deeper := by
  induction plain generalizing deeper with
  | int low high => exact .int low high
  | bytes content => exact .bytes content
  | text content => exact .text content
  | array _ ih =>
    obtain ⟨below, rfl⟩ := Nat.exists_eq_add_of_le' le
    exact .array fun item member => ih item member (Nat.le_add_left _ below)
  | map _ _ ihKeys ihValues =>
    obtain ⟨below, rfl⟩ := Nat.exists_eq_add_of_le' le
    exact .map (fun entry member => ihKeys entry member (Nat.le_add_left _ below))
      fun entry member => ihValues entry member (Nat.le_add_left _ below)
  | bool b => exact .bool b
  | null => exact .null

theorem Encodable.readsAs {item : Item} (encodable : item.Encodable) :
    ∃ depth, ∀ deeper ≥ depth, ReadsAs (readItem deeper) item item.sorted := by
  obtain ⟨⟨depth, plain⟩, short⟩ := encodable
  refine ⟨depth, fun deeper le => ?_⟩
  -- nothing in it has to be read as null
  have same := nulled_sorted_nulled item
  have read := @readsAs_of_short item deeper
  rw [plain.nulled_eq] at same read
  rw [same] at read
  exact read (plain.mono le) short

/-- An encoding can be told from what comes after it, and the item from its encoding up to the
    order of entries. -/
theorem encode_append_eq_iff {a b : Item} (encodable : a.Encodable) (encodable' : b.Encodable)
    {rest rest' : Bytes} :
    a.encode ++ rest = b.encode ++ rest' ↔ a.sorted = b.sorted ∧ rest = rest' := by
  constructor
  · intro same
    obtain ⟨depth, read⟩ := encodable.readsAs
    obtain ⟨depth', read'⟩ := encodable'.readsAs
    -- one reader, which goes deep enough for both, reads the same bytes as either
    have found := read (max depth depth') (le_max_left _ _) rest
    rw [same, read' (max depth depth') (le_max_right _ _) rest'] at found
    obtain ⟨sorted, left⟩ := Prod.mk.inj (Except.ok.inj found)
    exact ⟨sorted.symm, left.symm⟩
  · rintro ⟨same, rfl⟩
    rw [← encode_sorted a, same, encode_sorted]

/-- Two items have the same encoding just if they are the same once sorted, which is when one
    is the other with its entries reordered; and no encoding is a proper part of another at its
    front. -/
theorem encode_eq_iff_reordered {a b : Item} (encodable : a.Encodable) (encodable' : b.Encodable) :
    (a.encode = b.encode ↔ a.sorted = b.sorted) ∧
      (a.encode = b.encode ↔ a.Reordered b) ∧
      (a.encode <+: b.encode → a.encode = b.encode) := by
  have same_iff : a.encode = b.encode ↔ a.sorted = b.sorted := by
    have parts := @encode_append_eq_iff a b encodable encodable' [] []
    simpa using parts
  refine ⟨same_iff, same_iff.trans sorted_eq_iff_reordered, fun ⟨rest, whole⟩ => ?_⟩
  have parts := @encode_append_eq_iff a b encodable encodable' rest []
  rw [List.append_nil] at parts
  exact same_iff.mpr (parts.mp whole).1

/-- Maps with a map as a key: in one order, in another outside and inside the key, and with
    something else in the key. -/
theorem encode_eq_iff_reordered_key :
    let entry (n : Int) : Item × Item := (.int n, .bytes [0])
    let last : Item × Item := (.int (2 ^ 64 - 1), .array [.text "a", .null])
    let item := map [(map [entry 1, entry (-2 ^ 64)], .bool true), last]
    let turned := map [last, (map [entry (-2 ^ 64), entry 1], .bool true)]
    let changed := map [last, (map [entry (-2 ^ 64), entry 2], .bool true)]
    item.Encodable ∧ turned.Encodable ∧ changed.Encodable ∧ item.encode = turned.encode ∧
      item.sorted = turned.sorted ∧ item.Reordered turned ∧ ¬item.Reordered changed := by
  intro entry last item turned changed
  have short : (Bytes.ofText "a").length < 2 ^ 64 := by decide +kernel
  have encodable : item.Encodable := ⟨⟨2, by grind [Plain]⟩, by grind [Short]⟩
  have encodable' : turned.Encodable := ⟨⟨2, by grind [Plain]⟩, by grind [Short]⟩
  have encodable'' : changed.Encodable := ⟨⟨2, by grind [Plain]⟩, by grind [Short]⟩
  have same : item.encode = turned.encode := by decide +kernel
  have differ : item.encode ≠ changed.encode := by decide +kernel
  obtain ⟨sorted, reordered, _⟩ := encode_eq_iff_reordered encodable encodable'
  obtain ⟨_, reordered', _⟩ := encode_eq_iff_reordered encodable encodable''
  exact ⟨encodable, encodable', encodable'', same, sorted.mp same, reordered.mp same,
    fun changed => differ (reordered'.mpr changed)⟩

end Item

end TokenLedger.Cbor
