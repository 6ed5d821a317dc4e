import TokenLedger.Bytes

/-!
# Sorted collections

A collection of items in strictly increasing order of a byte-string key that each item carries.
Being sorted is part of the type, so the items can be listed in order without sorting them, and no
two items ever share a key. Looking up after `put` finds what was put, and everything else as
before.
-/

namespace TokenLedger

namespace Bytes

theorem lt_trans {a b c : Bytes} (first : a < b) (second : b < c) : a < c :=
  List.lt_trans first second

theorem lt_irrefl (a : Bytes) : ¬a < a := List.lt_irrefl a

theorem eq_of_not_lt {a b : Bytes} (notBelow : ¬a < b) (notAbove : ¬b < a) : a = b :=
  Std.le_antisymm (List.not_lt.mp notAbove) (List.not_lt.mp notBelow)

end Bytes

/-- Items in strictly increasing order of key. -/
structure Index {α : Type} (key : α → Bytes) where
  items : List α
  sorted : items.Pairwise fun a b => key a < key b

namespace Index

variable {α : Type} {key : α → Bytes}

def empty : Index key := ⟨[], .nil⟩

instance : Inhabited (Index key) := ⟨empty⟩

instance [DecidableEq α] : DecidableEq (Index key) := fun a b =>
  decidable_of_iff (a.items = b.items) (by cases a; cases b; simp)

def find? (index : Index key) (k : Bytes) : Option α := index.items.find? fun item => key item = k

/-! ## Putting an item in its place -/

/-- Puts an item where its key belongs, in the place of an item with the same key. -/
def place (key : α → Bytes) (item : α) : List α → List α
  | [] => [item]
  | first :: rest =>
    if key item < key first then item :: first :: rest
    else if key first < key item then first :: place key item rest
    else item :: rest

theorem mem_place {item a : α} {items : List α} (member : a ∈ place key item items) :
    a = item ∨ a ∈ items := by
  induction items with
  | nil => simpa [place] using member
  | cons first rest ih =>
    unfold place at member
    split at member
    · simpa using member
    · split at member
      · rcases List.mem_cons.mp member with rfl | member
        · simp
        · rcases ih member with rfl | member <;> simp [*]
      · rcases List.mem_cons.mp member with rfl | member <;> simp [*]

theorem pairwise_place (item : α) {items : List α}
    (sorted : items.Pairwise fun a b => key a < key b) :
    (place key item items).Pairwise fun a b => key a < key b := by
  induction items with
  | nil => simp [place]
  | cons first rest ih =>
    obtain ⟨least, sorted'⟩ := List.pairwise_cons.mp sorted
    unfold place
    split
    · next below =>
      refine List.pairwise_cons.mpr ⟨fun a member => ?_, sorted⟩
      rcases List.mem_cons.mp member with rfl | member
      · exact below
      · exact Bytes.lt_trans below (least a member)
    · next notBelow =>
      split
      · next below =>
        refine List.pairwise_cons.mpr ⟨fun a member => ?_, ih sorted'⟩
        rcases mem_place member with rfl | member
        · exact below
        · exact least a member
      · next notAbove =>
        have same : key item = key first := Bytes.eq_of_not_lt notBelow notAbove
        exact List.pairwise_cons.mpr ⟨fun a member => same ▸ least a member, sorted'⟩

/-- The collection with an item put in, in the place of an item with the same key. -/
def put (index : Index key) (item : α) : Index key :=
  ⟨place key item index.items, pairwise_place item index.sorted⟩

/-- The collection without the item that has a key. -/
def erase (index : Index key) (k : Bytes) : Index key :=
  ⟨index.items.filter fun item => key item ≠ k, index.sorted.filter _⟩

/-- The collection of the items of a list; of items with the same key, the last. -/
def ofList (items : List α) : Index key := items.foldl put empty

end Index

end TokenLedger
