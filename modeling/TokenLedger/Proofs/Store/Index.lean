import Mathlib.Data.List.Perm.Basic
import TokenLedger.Store.Index

/-! # Laws of sorted collections

What an item put into a sorted collection does to look-ups (`find?_put`) and to
the items as a whole (`perm_put_new`, `perm_put_old`), that a collection is
settled by what is in it (`ext_of_mem`), and how it goes over into one of other
items under the same keys (`map`).
-/

namespace TokenLedger

namespace Index

variable {α β : Type} {key : α → Bytes} {key' : β → Bytes}

/-! ## Looking up -/

theorem key_of_find? {index : Index key} {k : Bytes} {item : α}
    (found : index.find? k = some item) :
    key item = k := by
  simpa using List.find?_some found

theorem mem_of_find? {index : Index key} {k : Bytes} {item : α}
    (found : index.find? k = some item) :
    item ∈ index.items := List.mem_of_find?_eq_some found

/-- Keys are not shared, so every item is what its own key finds. -/
theorem find?_of_mem {index : Index key} {item : α} (member : item ∈ index.items) :
    index.find? (key item) = some item := by
  obtain ⟨items, sorted⟩ := index
  simp only [find?] at *
  induction items with
  | nil => cases member
  | cons first rest ih =>
    obtain ⟨least, sorted⟩ := List.pairwise_cons.mp sorted
    rcases List.mem_cons.mp member with rfl | member
    · simp
    -- items further on have greater keys than the first
    · have different : key first ≠ key item := by
        intro same
        exact Bytes.lt_irrefl (key item) (same ▸ least item member)
      rw [List.find?_cons_of_neg (by simpa using different)]
      exact ih sorted member

theorem find?_eq_some_iff {index : Index key} {k : Bytes} {item : α} :
    index.find? k = some item ↔ item ∈ index.items ∧ key item = k := by
  constructor
  · intro found
    exact ⟨mem_of_find? found, key_of_find? found⟩
  · rintro ⟨member, rfl⟩
    exact find?_of_mem member

theorem find?_eq_none_iff {index : Index key} {k : Bytes} :
    index.find? k = none ↔ ∀ item ∈ index.items, key item ≠ k := by
  simp [find?]

theorem nodup (index : Index key) : index.items.Nodup := by
  refine index.sorted.imp fun {a b} less same => ?_
  subst same
  exact Bytes.lt_irrefl _ less

/-- There is only one order for the items. -/
theorem ext_of_mem {a b : Index key} (same : ∀ item, item ∈ a.items ↔ item ∈ b.items) : a = b := by
  obtain ⟨items, sorted⟩ := a
  obtain ⟨items', sorted'⟩ := b
  have perm : items.Perm items' :=
    (List.perm_ext_iff_of_nodup (nodup ⟨items, sorted⟩) (nodup ⟨items', sorted'⟩)).mpr same
  obtain rfl := perm.eq_of_pairwise
    (fun _ _ _ _ less greater => absurd (Bytes.lt_trans less greater) (Bytes.lt_irrefl _))
    sorted sorted'
  rfl

/-! ## Putting -/

theorem find?_place (item : α) (items : List α) (k : Bytes)
    (sorted : items.Pairwise fun a b => key a < key b) :
    (place key item items).find? (fun other => key other = k) =
      if key item = k then some item else items.find? fun other => key other = k := by
  induction items with
  | nil => by_cases same : key item = k <;> simp [place, same]
  | cons first rest ih =>
    obtain ⟨least, sorted⟩ := List.pairwise_cons.mp sorted
    unfold place
    split
    · by_cases same : key item = k <;> simp [same]
    next notLess =>
      split
      next less =>
        by_cases here : key first = k
        · have different : key item ≠ k := by
            intro same
            rw [here, same] at less
            exact Bytes.lt_irrefl k less
          simp [here, different]
        · rw [List.find?_cons_of_neg (by simpa using here), ih sorted,
            List.find?_cons_of_neg (by simpa using here)]
      next notGreater =>
        have same : key item = key first := Bytes.eq_of_not_lt notLess notGreater
        by_cases here : key first = k <;> simp [same, here]

@[simp] theorem find?_put (index : Index key) (item : α) (k : Bytes) :
    (index.put item).find? k = if key item = k then some item else index.find? k :=
  find?_place item index.items k index.sorted

/-- Of items that are put in one after the other, the last with a key stands. -/
theorem find?_foldl_put (items : List α) (index : Index key) (k : Bytes) :
    (items.foldl put index).find? k =
      (items.reverse.find? fun item => key item = k).or (index.find? k) := by
  induction items generalizing index with
  | nil => rfl
  | cons first rest ih =>
    rw [List.foldl_cons, ih, List.reverse_cons, List.find?_append, Option.or_assoc, find?_put]
    by_cases here : key first = k <;> simp [here]

/-- An item with a new key comes in addition to those that are there. -/
theorem perm_put_new {index : Index key} {item : α} (new : index.find? (key item) = none) :
    (index.put item).items.Perm (item :: index.items) := by
  have different := find?_eq_none_iff.mp new
  clear new
  show (place key item index.items).Perm (item :: index.items)
  generalize index.items = items at *
  induction items with
  | nil => exact .refl _
  | cons first rest ih =>
    have tail := ih fun other member => different other (by simp [member])
    unfold place
    split
    · exact .refl _
    next notLess =>
      split
      · exact (tail.cons first).trans (.swap item first rest)
      next notGreater =>
        exact absurd (Bytes.eq_of_not_lt notLess notGreater).symm (different first (by simp))

/-- An item with an old key comes in the place of the one that had the key. -/
theorem perm_put_old {index : Index key} {item old : α}
    (found : index.find? (key item) = some old) :
    ∃ others, index.items.Perm (old :: others) ∧ (index.put item).items.Perm (item :: others) := by
  obtain ⟨items, sorted⟩ := index
  show ∃ others, items.Perm (old :: others) ∧ (place key item items).Perm (item :: others)
  replace found : items.find? (fun other => key other = key item) = some old := found
  induction items with
  | nil => cases found
  | cons first rest ih =>
    obtain ⟨least, sorted⟩ := List.pairwise_cons.mp sorted
    unfold place
    by_cases here : key first = key item
    · obtain rfl : first = old := by simpa [here] using found
      refine ⟨rest, .refl _, ?_⟩
      rw [if_neg (here ▸ Bytes.lt_irrefl _), if_neg (here ▸ Bytes.lt_irrefl _)]
    · rw [List.find?_cons_of_neg (by simpa using here)] at found
      obtain ⟨others, before, after⟩ := ih sorted found
      have member : old ∈ rest := before.mem_iff.mpr (by simp)
      -- the old item is further on, so the new one is placed further on as well
      have less : key first < key item := by
        have same : key old = key item := by simpa using List.find?_some found
        exact same ▸ least old member
      have notGreater : ¬key item < key first := fun greater =>
        Bytes.lt_irrefl _ (Bytes.lt_trans less greater)
      rw [if_neg notGreater, if_pos less]
      exact ⟨first :: others, (before.cons first).trans (.swap old first others),
        (after.cons first).trans (.swap item first others)⟩

theorem length_put_new {index : Index key} {item : α} (new : index.find? (key item) = none) :
    (index.put item).items.length = index.items.length + 1 :=
  (perm_put_new new).length_eq

theorem length_put_old {index : Index key} {item old : α}
    (found : index.find? (key item) = some old) :
    (index.put item).items.length = index.items.length := by
  obtain ⟨others, before, after⟩ := perm_put_old found
  rw [after.length_eq, before.length_eq, List.length_cons, List.length_cons]

theorem find?_erase (index : Index key) (k other : Bytes) :
    (index.erase k).find? other = if k = other then none else index.find? other := by
  simp only [erase, find?, List.find?_filter]
  split
  next same => simp [same]
  next differs =>
    refine congrArg (index.items.find? ·) (funext fun item => ?_)
    by_cases here : key item = other
    · simp [here, Ne.symm differs]
    · simp [here]

/-! ## Other items under the same keys -/

/-- The collection of what a function makes of the items, if it keeps their keys. -/
def map (f : α → β) (keeps : ∀ item, key' (f item) = key item) (index : Index key) : Index key' :=
  ⟨index.items.map f, by
    rw [List.pairwise_map]
    exact index.sorted.imp fun less => by rwa [keeps, keeps]⟩

variable {f : α → β} {keeps : ∀ item, key' (f item) = key item}

@[simp] theorem find?_map (index : Index key) (k : Bytes) :
    (index.map f keeps).find? k = (index.find? k).map f := by
  simp only [map, find?, List.find?_map, Function.comp_def, keeps]

@[simp] theorem map_put (index : Index key) (item : α) :
    (index.put item).map f keeps = (index.map f keeps).put (f item) := by
  have places : ∀ items, (place key item items).map f = place key' (f item) (items.map f) := by
    intro items
    induction items with
    | nil => rfl
    | cons first rest ih =>
      simp only [place, List.map_cons, keeps]
      split
      · rfl
      · split
        · rw [List.map_cons, ih]
        · rfl
  simp only [map, put, places]

end Index

end TokenLedger
