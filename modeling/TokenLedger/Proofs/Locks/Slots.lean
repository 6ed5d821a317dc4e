import Mathlib.Data.List.Pairwise
import TokenLedger.Ledger.LockTable
import TokenLedger.Proofs.Store.Index

/-! # Slots and who is in line for them

What asking for a slot and giving it back do to its holder and to those who wait
(`Slot.Orderly`), and what looking up slots by address does to a table.  Looking up
makes slots where there are none and leaves the others as they are (`Extends`), and a
table keeps at most one slot for an address (`Indexed`).
-/

namespace TokenLedger

/-! ## Asking and giving back -/

namespace Slot

variable {slot : Slot} {task other : TaskId}

@[simp] theorem key_request : (slot.request task).key = slot.key := by
  unfold request
  split
  · rfl
  · split <;> rfl

@[simp] theorem key_release : (slot.release task).key = slot.key := by
  unfold release
  split <;> rfl

theorem holder_request :
    (slot.request task).holder = some other ↔
      slot.holder = some other ∨ slot.holder = none ∧ other = task := by
  unfold request
  split
  next free => simp [free, eq_comm]
  next holder held => split <;> simp [held]

theorem mem_waiting_request (member : other ∈ (slot.request task).waiting) :
    other ∈ slot.waiting ∨ other = task := by
  unfold request at member
  split at member
  · exact .inl member
  · split at member
    · exact .inl member
    · simpa using member

theorem holder_release_of_ne (holds : slot.holder = some other) (different : other ≠ task) :
    (slot.release task).holder = some other := by
  unfold release
  rw [if_neg]
  · exact holds
  · rw [holds, Option.some.injEq]
    exact different

/-- Who has a slot after a task has given it back is not that task, and has had it or waited
    for it. -/
theorem of_holder_release (holds : (slot.release task).holder = some other) :
    other ≠ task ∧ (slot.holder = some other ∨ other ∈ slot.waiting) := by
  unfold release at holds
  split at holds
  · have first := List.mem_of_mem_head? holds
    obtain ⟨waits, different⟩ := List.mem_filter.mp first
    exact ⟨by simpa using different, .inr waits⟩
  next elsewhere =>
    refine ⟨?_, .inl holds⟩
    rintro rfl
    exact elsewhere holds

theorem of_mem_waiting_release (member : other ∈ (slot.release task).waiting) :
    other ≠ task ∧ other ∈ slot.waiting := by
  have waits : other ∈ slot.waiting.filter (· ≠ task) := by
    unfold release at member
    split at member
    · exact List.mem_of_mem_tail member
    · exact member
  obtain ⟨waits, different⟩ := List.mem_filter.mp waits
  exact ⟨by simpa using different, waits⟩

/-- Whether nobody waits for a slot twice, or while holding it, or while nobody holds it. -/
structure Orderly (slot : Slot) : Prop where
  once : slot.waiting.Nodup
  apart : ∀ task ∈ slot.waiting, slot.holder ≠ some task
  free : slot.holder = none → slot.waiting = []

theorem Orderly.request (orderly : slot.Orderly) (task : TaskId) : (slot.request task).Orderly := by
  unfold Slot.request
  split
  next unheld =>
    have empty := orderly.free unheld
    exact ⟨orderly.once, by simp [empty], by simp⟩
  next holder held =>
    split
    · exact orderly
    next new =>
      obtain ⟨different, new⟩ := not_or.mp new
      refine ⟨?_, fun other member => ?_, by simp [held]⟩
      · rw [List.nodup_append]
        refine ⟨orderly.once, List.pairwise_singleton _ task, fun other member _ last => ?_⟩
        cases List.mem_singleton.mp last
        exact fun same => new (same ▸ member)
      · rcases List.mem_append.mp member with member | member
        · exact orderly.apart other member
        · cases List.mem_singleton.mp member
          simpa [held] using different

theorem Orderly.release (orderly : slot.Orderly) (task : TaskId) : (slot.release task).Orderly := by
  have once : (slot.waiting.filter (· ≠ task)).Nodup := orderly.once.filter _
  unfold Slot.release
  split
  · -- whoever has waited longest is taken out of the line
    refine ⟨once.tail, fun other member first => ?_, fun unheld => ?_⟩
    · obtain ⟨rest, whole⟩ := List.head?_eq_some_iff.mp first
      simp only [whole, List.tail_cons, List.nodup_cons] at member once
      exact once.1 member
    · have empty := List.head?_eq_none_iff.mp unheld
      simp only [empty, List.tail_nil]
  · refine ⟨once, fun other member => orderly.apart other (List.mem_of_mem_filter member),
      fun unheld => ?_⟩
    simp [orderly.free unheld]

end Slot

namespace LockTable

variable {table next : LockTable} {task other : TaskId} {key : Bytes32}

/-! ## What a table says of a slot -/

/-- The address of a slot. -/
def key? (table : LockTable) (id : SlotId) : Option Bytes32 := table.slots[id]?.map (·.key)

/-- The task that a slot has been given to. -/
def holder? (table : LockTable) (id : SlotId) : Option TaskId := table.slots[id]?.bind (·.holder)

/-! ## Slots by address -/

/-- Whether the slots in a table are there, no two of them for one address. -/
structure Indexed (table : LockTable) : Prop where
  made : ∀ id ∈ table.entries, id < table.slots.length
  distinct : table.entries.Pairwise fun id id' => table.key? id ≠ table.key? id'

theorem Indexed.eq_of_key? (indexed : table.Indexed) {id id' : SlotId} (member : id ∈ table.entries)
    (member' : id' ∈ table.entries) (same : table.key? id = table.key? id') : id = id' := by
  by_contra different
  have symmetric : Std.Symm fun id id' => table.key? id ≠ table.key? id' :=
    ⟨fun _ _ unlike => unlike.symm⟩
  exact indexed.distinct.forall member member' different same

/-- Whether a table has come about from another one by new slots, which nobody has asked for. -/
structure Extends (table next : LockTable) : Prop where
  acquisitions : next.acquisitions = table.acquisitions
  slots : ∃ keys : List Bytes32, next.slots = table.slots ++ keys.map .free
  entries : ∀ id ∈ table.entries, id ∈ next.entries

namespace Extends

theorem refl (table : LockTable) : Extends table table :=
  ⟨rfl, ⟨[], (List.append_nil _).symm⟩, fun _ member => member⟩

theorem trans {later : LockTable} (first : Extends table next) (second : Extends next later) :
    Extends table later := by
  obtain ⟨keys, slots⟩ := first.slots
  obtain ⟨keys', slots'⟩ := second.slots
  refine ⟨second.acquisitions.trans first.acquisitions, ⟨keys ++ keys', ?_⟩,
    fun id member => second.entries id (first.entries id member)⟩
  rw [slots', slots, List.map_append, List.append_assoc]

theorem slot (grown : Extends table next) {id : SlotId} (made : id < table.slots.length) :
    next.slots[id]? = table.slots[id]? := by
  obtain ⟨keys, slots⟩ := grown.slots
  rw [slots, List.getElem?_append_left made]

theorem key? (grown : Extends table next) {id : SlotId} (made : id < table.slots.length) :
    next.key? id = table.key? id := by
  rw [LockTable.key?, LockTable.key?, grown.slot made]

/-- A slot of the larger table is one of the smaller, or nobody has asked for it. -/
theorem slot_or_free (grown : Extends table next) {id : SlotId} {slot : Slot}
    (there : next.slots[id]? = some slot) :
    table.slots[id]? = some slot ∨ slot.holder = none ∧ slot.waiting = [] := by
  obtain ⟨keys, slots⟩ := grown.slots
  rw [slots, List.getElem?_append] at there
  split at there
  · exact .inl there
  · rw [List.getElem?_map, Option.map_eq_some_iff] at there
    obtain ⟨key, _, rfl⟩ := there
    exact .inr ⟨rfl, rfl⟩

end Extends

/-- What comes of looking up a slot for every one of some addresses. -/
structure Provides (table : LockTable) (keys : List Bytes32) (ids : List SlotId)
    (next : LockTable) : Prop where
  grown : Extends table next
  indexed : next.Indexed
  /-- The slots are those of the addresses, in the same order. -/
  named : ids.map next.key? = keys.map some
  /-- They are in the table, and with them only what was there before. -/
  entries : ∀ id, id ∈ next.entries ↔ id ∈ table.entries ∨ id ∈ ids

theorem provides_ensure (indexed : table.Indexed) (key : Bytes32) :
    table.Provides [key] [(table.ensure key).1] (table.ensure key).2 := by
  unfold ensure
  split
  next id found =>
    have member : id ∈ table.entries := List.mem_of_find?_eq_some found
    have named : table.key? id = some key := by
      have named := List.find?_some found
      simp only [Option.any_eq_true, decide_eq_true_eq] at named
      obtain ⟨slot, there, rfl⟩ := named
      rw [key?, there, Option.map_some]
    refine ⟨.refl table, indexed, by simp [named], fun id' => ?_⟩
    simp only [List.mem_singleton]
    refine ⟨.inl, ?_⟩
    rintro (member' | rfl)
    · exact member'
    · exact member
  next missing =>
    simp only
    have grown : Extends table { table with
        slots := table.slots ++ [.free key], entries := table.entries ++ [table.slots.length] } :=
      ⟨rfl, ⟨[key], rfl⟩, fun id member => List.mem_append_left _ member⟩
    have named : LockTable.key? { table with
        slots := table.slots ++ [.free key], entries := table.entries ++ [table.slots.length] }
        table.slots.length = some key := by
      simp [key?, Slot.free]
    refine ⟨grown, ⟨?_, ?_⟩, by simp [named], by simp⟩
    · intro id member
      simp only [List.length_append, List.length_singleton]
      rcases List.mem_append.mp member with member | member
      · exact Nat.lt_succ_of_lt (indexed.made id member)
      · cases List.mem_singleton.mp member
        exact Nat.lt_succ_self _
    · refine List.pairwise_append.mpr ⟨?_, List.pairwise_singleton _ _, ?_⟩
      · refine indexed.distinct.imp_of_mem fun member member' unlike => ?_
        rwa [grown.key? (indexed.made _ member), grown.key? (indexed.made _ member')]
      · intro id member id' member'
        cases List.mem_singleton.mp member'
        rw [grown.key? (indexed.made _ member), named]
        -- the look-up went past every slot of the table
        have other := List.find?_eq_none.mp missing id member
        intro same
        obtain ⟨slot, there, rfl⟩ := Option.map_eq_some_iff.mp same
        simp [there] at other

theorem provides_ensureAll (indexed : table.Indexed) (keys : List Bytes32) :
    table.Provides keys (table.ensureAll keys).1 (table.ensureAll keys).2 := by
  induction keys generalizing table with
  | nil => exact ⟨.refl table, indexed, rfl, by simp [ensureAll]⟩
  | cons key keys ih =>
    have first := provides_ensure indexed key
    have rest := ih first.indexed
    simp only [ensureAll]
    have member : (table.ensure key).1 ∈ (table.ensure key).2.entries :=
      (first.entries _).mpr (.inr (by simp))
    refine ⟨first.grown.trans rest.grown, rest.indexed, ?_, fun id => ?_⟩
    · have named : (table.ensure key).2.key? (table.ensure key).1 = some key := by
        simpa using first.named
      rw [List.map_cons, List.map_cons, rest.named,
        rest.grown.key? (first.indexed.made _ member), named]
    · rw [rest.entries, first.entries]
      simp [or_assoc]

end LockTable

end TokenLedger
