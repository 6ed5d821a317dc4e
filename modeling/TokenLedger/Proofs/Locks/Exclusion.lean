import Mathlib.Algebra.GroupWithZero.Nat
import Mathlib.Data.List.Nodup
import TokenLedger.Proofs.Locks.Slots

/-! # Locks exclude each other

Tasks start acquisitions, take the slots of one of them one by one, and drop what they
have, in any order (`LockTable.Step`).  In between, slots that nobody uses disappear
from the table, and an address may get a new slot later on.

What keeps two tasks apart is that a slot in use is in the table (`Sound.used`), and
that the table has one slot for an address at most (`Indexed.distinct`): so all who use
an address use the same slot, and that has one holder.  Who is entered as the holder of
a slot, or as waiting for it, is an acquisition that is just there (`Sound.owner`,
`Sound.line`); so a slot that goes to the next in line never goes to a task that is gone.
-/

namespace TokenLedger

namespace LockTable

variable {table next : LockTable} {task other : TaskId} {key : Bytes32}

/-! ## Who has an address -/

/-- Whether a task has taken the slot of an address. -/
def Holds (table : LockTable) (task : TaskId) (key : Bytes32) : Prop :=
  ∃ a ∈ table.acquisitions, a.task = task ∧ ∃ id ∈ a.taken, table.key? id = some key

/-- Whether a task has still to take the slot of an address. -/
def Awaits (table : LockTable) (task : TaskId) (key : Bytes32) : Prop :=
  ∃ a ∈ table.acquisitions, a.task = task ∧ ∃ id ∈ a.wanted, table.key? id = some key

/-- Whether some task holds an address or waits for it. -/
def InUse (table : LockTable) (key : Bytes32) : Prop :=
  ∃ task, table.Holds task key ∨ table.Awaits task key

/-- How many refer to a slot: the table, and every acquisition for each time it has the slot. -/
def references (table : LockTable) (id : SlotId) : Nat :=
  table.entries.count id +
    (table.acquisitions.map fun a => a.taken.count id + a.wanted.count id).sum

theorem inUse_iff :
    table.InUse key ↔ ∃ a ∈ table.acquisitions, ∃ id, a.Uses id ∧ table.key? id = some key := by
  constructor
  · rintro ⟨task, ⟨a, there, _, id, member, named⟩ | ⟨a, there, _, id, member, named⟩⟩
    · exact ⟨a, there, id, .inl member, named⟩
    · exact ⟨a, there, id, .inr member, named⟩
  · rintro ⟨a, there, id, member | member, named⟩
    · exact ⟨a.task, .inl ⟨a, there, rfl, id, member, named⟩⟩
    · exact ⟨a.task, .inr ⟨a, there, rfl, id, member, named⟩⟩

theorem isUsed_iff {id : SlotId} :
    table.isUsed id = true ↔ ∃ a ∈ table.acquisitions, a.Uses id := by
  simp [isUsed]

/-! ## Steps -/

/-- What may happen next.  A task starts an acquisition only when it has none. -/
inductive Step (table : LockTable) : LockTable → Prop
  | start (task : TaskId) (keys : List Bytes32) (idle : table.find? task = none) :
      Step table (table.start task keys)
  | take (task : TaskId) : Step table (table.take task)
  | drop (task : TaskId) : Step table (table.drop task)

/-- The tables that any steps in any order lead to. -/
inductive Reachable : LockTable → Prop
  | empty : Reachable .empty
  | step {table next : LockTable} (before : Reachable table) (step : Step table next) :
      Reachable next

/-- Whether the address of one slot comes before that of another. -/
def Below (table : LockTable) (id id' : SlotId) : Prop :=
  ∃ key ∈ table.key? id, ∃ key' ∈ table.key? id', key < key'

/-- Tables whose slots have the same addresses. -/
theorem below_congr (same : ∀ id, next.key? id = table.key? id) : next.Below = table.Below := by
  funext id id'
  rw [Below, Below, same, same]

/-- What every step keeps. -/
structure Sound (table : LockTable) : Prop extends table.Indexed where
  tasks : table.acquisitions.Pairwise fun a b => a.task ≠ b.task
  used : ∀ a ∈ table.acquisitions, ∀ id, a.Uses id → id ∈ table.entries
  ordered : ∀ a ∈ table.acquisitions, (a.taken ++ a.wanted).Pairwise table.Below
  held : ∀ a ∈ table.acquisitions, ∀ id ∈ a.taken, table.holder? id = some a.task
  owner : ∀ {id task}, table.holder? id = some task →
    ∃ a ∈ table.acquisitions, a.task = task ∧ (id ∈ a.taken ∨ a.wanted.head? = some id)
  line : ∀ {id : SlotId} {slot : Slot}, table.slots[id]? = some slot → ∀ task ∈ slot.waiting,
    ∃ a ∈ table.acquisitions, a.task = task ∧ a.wanted.head? = some id
  orderly : ∀ {id : SlotId} {slot : Slot}, table.slots[id]? = some slot → slot.Orderly

namespace Sound

theorem empty : Sound .empty where
  made := by simp [LockTable.empty]
  distinct := .nil
  tasks := .nil
  used := by simp [LockTable.empty]
  ordered := by simp [LockTable.empty]
  held := by simp [LockTable.empty]
  owner := by simp [LockTable.empty, holder?]
  line := by simp [LockTable.empty]
  orderly := by simp [LockTable.empty]

theorem eq_of_task (sound : table.Sound) {a b : Acquisition} (there : a ∈ table.acquisitions)
    (there' : b ∈ table.acquisitions) (same : a.task = b.task) : a = b := by
  by_contra different
  have symmetric : Std.Symm fun a b : Acquisition => a.task ≠ b.task :=
    ⟨fun _ _ unlike => unlike.symm⟩
  exact sound.tasks.forall there there' different same

theorem made_of_uses (sound : table.Sound) {a : Acquisition} (there : a ∈ table.acquisitions)
    {id : SlotId} (uses : a.Uses id) : id < table.slots.length :=
  sound.made id (sound.used a there id uses)

/-! ## Starting -/

theorem prune (sound : table.Sound) : table.prune.Sound where
  made id member := sound.made id (List.mem_of_mem_filter member)
  distinct := sound.distinct.filter _
  tasks := sound.tasks
  used a there id uses :=
    List.mem_filter.mpr ⟨sound.used a there id uses, isUsed_iff.mpr ⟨a, there, uses⟩⟩
  ordered := sound.ordered
  held := sound.held
  owner := sound.owner
  line := sound.line
  orderly := sound.orderly

theorem grown (sound : table.Sound) (wider : Extends table next) (indexed : next.Indexed) :
    next.Sound where
  toIndexed := indexed
  tasks := wider.acquisitions ▸ sound.tasks
  used a there id uses := by
    rw [wider.acquisitions] at there
    exact wider.entries id (sound.used a there id uses)
  ordered a there := by
    rw [wider.acquisitions] at there
    refine (sound.ordered a there).imp_of_mem fun {id id'} member member' below => ?_
    have made := sound.made_of_uses there (List.mem_append.mp member)
    have made' := sound.made_of_uses there (List.mem_append.mp member')
    rwa [Below, wider.key? made, wider.key? made']
  held a there id member := by
    rw [wider.acquisitions] at there
    rw [holder?, wider.slot (sound.made_of_uses there (.inl member))]
    exact sound.held a there id member
  owner {id task} holds := by
    rw [wider.acquisitions]
    obtain ⟨slot, present, holds⟩ := Option.bind_eq_some_iff.mp holds
    rcases wider.slot_or_free present with old | ⟨free, _⟩
    · exact sound.owner (Option.bind_eq_some_iff.mpr ⟨slot, old, holds⟩)
    · cases free.symm.trans holds
  line {id slot} present task member := by
    rw [wider.acquisitions]
    rcases wider.slot_or_free present with old | ⟨_, empty⟩
    · exact sound.line old task member
    · rw [empty] at member
      cases member
  orderly {id slot} present := by
    rcases wider.slot_or_free present with old | ⟨free, empty⟩
    · exact sound.orderly old
    · exact ⟨by simp [empty], by simp [empty], fun _ => empty⟩

/-- An acquisition comes in addition to those of other tasks, with slots of the table that are
    in the order of their addresses. -/
theorem add (sound : table.Sound) {ids : List SlotId} (idle : table.find? task = none)
    (entries : ∀ id ∈ ids, id ∈ table.entries) (ordered : ids.Pairwise table.Below) :
    Sound { table with
      acquisitions := table.acquisitions ++ [{ task, taken := [], wanted := ids }] } where
  made := sound.made
  distinct := sound.distinct
  tasks := by
    refine List.pairwise_append.mpr ⟨sound.tasks, List.pairwise_singleton _ _, ?_⟩
    intro a there b new
    cases List.mem_singleton.mp new
    simpa using List.find?_eq_none.mp idle a there
  used a there id uses := by
    rcases List.mem_append.mp there with there | new
    · exact sound.used a there id uses
    · cases List.mem_singleton.mp new
      exact entries id (uses.resolve_left (by simp))
  ordered a there := by
    rcases List.mem_append.mp there with there | new
    · exact sound.ordered a there
    · cases List.mem_singleton.mp new
      exact ordered
  held a there id member := by
    rcases List.mem_append.mp there with there | new
    · exact sound.held a there id member
    · cases List.mem_singleton.mp new
      cases member
  owner holds := by
    obtain ⟨a, there, rest⟩ := sound.owner holds
    exact ⟨a, List.mem_append_left _ there, rest⟩
  line present task member := by
    obtain ⟨a, there, rest⟩ := sound.line present task member
    exact ⟨a, List.mem_append_left _ there, rest⟩
  orderly := sound.orderly

theorem start (sound : table.Sound) (idle : table.find? task = none) (keys : List Bytes32) :
    (table.start task keys).Sound := by
  have provides := provides_ensureAll sound.prune.toIndexed (order keys)
  have wide := sound.prune.grown provides.grown provides.indexed
  have idle' : (table.prune.ensureAll (order keys)).2.find? task = none := by
    rw [find?, provides.grown.acquisitions]
    exact idle
  refine wide.add idle' (fun id member => (provides.entries id).mpr (.inr member)) ?_
  -- the slots are in the order of the addresses that they were looked up for
  have sorted : ((order keys).map some).Pairwise fun key? key?' : Option Bytes32 =>
      ∃ key ∈ key?, ∃ key' ∈ key?', key < key' := by
    refine List.pairwise_map.mpr ((Index.sorted _).imp fun less => ?_)
    exact ⟨_, rfl, _, rfl, less⟩
  rw [← provides.named, List.pairwise_map] at sorted
  exact sorted

/-! ## Dropping -/

theorem drop (sound : table.Sound) (task : TaskId) : (table.drop task).Sound := by
  have slot_of {id : SlotId} {slot : Slot} (there : (table.drop task).slots[id]? = some slot) :
      ∃ old, table.slots[id]? = some old ∧ old.release task = slot := by
    rwa [LockTable.drop, List.getElem?_map, Option.map_eq_some_iff] at there
  have still {a : Acquisition} (there : a ∈ table.acquisitions) (other : a.task ≠ task) :
      a ∈ (table.drop task).acquisitions := List.mem_filter.mpr ⟨there, by simpa using other⟩
  have of_still {a : Acquisition} (there : a ∈ (table.drop task).acquisitions) :
      a ∈ table.acquisitions ∧ a.task ≠ task := by simpa [LockTable.drop] using there
  have named (id : SlotId) : (table.drop task).key? id = table.key? id := by
    simp [LockTable.drop, key?, Function.comp_def]
  constructor
  case toIndexed =>
    refine ⟨fun id member => ?_, ?_⟩
    · simpa [LockTable.drop] using sound.made id member
    · simp only [named]
      exact sound.distinct
  case tasks => exact sound.tasks.filter _
  case used => exact fun a there id uses => sound.used a (of_still there).1 id uses
  case ordered =>
    intro a there
    rw [below_congr named]
    exact sound.ordered a (of_still there).1
  case held =>
    intro a there id member
    obtain ⟨there, other⟩ := of_still there
    obtain ⟨slot, present, holds⟩ := Option.bind_eq_some_iff.mp (sound.held a there id member)
    simp [holder?, LockTable.drop, present, Slot.holder_release_of_ne holds other]
  case owner =>
    intro id other holds
    obtain ⟨slot, there, holds⟩ := Option.bind_eq_some_iff.mp holds
    obtain ⟨old, present, rfl⟩ := slot_of there
    obtain ⟨different, holds | waits⟩ := Slot.of_holder_release holds
    · obtain ⟨a, there, rfl, has⟩ := sound.owner (Option.bind_eq_some_iff.mpr ⟨old, present, holds⟩)
      exact ⟨a, still there different, rfl, has⟩
    · -- the slot goes on to somebody who has waited for it
      obtain ⟨a, there, rfl, first⟩ := sound.line present other waits
      exact ⟨a, still there different, rfl, .inr first⟩
  case line =>
    intro id slot there other waits
    obtain ⟨old, present, rfl⟩ := slot_of there
    obtain ⟨different, waits⟩ := Slot.of_mem_waiting_release waits
    obtain ⟨a, there, rfl, first⟩ := sound.line present other waits
    exact ⟨a, still there different, rfl, first⟩
  case orderly =>
    intro id slot there
    obtain ⟨old, present, rfl⟩ := slot_of there
    exact (sound.orderly present).release task

/-! ## Taking -/

/-- A task asks for the slot that its acquisition is to take next, and all that it had or waited
    for stays. -/
theorem ask (sound : table.Sound) {a : Acquisition} (there : a ∈ table.acquisitions) {id : SlotId}
    (first : a.wanted.head? = some id) :
    Sound { table with slots := table.slots.modify id (·.request a.task) } := by
  set asked : LockTable := { table with slots := table.slots.modify id (·.request a.task) }
  -- every slot is as before, or is the one that is asked for
  have slot_of {id' : SlotId} {slot : Slot} (present : asked.slots[id']? = some slot) :
      table.slots[id']? = some slot ∨
        id = id' ∧ ∃ old, table.slots[id']? = some old ∧ old.request a.task = slot := by
    rw [List.getElem?_modify] at present
    obtain ⟨old, present, same⟩ := Option.map_eq_some_iff.mp present
    split at same
    next here => exact .inr ⟨here, old, present, same⟩
    · exact .inl (same ▸ present)
  have named (id' : SlotId) : asked.key? id' = table.key? id' := by
    simp only [key?, asked, List.getElem?_modify]
    cases table.slots[id']? with
    | none => rfl
    | some slot => by_cases here : id = id' <;> simp [here]
  constructor
  case toIndexed =>
    refine ⟨fun id' member => ?_, ?_⟩
    · simpa [asked] using sound.made id' member
    · simp only [named]
      exact sound.distinct
  case tasks => exact sound.tasks
  case used => exact sound.used
  case ordered =>
    rw [below_congr named]
    exact sound.ordered
  case held =>
    intro b there' id' member
    obtain ⟨slot, present, holds⟩ := Option.bind_eq_some_iff.mp (sound.held b there' id' member)
    simp only [holder?, asked, List.getElem?_modify, present]
    by_cases here : id = id'
    · simp [here, Slot.holder_request, holds]
    · simp [here, holds]
  case owner =>
    intro id' other holds
    obtain ⟨slot, present, holds⟩ := Option.bind_eq_some_iff.mp holds
    rcases slot_of present with before | ⟨rfl, old, before, rfl⟩
    · exact sound.owner (Option.bind_eq_some_iff.mpr ⟨slot, before, holds⟩)
    · rcases Slot.holder_request.mp holds with holds | ⟨_, rfl⟩
      · exact sound.owner (Option.bind_eq_some_iff.mpr ⟨old, before, holds⟩)
      · exact ⟨a, there, rfl, .inr first⟩
  case line =>
    intro id' slot present other waits
    rcases slot_of present with before | ⟨rfl, old, before, rfl⟩
    · exact sound.line before other waits
    · rcases Slot.mem_waiting_request waits with waits | rfl
      · exact sound.line before other waits
      · exact ⟨a, there, rfl, first⟩
  case orderly =>
    intro id' slot present
    rcases slot_of present with before | ⟨rfl, old, before, rfl⟩
    · exact sound.orderly before
    · exact (sound.orderly before).request a.task

/-- An acquisition takes the slot that has been given to it. -/
theorem get (sound : table.Sound) {a : Acquisition} (there : a ∈ table.acquisitions) {id : SlotId}
    {rest : List SlotId} (wanted : a.wanted = id :: rest) (given : table.holder? id = some a.task) :
    Sound { table with
      acquisitions := table.acquisitions.map fun old =>
        if old.task = a.task then { task := a.task, taken := a.taken ++ [id], wanted := rest }
        else old } := by
  set took : Acquisition := { task := a.task, taken := a.taken ++ [id], wanted := rest }
  set after := table.acquisitions.map fun old => if old.task = a.task then took else old
  have whole : took.taken ++ took.wanted = a.taken ++ a.wanted := by simp [took, wanted]
  have mem_after {b : Acquisition} (there' : b ∈ after) :
      b = took ∨ b ∈ table.acquisitions ∧ b.task ≠ a.task := by
    obtain ⟨old, there', same⟩ := List.mem_map.mp there'
    split at same
    · exact .inl same.symm
    next other => exact .inr (same ▸ ⟨there', other⟩)
  have after_mem {b : Acquisition} (there' : b ∈ table.acquisitions) :
      b = a ∧ took ∈ after ∨ b.task ≠ a.task ∧ b ∈ after := by
    by_cases same : b.task = a.task
    · exact .inl ⟨sound.eq_of_task there' there same, List.mem_map.mpr ⟨b, there', if_pos same⟩⟩
    · exact .inr ⟨same, List.mem_map.mpr ⟨b, there', if_neg same⟩⟩
  constructor
  case toIndexed => exact ⟨sound.made, sound.distinct⟩
  case tasks =>
    refine List.pairwise_map.mpr (sound.tasks.imp fun {b c} different => ?_)
    have kept (old : Acquisition) : (if old.task = a.task then took else old).task = old.task := by
      split
      next same => exact same.symm
      · rfl
    rwa [kept, kept]
  case used =>
    intro b there' id' uses
    rcases mem_after there' with rfl | ⟨there', _⟩
    · have uses : id' ∈ a.taken ++ a.wanted := whole ▸ List.mem_append.mpr uses
      exact sound.used a there id' (List.mem_append.mp uses)
    · exact sound.used b there' id' uses
  case ordered =>
    intro b there'
    rcases mem_after there' with rfl | ⟨there', _⟩
    · rw [whole]
      exact sound.ordered a there
    · exact sound.ordered b there'
  case held =>
    intro b there' id' member
    rcases mem_after there' with rfl | ⟨there', _⟩
    · rcases List.mem_append.mp member with member | member
      · exact sound.held a there id' member
      · cases List.mem_singleton.mp member
        exact given
    · exact sound.held b there' id' member
  case owner =>
    intro id' other holds
    obtain ⟨b, there', rfl, has⟩ := sound.owner holds
    rcases after_mem there' with ⟨rfl, there'⟩ | ⟨_, there'⟩
    · refine ⟨took, there', rfl, .inl ?_⟩
      rcases has with has | first
      · exact List.mem_append_left _ has
      · rw [wanted, List.head?_cons, Option.some.injEq] at first
        simp [took, first]
    · exact ⟨b, there', rfl, has⟩
  case line =>
    intro id' slot present other waits
    obtain ⟨b, there', rfl, first⟩ := sound.line present other waits
    rcases after_mem there' with ⟨rfl, _⟩ | ⟨_, there'⟩
    · -- the slot has been given to the acquisition, which so is not in line for it any more
      rw [wanted, List.head?_cons, Option.some.injEq] at first
      subst first
      have holds : slot.holder = some b.task := by simpa [holder?, present] using given
      exact absurd holds ((sound.orderly present).apart _ waits)
    · exact ⟨b, there', rfl, first⟩
  case orderly => exact sound.orderly

theorem take (sound : table.Sound) (task : TaskId) : (table.take task).Sound := by
  unfold LockTable.take
  split
  next _ task' taken id rest found =>
    obtain rfl : task' = task := by simpa using List.find?_some found
    have there : ⟨task', taken, id :: rest⟩ ∈ table.acquisitions := List.mem_of_find?_eq_some found
    have asked := sound.ask there rfl
    dsimp only
    by_cases given : (table.slots.modify id (·.request task'))[id]?.any (·.holder = some task')
    · rw [if_pos given]
      refine asked.get there rfl ?_
      obtain ⟨slot, present, holds⟩ := (Option.any_eq_true _ _).mp given
      exact Option.bind_eq_some_iff.mpr ⟨slot, present, by simpa using holds⟩
    · -- the task waits, with the acquisition that it had
      have same : (table.acquisitions.map fun old =>
          if old.task = task' then ⟨task', taken, id :: rest⟩ else old) = table.acquisitions := by
        refine (List.map_congr_left fun old there' => ?_).trans (List.map_id _)
        split
        next same => exact sound.eq_of_task there there' same.symm
        · rfl
      rw [if_neg given, same]
      exact asked
  · exact sound

end Sound

theorem Reachable.sound (reachable : Reachable table) : table.Sound := by
  induction reachable with
  | empty => exact .empty
  | step _ step ih =>
    cases step with
    | start task keys idle => exact ih.start idle keys
    | take task => exact ih.take task
    | drop task => exact ih.drop task

/-! ## What holds of all tables -/

theorem mem_order {keys : List Bytes32} : key ∈ order keys ↔ key ∈ keys := by
  have found : (Index.ofList keys : Index Bytes32.toBytes).find? key.toBytes =
      keys.reverse.find? fun other => other.toBytes = key.toBytes := by
    rw [Index.ofList, Index.find?_foldl_put]
    exact Option.or_none
  have same {other : Bytes32} (same : other.toBytes = key.toBytes) : other = key := by
    cases other
    cases key
    cases same
    rfl
  constructor
  · intro member
    have first := Index.find?_of_mem member
    rw [found] at first
    simpa using List.mem_of_find?_eq_some first
  · intro member
    cases first : keys.reverse.find? fun other => other.toBytes = key.toBytes with
    | none => simpa using List.find?_eq_none.mp first key (List.mem_reverse.mpr member)
    | some other =>
      obtain rfl := same (by simpa using List.find?_some first)
      exact Index.mem_of_find? (found.trans first)

namespace Sound

theorem eq_of_holds (sound : table.Sound) (holds : table.Holds task key)
    (holds' : table.Holds other key) : task = other := by
  obtain ⟨a, there, rfl, id, member, named⟩ := holds
  obtain ⟨b, there', rfl, id', member', named'⟩ := holds'
  have in_table := sound.used a there id (.inl member)
  have in_table' := sound.used b there' id' (.inl member')
  obtain rfl := sound.eq_of_key? in_table in_table' (named.trans named'.symm)
  have given := sound.held a there id member
  exact Option.some.inj (given.symm.trans (sound.held b there' id member'))

theorem exists_slot (sound : table.Sound) (inUse : table.InUse key) :
    ∃ id ∈ table.entries, table.key? id = some key ∧
      ∀ id', id' ∈ table.entries ∨ table.isUsed id' = true → table.key? id' = some key →
        id' = id := by
  obtain ⟨a, there, id, uses, named⟩ := inUse_iff.mp inUse
  have in_table := sound.used a there id uses
  refine ⟨id, in_table, named, fun id' present named' => ?_⟩
  have in_table' : id' ∈ table.entries := by
    refine present.elim (fun member => member) fun used => ?_
    obtain ⟨b, there', uses'⟩ := isUsed_iff.mp used
    exact sound.used b there' id' uses'
  exact sound.eq_of_key? in_table' in_table (named'.trans named.symm)

theorem count_entries (sound : table.Sound) {id : SlotId} (member : id ∈ table.entries) :
    table.entries.count id = 1 := by
  refine List.count_eq_one_of_mem (sound.distinct.imp fun unlike same => ?_) member
  exact unlike (congrArg _ same)

/-- Whether anybody uses a slot of the table can be told by counting references to it. -/
theorem one_lt_references_iff (sound : table.Sound) {id : SlotId} (member : id ∈ table.entries) :
    1 < table.references id ↔ table.isUsed id = true := by
  have counted (a : Acquisition) : 0 < a.taken.count id + a.wanted.count id ↔ a.Uses id := by
    rw [Nat.add_pos_iff_pos_or_pos, List.count_pos_iff, List.count_pos_iff, Acquisition.Uses]
  have positive : 0 < (table.acquisitions.map fun a => a.taken.count id + a.wanted.count id).sum ↔
      ∃ a ∈ table.acquisitions, a.Uses id := by
    simp only [List.sum_pos_iff_exists_pos_nat, List.mem_map, exists_exists_and_eq_and, counted]
  rw [references, sound.count_entries member, isUsed_iff, ← positive]
  omega

end Sound

/-- After an acquisition has been started, the table has slots for the addresses in use and
    for no others. -/
theorem Sound.entries_start (sound : table.Sound) (idle : table.find? task = none)
    (keys : List Bytes32) :
    (∃ id ∈ (table.start task keys).entries, (table.start task keys).key? id = some key) ↔
      (table.start task keys).InUse key := by
  have provides := provides_ensureAll sound.prune.toIndexed (order keys)
  rw [inUse_iff]
  constructor
  · rintro ⟨id, member, named⟩
    rcases (provides.entries id).mp member with old | new
    · -- what was there before is in use, or it would have been cleared away
      obtain ⟨a, there, uses⟩ := isUsed_iff.mp (List.mem_filter.mp old).2
      refine ⟨a, List.mem_append_left _ ?_, id, uses, named⟩
      rw [provides.grown.acquisitions]
      exact there
    · exact ⟨_, List.mem_append_right _ (List.mem_singleton.mpr rfl), id, .inr new, named⟩
  · rintro ⟨a, there, id, uses, named⟩
    exact ⟨id, (sound.start idle keys).used a there id uses, named⟩

/-- An acquisition that has just been started waits for its addresses and no others, however
    often they were given. -/
theorem Sound.awaits_start (sound : table.Sound) (idle : table.find? task = none)
    (keys : List Bytes32) : (table.start task keys).Awaits task key ↔ key ∈ keys := by
  have provides := provides_ensureAll sound.prune.toIndexed (order keys)
  rw [← mem_order]
  constructor
  · rintro ⟨a, there, same, id, member, named⟩
    rcases List.mem_append.mp there with old | new
    · rw [provides.grown.acquisitions] at old
      exact absurd same (by simpa using List.find?_eq_none.mp idle a old)
    · cases List.mem_singleton.mp new
      have listed : some key ∈ (order keys).map some := by
        rw [← provides.named, ← named]
        exact List.mem_map_of_mem member
      simpa using listed
  · intro member
    have listed : some key ∈ (order keys).map some := List.mem_map_of_mem member
    rw [← provides.named] at listed
    obtain ⟨id, member, named⟩ := List.mem_map.mp listed
    exact ⟨_, List.mem_append_right _ (List.mem_singleton.mpr rfl), rfl, id, member, named⟩

/-- Whatever the tasks do and in which order: no two of them hold one address, an address in use
    has one slot and the table has it, clearing the table by counting references clears away what
    nobody uses, and a table that has just been asked for addresses has just those in use. -/
theorem exclusive_under_pruning (reachable : Reachable table) :
    (∀ key task other, table.Holds task key → table.Holds other key → task = other) ∧
    (∀ key, table.InUse key → ∃ id ∈ table.entries, table.key? id = some key ∧
      ∀ id', id' ∈ table.entries ∨ table.isUsed id' = true → table.key? id' = some key →
        id' = id) ∧
    table.prune =
      { table with entries := table.entries.filter fun id => 1 < table.references id } ∧
    ∀ task keys, table.find? task = none →
      (∀ key, (table.start task keys).Awaits task key ↔ key ∈ keys) ∧
      ∀ key, (∃ id ∈ (table.start task keys).entries,
        (table.start task keys).key? id = some key) ↔ (table.start task keys).InUse key := by
  have sound := reachable.sound
  refine ⟨fun key task other => sound.eq_of_holds, fun key => sound.exists_slot, ?_,
    fun task keys idle =>
      ⟨fun key => sound.awaits_start idle keys, fun key => sound.entries_start idle keys⟩⟩
  have counted : table.entries.filter table.isUsed =
      table.entries.filter fun id => 1 < table.references id := by
    refine List.filter_congr fun id member => ?_
    rw [Bool.eq_iff_iff, decide_eq_true_iff, sound.one_lt_references_iff member]
  rw [prune, counted]

/-- Three tasks: the second waits for an address that the first drops, and the third asks for
    one whose slot is gone by then. -/
def crossing : LockTable :=
  let key (n : UInt8) : Bytes32 := .replicate n
  let first := ((LockTable.empty.start 1 [key 2, key 1, key 2]).take 1).take 1
  let second := ((first.start 2 [key 3, key 2]).take 2).drop 1
  ((second.start 3 [key 1]).take 3).take 2

theorem reachable_crossing : Reachable crossing := by
  let key (n : UInt8) : Bytes32 := .replicate n
  have first :=
    ((Reachable.empty.step (.start 1 [key 2, key 1, key 2] rfl)).step (.take 1)).step (.take 1)
  have second :=
    ((first.step (.start 2 [key 3, key 2] (by decide))).step (.take 2)).step (.drop 1)
  exact ((second.step (.start 3 [key 1] (by decide))).step (.take 3)).step (.take 2)

theorem exclusive_under_pruning_crossing :
    let key (n : UInt8) : Bytes32 := .replicate n
    let later := crossing.start 4 [key 3, key 3]
    crossing.Holds 2 (key 2) ∧ crossing.Holds 3 (key 1) ∧
      (∀ other, crossing.Holds other (key 2) → other = 2) ∧
      crossing.key? 0 = some (key 1) ∧ crossing.entries = [1, 2, 3] ∧
      (∃ id ∈ crossing.entries, crossing.key? id = some (key 1)) ∧
      (later.Awaits 4 (key 3)) ∧
      ∀ key, (∃ id ∈ later.entries, later.key? id = some key) ↔ later.InUse key := by
  intro key later
  obtain ⟨exclusive, slots, _, started⟩ := exclusive_under_pruning reachable_crossing
  obtain ⟨awaits, entries⟩ := started 4 [key 3, key 3] (by decide)
  have holds : crossing.Holds 2 (key 2) :=
    ⟨_, List.mem_cons_self, by decide, 1, by decide, by decide⟩
  have holds' : crossing.Holds 3 (key 1) :=
    ⟨_, List.mem_cons_of_mem _ List.mem_cons_self, by decide, 3, by decide, by decide⟩
  obtain ⟨id, member, named, _⟩ := slots (key 1) ⟨3, .inl holds'⟩
  exact ⟨holds, holds', fun other holds'' => exclusive _ _ _ holds'' holds, by decide, by decide,
    ⟨id, member, named⟩, (awaits (key 3)).mpr (by simp), entries⟩

end LockTable

end TokenLedger
