import TokenLedger.Store.Index

/-!
# Locking addresses

A task that works on some addresses first acquires all of them, each for itself alone. Every address
in use has a slot in a table; the slot knows who holds it and who waits for it. An acquisition looks
up or makes its slots in one step, and in the same step clears the table of slots that nobody uses.
It then takes its slots one at a time, in the order of the addresses, and keeps those it has while
it waits for the next. A slot that is given back goes at once to whoever has waited longest.

Slots have an identity of their own, so that it can be said, and is not assumed, that an address in
use never has two.
-/

namespace TokenLedger

/-- Who acquires: one acquisition, from its start until what it holds is dropped. -/
abbrev TaskId := Nat

/-- The identity of a slot: slots are numbered as they are made. -/
abbrev SlotId := Nat

/-! ## Slots -/

/-- The lock of one address. -/
structure Slot where
  key : Bytes32
  holder : Option TaskId
  /-- Who waits, longest first. -/
  waiting : List TaskId
deriving DecidableEq

namespace Slot

def free (key : Bytes32) : Slot := { key, holder := none, waiting := [] }

/-- A task asks for the slot. It holds it from then on if nobody does, and waits at the end of the
    line otherwise; asking again changes nothing. -/
def request (slot : Slot) (task : TaskId) : Slot :=
  match slot.holder with
  | none => { slot with holder := some task }
  | some holder =>
    if holder = task ∨ task ∈ slot.waiting then slot
    else { slot with waiting := slot.waiting ++ [task] }

/-- A task gives the slot back, or stops waiting for it. -/
def release (slot : Slot) (task : TaskId) : Slot :=
  let waiting := slot.waiting.filter (· ≠ task)
  if slot.holder = some task then
    { slot with holder := waiting.head?, waiting := waiting.tail }
  else { slot with waiting }

end Slot

/-! ## Acquisitions -/

/-- How far a task has come with its slots. -/
structure Acquisition where
  task : TaskId
  /-- The slots it holds. -/
  taken : List SlotId
  /-- The slots it has still to take, in order. -/
  wanted : List SlotId
deriving DecidableEq

namespace Acquisition

def Uses (acquisition : Acquisition) (slot : SlotId) : Prop :=
  slot ∈ acquisition.taken ∨ slot ∈ acquisition.wanted

instance (acquisition : Acquisition) (slot : SlotId) : Decidable (acquisition.Uses slot) :=
  inferInstanceAs (Decidable (_ ∨ _))

def isComplete (acquisition : Acquisition) : Bool := acquisition.wanted.isEmpty

end Acquisition

/-! ## The table -/

/-- All slots that have been made, those of them that are in the table, and what acquires them. -/
structure LockTable where
  slots : List Slot
  /-- The slots that are found by their address. -/
  entries : List SlotId
  acquisitions : List Acquisition
deriving DecidableEq

namespace LockTable

def empty : LockTable := { slots := [], entries := [], acquisitions := [] }

/-- The number of addresses that have a slot in the table. -/
def size (table : LockTable) : Nat := table.entries.length

def isEmpty (table : LockTable) : Bool := table.entries.isEmpty

def find? (table : LockTable) (task : TaskId) : Option Acquisition :=
  table.acquisitions.find? (·.task = task)

def isUsed (table : LockTable) (slot : SlotId) : Bool :=
  table.acquisitions.any fun acquisition => acquisition.Uses slot

/-- The table without the slots that nobody uses. -/
def prune (table : LockTable) : LockTable :=
  { table with entries := table.entries.filter table.isUsed }

def entry? (table : LockTable) (key : Bytes32) : Option SlotId :=
  table.entries.find? fun id => table.slots[id]?.any (·.key = key)

/-- The slot of an address, which is made if there is none. -/
def ensure (table : LockTable) (key : Bytes32) : SlotId × LockTable :=
  match table.entry? key with
  | some id => (id, table)
  | none =>
    let id := table.slots.length
    (id, { table with slots := table.slots ++ [.free key], entries := table.entries ++ [id] })

def ensureAll (table : LockTable) : List Bytes32 → List SlotId × LockTable
  | [] => ([], table)
  | key :: keys =>
    let (id, table) := table.ensure key
    let (ids, table) := table.ensureAll keys
    (id :: ids, table)

/-- Addresses in the order in which they are taken, each once. -/
def order (keys : List Bytes32) : List Bytes32 := (Index.ofList keys : Index Bytes32.toBytes).items

/-! ## Steps -/

/-- A task that has no acquisition starts one: the table is cleared of unused slots, and the task
    finds or makes the slots of its addresses. -/
def start (table : LockTable) (task : TaskId) (keys : List Bytes32) : LockTable :=
  let (ids, table) := table.prune.ensureAll (order keys)
  { table with acquisitions := table.acquisitions ++ [{ task, taken := [], wanted := ids }] }

/-- A task asks for the next of its slots, and takes it if it holds it then. -/
def take (table : LockTable) (task : TaskId) : LockTable :=
  match table.find? task with
  | some ⟨_, taken, id :: wanted⟩ =>
    let slots := table.slots.modify id (·.request task)
    let next : Acquisition :=
      if slots[id]?.any (·.holder = some task) then { task, taken := taken ++ [id], wanted }
      else { task, taken, wanted := id :: wanted }
    { table with
      slots
      acquisitions := table.acquisitions.map fun old => if old.task = task then next else old }
  | _ => table

/-- A task drops what it holds, or its acquisition before that is complete. -/
def drop (table : LockTable) (task : TaskId) : LockTable :=
  { table with
    slots := table.slots.map (·.release task)
    acquisitions := table.acquisitions.filter (·.task ≠ task) }

/-- A task takes as many of its slots as it can. -/
def advance (table : LockTable) (task : TaskId) : LockTable :=
  match table.find? task with
  | some acquisition => Nat.repeat (·.take task) acquisition.wanted.length table
  | none => table

/-- Whether a task holds all addresses that it has asked for. -/
def isComplete (table : LockTable) (task : TaskId) : Bool :=
  (table.find? task).any (·.isComplete)

end LockTable

end TokenLedger
