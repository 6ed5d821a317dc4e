import TokenLedger.Ledger.LockTable

/-!
# Users of a lock table

Who acquires addresses over and over goes by a number here. A user holds what one acquisition has
brought, until it is released or another acquisition of the same user is complete. A user waits for
one acquisition at most, and gives that up by asking for other addresses. Those who wait are given
turns, the lowest number first, and again from the lowest number after each acquisition that a turn
completes; an acquisition is started with its first turn.
-/

namespace TokenLedger

/-- An acquisition that is not complete. -/
inductive Pending where
  /-- Addresses for which the table has not been asked. -/
  | asked (keys : List Bytes32)
  /-- An acquisition that has been started. -/
  | started (task : TaskId)
deriving DecidableEq

structure LockUsers where
  table : LockTable
  /-- The task that the next acquisition is to be. -/
  next : TaskId
  /-- The acquisitions that are complete, by user in increasing order. -/
  held : List (Nat × TaskId)
  /-- The acquisitions that are not, by user in increasing order. -/
  pending : List (Nat × Pending)
deriving DecidableEq

namespace LockUsers

def empty : LockUsers := { table := .empty, next := 0, held := [], pending := [] }

def holding (users : LockUsers) : List Nat := users.held.map (·.1)

def waiting (users : LockUsers) : List Nat := users.pending.map (·.1)

def without {α : Type} (user : Nat) (entries : List (Nat × α)) : List (Nat × α) :=
  entries.filter (·.1 ≠ user)

/-- The entries with a user's own, in increasing order of user. -/
def withEntry {α : Type} (user : Nat) (value : α) (entries : List (Nat × α)) : List (Nat × α) :=
  let others := without user entries
  others.filter (·.1 < user) ++ (user, value) :: others.filter (user < ·.1)

def release (users : LockUsers) (user : Nat) : LockUsers :=
  match users.held.lookup user with
  | some task => { users with table := users.table.drop task, held := without user users.held }
  | none => users

def cancel (users : LockUsers) (user : Nat) : LockUsers :=
  let table := match users.pending.lookup user with
    | some (.started task) => users.table.drop task
    | _ => users.table
  { users with table, pending := without user users.pending }

def acquire (users : LockUsers) (user : Nat) (keys : List Bytes32) : LockUsers :=
  let users := users.cancel user
  { users with pending := withEntry user (.asked keys) users.pending }

/-! ## Turns -/

/-- A user's acquisition takes as many of its slots as it can. When it is complete, what the user
    held before is dropped. -/
def advance (users : LockUsers) (user : Nat) (task : TaskId) : LockUsers :=
  let users := { users with table := users.table.advance task }
  if users.table.isComplete task then
    let users := users.release user
    { users with
      held := withEntry user task users.held
      pending := without user users.pending }
  else { users with pending := withEntry user (.started task) users.pending }

/-- Gives a user a turn, and says whether it has completed what they wait for. -/
def turn (users : LockUsers) (user : Nat) : Bool × LockUsers :=
  let after := match users.pending.lookup user with
    | some (.asked keys) =>
      let task := users.next
      { users with table := users.table.start task keys, next := task + 1 }.advance user task
    | some (.started task) => users.advance user task
    | none => users
  (user ∉ after.waiting, after)

/-- Gives users turns up to the first that completes something. -/
def round (users : LockUsers) : List Nat → Bool × LockUsers
  | [] => (false, users)
  | user :: others =>
    match users.turn user with
    | (true, users) => (true, users)
    | (false, users) => users.round others

/-- Gives turns for so many rounds, or until nothing is completed by one. -/
def rounds (users : LockUsers) : Nat → LockUsers
  | 0 => users
  | n + 1 =>
    match users.round users.waiting with
    | (true, users) => users.rounds n
    | (false, users) => users

/-- Gives turns until nothing is completed by them. Every round but the last completes one of the
    acquisitions that are waited for. -/
def settle (users : LockUsers) : LockUsers := users.rounds users.pending.length

end LockUsers

end TokenLedger
