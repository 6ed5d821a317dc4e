import TokenLedger.Store.Basic

/-!
# Stores that show faults

A store around another one that answers some calls as if others had used the store meanwhile: a
mint's address seems to be taken, a commit seems to conflict. The store inside is not touched by
such a call. This is for trying how those cope who call the store.
-/

namespace TokenLedger

/-- A store and the faults that it is still to show. -/
structure FaultyStore (σ : Type) where
  store : σ
  /-- How many more mints seem to be there already. -/
  takenMints : Nat := 0
  /-- How many more commits seem to conflict. -/
  conflicts : Nat := 0

namespace FaultyStore

variable {σ : Type} [RecordStore σ]

/-- Passes a call on to the store inside. -/
def pass (faulty : FaultyStore σ) (call : StoreCall) : call.Reply × FaultyStore σ :=
  let (reply, store) := RecordStore.answer call faulty.store
  (reply, { faulty with store })

instance : RecordStore (FaultyStore σ) where
  answer
    | .insertMint record, faulty =>
      match faulty.takenMints with
      | 0 => faulty.pass (.insertMint record)
      | takenMints + 1 => (.ok .alreadyExists, { faulty with takenMints })
    | .commit batch, faulty =>
      match faulty.conflicts with
      | 0 => faulty.pass (.commit batch)
      | conflicts + 1 => (.error (.conflict (.named "injected")), { faulty with conflicts })
    | call, faulty => faulty.pass call

end FaultyStore

end TokenLedger
