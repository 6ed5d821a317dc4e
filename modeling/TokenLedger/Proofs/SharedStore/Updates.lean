import TokenLedger.Proofs.Ledger.Authorization
import TokenLedger.Proofs.SharedStore.Basic

/-! # No update is lost, and none is made twice

While ledgers share a store, every amount is what all requests so far have brought
to the account and taken from it, where a request counts as often as it has written.
It writes once at most, once if it is done, and never if it fails.  That a commit
finds records changed and changed back does no harm here: what is written is right
for the records that are there, whatever was there in between.
-/

namespace TokenLedger

/-! ## What a request is to bring about -/

namespace Operation

/-- What an operation that counts adds to an account. -/
def flow : Operation → AccountAddress → Int
  | .createMint _ _, _ => 0
  | .createAccount _ _, _ => 0
  | .issue _ recipient amount, account => if recipient = account then amount.toNat else 0
  | .transfer sender recipient amount, account =>
    (if recipient = account then amount.toNat else 0) -
      (if sender = account then amount.toNat else 0)
  | .burn _ sender amount, account => if sender = account then -amount.toNat else 0

/-- What an operation that counts adds to the supply of a mint. -/
def supplyFlow : Operation → MintAddress → Int
  | .issue issued _ amount, mint => if issued = mint then amount.toNat else 0
  | .burn burned _ amount, mint => if burned = mint then -amount.toNat else 0
  | _, _ => 0

end Operation

namespace MemoryStore

/-- The amount in the account at an address, nothing if there is none. -/
def amountAt (records : MemoryStore) (address : AccountAddress) : Int :=
  match records.getAccount address with
  | some account => account.amount.toNat
  | none => 0

/-- The supply of the mint at an address, nothing if there is none. -/
def supplyAt (records : MemoryStore) (address : MintAddress) : Int :=
  match records.getMint address with
  | some mint => mint.supply.toNat
  | none => 0

variable {records : MemoryStore}

theorem amountAt_putAccount (account : AccountRecord) (address : AccountAddress) :
    (records.putAccount account).amountAt address =
      if account.address = address then (account.amount.toNat : Int)
      else records.amountAt address := by
  by_cases here : account.address = address <;> simp [amountAt, here]

theorem supplyAt_putMint (mint : MintRecord) (address : MintAddress) :
    (records.putMint mint).supplyAt address =
      if mint.address = address then (mint.supply.toNat : Int) else records.supplyAt address := by
  by_cases here : mint.address = address <;> simp [supplyAt, here]

theorem amountAt_of_none {address : AccountAddress}
    (free : records.getAccount address = none) : records.amountAt address = 0 := by
  rw [amountAt, free]

theorem supplyAt_of_none {address : MintAddress} (free : records.getMint address = none) :
    records.supplyAt address = 0 := by
  rw [supplyAt, free]

theorem amountAt_of_getAccount {address : AccountAddress} {account : AccountRecord}
    (stored : records.getAccount address = some account) :
    records.amountAt address = account.amount.toNat := by
  rw [amountAt, stored]

theorem supplyAt_of_getMint {address : MintAddress} {mint : MintRecord}
    (stored : records.getMint address = some mint) :
    records.supplyAt address = mint.supply.toNat := by
  rw [supplyAt, stored]

end MemoryStore

namespace Posting

variable {ns : Bytes} {signer : Principal} {operation : Operation} {before after : MemoryStore}

theorem amountAt (posting : Posting ns signer operation before after) (address : AccountAddress) :
    after.amountAt address = before.amountAt address + operation.flow address := by
  cases posting with
  | createMint free => exact (Int.add_zero _).symm
  | createAccount known free =>
    rw [MemoryStore.amountAt_putAccount]
    split
    next here =>
      obtain rfl : _ = address := here
      exact (congrArg (· + 0) (MemoryStore.amountAt_of_none free)).symm
    · exact (Int.add_zero _).symm
  | issue nonzero stored stored' passed =>
    obtain rfl := MemoryStore.address_of_getAccount stored'
    obtain ⟨_, _, _, _, _, credited, rfl⟩ := Transition.issue_eq_ok_iff.mp passed
    rw [MemoryStore.amountAt_putAccount, Operation.flow]
    split
    next here =>
      obtain rfl : _ = address := here
      rw [MemoryStore.amountAt_of_getAccount stored', credited]
      omega
    · exact (Int.add_zero _).symm
  | transfer nonzero different stored stored' passed =>
    obtain rfl := MemoryStore.address_of_getAccount stored
    obtain rfl := MemoryStore.address_of_getAccount stored'
    obtain ⟨_, _, _, _, taken, given, rfl⟩ :=
      (Transition.transfer_eq_ok_iff different).mp passed
    rw [MemoryStore.amountAt_putAccount, MemoryStore.amountAt_putAccount, Operation.flow]
    -- the two accounts are different, so at most one of the two terms counts
    split
    next here =>
      obtain rfl : _ = address := here
      rw [if_neg different, MemoryStore.amountAt_of_getAccount stored', given]
      omega
    · split
      next here =>
        obtain rfl : _ = address := here
        rw [MemoryStore.amountAt_of_getAccount stored, taken]
        dsimp only
        omega
      · omega
  | burn nonzero stored stored' passed =>
    obtain rfl := MemoryStore.address_of_getAccount stored'
    obtain ⟨_, _, _, _, _, debited, rfl⟩ := Transition.burn_eq_ok_iff.mp passed
    rw [MemoryStore.amountAt_putAccount, Operation.flow]
    split
    next here =>
      obtain rfl : _ = address := here
      rw [MemoryStore.amountAt_of_getAccount stored', debited]
      dsimp only
      omega
    · exact (Int.add_zero _).symm

theorem supplyAt (posting : Posting ns signer operation before after) (address : MintAddress) :
    after.supplyAt address = before.supplyAt address + operation.supplyFlow address := by
  cases posting with
  | createMint free =>
    rw [MemoryStore.supplyAt_putMint]
    split
    next here =>
      obtain rfl : _ = address := here
      exact (congrArg (· + 0) (MemoryStore.supplyAt_of_none free)).symm
    · exact (Int.add_zero _).symm
  | createAccount known free => exact (Int.add_zero _).symm
  | issue nonzero stored stored' passed =>
    obtain rfl := MemoryStore.address_of_getMint stored
    obtain ⟨_, _, _, _, increased, _, rfl⟩ := Transition.issue_eq_ok_iff.mp passed
    show (before.putMint _).supplyAt address = _
    rw [MemoryStore.supplyAt_putMint, Operation.supplyFlow]
    split
    next here =>
      obtain rfl : _ = address := here
      rw [MemoryStore.supplyAt_of_getMint stored, increased]
      omega
    · exact (Int.add_zero _).symm
  | transfer nonzero different stored stored' passed => exact (Int.add_zero _).symm
  | burn nonzero stored stored' passed =>
    obtain rfl := MemoryStore.address_of_getMint stored
    obtain ⟨_, _, _, _, decreased, _, rfl⟩ := Transition.burn_eq_ok_iff.mp passed
    show (before.putMint _).supplyAt address = _
    rw [MemoryStore.supplyAt_putMint, Operation.supplyFlow]
    split
    next here =>
      obtain rfl : _ = address := here
      rw [MemoryStore.supplyAt_of_getMint stored, decreased]
      dsimp only
      omega
    · exact (Int.add_zero _).symm

end Posting

/-! ## Counting -/

namespace SharedStore

/-- Whether all amounts and supplies are what has been counted. -/
structure Counted (records : MemoryStore) (tally : (Ledger → Request → Int) → Int) : Prop where
  amounts : ∀ address, records.amountAt address =
    tally fun _ request => request.operation.flow address
  supplies : ∀ address,
    records.supplyAt address = tally fun _ request => request.operation.supplyFlow address

theorem Counted.advances {d : Discipline} {before after : MemoryStore}
    {tally tally' : (Ledger → Request → Int) → Int} (counted : Counted before tally)
    (advances : Advances d before tally after tally') : Counted after tally' := by
  cases advances with
  | quiet same uncounted =>
    obtain rfl := same
    constructor
    · intro address
      rw [uncounted, counted.amounts]
    · intro address
      rw [uncounted, counted.supplies]
  | posted allowed posts tallied =>
    obtain ⟨signer, _, posting⟩ := posts
    constructor
    · intro address
      rw [tallied, posting.amountAt, counted.amounts]
    · intro address
      rw [tallied, posting.supplyAt, counted.supplies]

/-- Whatever the order in which ledgers that share a store make their calls, every amount
    and every supply is the sum of what requests have written.  No request writes twice,
    one that is done has written, unless it moves nothing, and one that fails has not. -/
theorem updates_counted {store : AnyStore} (empty : store.IsEmpty) (actions : List Action) :
    ∃ records, ((start store).run actions).store.Holds records ∧
      (∀ account ∈ records.accounts.items, (account.amount.toNat : Int) =
        ((start store).run actions).tally fun _ request =>
          request.operation.flow account.address) ∧
      (∀ mint ∈ records.mints.items, (mint.supply.toNat : Int) =
        ((start store).run actions).tally fun _ request =>
          request.operation.supplyFlow mint.address) ∧
      ∀ p ∈ ((start store).run actions).processes,
        p.writes ≤ 1 ∧
        (∀ outcome, p.answer? = some (.ok outcome) →
          p.writes = p.request.operation.writes.toNat) ∧
        ∀ failure, p.answer? = some (.error failure) → p.writes = 0 := by
  have first := @keeps_start .any _ _ empty.holds .empty
  have counted : Counted MemoryStore.empty (start store).tally :=
    ⟨fun _ => rfl, fun _ => rfl⟩
  obtain ⟨records, keeps, counted⟩ := run_keeps Counted.advances first counted (asks_any actions)
  refine ⟨records, keeps.holds, fun account member => ?_, fun mint member => ?_, fun p member => ?_⟩
  · have stored : records.getAccount account.address = some account := Index.find?_of_mem member
    rw [← counted.amounts, MemoryStore.amountAt_of_getAccount stored]
  · have stored : records.getMint mint.address = some mint := Index.find?_of_mem member
    rw [← counted.supplies, MemoryStore.supplyAt_of_getMint stored]
  · obtain ⟨span, follows, _⟩ := keeps.sound p member
    rw [follows.writes]
    exact ⟨follows.once, fun outcome answered => follows.answered answered,
      fun failure answered => follows.answered answered⟩

/-- A ledger creates a mint and an account, and then two ledgers issue into it at once.
    Both have loaded the records when the first commits, so the second conflicts and
    is run again. -/
def race (mint : MintAddress) (authority owner : Principal) : List Action :=
  let account := AccountAddress.derive Derivation.defaultNamespace owner mint
  let another : Ledger := { config := { rejectZeroAmounts := true } }
  .request {} (.act authority (.createMint mint 0)) :: .replicate 4 (.turn 0) ++
    .request {} (.act authority (.createAccount mint owner)) :: .replicate 5 (.turn 1) ++
    .request {} (.act authority (.issue mint account 5)) :: .replicate 4 (.turn 2) ++
    .request another (.act authority (.issue mint account 7)) :: .replicate 4 (.turn 3) ++
    .replicate 2 (.turn 2) ++ .replicate 6 (.turn 3)

theorem updates_counted_race :
    let mint : MintAddress := ⟨.replicate 2⟩
    let raced := (start .emptyMemory).run (race mint ⟨.replicate 1⟩ ⟨.replicate 3⟩)
    AnyStore.emptyMemory.IsEmpty ∧ ∃ records, raced.store.Holds records ∧
      (∀ stored ∈ records.mints.items, stored.address = mint → stored.supply.toNat = 12) ∧
      ∀ p ∈ raced.processes, p.writes = 1 ∧ ∃ outcome, p.answer? = some (.ok outcome) := by
  intro mint raced
  obtain ⟨records, holds, _, supplies, counted⟩ := updates_counted AnyStore.isEmpty_emptyMemory
    (race mint ⟨.replicate 1⟩ ⟨.replicate 3⟩)
  have tallied : (raced.tally fun _ request => request.operation.supplyFlow mint) = 12 := by
    decide +kernel
  have returned : ∀ p ∈ raced.processes, p.answer?.isSome ∧ p.writes = 1 := by
    decide +kernel
  refine ⟨AnyStore.isEmpty_emptyMemory, records, holds, fun stored member here => ?_,
    fun p member => ⟨(returned p member).2, ?_⟩⟩
  · have same := supplies stored member
    rw [here] at same
    exact Int.ofNat_inj.mp (same.trans tallied)
  · obtain ⟨answer, answered⟩ := Option.isSome_iff_exists.mp (returned p member).1
    cases answer with
    | ok outcome => exact ⟨outcome, answered⟩
    | error e =>
      have never := (counted p member).2.2 e answered
      rw [(returned p member).2] at never
      cases never

end SharedStore

end TokenLedger
