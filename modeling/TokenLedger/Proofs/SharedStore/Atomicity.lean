import TokenLedger.Proofs.SharedStore.Answers
import TokenLedger.Proofs.Store.Permanence

/-! # All or nothing

What an operation leaves behind can be told from its answer (`Operation.Leaves`).  An
error leaves the records as they were, and so does an operation that moves nothing,
which answers with records that are there.  Any other answer shows just the records
that have been put in: they are there now, in the place of records of their identity,
and no other record has changed.

How an operation comes to answer has been settled for the judgement behind it, so what
is left is to compare the batch that it commits with the outcome that it answers.
-/

namespace TokenLedger

open RecordStore (Keeps)

/-! ## The records of an outcome -/

namespace Outcome

/-- The mints that an outcome shows. -/
def mints : Outcome → List MintRecord
  | .mintCreated mint => [mint]
  | .accountCreated _ => []
  | .issued change => [change.mint]
  | .transferred _ => []
  | .burned change => [change.mint]

/-- The accounts that an outcome shows. -/
def accounts : Outcome → List AccountRecord
  | .mintCreated _ => []
  | .accountCreated account => [account]
  | .issued change => [change.account]
  | .transferred change => [change.sender, change.recipient]
  | .burned change => [change.account]

variable {outcome : Outcome} {records : MemoryStore}

theorem storedIn_iff_forall :
    outcome.StoredIn records ↔
      (∀ mint ∈ outcome.mints, records.getMint mint.address = some mint) ∧
        ∀ account ∈ outcome.accounts, records.getAccount account.address = some account := by
  have mint_stored : ∀ mint : MintRecord,
      mint.StoredIn records ↔ records.getMint mint.address = some mint :=
    fun _ => MemoryStore.hasMint_iff
  have account_stored : ∀ account : AccountRecord,
      account.StoredIn records ↔ records.getAccount account.address = some account :=
    fun _ => MemoryStore.hasAccount_iff
  cases outcome <;>
    simp [Outcome.StoredIn, SupplyChange.StoredIn, TransferChange.StoredIn, mints, accounts,
      mint_stored, account_stored]

/-- Whether an outcome shows no account twice. -/
def Distinct (outcome : Outcome) : Prop :=
  ∀ change, outcome = .transferred change → change.sender.address ≠ change.recipient.address

theorem Distinct.storedIn (distinct : outcome.Distinct) :
    outcome.StoredIn (records.putAll outcome.mints outcome.accounts) := by
  rw [storedIn_iff_forall]
  simp only [MemoryStore.getMint_putAll, MemoryStore.getAccount_putAll]
  cases outcome with
  | transferred change =>
    have different := distinct change rfl
    simp [mints, accounts, different.symm]
  | _ => simp [mints, accounts]

end Outcome

/-! ## What is put in -/

theorem Posting.keeps {ns : Bytes} {signer : Principal} {operation : Operation}
    {before after : MemoryStore} (posting : Posting ns signer operation before after) :
    Keeps before after where
  mint stored := by
    obtain ⟨later, found, same⟩ :=
      (Authorized.of_posting posting).mint_kept (MemoryStore.hasMint_iff.mp stored)
    exact ⟨later, MemoryStore.hasMint_iff.mpr found, same⟩
  account stored := by
    obtain ⟨later, found, same⟩ :=
      (Authorized.of_posting posting).account_kept (MemoryStore.hasAccount_iff.mp stored)
    exact ⟨later, MemoryStore.hasAccount_iff.mpr found, same⟩

/-- What an operation leaves behind, by its answer. -/
inductive Operation.Leaves (operation : Operation) (before : MemoryStore) :
    Except Failure Outcome → MemoryStore → Prop
  /-- An error leaves all as it was. -/
  | failed (e : Failure) : Leaves operation before (.error e) before
  /-- So does an operation that has nothing to write, and shows what is there. -/
  | idle {outcome : Outcome} (nothing : operation.writes = false)
    (stored : outcome.StoredIn before) : Leaves operation before (.ok outcome) before
  /-- Any other puts in what it shows, keeps identities, and does no more. -/
  | done {outcome : Outcome} {after : MemoryStore} (something : operation.writes = true)
    (stored : outcome.StoredIn after) (kept : Keeps before after)
    (mints : ∀ address, (∀ mint ∈ outcome.mints, mint.address ≠ address) →
      after.getMint address = before.getMint address)
    (accounts : ∀ address, (∀ account ∈ outcome.accounts, account.address ≠ address) →
      after.getAccount address = before.getAccount address) :
    Leaves operation before (.ok outcome) after

namespace Ledger

variable {ledger : Ledger} {signer : Principal} {operation : Operation}

theorem records_of_judged {j : Judgement Outcome}
    (moves : ledger.judgement? signer operation = some j) {first second : MemoryStore}
    {outcome : Outcome} {batch : WriteBatch}
    (judged : j.judge first second = .ok (outcome, some batch)) :
    batch.mints.map (·.after) = outcome.mints ∧ batch.accounts.map (·.after) = outcome.accounts ∧
      outcome.Distinct := by
  have distinct := j.distinct judged
  cases operation with
  | createMint mint decimals => cases moves
  | createAccount mint owner => cases moves
  | issue mint account amount =>
    cases moves
    obtain ⟨change, inner, rfl⟩ := Judgement.judge_map_unlessZero judged
    obtain ⟨_, _, _, _, _, _, rfl⟩ := judgeSupply_eq_some_iff.mp inner
    exact ⟨rfl, rfl, fun _ other => by cases other⟩
  | transfer sender recipient amount =>
    cases moves
    obtain ⟨change, inner, rfl⟩ := Judgement.judge_map_unlessZero judged
    obtain ⟨_, _, _, _, _, _, rfl⟩ := judgeTransfer_eq_some_iff.mp inner
    refine ⟨rfl, rfl, fun _ same => ?_⟩
    cases same
    have different := distinct.accounts
    simpa using different
  | burn mint account amount =>
    cases moves
    obtain ⟨change, inner, rfl⟩ := Judgement.judge_map_unlessZero judged
    obtain ⟨_, _, _, _, _, _, rfl⟩ := judgeSupply_eq_some_iff.mp inner
    exact ⟨rfl, rfl, fun _ other => by cases other⟩

/-- What a span of a program that runs alone can look like at its end: nothing but the
    records that it found, or a posting of the operation on them. -/
def Alone (ledger : Ledger) (signer : Principal) (operation : Operation) (before : MemoryStore)
    (final : Span) : Prop :=
  (final.posted = [] ∧ ∀ moment ∈ final.moments, moment = before) ∨
    (final.posted = [(before, final.now)] ∧
      Posting ledger.config.ns signer operation before final.now)

variable {before : MemoryStore} {final : Span} {result : Except Failure Outcome}

theorem Alone.now_eq (alone : ledger.Alone signer operation before final)
    (quiet : final.posted = []) : final.now = before := by
  rcases alone with ⟨_, still⟩ | ⟨posted, _⟩
  · exact still _ final.now_mem
  · rw [quiet] at posted
    cases posted

theorem Alone.leaves_done (alone : ledger.Alone signer operation before final)
    (something : operation.writes = true) {outcome : Outcome} (distinct : outcome.Distinct)
    {records : MemoryStore}
    (posted : final.posted = [(records, records.putAll outcome.mints outcome.accounts)]) :
    operation.Leaves before (.ok outcome) final.now := by
  rcases alone with ⟨quiet, _⟩ | ⟨posted', posting⟩
  · rw [quiet] at posted
    cases posted
  · -- the records shown are all that was put in, so the frame is that of `putAll`
    rw [posted', List.cons.injEq, Prod.mk.injEq] at posted
    obtain ⟨⟨rfl, after⟩, _⟩ := posted
    rw [after] at posting ⊢
    exact .done something distinct.storedIn posting.keeps
      (fun _ other => MemoryStore.getMint_putAll_of_forall_ne other)
      (fun _ other => MemoryStore.getAccount_putAll_of_forall_ne other)

theorem Alone.leaves_moved (alone : ledger.Alone signer operation before final)
    {j : Judgement Outcome} (moves : ledger.judgement? signer operation = some j)
    (answers : j.Answers final result) : operation.Leaves before result final.now := by
  cases answers with
  | @still first second outcome quiet seen seen' judged =>
    rw [alone.now_eq quiet]
    rcases alone with ⟨_, still⟩ | ⟨posted, _⟩
    · -- both loads saw the records as they were found, so what is shown is there
      rw [still _ seen, still _ seen'] at judged
      exact .idle (writes_of_judged moves judged).symm
        (((settles moves).still judged).mp (Judgement.answer_eq_ok_iff.mpr ⟨_, judged⟩))
    · rw [quiet] at posted
      cases posted
  | refused quiet seen seen' judged =>
    rw [alone.now_eq quiet]
    exact .failed _
  | @posted records after outcome batch posted seen judged committed =>
    -- what a movement asks to be committed is what it shows
    obtain ⟨_, _, rfl⟩ := MemoryStore.commit_eq_ok_iff.mp committed
    obtain ⟨mints, accounts, distinct⟩ := records_of_judged moves judged
    rw [MemoryStore.write_eq_putAll, mints, accounts] at posted
    exact alone.leaves_done (writes_of_judged moves judged).symm distinct posted
  | contended quiet seen seen' moved =>
    rw [alone.now_eq quiet]
    exact .failed _

theorem Alone.leaves_created (alone : ledger.Alone signer operation before final)
    (something : operation.writes = true) {outcome : Outcome} (distinct : outcome.Distinct)
    (creates : Creates outcome (fun records => records.putAll outcome.mints outcome.accounts)
      result final) : operation.Leaves before result final.now := by
  cases result with
  | error e =>
    rw [alone.now_eq creates]
    exact .failed e
  | ok shown =>
    obtain ⟨rfl, records, posted⟩ := creates
    exact alone.leaves_done something distinct posted

theorem perform_leaves {store : AnyStore} (holds : store.Holds before) :
    ∃ after, ((ledger.perform signer operation).run.run store).store.Holds after ∧
      operation.Leaves before ((ledger.perform signer operation).run.run store).result after := by
  let contract : Contract :=
    .once (fun _ _ => False) (Posting ledger.config.ns signer operation)
  cases moves : ledger.judgement? signer operation with
  | some j =>
    have permits : LedgerProgram.Permits contract j := permits_of_judged moves id
    have ensures := @ensures_perform_movement contract (.start before) _ _ _ _ moves permits rfl
    obtain ⟨final, held, answers, alone⟩ := ensures.run_once holds
    exact ⟨final.now, held, Alone.leaves_moved alone moves answers⟩
  | none =>
    cases operation with
    | createMint mint decimals =>
      have ensures : (createMint mint decimals signer).run.Ensures contract _ (.start before) :=
        ensures_createMint rfl id
      obtain ⟨final, held, creates, alone⟩ :=
        (ensures_done Outcome.mintCreated ensures).run_once holds
      exact ⟨final.now, held,
        Alone.leaves_created alone rfl (fun _ other => by cases other) creates⟩
    | createAccount mint owner =>
      have ensures : (ledger.createAccount mint owner signer).run.Ensures contract _
          (.start before) := ensures_createAccount Request.keepsMints_alone rfl id
      obtain ⟨final, held, creates, alone⟩ :=
        (ensures_done Outcome.accountCreated ensures).run_once holds
      exact ⟨final.now, held,
        Alone.leaves_created alone rfl (fun _ other => by cases other) creates⟩
    | issue mint account amount => cases moves
    | transfer sender recipient amount => cases moves
    | burn mint account amount => cases moves

end Ledger

theorem Request.run_leaves {ledger : Ledger} {request : Request} {store : AnyStore}
    {before : MemoryStore} (holds : store.Holds before) :
    ∃ after, (request.run ledger store).store.Holds after ∧
      request.operation.Leaves before (request.run ledger store).result after := by
  unfold Request.run
  cases signed : request.signer ledger with
  | ok signer =>
    rw [program_eq_perform signed]
    exact Ledger.perform_leaves holds
  | error e =>
    cases request with
    | act p operation => cases signed
    | submit envelope =>
      refine ⟨before, ?_⟩
      rw [Request.program, Ledger.submit,
        show ledger.authenticator.authenticate envelope = .error e from signed]
      exact ⟨holds, .failed _⟩

/-- Whatever ledgers have done with a store so far, a ledger that is asked for an operation
    then leaves what its answer says. -/
theorem operation_all_or_nothing {start : AnyStore} (empty : start.IsEmpty)
    (actions : List Action) (ledger : Ledger) (request : Request) :
    let store := ((SharedStore.start start).run actions).store
    ∃ before after, store.Holds before ∧ (request.run ledger store).store.Holds after ∧
      request.operation.Leaves before (request.run ledger store).result after := by
  intro store
  obtain ⟨before, holds, _⟩ := SharedStore.run_balanced empty actions
  obtain ⟨after, held, leaves⟩ := @Request.run_leaves ledger request store before holds
  exact ⟨before, after, holds, held, leaves⟩

/-- Half of what has been issued is burned in a database. -/
theorem operation_all_or_nothing_burn :
    let mint : MintAddress := ⟨.replicate 2⟩
    let owner : Principal := ⟨.replicate 3⟩
    let account := AccountAddress.derive Derivation.defaultNamespace owner mint
    let actions := SharedStore.opening mint ⟨.replicate 1⟩ owner ++
      .request {} (.act ⟨.replicate 1⟩ (.issue mint account 10)) :: .replicate 6 (.turn 2)
    let store := ((SharedStore.start .emptyDatabase).run actions).store
    let request : Request := .act owner (.burn mint account 5)
    AnyStore.emptyDatabase.IsEmpty ∧ (request.run {} store).result.toOption.isSome ∧
      ∃ before after, store.Holds before ∧ (request.run {} store).store.Holds after ∧
        request.operation.Leaves before (request.run {} store).result after := by
  intro mint owner account actions store request
  refine ⟨rfl, ?_, operation_all_or_nothing AnyStore.isEmpty_emptyDatabase actions {} request⟩
  decide +kernel

end TokenLedger
