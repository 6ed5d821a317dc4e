import TokenLedger.Proofs.Ledger.Movement
import TokenLedger.Proofs.Program.Amid
import TokenLedger.Proofs.Store.Overtaken

/-! # Ledgers amid others

What the parts of a ledger's operations come to while others use the store.  All but the
commits only read, and read the store as it is (`LedgerProgram.Reads`): the cycle of an
operation comes to what is judged by the records there.  So an operation is a loop around
one thing that others can get in the way of, which is the commit
(`LedgerProgram.amid_attempt_ok`, `amid_attempt_conflict`).
-/

namespace TokenLedger

theorem AnyStore.answer_of_not_writes {call : StoreCall} (reads : call.writes = false)
    (store : AnyStore) : (RecordStore.answer call store).2 = store := by
  cases store with
  | memory records =>
    cases call with
    | insertMint mint => cases reads
    | insertAccount account => cases reads
    | commit batch =>
      obtain ⟨mints, accounts⟩ := batch
      simp only [StoreCall.writes, WriteBatch.isEmpty, Bool.not_eq_false', Bool.and_eq_true,
        List.isEmpty_iff] at reads
      obtain ⟨rfl, rfl⟩ := reads
      rfl
    | _ => rfl
  | database db => exact congrArg AnyStore.database (Database.answer_of_not_writes reads db)

namespace LedgerProgram

variable {α β : Type} {x : LedgerProgram α} {f : α → LedgerProgram β} {store left : AnyStore}
  {meanwhile : Nat → AnyStore → AnyStore}

/-- A run of a ledger's program amid others. -/
def amid (meanwhile : Nat → AnyStore → AnyStore) (x : LedgerProgram α) (store : AnyStore) :
    Contest AnyStore (Except Failure α) :=
  x.run.amid meanwhile store

/-! ## Sequences -/

theorem amid_bind_ok {a : α} {trials : List (Trial AnyStore)}
    (first : x.amid meanwhile store = ⟨.ok a, left, trials⟩) :
    (x >>= f).amid meanwhile store =
      ((f a).amid (fun turn => meanwhile (turn + trials.length)) left).after trials := by
  have parts := Program.amid_bind x.run (ExceptT.bindCont f) meanwhile store
  rw [show x.run.amid meanwhile store = _ from first] at parts
  exact parts

theorem amid_bind_error {e : Failure} {trials : List (Trial AnyStore)}
    (first : x.amid meanwhile store = ⟨.error e, left, trials⟩) :
    (x >>= f).amid meanwhile store = ⟨.error e, left, trials⟩ := by
  have parts := Program.amid_bind x.run (ExceptT.bindCont f) meanwhile store
  rw [show x.run.amid meanwhile store = _ from first] at parts
  refine parts.trans ?_
  show (⟨.error e, left, trials ++ []⟩ : Contest AnyStore (Except Failure β)) = _
  rw [List.append_nil]

/-! ## Reading -/

/-- Whether a program only reads a store, and what it then comes to. -/
def Reads (x : LedgerProgram α) (store : AnyStore) (result : Except Failure α) : Prop :=
  ∀ meanwhile, x.amid meanwhile store = ⟨result, store, []⟩

theorem Reads.amid_bind {a : α} (reads : x.Reads store (.ok a)) :
    (x >>= f).amid meanwhile store = (f a).amid meanwhile store :=
  amid_bind_ok (reads meanwhile)

theorem Reads.bind {result : Except Failure α} {look : α → Except Failure β}
    (reads : x.Reads store result) (rest : ∀ a, result = .ok a → (f a).Reads store (look a)) :
    (x >>= f).Reads store (result >>= look) := by
  intro meanwhile
  cases result with
  | ok a => exact reads.amid_bind.trans (rest a rfl meanwhile)
  | error e => exact amid_bind_error (reads meanwhile)

theorem reads_pure (a : α) : (pure a : LedgerProgram α).Reads store (.ok a) := fun _ => rfl

theorem reads_note (event : Event) : (note event).Reads store (.ok ()) := fun _ => rfl

theorem reads_lock (keys : List Bytes32) : (lock keys).Reads store (.ok ()) := fun _ => rfl

theorem reads_rule (kind : OperationKind) (outcome : Except Rejection α) :
    (rule kind outcome).Reads store (outcome.mapError .rejected) := by
  cases outcome with
  | ok a => exact reads_pure a
  | error reason => exact fun _ => rfl

theorem reads_checkAmount (ledger : Ledger) (amount : UInt64) :
    (ledger.checkAmount amount).Reads store
      (if amount = 0 ∧ ledger.config.rejectZeroAmounts then .error (.rejected .zeroAmount)
        else .ok ()) := by
  unfold Ledger.checkAmount
  split
  · exact fun _ => rfl
  · exact reads_pure ()

theorem amid_reply {request : StoreCall} (reads : ∀ batch, request ≠ .commit batch) :
    (reply request).amid meanwhile store =
      ⟨.ok (RecordStore.answer request store).1, (RecordStore.answer request store).2, []⟩ := by
  cases request with
  | commit batch => exact absurd rfl (reads batch)
  | _ => rfl

theorem reads_call {request : StoreCall} {answer : request.Answer}
    (reads : ∀ batch, request ≠ .commit batch) (quiet : request.writes = false)
    (replied : (RecordStore.answer request store).1 = .ok answer) :
    (call request).Reads store (.ok answer) := by
  intro meanwhile
  have asked := @amid_reply store meanwhile request reads
  rw [replied, store.answer_of_not_writes quiet] at asked
  exact amid_bind_ok asked

section Holds

variable {records : MemoryStore} (holds : store.Holds records)

include holds

theorem reads_loadMint (address : MintAddress) :
    (loadMint address).Reads store (records.mintAt address) := by
  have found := reads_call (by simp) rfl (holds.getMint address)
  intro meanwhile
  rw [loadMint, found.amid_bind, MemoryStore.mintAt]
  cases records.getMint address with
  | none => rfl
  | some mint => rfl

theorem reads_loadAccount (address : AccountAddress) :
    (loadAccount address).Reads store (records.accountAt address) := by
  have found := reads_call (by simp) rfl (holds.getAccount address)
  intro meanwhile
  rw [loadAccount, found.amid_bind, MemoryStore.accountAt]
  cases records.getAccount address with
  | none => rfl
  | some account => rfl

theorem reads_supplyCycle (kind : OperationKind) (mint : MintAddress) (account : AccountAddress)
    (amount : UInt64) (apply : MintRecord → AccountRecord → Except Rejection SupplyChange) :
    (supplyCycle kind mint account amount apply).Reads store
      (judgeSupply mint account amount apply records records) :=
  (reads_loadMint holds mint).bind fun _ _ => (reads_loadAccount holds account).bind fun _ _ =>
    (reads_rule kind _).bind fun _ _ => reads_pure _

theorem reads_transferCycle (sender recipient : AccountAddress) (signer : Principal)
    (amount : UInt64) :
    (transferCycle sender recipient signer amount).Reads store
      (judgeTransfer sender recipient signer amount records records) :=
  (reads_loadAccount holds sender).bind fun _ _ => (reads_loadAccount holds recipient).bind
    fun _ _ => (reads_rule .transfer _).bind fun _ _ => reads_pure _

theorem reads_auditRecord (mint : MintRecord) :
    (auditRecord mint).Reads store
      (.ok (mint.checkSupply (records.accountsByMint mint.address))) := by
  have scanned := reads_call (by simp) rfl (holds.accountsByMint mint.address)
  intro meanwhile
  rw [auditRecord, scanned.amid_bind]
  -- a mismatch is noted, and nothing else comes of it
  dsimp only
  split <;> rfl

theorem reads_auditChange (ledger : Ledger) (mint : MintRecord) :
    (ledger.auditChange mint).Reads store (.ok ()) := by
  unfold Ledger.auditChange
  split
  · exact (reads_auditRecord holds mint).bind fun _ _ => reads_pure ()
  · exact reads_pure ()

end Holds

/-! ## Committing -/

section Attempt

variable {cycle : LedgerProgram (α × Option WriteBatch)} {onConflict : Subject → LedgerProgram α}
  {a : α} {batch : WriteBatch}

theorem amid_reply_commit :
    (reply (.commit batch)).amid meanwhile store =
      ⟨.ok (RecordStore.answer (.commit batch) (meanwhile 0 store)).1,
        (RecordStore.answer (.commit batch) (meanwhile 0 store)).2,
        [⟨store, meanwhile 0 store, batch,
          (RecordStore.answer (.commit batch) (meanwhile 0 store)).1⟩]⟩ := rfl

theorem reads_attempt_error {e : Failure} (judged : cycle.Reads store (.error e)) :
    (attempt cycle onConflict).Reads store (.error e) :=
  fun meanwhile => amid_bind_error (judged meanwhile)

theorem reads_attempt_none (judged : cycle.Reads store (.ok (a, none))) :
    (attempt cycle onConflict).Reads store (.ok a) :=
  fun _ => judged.amid_bind

theorem amid_attempt_ok (judged : cycle.Reads store (.ok (a, some batch)))
    (done : RecordStore.answer (.commit batch) (meanwhile 0 store) = (.ok (), left)) :
    (attempt cycle onConflict).amid meanwhile store =
      ⟨.ok a, left, [⟨store, meanwhile 0 store, batch, .ok ()⟩]⟩ := by
  have committing := @amid_reply_commit store meanwhile batch
  rw [done] at committing
  rw [attempt, judged.amid_bind]
  exact amid_bind_ok committing

theorem amid_attempt_conflict {subject : Subject}
    (judged : cycle.Reads store (.ok (a, some batch)))
    (refused : RecordStore.answer (.commit batch) (meanwhile 0 store) =
      (.error (.conflict subject), left)) :
    (attempt cycle onConflict).amid meanwhile store =
      ((onConflict subject).amid (fun turn => meanwhile (turn + 1)) left).after
        [⟨store, meanwhile 0 store, batch, .error (.conflict subject)⟩] := by
  have committing := @amid_reply_commit store meanwhile batch
  rw [refused] at committing
  rw [attempt, judged.amid_bind]
  exact amid_bind_ok committing

end Attempt

end LedgerProgram

end TokenLedger
