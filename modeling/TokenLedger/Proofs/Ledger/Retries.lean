import TokenLedger.Proofs.Ledger.Amid
import TokenLedger.Proofs.SharedStore.Atomicity

/-! # Operations that are run again

An operation that moves tokens loads two records, applies its rule to them, and commits
what that comes to.  If others have changed one of the records meanwhile, the commit
conflicts, and all of this is done again, with 64 commits at most.  `Judgement.Retries` is
this loop as a relation, each step one cycle; what is known of its trials and of its end is
proved by induction on it, and the program is shown to run like it (`retries_attempts`).
What the others do is any function that leaves all records in their places (`Respects`);
it is then that of ledgers that serve requests (`retries_bounded`).
-/

namespace TokenLedger

open RecordStore (Keeps)

/-- Whether what others do leaves every record in its place. -/
def Respects (meanwhile : Nat → AnyStore → AnyStore) : Prop :=
  ∀ turn {store records}, store.Holds records →
    ∃ later, (meanwhile turn store).Holds later ∧ Keeps records later

theorem serve_keeps {start : AnyStore} {records : MemoryStore} (holds : start.Holds records)
    (requests : List (Ledger × Request)) :
    ∃ after, (serve start requests).Holds after ∧ Keeps records after := by
  induction requests generalizing start records with
  | nil => exact ⟨records, holds, .refl records⟩
  | cons first rest ih =>
    obtain ⟨ledger, request⟩ := first
    obtain ⟨between, held, left, _⟩ := @Request.run_alone ledger request _ _ holds
    have kept : Keeps records between := by
      rcases left with rfl | ⟨_, _, posting⟩
      · exact .refl between
      · exact posting.keeps
    obtain ⟨after, held, kept'⟩ := ih held
    exact ⟨after, held, kept.trans kept'⟩

/-! ## The loop -/

namespace Judgement

theorem eq_of_judge {α : Type} {j j' : Judgement α} (same : j.judge = j'.judge) : j = j' := by
  cases j
  cases j'
  cases same
  rfl

variable {α β : Type} {j : Judgement α} {reruns : Nat} {meanwhile : Nat → AnyStore → AnyStore}
  {store : AnyStore} {run : Contest AnyStore (Except Failure α)}

/-- What comes of a cycle that is run again after each conflict, with so many reruns at most. -/
inductive Retries (j : Judgement α) : (reruns : Nat) → (meanwhile : Nat → AnyStore → AnyStore) →
    AnyStore → Contest AnyStore (Except Failure α) → Prop
  /-- The cycle asks for no commit. -/
  | settled {reruns : Nat} {meanwhile : Nat → AnyStore → AnyStore} {store : AnyStore}
    {records : MemoryStore} (holds : store.Holds records)
    (unasked : ∀ a batch, j.judge records records ≠ .ok (a, some batch)) :
    Retries j reruns meanwhile store ⟨j.answer records records, store, []⟩
  /-- The batch is committed, since it is still what the records ask for. -/
  | committed {reruns : Nat} {meanwhile : Nat → AnyStore → AnyStore} {store final : AnyStore}
    {records now after : MemoryStore} {a : α} {batch : WriteBatch} (holds : store.Holds records)
    (judged : j.judge records records = .ok (a, some batch))
    (held : (meanwhile 0 store).Holds now)
    (current : ¬batch.Overtaken store (meanwhile 0 store)) (done : now.commit batch = .ok after)
    (replied : RecordStore.answer (.commit batch) (meanwhile 0 store) = (.ok (), final))
    (left : final.Holds after) :
    Retries j reruns meanwhile store
      ⟨.ok a, final, [⟨store, meanwhile 0 store, batch, .ok ()⟩]⟩
  /-- The batch is overtaken, and there is no rerun left. -/
  | exhausted {meanwhile : Nat → AnyStore → AnyStore} {store : AnyStore}
    {records : MemoryStore} {a : α} {batch : WriteBatch} {subject : Subject}
    (holds : store.Holds records) (judged : j.judge records records = .ok (a, some batch))
    (overtaken : batch.Overtaken store (meanwhile 0 store)) :
    Retries j 0 meanwhile store ⟨.error (.storage (.conflict subject)), meanwhile 0 store,
      [⟨store, meanwhile 0 store, batch, .error (.conflict subject)⟩]⟩
  /-- The batch is overtaken, and the cycle is run again. -/
  | rerun {reruns : Nat} {meanwhile : Nat → AnyStore → AnyStore} {store : AnyStore}
    {records : MemoryStore} {a : α} {batch : WriteBatch} {subject : Subject}
    {run : Contest AnyStore (Except Failure α)} (holds : store.Holds records)
    (judged : j.judge records records = .ok (a, some batch))
    (overtaken : batch.Overtaken store (meanwhile 0 store))
    (rest : Retries j reruns (fun turn => meanwhile (turn + 1)) (meanwhile 0 store) run) :
    Retries j (reruns + 1) meanwhile store
      (run.after [⟨store, meanwhile 0 store, batch, .error (.conflict subject)⟩])

/-- How the loop can have ended. -/
inductive Ends (j : Judgement α) (reruns : Nat) (meanwhile : Nat → AnyStore → AnyStore)
    (store : AnyStore) (run : Contest AnyStore (Except Failure α)) : Prop
  /-- With a commit, of what the records that it found ask for. -/
  | committed {trial : Trial AnyStore} {now after : MemoryStore} {a : α}
    (last : run.trials.getLast? = some trial) (ok : trial.reply = .ok ())
    (held : trial.found.Holds now) (judged : j.judge now now = .ok (a, some trial.batch))
    (done : now.commit trial.batch = .ok after) (left : run.store.Holds after)
    (result : run.result = .ok a)
  /-- With an answer that asks for no commit, after conflicts. -/
  | settled {records : MemoryStore} (lost : ∀ trial ∈ run.trials, trial.Conflicts)
    (fewer : run.trials.length ≤ reruns)
    (left : run.store = afterTurns meanwhile store run.trials.length)
    (holds : run.store.Holds records)
    (unasked : ∀ a batch, j.judge records records ≠ .ok (a, some batch))
    (result : run.result = j.answer records records)
  /-- With the last conflict that it may come to. -/
  | exhausted {trial : Trial AnyStore} {subject : Subject}
    (lost : ∀ trial ∈ run.trials, trial.Conflicts) (all : run.trials.length = reruns + 1)
    (left : run.store = afterTurns meanwhile store run.trials.length)
    (last : run.trials.getLast? = some trial)
    (conflict : trial.reply = .error (.conflict subject))
    (result : run.result = .error (.storage (.conflict subject)))

namespace Retries

theorem refused {records : MemoryStore} {e : Failure} (holds : store.Holds records)
    (judged : j.judge records records = .error e) :
    j.Retries reruns meanwhile store ⟨.error e, store, []⟩ := by
  have settled := @settled _ j reruns meanwhile store records holds
    fun a batch asked => by cases judged.symm.trans asked
  rwa [Judgement.answer, judged] at settled

theorem idle {records : MemoryStore} {a : α} (holds : store.Holds records)
    (judged : j.judge records records = .ok (a, none)) :
    j.Retries reruns meanwhile store ⟨.ok a, store, []⟩ := by
  have settled := @settled _ j reruns meanwhile store records holds
    fun a batch asked => by cases judged.symm.trans asked
  rwa [Judgement.answer, judged] at settled

theorem length_le (retries : j.Retries reruns meanwhile store run) :
    run.trials.length ≤ reruns + 1 := by
  induction retries with
  | settled => exact Nat.zero_le _
  | committed => exact Nat.le_add_left _ _
  | exhausted => exact Nat.le_refl _
  | rerun _ _ _ _ ih => exact Nat.succ_le_succ ih

theorem trial_at (retries : j.Retries reruns meanwhile store run) {i : Nat}
    {trial : Trial AnyStore} (tried : run.trials[i]? = some trial) :
    trial.loaded = afterTurns meanwhile store i ∧
      trial.found = afterTurns meanwhile store (i + 1) ∧
      (∃ records a, j.judge records records = .ok (a, some trial.batch)) ∧
      ((trial.Conflicts ∧ trial.batch.Overtaken trial.loaded trial.found) ∨
        (trial.reply = .ok () ∧ ¬trial.batch.Overtaken trial.loaded trial.found ∧
          i + 1 = run.trials.length)) := by
  induction retries generalizing i with
  | settled => cases tried
  | committed _ judged _ current =>
    obtain ⟨rfl, rfl⟩ : i = 0 ∧ _ = trial := by simpa [List.getElem?_singleton] using tried
    exact ⟨rfl, rfl, ⟨_, _, judged⟩, .inr ⟨rfl, current, rfl⟩⟩
  | exhausted _ judged overtaken =>
    obtain ⟨rfl, rfl⟩ : i = 0 ∧ _ = trial := by simpa [List.getElem?_singleton] using tried
    exact ⟨rfl, rfl, ⟨_, _, judged⟩, .inl ⟨⟨_, rfl⟩, overtaken⟩⟩
  | rerun _ judged overtaken _ ih =>
    cases i with
    | zero =>
      cases tried
      exact ⟨rfl, rfl, ⟨_, _, judged⟩, .inl ⟨⟨_, rfl⟩, overtaken⟩⟩
    | succ i =>
      -- the later trials are those of the rerun, one turn on
      obtain ⟨loaded, found, asked, rest⟩ := ih tried
      rw [afterTurns_first] at loaded found
      refine ⟨loaded, found, asked, rest.imp_right fun ⟨ok, current, last⟩ => ⟨ok, current, ?_⟩⟩
      exact congrArg (· + 1) last

theorem holds_of_ok (retries : j.Retries reruns meanwhile store run) {a : α}
    (ok : run.result = .ok a) : ∃ records, run.store.Holds records := by
  induction retries with
  | settled holds => exact ⟨_, holds⟩
  | committed _ _ _ _ _ _ left => exact ⟨_, left⟩
  | exhausted => cases ok
  | rerun _ _ _ _ ih => exact ih ok

theorem ends (retries : j.Retries reruns meanwhile store run) :
    j.Ends reruns meanwhile store run := by
  induction retries with
  | settled holds unasked =>
    exact .settled (List.forall_mem_nil _) (Nat.zero_le _) rfl holds unasked rfl
  | committed _ judged held _ done _ left =>
    -- a batch that can be committed is what the records at the commit ask for too
    exact .committed rfl rfl held (j.current judged done) done left rfl
  | exhausted =>
    refine .exhausted (fun trial member => ?_) rfl rfl rfl rfl rfl
    rw [List.mem_singleton.mp member]
    exact ⟨_, rfl⟩
  | rerun _ _ _ _ ih =>
    -- the rerun ends as the whole does, one trial and one turn on
    cases ih with
    | committed last ok held judged done left result =>
      exact .committed (Contest.getLast?_after last) ok held judged done left result
    | settled lost fewer left holds unasked result =>
      rw [afterTurns_first] at left
      exact .settled (List.forall_mem_cons.mpr ⟨⟨_, rfl⟩, lost⟩) (Nat.succ_le_succ fewer) left
        holds unasked result
    | exhausted lost all left last conflict result =>
      rw [afterTurns_first] at left
      exact .exhausted (List.forall_mem_cons.mpr ⟨⟨_, rfl⟩, lost⟩) (congrArg (· + 1) all) left
        (Contest.getLast?_after last) conflict result

theorem map {f : α → β} (retries : j.Retries reruns meanwhile store run) :
    (j.map f).Retries reruns meanwhile store ⟨run.result.map f, run.store, run.trials⟩ := by
  have asked : ∀ {records a batch}, j.judge records records = .ok (a, some batch) →
      (j.map f).judge records records = .ok (f a, some batch) :=
    fun judged => map_eq_ok_iff.mpr ⟨_, judged, rfl⟩
  induction retries with
  | @settled _ _ _ records holds unasked =>
    show Retries _ _ _ _ ⟨(j.answer records records).map f, _, _⟩
    rw [← Judgement.answer_map]
    refine .settled holds fun b batch judged => ?_
    obtain ⟨⟨a, _⟩, judged, same⟩ := map_eq_ok_iff.mp judged
    cases same
    exact unasked a batch judged
  | committed holds judged held current done replied left =>
    exact .committed holds (asked judged) held current done replied left
  | exhausted holds judged overtaken => exact .exhausted holds (asked judged) overtaken
  | rerun holds judged overtaken _ ih => exact .rerun holds (asked judged) overtaken ih

end Retries

end Judgement

namespace LedgerProgram

variable {α β : Type} {j : Judgement α} {cycle : LedgerProgram (α × Option WriteBatch)}
  {meanwhile : Nat → AnyStore → AnyStore} {store : AnyStore} {records : MemoryStore}

/-- Whether a cycle comes to what is judged by the records that there are. -/
def Judges (cycle : LedgerProgram (α × Option WriteBatch)) (j : Judgement α) : Prop :=
  ∀ {store records}, AnyStore.Holds store records → cycle.Reads store (j.judge records records)

theorem retries_attempt_or_conflict {onConflict : Subject → LedgerProgram α}
    (judges : Judges cycle j) (respects : Respects meanwhile) (holds : store.Holds records)
    (reruns : Nat) :
    j.Retries reruns meanwhile store ((attempt cycle onConflict).amid meanwhile store) ∨
      ∃ a batch subject now, j.judge records records = .ok (a, some batch) ∧
        (meanwhile 0 store).Holds now ∧ batch.Overtaken store (meanwhile 0 store) ∧
        (attempt cycle onConflict).amid meanwhile store =
          ((onConflict subject).amid (fun turn => meanwhile (turn + 1)) (meanwhile 0 store)).after
            [⟨store, meanwhile 0 store, batch, .error (.conflict subject)⟩] := by
  have reads := judges holds
  cases judged : j.judge records records with
  | error e =>
    rw [judged] at reads
    rw [reads_attempt_error reads meanwhile]
    exact .inl (.refused holds judged)
  | ok asked =>
    obtain ⟨a, batch?⟩ := asked
    rw [judged] at reads
    cases batch? with
    | none =>
      rw [reads_attempt_none reads meanwhile]
      exact .inl (.idle holds judged)
    | some batch =>
      -- the batch could be committed at once, but others come first
      obtain ⟨_, could⟩ := j.commits judged
      obtain ⟨now, held, kept⟩ := respects 0 holds
      rcases AnyStore.commit_loaded holds held kept (j.distinct judged) could with
        ⟨current, after, final, done, replied, left⟩ | ⟨overtaken, subject, refused⟩
      · rw [amid_attempt_ok reads replied]
        exact .inl (.committed holds judged held current done replied left)
      · exact .inr ⟨a, batch, subject, now, rfl, held, overtaken,
          amid_attempt_conflict reads refused⟩

theorem retries_attempts (judges : Judges cycle j) (respects : Respects meanwhile)
    (holds : store.Holds records) (kind : OperationKind) (reruns : Nat) :
    j.Retries reruns meanwhile store ((attempts kind cycle reruns).amid meanwhile store) := by
  induction reruns generalizing meanwhile store records with
  | zero =>
    rcases retries_attempt_or_conflict judges respects holds 0 with
      done | ⟨a, batch, subject, now, judged, held, overtaken, ran⟩
    · exact done
    · rw [attempts, ran]
      exact .exhausted holds judged overtaken
  | succ reruns ih =>
    rcases retries_attempt_or_conflict judges respects holds (reruns + 1) with
      done | ⟨a, batch, subject, now, judged, held, overtaken, ran⟩
    · exact done
    · rw [attempts, ran, (reads_note _).amid_bind]
      -- what the others have still to do is as respectful as all that they do
      have rest := @ih (fun turn => meanwhile (turn + 1)) _ _ (fun turn => respects (turn + 1)) held
      exact .rerun holds judged overtaken rest

theorem amid_finish {x : LedgerProgram α} {finish : α → LedgerProgram β} {f : α → β}
    {run : Contest AnyStore (Except Failure α)} (ran : x.amid meanwhile store = run)
    (finishes : ∀ a, run.result = .ok a → (finish a).Reads run.store (.ok (f a))) :
    (x >>= finish).amid meanwhile store = ⟨run.result.map f, run.store, run.trials⟩ := by
  obtain ⟨result, left, trials⟩ := run
  cases result with
  | error e => exact amid_bind_error ran
  | ok a =>
    rw [amid_bind_ok ran, finishes a rfl]
    exact congrArg _ (List.append_nil trials)

theorem retries_map {x : LedgerProgram α} {reruns : Nat} (f : α → β)
    (retries : j.Retries reruns meanwhile store (x.amid meanwhile store)) :
    (j.map f).Retries reruns meanwhile store
      ((do return f (← x) : LedgerProgram β).amid meanwhile store) := by
  have packed := @amid_finish _ _ meanwhile store x (fun a => pure (f a)) f _ rfl
    fun a _ => reads_pure (f a)
  rw [packed]
  exact retries.map

/-- Checking the amount, locking, running a cycle again and again, and only reading after. -/
theorem retries_movement {ledger : Ledger} {amount : UInt64} {keys : List Bytes32}
    {kind : OperationKind} {finish : α → LedgerProgram α} (judges : Judges cycle j)
    (finishes : ∀ a {store records}, AnyStore.Holds store records → (finish a).Reads store (.ok a))
    (respects : Respects meanwhile) (holds : store.Holds records) :
    (j.unlessZero ledger amount).Retries (maxCommitAttempts - 1) meanwhile store
      ((do
        ledger.checkAmount amount
        lock keys
        let change ← attempts kind cycle (maxCommitAttempts - 1)
        finish change : LedgerProgram α).amid meanwhile store) := by
  have checked := @reads_checkAmount store ledger amount
  by_cases refused : amount = 0 ∧ ledger.config.rejectZeroAmounts
  · rw [if_pos refused] at checked
    have judged : (j.unlessZero ledger amount).judge records records =
        .error (.rejected .zeroAmount) := if_pos refused
    rw [amid_bind_error (checked meanwhile)]
    exact .refused holds judged
  · rw [if_neg refused] at checked
    have same := Judgement.eq_of_judge (@Judgement.judge_unlessZero _ j ledger amount refused)
    have loop := retries_attempts judges respects holds kind (maxCommitAttempts - 1)
    rw [checked.amid_bind, (reads_lock keys).amid_bind, same]
    have ended := @amid_finish _ _ meanwhile store _ finish id _ rfl
      fun a ok => finishes a (loop.holds_of_ok ok).choose_spec
    rw [ended]
    simpa using loop

end LedgerProgram

/-! ## Operations -/

namespace Operation

/-- The look-ups by which an operation loads records. -/
def loads : Operation → List StoreCall
  | createMint _ _ => []
  | createAccount mint _ => [.getMint mint]
  | issue mint account _ => [.getMint mint, .getAccount account]
  | transfer sender recipient _ => [.getAccount sender, .getAccount recipient]
  | burn mint account _ => [.getMint mint, .getAccount account]

/-- Whether a record that an operation has loaded from one store has another value in another. -/
def Overtaken (operation : Operation) (before after : AnyStore) : Prop :=
  ∃ load ∈ operation.loads, load.Differs before after

/-- Whether the rule of an operation rejects it, for the records that it is for. -/
inductive Rejects (signer : Principal) (records : MemoryStore) (reason : Rejection) :
    Operation → Prop
  | issue {mint : MintAddress} {account : AccountAddress} {amount : UInt64}
    {mintRecord : MintRecord} {accountRecord : AccountRecord} (nonzero : amount ≠ 0)
    (stored : records.getMint mint = some mintRecord)
    (stored' : records.getAccount account = some accountRecord)
    (refused : Transition.issue mintRecord accountRecord signer amount = .error reason) :
    Rejects signer records reason (.issue mint account amount)
  | transfer {sender recipient : AccountAddress} {amount : UInt64}
    {senderRecord recipientRecord : AccountRecord} (nonzero : amount ≠ 0)
    (stored : records.getAccount sender = some senderRecord)
    (stored' : records.getAccount recipient = some recipientRecord)
    (refused : Transition.transfer senderRecord recipientRecord signer amount = .error reason) :
    Rejects signer records reason (.transfer sender recipient amount)
  | burn {mint : MintAddress} {account : AccountAddress} {amount : UInt64}
    {mintRecord : MintRecord} {accountRecord : AccountRecord} (nonzero : amount ≠ 0)
    (stored : records.getMint mint = some mintRecord)
    (stored' : records.getAccount account = some accountRecord)
    (refused : Transition.burn mintRecord accountRecord signer amount = .error reason) :
    Rejects signer records reason (.burn mint account amount)

end Operation

namespace Ledger

open LedgerProgram

variable {ledger : Ledger} {signer : Principal} {operation : Operation} {j : Judgement Outcome}
  {meanwhile : Nat → AnyStore → AnyStore} {store : AnyStore} {records : MemoryStore}

/-- A batch is for just the records that have been loaded. -/
theorem loads_of_judged (judged : ledger.judgement? signer operation = some j) {outcome : Outcome}
    {batch : WriteBatch} (asked : j.judge records records = .ok (outcome, some batch)) :
    batch.updates.map AnyUpdate.load = operation.loads := by
  cases operation with
  | createMint mint decimals => cases judged
  | createAccount mint owner => cases judged
  | issue mint account amount =>
    cases judged
    obtain ⟨change, inner, rfl⟩ := Judgement.judge_map_unlessZero asked
    obtain ⟨_, _, _, stored, stored', passed, rfl⟩ := judgeSupply_eq_some_iff.mp inner
    obtain ⟨same, same'⟩ := Transition.issue_keeps passed
    rw [Operation.loads, ← MemoryStore.address_of_getMint stored,
      ← MemoryStore.address_of_getAccount stored', same.1, same'.1]
    rfl
  | transfer sender recipient amount =>
    cases judged
    obtain ⟨change, inner, rfl⟩ := Judgement.judge_map_unlessZero asked
    obtain ⟨_, _, _, stored, stored', passed, rfl⟩ := judgeTransfer_eq_some_iff.mp inner
    obtain ⟨same, same'⟩ := Transition.transfer_keeps passed
    rw [Operation.loads, ← MemoryStore.address_of_getAccount stored,
      ← MemoryStore.address_of_getAccount stored', same.1, same'.1]
    rfl
  | burn mint account amount =>
    cases judged
    obtain ⟨change, inner, rfl⟩ := Judgement.judge_map_unlessZero asked
    obtain ⟨_, _, _, stored, stored', passed, rfl⟩ := judgeSupply_eq_some_iff.mp inner
    obtain ⟨same, same'⟩ := Transition.burn_keeps passed
    rw [Operation.loads, ← MemoryStore.address_of_getMint stored,
      ← MemoryStore.address_of_getAccount stored', same.1, same'.1]
    rfl

theorem overtaken_iff (judged : ledger.judgement? signer operation = some j) {outcome : Outcome}
    {batch : WriteBatch} (asked : j.judge records records = .ok (outcome, some batch))
    {before after : AnyStore} :
    batch.Overtaken before after ↔ operation.Overtaken before after := by
  rw [Operation.Overtaken, ← loads_of_judged judged asked, WriteBatch.Overtaken]
  simp only [List.mem_map, exists_exists_and_eq_and]

theorem answer_of_rejects (judged : ledger.judgement? signer operation = some j)
    {reason : Rejection} (rejects : operation.Rejects signer records reason) :
    j.answer records records = .error (.rejected reason) := by
  have refused : ∀ {α : Type} {f : α → Outcome} {j : Judgement α} {amount : UInt64}, amount ≠ 0 →
      j.judge records records = .error (.rejected reason) →
      ((j.unlessZero ledger amount).map f).answer records records = .error (.rejected reason) := by
    intro α f j amount nonzero refused
    rw [Judgement.answer_map, Judgement.answer_unlessZero fun zero => nonzero zero.1,
      map_eq_error_iff, Judgement.answer_eq_error_iff]
    exact refused
  cases rejects with
  | issue nonzero stored stored' rejected =>
    cases judged
    exact refused nonzero (judgeSupply_eq_error_iff.mpr
      (.inr ⟨_, stored, .inr ⟨_, stored', _, rejected, rfl⟩⟩))
  | transfer nonzero stored stored' rejected =>
    cases judged
    exact refused nonzero (judgeTransfer_eq_error_iff.mpr
      (.inr ⟨_, stored, .inr ⟨_, stored', _, rejected, rfl⟩⟩))
  | burn nonzero stored stored' rejected =>
    cases judged
    exact refused nonzero (judgeSupply_eq_error_iff.mpr
      (.inr ⟨_, stored, .inr ⟨_, stored', _, rejected, rfl⟩⟩))

theorem reads_reported (ledger : Ledger) (event : Event) (change : SupplyChange) {store : AnyStore}
    {records : MemoryStore} (holds : store.Holds records) :
    (do
      note event
      ledger.auditChange change.mint
      return change : LedgerProgram SupplyChange).Reads store (.ok change) :=
  (reads_note event).bind fun _ _ => (reads_auditChange holds ledger change.mint).bind
    fun _ _ => reads_pure change

theorem retries_issue (ledger : Ledger) (mint : MintAddress) (account : AccountAddress)
    (signer : Principal) (amount : UInt64) (respects : Respects meanwhile)
    (holds : store.Holds records) :
    ((Judgement.supply mint account amount (Transition.issue · · signer amount)
      Transition.issue_keeps).unlessZero ledger amount).Retries (maxCommitAttempts - 1) meanwhile
        store ((ledger.issue mint account signer amount).amid meanwhile store) :=
  retries_movement (fun holds => reads_supplyCycle holds _ _ _ _ _)
    (fun change _ _ holds => reads_reported ledger _ change holds) respects holds

theorem retries_transfer (ledger : Ledger) (sender recipient : AccountAddress)
    (signer : Principal) (amount : UInt64) (respects : Respects meanwhile)
    (holds : store.Holds records) :
    ((Judgement.transfer sender recipient signer amount).unlessZero ledger amount).Retries
      (maxCommitAttempts - 1) meanwhile store
        ((ledger.transfer sender recipient signer amount).amid meanwhile store) :=
  retries_movement (fun holds => reads_transferCycle holds _ _ _ _)
    (fun change _ _ _ => (reads_note _).bind fun _ _ => reads_pure change) respects holds

theorem retries_burn (ledger : Ledger) (mint : MintAddress) (account : AccountAddress)
    (signer : Principal) (amount : UInt64) (respects : Respects meanwhile)
    (holds : store.Holds records) :
    ((Judgement.supply mint account amount (Transition.burn · · signer amount)
      Transition.burn_keeps).unlessZero ledger amount).Retries (maxCommitAttempts - 1) meanwhile
        store ((ledger.burn mint account signer amount).amid meanwhile store) :=
  retries_movement (fun holds => reads_supplyCycle holds _ _ _ _ _)
    (fun change _ _ holds => reads_reported ledger _ change holds) respects holds

theorem retries_perform (judged : ledger.judgement? signer operation = some j)
    (respects : Respects meanwhile) (holds : store.Holds records) :
    j.Retries (maxCommitAttempts - 1) meanwhile store
      ((ledger.perform signer operation).amid meanwhile store) := by
  cases operation with
  | createMint mint decimals => cases judged
  | createAccount mint owner => cases judged
  | issue mint account amount =>
    cases judged
    have movement := retries_issue ledger mint account signer amount respects holds
    exact retries_map Outcome.issued movement
  | transfer sender recipient amount =>
    cases judged
    have movement := retries_transfer ledger sender recipient signer amount respects holds
    exact retries_map Outcome.transferred movement
  | burn mint account amount =>
    cases judged
    have movement := retries_burn ledger mint account signer amount respects holds
    exact retries_map Outcome.burned movement

end Ledger

/-! ## Requests -/

/-- What others do in a turn, if they have requests served. -/
def meantime (others : Nat → List (Ledger × Request)) (turn : Nat) (store : AnyStore) : AnyStore :=
  serve store (others turn)

namespace Request

/-- The run of a request while others have theirs served between its loads and its commits. -/
def amid (ledger : Ledger) (request : Request) (others : Nat → List (Ledger × Request))
    (store : AnyStore) : Contest AnyStore (Except Failure Outcome) :=
  (request.program ledger).amid (meantime others) store

/-- How a request to move tokens ends amid others. -/
inductive Ends (ledger : Ledger) (request : Request) (others : Nat → List (Ledger × Request))
    (store : AnyStore) (run : Contest AnyStore (Except Failure Outcome)) : Prop
  /-- Its last commit is made.  Then it has done what it would have done by itself on the
      store that the commit found, and has posted its operation on the records there. -/
  | committed {trial : Trial AnyStore} {before after : MemoryStore} {outcome : Outcome}
    (last : run.trials.getLast? = some trial) (ok : trial.reply = .ok ())
    (held : trial.found.Holds before) (left : run.store.Holds after)
    (posted : request.Posts ledger before after)
    (alone : (request.run ledger trial.found).result = .ok outcome)
    (result : run.result = .ok outcome)
  /-- It comes to an answer without a commit, perhaps after conflicts: the answer that it
      would have had by itself, writing nothing, and the rule's if it is rejected. -/
  | settled {records : MemoryStore} (lost : ∀ trial ∈ run.trials, trial.Conflicts)
    (fewer : run.trials.length < 64)
    (left : run.store = afterTurns (meantime others) store run.trials.length)
    (holds : run.store.Holds records)
    (alone : run.result = (request.run ledger run.store).result)
    (idle : (request.run ledger run.store).store.Holds records)
    (rejected : ∀ signer reason, request.signer ledger = .ok signer →
      request.operation.Rejects signer records reason → run.result = .error (.rejected reason))
  /-- All of its commits conflict.  It answers with the last conflict and has written nothing. -/
  | exhausted {trial : Trial AnyStore} {subject : Subject}
    (lost : ∀ trial ∈ run.trials, trial.Conflicts) (all : run.trials.length = 64)
    (left : run.store = afterTurns (meantime others) store run.trials.length)
    (last : run.trials.getLast? = some trial)
    (conflict : trial.reply = .error (.conflict subject))
    (result : run.result = .error (.storage (.conflict subject)))

variable {ledger : Ledger} {request : Request} {others : Nat → List (Ledger × Request)}
  {store : AnyStore} {records : MemoryStore}

theorem respects_meantime (others : Nat → List (Ledger × Request)) : Respects (meantime others) :=
  fun turn _ _ holds => serve_keeps holds (others turn)

theorem program_reads_error {e : CoreError} (unsigned : request.signer ledger = .error e) :
    (request.program ledger).Reads store (.error (.authentication e)) := by
  cases request with
  | act signer operation => cases unsigned
  | submit envelope =>
    show (ledger.submit envelope).Reads store _
    rw [Ledger.submit, show ledger.authenticator.authenticate envelope = .error e from unsigned]
    exact fun _ => rfl

theorem amid_retries {signer : Principal} {j : Judgement Outcome}
    (signed : request.signer ledger = .ok signer)
    (judged : ledger.judgement? signer request.operation = some j) (holds : store.Holds records) :
    j.Retries (LedgerProgram.maxCommitAttempts - 1) (meantime others) store
      (request.amid ledger others store) := by
  rw [amid, program_eq_perform signed]
  exact Ledger.retries_perform judged (respects_meantime others) holds

theorem run_answer {signer : Principal} {j : Judgement Outcome}
    (signed : request.signer ledger = .ok signer)
    (judged : ledger.judgement? signer request.operation = some j) (holds : store.Holds records) :
    (request.run ledger store).result = j.answer records records := by
  have alone := @run_answers ledger request _ _ holds
  rw [signed] at alone
  exact alone j judged

theorem run_idle {signer : Principal} {j : Judgement Outcome}
    (signed : request.signer ledger = .ok signer)
    (judged : ledger.judgement? signer request.operation = some j) (holds : store.Holds records)
    (unasked : ∀ outcome batch, j.judge records records ≠ .ok (outcome, some batch)) :
    (request.run ledger store).store.Holds records := by
  obtain ⟨after, left, leaves⟩ := @run_leaves ledger request store records holds
  rw [run_answer signed judged holds] at leaves
  cases answered : j.answer records records with
  | error e =>
    rw [answered] at leaves
    cases leaves
    exact left
  | ok outcome =>
    rw [answered] at leaves
    cases leaves with
    | idle => exact left
    | done something =>
      -- it would have had to ask for a batch
      obtain ⟨batch?, asked⟩ := Judgement.answer_eq_ok_iff.mp answered
      rw [← Ledger.writes_of_judged judged asked] at something
      obtain ⟨batch, rfl⟩ := Option.isSome_iff_exists.mp something
      exact absurd asked (unasked outcome batch)

theorem ends_of_retries {signer : Principal} {j : Judgement Outcome}
    (signed : request.signer ledger = .ok signer)
    (judged : ledger.judgement? signer request.operation = some j)
    {run : Contest AnyStore (Except Failure Outcome)}
    (retries : j.Retries (LedgerProgram.maxCommitAttempts - 1) (meantime others) store run) :
    request.Ends ledger others store run := by
  cases retries.ends with
  | committed last ok held asked done left result =>
    have alone := (run_answer signed judged held).trans (Judgement.answer_eq_ok_iff.mpr ⟨_, asked⟩)
    exact .committed last ok held left ⟨signer, signed, Ledger.posting_of_judged judged asked done⟩
      alone result
  | settled lost fewer left holds unasked result =>
    refine .settled lost (Nat.lt_succ_of_le fewer) left holds
      (result.trans (run_answer signed judged holds).symm) (run_idle signed judged holds unasked) ?_
    intro signer' reason signed' rejects
    cases signed.symm.trans signed'
    exact result.trans (Ledger.answer_of_rejects judged rejects)
  | exhausted lost all left last conflict result =>
    exact .exhausted lost all left last conflict result

end Request

/-- A request to move tokens is tried 64 times at most while others use the store.  It
    conflicts just if others have changed what it has loaded, and is then run again on what
    they have left. -/
theorem retries_bounded {store : AnyStore} {records : MemoryStore} (holds : store.Holds records)
    (ledger : Ledger) {request : Request} (moves : request.operation.moves = true)
    (others : Nat → List (Ledger × Request)) :
    (request.amid ledger others store).trials.length ≤ 64 ∧
      (∀ i trial, (request.amid ledger others store).trials[i]? = some trial →
        trial.loaded = afterTurns (meantime others) store i ∧
          trial.found = afterTurns (meantime others) store (i + 1) ∧
          (trial.Conflicts ↔ request.operation.Overtaken trial.loaded trial.found) ∧
          (¬trial.Conflicts →
            trial.reply = .ok () ∧ i + 1 = (request.amid ledger others store).trials.length)) ∧
      request.Ends ledger others store (request.amid ledger others store) := by
  cases signed : request.signer ledger with
  | error e =>
    have reads : request.amid ledger others store = ⟨.error (.authentication e), store, []⟩ :=
      Request.program_reads_error signed _
    have alone := @Request.run_answers ledger request _ _ holds
    rw [signed] at alone
    obtain ⟨after, left, _, failed⟩ := @Request.run_alone ledger request _ _ holds
    cases failed _ alone
    rw [reads]
    refine ⟨Nat.zero_le _, fun _ _ tried => ?_,
      .settled (List.forall_mem_nil _) (Nat.zero_lt_succ _) rfl holds alone.symm left ?_⟩
    · cases tried
    · intro signer reason signed'
      cases signed.symm.trans signed'
  | ok signer =>
    obtain ⟨j, judged⟩ := ledger.exists_judgement signer moves
    have retries := @Request.amid_retries ledger request others _ _ _ _ signed judged holds
    have ends := Request.ends_of_retries signed judged retries
    refine ⟨retries.length_le, fun i trial tried => ?_, ends⟩
    obtain ⟨loaded, found, ⟨_, _, asked⟩, outcome⟩ := retries.trial_at tried
    rw [Ledger.overtaken_iff judged asked] at outcome
    refine ⟨loaded, found, ?_, ?_⟩
    · rcases outcome with ⟨conflicts, overtaken⟩ | ⟨ok, current, _⟩
      · exact iff_of_true conflicts overtaken
      · refine iff_of_false (fun ⟨subject, conflict⟩ => ?_) current
        cases ok.symm.trans conflict
    · exact fun quiet => (outcome.resolve_left fun lost => quiet lost.1).imp_right And.right

/-- An issue of ten while others issue three, once and then each time. -/
theorem retries_bounded_rival :
    let mint : MintAddress := ⟨.replicate 2⟩
    let authority : Principal := ⟨.replicate 1⟩
    let account := AccountRecord.create Derivation.defaultNamespace ⟨.replicate 3⟩ mint
    let records := (MemoryStore.empty.putMint (.empty mint authority 0)).putAccount account
    let request := Request.act authority (.issue mint account.address 10)
    let rival : List (Ledger × Request) := [({}, .act authority (.issue mint account.address 3))]
    let once := request.amid {} (fun turn => if turn = 0 then rival else []) (.memory records)
    let always := request.amid {} (fun _ => rival) (.memory records)
    let conflict := StoreError.conflict (.record (.mint mint))
    request.operation.moves = true ∧ (AnyStore.memory records).Holds records ∧
      once.trials.map (·.reply) = [.error conflict, .ok ()] ∧
      RecordStore.HasAccount once.store account.address { account with amount := 13 } ∧
      request.Ends {} (fun turn => if turn = 0 then rival else []) (.memory records) once ∧
      always.trials.length = 64 ∧ always.result = .error (.storage conflict) ∧
      RecordStore.HasAccount always.store account.address { account with amount := 192 } ∧
      request.Ends {} (fun _ => rival) (.memory records) always := by
  intro mint authority account records request rival once always conflict
  have holds := AnyStore.Holds.memory records
  have ran : once.trials.map (·.reply) = [.error conflict, .ok ()] ∧
      RecordStore.HasAccount once.store account.address { account with amount := 13 } := by
    decide +kernel
  have lost : always.trials.length = 64 ∧ always.result = .error (.storage conflict) ∧
      RecordStore.HasAccount always.store account.address { account with amount := 192 } := by
    decide +kernel
  exact ⟨rfl, holds, ran.1, ran.2, (retries_bounded holds {} rfl _).2.2, lost.1, lost.2.1, lost.2.2,
    (retries_bounded holds {} rfl _).2.2⟩

end TokenLedger
