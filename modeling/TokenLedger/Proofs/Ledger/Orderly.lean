import TokenLedger.Proofs.Ledger.Backends
import TokenLedger.Proofs.Program.Orderly

/-! # Every call of a ledger acts at one moment

The addresses that a call locks are those of all records that it loads one by one, so
what it loads is what is there when it commits or inserts.  That is the moment at which
it acts, and it acts once: a cycle that is judged by what is there commits
(`orderly_attempt`), so it is never run again, and what is done after the commit changes
nothing and cannot change the answer.

An audit holds its mint but none of the accounts, which it reads in one call.  That call
is its moment: the mint is still as it was loaded, whatever transfers there have been.
-/

namespace TokenLedger

/-- Whether records are balanced and all accounts are in their place. -/
structure MemoryStore.WellKept (ns : Bytes) (records : MemoryStore) : Prop where
  balanced : records.Balanced
  derived : records.Derived ns

namespace MemoryStore.WellKept

variable {ns : Bytes} {records after : MemoryStore}

theorem empty : MemoryStore.empty.WellKept ns := ⟨.empty, .empty⟩

theorem posting {signer : Principal} {operation : Operation} (kept : records.WellKept ns)
    (posting : Posting ns signer operation records after) : after.WellKept ns :=
  ⟨posting.balanced kept.balanced, posting.derived kept.derived⟩

end MemoryStore.WellKept

namespace LedgerProgram

variable {α β : Type} {good : MemoryStore → Prop} {keys : List Bytes32} {records : MemoryStore}
  {x : LedgerProgram α} {f : α → LedgerProgram β}

/-! ## Sequences -/

theorem concludes_bind {post : Except Failure β → Prop} (first : x.run.Concludes (∃ a, · = .ok a))
    (rest : ∀ a, (f a).run.Concludes post) : (x >>= f).run.Concludes post := by
  show (x.run >>= ExceptT.bindCont f).Concludes _
  refine first.bind ?_
  rintro _ ⟨a, rfl⟩
  exact rest a

theorem readsTo_bind {r : Except Failure α} {g : α → Except Failure β}
    (first : x.run.ReadsTo keys records r) (rest : ∀ a, (f a).run.ReadsTo keys records (g a)) :
    (x >>= f).run.ReadsTo keys records (r >>= g) := by
  show (x.run >>= ExceptT.bindCont f).ReadsTo _ _ _
  refine first.bind ?_
  cases r with
  | ok a => exact rest a
  | error e => exact rfl

theorem orderly_read {r : Except Failure α} (first : x.run.ReadsTo keys records r)
    (rest : ∀ a, r = .ok a → (f a).run.Orderly good keys records) :
    (x >>= f).run.Orderly good keys records := by
  show (x.run >>= ExceptT.bindCont f).Orderly _ _ _
  refine first.bind_orderly ?_
  cases r with
  | ok a => exact rest a rfl
  | error e => exact trivial

theorem orderly_bind (first : x.run.Orderly good keys records)
    (rest : ∀ a, ∃ result, (f a).run.Concludes (· = result)) :
    (x >>= f).run.Orderly good keys records := by
  show (x.run >>= ExceptT.bindCont f).Orderly _ _ _
  refine first.bind fun a => ?_
  cases a with
  | ok a => exact rest a
  | error e => exact ⟨_, rfl⟩

theorem orderly_lock {f : Unit → LedgerProgram β}
    (rest : ∀ found, good found → (f ()).run.Orderly good keys found) :
    (lock keys >>= f).run.Orderly good [] records :=
  ⟨rfl, rest⟩

theorem orderly_call {call : StoreCall} {f : call.Answer → LedgerProgram β}
    (decides : ∀ found, good found → records.AgreeAt keys found → call.Decides good keys found)
    (rest : ∀ answer, ∃ result, (f answer).run.Concludes (· = result)) :
    (LedgerProgram.call call >>= f).run.Orderly good keys records := by
  refine .inr fun found fine agree => ⟨decides found fine agree, ?_⟩
  obtain ⟨answer, answered⟩ := (decides found fine agree).answered
  obtain ⟨result, concludes⟩ := rest answer
  exact ⟨result, answered ▸ concludes⟩

theorem orderly_ask {call : StoreCall} {f : call.Answer → LedgerProgram β} (asks : call.Asks)
    (rest : ∀ answer, ∃ result, (f answer).run.Concludes (· = result)) :
    (LedgerProgram.call call >>= f).run.Orderly good keys records :=
  orderly_call (fun _ fine _ => asks.decides fine) rest

/-! ## Loading -/

theorem readsTo_getMint {address : MintAddress} (held : address.raw ∈ keys) :
    (call (.getMint address)).run.ReadsTo keys records (.ok (records.getMint address)) :=
  ⟨held, rfl⟩

theorem readsTo_getAccount {address : AccountAddress} (held : address.raw ∈ keys) :
    (call (.getAccount address)).run.ReadsTo keys records (.ok (records.getAccount address)) :=
  ⟨held, rfl⟩

theorem readsTo_loadMint {address : MintAddress} (held : address.raw ∈ keys) :
    (loadMint address).run.ReadsTo keys records (records.mintAt address) := by
  refine (readsTo_getMint held).bind ?_
  unfold MemoryStore.mintAt
  cases records.getMint address <;> exact rfl

theorem readsTo_loadAccount {address : AccountAddress} (held : address.raw ∈ keys) :
    (loadAccount address).run.ReadsTo keys records (records.accountAt address) := by
  refine (readsTo_getAccount held).bind ?_
  unfold MemoryStore.accountAt
  cases records.getAccount address <;> exact rfl

theorem readsTo_rule (kind : OperationKind) (outcome : Except Rejection α) :
    (rule kind outcome).run.ReadsTo keys records (outcome.mapError .rejected) := by
  cases outcome <;> exact rfl

theorem readsTo_checkAmount (ledger : Ledger) (amount : UInt64) :
    (ledger.checkAmount amount).run.ReadsTo keys records
      (if amount = 0 ∧ ledger.config.rejectZeroAmounts then .error (.rejected .zeroAmount)
        else .ok ()) := by
  unfold Ledger.checkAmount
  split <;> exact rfl

/-! ## Cycles -/

/-- Whether a cycle, run where addresses are held, is judged by what is there, and asks for
    nothing to be committed elsewhere. -/
structure Covers (keys : List Bytes32) (cycle : LedgerProgram (α × Option WriteBatch))
    (j : Judgement α) : Prop where
  reads : ∀ records, cycle.run.ReadsTo keys records (j.judge records records)
  mints : ∀ {records a batch}, j.judge records records = .ok (a, some batch) →
    ∀ update ∈ batch.mints, update.after.address.raw ∈ keys
  accounts : ∀ {records a batch}, j.judge records records = .ok (a, some batch) →
    ∀ update ∈ batch.accounts, update.after.address.raw ∈ keys

/-- Whether good records are good after a commit of what is judged by them. -/
def Preserves (good : MemoryStore → Prop) (j : Judgement α) : Prop :=
  ∀ {records after : MemoryStore} {a batch}, good records →
    j.judge records records = .ok (a, some batch) → records.commit batch = .ok after → good after

theorem supplyCycle_covers {kind : OperationKind} {mint : MintAddress} {account : AccountAddress}
    {amount : UInt64} {apply : MintRecord → AccountRecord → Except Rejection SupplyChange}
    (keeps : KeepsIdentity apply) :
    Covers [mint.raw, account.raw] (supplyCycle kind mint account amount apply)
      (.supply mint account amount apply keeps) where
  reads records := by
    refine readsTo_bind (readsTo_loadMint (by simp)) fun mintRecord => ?_
    refine readsTo_bind (readsTo_loadAccount (by simp)) fun accountRecord => ?_
    exact readsTo_bind (readsTo_rule kind _) fun change => rfl
  mints judged update member := by
    obtain ⟨_, _, _, stored, _, passed, rfl⟩ := judgeSupply_eq_some_iff.mp judged
    obtain rfl := List.mem_singleton.mp member
    simp [← (keeps passed).1.1, MemoryStore.address_of_getMint stored]
  accounts judged update member := by
    obtain ⟨_, _, _, _, stored, passed, rfl⟩ := judgeSupply_eq_some_iff.mp judged
    obtain rfl := List.mem_singleton.mp member
    simp [← (keeps passed).2.1, MemoryStore.address_of_getAccount stored]

theorem transferCycle_covers {sender recipient : AccountAddress} {signer : Principal}
    {amount : UInt64} :
    Covers [sender.raw, recipient.raw] (transferCycle sender recipient signer amount)
      (.transfer sender recipient signer amount) where
  reads records := by
    refine readsTo_bind (readsTo_loadAccount (by simp)) fun senderRecord => ?_
    refine readsTo_bind (readsTo_loadAccount (by simp)) fun recipientRecord => ?_
    exact readsTo_bind (readsTo_rule .transfer _) fun change => rfl
  mints judged update member := by
    obtain ⟨_, _, _, _, _, _, rfl⟩ := judgeTransfer_eq_some_iff.mp judged
    cases member
  accounts judged update member := by
    obtain ⟨_, _, _, stored, stored', passed, rfl⟩ := judgeTransfer_eq_some_iff.mp judged
    obtain ⟨same, same'⟩ := Transition.transfer_keeps passed
    simp only [List.mem_cons, List.not_mem_nil, or_false] at member
    rcases member with rfl | rfl
    · simp [← same.1, MemoryStore.address_of_getAccount stored]
    · simp [← same'.1, MemoryStore.address_of_getAccount stored']

variable {cycle : LedgerProgram (α × Option WriteBatch)} {j : Judgement α} {found : MemoryStore}

theorem Covers.judge_eq (covers : Covers keys cycle j) (agree : records.AgreeAt keys found) :
    j.judge found found = j.judge records records :=
  ((covers.reads records).eq_of_agree (covers.reads found) agree).symm

/-- A batch that is judged by what is there is committed, and changes what is held. -/
theorem Covers.decides (covers : Covers keys cycle j)
    (keeps : Preserves good j) (fine : good found) {a : α} {batch : WriteBatch}
    (judged : j.judge found found = .ok (a, some batch)) :
    (RecordStore.answer (.commit batch) found).1 = .ok () ∧
      StoreCall.Decides good keys (.commit batch) found := by
  obtain ⟨after, committed⟩ := j.commits judged
  have done : RecordStore.answer (.commit batch) found = (.ok (), after) := by
    simp only [RecordStore.answer, committed]
  refine ⟨congrArg Prod.fst done, .of_answer done (j.distinct judged)
    (fun account other => by cases other) (keeps fine judged committed) ?_⟩
  obtain ⟨_, _, rfl⟩ := MemoryStore.commit_eq_ok_iff.mp committed
  rw [MemoryStore.write_eq_putAll]
  apply MemoryStore.agreeBut_putAll
  · exact List.forall_mem_map.mpr (covers.mints judged)
  · exact List.forall_mem_map.mpr (covers.accounts judged)

theorem orderly_attempt {onConflict : Subject → LedgerProgram α} (covers : Covers keys cycle j)
    (keeps : Preserves good j) :
    (attempt cycle onConflict).run.Orderly good keys records := by
  refine orderly_read (covers.reads records) ?_
  rintro ⟨a, batch?⟩ judged
  cases batch? with
  | none => trivial
  | some batch =>
    refine .inr fun found fine agree => ?_
    -- what the cycle loaded is there when it commits, so the commit does not conflict
    obtain ⟨answered, decides⟩ := covers.decides keeps fine ((covers.judge_eq agree).trans judged)
    refine ⟨decides, .ok a, ?_⟩
    rw [answered]
    exact rfl

theorem orderly_attempts {kind : OperationKind} {reruns : Nat} (covers : Covers keys cycle j)
    (keeps : Preserves good j) :
    (attempts kind cycle reruns).run.Orderly good keys records := by
  -- no attempt conflicts, so it does not matter how many there may be
  cases reruns with
  | zero => exact orderly_attempt covers keeps
  | succ reruns => exact orderly_attempt covers keeps

/-! ## After the commit -/

theorem concludes_note (event : Event) : (note event).run.Concludes (∃ a, · = .ok a) := ⟨(), rfl⟩

theorem concludes_ask {call : StoreCall} (asks : call.Asks) :
    (LedgerProgram.call call).run.Concludes (∃ a, · = .ok a) :=
  ⟨asks, fun answer => ⟨answer, rfl⟩⟩

theorem concludes_auditRecord (mint : MintRecord) :
    (auditRecord mint).run.Concludes (∃ report, · = .ok report) := by
  -- which report it is depends on the accounts, but there is one
  refine concludes_bind (concludes_ask trivial) fun accounts => ?_
  dsimp only
  split
  · exact concludes_bind (concludes_note _) fun _ => ⟨_, rfl⟩
  · exact ⟨_, rfl⟩

theorem concludes_auditChange (ledger : Ledger) (mint : MintRecord) :
    (ledger.auditChange mint).run.Concludes (∃ a, · = .ok a) := by
  unfold Ledger.auditChange
  split
  · exact concludes_bind (concludes_auditRecord mint) fun _ => ⟨(), rfl⟩
  · exact ⟨(), rfl⟩

theorem concludes_reported (ledger : Ledger) (event : Event) (change : SupplyChange) :
    (do
      note event
      ledger.auditChange change.mint
      return change : LedgerProgram SupplyChange).run.Concludes (· = .ok change) :=
  concludes_bind (concludes_note event) fun _ =>
    concludes_bind (concludes_auditChange ledger change.mint) fun _ => rfl

/-- Checking the amount, locking what is loaded, running a cycle, and then only reporting. -/
theorem orderly_movement {ledger : Ledger} {amount : UInt64} {kind : OperationKind}
    {finish : α → LedgerProgram β} (covers : Covers keys cycle j)
    (keeps : Preserves good (j.unlessZero ledger amount))
    (finishes : ∀ a, ∃ result, (finish a).run.Concludes (· = result)) :
    (do
      ledger.checkAmount amount
      lock keys
      let change ← attempts kind cycle (maxCommitAttempts - 1)
      finish change : LedgerProgram β).run.Orderly good [] records := by
  refine orderly_read (readsTo_checkAmount ledger amount) fun _ checked => ?_
  split at checked
  · cases checked
  next allowed =>
    have keeps' : Preserves good j := fun fine judged =>
      keeps fine ((Judgement.judge_unlessZero allowed).symm ▸ judged)
    exact orderly_lock fun found _ => orderly_bind (orderly_attempts covers keeps') finishes

end LedgerProgram

/-! ## Insertions -/

namespace StoreCall

variable {good : MemoryStore → Prop} {keys : List Bytes32} {found : MemoryStore}

theorem decides_insertMint {mint : MintRecord} (held : mint.address.raw ∈ keys)
    (fine : good found)
    (put : found.getMint mint.address = none → good (found.putMint mint)) :
    Decides good keys (.insertMint mint) found := by
  cases at_address : found.getMint mint.address with
  | some old =>
    have done : RecordStore.answer (.insertMint mint) found = (.ok .alreadyExists, found) := by
      simp only [RecordStore.answer, MemoryStore.insertMint, at_address]
    exact .of_answer done trivial (fun _ other => by cases other) fine (.refl found)
  | none =>
    have done : RecordStore.answer (.insertMint mint) found =
        (.ok .inserted, found.putMint mint) := by
      simp only [RecordStore.answer, MemoryStore.insertMint, at_address]
      rfl
    refine .of_answer done trivial (fun _ other => by cases other) (put at_address) ?_
    exact found.agreeBut_putAll (List.forall_mem_singleton.mpr held) (List.forall_mem_nil _)

theorem decides_insertAccount {account : AccountRecord} (held : account.address.raw ∈ keys)
    (fine : good found) (accepts : found.Accepts account)
    (put : found.getAccount account.address = none → good (found.putAccount account)) :
    Decides good keys (.insertAccount account) found := by
  have accepted : ∀ other, insertAccount account = .insertAccount other → found.Accepts other := by
    rintro other same
    cases same
    exact accepts
  cases at_address : found.getAccount account.address with
  | some old =>
    have done : RecordStore.answer (.insertAccount account) found =
        (.ok .alreadyExists, found) := by
      simp only [RecordStore.answer, MemoryStore.insertAccount_some at_address]
    exact .of_answer done trivial accepted fine (.refl found)
  | none =>
    have done : RecordStore.answer (.insertAccount account) found =
        (.ok .inserted, found.putAccount account) := by
      simp only [RecordStore.answer, MemoryStore.insertAccount_none at_address]
    refine .of_answer done trivial accepted (put at_address) ?_
    exact found.agreeBut_putAll (List.forall_mem_nil _) (List.forall_mem_singleton.mpr held)

end StoreCall

/-! ## Calls of a ledger -/

namespace Ledger

open LedgerProgram

variable {ns : Bytes} {ledger : Ledger} {signer : Principal} {records : MemoryStore}

theorem createMint_orderly (address : MintAddress) (decimals : UInt8) (authority : Principal) :
    (createMint address decimals authority).run.Orderly (MemoryStore.WellKept ns) [] records := by
  refine orderly_lock fun before _ => orderly_call (fun found kept _ => ?_) fun answer => ?_
  · exact StoreCall.decides_insertMint (List.mem_singleton.mpr rfl) kept
      fun free => kept.posting (.createMint free)
  · cases answer <;> exact ⟨_, rfl⟩

theorem createAccount_orderly (mint : MintAddress) (owner payer : Principal) :
    (ledger.createAccount mint owner payer).run.Orderly (MemoryStore.WellKept ledger.config.ns) []
      records := by
  refine orderly_lock fun before _ => ?_
  refine orderly_read (readsTo_getMint (by simp)) fun stored known => ?_
  cases stored with
  | none => trivial
  | some mintRecord =>
    refine orderly_call (fun found kept agree => ?_) fun answer => ?_
    · let record := AccountRecord.create ledger.config.ns owner mint
      -- the mint is held since before it was found, so it is still there
      have known : found.getMint mint = some mintRecord :=
        (agree.mint mint (by simp)).symm.trans (Except.ok.inj known)
      have placed : found.getAccount record.address = none →
          (found.putAccount record).WellKept ledger.config.ns :=
        fun free => kept.posting (@Posting.createAccount _ payer _ _ _ _ known free)
      exact StoreCall.decides_insertAccount (by simp) kept
        (kept.derived.accepts fun free => (placed free).derived) placed
    · cases answer <;> exact ⟨_, rfl⟩

theorem preserves_of_judged {operation : Operation} {α : Type} {j : Judgement α}
    {f : α → Outcome} (moves : ledger.judgement? signer operation = some (j.map f)) :
    Preserves (MemoryStore.WellKept ledger.config.ns) j :=
  fun kept judged committed =>
    kept.posting (posting_of_judged moves (map_eq_ok_iff.mpr ⟨_, judged, rfl⟩) committed)

theorem issue_orderly (mint : MintAddress) (account : AccountAddress) (signer : Principal)
    (amount : UInt64) :
    (ledger.issue mint account signer amount).run.Orderly (MemoryStore.WellKept ledger.config.ns) []
      records := by
  have moves : ledger.judgement? signer (.issue mint account amount) = some _ := rfl
  exact orderly_movement (supplyCycle_covers Transition.issue_keeps) (preserves_of_judged moves)
    fun change => ⟨_, concludes_reported ledger _ change⟩

theorem burn_orderly (mint : MintAddress) (account : AccountAddress) (signer : Principal)
    (amount : UInt64) :
    (ledger.burn mint account signer amount).run.Orderly (MemoryStore.WellKept ledger.config.ns) []
      records := by
  have moves : ledger.judgement? signer (.burn mint account amount) = some _ := rfl
  exact orderly_movement (supplyCycle_covers Transition.burn_keeps) (preserves_of_judged moves)
    fun change => ⟨_, concludes_reported ledger _ change⟩

theorem transfer_orderly (sender recipient : AccountAddress) (signer : Principal)
    (amount : UInt64) :
    (ledger.transfer sender recipient signer amount).run.Orderly
      (MemoryStore.WellKept ledger.config.ns) [] records := by
  have moves : ledger.judgement? signer (.transfer sender recipient amount) = some _ := rfl
  exact orderly_movement transferCycle_covers (preserves_of_judged moves)
    fun change => ⟨_, concludes_bind (concludes_note _) fun _ => rfl⟩

theorem perform_orderly (signer : Principal) (operation : Operation) :
    (ledger.perform signer operation).run.Orderly (MemoryStore.WellKept ledger.config.ns) []
      records := by
  cases operation with
  | createMint mint decimals =>
    exact orderly_bind (createMint_orderly mint decimals signer) fun _ => ⟨_, rfl⟩
  | createAccount mint owner =>
    exact orderly_bind (createAccount_orderly mint owner signer) fun _ => ⟨_, rfl⟩
  | issue mint account amount =>
    exact orderly_bind (issue_orderly mint account signer amount) fun _ => ⟨_, rfl⟩
  | transfer sender recipient amount =>
    exact orderly_bind (transfer_orderly sender recipient signer amount) fun _ => ⟨_, rfl⟩
  | burn mint account amount =>
    exact orderly_bind (burn_orderly mint account signer amount) fun _ => ⟨_, rfl⟩

theorem submit_orderly (envelope : SignedOperation) :
    (ledger.submit envelope).run.Orderly (MemoryStore.WellKept ledger.config.ns) [] records := by
  unfold submit
  split
  · exact perform_orderly _ _
  · exact trivial

theorem auditSupply_orderly {good : MemoryStore → Prop} (mint : MintAddress) :
    (auditSupply mint).run.Orderly good [] records := by
  refine orderly_lock fun before _ => orderly_read (readsTo_loadMint (by simp)) fun record _ => ?_
  -- the accounts are not held, so to read them is to act
  refine orderly_ask trivial fun accounts => ?_
  dsimp only
  split
  · exact ⟨_, concludes_bind (concludes_note _) fun _ => rfl⟩
  · exact ⟨_, rfl⟩

end Ledger

theorem LedgerProgram.orderly_only {good : MemoryStore → Prop} {records : MemoryStore}
    {call : StoreCall} (asks : call.Asks) :
    (LedgerProgram.call call).run.Orderly good [] records := by
  rw [← bind_pure (LedgerProgram.call call)]
  exact orderly_ask asks fun answer => ⟨_, rfl⟩

/-- Every call of a ledger acts at one moment, as long as all is well kept. -/
theorem LedgerCall.orderly (ledger : Ledger) (call : LedgerCall) (records : MemoryStore) :
    (call.program ledger).run.Orderly (MemoryStore.WellKept ledger.config.ns) [] records := by
  cases call with
  | createMint address decimals authority => exact Ledger.createMint_orderly _ _ _
  | createAccount mint owner payer => exact Ledger.createAccount_orderly _ _ _
  | issue mint account signer amount => exact Ledger.issue_orderly _ _ _ _
  | transfer sender recipient signer amount => exact Ledger.transfer_orderly _ _ _ _
  | burn mint account signer amount => exact Ledger.burn_orderly _ _ _ _
  | submit envelope => exact Ledger.submit_orderly _
  | auditSupply mint => exact Ledger.auditSupply_orderly _
  | balance owner mint =>
    refine LedgerProgram.orderly_bind ?_ fun _ => ⟨_, rfl⟩
    exact LedgerProgram.orderly_ask trivial fun found => by cases found <;> exact ⟨_, rfl⟩
  | getMint address => exact LedgerProgram.orderly_only trivial
  | getAccount address => exact LedgerProgram.orderly_only trivial
  | accountFor owner mint => exact LedgerProgram.orderly_only trivial
  | accountsByMint mint => exact LedgerProgram.orderly_only trivial
  | accountsByOwner owner => exact LedgerProgram.orderly_only trivial
  | listMints => exact LedgerProgram.orderly_only trivial

end TokenLedger
