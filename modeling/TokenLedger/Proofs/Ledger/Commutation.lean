import TokenLedger.Proofs.Ledger.Serializability
import TokenLedger.Proofs.Program.Footprint

/-! # Calls that lock different addresses

What a call creates or moves tokens with is at the addresses that it locks, so it acts on them
alone (`LedgerCall.actsOn`).  An audit reads accounts at any address, but its report is settled by
the mint and the number of its accounts as long as all is balanced, and a call that does not lock
the mint leaves both as they are.

So two calls to one ledger that lock no address both can be made in either order: they are
answered alike and leave the same records (`disjoint_calls_commute`).
-/

namespace TokenLedger

namespace LedgerProgram

variable {α β : Type} {keys : List Bytes32} {records : MemoryStore} {x : LedgerProgram α}
  {f : α → LedgerProgram β}

/-! ## Sequences -/

theorem actsOn_bind (first : x.run.ActsOn keys records)
    (rest : ∀ a, (Program.run x.run records).result = .ok a →
      (f a).run.ActsOn keys (Program.run x.run records).store) :
    (x >>= f).run.ActsOn keys records := by
  show (x.run >>= ExceptT.bindCont f).ActsOn _ _
  refine first.bind ?_
  cases answered : (Program.run x.run records).result with
  | ok a => exact rest a answered
  | error e => exact .of_concludes (a := .error e) rfl

theorem actsOn_read {r : Except Failure α} (first : x.run.ReadsTo keys records r)
    (rest : ∀ a, r = .ok a → (f a).run.ActsOn keys records) :
    (x >>= f).run.ActsOn keys records := by
  obtain ⟨result, store⟩ := first.run
  refine actsOn_bind first.actsOn fun a answered => ?_
  rw [store]
  exact rest a (result.symm.trans answered)

theorem actsOn_lock {held : List Bytes32} {f : Unit → LedgerProgram β}
    (rest : (f ()).run.ActsOn keys records) : (lock held >>= f).run.ActsOn keys records :=
  ⟨⟨rest.spares, rest.inside⟩, rest.result⟩

theorem actsOn_reply {call : StoreCall} (acts : call.ActsOn keys records) :
    (reply call).run.ActsOn keys records :=
  ⟨⟨acts.spares, acts.inside⟩, fun agree => congrArg Except.ok (acts.reply agree)⟩

theorem actsOn_call {call : StoreCall} (acts : call.ActsOn keys records) :
    (LedgerProgram.call call).run.ActsOn keys records := by
  refine actsOn_bind (actsOn_reply acts) fun reply _ => ?_
  cases reply with
  | ok answer => exact .of_concludes (a := .ok answer) rfl
  | error e => exact .of_concludes (a := .error (.storage e)) rfl

/-! ## Cycles -/

section Cycles

variable {cycle : LedgerProgram (α × Option WriteBatch)} {j : Judgement α}

/-- What is judged by records is committed to them, and to any others that are the same where
    addresses are held. -/
theorem Covers.commit_actsOn (covers : Covers keys cycle j) {a : α} {batch : WriteBatch}
    (judged : j.judge records records = .ok (a, some batch)) :
    StoreCall.ActsOn keys records (.commit batch) := by
  have commits : ∀ {found}, records.AgreeAt keys found → found.commit batch = .ok
      (found.putAll (batch.mints.map (·.after)) (batch.accounts.map (·.after))) := by
    intro found agree
    obtain ⟨after, committed⟩ := j.commits ((covers.judge_eq agree).trans judged)
    obtain ⟨_, _, rfl⟩ := MemoryStore.commit_eq_ok_iff.mp committed
    rw [committed, MemoryStore.write_eq_putAll]
  have here := commits (.refl records)
  refine ⟨?_, fun {found} agree => ?_, fun {found} agree => ?_⟩
  · simp only [RecordStore.answer, here]
    refine ⟨?_, fun mint _ => (MemoryStore.kin_of_commit here).length_accountsByMint mint⟩
    exact records.agreeBut_putAll (List.forall_mem_map.mpr (covers.mints judged))
      (List.forall_mem_map.mpr (covers.accounts judged))
  · simp only [RecordStore.answer, here, commits agree]
    exact MemoryStore.agreeAt_putAll agree _ _
  · simp only [RecordStore.answer, here, commits agree]

theorem actsOn_attempt {onConflict : Subject → LedgerProgram α} (covers : Covers keys cycle j) :
    (attempt cycle onConflict).run.ActsOn keys records := by
  refine actsOn_read (covers.reads records) ?_
  rintro ⟨a, batch?⟩ judged
  cases batch? with
  | none => exact .of_concludes (a := .ok a) rfl
  | some batch =>
    have acts := covers.commit_actsOn judged
    refine actsOn_bind (actsOn_reply acts) fun reply replied => ?_
    -- the batch is computed from what is there, so there is no conflict
    obtain ⟨after, committed⟩ := j.commits judged
    have done : (RecordStore.answer (.commit batch) records).1 = .ok () := by
      simp only [RecordStore.answer, committed]
    cases done.symm.trans (Except.ok.inj replied)
    exact .of_concludes (a := .ok a) rfl

theorem actsOn_attempts {kind : OperationKind} {reruns : Nat} (covers : Covers keys cycle j) :
    (attempts kind cycle reruns).run.ActsOn keys records := by
  cases reruns with
  | zero => exact actsOn_attempt covers
  | succ reruns => exact actsOn_attempt covers

theorem actsOn_movement {ledger : Ledger} {amount : UInt64} {kind : OperationKind}
    {finish : α → LedgerProgram β} (covers : Covers keys cycle j)
    (finishes : ∀ a, ∃ result, (finish a).run.Concludes (· = result)) :
    (do
      ledger.checkAmount amount
      lock keys
      let change ← attempts kind cycle (maxCommitAttempts - 1)
      finish change : LedgerProgram β).run.ActsOn keys records := by
  refine actsOn_read (readsTo_checkAmount ledger amount) fun _ _ => actsOn_lock ?_
  refine actsOn_bind (actsOn_attempts covers) fun a _ => ?_
  obtain ⟨result, concludes⟩ := finishes a
  exact .of_concludes concludes

end Cycles

end LedgerProgram

/-! ## Calls -/

namespace LedgerCall

/-- The addresses that a call locks, for the calls that lock any.  An audit locks its mint alone,
    not the accounts that it reads. -/
def lockSet? (ledger : Ledger) : LedgerCall → Option (List Bytes32)
  | createMint address _ _ => some [address.raw]
  | createAccount mint owner _ => some [mint.raw, (ledger.accountAddress owner mint).raw]
  | issue mint account _ _ => some [mint.raw, account.raw]
  | transfer sender recipient _ _ => some [sender.raw, recipient.raw]
  | burn mint account _ _ => some [mint.raw, account.raw]
  | auditSupply mint => some [mint.raw]
  | _ => none

variable {ledger : Ledger} {call : LedgerCall} {keys keys' : List Bytes32}
  {records after : MemoryStore}

open LedgerProgram in
/-- Other calls than audits go by nothing but what they lock. -/
theorem actsOn (locks : call.lockSet? ledger = some keys)
    (writes : ∀ mint, call ≠ .auditSupply mint)
    (records : MemoryStore) : (call.program ledger).run.ActsOn keys records := by
  cases call with
  | createMint address decimals authority =>
    cases locks
    refine actsOn_lock
      (actsOn_bind (actsOn_call (StoreCall.actsOn_insertMint ?_)) fun answer _ => ?_)
    · exact List.mem_singleton.mpr rfl
    · cases answer <;> exact .of_concludes rfl
  | createAccount mint owner payer =>
    cases locks
    refine actsOn_lock (actsOn_read (readsTo_getMint (by simp)) fun stored _ => ?_)
    cases stored with
    | none => exact .of_concludes rfl
    | some mintRecord =>
      refine actsOn_bind (actsOn_call (StoreCall.actsOn_insertAccount ?_ ?_)) fun answer _ => ?_
      · exact .tail _ (.head _)
      · exact .head _
      · cases answer <;> exact .of_concludes rfl
  | issue mint account signer amount =>
    cases locks
    exact actsOn_movement (supplyCycle_covers Transition.issue_keeps)
      fun change => ⟨_, concludes_reported ledger _ change⟩
  | transfer sender recipient signer amount =>
    cases locks
    exact actsOn_movement transferCycle_covers
      fun change => ⟨_, concludes_bind (concludes_note _) fun _ => rfl⟩
  | burn mint account signer amount =>
    cases locks
    exact actsOn_movement (supplyCycle_covers Transition.burn_keeps)
      fun change => ⟨_, concludes_reported ledger _ change⟩
  | auditSupply mint => exact absurd rfl (writes mint)
  | _ => cases locks

/-- An audit changes nothing at all. -/
theorem store_auditSupply (mint : MintAddress) (records : MemoryStore) :
    (Program.run (Ledger.auditSupply mint).run records).store = records := by
  have held : mint.raw ∈ [mint.raw] := List.mem_singleton.mpr rfl
  have loaded := (@LedgerProgram.readsTo_loadMint _ records _ held).run
  show (Program.run ((LedgerProgram.loadMint mint).run >>=
    ExceptT.bindCont LedgerProgram.auditRecord) records).store = records
  rw [Program.store_run_bind, loaded.1, loaded.2]
  cases records.mintAt mint with
  | ok found => exact ((LedgerProgram.concludes_auditRecord found).run records).2
  | error e => rfl

theorem confined (locks : call.lockSet? ledger = some keys) (records : MemoryStore) :
    (call.program ledger).run.Confined keys records := by
  by_cases audits : ∃ mint, call = .auditSupply mint
  · obtain ⟨mint, rfl⟩ := audits
    have still : ∀ found,
        (Program.run ((auditSupply mint).program ledger).run found).store = found :=
      store_auditSupply mint
    refine ⟨?_, fun {found} agree => ?_⟩
    · rw [still]
      exact .refl records
    · rw [still, still]
      exact agree
  · exact (actsOn locks (not_exists.mp audits) records).toConfined

/-- A call leaves well kept records well kept. -/
theorem run_kept {store : AnyStore} (holds : store.Holds records)
    (kept : records.WellKept ledger.config.ns) :
    (call.run ledger store).store.Holds (Program.run (call.program ledger).run records).store ∧
      (Program.run (call.program ledger).run records).store.WellKept ledger.config.ns := by
  obtain ⟨_, held, _⟩ := call.agrees holds kept.derived
  refine ⟨held, ?_⟩
  obtain ⟨post, ensures⟩ := call.ensures ledger records
  obtain ⟨final, held', _, ⟨_, still⟩ | ⟨_, _, _, posting⟩⟩ := ensures.run_once holds
  · rw [held.unique held', still _ final.now_mem]
    exact kept
  · rw [held.unique held']
    exact kept.posting posting

/-- What a call is answered does not change when elsewhere does. An audit has the report that its
    mint and the number of its accounts settle. -/
theorem result_of_spares (locks : call.lockSet? ledger = some keys) {store store' : AnyStore}
    (holds : store.Holds records) (holds' : store'.Holds after)
    (kept : records.WellKept ledger.config.ns) (kept' : after.WellKept ledger.config.ns)
    (disjoint : keys.Disjoint keys') (spares : MemoryStore.Spares keys' records after) :
    (call.run ledger store').result = (call.run ledger store).result := by
  have agree := spares.agreeAt disjoint
  by_cases audits : ∃ mint, call = .auditSupply mint
  · obtain ⟨mint, rfl⟩ := audits
    obtain rfl : [mint.raw] = keys := Option.some.inj locks
    -- the balances summed up are not at the mint, but as all is balanced their sum is
    show (Program.run (Ledger.auditSupply mint).run store').result =
      (Program.run (Ledger.auditSupply mint).run store).result
    rw [Ledger.run_auditSupply_eq_map holds, Ledger.run_auditSupply_eq_map holds']
    have here := List.mem_singleton.mpr (rfl : mint.raw = mint.raw)
    have same := agree.mint mint here
    have counts := spares.counts mint (disjoint here)
    cases stored : records.getMint mint with
    | none => simp only [MemoryStore.mintAt, ← same, stored, Except.map]
    | some found =>
      have stored' := same.symm.trans stored
      rw [MemoryStore.mintAt_eq_ok_iff.mpr stored, MemoryStore.mintAt_eq_ok_iff.mpr stored']
      simp only [Except.map]
      rw [kept.balanced.checkSupply stored, kept'.balanced.checkSupply stored',
        MemoryStore.address_of_getMint stored, ← kept.balanced.supply stored,
        ← kept'.balanced.supply stored', counts]
  · have acts := actsOn locks (not_exists.mp audits) records
    rw [(call.agrees holds kept.derived).1, (call.agrees holds' kept'.derived).1]
    exact acts.result agree

end LedgerCall

/-! ## Calls in either order -/

theorem afterAll_kept {ledger : Ledger} {start : AnyStore} {records : MemoryStore}
    (holds : start.Holds records) (kept : records.WellKept ledger.config.ns)
    (calls : List LedgerCall) : ∃ after,
      (afterAll start (calls.map (ledger, ·))).Holds after ∧ after.WellKept ledger.config.ns := by
  induction calls generalizing start records with
  | nil => exact ⟨records, holds, kept⟩
  | cons call rest ih =>
    obtain ⟨held, kept⟩ := call.run_kept holds kept
    exact ih held kept

/-- Whatever calls a ledger has answered on a store that was empty, two calls that lock different
    addresses are each answered alike in either order, and leave the same records. -/
theorem disjoint_calls_commute {start : AnyStore} (empty : start.IsEmpty) (ledger : Ledger)
    (calls : List LedgerCall) {first second : LedgerCall} {keys keys' : List Bytes32}
    (locks : first.lockSet? ledger = some keys) (locks' : second.lockSet? ledger = some keys')
    (disjoint : keys.Disjoint keys') :
    let store := afterAll start (calls.map (ledger, ·))
    let onceFirst := first.run ledger store
    let onceSecond := second.run ledger store
    (first.run ledger onceSecond.store).result = onceFirst.result ∧
      (second.run ledger onceFirst.store).result = onceSecond.result ∧
      ∃ records, (second.run ledger onceFirst.store).store.Holds records ∧
        (first.run ledger onceSecond.store).store.Holds records := by
  intro store onceFirst onceSecond
  obtain ⟨records, holds, kept⟩ :=
    @afterAll_kept ledger start MemoryStore.empty empty.holds .empty calls
  obtain ⟨heldFirst, keptFirst⟩ := first.run_kept holds kept
  obtain ⟨heldSecond, keptSecond⟩ := second.run_kept holds kept
  refine ⟨?_, ?_, _, (second.run_kept heldFirst keptFirst).1, ?_⟩
  · exact first.result_of_spares locks holds heldSecond kept keptSecond disjoint
      (second.confined locks' records).spares
  · exact second.result_of_spares locks' holds heldFirst kept keptFirst
      (List.disjoint_symm disjoint) (first.confined locks records).spares
  · rw [← Program.Confined.comm (first.confined locks) (second.confined locks') disjoint records]
    exact (first.run_kept heldSecond keptSecond).1

/-- A transfer between two accounts of a mint does not disturb an audit of the mint. -/
theorem disjoint_calls_commute_audit :
    let mint : MintAddress := ⟨.replicate 2⟩
    let owner : Principal := ⟨.replicate 3⟩
    let authority : Principal := ⟨.replicate 1⟩
    let ledger : Ledger := {}
    let sender := ledger.accountAddress owner mint
    let recipient := ledger.accountAddress authority mint
    let calls : List LedgerCall :=
      [.createMint mint 0 authority, .createAccount mint owner authority,
        .createAccount mint authority authority, .issue mint sender authority 10]
    let store := afterAll .emptyDatabase (calls.map (ledger, ·))
    let audit : LedgerCall := .auditSupply mint
    let transfer : LedgerCall := .transfer sender recipient owner 4
    AnyStore.emptyDatabase.IsEmpty ∧ [mint.raw].Disjoint [sender.raw, recipient.raw] ∧
      (transfer.run ledger store).result.isOk = true ∧
      ∃ report : SupplyReport, (audit.run ledger store).result = .ok report ∧
        (audit.run ledger (transfer.run ledger store).store).result = .ok report := by
  intro mint owner authority ledger sender recipient calls store audit transfer
  have disjoint : [mint.raw].Disjoint [sender.raw, recipient.raw] := by
    simp only [List.singleton_disjoint, List.mem_cons, List.not_mem_nil, or_false]
    decide +kernel
  have moved : (transfer.run ledger store).result.isOk = true := by decide +kernel
  have reports : (audit.run ledger store).result.isOk = true := by decide +kernel
  obtain ⟨undisturbed, _⟩ := @disjoint_calls_commute _ AnyStore.isEmpty_emptyDatabase ledger calls
    audit transfer _ _ rfl rfl disjoint
  cases answered : (audit.run ledger store).result with
  | ok report => exact ⟨rfl, disjoint, moved, report, rfl, undisturbed.trans answered⟩
  | error e =>
    rw [answered] at reports
    cases reports

end TokenLedger
