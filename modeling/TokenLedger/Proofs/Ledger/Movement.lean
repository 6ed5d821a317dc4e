import TokenLedger.Proofs.Ledger.Judgement

/-! # Issuing, transferring and burning

The judgements behind the three operations that move tokens, and that the programs
of a ledger answer as they say.  An issue and a burn load a mint and an account and
differ in the rule alone; a transfer loads two accounts, and asks for no commit if
they are one.
-/

namespace TokenLedger

/-! ## Judgements -/

section Supply

variable (mint : MintAddress) (account : AccountAddress) (amount : UInt64)
  (apply : MintRecord → AccountRecord → Except Rejection SupplyChange)

/-- An issue or a burn, by the records at the moments of its two loads. -/
def judgeSupply (first second : MemoryStore) :
    Except Failure (SupplyChange × Option WriteBatch) := do
  let mintRecord ← first.mintAt mint
  let accountRecord ← second.accountAt account
  let change ← (apply mintRecord accountRecord).mapError .rejected
  let batch : WriteBatch :=
    { mints := [⟨mintRecord, change.mint⟩], accounts := [⟨accountRecord, change.account⟩] }
  return (change, if amount = 0 then none else some batch)

variable {mint account amount apply}

theorem judgeSupply_eq_ok_iff {first second : MemoryStore} {change : SupplyChange}
    {batch? : Option WriteBatch} :
    judgeSupply mint account amount apply first second = .ok (change, batch?) ↔
      ∃ mintRecord accountRecord, first.getMint mint = some mintRecord ∧
        second.getAccount account = some accountRecord ∧
        apply mintRecord accountRecord = .ok change ∧
        batch? = if amount = 0 then none
          else some ⟨[⟨mintRecord, change.mint⟩], [⟨accountRecord, change.account⟩]⟩ := by
  simp only [judgeSupply, bind_eq_ok_iff, MemoryStore.mintAt_eq_ok_iff,
    MemoryStore.accountAt_eq_ok_iff, mapError_eq_ok_iff, pure, Except.pure, Except.ok.injEq,
    Prod.mk.injEq]
  constructor
  · rintro ⟨mintRecord, stored, accountRecord, stored', change, passed, rfl, asked⟩
    exact ⟨mintRecord, accountRecord, stored, stored', passed, asked.symm⟩
  · rintro ⟨mintRecord, accountRecord, stored, stored', passed, asked⟩
    exact ⟨mintRecord, stored, accountRecord, stored', change, passed, rfl, asked.symm⟩

theorem judgeSupply_eq_some_iff {first second : MemoryStore} {change : SupplyChange}
    {batch : WriteBatch} :
    judgeSupply mint account amount apply first second = .ok (change, some batch) ↔
      amount ≠ 0 ∧ ∃ mintRecord accountRecord, first.getMint mint = some mintRecord ∧
        second.getAccount account = some accountRecord ∧
        apply mintRecord accountRecord = .ok change ∧
        batch = ⟨[⟨mintRecord, change.mint⟩], [⟨accountRecord, change.account⟩]⟩ := by
  rw [judgeSupply_eq_ok_iff]
  by_cases zero : amount = 0 <;> simp [zero]

/-- Whether a rule leaves the identity of both records as it is. -/
def KeepsIdentity (apply : MintRecord → AccountRecord → Except Rejection SupplyChange) : Prop :=
  ∀ {mint account change}, apply mint account = .ok change →
    mint.SameIdentity change.mint ∧ account.SameIdentity change.account

def Judgement.supply (mint : MintAddress) (account : AccountAddress) (amount : UInt64)
    (apply : MintRecord → AccountRecord → Except Rejection SupplyChange)
    (keeps : KeepsIdentity apply) : Judgement SupplyChange where
  judge := judgeSupply mint account amount apply
  distinct judged := by
    obtain ⟨_, _, _, _, _, _, rfl⟩ := judgeSupply_eq_some_iff.mp judged
    exact ⟨List.pairwise_singleton _ _, List.pairwise_singleton _ _⟩
  current := by
    intro first second now after change batch judged committed
    obtain ⟨nonzero, mintRecord, accountRecord, stored, stored', passed, rfl⟩ :=
      judgeSupply_eq_some_iff.mp judged
    obtain ⟨mints, accounts, _⟩ := MemoryStore.commit_eq_ok_iff.mp committed
    obtain ⟨present, same⟩ := mints _ (.head _)
    obtain ⟨present', same'⟩ := accounts _ (.head _)
    -- the commit has found at each address the very record that was loaded from there
    rw [← same.1, MemoryStore.address_of_getMint stored] at present
    rw [← same'.1, MemoryStore.address_of_getAccount stored'] at present'
    exact judgeSupply_eq_some_iff.mpr ⟨nonzero, _, _, present, present', passed, rfl⟩
  commits := by
    intro now change batch judged
    obtain ⟨_, mintRecord, accountRecord, stored, stored', passed, rfl⟩ :=
      judgeSupply_eq_some_iff.mp judged
    obtain ⟨same, same'⟩ := keeps passed
    refine ⟨_, MemoryStore.commit_eq_ok_iff.mpr ⟨fun update member => ?_, fun update member => ?_,
      rfl⟩⟩
    · rw [List.mem_singleton.mp member, ← same.1, MemoryStore.address_of_getMint stored]
      exact ⟨stored, same⟩
    · rw [List.mem_singleton.mp member, ← same'.1, MemoryStore.address_of_getAccount stored']
      exact ⟨stored', same'⟩

end Supply

section Transfer

variable (sender recipient : AccountAddress) (signer : Principal) (amount : UInt64)

/-- A transfer, by the records at the moments of its two loads. -/
def judgeTransfer (first second : MemoryStore) :
    Except Failure (TransferChange × Option WriteBatch) := do
  let senderRecord ← first.accountAt sender
  let recipientRecord ← second.accountAt recipient
  let change ← (Transition.transfer senderRecord recipientRecord signer amount).mapError .rejected
  let batch : WriteBatch :=
    { mints := []
      accounts := [⟨senderRecord, change.sender⟩, ⟨recipientRecord, change.recipient⟩] }
  return (change, if amount = 0 ∨ sender = recipient then none else some batch)

variable {sender recipient signer amount}

theorem judgeTransfer_eq_ok_iff {first second : MemoryStore} {change : TransferChange}
    {batch? : Option WriteBatch} :
    judgeTransfer sender recipient signer amount first second = .ok (change, batch?) ↔
      ∃ senderRecord recipientRecord, first.getAccount sender = some senderRecord ∧
        second.getAccount recipient = some recipientRecord ∧
        Transition.transfer senderRecord recipientRecord signer amount = .ok change ∧
        batch? = if amount = 0 ∨ sender = recipient then none
          else some ⟨[], [⟨senderRecord, change.sender⟩, ⟨recipientRecord, change.recipient⟩]⟩ := by
  simp only [judgeTransfer, bind_eq_ok_iff, MemoryStore.accountAt_eq_ok_iff, mapError_eq_ok_iff,
    pure, Except.pure, Except.ok.injEq, Prod.mk.injEq]
  constructor
  · rintro ⟨senderRecord, stored, recipientRecord, stored', change, passed, rfl, asked⟩
    exact ⟨senderRecord, recipientRecord, stored, stored', passed, asked.symm⟩
  · rintro ⟨senderRecord, recipientRecord, stored, stored', passed, asked⟩
    exact ⟨senderRecord, stored, recipientRecord, stored', change, passed, rfl, asked.symm⟩

theorem judgeTransfer_eq_some_iff {first second : MemoryStore} {change : TransferChange}
    {batch : WriteBatch} :
    judgeTransfer sender recipient signer amount first second = .ok (change, some batch) ↔
      (amount ≠ 0 ∧ sender ≠ recipient) ∧ ∃ senderRecord recipientRecord,
        first.getAccount sender = some senderRecord ∧
        second.getAccount recipient = some recipientRecord ∧
        Transition.transfer senderRecord recipientRecord signer amount = .ok change ∧
        batch = ⟨[], [⟨senderRecord, change.sender⟩, ⟨recipientRecord, change.recipient⟩]⟩ := by
  rw [judgeTransfer_eq_ok_iff, ← not_or]
  by_cases still : amount = 0 ∨ sender = recipient <;> simp [still]

def Judgement.transfer (sender recipient : AccountAddress) (signer : Principal) (amount : UInt64) :
    Judgement TransferChange where
  judge := judgeTransfer sender recipient signer amount
  distinct := by
    intro first second change batch judged
    obtain ⟨⟨_, different⟩, senderRecord, recipientRecord, stored, stored', passed, rfl⟩ :=
      judgeTransfer_eq_some_iff.mp judged
    obtain ⟨same, same'⟩ := Transition.transfer_keeps passed
    -- no commit is asked for if the two are one account
    refine ⟨.nil, List.pairwise_pair.mpr ?_⟩
    show change.sender.address ≠ change.recipient.address
    rwa [← same.1, ← same'.1, MemoryStore.address_of_getAccount stored,
      MemoryStore.address_of_getAccount stored']
  current := by
    intro first second now after change batch judged committed
    obtain ⟨moves, senderRecord, recipientRecord, stored, stored', passed, rfl⟩ :=
      judgeTransfer_eq_some_iff.mp judged
    obtain ⟨_, accounts, _⟩ := MemoryStore.commit_eq_ok_iff.mp committed
    obtain ⟨present, same⟩ := accounts _ (.head _)
    obtain ⟨present', same'⟩ := accounts _ (.tail _ (.head _))
    rw [← same.1, MemoryStore.address_of_getAccount stored] at present
    rw [← same'.1, MemoryStore.address_of_getAccount stored'] at present'
    exact judgeTransfer_eq_some_iff.mpr ⟨moves, _, _, present, present', passed, rfl⟩
  commits := by
    intro now change batch judged
    obtain ⟨_, senderRecord, recipientRecord, stored, stored', passed, rfl⟩ :=
      judgeTransfer_eq_some_iff.mp judged
    obtain ⟨same, same'⟩ := Transition.transfer_keeps passed
    refine ⟨_, MemoryStore.commit_eq_ok_iff.mpr ⟨fun _ member => absurd member List.not_mem_nil,
      fun update member => ?_, rfl⟩⟩
    rcases List.mem_pair.mp member with rfl | rfl
    · rw [← same.1, MemoryStore.address_of_getAccount stored]
      exact ⟨stored, same⟩
    · rw [← same'.1, MemoryStore.address_of_getAccount stored']
      exact ⟨stored', same'⟩

end Transfer

namespace Judgement

variable {α β : Type}

/-- The judgement of a ledger that may refuse to move nothing. -/
def unlessZero (ledger : Ledger) (amount : UInt64) (j : Judgement α) : Judgement α where
  judge first second :=
    if amount = 0 ∧ ledger.config.rejectZeroAmounts then .error (.rejected .zeroAmount)
    else j.judge first second
  distinct := by
    intro first second a batch judged
    split at judged
    · cases judged
    · exact j.distinct judged
  current := by
    intro first second now after a batch judged committed
    split at judged
    · cases judged
    next allowed =>
      rw [if_neg allowed]
      exact j.current judged committed
  commits := by
    intro now a batch judged
    split at judged
    · cases judged
    · exact j.commits judged

/-- The judgement with its answer in another form. -/
def map (f : α → β) (j : Judgement α) : Judgement β where
  judge first second := (j.judge first second).map (Prod.map f id)
  distinct := by
    intro first second b batch judged
    obtain ⟨⟨a, _⟩, judged, same⟩ := map_eq_ok_iff.mp judged
    cases same
    exact j.distinct judged
  current := by
    intro first second now after b batch judged committed
    obtain ⟨⟨a, _⟩, judged, same⟩ := map_eq_ok_iff.mp judged
    cases same
    exact map_eq_ok_iff.mpr ⟨_, j.current judged committed, rfl⟩
  commits := by
    intro now b batch judged
    obtain ⟨⟨a, _⟩, judged, same⟩ := map_eq_ok_iff.mp judged
    cases same
    exact j.commits judged

variable {j : Judgement α} {t : Span} {result : Except Failure α}

theorem Answers.map (f : α → β) (answers : j.Answers t result) :
    (j.map f).Answers t (result.map f) := by
  cases answers with
  | still quiet seen seen' judged =>
    exact .still quiet seen seen' (map_eq_ok_iff.mpr ⟨_, judged, rfl⟩)
  | refused quiet seen seen' judged =>
    exact .refused quiet seen seen' (congrArg (Except.map (Prod.map f id)) judged)
  | posted posted seen judged committed =>
    exact .posted posted seen (map_eq_ok_iff.mpr ⟨_, judged, rfl⟩) committed
  | contended quiet seen seen' moved => exact .contended quiet seen seen' moved

theorem judge_unlessZero {ledger : Ledger} {amount : UInt64}
    (allowed : ¬(amount = 0 ∧ ledger.config.rejectZeroAmounts)) :
    (j.unlessZero ledger amount).judge = j.judge := by
  funext first second
  exact if_neg allowed

theorem judge_map_unlessZero {ledger : Ledger} {amount : UInt64} {f : α → β}
    {first second : MemoryStore} {b : β} {batch? : Option WriteBatch}
    (judged : ((j.unlessZero ledger amount).map f).judge first second = .ok (b, batch?)) :
    ∃ a, j.judge first second = .ok (a, batch?) ∧ f a = b := by
  obtain ⟨⟨a, asked⟩, inner, same⟩ := map_eq_ok_iff.mp judged
  cases same
  by_cases refused : amount = 0 ∧ ledger.config.rejectZeroAmounts
  · have impossible : Except.error (Failure.rejected .zeroAmount) = Except.ok (a, asked) :=
      (if_pos refused).symm.trans inner
    cases impossible
  · rw [judge_unlessZero refused] at inner
    exact ⟨a, inner, rfl⟩

theorem Answers.unlessZero {ledger : Ledger} {amount : UInt64}
    (allowed : ¬(amount = 0 ∧ ledger.config.rejectZeroAmounts)) (answers : j.Answers t result) :
    (j.unlessZero ledger amount).Answers t result := by
  have same : (j.unlessZero ledger amount).judge = j.judge := judge_unlessZero allowed
  cases answers with
  | still quiet seen seen' judged => exact .still quiet seen seen' (same ▸ judged)
  | refused quiet seen seen' judged => exact .refused quiet seen seen' (same ▸ judged)
  | posted posted seen judged committed => exact .posted posted seen (same ▸ judged) committed
  | contended quiet seen seen' moved => exact .contended quiet seen seen' moved

end Judgement

/-! ## Programs -/

namespace LedgerProgram

variable {α : Type} {c : Contract} {s : Span}

/-- Two loads and a rule answer by the moments of the loads. -/
theorem ensures_loads {ρ ρ' δ : Type} {x : LedgerProgram ρ} {y : LedgerProgram ρ'}
    {look : MemoryStore → Except Failure ρ} {look' : MemoryStore → Except Failure ρ'}
    (reads : ∀ s, x.run.Ensures c
      (fun result t => (∃ records ∈ t.moments, result = look records) ∧ s.Continues t) s)
    (reads' : ∀ s, y.run.Ensures c
      (fun result t => (∃ records ∈ t.moments, result = look' records) ∧ s.Continues t) s)
    (kind : OperationKind) (apply : ρ → ρ' → Except Rejection δ) (pack : ρ → ρ' → δ → α)
    (s : Span) :
    (do
      let record ← x
      let record' ← y
      let change ← rule kind (apply record record')
      return pack record record' change : LedgerProgram α).run.Ensures c
        (fun result t => (∃ first ∈ t.moments, ∃ second ∈ t.moments, result = do
          let record ← look first
          let record' ← look' second
          let change ← (apply record record').mapError Failure.rejected
          return pack record record' change) ∧ s.Continues t) s := by
  refine ensures_bind (reads s) ?_ ?_
  · rintro record t ⟨⟨first, seen, loaded⟩, on⟩
    refine ensures_bind (reads' t) ?_ ?_
    · rintro record' u ⟨⟨second, seen', loaded'⟩, on'⟩
      -- moments are only added, so both loads have still seen theirs when the rule is applied
      refine ensures_bind (ensures_rule kind (apply record record')) ?_ ?_
      · rintro change v ⟨passed, on''⟩ final waits
        have further := on''.trans waits.continues
        refine ⟨⟨first, further.moments _ (on'.moments _ seen),
          second, further.moments _ seen', ?_⟩,
          on.trans (on'.trans further)⟩
        rw [← loaded, ok_bind, ← loaded', ok_bind, ← passed]
        rfl
      · rintro e v ⟨refused, on''⟩
        refine ⟨⟨first, on''.moments _ (on'.moments _ seen), second, on''.moments _ seen', ?_⟩,
          on.trans (on'.trans on'')⟩
        rw [← loaded, ok_bind, ← loaded', ok_bind, ← refused]
        rfl
    · rintro e u ⟨⟨second, seen', loaded'⟩, on'⟩
      refine ⟨⟨first, on'.moments _ seen, second, seen', ?_⟩, on.trans on'⟩
      rw [← loaded, ok_bind, ← loaded']
      rfl
  · rintro e t ⟨⟨first, seen, loaded⟩, on⟩
    -- the second load is not made, and any moment does for it
    refine ⟨⟨first, seen, first, seen, ?_⟩, on⟩
    rw [← loaded]
    rfl

theorem supplyCycle_follows {kind : OperationKind} {mint : MintAddress} {account : AccountAddress}
    {amount : UInt64} {apply : MintRecord → AccountRecord → Except Rejection SupplyChange}
    (keeps : KeepsIdentity apply) :
    Follows c (supplyCycle kind mint account amount apply)
      (.supply mint account amount apply keeps) :=
  ensures_loads (fun _ => ensures_loadMint mint) (fun _ => ensures_loadAccount account) kind apply _

theorem transferCycle_follows {sender recipient : AccountAddress} {signer : Principal}
    {amount : UInt64} :
    Follows c (transferCycle sender recipient signer amount)
      (.transfer sender recipient signer amount) :=
  ensures_loads (fun _ => ensures_loadAccount sender) (fun _ => ensures_loadAccount recipient)
    .transfer (Transition.transfer · · signer amount) _

theorem ensures_checkAmount (ledger : Ledger) (amount : UInt64) :
    (ledger.checkAmount amount).run.Ensures c (fun result t =>
      (result = if amount = 0 ∧ ledger.config.rejectZeroAmounts
        then .error (.rejected .zeroAmount) else .ok ()) ∧ s.Continues t) s := by
  unfold Ledger.checkAmount
  split
  · exact fun _ waits => ⟨rfl, waits.continues⟩
  · exact fun _ waits => ⟨rfl, waits.continues⟩

/-- Checking the amount, locking, running a cycle, and then only reporting. -/
theorem ensures_movement {ledger : Ledger} {amount : UInt64} {keys : List Bytes32}
    {kind : OperationKind} {cycle : LedgerProgram (α × Option WriteBatch)} {j : Judgement α}
    {finish : α → LedgerProgram α} (follows : Follows c cycle j)
    (permits : Permits c (j.unlessZero ledger amount))
    (finishes : ∀ a t, (finish a).run.Ensures c (fun result u => result = .ok a ∧ t.Continues u) t)
    (quiet : s.posted = []) :
    (do
      ledger.checkAmount amount
      lock keys
      let change ← attempts kind cycle (maxCommitAttempts - 1)
      finish change : LedgerProgram α).run.Ensures c
        (fun result t => (j.unlessZero ledger amount).Answers t result) s := by
  refine ensures_bind (ensures_checkAmount ledger amount) ?_ ?_
  · rintro _ t ⟨checked, on⟩
    split at checked
    · cases checked
    next allowed =>
      have permits' : Permits c j := fun quiet judged =>
        permits quiet (Judgement.judge_unlessZero allowed ▸ judged)
      refine ensures_bind (ensures_lock keys) ?_ ?_
      · rintro _ u ⟨_, on'⟩
        have quiet := (on.trans on').posted.trans quiet
        refine ensures_bind (ensures_attempts follows permits' quiet) ?_ ?_
        · intro change v answers
          refine (finishes change v).mono ?_
          rintro result w ⟨rfl, further⟩
          exact (answers.continues further).unlessZero allowed
        · exact fun e v answers => answers.unlessZero allowed
      · rintro e u ⟨impossible, _⟩
        cases impossible
  · rintro e t ⟨checked, on⟩
    split at checked
    next refused =>
      cases checked
      exact .refused (on.posted.trans quiet) t.now_mem t.now_mem (if_pos refused)
    · cases checked

/-- An audit after a change, if the ledger makes one, is only reported. -/
theorem ensures_auditChange (ledger : Ledger) (mint : MintRecord) :
    (ledger.auditChange mint).run.Ensures c
      (fun result t => result = .ok () ∧ s.Continues t) s := by
  unfold Ledger.auditChange
  split
  · refine ensures_bind (ensures_auditRecord mint) ?_ ?_
    · rintro _ t ⟨_, on⟩ final waits
      exact ⟨rfl, on.trans waits.continues⟩
    · rintro e t ⟨⟨records, _, impossible⟩, _⟩
      cases impossible
  · exact fun _ waits => ⟨rfl, waits.continues⟩

/-- Reporting a change of supply, and auditing after it, ends with the change. -/
theorem ensures_reported (ledger : Ledger) (event : Event) (change : SupplyChange) (s : Span) :
    (do
      note event
      ledger.auditChange change.mint
      return change : LedgerProgram SupplyChange).run.Ensures c
        (fun result t => result = .ok change ∧ s.Continues t) s := by
  refine ensures_bind (ensures_note event) ?_ ?_
  · rintro _ t ⟨_, on⟩
    refine ensures_bind (ensures_auditChange ledger change.mint) ?_ ?_
    · rintro _ u ⟨_, on'⟩ final waits
      exact ⟨rfl, on.trans (on'.trans waits.continues)⟩
    · rintro e u ⟨impossible, _⟩
      cases impossible
  · rintro e t ⟨impossible, _⟩
    cases impossible

theorem Permits.of_map {β : Type} {j : Judgement α} {f : α → β} (permits : Permits c (j.map f)) :
    Permits c j :=
  fun quiet judged => permits quiet (map_eq_ok_iff.mpr ⟨_, judged, rfl⟩)

theorem ensures_map {β : Type} {x : LedgerProgram α} {j : Judgement α} (f : α → β)
    (permits : Permits c (j.map f))
    (ensures : Permits c j → x.run.Ensures c (fun result t => j.Answers t result) s) :
    (do return f (← x) : LedgerProgram β).run.Ensures c
      (fun result t => (j.map f).Answers t result) s := by
  refine ensures_bind (ensures permits.of_map) ?_ ?_
  · exact fun a t answers final waits => (answers.map f).continues waits.continues
  · exact fun e t answers => answers.map f

end LedgerProgram

/-! ## Operations -/

namespace Ledger

open LedgerProgram

variable {c : Contract} {s : Span}

/-- What is answered to an operation that moves tokens. -/
def judgement? (ledger : Ledger) (signer : Principal) : Operation → Option (Judgement Outcome)
  | .createMint _ _ => none
  | .createAccount _ _ => none
  | .issue mint account amount =>
    let j := Judgement.supply mint account amount (Transition.issue · · signer amount)
      Transition.issue_keeps
    some ((j.unlessZero ledger amount).map .issued)
  | .transfer sender recipient amount =>
    let j := Judgement.transfer sender recipient signer amount
    some ((j.unlessZero ledger amount).map .transferred)
  | .burn mint account amount =>
    let j := Judgement.supply mint account amount (Transition.burn · · signer amount)
      Transition.burn_keeps
    some ((j.unlessZero ledger amount).map .burned)

/-- An issue answers by the mint and the account that it loads. -/
theorem ensures_issue {ledger : Ledger} {mint : MintAddress} {account : AccountAddress}
    {signer : Principal} {amount : UInt64}
    (permits : Permits c ((Judgement.supply mint account amount (Transition.issue · · signer amount)
      Transition.issue_keeps).unlessZero ledger amount)) (quiet : s.posted = []) :
    (ledger.issue mint account signer amount).run.Ensures c (fun result t =>
      ((Judgement.supply mint account amount (Transition.issue · · signer amount)
        Transition.issue_keeps).unlessZero ledger amount).Answers t result) s :=
  ensures_movement (supplyCycle_follows Transition.issue_keeps) permits
    (fun _ _ => ensures_reported _ _ _ _) quiet

/-- A transfer answers by the accounts that it loads. -/
theorem ensures_transfer {ledger : Ledger} {sender recipient : AccountAddress} {signer : Principal}
    {amount : UInt64}
    (permits : Permits c
      ((Judgement.transfer sender recipient signer amount).unlessZero ledger amount))
    (quiet : s.posted = []) :
    (ledger.transfer sender recipient signer amount).run.Ensures c (fun result t =>
      ((Judgement.transfer sender recipient signer amount).unlessZero ledger amount).Answers t
        result) s := by
  refine ensures_movement transferCycle_follows permits (fun change t => ?_) quiet
  refine ensures_bind (ensures_note _) (fun _ u noted => ?_) ?_
  · exact fun final waits => ⟨rfl, noted.2.trans waits.continues⟩
  · rintro e u ⟨impossible, _⟩
    cases impossible

/-- A burn answers by the mint and the account that it loads. -/
theorem ensures_burn {ledger : Ledger} {mint : MintAddress} {account : AccountAddress}
    {signer : Principal} {amount : UInt64}
    (permits : Permits c ((Judgement.supply mint account amount (Transition.burn · · signer amount)
      Transition.burn_keeps).unlessZero ledger amount)) (quiet : s.posted = []) :
    (ledger.burn mint account signer amount).run.Ensures c (fun result t =>
      ((Judgement.supply mint account amount (Transition.burn · · signer amount)
        Transition.burn_keeps).unlessZero ledger amount).Answers t result) s :=
  ensures_movement (supplyCycle_follows Transition.burn_keeps) permits
    (fun _ _ => ensures_reported _ _ _ _) quiet

/-- An operation that moves tokens answers as is said of it. -/
theorem ensures_perform_movement {ledger : Ledger} {signer : Principal} {operation : Operation}
    {j : Judgement Outcome} (moves : ledger.judgement? signer operation = some j)
    (permits : Permits c j) (quiet : s.posted = []) :
    (ledger.perform signer operation).run.Ensures c (fun result t => j.Answers t result) s := by
  cases operation with
  | createMint mint decimals => cases moves
  | createAccount mint owner => cases moves
  | issue mint account amount =>
    cases moves
    exact ensures_map Outcome.issued permits fun permits => ensures_issue permits quiet
  | transfer sender recipient amount =>
    cases moves
    exact ensures_map Outcome.transferred permits fun permits => ensures_transfer permits quiet
  | burn mint account amount =>
    cases moves
    exact ensures_map Outcome.burned permits fun permits => ensures_burn permits quiet

end Ledger

end TokenLedger
