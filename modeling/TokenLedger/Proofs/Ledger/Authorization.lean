import TokenLedger.Proofs.Ledger.Request

/-! # Whose signature a change needs

For each posting, what becomes of an account and of a mint that are there
(`AccountChange`, `MintChange`), with the signature that the change needed, and what
is there that was not before.  The rules of authorization over whole runs
(`Authorized`) are read off these: a balance goes down only by its owner's will, a
supply up only by its authority's.
-/

namespace TokenLedger

/-! ## What becomes of a record -/

section Changes

variable (signer : Principal) (before : MemoryStore)

/-- What an operation of a signer makes of an account. -/
inductive AccountChange (old : AccountRecord) : Operation → AccountRecord → Prop
  | unchanged (operation : Operation) : AccountChange old operation old
  | issued {mint : MintRecord} {amount balance : UInt64}
    (stored : before.getMint old.mint = some mint) (signed : mint.authority = signer)
    (more : balance.toNat = old.amount.toNat + amount.toNat) :
    AccountChange old (.issue old.mint old.address amount) { old with amount := balance }
  | sent {recipient : AccountAddress} {amount balance : UInt64} (signed : old.owner = signer)
    (less : old.amount.toNat = balance.toNat + amount.toNat) :
    AccountChange old (.transfer old.address recipient amount) { old with amount := balance }
  | received {sender : AccountRecord} {amount balance : UInt64}
    (stored : before.getAccount sender.address = some sender) (signed : sender.owner = signer)
    (same : sender.mint = old.mint) (more : balance.toNat = old.amount.toNat + amount.toNat) :
    AccountChange old (.transfer sender.address old.address amount) { old with amount := balance }
  | burned {amount balance : UInt64} (signed : old.owner = signer)
    (less : old.amount.toNat = balance.toNat + amount.toNat) :
    AccountChange old (.burn old.mint old.address amount) { old with amount := balance }

/-- What an operation of a signer makes of a mint. -/
inductive MintChange (old : MintRecord) : Operation → MintRecord → Prop
  | unchanged (operation : Operation) : MintChange old operation old
  | issued {account : AccountAddress} {amount supply : UInt64} (signed : old.authority = signer)
    (more : supply.toNat = old.supply.toNat + amount.toNat) :
    MintChange old (.issue old.address account amount) { old with supply }
  | burned {account : AccountRecord} {amount supply : UInt64}
    (stored : before.getAccount account.address = some account) (signed : account.owner = signer)
    (belongs : account.mint = old.address)
    (less : old.supply.toNat = supply.toNat + amount.toNat) :
    MintChange old (.burn old.address account.address amount) { old with supply }

end Changes

namespace Posting

variable {ns : Bytes} {signer : Principal} {operation : Operation} {before after : MemoryStore}

theorem account_change (posting : Posting ns signer operation before after)
    {address : AccountAddress} {old : AccountRecord}
    (stored : before.getAccount address = some old) :
    ∃ new, after.getAccount address = some new ∧
      AccountChange signer before old operation new := by
  cases posting with
  | createMint free => exact ⟨old, stored, .unchanged _⟩
  | createAccount known free =>
    rw [MemoryStore.getAccount_putAccount]
    split
    next here =>
      obtain rfl : _ = address := here
      cases free.symm.trans stored
    · exact ⟨old, stored, .unchanged _⟩
  | issue nonzero at_mint at_account passed =>
    obtain rfl := MemoryStore.address_of_getMint at_mint
    obtain rfl := MemoryStore.address_of_getAccount at_account
    obtain ⟨signed, belongs, supply, balance, _, credited, rfl⟩ :=
      Transition.issue_eq_ok_iff.mp passed
    rw [MemoryStore.getAccount_putAccount]
    split
    next here =>
      obtain rfl : _ = address := here
      cases at_account.symm.trans stored
      rw [← belongs] at at_mint ⊢
      exact ⟨_, rfl, .issued at_mint signed credited⟩
    · exact ⟨old, stored, .unchanged _⟩
  | transfer nonzero different at_sender at_recipient passed =>
    obtain rfl := MemoryStore.address_of_getAccount at_sender
    obtain rfl := MemoryStore.address_of_getAccount at_recipient
    obtain ⟨signed, same, debited, credited, taken, given, rfl⟩ :=
      (Transition.transfer_eq_ok_iff different).mp passed
    rw [MemoryStore.getAccount_putAccount]
    -- the recipient is put in last, so it is asked for first
    split
    next here =>
      obtain rfl : _ = address := here
      cases at_recipient.symm.trans stored
      exact ⟨_, rfl, .received at_sender signed same.symm given⟩
    next elsewhere =>
      rw [MemoryStore.getAccount_putAccount]
      split
      next here =>
        obtain rfl : _ = address := here
        cases at_sender.symm.trans stored
        exact ⟨_, rfl, .sent signed taken⟩
      · exact ⟨old, stored, .unchanged _⟩
  | burn nonzero at_mint at_account passed =>
    obtain rfl := MemoryStore.address_of_getMint at_mint
    obtain rfl := MemoryStore.address_of_getAccount at_account
    obtain ⟨signed, belongs, supply, balance, _, debited, rfl⟩ :=
      Transition.burn_eq_ok_iff.mp passed
    rw [MemoryStore.getAccount_putAccount]
    split
    next here =>
      obtain rfl : _ = address := here
      cases at_account.symm.trans stored
      rw [← belongs]
      exact ⟨_, rfl, .burned signed debited⟩
    · exact ⟨old, stored, .unchanged _⟩

theorem mint_change (posting : Posting ns signer operation before after)
    {address : MintAddress} {old : MintRecord} (stored : before.getMint address = some old) :
    ∃ new, after.getMint address = some new ∧ MintChange signer before old operation new := by
  cases posting with
  | createMint free =>
    rw [MemoryStore.getMint_putMint]
    split
    next here =>
      obtain rfl : _ = address := here
      cases free.symm.trans stored
    · exact ⟨old, stored, .unchanged _⟩
  | createAccount known free => exact ⟨old, stored, .unchanged _⟩
  | issue nonzero at_mint at_account passed =>
    obtain rfl := MemoryStore.address_of_getMint at_mint
    obtain rfl := MemoryStore.address_of_getAccount at_account
    obtain ⟨signed, _, supply, balance, increased, _, rfl⟩ := Transition.issue_eq_ok_iff.mp passed
    rw [MemoryStore.getMint_putAccount, MemoryStore.getMint_putMint]
    split
    next here =>
      obtain rfl : _ = address := here
      cases at_mint.symm.trans stored
      exact ⟨_, rfl, .issued signed increased⟩
    · exact ⟨old, stored, .unchanged _⟩
  | transfer nonzero different at_sender at_recipient passed => exact ⟨old, stored, .unchanged _⟩
  | burn nonzero at_mint at_account passed =>
    obtain rfl := MemoryStore.address_of_getMint at_mint
    obtain rfl := MemoryStore.address_of_getAccount at_account
    obtain ⟨signed, belongs, supply, balance, decreased, _, rfl⟩ :=
      Transition.burn_eq_ok_iff.mp passed
    rw [MemoryStore.getMint_putAccount, MemoryStore.getMint_putMint]
    split
    next here =>
      obtain rfl : _ = address := here
      cases at_mint.symm.trans stored
      exact ⟨_, rfl, .burned at_account signed belongs decreased⟩
    · exact ⟨old, stored, .unchanged _⟩

theorem account_created (posting : Posting ns signer operation before after)
    {address : AccountAddress} {new : AccountRecord} (free : before.getAccount address = none)
    (stored : after.getAccount address = some new) :
    operation = .createAccount new.mint new.owner ∧ new.amount = 0 ∧
      (before.getMint new.mint).isSome := by
  cases posting with
  | createMint _ => cases free.symm.trans stored
  | createAccount known _ =>
    rw [MemoryStore.getAccount_putAccount] at stored
    split at stored
    · cases stored
      exact ⟨rfl, rfl, Option.isSome_of_eq_some known⟩
    · cases free.symm.trans stored
  | issue nonzero at_mint at_account passed =>
    obtain rfl := MemoryStore.address_of_getAccount at_account
    obtain ⟨_, _, _, _, _, _, rfl⟩ := Transition.issue_eq_ok_iff.mp passed
    exact absurd free (MemoryStore.getAccount_ne_none_of_putAccount stored at_account)
  | transfer nonzero different at_sender at_recipient passed =>
    obtain rfl := MemoryStore.address_of_getAccount at_sender
    obtain rfl := MemoryStore.address_of_getAccount at_recipient
    obtain ⟨_, _, _, _, _, _, rfl⟩ := (Transition.transfer_eq_ok_iff different).mp passed
    have first := MemoryStore.getAccount_ne_none_of_putAccount stored
      ((MemoryStore.getAccount_putAccount _ _ _).trans ((if_neg different).trans at_recipient))
    obtain ⟨_, stored'⟩ := Option.ne_none_iff_exists'.mp first
    exact absurd free (MemoryStore.getAccount_ne_none_of_putAccount stored' at_sender)
  | burn nonzero at_mint at_account passed =>
    obtain rfl := MemoryStore.address_of_getAccount at_account
    obtain ⟨_, _, _, _, _, _, rfl⟩ := Transition.burn_eq_ok_iff.mp passed
    exact absurd free (MemoryStore.getAccount_ne_none_of_putAccount stored at_account)

theorem mint_created (posting : Posting ns signer operation before after)
    {address : MintAddress} {new : MintRecord} (free : before.getMint address = none)
    (stored : after.getMint address = some new) :
    operation = .createMint address new.decimals ∧ new.authority = signer ∧ new.supply = 0 := by
  cases posting with
  | createMint _ =>
    rw [MemoryStore.getMint_putMint] at stored
    split at stored
    next here =>
      obtain rfl : _ = address := here
      cases stored
      exact ⟨rfl, rfl, rfl⟩
    · cases free.symm.trans stored
  | createAccount known _ => cases free.symm.trans stored
  | issue nonzero at_mint at_account passed =>
    obtain rfl := MemoryStore.address_of_getMint at_mint
    obtain ⟨_, _, _, _, _, _, rfl⟩ := Transition.issue_eq_ok_iff.mp passed
    exact absurd free (MemoryStore.getMint_ne_none_of_putMint stored at_mint)
  | transfer nonzero different at_sender at_recipient passed => cases free.symm.trans stored
  | burn nonzero at_mint at_account passed =>
    obtain rfl := MemoryStore.address_of_getMint at_mint
    obtain ⟨_, _, _, _, _, _, rfl⟩ := Transition.burn_eq_ok_iff.mp passed
    exact absurd free (MemoryStore.getMint_ne_none_of_putMint stored at_mint)

end Posting

/-! ## Authorization -/

/-- What may become of the records when a ledger does an operation for a signer. -/
structure Authorized (signer : Principal) (operation : Operation) (before after : MemoryStore) :
    Prop where
  /-- Accounts stay, and what identifies them. -/
  account_kept : ∀ {address old}, before.getAccount address = some old →
    ∃ new, after.getAccount address = some new ∧ old.SameIdentity new
  mint_kept : ∀ {address old}, before.getMint address = some old →
    ∃ new, after.getMint address = some new ∧ old.SameIdentity new
  /-- Only its owner takes out of an account, and just as much as the operation says. -/
  debited : ∀ {address old new}, before.getAccount address = some old →
    after.getAccount address = some new → new.amount < old.amount →
      old.owner = signer ∧ ∃ amount,
        ((∃ recipient, operation = .transfer address recipient amount) ∨
          ∃ mint, operation = .burn mint address amount) ∧
        old.amount.toNat = new.amount.toNat + amount.toNat
  /-- Only its authority raises a supply. -/
  raised : ∀ {address old new}, before.getMint address = some old →
    after.getMint address = some new → old.supply < new.supply →
      old.authority = signer ∧ ∃ account amount, operation = .issue address account amount ∧
        new.supply.toNat = old.supply.toNat + amount.toNat
  /-- Only an owner of the mint's tokens lowers it, by burning their own. -/
  lowered : ∀ {address old new}, before.getMint address = some old →
    after.getMint address = some new → new.supply < old.supply →
      ∃ account record amount, operation = .burn address account amount ∧
        before.getAccount account = some record ∧ record.owner = signer ∧
        record.mint = address ∧ old.supply.toNat = new.supply.toNat + amount.toNat
  /-- Only the mint's authority and owners of its tokens put into an account. -/
  credited : ∀ {address old new}, before.getAccount address = some old →
    after.getAccount address = some new → old.amount < new.amount → ∃ amount,
      ((∃ mint, operation = .issue old.mint address amount ∧
          before.getMint old.mint = some mint ∧ mint.authority = signer) ∨
        ∃ sender record, operation = .transfer sender address amount ∧
          before.getAccount sender = some record ∧ record.owner = signer ∧
          record.mint = old.mint) ∧
      new.amount.toNat = old.amount.toNat + amount.toNat
  mint_created : ∀ {address new}, before.getMint address = none →
    after.getMint address = some new →
      operation = .createMint address new.decimals ∧ new.authority = signer ∧ new.supply = 0
  account_created : ∀ {address new}, before.getAccount address = none →
    after.getAccount address = some new →
      operation = .createAccount new.mint new.owner ∧ new.amount = 0 ∧
        (before.getMint new.mint).isSome

namespace Authorized

variable {ns : Bytes} {signer : Principal} {operation : Operation} {before after : MemoryStore}

theorem refl (records : MemoryStore) : Authorized signer operation records records where
  account_kept stored := ⟨_, stored, rfl, rfl, rfl⟩
  mint_kept stored := ⟨_, stored, rfl, rfl, rfl⟩
  debited stored stored' less := by
    cases stored.symm.trans stored'
    exact absurd less (UInt64.lt_irrefl _)
  raised stored stored' more := by
    cases stored.symm.trans stored'
    exact absurd more (UInt64.lt_irrefl _)
  lowered stored stored' less := by
    cases stored.symm.trans stored'
    exact absurd less (UInt64.lt_irrefl _)
  credited stored stored' more := by
    cases stored.symm.trans stored'
    exact absurd more (UInt64.lt_irrefl _)
  mint_created free stored := by cases free.symm.trans stored
  account_created free stored := by cases free.symm.trans stored

/-- What is posted for a signer is authorized by them. -/
theorem of_posting (posting : Posting ns signer operation before after) :
    Authorized signer operation before after where
  account_kept stored := by
    obtain ⟨new, stored', change⟩ := posting.account_change stored
    refine ⟨new, stored', ?_⟩
    cases change <;> exact ⟨rfl, rfl, rfl⟩
  mint_kept stored := by
    obtain ⟨new, stored', change⟩ := posting.mint_change stored
    refine ⟨new, stored', ?_⟩
    cases change <;> exact ⟨rfl, rfl, rfl⟩
  debited := by
    intro address old new stored stored' less
    obtain ⟨_, found, change⟩ := posting.account_change stored
    obtain rfl := MemoryStore.address_of_getAccount stored
    cases found.symm.trans stored'
    rw [UInt64.lt_iff_toNat_lt] at less
    cases change with
    | unchanged => omega
    | issued at_mint signed more => exact absurd less (by simp only [more]; omega)
    | sent signed taken => exact ⟨signed, _, .inl ⟨_, rfl⟩, taken⟩
    | received at_sender signed same more => exact absurd less (by simp only [more]; omega)
    | burned signed taken => exact ⟨signed, _, .inr ⟨_, rfl⟩, taken⟩
  raised := by
    intro address old new stored stored' more
    obtain ⟨_, found, change⟩ := posting.mint_change stored
    obtain rfl := MemoryStore.address_of_getMint stored
    cases found.symm.trans stored'
    rw [UInt64.lt_iff_toNat_lt] at more
    cases change with
    | unchanged => omega
    | issued signed increased => exact ⟨signed, _, _, rfl, increased⟩
    | burned at_account signed belongs less => exact absurd more (by simp only [less]; omega)
  lowered := by
    intro address old new stored stored' less
    obtain ⟨_, found, change⟩ := posting.mint_change stored
    obtain rfl := MemoryStore.address_of_getMint stored
    cases found.symm.trans stored'
    rw [UInt64.lt_iff_toNat_lt] at less
    cases change with
    | unchanged => omega
    | issued signed more => exact absurd less (by simp only [more]; omega)
    | burned at_account signed belongs decreased =>
      exact ⟨_, _, _, rfl, at_account, signed, belongs, decreased⟩
  credited := by
    intro address old new stored stored' more
    obtain ⟨_, found, change⟩ := posting.account_change stored
    obtain rfl := MemoryStore.address_of_getAccount stored
    cases found.symm.trans stored'
    rw [UInt64.lt_iff_toNat_lt] at more
    cases change with
    | unchanged => omega
    | issued at_mint signed given => exact ⟨_, .inl ⟨_, rfl, at_mint, signed⟩, given⟩
    | sent signed less => exact absurd more (by simp only [less]; omega)
    | received at_sender signed same given =>
      exact ⟨_, .inr ⟨_, _, rfl, at_sender, signed, same⟩, given⟩
    | burned signed less => exact absurd more (by simp only [less]; omega)
  mint_created := posting.mint_created
  account_created := posting.account_created

end Authorized

/-! ## Runs of envelopes -/

/-- However many envelopes a ledger has been handed before, one that does not
    authenticate changes nothing, and one that does changes what its signer may. -/
theorem submit_authorized (ledger : Ledger) {start : AnyStore} {records : MemoryStore}
    (holds : start.Holds records) (earlier : List SignedOperation) (envelope : SignedOperation) :
    let store := serve start (earlier.map fun envelope => (ledger, .submit envelope))
    ∃ before after, store.Holds before ∧
      (Program.run (ledger.submit envelope).run store).store.Holds after ∧
      match ledger.authenticator.authenticate envelope with
      | .ok signer => Authorized signer envelope.operation before after
      | .error _ => after = before := by
  intro store
  obtain ⟨before, held⟩ := serve_holds holds
    (earlier.map fun envelope => (ledger, .submit envelope))
  obtain ⟨after, held', left, _⟩ := @Request.run_alone ledger (.submit envelope) _ _ held
  refine ⟨before, after, held, held', ?_⟩
  cases signed : ledger.authenticator.authenticate envelope with
  | ok signer =>
    rcases left with rfl | ⟨p, signed', posting⟩
    · exact .refl _
    · cases signed.symm.trans signed'
      exact .of_posting posting
  | error e =>
    rcases left with rfl | ⟨p, signed', posting⟩
    · rfl
    · cases signed.symm.trans signed'

/-- An issue into an owner's account. -/
def Operation.issueTo (owner : Principal) (mint : MintAddress) (amount : UInt64) : Operation :=
  .issue mint (.derive Derivation.defaultNamespace owner mint) amount

/-- A ledger that believes every claim still keeps to what the claimed signer may do. -/
theorem submit_authorized_trusting :
    let ledger : Ledger := { authenticator := .trusting }
    let mint : MintAddress := ⟨.replicate 2⟩
    let earlier : List SignedOperation := [.claimed ⟨.replicate 1⟩ (.createMint mint 0),
      .claimed ⟨.replicate 3⟩ (.createAccount mint ⟨.replicate 3⟩)]
    let envelope : SignedOperation :=
      .claimed ⟨.replicate 1⟩ (.issueTo ⟨.replicate 3⟩ mint 5)
    let store := serve .emptyMemory (earlier.map fun envelope => (ledger, .submit envelope))
    AnyStore.emptyMemory.Holds .empty ∧
      (Program.run (ledger.submit envelope).run store).result.toOption.isSome = true ∧
      ∃ before after, store.Holds before ∧
        (Program.run (ledger.submit envelope).run store).store.Holds after ∧
        Authorized ⟨.replicate 1⟩ envelope.operation before after := by
  intro ledger mint earlier envelope store
  refine ⟨.memory _, ?_, submit_authorized ledger (.memory _) earlier envelope⟩
  decide +kernel

end TokenLedger
