import TokenLedger.Proofs.Ledger.Authorization
import TokenLedger.Proofs.Ledger.Conservation

/-! # Records at two moments

While tokens move, which records are there and what identifies them does not change
(`MemoryStore.Kin`); supplies and amounts do.  A rule that is applied to a record of
one moment and to a record of another is refused as it would have been at the one
or at the other moment.  For an issue that is so because the supply covers the
balance: where the balance has no room, neither has the supply.  A burn that
overflows, and a transfer that does, is refused as at no moment at all.
-/

namespace TokenLedger

/-- Whether the supply of a mint covers an account, if that is one of the mint. -/
def MintRecord.Covers (mint : MintRecord) (account : AccountRecord) : Prop :=
  account.mint = mint.address → account.amount.toNat ≤ mint.supply.toNat

namespace MemoryStore

variable {records : MemoryStore}

/-! ## What a supply covers -/

namespace Balanced

theorem covers (balanced : records.Balanced) {address : AccountAddress} {account : AccountRecord}
    {address' : MintAddress} {mint : MintRecord}
    (stored : records.getAccount address = some account)
    (stored' : records.getMint address' = some mint) : mint.Covers account := by
  intro same
  obtain rfl := address_of_getAccount stored
  obtain rfl := address_of_getMint stored'
  -- emptying the account takes its amount out of the total, so the total had it
  have emptied :=
    @total_putAccount_old records { account with amount := 0 } _ stored rfl mint.address
  rw [balanced.supply stored']
  simp only [same, if_true] at emptied
  have zero : (0 : UInt64).toNat = 0 := rfl
  omega

/-- The supply covers two accounts together, so their sum is in range. -/
theorem add_amounts_lt (balanced : records.Balanced) {address address' : AccountAddress}
    {account account' : AccountRecord} (stored : records.getAccount address = some account)
    (stored' : records.getAccount address' = some account') (different : address ≠ address')
    (same : account'.mint = account.mint) :
    account.amount.toNat + account'.amount.toNat < 2 ^ 64 := by
  obtain rfl := address_of_getAccount stored
  obtain rfl := address_of_getAccount stored'
  obtain ⟨mint, known⟩ := Option.isSome_iff_exists.mp (balanced.known stored)
  -- as before, with both accounts emptied one after the other
  have emptied :=
    @total_putAccount_old records { account with amount := 0 } _ stored rfl account.mint
  have between : (records.putAccount { account with amount := 0 }).getAccount account'.address =
      some account' := by
    rw [getAccount_putAccount, if_neg different, stored']
  have emptied' := @total_putAccount_old _ { account' with amount := 0 } _ between rfl account.mint
  have even := balanced.supply known
  have room := mint.supply.toNat_lt
  simp only [if_true, if_pos same] at emptied emptied'
  have zero : (0 : UInt64).toNat = 0 := rfl
  omega

end Balanced

end MemoryStore

/-- Whether an operation moves tokens between records that are there. -/
def Operation.moves : Operation → Bool
  | .createMint _ _ => false
  | .createAccount _ _ => false
  | .issue _ _ _ => true
  | .transfer _ _ _ => true
  | .burn _ _ _ => true

/-- Moving tokens leaves all records in place. -/
theorem Posting.kin {ns : Bytes} {signer : Principal} {operation : Operation}
    {before after : MemoryStore} (posting : Posting ns signer operation before after)
    (moves : operation.moves = true) : before.Kin after := by
  have supply : ∀ {mint : MintAddress} {account : AccountAddress} {mintRecord : MintRecord}
      {accountRecord : AccountRecord} {change : SupplyChange},
      before.getMint mint = some mintRecord → before.getAccount account = some accountRecord →
      mintRecord.SameIdentity change.mint → accountRecord.SameIdentity change.account →
      before.Kin ((before.putMint change.mint).putAccount change.account) := by
    intro mint account mintRecord accountRecord change stored stored' same same'
    rw [← MemoryStore.address_of_getMint stored, same.1] at stored
    rw [← MemoryStore.address_of_getAccount stored', same'.1] at stored'
    have between := MemoryStore.Kin.putMint stored same
    exact between.trans (.putAccount stored' same')
  cases posting with
  | createMint free => cases moves
  | createAccount known free => cases moves
  | issue nonzero stored stored' passed =>
    obtain ⟨same, same'⟩ := Transition.issue_keeps passed
    exact supply stored stored' same same'
  | @transfer _ _ _ _ _ recipientRecord change nonzero different stored stored' passed =>
    obtain ⟨same, same'⟩ := Transition.transfer_keeps passed
    obtain rfl := MemoryStore.address_of_getAccount stored
    obtain rfl := MemoryStore.address_of_getAccount stored'
    rw [same.1, same'.1] at different
    rw [same.1] at stored
    rw [same'.1] at stored'
    have kept : (before.putAccount change.sender).getAccount change.recipient.address =
        some recipientRecord := by
      rw [MemoryStore.getAccount_putAccount, if_neg different, stored']
    exact (MemoryStore.Kin.putAccount stored same).trans (.putAccount kept same')
  | burn nonzero stored stored' passed =>
    obtain ⟨same, same'⟩ := Transition.burn_keeps passed
    exact supply stored stored' same same'

/-! ## Rules applied to records of two moments -/

namespace Transition

variable {mint mint' : MintRecord} {account account' sender recipient recipient' : AccountRecord}
  {signer : Principal} {amount : UInt64} {reason : Rejection}

/-- An issue is refused for the mint, or for a balance that the supply covers. -/
theorem issue_refused (same : mint.SameIdentity mint') (same' : account.SameIdentity account')
    (covers : mint'.Covers account')
    (refused : issue mint account' signer amount = .error reason) :
    issue mint account signer amount = .error reason ∨
      issue mint' account' signer amount = .error reason := by
  simp only [issue_eq_error_iff] at *
  rw [same'.2.2]
  rcases refused with unsigned | other | ⟨signed, fits, full | full, overflow⟩
  · exact .inl (.inl unsigned)
  · exact .inl (.inr (.inl other))
  · exact .inl (.inr (.inr ⟨signed, fits, .inl full, overflow⟩))
  · -- the balance is of the second moment, and there the supply is no less
    have enough := covers (fits.trans same.1)
    refine .inr (.inr (.inr ⟨same.2.1 ▸ signed, fits.trans same.1, .inl ?_, overflow⟩))
    omega

/-- A burn is refused for the account, unless the supply falls short. -/
theorem burn_refused (same : mint.SameIdentity mint') (other : reason ≠ .overflow)
    (refused : burn mint account signer amount = .error reason) :
    burn mint' account signer amount = .error reason := by
  simp only [burn_eq_error_iff, same.1] at *
  rcases refused with unsigned | mismatch | short | ⟨_, _, _, _, overflow⟩
  · exact .inl unsigned
  · exact .inr (.inl mismatch)
  · exact .inr (.inr (.inl short))
  · exact absurd overflow other

theorem burn_ne_overflow (covers : mint.Covers account) :
    burn mint account signer amount ≠ .error .overflow := by
  intro refused
  rcases burn_eq_error_iff.mp refused with ⟨_, other⟩ | ⟨_, _, other⟩ | ⟨_, _, _, other⟩ |
    ⟨_, same, enough, short, _⟩
  · cases other
  · cases other
  · cases other
  · have order := UInt64.le_iff_toNat_le.mp enough
    have order' := UInt64.lt_iff_toNat_lt.mp short
    have bound := covers same
    omega

/-- A transfer is refused for the sender, unless the recipient has no room. -/
theorem transfer_refused (same : recipient.SameIdentity recipient') (other : reason ≠ .overflow)
    (refused : transfer sender recipient signer amount = .error reason) :
    transfer sender recipient' signer amount = .error reason := by
  simp only [transfer_eq_error_iff, same.2.2] at *
  rcases refused with unsigned | mismatch | short | ⟨_, _, _, _, _, overflow⟩
  · exact .inl unsigned
  · exact .inr (.inl mismatch)
  · exact .inr (.inr (.inl short))
  · exact absurd overflow other

theorem transfer_ne_overflow
    (room : sender.address ≠ recipient.address → recipient.mint = sender.mint →
      sender.amount.toNat + recipient.amount.toNat < 2 ^ 64) :
    transfer sender recipient signer amount ≠ .error .overflow := by
  intro refused
  rcases transfer_eq_error_iff.mp refused with ⟨_, other⟩ | ⟨_, _, other⟩ | ⟨_, _, _, other⟩ |
    ⟨_, same, enough, different, full, _⟩
  · cases other
  · cases other
  · cases other
  · have order := UInt64.le_iff_toNat_le.mp enough
    have bound := room different same
    omega

theorem issue_idle {change : SupplyChange} (zero : amount = 0)
    (passed : issue mint account signer amount = .ok change) : change = ⟨mint, account⟩ := by
  obtain ⟨_, _, supply, balance, increased, credited, rfl⟩ := issue_eq_ok_iff.mp passed
  subst zero
  rw [UInt64.toNat_inj.mp increased, UInt64.toNat_inj.mp credited]

theorem burn_idle {change : SupplyChange} (zero : amount = 0)
    (passed : burn mint account signer amount = .ok change) : change = ⟨mint, account⟩ := by
  obtain ⟨_, _, supply, balance, decreased, debited, rfl⟩ := burn_eq_ok_iff.mp passed
  subst zero
  rw [← UInt64.toNat_inj.mp decreased, ← UInt64.toNat_inj.mp debited]

theorem transfer_idle {change : TransferChange}
    (idle : amount = 0 ∨ sender.address = recipient.address)
    (passed : transfer sender recipient signer amount = .ok change) :
    change = ⟨sender, recipient⟩ := by
  by_cases self : sender.address = recipient.address
  · exact ((transfer_self_eq_ok_iff self).mp passed).2.2.2
  · obtain ⟨_, _, debited, credited, taken, given, rfl⟩ := (transfer_eq_ok_iff self).mp passed
    obtain rfl := idle.resolve_right self
    rw [← UInt64.toNat_inj.mp taken, UInt64.toNat_inj.mp given]

end Transition

/-! ## Outcomes and what is stored -/

section Stored

variable {σ : Type} [RecordStore σ]

/-- Whether a store has a mint just as a record says. -/
def MintRecord.StoredIn (mint : MintRecord) (store : σ) : Prop :=
  (RecordStore.answer (.getMint mint.address) store).1 = .ok (some mint)

def AccountRecord.StoredIn (account : AccountRecord) (store : σ) : Prop :=
  (RecordStore.answer (.getAccount account.address) store).1 = .ok (some account)

def SupplyChange.StoredIn (change : SupplyChange) (store : σ) : Prop :=
  change.mint.StoredIn store ∧ change.account.StoredIn store

def TransferChange.StoredIn (change : TransferChange) (store : σ) : Prop :=
  change.sender.StoredIn store ∧ change.recipient.StoredIn store

/-- Whether a store has all records of an outcome just as the outcome shows them. -/
def Outcome.StoredIn (store : σ) : Outcome → Prop
  | .mintCreated mint => mint.StoredIn store
  | .accountCreated account => account.StoredIn store
  | .issued change => change.StoredIn store
  | .transferred change => change.StoredIn store
  | .burned change => change.StoredIn store

end Stored

section Holds

variable {store : AnyStore} {records : MemoryStore}

theorem MintRecord.storedIn_iff (holds : store.Holds records) {mint : MintRecord} :
    mint.StoredIn store ↔ mint.StoredIn records := by
  rw [StoredIn, holds.getMint]
  exact Iff.rfl

theorem AccountRecord.storedIn_iff (holds : store.Holds records) {account : AccountRecord} :
    account.StoredIn store ↔ account.StoredIn records := by
  rw [StoredIn, holds.getAccount]
  exact Iff.rfl

theorem Outcome.storedIn_iff (holds : store.Holds records) {outcome : Outcome} :
    outcome.StoredIn store ↔ outcome.StoredIn records := by
  cases outcome with
  | mintCreated mint => exact MintRecord.storedIn_iff holds
  | accountCreated account => exact AccountRecord.storedIn_iff holds
  | issued change =>
    exact and_congr (MintRecord.storedIn_iff holds) (AccountRecord.storedIn_iff holds)
  | transferred change =>
    exact and_congr (AccountRecord.storedIn_iff holds) (AccountRecord.storedIn_iff holds)
  | burned change =>
    exact and_congr (MintRecord.storedIn_iff holds) (AccountRecord.storedIn_iff holds)

theorem SupplyChange.storedIn_loaded {address : MintAddress} {address' : AccountAddress}
    {mint : MintRecord} {account : AccountRecord} (named : mint.address = address)
    (named' : account.address = address') :
    SupplyChange.StoredIn ⟨mint, account⟩ records ↔
      records.getMint address = some mint ∧ records.getAccount address' = some account := by
  subst named named'
  exact and_congr (.of_eq (Except.ok.injEq _ _)) (.of_eq (Except.ok.injEq _ _))

theorem TransferChange.storedIn_loaded {address address' : AccountAddress}
    {sender recipient : AccountRecord} (named : sender.address = address)
    (named' : recipient.address = address') :
    TransferChange.StoredIn ⟨sender, recipient⟩ records ↔
      records.getAccount address = some sender ∧ records.getAccount address' = some recipient := by
  subst named named'
  exact and_congr (.of_eq (Except.ok.injEq _ _)) (.of_eq (Except.ok.injEq _ _))

end Holds

end TokenLedger
