import Mathlib.Algebra.Group.Nat.Defs
import TokenLedger.Proofs.Except
import TokenLedger.Transition

/-! # When a rule lets an operation pass

Each of the three transitions passes just if all its checks do, and then only the
supply and the amounts are new.  The statements go by numbers, not by words of 64
bits: `supply.toNat = mint.supply.toNat + amount.toNat` says at once what the new
supply is and that it has room.
-/

namespace TokenLedger.Transition

/-! ## Checks -/

theorem requireSigner_eq_ok_iff {required asserted : Principal} {u : Unit} :
    requireSigner required asserted = .ok u ↔ required = asserted := by
  simp [requireSigner, authorize]

theorem requireMint_eq_ok_iff {expected actual : MintAddress} {u : Unit} :
    requireMint expected actual = .ok u ↔ actual = expected := by
  simp [requireMint]

theorem plus_eq_ok_iff {a b sum : UInt64} :
    plus a b = .ok sum ↔ sum.toNat = a.toNat + b.toNat := by
  unfold plus
  split
  next room =>
    have exact_sum : (a + b).toNat = a.toNat + b.toNat := by
      rw [UInt64.toNat_add, Nat.mod_eq_of_lt room]
    rw [Except.ok.injEq, ← UInt64.toNat_inj, exact_sum, eq_comm]
  next full =>
    have := sum.toNat_lt_size
    constructor
    · intro impossible
      cases impossible
    · intro same
      omega

theorem minus_eq_ok_iff {a b difference : UInt64} :
    minus a b = .ok difference ↔ a.toNat = difference.toNat + b.toNat := by
  unfold minus
  split
  next enough =>
    have exact_difference : (a - b).toNat = a.toNat - b.toNat := UInt64.toNat_sub_of_le _ _ enough
    have order := UInt64.le_iff_toNat_le.mp enough
    rw [Except.ok.injEq, ← UInt64.toNat_inj, exact_difference]
    omega
  next short =>
    have order := mt UInt64.le_iff_toNat_le.mpr short
    constructor
    · intro impossible
      cases impossible
    · intro same
      omega

theorem debit_eq_ok_iff {account : AccountRecord} {amount rest : UInt64} :
    debit account amount = .ok rest ↔ account.amount.toNat = rest.toNat + amount.toNat := by
  rw [← minus_eq_ok_iff]
  unfold debit minus
  split <;> simp

/-! ## Transitions -/

theorem issue_eq_ok_iff {mint : MintRecord} {account : AccountRecord} {signer : Principal}
    {amount : UInt64} {change : SupplyChange} :
    issue mint account signer amount = .ok change ↔
      mint.authority = signer ∧ account.mint = mint.address ∧ ∃ supply balance : UInt64,
        supply.toNat = mint.supply.toNat + amount.toNat ∧
        balance.toNat = account.amount.toNat + amount.toNat ∧
        change = ⟨{ mint with supply }, { account with amount := balance }⟩ := by
  simp only [issue, bind_eq_ok_iff, requireSigner_eq_ok_iff, requireMint_eq_ok_iff, plus_eq_ok_iff,
    pure, Except.pure, Except.ok.injEq]
  constructor
  · rintro ⟨_, signed, _, same, supply, increased, balance, credited, rfl⟩
    exact ⟨signed, same, supply, balance, increased, credited, rfl⟩
  · rintro ⟨signed, same, supply, balance, increased, credited, rfl⟩
    exact ⟨(), signed, (), same, supply, increased, balance, credited, rfl⟩

theorem burn_eq_ok_iff {mint : MintRecord} {account : AccountRecord} {signer : Principal}
    {amount : UInt64} {change : SupplyChange} :
    burn mint account signer amount = .ok change ↔
      account.owner = signer ∧ account.mint = mint.address ∧ ∃ supply balance : UInt64,
        mint.supply.toNat = supply.toNat + amount.toNat ∧
        account.amount.toNat = balance.toNat + amount.toNat ∧
        change = ⟨{ mint with supply }, { account with amount := balance }⟩ := by
  simp only [burn, bind_eq_ok_iff, requireSigner_eq_ok_iff, requireMint_eq_ok_iff, debit_eq_ok_iff,
    minus_eq_ok_iff, pure, Except.pure, Except.ok.injEq]
  constructor
  · rintro ⟨_, signed, _, same, balance, debited, supply, decreased, rfl⟩
    exact ⟨signed, same, supply, balance, decreased, debited, rfl⟩
  · rintro ⟨signed, same, supply, balance, decreased, debited, rfl⟩
    exact ⟨(), signed, (), same, balance, debited, supply, decreased, rfl⟩

/-- From an account to itself the checks are made all the same, and nothing moves. -/
theorem transfer_self_eq_ok_iff {sender recipient : AccountRecord} {signer : Principal}
    {amount : UInt64} {change : TransferChange} (self : sender.address = recipient.address) :
    transfer sender recipient signer amount = .ok change ↔
      sender.owner = signer ∧ recipient.mint = sender.mint ∧
        amount.toNat ≤ sender.amount.toNat ∧ change = ⟨sender, recipient⟩ := by
  simp only [transfer, bind_eq_ok_iff, requireSigner_eq_ok_iff, requireMint_eq_ok_iff,
    debit_eq_ok_iff, if_pos self, pure, Except.pure, Except.ok.injEq]
  constructor
  · rintro ⟨_, signed, _, same, rest, debited, rfl⟩
    exact ⟨signed, same, by omega, rfl⟩
  · rintro ⟨signed, same, enough, rfl⟩
    have debited : sender.amount.toNat = (sender.amount - amount).toNat + amount.toNat := by
      rw [UInt64.toNat_sub_of_le _ _ (UInt64.le_iff_toNat_le.mpr enough)]
      omega
    exact ⟨(), signed, (), same, _, debited, rfl⟩

theorem transfer_eq_ok_iff {sender recipient : AccountRecord} {signer : Principal}
    {amount : UInt64} {change : TransferChange} (different : sender.address ≠ recipient.address) :
    transfer sender recipient signer amount = .ok change ↔
      sender.owner = signer ∧ recipient.mint = sender.mint ∧ ∃ debited credited : UInt64,
        sender.amount.toNat = debited.toNat + amount.toNat ∧
        credited.toNat = recipient.amount.toNat + amount.toNat ∧
        change = ⟨{ sender with amount := debited }, { recipient with amount := credited }⟩ := by
  simp only [transfer, bind_eq_ok_iff, requireSigner_eq_ok_iff, requireMint_eq_ok_iff,
    debit_eq_ok_iff, if_neg different, plus_eq_ok_iff, pure, Except.pure, Except.ok.injEq]
  constructor
  · rintro ⟨_, signed, _, same, debited, taken, credited, given, rfl⟩
    exact ⟨signed, same, debited, credited, taken, given, rfl⟩
  · rintro ⟨signed, same, debited, credited, taken, given, rfl⟩
    exact ⟨(), signed, (), same, debited, taken, credited, given, rfl⟩

/-! ## Rejections -/

section Rejections

variable {reason : Rejection}

theorem requireSigner_eq_error_iff {required asserted : Principal} :
    requireSigner required asserted = .error reason ↔
      required ≠ asserted ∧ reason = .unauthorized required asserted := by
  by_cases signed : required = asserted <;> simp [requireSigner, authorize, signed, eq_comm]

theorem requireMint_eq_error_iff {expected actual : MintAddress} :
    requireMint expected actual = .error reason ↔
      actual ≠ expected ∧ reason = .mintMismatch expected actual := by
  by_cases same : actual = expected <;> simp [requireMint, same, eq_comm]

theorem plus_eq_error_iff {a b : UInt64} :
    plus a b = .error reason ↔ 2 ^ 64 ≤ a.toNat + b.toNat ∧ reason = .overflow := by
  rw [← Nat.not_lt]
  change _ ↔ ¬a.toNat + b.toNat < UInt64.size ∧ _
  by_cases room : a.toNat + b.toNat < UInt64.size <;> simp only [plus, room] <;> simp [eq_comm]

theorem minus_eq_error_iff {a b : UInt64} :
    minus a b = .error reason ↔ a < b ∧ reason = .overflow := by
  rw [← UInt64.not_le]
  by_cases enough : b ≤ a <;> simp [minus, enough, eq_comm]

theorem debit_eq_error_iff {account : AccountRecord} {amount : UInt64} :
    debit account amount = .error reason ↔
      account.amount < amount ∧ reason = .insufficientFunds account.amount amount := by
  rw [← UInt64.not_le]
  by_cases enough : amount ≤ account.amount <;> simp [debit, enough, eq_comm]

theorem exists_sum {a b : UInt64} (room : a.toNat + b.toNat < 2 ^ 64) :
    ∃ sum : UInt64, sum.toNat = a.toNat + b.toNat :=
  ⟨a + b, by rw [UInt64.toNat_add, Nat.mod_eq_of_lt room]⟩

theorem exists_difference {a b : UInt64} (enough : b ≤ a) :
    ∃ difference : UInt64, a.toNat = difference.toNat + b.toNat :=
  ⟨a - b, minus_eq_ok_iff.mp (if_pos enough)⟩

theorem issue_eq_error_iff {mint : MintRecord} {account : AccountRecord} {signer : Principal}
    {amount : UInt64} :
    issue mint account signer amount = .error reason ↔
      (mint.authority ≠ signer ∧ reason = .unauthorized mint.authority signer) ∨
      (mint.authority = signer ∧ account.mint ≠ mint.address ∧
        reason = .mintMismatch mint.address account.mint) ∨
      (mint.authority = signer ∧ account.mint = mint.address ∧
        (2 ^ 64 ≤ mint.supply.toNat + amount.toNat ∨
          2 ^ 64 ≤ account.amount.toNat + amount.toNat) ∧ reason = .overflow) := by
  simp only [issue, bind_eq_error_iff, requireSigner_eq_error_iff, requireSigner_eq_ok_iff,
    requireMint_eq_error_iff, requireMint_eq_ok_iff, plus_eq_error_iff, plus_eq_ok_iff]
  constructor
  · rintro (unsigned | ⟨_, signed, other | ⟨_, same, ⟨full, rfl⟩ | ⟨_, _, ⟨full, rfl⟩ |
      ⟨_, _, impossible⟩⟩⟩⟩)
    · exact .inl unsigned
    · exact .inr (.inl ⟨signed, other⟩)
    · exact .inr (.inr ⟨signed, same, .inl full, rfl⟩)
    · exact .inr (.inr ⟨signed, same, .inr full, rfl⟩)
    · cases impossible
  · rintro (unsigned | ⟨signed, other⟩ | ⟨signed, same, full, rfl⟩)
    · exact .inl unsigned
    · exact .inr ⟨(), signed, .inl other⟩
    · refine .inr ⟨(), signed, .inr ⟨(), same, ?_⟩⟩
      -- the supply is checked first, so the balance counts only if the supply has room
      by_cases room : mint.supply.toNat + amount.toNat < 2 ^ 64
      · obtain ⟨supply, increased⟩ := exists_sum room
        exact .inr ⟨supply, increased, .inl ⟨full.resolve_left (Nat.not_le.mpr room), rfl⟩⟩
      · exact .inl ⟨Nat.not_lt.mp room, rfl⟩

theorem burn_eq_error_iff {mint : MintRecord} {account : AccountRecord} {signer : Principal}
    {amount : UInt64} :
    burn mint account signer amount = .error reason ↔
      (account.owner ≠ signer ∧ reason = .unauthorized account.owner signer) ∨
      (account.owner = signer ∧ account.mint ≠ mint.address ∧
        reason = .mintMismatch mint.address account.mint) ∨
      (account.owner = signer ∧ account.mint = mint.address ∧ account.amount < amount ∧
        reason = .insufficientFunds account.amount amount) ∨
      (account.owner = signer ∧ account.mint = mint.address ∧ amount ≤ account.amount ∧
        mint.supply < amount ∧ reason = .overflow) := by
  simp only [burn, bind_eq_error_iff, requireSigner_eq_error_iff, requireSigner_eq_ok_iff,
    requireMint_eq_error_iff, requireMint_eq_ok_iff, debit_eq_error_iff, debit_eq_ok_iff,
    minus_eq_error_iff]
  constructor
  · rintro (unsigned | ⟨_, signed, other | ⟨_, same, short | ⟨rest, debited, ⟨short, rfl⟩ |
      ⟨_, _, impossible⟩⟩⟩⟩)
    · exact .inl unsigned
    · exact .inr (.inl ⟨signed, other⟩)
    · exact .inr (.inr (.inl ⟨signed, same, short⟩))
    · exact .inr (.inr (.inr ⟨signed, same, UInt64.le_iff_toNat_le.mpr (by omega), short, rfl⟩))
    · cases impossible
  · rintro (unsigned | ⟨signed, other⟩ | ⟨signed, same, short⟩ | ⟨signed, same, enough, short⟩)
    · exact .inl unsigned
    · exact .inr ⟨(), signed, .inl other⟩
    · exact .inr ⟨(), signed, .inr ⟨(), same, .inl short⟩⟩
    · obtain ⟨rest, debited⟩ := exists_difference enough
      exact .inr ⟨(), signed, .inr ⟨(), same, .inr ⟨rest, debited, .inl short⟩⟩⟩

theorem transfer_eq_error_iff {sender recipient : AccountRecord} {signer : Principal}
    {amount : UInt64} :
    transfer sender recipient signer amount = .error reason ↔
      (sender.owner ≠ signer ∧ reason = .unauthorized sender.owner signer) ∨
      (sender.owner = signer ∧ recipient.mint ≠ sender.mint ∧
        reason = .mintMismatch sender.mint recipient.mint) ∨
      (sender.owner = signer ∧ recipient.mint = sender.mint ∧ sender.amount < amount ∧
        reason = .insufficientFunds sender.amount amount) ∨
      (sender.owner = signer ∧ recipient.mint = sender.mint ∧ amount ≤ sender.amount ∧
        sender.address ≠ recipient.address ∧ 2 ^ 64 ≤ recipient.amount.toNat + amount.toNat ∧
        reason = .overflow) := by
  simp only [transfer, bind_eq_error_iff, requireSigner_eq_error_iff, requireSigner_eq_ok_iff,
    requireMint_eq_error_iff, requireMint_eq_ok_iff, debit_eq_error_iff, debit_eq_ok_iff]
  constructor
  · rintro (unsigned | ⟨_, signed, other | ⟨_, same, short | ⟨rest, debited, last⟩⟩⟩)
    · exact .inl unsigned
    · exact .inr (.inl ⟨signed, other⟩)
    · exact .inr (.inr (.inl ⟨signed, same, short⟩))
    · split at last
      · cases last
      -- only between two accounts is there room to ask for
      next different =>
        rcases bind_eq_error_iff.mp last with last | ⟨_, _, impossible⟩
        · obtain ⟨full, rfl⟩ := plus_eq_error_iff.mp last
          exact .inr (.inr (.inr ⟨signed, same, UInt64.le_iff_toNat_le.mpr (by omega), different,
            full, rfl⟩))
        · cases impossible
  · rintro (unsigned | ⟨signed, other⟩ | ⟨signed, same, short⟩ |
      ⟨signed, same, enough, different, full⟩)
    · exact .inl unsigned
    · exact .inr ⟨(), signed, .inl other⟩
    · exact .inr ⟨(), signed, .inr ⟨(), same, .inl short⟩⟩
    · obtain ⟨rest, debited⟩ := exists_difference enough
      refine .inr ⟨(), signed, .inr ⟨(), same, .inr ⟨rest, debited, ?_⟩⟩⟩
      rw [if_neg different, plus_eq_error_iff.mpr full]
      rfl

end Rejections

/-! ## Identities -/

theorem issue_keeps {mint : MintRecord} {account : AccountRecord} {signer : Principal}
    {amount : UInt64} {change : SupplyChange}
    (passed : issue mint account signer amount = .ok change) :
    mint.SameIdentity change.mint ∧ account.SameIdentity change.account := by
  obtain ⟨_, _, _, _, _, _, rfl⟩ := issue_eq_ok_iff.mp passed
  exact ⟨⟨rfl, rfl, rfl⟩, ⟨rfl, rfl, rfl⟩⟩

theorem burn_keeps {mint : MintRecord} {account : AccountRecord} {signer : Principal}
    {amount : UInt64} {change : SupplyChange}
    (passed : burn mint account signer amount = .ok change) :
    mint.SameIdentity change.mint ∧ account.SameIdentity change.account := by
  obtain ⟨_, _, _, _, _, _, rfl⟩ := burn_eq_ok_iff.mp passed
  exact ⟨⟨rfl, rfl, rfl⟩, ⟨rfl, rfl, rfl⟩⟩

theorem transfer_keeps {sender recipient : AccountRecord} {signer : Principal} {amount : UInt64}
    {change : TransferChange} (passed : transfer sender recipient signer amount = .ok change) :
    sender.SameIdentity change.sender ∧ recipient.SameIdentity change.recipient := by
  by_cases self : sender.address = recipient.address
  · obtain ⟨_, _, _, rfl⟩ := (transfer_self_eq_ok_iff self).mp passed
    exact ⟨⟨rfl, rfl, rfl⟩, ⟨rfl, rfl, rfl⟩⟩
  · obtain ⟨_, _, _, _, _, _, rfl⟩ := (transfer_eq_ok_iff self).mp passed
    exact ⟨⟨rfl, rfl, rfl⟩, ⟨rfl, rfl, rfl⟩⟩

end TokenLedger.Transition
