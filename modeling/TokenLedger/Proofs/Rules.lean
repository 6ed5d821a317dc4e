import TokenLedger.Proofs.Transition

/-! # The rules of a transition, in their order

What a transition answers is settled by a list of rules: the first one broken rejects
it, and where none is broken the records move (`Follows`).  Each check obeys one rule,
and checks made one after another obey their rules one after another (`Follows.bind`).
What an issue adds a burn takes away again, and what a transfer moves the recipient can
send back (`exact_by_rules`).
-/

namespace TokenLedger.Transition

/-- A rule, and why an operation that breaks it is rejected. -/
structure Rule where
  kept : Bool
  reason : Rejection

/-- Why the first rule that is broken rejects, if one is. -/
def firstBroken? (rules : List Rule) : Option Rejection :=
  (rules.find? fun rule => !rule.kept).map (·.reason)

@[simp] theorem firstBroken?_nil : firstBroken? [] = none := rfl

theorem firstBroken?_singleton (rule : Rule) :
    firstBroken? [rule] = if rule.kept then none else some rule.reason := by
  cases kept : rule.kept <;> simp [firstBroken?, kept]

theorem firstBroken?_append (first second : List Rule) :
    firstBroken? (first ++ second) = (firstBroken? first).or (firstBroken? second) := by
  simp [firstBroken?, List.find?_append, Option.map_or]

/-! ## Obeying rules -/

/-- What is answered is the reason of the first broken rule, or if there is none a result with this
    property. -/
structure Follows {α : Type} (rules : List Rule) (answer : Except Rejection α) (Passed : α → Prop) :
    Prop where
  rejects : ∀ reason, answer = .error reason ↔ firstBroken? rules = some reason
  passes : firstBroken? rules = none → ∃ result, answer = .ok result ∧ Passed result

namespace Follows

variable {α β : Type} {rules rules' : List Rule} {Passed : α → Prop} {Passed' : β → Prop}

theorem pure {result : α} (passed : Passed result) : Follows [] (.ok result) Passed where
  rejects reason := by simp
  passes _ := ⟨result, rfl, passed⟩

theorem one {rule : Rule} {answer : Except Rejection α}
    (rejects : ∀ {reason}, answer = .error reason ↔ rule.kept = false ∧ reason = rule.reason)
    (passes : ∀ {result}, answer = .ok result → Passed result) : Follows [rule] answer Passed := by
  constructor
  · intro reason
    rw [rejects, firstBroken?_singleton]
    cases rule.kept <;> simp [eq_comm]
  · intro unbroken
    cases answer with
    | ok result => exact ⟨result, rfl, passes rfl⟩
    | error reason =>
      rw [firstBroken?_singleton, (rejects.mp rfl).1] at unbroken
      cases unbroken

/-- The second part is made only where no rule of the first is broken. -/
theorem bind {check : Except Rejection α} {next : α → Except Rejection β}
    (first : Follows rules check Passed)
    (second : ∀ result, Passed result → Follows rules' (next result) Passed') :
    Follows (rules ++ rules') (check >>= next) Passed' := by
  cases broken : firstBroken? rules with
  | some reason =>
    rw [(first.rejects reason).mpr broken]
    constructor <;> simp [firstBroken?_append, broken, Bind.bind, Except.bind]
  | none =>
    obtain ⟨result, rfl, passed⟩ := first.passes broken
    obtain ⟨rejects, passes⟩ := second result passed
    constructor <;> simpa [firstBroken?_append, broken, Bind.bind, Except.bind]

theorem weaken {answer : Except Rejection α} {Passed' : α → Prop}
    (follows : Follows rules answer Passed)
    (weaker : ∀ result, answer = .ok result → Passed result → Passed' result) :
    Follows rules answer Passed' where
  rejects := follows.rejects
  passes unbroken := by
    obtain ⟨result, answered, passed⟩ := follows.passes unbroken
    exact ⟨result, answered, weaker result answered passed⟩

end Follows

/-! ## Rules of the checks -/

def signerRule (required asserted : Principal) : Rule :=
  ⟨required = asserted, .unauthorized required asserted⟩

def mintRule (expected actual : MintAddress) : Rule :=
  ⟨actual = expected, .mintMismatch expected actual⟩

def fundsRule (account : AccountRecord) (amount : UInt64) : Rule :=
  ⟨amount ≤ account.amount, .insufficientFunds account.amount amount⟩

def roomRule (present amount : UInt64) : Rule :=
  ⟨present.toNat + amount.toNat < 2 ^ 64, .overflow⟩

/-- Nothing ties two arbitrary records together, so a balance may be greater than the supply. -/
def coverRule (supply amount : UInt64) : Rule := ⟨amount ≤ supply, .overflow⟩

theorem requireSigner_follows (required asserted : Principal) :
    Follows [signerRule required asserted] (requireSigner required asserted)
      fun _ => required = asserted :=
  .one (by simp [requireSigner_eq_error_iff, signerRule]) requireSigner_eq_ok_iff.mp

theorem requireMint_follows (expected actual : MintAddress) :
    Follows [mintRule expected actual] (requireMint expected actual) fun _ => actual = expected :=
  .one (by simp [requireMint_eq_error_iff, mintRule]) requireMint_eq_ok_iff.mp

theorem plus_follows (present amount : UInt64) :
    Follows [roomRule present amount] (plus present amount)
      fun sum => sum.toNat = present.toNat + amount.toNat :=
  .one (by simp [plus_eq_error_iff, roomRule]) plus_eq_ok_iff.mp

theorem minus_follows (supply amount : UInt64) :
    Follows [coverRule supply amount] (minus supply amount)
      fun rest => supply.toNat = rest.toNat + amount.toNat :=
  .one (by simp [minus_eq_error_iff, coverRule]) minus_eq_ok_iff.mp

theorem debit_follows (account : AccountRecord) (amount : UInt64) :
    Follows [fundsRule account amount] (debit account amount)
      fun rest => account.amount.toNat = rest.toNat + amount.toNat :=
  .one (by simp [debit_eq_error_iff, fundsRule]) debit_eq_ok_iff.mp

/-! ## Rules of the transitions -/

section Transitions

variable (mint : MintRecord) (account sender recipient : AccountRecord) (signer : Principal)
  (amount : UInt64)

def issueRules : List Rule :=
  [signerRule mint.authority signer, mintRule mint.address account.mint,
    roomRule mint.supply amount, roomRule account.amount amount]

def burnRules : List Rule :=
  [signerRule account.owner signer, mintRule mint.address account.mint, fundsRule account amount,
    coverRule mint.supply amount]

/-- From an account to itself nothing moves, so there is no rule of room for it. -/
def transferRules : List Rule :=
  signerRule sender.owner signer :: mintRule sender.mint recipient.mint ::
    fundsRule sender amount ::
      if sender.address = recipient.address then [] else [roomRule recipient.amount amount]

/-- Supply and balance are greater by the amount, and nothing else is new. -/
def Issued (change : SupplyChange) : Prop :=
  change.mint = { mint with supply := change.mint.supply } ∧
  change.account = { account with amount := change.account.amount } ∧
  change.mint.supply.toNat = mint.supply.toNat + amount.toNat ∧
  change.account.amount.toNat = account.amount.toNat + amount.toNat

/-- Supply and balance are less by the amount, and nothing else is new. -/
def Burned (change : SupplyChange) : Prop :=
  change.mint = { mint with supply := change.mint.supply } ∧
  change.account = { account with amount := change.account.amount } ∧
  mint.supply.toNat = change.mint.supply.toNat + amount.toNat ∧
  account.amount.toNat = change.account.amount.toNat + amount.toNat

/-- The amount is in the other balance, and nothing else is new. -/
def Moved (change : TransferChange) : Prop :=
  change.sender = { sender with amount := change.sender.amount } ∧
  change.recipient = { recipient with amount := change.recipient.amount } ∧
  sender.amount.toNat = change.sender.amount.toNat + amount.toNat ∧
  change.recipient.amount.toNat = recipient.amount.toNat + amount.toNat

theorem issue_follows :
    Follows (issueRules mint account signer amount) (issue mint account signer amount)
      (Issued mint account amount) :=
  .bind (requireSigner_follows _ _) fun _ _ => .bind (requireMint_follows _ _) fun _ _ =>
    .bind (plus_follows _ _) fun _ increased => .bind (plus_follows _ _) fun _ credited =>
      .pure ⟨rfl, rfl, increased, credited⟩

theorem burn_follows :
    Follows (burnRules mint account signer amount) (burn mint account signer amount)
      (Burned mint account amount) :=
  .bind (requireSigner_follows _ _) fun _ _ => .bind (requireMint_follows _ _) fun _ _ =>
    .bind (debit_follows _ _) fun _ debited => .bind (minus_follows _ _) fun _ decreased =>
      .pure ⟨rfl, rfl, decreased, debited⟩

theorem transfer_follows :
    Follows (transferRules sender recipient signer amount) (transfer sender recipient signer amount)
      fun change =>
        if sender.address = recipient.address then change = ⟨sender, recipient⟩
        else Moved sender recipient amount change := by
  unfold transferRules transfer
  -- the last check is made for two accounts only, and so is its rule
  by_cases self : sender.address = recipient.address
  · simp only [if_pos self]
    exact .bind (requireSigner_follows _ _) fun _ _ => .bind (requireMint_follows _ _) fun _ _ =>
      .bind (debit_follows _ _) fun _ _ => .pure rfl
  · simp only [if_neg self]
    exact .bind (requireSigner_follows _ _) fun _ _ => .bind (requireMint_follows _ _) fun _ _ =>
      .bind (debit_follows _ _) fun _ taken => .bind (plus_follows _ _) fun _ given =>
        .pure ⟨rfl, rfl, taken, given⟩

end Transitions

/-! ## Taking back -/

variable {mint : MintRecord} {account sender recipient : AccountRecord} {signer : Principal}
  {amount : UInt64}

theorem burn_issued {change : SupplyChange}
    (passed : issue mint account signer amount = .ok change) :
    burn change.mint change.account account.owner amount = .ok ⟨mint, account⟩ := by
  obtain ⟨_, same, supply, balance, increased, credited, rfl⟩ := issue_eq_ok_iff.mp passed
  exact burn_eq_ok_iff.mpr ⟨rfl, same, mint.supply, account.amount, increased, credited, rfl⟩

theorem transfer_back {change : TransferChange} (different : sender.address ≠ recipient.address)
    (passed : transfer sender recipient signer amount = .ok change) :
    transfer change.recipient change.sender recipient.owner amount = .ok ⟨recipient, sender⟩ := by
  obtain ⟨_, same, debited, credited, taken, given, rfl⟩ := (transfer_eq_ok_iff different).mp passed
  -- what was taken is given back, so the sums of the way there are the sums of the way back
  refine (transfer_eq_ok_iff ?_).mpr
    ⟨rfl, same.symm, recipient.amount, sender.amount, given, taken, rfl⟩
  exact different.symm

/-- Each transition answers with the first of its rules that is broken, and where none is it moves
    exactly the amount.  What was issued its owner can burn, and what was received can be sent back,
    each time with the records that there were before. -/
theorem exact_by_rules (mint : MintRecord) (account sender recipient : AccountRecord)
    (signer : Principal) (amount : UInt64) :
    Follows (issueRules mint account signer amount) (issue mint account signer amount)
        (fun change => Issued mint account amount change ∧
          burn change.mint change.account account.owner amount = .ok ⟨mint, account⟩) ∧
      Follows (burnRules mint account signer amount) (burn mint account signer amount)
        (Burned mint account amount) ∧
      Follows (transferRules sender recipient signer amount)
        (transfer sender recipient signer amount) (fun change =>
          change.sender.amount.toNat + change.recipient.amount.toNat =
            sender.amount.toNat + recipient.amount.toNat ∧
          if sender.address = recipient.address then change = ⟨sender, recipient⟩
          else Moved sender recipient amount change ∧
            transfer change.recipient change.sender recipient.owner amount =
              .ok ⟨recipient, sender⟩) := by
  refine ⟨?_, burn_follows mint account signer amount, ?_⟩
  · exact (issue_follows mint account signer amount).weaken
      fun change passed issued => ⟨issued, burn_issued passed⟩
  · refine (transfer_follows sender recipient signer amount).weaken fun change passed moved => ?_
    split at moved
    next self =>
      subst moved
      exact ⟨rfl, by rw [if_pos self]⟩
    next different =>
      obtain ⟨_, _, taken, given⟩ := id moved
      refine ⟨by omega, ?_⟩
      rw [if_neg different]
      exact ⟨moved, transfer_back different passed⟩

end TokenLedger.Transition
