import Mathlib.Data.List.Forall2
import TokenLedger.Proofs.Ledger.Moments
import TokenLedger.Proofs.Program.Agreement

/-! # Ledgers over stores of both kinds

Everything that can be asked of a ledger is a `LedgerCall`, and a `transcript` is what
comes of calls made one after the other: each answer, and the store after it.  Ledgers
that share a namespace leave every account where its owner and its mint put it
(`Posting.derived`), so no call of theirs tells a database from a store in memory
(`LedgerCall.agrees`), nor do any number of them.
-/

namespace TokenLedger

/-! ## Calls -/

/-- What a ledger can be asked. -/
inductive LedgerCall where
  | createMint (address : MintAddress) (decimals : UInt8) (authority : Principal)
  | createAccount (mint : MintAddress) (owner payer : Principal)
  | issue (mint : MintAddress) (account : AccountAddress) (signer : Principal) (amount : UInt64)
  | transfer (sender recipient : AccountAddress) (signer : Principal) (amount : UInt64)
  | burn (mint : MintAddress) (account : AccountAddress) (signer : Principal) (amount : UInt64)
  | submit (envelope : SignedOperation)
  | getMint (address : MintAddress)
  | getAccount (address : AccountAddress)
  | accountFor (owner : Principal) (mint : MintAddress)
  | balance (owner : Principal) (mint : MintAddress)
  | accountsByMint (mint : MintAddress)
  | accountsByOwner (owner : Principal)
  | listMints
  | auditSupply (mint : MintAddress)

namespace LedgerCall

/-- What a ledger answers with when it does what it is asked. -/
def Answer : LedgerCall → Type
  | createMint .. => MintRecord
  | createAccount .. => AccountRecord
  | issue .. | burn .. => SupplyChange
  | transfer .. => TransferChange
  | submit _ => Outcome
  | getMint _ => Option MintRecord
  | getAccount _ | accountFor .. => Option AccountRecord
  | balance .. => UInt64
  | accountsByMint _ | accountsByOwner _ => List AccountRecord
  | listMints => List MintAddress
  | auditSupply _ => SupplyReport

/-- What a ledger does on a call. -/
def program (ledger : Ledger) : (call : LedgerCall) → LedgerProgram call.Answer
  | createMint address decimals authority => Ledger.createMint address decimals authority
  | createAccount mint owner payer => ledger.createAccount mint owner payer
  | issue mint account signer amount => ledger.issue mint account signer amount
  | transfer sender recipient signer amount => ledger.transfer sender recipient signer amount
  | burn mint account signer amount => ledger.burn mint account signer amount
  | submit envelope => ledger.submit envelope
  | getMint address => Ledger.mint address
  | getAccount address => Ledger.account address
  | accountFor owner mint => ledger.accountFor owner mint
  | balance owner mint => ledger.balance owner mint
  | accountsByMint mint => Ledger.accountsByMint mint
  | accountsByOwner owner => Ledger.accountsByOwner owner
  | listMints => Ledger.listMints
  | auditSupply mint => Ledger.auditSupply mint

/-- A call that is made alone. -/
def run (ledger : Ledger) (call : LedgerCall) (store : AnyStore) :
    Program.Finished AnyStore (Except Failure call.Answer) :=
  Program.run (call.program ledger).run store

end LedgerCall

/-- A call and its answer. -/
abbrev Answered : Type := (call : LedgerCall) × Except Failure call.Answer

/-- What comes of calls to ledgers, one after the other: the answer to each, and the store after it.
    -/
def transcript (start : AnyStore) : List (Ledger × LedgerCall) → List (Answered × AnyStore)
  | [] => []
  | (ledger, call) :: rest =>
    let finished := call.run ledger start
    (⟨call, finished.result⟩, finished.store) :: transcript finished.store rest

/-! ## Accounts in their place -/

theorem MemoryStore.Kin.derived {ns : Bytes} {a b : MemoryStore} (kin : a.Kin b)
    (derived : a.Derived ns) : b.Derived ns where
  address {address account} stored := by
    obtain ⟨account', stored', same⟩ := kin.symm.account stored
    rw [derived.address stored', same.2.1, same.2.2]
  known {address account} stored := by
    obtain ⟨account', stored', same⟩ := kin.symm.account stored
    obtain ⟨mint, present⟩ := Option.isSome_iff_exists.mp (derived.known stored')
    obtain ⟨mint', present', _⟩ := kin.mint present
    rw [same.2.2, present']
    rfl

/-- Nothing that a ledger writes moves an account out of its place. -/
theorem Posting.derived {ns : Bytes} {signer : Principal} {operation : Operation}
    {before after : MemoryStore} (posting : Posting ns signer operation before after)
    (derived : before.Derived ns) : after.Derived ns := by
  cases operation with
  | createMint mint decimals =>
    cases posting with | createMint free =>
    refine ⟨fun stored => derived.address stored, fun {address account} stored => ?_⟩
    rw [MemoryStore.getMint_putMint]
    split
    · rfl
    · exact derived.known stored
  | createAccount mint owner =>
    cases posting with | createAccount known free =>
    constructor
    · intro address account stored
      rw [MemoryStore.getAccount_putAccount] at stored
      split at stored
      next here =>
        cases stored
        exact here.symm
      · exact derived.address stored
    · intro address account stored
      rw [MemoryStore.getAccount_putAccount] at stored
      split at stored
      · cases stored
        exact Option.isSome_iff_exists.mpr ⟨_, known⟩
      · exact derived.known stored
  | issue mint account amount => exact (posting.kin rfl).derived derived
  | transfer sender recipient amount => exact (posting.kin rfl).derived derived
  | burn mint account amount => exact (posting.kin rfl).derived derived

/-! ## Agreement -/

namespace LedgerCall

/-- What a ledger with a namespace may write. -/
def Writes (ns : Bytes) (before after : MemoryStore) : Prop :=
  ∃ signer operation, Posting ns signer operation before after

/-- The contract of a ledger's calls that are made alone. -/
abbrev alone (ns : Bytes) : Contract := .once (fun _ _ => False) (Writes ns)

theorem keepsDerived (ns : Bytes) : (alone ns).KeepsDerived ns := by
  rintro span after wrote (⟨_, rfl⟩ | ⟨_, _, _, _, posting⟩) derived
  · exact derived
  · exact posting.derived derived

theorem permits {ledger : Ledger} {signer : Principal} {operation : Operation} {amount : UInt64}
    {α : Type} {j : Judgement α} {f : α → Outcome}
    (moves : ledger.judgement? signer operation = some ((j.unlessZero ledger amount).map f)) :
    LedgerProgram.Permits (alone ledger.config.ns) (j.unlessZero ledger amount) :=
  LedgerProgram.Permits.of_map (Ledger.permits_of_judged moves fun posting => ⟨_, _, posting⟩)

theorem ensures_read {ns : Bytes} {s : Span} (request : StoreCall)
    (answer : MemoryStore → request.Answer) (distinct : request.Distinct)
    (reads : ∀ {records after : MemoryStore} {reply : request.Reply},
      records.Replies request reply after → reply = .ok (answer records) ∧ after = records)
    (quiet : ∀ reply, request.wrote reply = false) :
    ∃ post, (LedgerProgram.call request).run.Ensures (alone ns) post s :=
  ⟨_, LedgerProgram.ensures_read distinct reads quiet⟩

/-- Every call keeps to the contract. -/
theorem ensures (ledger : Ledger) (call : LedgerCall) (records : MemoryStore) :
    ∃ post, (call.program ledger).run.Ensures (alone ledger.config.ns) post (.start records) := by
  cases call with
  | createMint address decimals authority =>
    exact ⟨_, Ledger.ensures_createMint rfl fun posting => ⟨_, _, posting⟩⟩
  | createAccount mint owner payer =>
    exact ⟨_, Ledger.ensures_createAccount Request.keepsMints_alone rfl
      fun posting => ⟨payer, _, posting⟩⟩
  | issue mint account signer amount =>
    have moves : ledger.judgement? signer (.issue mint account amount) = some _ := rfl
    exact ⟨_, Ledger.ensures_issue (permits moves) rfl⟩
  | transfer sender recipient signer amount =>
    have moves : ledger.judgement? signer (.transfer sender recipient amount) = some _ := rfl
    exact ⟨_, Ledger.ensures_transfer (permits moves) rfl⟩
  | burn mint account signer amount =>
    have moves : ledger.judgement? signer (.burn mint account amount) = some _ := rfl
    exact ⟨_, Ledger.ensures_burn (permits moves) rfl⟩
  | submit envelope =>
    have writes := @Request.ensures_writes ledger (.submit envelope) (fun _ _ => False)
      (Writes ledger.config.ns) (.start records) Request.keepsMints_alone rfl
      fun ⟨_, _, posting⟩ => ⟨_, _, posting⟩
    exact ⟨_, writes⟩
  | getMint address =>
    exact ensures_read (.getMint address) (·.getMint address) trivial id
      fun reply => by cases reply <;> rfl
  | getAccount address =>
    exact ensures_read (.getAccount address) (·.getAccount address) trivial id
      fun reply => by cases reply <;> rfl
  | accountFor owner mint =>
    exact ensures_read (.getAccount (ledger.accountAddress owner mint))
      (·.getAccount (ledger.accountAddress owner mint)) trivial id
      fun reply => by cases reply <;> rfl
  | balance owner mint =>
    refine ⟨fun _ _ => True, LedgerProgram.ensures_bind (LedgerProgram.ensures_loadAccount _) ?_ ?_⟩
    · exact fun _ _ _ _ _ => trivial
    · exact fun _ _ _ => trivial
  | accountsByMint mint =>
    exact ensures_read (.accountsByMint mint) (·.accountsByMint mint) trivial id
      fun reply => by cases reply <;> rfl
  | accountsByOwner owner =>
    exact ensures_read (.accountsByOwner owner) (·.accountsByOwner owner) trivial id
      fun reply => by cases reply <;> rfl
  | listMints =>
    exact ensures_read .listMints (·.listMints) trivial id
      fun reply => by cases reply <;> rfl
  | auditSupply mint => exact ⟨_, Ledger.ensures_auditSupply mint⟩

variable {ledger : Ledger} {call : LedgerCall} {store : AnyStore} {records : MemoryStore}

/-- A call is answered by a store as by the records that it holds, and leaves it with the records
    that it leaves of these. -/
theorem agrees (holds : store.Holds records) (derived : records.Derived ledger.config.ns) :
    (call.run ledger store).result = (Program.run (call.program ledger).run records).result ∧
      (call.run ledger store).store.Holds (Program.run (call.program ledger).run records).store ∧
      (Program.run (call.program ledger).run records).store.Derived ledger.config.ns := by
  obtain ⟨post, ensures⟩ := call.ensures ledger records
  obtain ⟨result, _, rest⟩ := ensures.agrees (keepsDerived _) derived holds
  exact ⟨result, rest⟩

end LedgerCall

/-- Two stores that hold the same records, all accounts in their place, have the same transcript of
    any calls, and hold the same records after each of them. -/
theorem transcript_agrees {ns : Bytes} {calls : List (Ledger × LedgerCall)}
    (shared : ∀ call ∈ calls, call.1.config.ns = ns) {first second : AnyStore}
    {records : MemoryStore} (derived : records.Derived ns) (holds : first.Holds records)
    (holds' : second.Holds records) :
    List.Forall₂ (fun a b => a.1 = b.1 ∧ ∃ after, a.2.Holds after ∧ b.2.Holds after)
      (transcript first calls) (transcript second calls) := by
  induction calls generalizing first second records with
  | nil => exact .nil
  | cons head rest ih =>
    obtain ⟨ledger, call⟩ := head
    obtain ⟨here, shared⟩ := List.forall_mem_cons.mp shared
    cases here
    obtain ⟨result, held, derived'⟩ := call.agrees holds derived
    obtain ⟨result', held', _⟩ := call.agrees holds' derived
    refine .cons ⟨?_, _, held, held'⟩ (ih shared derived' held held')
    rw [result, result']

/-- Calls to ledgers that share a namespace are answered alike over a store in memory and over a
    database, both without records at first, and leave the same records in both, call by call. -/
theorem backends_agree {ns : Bytes} (calls : List (Ledger × LedgerCall))
    (shared : ∀ call ∈ calls, call.1.config.ns = ns) :
    List.Forall₂ (fun a b => a.1 = b.1 ∧ ∃ records, a.2.Holds records ∧ b.2.Holds records)
      (transcript .emptyMemory calls) (transcript .emptyDatabase calls) :=
  transcript_agrees shared .empty AnyStore.isEmpty_emptyMemory.holds
    AnyStore.isEmpty_emptyDatabase.holds

/-- Calls to four ledgers that share a namespace and little else. -/
def firstCalls (mint : MintAddress) (authority owner : Principal) : List (Ledger × LedgerCall) :=
  let account := AccountAddress.derive Derivation.defaultNamespace owner mint
  [({}, .createMint mint 0 authority),
    ({ authenticator := .trusting }, .submit (.claimed owner (.createAccount mint owner))),
    ({}, .createAccount mint owner authority),
    ({ config := { auditAfterCommit := true } }, .issue mint account authority 5),
    ({ config := { rejectZeroAmounts := true } }, .transfer account account owner 0),
    ({}, .balance owner mint)]

theorem backends_agree_firstCalls :
    (∀ call ∈ firstCalls ⟨.replicate 2⟩ ⟨.replicate 1⟩ ⟨.replicate 3⟩,
      call.1.config.ns = Derivation.defaultNamespace) ∧
    List.Forall₂ (fun a b => a.1 = b.1 ∧ ∃ records, a.2.Holds records ∧ b.2.Holds records)
      (transcript .emptyMemory (firstCalls ⟨.replicate 2⟩ ⟨.replicate 1⟩ ⟨.replicate 3⟩))
      (transcript .emptyDatabase (firstCalls ⟨.replicate 2⟩ ⟨.replicate 1⟩ ⟨.replicate 3⟩)) := by
  have shared : ∀ call ∈ firstCalls ⟨.replicate 2⟩ ⟨.replicate 1⟩ ⟨.replicate 3⟩,
      call.1.config.ns = Derivation.defaultNamespace := by
    simp [firstCalls]
  exact ⟨shared, backends_agree _ shared⟩

end TokenLedger
