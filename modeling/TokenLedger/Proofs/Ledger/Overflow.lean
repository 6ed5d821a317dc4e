import TokenLedger.Proofs.SharedStore.Answers
import TokenLedger.Proofs.Store.Permanence

/-! # What overflows

Four sums and differences are checked for their range: of an issue the supply and the
balance, of a transfer the recipient's balance, of a burn the supply.  When requests are
done one after the other, the supply of a mint is what its accounts hold together, so it
covers every account, and any two.  Hence only the first check ever fires: an overflow is
always that of an issue, and of the supply (`overflow_iff_overfills`).

While ledgers share a store this does not hold, for a burn may then be judged by records
of two moments (`SharedStore.exists_tornBurn`).
-/

namespace TokenLedger

/-- Whether a request is an issue, by the authority of a mint and into an account of the
    mint, of more than the mint's supply has room for. -/
def Request.Overfills (ledger : Ledger) (request : Request) (records : MemoryStore) : Prop :=
  ∃ mint account amount mintRecord accountRecord,
    request.operation = .issue mint account amount ∧
      records.getMint mint = some mintRecord ∧ records.getAccount account = some accountRecord ∧
      request.signer ledger = .ok mintRecord.authority ∧ accountRecord.mint = mint ∧
      2 ^ 64 ≤ mintRecord.supply.toNat + amount.toNat

/-! ## Creating -/

/-- Whether a program ends as described, whatever it gets in reply. -/
def Program.Always {α : Type} (post : α → Prop) : Program α → Prop
  | done result => post result
  | perform _ next => ∀ reply, (next reply).Always post

theorem Program.Always.run {α σ : Type} [RecordStore σ] {post : α → Prop} {p : Program α}
    (always : p.Always post) (store : σ) : post (p.run store).result := by
  induction p generalizing store with
  | done result => exact always
  | perform effect next ih =>
    cases effect with
    | call call => exact ih _ (always _) _
    | acquire keys => exact ih () (always ()) store
    | note event => exact ih () (always ()) store

namespace Ledger

variable {ledger : Ledger} {signer : Principal} {records : MemoryStore}

theorem perform_creating_always {operation : Operation} (creates : operation.moves = false) :
    (ledger.perform signer operation).run.Always (· ≠ .error (.rejected .overflow)) := by
  cases operation with
  | createMint mint decimals =>
    rintro ⟨⟩ ⟨⟩ (e | _ | _)
    · exact nofun
    · exact fun _ => nofun
    · exact fun _ => nofun
  | createAccount mint owner =>
    rintro ⟨⟩ ⟨⟩ (e | _ | _)
    · exact nofun
    · exact nofun
    · rintro (e | _ | _)
      · exact nofun
      · exact fun _ => nofun
      · exact fun _ => nofun
  | issue mint account amount => cases creates
  | transfer sender recipient amount => cases creates
  | burn mint account amount => cases creates

end Ledger

/-! ## Issuing -/

/-- Where the supply covers the balance, the balance has room if the supply has. -/
theorem Transition.issue_overflow_iff {mint : MintRecord} {account : AccountRecord}
    {signer : Principal} {amount : UInt64} (covers : mint.Covers account) :
    issue mint account signer amount = .error .overflow ↔
      mint.authority = signer ∧ account.mint = mint.address ∧
        2 ^ 64 ≤ mint.supply.toNat + amount.toNat := by
  rw [issue_eq_error_iff]
  constructor
  · rintro (⟨_, other⟩ | ⟨_, _, other⟩ | ⟨signed, belongs, full | full, _⟩)
    · cases other
    · cases other
    · exact ⟨signed, belongs, full⟩
    · have bound := covers belongs
      exact ⟨signed, belongs, by omega⟩
  · rintro ⟨signed, belongs, full⟩
    exact .inr (.inr ⟨signed, belongs, .inl full, rfl⟩)

theorem Judgement.answer_overflow_iff {α β : Type} {j : Judgement α} {f : α → β}
    {ledger : Ledger} {amount : UInt64} {first second : MemoryStore} :
    ((j.unlessZero ledger amount).map f).answer first second = .error (.rejected .overflow) ↔
      ¬(amount = 0 ∧ ledger.config.rejectZeroAmounts) ∧
        j.judge first second = .error (.rejected .overflow) := by
  refine answer_eq_error_iff.trans (map_eq_error_iff.trans ?_)
  by_cases refused : amount = 0 ∧ ledger.config.rejectZeroAmounts
  · have judged : (j.unlessZero ledger amount).judge first second =
        .error (.rejected .zeroAmount) := if_pos refused
    rw [judged]
    exact iff_of_false nofun fun overflow => overflow.1 refused
  · rw [judge_unlessZero refused, and_iff_right refused]

namespace Ledger

variable {ledger : Ledger} {signer : Principal} {records : MemoryStore}

/-- On balanced records an issue overflows just if the supply has no room for it. -/
theorem answer_issue_overflow_iff (balanced : records.Balanced) {mint : MintAddress}
    {account : AccountAddress} {amount : UInt64} {j : Judgement Outcome}
    (judged : ledger.judgement? signer (.issue mint account amount) = some j) :
    j.answer records records = .error (.rejected .overflow) ↔
      ∃ mintRecord accountRecord, records.getMint mint = some mintRecord ∧
        records.getAccount account = some accountRecord ∧ mintRecord.authority = signer ∧
        accountRecord.mint = mint ∧ 2 ^ 64 ≤ mintRecord.supply.toNat + amount.toNat := by
  cases judged
  refine Judgement.answer_overflow_iff.trans ?_
  constructor
  · rintro ⟨_, refused⟩
    rcases judgeSupply_eq_error_iff.mp refused with missing | ⟨mintRecord, stored, missing |
      ⟨accountRecord, stored', reason, full, same⟩⟩
    · exact absurd missing MemoryStore.mintAt_ne_rejected
    · exact absurd missing MemoryStore.accountAt_ne_rejected
    · cases same
      obtain ⟨signed, belongs, full⟩ :=
        (Transition.issue_overflow_iff (balanced.covers stored' stored)).mp full
      rw [MemoryStore.address_of_getMint stored] at belongs
      exact ⟨mintRecord, accountRecord, stored, stored', signed, belongs, full⟩
  · rintro ⟨mintRecord, accountRecord, stored, stored', signed, belongs, full⟩
    rw [← MemoryStore.address_of_getMint stored] at belongs
    refine ⟨fun nothing => ?_, judgeSupply_eq_error_iff.mpr (.inr ⟨mintRecord, stored,
      .inr ⟨accountRecord, stored', .overflow,
        (Transition.issue_overflow_iff (balanced.covers stored' stored)).mpr
          ⟨signed, belongs, full⟩, rfl⟩⟩)⟩
    -- there is always room for nothing
    have room := mintRecord.supply.toNat_lt
    rw [nothing.1] at full
    exact absurd full (Nat.not_le.mpr room)

end Ledger

/-! ## Requests -/

theorem Request.run_overflow_iff {ledger : Ledger} {request : Request} {store : AnyStore}
    {records : MemoryStore} (holds : store.Holds records) (balanced : records.Balanced) :
    (request.run ledger store).result = .error (.rejected .overflow) ↔
      request.Overfills ledger records := by
  have alone := @run_answers ledger request _ _ holds
  cases signed : request.signer ledger with
  | error e =>
    rw [signed] at alone
    rw [show (request.run ledger store).result = .error (.authentication e) from alone]
    refine iff_of_false nofun ?_
    rintro ⟨_, _, _, _, _, _, _, _, signed', _⟩
    cases signed.symm.trans signed'
  | ok signer =>
    rw [signed] at alone
    cases moves : request.operation.moves with
    | false =>
      refine iff_of_false ?_ ?_
      · rw [run, program_eq_perform signed]
        exact (Ledger.perform_creating_always moves).run store
      · rintro ⟨_, _, _, _, _, same, _⟩
        rw [same] at moves
        cases moves
    | true =>
      obtain ⟨j, judged⟩ := ledger.exists_judgement signer moves
      rw [alone j judged]
      by_cases issues : request.operation.kind = .issue
      · obtain ⟨mint, account, amount, same⟩ :
            ∃ mint account amount, request.operation = .issue mint account amount := by
          cases operation : request.operation with
          | issue mint account amount => exact ⟨mint, account, amount, rfl⟩
          | _ => rw [operation] at issues; cases issues
        rw [same] at judged
        rw [Ledger.answer_issue_overflow_iff balanced judged]
        constructor
        · rintro ⟨mintRecord, accountRecord, stored, stored', rfl, belongs, full⟩
          exact ⟨mint, account, amount, mintRecord, accountRecord, same, stored, stored', signed,
            belongs, full⟩
        · rintro ⟨_, _, _, mintRecord, accountRecord, same', stored,
            stored', signed', belongs, full⟩
          cases same.symm.trans same'
          cases signed.symm.trans signed'
          exact ⟨mintRecord, accountRecord, stored, stored', rfl, belongs, full⟩
      · refine iff_of_false ((Ledger.settles judged).overflow issues balanced) ?_
        rintro ⟨_, _, _, _, _, same, _⟩
        exact issues (same ▸ rfl)

/-- After requests to any ledgers, one after the other, no account holds more than the supply
    of its mint, and a request overflows just if it is an issue for which the supply has no
    room: never for a balance alone, and never if it is a transfer or a burn. -/
theorem overflow_iff_overfills {start : AnyStore} (empty : start.IsEmpty)
    (requests : List (Ledger × Request)) :
    ∃ records, (serve start requests).Holds records ∧
      (∀ address account, records.getAccount address = some account →
        ∃ mint, records.getMint account.mint = some mint ∧ account.amount ≤ mint.supply) ∧
      ∀ (ledger : Ledger) (request : Request),
        (request.run ledger (serve start requests)).result = .error (.rejected .overflow) ↔
          request.Overfills ledger records := by
  obtain ⟨records, holds, balanced, _⟩ := serve_balanced empty.holds .empty requests
  refine ⟨records, holds, fun address account stored => ?_, fun ledger request =>
    request.run_overflow_iff holds balanced⟩
  obtain ⟨mint, known⟩ := Option.isSome_iff_exists.mp (balanced.known stored)
  have covered := balanced.covers stored known (MemoryStore.address_of_getMint known).symm
  exact ⟨mint, known, UInt64.le_iff_toNat_le.mpr covered⟩

/-- The requests that issue all there can be of a mint to one of two owners. -/
def fullIssue (mint : MintAddress) (authority owner other : Principal) :
    List (Ledger × Request) :=
  let account := AccountAddress.derive Derivation.defaultNamespace owner mint
  [({}, .act authority (.createMint mint 0)),
    ({}, .act authority (.createAccount mint owner)),
    ({ authenticator := .trusting }, .submit (.claimed other (.createAccount mint other))),
    ({ config := { auditAfterCommit := true } }, .act authority (.issue mint account (-1)))]

/-- One more token for the other owner, who has none, is one too many. -/
theorem overflow_iff_overfills_fullIssue :
    let mint : MintAddress := ⟨.replicate 2⟩
    let authority : Principal := ⟨.replicate 1⟩
    let other : Principal := ⟨.replicate 4⟩
    let account := AccountRecord.create Derivation.defaultNamespace other mint
    let store := serve .emptyDatabase (fullIssue mint authority ⟨.replicate 3⟩ other)
    let request := Request.act authority (.issue mint account.address 1)
    AnyStore.emptyDatabase.IsEmpty ∧ RecordStore.HasAccount store account.address account ∧
      account.amount = 0 ∧ ∃ records, store.Holds records ∧ request.Overfills {} records ∧
        (request.run {} store).result = .error (.rejected .overflow) := by
  intro mint authority other account store request
  obtain ⟨records, holds, _, overflows⟩ := overflow_iff_overfills AnyStore.isEmpty_emptyDatabase
    (fullIssue mint authority ⟨.replicate 3⟩ other)
  have present : RecordStore.HasAccount store account.address account := by decide +kernel
  have overflow : (request.run {} store).result = .error (.rejected .overflow) := by
    decide +kernel
  exact ⟨AnyStore.isEmpty_emptyDatabase, present, rfl, records, holds,
    (overflows {} request).mp overflow, overflow⟩

end TokenLedger
