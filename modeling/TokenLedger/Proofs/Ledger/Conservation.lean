import Mathlib.Algebra.BigOperators.Group.List.Basic
import Mathlib.Algebra.GroupWithZero.Nat
import TokenLedger.Proofs.Ledger.Request

/-! # Conservation of supply

The supply that a mint records is what its accounts hold together.  The sum is over
a collection of any size, so the argument is about what one record put in does to it
(`total_putAccount_new`, `total_putAccount_old`), and then about each posting: an
issue and a burn change one account and the supply by the same amount, a transfer
changes two different accounts by opposite amounts.  That every account's mint is
there is part of the invariant, for a mint that is created must not find accounts
that are older than it is.
-/

namespace TokenLedger

namespace MemoryStore

variable {records : MemoryStore}

/-! ## Totals -/

/-- What the accounts of a mint hold together. -/
def total (records : MemoryStore) (mint : MintAddress) : Nat :=
  ((records.accountsByMint mint).map fun account => account.amount.toNat).sum

/-- What a list of accounts holds of a mint. -/
def totalOf (mint : MintAddress) (accounts : List AccountRecord) : Nat :=
  ((accounts.filter (·.mint = mint)).map fun account => account.amount.toNat).sum

theorem totalOf_perm {mint : MintAddress} {accounts accounts' : List AccountRecord}
    (perm : accounts.Perm accounts') : totalOf mint accounts = totalOf mint accounts' :=
  ((perm.filter _).map _).sum_eq

theorem totalOf_cons (mint : MintAddress) (account : AccountRecord) (others : List AccountRecord) :
    totalOf mint (account :: others) =
      (if account.mint = mint then account.amount.toNat else 0) + totalOf mint others := by
  by_cases same : account.mint = mint <;> simp [totalOf, same]

theorem total_putAccount_new {account : AccountRecord}
    (free : records.getAccount account.address = none) (mint : MintAddress) :
    (records.putAccount account).total mint =
      (if account.mint = mint then account.amount.toNat else 0) + records.total mint := by
  have items : (records.accounts.put account).items.Perm _ := Index.perm_put_new free
  exact (totalOf_perm items).trans (totalOf_cons mint account _)

/-- An account in the place of another of its mint changes the mint's total by the
    difference, and no other total. -/
theorem total_putAccount_old {account old : AccountRecord}
    (stored : records.getAccount account.address = some old) (same : old.mint = account.mint)
    (mint : MintAddress) :
    (records.putAccount account).total mint +
      (if account.mint = mint then old.amount.toNat else 0) =
      records.total mint + (if account.mint = mint then account.amount.toNat else 0) := by
  have found : records.accounts.find? account.key = some old := stored
  obtain ⟨others, before, after⟩ := Index.perm_put_old found
  have was : records.total mint = _ := (totalOf_perm before).trans (totalOf_cons mint old others)
  have is : (records.putAccount account).total mint = _ :=
    (totalOf_perm after).trans (totalOf_cons mint account others)
  rw [was, is, same]
  omega

/-! ## Balance -/

/-- Whether every supply is the total of its mint's accounts, and the mint of every
    account is there. -/
structure Balanced (records : MemoryStore) : Prop where
  supply : ∀ {address mint}, records.getMint address = some mint →
    mint.supply.toNat = records.total address
  known : ∀ {address account}, records.getAccount address = some account →
    (records.getMint account.mint).isSome

namespace Balanced

theorem empty : MemoryStore.empty.Balanced where
  supply stored := by cases stored
  known stored := by cases stored

/-- A mint without accounts that are older than it is. -/
theorem putMint (balanced : records.Balanced) {mint : MintRecord}
    (free : records.getMint mint.address = none) (unissued : mint.supply = 0) :
    (records.putMint mint).Balanced where
  supply := by
    intro address found stored
    show _ = records.total address
    rw [getMint_putMint] at stored
    split at stored
    next here =>
      cases stored
      -- an account of the new mint would be older than the mint
      have none_of : records.accountsByMint address = [] := by
        refine List.filter_eq_nil_iff.mpr fun account member => ?_
        have known := balanced.known (Index.find?_of_mem member)
        intro same
        rw [show account.mint = address by simpa using same, ← here, free] at known
        cases known
      rw [total, none_of, unissued]
      rfl
    · exact balanced.supply stored
  known := by
    intro address account stored
    have known := balanced.known stored
    rw [getMint_putMint]
    split
    · rfl
    · exact known

theorem putAccount (balanced : records.Balanced) {account : AccountRecord}
    (free : records.getAccount account.address = none) (empty : account.amount = 0)
    (known : (records.getMint account.mint).isSome) : (records.putAccount account).Balanced where
  supply := by
    intro address mint stored
    rw [total_putAccount_new free, empty, balanced.supply stored]
    split <;> simp
  known := by
    intro address found stored
    rw [getAccount_putAccount] at stored
    split at stored
    · cases stored
      exact known
    · exact balanced.known stored

/-- A supply and an account of the mint that change by the same amount. -/
theorem change_supply (balanced : records.Balanced) {mint mint' : MintRecord}
    {account account' : AccountRecord} (stored : records.getMint mint'.address = some mint)
    (stored' : records.getAccount account'.address = some account)
    (same : account.mint = account'.mint) (belongs : account'.mint = mint'.address)
    (even : mint'.supply.toNat + account.amount.toNat =
      mint.supply.toNat + account'.amount.toNat) :
    ((records.putMint mint').putAccount account').Balanced where
  supply := by
    intro address found at_address
    have present : (records.putMint mint').getAccount account'.address = some account := stored'
    have moved := total_putAccount_old present same address
    have before : (records.putMint mint').total address = records.total address := rfl
    rw [getMint_putAccount, getMint_putMint] at at_address
    split at at_address
    next here =>
      cases at_address
      have was := balanced.supply stored
      simp only [if_pos (belongs.trans here), before] at moved
      rw [here] at was
      omega
    next elsewhere =>
      have apart : account'.mint ≠ address := fun there => elsewhere (belongs.symm.trans there)
      simp only [if_neg apart, before] at moved
      rw [balanced.supply at_address]
      exact moved.symm
  known := by
    intro address found at_address
    rw [getMint_putAccount, getMint_putMint]
    split
    · rfl
    next elsewhere =>
      rw [getAccount_putAccount] at at_address
      split at at_address
      · cases at_address
        exact absurd belongs.symm elsewhere
      · exact balanced.known at_address

/-- Two accounts of a mint that change by opposite amounts. -/
theorem change_accounts (balanced : records.Balanced) {first first' second second' : AccountRecord}
    (stored : records.getAccount first'.address = some first)
    (stored' : records.getAccount second'.address = some second)
    (different : first'.address ≠ second'.address) (same : first.mint = first'.mint)
    (same' : second.mint = second'.mint) (common : first'.mint = second'.mint)
    (even : first'.amount.toNat + second'.amount.toNat =
      first.amount.toNat + second.amount.toNat) :
    ((records.putAccount first').putAccount second').Balanced where
  supply := by
    intro address mint at_address
    have between : (records.putAccount first').getAccount second'.address = some second := by
      rw [getAccount_putAccount, if_neg different]
      exact stored'
    -- the two accounts are put in one after the other, so the total moves twice
    have moved := total_putAccount_old stored same address
    have moved' := total_putAccount_old between same' address
    have was := balanced.supply at_address
    rw [common] at moved
    by_cases here : second'.mint = address
    · simp only [if_pos here] at moved moved'
      omega
    · simp only [if_neg here] at moved moved'
      omega
  known := by
    intro address found at_address
    rw [getMint_putAccount, getMint_putAccount]
    rw [getAccount_putAccount, getAccount_putAccount] at at_address
    split at at_address
    · cases at_address
      exact same' ▸ balanced.known stored'
    · split at at_address
      · cases at_address
        exact same ▸ balanced.known stored
      · exact balanced.known at_address

end Balanced

end MemoryStore

/-- No operation upsets the balance. -/
theorem Posting.balanced {ns : Bytes} {signer : Principal} {operation : Operation}
    {before after : MemoryStore} (posting : Posting ns signer operation before after)
    (balanced : before.Balanced) : after.Balanced := by
  cases posting with
  | createMint free => exact balanced.putMint free rfl
  | createAccount known free =>
    exact balanced.putAccount free rfl (Option.isSome_of_eq_some known)
  | issue nonzero stored stored' passed =>
    obtain rfl := MemoryStore.address_of_getMint stored
    obtain rfl := MemoryStore.address_of_getAccount stored'
    obtain ⟨_, belongs, supply, balance, increased, credited, rfl⟩ :=
      Transition.issue_eq_ok_iff.mp passed
    refine balanced.change_supply stored stored' rfl belongs ?_
    simp only [increased, credited]
    omega
  | transfer nonzero different stored stored' passed =>
    obtain rfl := MemoryStore.address_of_getAccount stored
    obtain rfl := MemoryStore.address_of_getAccount stored'
    obtain ⟨_, same, debited, credited, taken, given, rfl⟩ :=
      (Transition.transfer_eq_ok_iff different).mp passed
    refine balanced.change_accounts stored stored' different rfl rfl same.symm ?_
    simp only [taken, given]
    omega
  | burn nonzero stored stored' passed =>
    obtain rfl := MemoryStore.address_of_getMint stored
    obtain rfl := MemoryStore.address_of_getAccount stored'
    obtain ⟨_, belongs, supply, balance, decreased, debited, rfl⟩ :=
      Transition.burn_eq_ok_iff.mp passed
    refine balanced.change_supply stored stored' rfl belongs ?_
    simp only [decreased, debited]
    omega

theorem MemoryStore.length_putAccount_new {records : MemoryStore} {account : AccountRecord}
    (free : records.getAccount account.address = none) :
    (records.putAccount account).accounts.items.length = records.accounts.items.length + 1 :=
  Index.length_put_new free

theorem MemoryStore.length_putAccount_old {records : MemoryStore} {account old : AccountRecord}
    (stored : records.getAccount account.address = some old) :
    (records.putAccount account).accounts.items.length = records.accounts.items.length :=
  Index.length_put_old stored

/-- An operation adds an account at most. -/
theorem Posting.length_accounts {ns : Bytes} {signer : Principal} {operation : Operation}
    {before after : MemoryStore} (posting : Posting ns signer operation before after) :
    after.accounts.items.length ≤ before.accounts.items.length + 1 := by
  cases posting with
  | createMint free => exact Nat.le_succ _
  | createAccount known free => exact Nat.le_of_eq (MemoryStore.length_putAccount_new free)
  | issue nonzero stored stored' passed =>
    have same := (Transition.issue_keeps passed).2.1
    rw [← MemoryStore.address_of_getAccount stored', same] at stored'
    exact (MemoryStore.length_putAccount_old stored').trans_le (Nat.le_succ _)
  | transfer nonzero different stored stored' passed =>
    obtain ⟨same, same'⟩ := Transition.transfer_keeps passed
    have here := MemoryStore.address_of_getAccount stored
    have here' := MemoryStore.address_of_getAccount stored'
    rw [← here, ← here', same.1, same'.1] at different
    rw [← here, same.1] at stored
    rw [← here', same'.1] at stored'
    have between : (before.putAccount _).getAccount _ = some _ :=
      (MemoryStore.getAccount_putAccount _ _ _).trans ((if_neg different).trans stored')
    have length := MemoryStore.length_putAccount_old stored
    have length' := MemoryStore.length_putAccount_old between
    omega
  | burn nonzero stored stored' passed =>
    have same := (Transition.burn_keeps passed).2.1
    rw [← MemoryStore.address_of_getAccount stored', same] at stored'
    exact (MemoryStore.length_putAccount_old stored').trans_le (Nat.le_succ _)

/-! ## Audits -/

namespace SupplyReport

theorem foldl_tally (accounts : List AccountRecord) (sum : BitVec 128) (count : UInt64) :
    accounts.foldl (fun (sum, count) account =>
        (sum + BitVec.ofNat 128 account.amount.toNat, count + 1)) (sum, count) =
      (sum + BitVec.ofNat 128 ((accounts.map fun account => account.amount.toNat).sum),
        count + UInt64.ofNat accounts.length) := by
  induction accounts generalizing sum count with
  | nil => simp
  | cons first rest ih =>
    rw [List.foldl_cons, ih, List.map_cons, List.sum_cons, List.length_cons, BitVec.ofNat_add,
      UInt64.ofNat_add, BitVec.add_assoc, UInt64.add_assoc, UInt64.add_comm 1]
    rfl

end SupplyReport

/-- The report on a balanced mint. -/
theorem MemoryStore.Balanced.checkSupply {records : MemoryStore} (balanced : records.Balanced)
    {address : MintAddress} {mint : MintRecord} (stored : records.getMint address = some mint) :
    mint.checkSupply (records.accountsByMint mint.address) =
      { mint := mint.address
        supply := mint.supply
        accountSum := BitVec.ofNat 128 (records.total mint.address)
        accounts := UInt64.ofNat (records.accountsByMint mint.address).length
        consistent := true } := by
  have here := address_of_getMint stored
  have once : (records.accountsByMint mint.address).filter (·.mint = mint.address) =
      records.accountsByMint mint.address := by
    simp [accountsByMint, List.filter_filter]
  have tally : SupplyReport.tally mint.address (records.accountsByMint mint.address) =
      (BitVec.ofNat 128 (records.total mint.address),
        UInt64.ofNat (records.accountsByMint mint.address).length) := by
    rw [SupplyReport.tally, once, SupplyReport.foldl_tally]
    simp [total]
  have even : mint.supply.toNat = records.total mint.address := by
    rw [here]
    exact balanced.supply stored
  simp only [MintRecord.checkSupply, tally, even, decide_true]

namespace Ledger

open LedgerProgram

theorem ensures_auditSupply {c : Contract} {s : Span} (address : MintAddress) :
    (auditSupply address).run.Ensures c
      (fun result t => ∃ first ∈ t.moments, ∃ second ∈ t.moments,
        result = (first.mintAt address).map fun mint =>
          mint.checkSupply (second.accountsByMint mint.address)) s := by
  refine ensures_bind (ensures_lock _) ?_ ?_
  · rintro _ t _
    refine ensures_bind (ensures_loadMint address) ?_ ?_
    · rintro mint u ⟨⟨first, seen, loaded⟩, _⟩
      refine (ensures_auditRecord mint).mono ?_
      rintro result v ⟨⟨second, seen', rfl⟩, on⟩
      refine ⟨first, on.moments _ seen, second, seen', ?_⟩
      rw [← loaded]
      rfl
    · rintro e u ⟨⟨first, seen, loaded⟩, _⟩
      refine ⟨first, seen, first, seen, ?_⟩
      rw [← loaded]
      rfl
  · rintro e t ⟨impossible, _⟩
    cases impossible

/-- An audit alone with the records. -/
theorem run_auditSupply_eq_map {store : AnyStore} {records : MemoryStore}
    (holds : store.Holds records) (address : MintAddress) :
    (Program.run (auditSupply address).run store).result = (records.mintAt address).map fun mint =>
      mint.checkSupply (records.accountsByMint mint.address) := by
  have reading := @ensures_auditSupply (.once (fun _ _ => False) fun _ _ => False)
    (.start records) address
  obtain ⟨final, _, ⟨first, seen, second, seen', answered⟩, ⟨_, still⟩ | ⟨_, impossible⟩⟩ :=
    reading.run_once holds
  · rw [answered, still first seen, still second seen']
  · exact impossible.elim

theorem run_auditSupply {store : AnyStore} {records : MemoryStore} (holds : store.Holds records)
    {address : MintAddress} {mint : MintRecord} (stored : records.getMint address = some mint) :
    (Program.run (auditSupply address).run store).result =
      .ok (mint.checkSupply (records.accountsByMint mint.address)) := by
  rw [run_auditSupply_eq_map holds, MemoryStore.mintAt_eq_ok_iff.mpr stored]
  rfl

/-- No audit of balanced records reports an inconsistent supply. -/
theorem consistent_of_auditSupply {store : AnyStore} {records : MemoryStore}
    (holds : store.Holds records) (balanced : records.Balanced) {address : MintAddress}
    {report : SupplyReport}
    (answered : (Program.run (auditSupply address).run store).result = .ok report) :
    report.consistent = true := by
  rw [run_auditSupply_eq_map holds, map_eq_ok_iff] at answered
  obtain ⟨mint, stored, rfl⟩ := answered
  rw [balanced.checkSupply (MemoryStore.mintAt_eq_ok_iff.mp stored)]

end Ledger

/-! ## Runs -/

theorem serve_balanced {start : AnyStore} {records : MemoryStore} (holds : start.Holds records)
    (balanced : records.Balanced) (requests : List (Ledger × Request)) :
    ∃ after, (serve start requests).Holds after ∧ after.Balanced ∧
      after.accounts.items.length ≤ records.accounts.items.length + requests.length := by
  induction requests generalizing start records with
  | nil => exact ⟨records, holds, balanced, Nat.le_refl _⟩
  | cons first rest ih =>
    obtain ⟨ledger, request⟩ := first
    obtain ⟨between, held, left, _⟩ := @Request.run_alone ledger request _ _ holds
    have step : between.Balanced ∧
        between.accounts.items.length ≤ records.accounts.items.length + 1 := by
      rcases left with rfl | ⟨_, _, posting⟩
      · exact ⟨balanced, Nat.le_succ _⟩
      · exact ⟨posting.balanced balanced, posting.length_accounts⟩
    obtain ⟨after, held, balanced, bound⟩ := ih held step.1
    refine ⟨after, held, balanced, ?_⟩
    rw [List.length_cons]
    omega

/-- Requests to any ledgers leave a store that was empty balanced: every supply is the
    total of its mint's accounts, an audit of the mint reports so, with the number of
    these accounts, and no account is without its mint. -/
theorem supply_conserved {start : AnyStore} (empty : start.IsEmpty)
    (requests : List (Ledger × Request)) :
    ∃ records, (serve start requests).Holds records ∧
      (∀ mint ∈ records.mints.items,
        mint.supply.toNat = records.total mint.address ∧
        ∃ report, (Program.run (Ledger.auditSupply mint.address).run
            (serve start requests)).result = .ok report ∧
          report.consistent = true ∧
          report.accountSum.toNat = records.total mint.address ∧
          report.accounts = UInt64.ofNat (records.accountsByMint mint.address).length ∧
          (requests.length < 2 ^ 64 →
            report.accounts.toNat = (records.accountsByMint mint.address).length)) ∧
      ∀ account ∈ records.accounts.items, ∃ mint ∈ records.mints.items,
        mint.address = account.mint := by
  obtain ⟨records, holds, balanced, bound⟩ :=
    serve_balanced empty.holds MemoryStore.Balanced.empty requests
  refine ⟨records, holds, fun mint member => ?_, fun account member => ?_⟩
  · have stored : records.getMint mint.address = some mint := Index.find?_of_mem member
    have even := balanced.supply stored
    have room := mint.supply.toNat_lt
    refine ⟨even, _, Ledger.run_auditSupply holds stored, ?_⟩
    rw [balanced.checkSupply stored]
    refine ⟨rfl, ?_, rfl, fun few => ?_⟩
    · show (BitVec.ofNat 128 _).toNat = _
      rw [BitVec.toNat_ofNat, Nat.mod_eq_of_lt (by omega)]
    · -- each request adds an account at most, so fewer requests than words give an exact count
      have some_of : (records.accountsByMint mint.address).length ≤ records.accounts.items.length :=
        List.length_filter_le _ _
      have none : MemoryStore.empty.accounts.items.length = 0 := rfl
      exact UInt64.toNat_ofNat_of_lt' (by show _ < 2 ^ 64; omega)
  · have stored : records.getAccount account.address = some account := Index.find?_of_mem member
    obtain ⟨mint, found⟩ := Option.isSome_iff_exists.mp (balanced.known stored)
    exact ⟨mint, Index.mem_of_find? found, MemoryStore.address_of_getMint found⟩

/-- The requests of a mint's first issue, through three ledgers. -/
def firstIssue (mint : MintAddress) (authority owner : Principal) : List (Ledger × Request) :=
  let account := AccountAddress.derive Derivation.defaultNamespace owner mint
  [({}, .act authority (.createMint mint 0)),
    ({ authenticator := .trusting }, .submit (.claimed owner (.createAccount mint owner))),
    ({ config := { auditAfterCommit := true } }, .act authority (.issue mint account 5)),
    ({}, .act owner (.transfer account account 2))]

theorem supply_conserved_firstIssue :
    AnyStore.emptyDatabase.IsEmpty ∧ ∃ records,
      (serve .emptyDatabase (firstIssue ⟨.replicate 2⟩ ⟨.replicate 1⟩ ⟨.replicate 3⟩)).Holds
        records ∧
      ∃ mint ∈ records.mints.items, mint.supply = 5 ∧ records.total mint.address = 5 := by
  have answered : (RecordStore.answer (.getMint ⟨.replicate 2⟩)
      (serve .emptyDatabase (firstIssue ⟨.replicate 2⟩ ⟨.replicate 1⟩ ⟨.replicate 3⟩))).1.map
        (Option.map MintRecord.supply) = .ok (some 5) := by
    decide +kernel
  obtain ⟨records, holds, mints, _⟩ := supply_conserved AnyStore.isEmpty_emptyDatabase
    (firstIssue ⟨.replicate 2⟩ ⟨.replicate 1⟩ ⟨.replicate 3⟩)
  rw [holds.getMint] at answered
  obtain ⟨mint, stored, supply⟩ := Option.map_eq_some_iff.mp (Except.ok.inj answered)
  have member := Index.mem_of_find? stored
  refine ⟨AnyStore.isEmpty_emptyDatabase, records, holds, mint, member, supply, ?_⟩
  rw [← (mints mint member).1, supply]
  rfl

end TokenLedger
