import Mathlib.Algebra.Order.BigOperators.Group.List
import Mathlib.Algebra.Order.Group.Int
import Mathlib.Data.List.Pairwise
import TokenLedger.Proofs.SharedStore.Basic

/-! # Accounts of one owner for one mint

Where an account is put is derived from its owner, its mint and the namespace of the
ledger that creates it, so ledgers of one namespace never make two accounts of one
owner for one mint.  Ledgers of different namespaces do, in memory: nothing there
looks at owners and mints.  Tables do not take a row whose owner and mint another row
has, whoever asks for it and for whatever address.

Every account that is there was created once, by a request that has written
(`CreatedOnce`), and that says which accounts there are.
-/

namespace TokenLedger

/-! ## Tables -/

namespace Tables

/-- Whether no two rows have both owner and mint in common. -/
def SinglePairs (tables : Tables) : Prop :=
  tables.accounts.items.Pairwise fun a b => ¬(a.owner = b.owner ∧ a.mint = b.mint)

variable {tables : Tables}

theorem singlePairs_perm {rows rows' : List AccountRow} (perm : rows.Perm rows') :
    (rows.Pairwise fun a b => ¬(a.owner = b.owner ∧ a.mint = b.mint)) ↔
      rows'.Pairwise fun a b => ¬(a.owner = b.owner ∧ a.mint = b.mint) :=
  perm.pairwise_iff fun different same => different ⟨same.1.symm, same.2.symm⟩

theorem singlePairs_put_old (single : tables.SinglePairs) {row old : AccountRow}
    (found : tables.accounts.find? row.address = some old) (owner : row.owner = old.owner)
    (mint : row.mint = old.mint) :
    SinglePairs { tables with accounts := tables.accounts.put row } := by
  -- the pair of the new row has been the old one's, so all others differ from it already
  obtain ⟨others, before, after⟩ := Index.perm_put_old found
  rw [SinglePairs, singlePairs_perm before, List.pairwise_cons] at single
  rw [SinglePairs, singlePairs_perm after, List.pairwise_cons, owner, mint]
  exact single

theorem singlePairs_updateMint (single : tables.SinglePairs) {update : Update MintRecord}
    {next : Tables} (done : tables.updateMint update = .ok next) : next.SinglePairs := by
  simp only [updateMint, bind_eq_ok_iff] at done
  obtain ⟨_, _, _, _, done⟩ := done
  split at done <;> cases done <;> exact single

theorem singlePairs_updateAccount (single : tables.SinglePairs) {update : Update AccountRecord}
    {next : Tables} (done : tables.updateAccount update = .ok next) : next.SinglePairs := by
  simp only [updateAccount, bind_eq_ok_iff] at done
  obtain ⟨_, _, _, _, done⟩ := done
  split at done
  · cases done
    exact single
  next row found =>
    cases done
    have place : row.address = update.after.address.toBytes := Index.key_of_find? found
    exact singlePairs_put_old single ((congrArg _ place).trans found) rfl rfl

theorem singlePairs_answer (single : tables.SinglePairs) (call : StoreCall) :
    (RecordStore.answer call tables).2.SinglePairs := by
  cases call with
  | insertMint mint =>
    simp only [RecordStore.answer, insertMint]
    split <;> exact single
  | insertAccount account =>
    simp only [RecordStore.answer, insertAccount]
    split
    next inserted answered =>
      split at answered
      · cases answered
        exact single
      next free =>
        split at answered
        · cases answered
        · cases answered
          -- rows are refused for their pair as they are for their address
          obtain ⟨free, unpaired⟩ := not_or.mp free
          simp only [Bool.not_eq_true, Option.isSome_eq_false_iff,
            Option.isNone_iff_eq_none] at free
          simp only [hasPair, List.any_eq_true, decide_eq_true_eq, not_exists, not_and] at unpaired
          rw [SinglePairs, singlePairs_perm (Index.perm_put_new free), List.pairwise_cons]
          exact ⟨fun row member same => unpaired row member same.1.symm same.2.symm, single⟩
    · exact single
  | commit batch =>
    simp only [RecordStore.answer]
    cases committed : tables.commit batch with
    | ok next =>
      obtain ⟨between, mints, accounts⟩ := bind_eq_ok_iff.mp committed
      have single :=
        foldlM_keeps (fun single done => singlePairs_updateMint single done) single mints
      exact foldlM_keeps (fun single done => singlePairs_updateAccount single done) single accounts
    | error e => exact single
  | _ => exact single

end Tables

/-- Whether a store is a database whose rows for accounts are all of different pairs. -/
def AnyStore.SinglePairs : AnyStore → Prop
  | .memory _ => False
  | .database db => ∀ tables, db.tables = some tables → tables.SinglePairs

theorem AnyStore.singlePairs_answer (call : StoreCall) {store : AnyStore}
    (single : store.SinglePairs) : (RecordStore.answer call store).2.SinglePairs := by
  cases store with
  | memory store => exact single.elim
  | database db =>
    obtain ⟨_ | tables, others, triggers⟩ := db
    · exact single
    · rintro _ ⟨⟩
      exact Tables.singlePairs_answer (single tables rfl) call

theorem AnyStore.Holds.singlePairs {store : AnyStore} {records : MemoryStore}
    (holds : store.Holds records) (single : store.SinglePairs) {a b : AccountRecord}
    (at_a : a ∈ records.accounts.items) (at_b : b ∈ records.accounts.items) (different : a ≠ b) :
    ¬(a.owner = b.owner ∧ a.mint = b.mint) := by
  cases holds with
  | memory => exact single.elim
  | database rows =>
    have rows_single := single _ rows
    unfold Tables.SinglePairs at rows_single
    rw [show records.toTables.accounts.items =
        records.accounts.items.map AccountRecord.toRow from rfl,
      List.pairwise_map] at rows_single
    simp only [AccountRecord.toRow, Principal.toBytes_inj, MintAddress.toBytes_inj] at rows_single
    have symmetric : Std.Symm fun a b : AccountRecord => ¬(a.owner = b.owner ∧ a.mint = b.mint) :=
      ⟨fun a b different same => different ⟨same.1.symm, same.2.symm⟩⟩
    exact rows_single.forall at_a at_b different

/-! ## Accounts and their creation -/

/-- Whether the account of an owner for a mint is at an address. -/
def MemoryStore.HasAccountFor (records : MemoryStore) (owner : Principal) (mint : MintAddress)
    (address : AccountAddress) : Prop :=
  ∃ account, records.getAccount address = some account ∧ account.owner = owner ∧
    account.mint = mint

/-- Whether an owner has two accounts for a mint. -/
def MemoryStore.TwoAccounts (records : MemoryStore) (owner : Principal) (mint : MintAddress) :
    Prop :=
  ∃ a ∈ records.accounts.items, ∃ b ∈ records.accounts.items, a ≠ b ∧
    (a.owner = owner ∧ a.mint = mint) ∧ b.owner = owner ∧ b.mint = mint

namespace Posting

variable {ns : Bytes} {signer owner : Principal} {operation : Operation} {mint : MintAddress}
  {address : AccountAddress} {before after : MemoryStore}

theorem of_createAccount (posting : Posting ns signer (.createAccount mint owner) before after) :
    before.getAccount (.derive ns owner mint) = none ∧
      after = before.putAccount (.create ns owner mint) := by
  cases posting with
  | createAccount known free => exact ⟨free, rfl⟩

theorem hasAccountFor_iff (posting : Posting ns signer operation before after) :
    after.HasAccountFor owner mint address ↔ before.HasAccountFor owner mint address ∨
      operation = .createAccount mint owner ∧ .derive ns owner mint = address := by
  have kept := @(Authorized.of_posting posting).account_kept
  constructor
  · rintro ⟨new, stored, rfl, rfl⟩
    cases old_stored : before.getAccount address with
    | some old =>
      obtain ⟨new', stored', same⟩ := kept old_stored
      cases stored.symm.trans stored'
      exact .inl ⟨old, old_stored, same.2.1, same.2.2⟩
    | none =>
      -- nothing but a creation adds an account
      obtain ⟨rfl, _⟩ := posting.account_created old_stored stored
      obtain ⟨_, rfl⟩ := posting.of_createAccount
      rw [MemoryStore.getAccount_putAccount] at stored
      split at stored
      next here => exact .inr ⟨rfl, here⟩
      · cases old_stored.symm.trans stored
  · rintro (⟨old, stored, rfl, rfl⟩ | ⟨rfl, rfl⟩)
    · obtain ⟨new, stored', same⟩ := kept stored
      exact ⟨new, stored', same.2.1.symm, same.2.2.symm⟩
    · obtain ⟨_, rfl⟩ := posting.of_createAccount
      refine ⟨.create ns owner mint, ?_, rfl, rfl⟩
      rw [MemoryStore.getAccount_putAccount]
      exact if_pos rfl

end Posting

/-- Whether a process has created the account of an owner for a mint, at its ledger's
    address for it. -/
def Process.Created (owner : Principal) (mint : MintAddress) (p : Process) : Prop :=
  p.writes ≠ 0 ∧ p.request.operation = .createAccount mint owner

instance (owner : Principal) (mint : MintAddress) (p : Process) :
    Decidable (p.Created owner mint) := inferInstanceAs (Decidable (_ ∧ _))

/-- One for a request that creates the account of an owner for a mint at an address. -/
def creation (owner : Principal) (mint : MintAddress) (address : AccountAddress) (ledger : Ledger)
    (request : Request) : Int :=
  if request.operation = .createAccount mint owner ∧ ledger.accountAddress owner mint = address
  then 1 else 0

namespace SharedStore

open Classical in
/-- Whether the accounts that are there have been created once, and no others ever. -/
def CreatedOnce (records : MemoryStore) (tally : (Ledger → Request → Int) → Int) : Prop :=
  ∀ owner mint address,
    tally (creation owner mint address) = if records.HasAccountFor owner mint address then 1 else 0

theorem createdOnce_start (store : AnyStore) : CreatedOnce .empty (start store).tally := by
  intro owner mint address
  refine (if_neg ?_).symm
  rintro ⟨account, stored, _⟩
  cases stored

theorem CreatedOnce.advances {d : Discipline} {before after : MemoryStore}
    {tally tally' : (Ledger → Request → Int) → Int} (created : CreatedOnce before tally)
    (advances : Advances d before tally after tally') : CreatedOnce after tally' := by
  classical
  intro owner mint address
  cases advances with
  | quiet same uncounted => rw [uncounted, created, same]
  | @posted ledger request allowed posts tallied =>
    obtain ⟨signer, _, posting⟩ := posts
    have change : after.HasAccountFor owner mint address ↔ _ := posting.hasAccountFor_iff
    rw [tallied, created, creation]
    by_cases creates : request.operation = .createAccount mint owner ∧
        ledger.accountAddress owner mint = address
    · -- the address was free, so this is the first time
      have absent : ¬before.HasAccountFor owner mint address := by
        rintro ⟨account, stored, _⟩
        obtain ⟨asked, rfl⟩ := creates
        rw [asked] at posting
        cases posting.of_createAccount.1.symm.trans stored
      rw [if_neg absent, if_pos creates, if_pos (change.mpr (.inr creates))]
      rfl
    · have same : after.HasAccountFor owner mint address ↔
          before.HasAccountFor owner mint address :=
        change.trans (or_iff_left creates)
      rw [if_neg creates, Int.add_zero]
      exact if_congr same.symm rfl rfl

theorem weight_creation_nonneg (owner : Principal) (mint : MintAddress) (address : AccountAddress)
    (p : Process) : 0 ≤ p.weight (creation owner mint address) := by
  unfold Process.weight creation
  split <;> simp

theorem tally_creation_ne_zero_iff {shared : SharedStore} {owner : Principal} {mint : MintAddress}
    {address : AccountAddress} :
    shared.tally (creation owner mint address) ≠ 0 ↔
      ∃ p ∈ shared.processes, p.Created owner mint ∧
        p.ledger.accountAddress owner mint = address := by
  have weighs : ∀ p : Process, p.weight (creation owner mint address) ≠ 0 ↔
      p.Created owner mint ∧ p.ledger.accountAddress owner mint = address := by
    intro p
    simp only [Process.weight, creation, Process.Created, mul_ite, mul_one, mul_zero, ne_eq,
      ite_eq_right_iff, Int.natCast_eq_zero, Classical.not_imp]
    tauto
  constructor
  · intro counted
    by_contra none
    refine counted (List.sum_eq_zero fun weight member => ?_)
    obtain ⟨p, running, rfl⟩ := List.mem_map.mp member
    by_contra weighty
    exact none ⟨p, running, (weighs p).mp weighty⟩
  · rintro ⟨p, running, created⟩
    have weighty := (weighs p).mpr created
    have least : p.weight (creation owner mint address) ≤
        shared.tally (creation owner mint address) := by
      refine List.single_le_sum ?_ _ (List.mem_map.mpr ⟨p, running, rfl⟩)
      intro weight member
      obtain ⟨q, _, rfl⟩ := List.mem_map.mp member
      exact weight_creation_nonneg owner mint address q
    have := weight_creation_nonneg owner mint address p
    omega

theorem run_store {keeps : AnyStore → Prop}
    (calls : ∀ call {store : AnyStore}, keeps store → keeps (RecordStore.answer call store).2)
    {shared : SharedStore} (holds : keeps shared.store) (actions : List Action) :
    keeps (shared.run actions).store := by
  induction actions generalizing shared with
  | nil => exact holds
  | cons action rest ih =>
    refine @ih (shared.act action) ?_
    cases action with
    | request ledger request => exact holds
    | turn index =>
      cases found : shared.processes[index]? with
      | none =>
        simp only [act, found]
        exact holds
      | some p =>
        simp only [act, found, step]
        split
        · exact holds
        · exact calls _ holds
        · exact holds
        · exact holds

/-- The accounts after a run are those that processes have created. -/
theorem hasAccountFor_iff_created {store : AnyStore} (empty : store.IsEmpty)
    (actions : List Action) :
    ∃ records, ((start store).run actions).store.Holds records ∧
      ∀ owner mint address, records.HasAccountFor owner mint address ↔
        ∃ p ∈ ((start store).run actions).processes,
          p.Created owner mint ∧ p.ledger.accountAddress owner mint = address := by
  have first := @keeps_start .any _ _ empty.holds .empty
  obtain ⟨records, keeps, created⟩ := run_keeps CreatedOnce.advances first
    (createdOnce_start store) (asks_any actions)
  refine ⟨records, keeps.holds, fun owner mint address => ?_⟩
  -- what has been counted is one or nothing, by whether the account is there
  rw [← tally_creation_ne_zero_iff, created owner mint address]
  split
  next there => simp [there]
  next absent => simp [absent]

/-- Whether two ledgers that put the account of an owner for a mint at different
    addresses have both created it. -/
def Rivals (shared : SharedStore) (owner : Principal) (mint : MintAddress) : Prop :=
  ∃ p ∈ shared.processes, ∃ q ∈ shared.processes, p.Created owner mint ∧ q.Created owner mint ∧
    p.ledger.accountAddress owner mint ≠ q.ledger.accountAddress owner mint

instance (shared : SharedStore) (owner : Principal) (mint : MintAddress) :
    Decidable (shared.Rivals owner mint) := inferInstanceAs (Decidable (∃ p ∈ _, ∃ q ∈ _, _ ∧ _))

theorem twoAccounts_iff_rivals {shared : SharedStore} {records : MemoryStore}
    (created : ∀ owner mint address, records.HasAccountFor owner mint address ↔
      ∃ p ∈ shared.processes, p.Created owner mint ∧ p.ledger.accountAddress owner mint = address)
    (owner : Principal) (mint : MintAddress) :
    records.TwoAccounts owner mint ↔ shared.Rivals owner mint := by
  constructor
  · rintro ⟨a, at_a, b, at_b, different, owned, owned'⟩
    have stored : records.getAccount a.address = some a := Index.find?_of_mem at_a
    have stored' : records.getAccount b.address = some b := Index.find?_of_mem at_b
    obtain ⟨p, running, made, here⟩ := (created _ _ _).mp ⟨a, stored, owned⟩
    obtain ⟨q, running', made', here'⟩ := (created _ _ _).mp ⟨b, stored', owned'⟩
    refine ⟨p, running, q, running', made, made', fun same => different ?_⟩
    rw [← here, same, here', stored', Option.some.injEq] at stored
    exact stored.symm
  · rintro ⟨p, running, q, running', made, made', elsewhere⟩
    obtain ⟨a, stored, owned⟩ := (created _ _ _).mpr ⟨p, running, made, rfl⟩
    obtain ⟨b, stored', owned'⟩ := (created _ _ _).mpr ⟨q, running', made', rfl⟩
    refine ⟨a, Index.mem_of_find? stored, b, Index.mem_of_find? stored', ?_, owned, owned'⟩
    rintro rfl
    exact elsewhere ((MemoryStore.address_of_getAccount stored).symm.trans
      (MemoryStore.address_of_getAccount stored'))

/-- An owner comes to have two accounts for one mint just if the store is in memory and
    ledgers of different namespaces have created one each. -/
theorem two_accounts_iff {store : AnyStore} (empty : store.IsEmpty) (actions : List Action) :
    ∃ records, ((start store).run actions).store.Holds records ∧ ∀ owner mint,
      records.TwoAccounts owner mint ↔
        (∃ records, store = .memory records) ∧ ((start store).run actions).Rivals owner mint := by
  obtain ⟨records, holds, created⟩ := hasAccountFor_iff_created empty actions
  refine ⟨records, holds, fun owner mint => ?_⟩
  rw [twoAccounts_iff_rivals created]
  refine (and_iff_right_of_imp fun rivals => ?_).symm
  cases store with
  | memory records => exact ⟨records, rfl⟩
  | database db =>
    -- rivals would have made two rows of one pair, and tables never have them
    have single : ((start (.database db)).run actions).store.SinglePairs := by
      refine run_store AnyStore.singlePairs_answer ?_ actions
      intro tables there
      cases (show db.tables = some .empty from empty).symm.trans there
      exact .nil
    obtain ⟨a, at_a, b, at_b, different, owned, owned'⟩ :=
      (twoAccounts_iff_rivals created owner mint).mpr rivals
    exact absurd ⟨owned.1.trans owned'.1.symm, owned.2.trans owned'.2.symm⟩
      (holds.singlePairs single at_a at_b different)

/-- Two ledgers of different namespaces create the account of an owner for a mint, one
    after the other. -/
def rivalCreations (mint : MintAddress) (authority owner : Principal) : List Action :=
  let another : Ledger := { config := { ns := Bytes.ofText "vault" } }
  .request {} (.act authority (.createMint mint 0)) :: .replicate 4 (.turn 0) ++
    .request {} (.act authority (.createAccount mint owner)) :: .replicate 5 (.turn 1) ++
    .request another (.act authority (.createAccount mint owner)) :: .replicate 5 (.turn 2)

theorem rivals_rivalCreations :
    ((start .emptyMemory).run
      (rivalCreations ⟨.replicate 2⟩ ⟨.replicate 1⟩ ⟨.replicate 3⟩)).Rivals
        ⟨.replicate 3⟩ ⟨.replicate 2⟩ := by
  decide +kernel

theorem two_accounts_iff_rivalCreations :
    AnyStore.emptyMemory.IsEmpty ∧ ∃ records,
      ((start .emptyMemory).run
        (rivalCreations ⟨.replicate 2⟩ ⟨.replicate 1⟩ ⟨.replicate 3⟩)).store.Holds records ∧
      records.TwoAccounts ⟨.replicate 3⟩ ⟨.replicate 2⟩ := by
  obtain ⟨records, holds, two⟩ := two_accounts_iff AnyStore.isEmpty_emptyMemory
    (rivalCreations ⟨.replicate 2⟩ ⟨.replicate 1⟩ ⟨.replicate 3⟩)
  exact ⟨rfl, records, holds, (two _ _).mpr ⟨⟨_, rfl⟩, rivals_rivalCreations⟩⟩

theorem not_always_one_account :
    ¬∀ (store : AnyStore) (actions : List Action), store.IsEmpty → ∀ records,
      ((start store).run actions).store.Holds records → ∀ a ∈ records.accounts.items,
        ∀ b ∈ records.accounts.items, a.owner = b.owner → a.mint = b.mint → a = b := by
  intro always
  obtain ⟨records, holds, created⟩ := hasAccountFor_iff_created AnyStore.isEmpty_emptyMemory
    (rivalCreations ⟨.replicate 2⟩ ⟨.replicate 1⟩ ⟨.replicate 3⟩)
  obtain ⟨a, at_a, b, at_b, different, owned, owned'⟩ :=
    (twoAccounts_iff_rivals created _ _).mpr rivals_rivalCreations
  exact different (always _ _ AnyStore.isEmpty_emptyMemory records holds a at_a b at_b
    (owned.1.trans owned'.1.symm) (owned.2.trans owned'.2.symm))

end SharedStore

end TokenLedger
