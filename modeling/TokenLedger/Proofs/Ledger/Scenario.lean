import TokenLedger.Ledger.Scenario
import TokenLedger.Proofs.Derivation
import TokenLedger.Proofs.Ledger.Amid
import TokenLedger.Proofs.Ledger.Backends

/-! # How many holders a scenario can have

A scenario creates an account for each of its holders, one after the other, and each
creation succeeds just if no holder before has the same address (`comesTo_mapM_createAccount`,
`comesTo_mapM_createAccount_repeated`).  The addresses are apart as long as the seeds
are.  A seed is a number in one byte, so the first 256 holders have seeds of their own
(`nodup_seeds_iff`), and the next one is the first holder again.
-/

namespace TokenLedger

open TokenLedger.Derivation LedgerProgram

/-! ## Programs that write without a commit -/

namespace LedgerProgram

variable {α β : Type} {x : LedgerProgram α} {f : α → LedgerProgram β}
  {store between left : AnyStore} {records : MemoryStore} {a : α} {e : Failure}
  {result : Except Failure β}

/-- Whether a program comes to a result and leaves a store, with no commit that others
    could get in the way of. -/
def ComesTo (x : LedgerProgram α) (store : AnyStore) (result : Except Failure α)
    (left : AnyStore) : Prop :=
  ∀ meanwhile, x.amid meanwhile store = ⟨result, left, []⟩

theorem Reads.comesTo {result : Except Failure α} (reads : x.Reads store result) :
    x.ComesTo store result store := reads

theorem ComesTo.alone {result : Except Failure α} (comes : x.ComesTo store result left) :
    (Program.run x.run store).result = result ∧ (Program.run x.run store).store = left := by
  obtain ⟨same, same'⟩ := Program.amid_alone x.run store
  have ran : x.run.amid (fun _ => id) store = _ := comes fun _ => id
  rw [← same, ← same', ran]
  exact ⟨rfl, rfl⟩

theorem ComesTo.bind (first : x.ComesTo store (.ok a) between)
    (rest : (f a).ComesTo between result left) : (x >>= f).ComesTo store result left := by
  intro meanwhile
  rw [amid_bind_ok (first meanwhile), rest]
  rfl

theorem ComesTo.stop (first : x.ComesTo store (.error e) left) :
    (x >>= f).ComesTo store (.error e) left :=
  fun meanwhile => amid_bind_error (first meanwhile)

/-- What succeeds needs no handler. -/
theorem ComesTo.tryCatch {handler : Failure → LedgerProgram α}
    (first : x.ComesTo store (.ok a) left) :
    (tryCatch x handler).ComesTo store (.ok a) left := by
  intro meanwhile
  have ran : x.run.amid meanwhile store = _ := first meanwhile
  refine (Program.amid_bind x.run _ meanwhile store).trans ?_
  rw [ran]
  rfl

theorem comesTo_call {request : StoreCall} {answer : request.Answer}
    (single : ∀ batch, request ≠ .commit batch)
    (replied : RecordStore.answer request store = (.ok answer, left)) :
    (call request).ComesTo store (.ok answer) left := by
  intro meanwhile
  have asked := @amid_reply store meanwhile request single
  rw [replied] at asked
  exact amid_bind_ok asked

theorem reads_mapM {g : α → LedgerProgram β} {look : α → Except Failure β}
    (each : ∀ item, (g item).Reads store (look item)) (items : List α) :
    (items.mapM g).Reads store (items.mapM look) := by
  induction items with
  | nil => exact reads_pure []
  | cons item rest ih =>
    rw [List.mapM_cons, List.mapM_cons]
    exact (each item).bind fun _ _ => ih.bind fun _ _ => reads_pure _

end LedgerProgram

/-! ## Creating records -/

theorem MemoryStore.Derived.createAccount {ns : Bytes} {records : MemoryStore}
    (derived : records.Derived ns) {mint : MintAddress} {mintRecord : MintRecord}
    {owner : Principal}
    (known : records.getMint mint = some mintRecord)
    (free : records.getAccount (.derive ns owner mint) = none) :
    (records.putAccount (.create ns owner mint)).Derived ns :=
  have posting : Posting ns owner (.createAccount mint owner) records _ := .createAccount known free
  posting.derived derived

namespace Ledger

variable {ledger : Ledger} {store : AnyStore} {records : MemoryStore} {mint : MintAddress}

theorem comesTo_createMint (holds : store.Holds records) (free : records.getMint mint = none)
    (decimals : UInt8) (authority : Principal) :
    let mintRecord := MintRecord.empty mint authority decimals
    ∃ left, left.Holds (records.putMint mintRecord) ∧
      (createMint mint decimals authority).ComesTo store (.ok mintRecord) left := by
  intro mintRecord
  have inserted : RecordStore.answer (.insertMint mintRecord) records =
      (.ok .inserted, records.putMint mintRecord) := by
    have at_address : records.getMint mintRecord.address = none := free
    simp only [RecordStore.answer, MemoryStore.insertMint, at_address, MemoryStore.putMint]
  have agree : (RecordStore.answer (.insertMint mintRecord) store).1 = _ ∧ _ :=
    AnyStore.answer_eq holds trivial (by rintro _ ⟨⟩)
  rw [inserted] at agree
  obtain ⟨same, held⟩ := agree
  refine ⟨_, held, ?_⟩
  refine (reads_lock _).comesTo.bind ((comesTo_call (by simp) (Prod.ext same rfl)).bind ?_)
  exact (reads_note _).comesTo.bind (reads_pure _).comesTo

/-- A mint that may be anywhere is at the first address, if that is free. -/
theorem comesTo_createMintAnywhere (holds : store.Holds records)
    (free : records.getMint mint = none) (decimals : UInt8) (authority : Principal)
    (others : List MintAddress) :
    ∃ left, left.Holds (records.putMint (.empty mint authority decimals)) ∧
      (createMintAnywhere decimals authority mint others).ComesTo store
        (.ok (.empty mint authority decimals)) left := by
  obtain ⟨left, held, created⟩ := comesTo_createMint holds free decimals authority
  refine ⟨left, held, ?_⟩
  rw [createMintAnywhere]
  cases others.take (maxAddressAttempts - 1) with
  | nil => exact created
  | cons next rest => exact created.tryCatch

section Account

variable {mintRecord : MintRecord} (holds : store.Holds records)
  (derived : records.Derived ledger.config.ns) (known : records.getMint mint = some mintRecord)

include holds derived known

/-- What an insertion of the owner's account comes to, on any store. -/
theorem answer_insertAccount (owner : Principal) :
    let account := AccountRecord.create ledger.config.ns owner mint
    (RecordStore.answer (.insertAccount account) store).1 = .ok (records.insertAccount account).1 ∧
      (RecordStore.answer (.insertAccount account) store).2.Holds
        (records.insertAccount account).2 := by
  intro account
  refine AnyStore.answer_eq holds trivial ?_
  rintro _ ⟨⟩
  exact derived.accepts (derived.createAccount known)

theorem comesTo_createAccount (owner payer : Principal)
    (free : records.getAccount (ledger.accountAddress owner mint) = none) :
    ∃ left, left.Holds (records.putAccount (.create ledger.config.ns owner mint)) ∧
      (ledger.createAccount mint owner payer).ComesTo store
        (.ok (.create ledger.config.ns owner mint)) left := by
  obtain ⟨same, held⟩ := answer_insertAccount holds derived known owner
  rw [MemoryStore.insertAccount_none free] at same held
  refine ⟨_, held, ?_⟩
  have found := reads_call (by simp) rfl (holds.getMint mint)
  rw [known] at found
  refine (reads_lock _).comesTo.bind (found.comesTo.bind ?_)
  refine (comesTo_call (by simp) (Prod.ext same rfl)).bind ?_
  exact (reads_note _).comesTo.bind (reads_pure _).comesTo

theorem comesTo_createAccount_taken (owner payer : Principal) {old : AccountRecord}
    (taken : records.getAccount (ledger.accountAddress owner mint) = some old) :
    ∃ left, left.Holds records ∧
      (ledger.createAccount mint owner payer).ComesTo store
        (.error (.rejected (.alreadyExists (.account (ledger.accountAddress owner mint)))))
        left := by
  obtain ⟨same, held⟩ := answer_insertAccount holds derived known owner
  rw [MemoryStore.insertAccount_some taken] at same held
  refine ⟨_, held, ?_⟩
  have found := reads_call (by simp) rfl (holds.getMint mint)
  rw [known] at found
  refine (reads_lock _).comesTo.bind (found.comesTo.bind ?_)
  refine (comesTo_call (by simp) (Prod.ext same rfl)).bind ?_
  exact (reads_note _).comesTo.bind fun _ => rfl

end Account

end Ledger

/-! ## One account after the other -/

namespace Fixture

variable {fixture : Fixture} {store : AnyStore} {records : MemoryStore} {mint : MintAddress}
  {mintRecord : MintRecord} {holders : List Keypair}

/-- The address of a holder's account. -/
def place (fixture : Fixture) (mint : MintAddress) (holder : Keypair) : AccountAddress :=
  fixture.ledger.accountAddress holder.principal mint

/-- Whether some records are others with the empty accounts of some holders. -/
structure Admitted (fixture : Fixture) (mint : MintAddress) (holders : List Keypair)
    (records after : MemoryStore) : Prop where
  derived : after.Derived fixture.ledger.config.ns
  mints : ∀ address, after.getMint address = records.getMint address
  here : ∀ holder ∈ holders, after.getAccount (fixture.place mint holder) =
    some (.create fixture.ledger.config.ns holder.principal mint)
  elsewhere : ∀ address, address ∉ holders.map (fixture.place mint) →
    after.getAccount address = records.getAccount address

section Known

variable (holds : store.Holds records) (derived : records.Derived fixture.ledger.config.ns)
  (known : records.getMint mint = some mintRecord)

include holds derived known

/-- Holders whose addresses are free and apart all get their accounts. -/
theorem comesTo_mapM_createAccount (apart : (holders.map (fixture.place mint)).Nodup)
    (free : ∀ holder ∈ holders, records.getAccount (fixture.place mint holder) = none) :
    ∃ left after, left.Holds after ∧ fixture.Admitted mint holders records after ∧
      (holders.mapM (fixture.createAccount mint)).ComesTo store
        (.ok (holders.map (fixture.place mint))) left := by
  induction holders generalizing store records with
  | nil =>
    have same : fixture.Admitted mint [] records records :=
      ⟨derived, fun _ => rfl, by simp, fun _ _ => rfl⟩
    exact ⟨store, records, holds, same, reads_pure []⟩
  | cons holder rest ih =>
    obtain ⟨unused, apart⟩ := List.nodup_cons.mp apart
    obtain ⟨free, rest_free⟩ := List.forall_mem_cons.mp free
    obtain ⟨between, held, created⟩ := Ledger.comesTo_createAccount holds derived known
      holder.principal holder.principal free
    have derived' := derived.createAccount known free
    -- a new account is in nobody's way, as the later holders have addresses of their own
    have still_free : ∀ later ∈ rest, (records.putAccount (.create fixture.ledger.config.ns
        holder.principal mint)).getAccount (fixture.place mint later) = none := by
      intro later member
      have other : fixture.place mint holder ≠ fixture.place mint later := by
        intro same
        rw [same] at unused
        exact unused (List.mem_map_of_mem member)
      exact (MemoryStore.getAccount_putAccount _ _ _).trans
        ((if_neg other).trans (rest_free later member))
    obtain ⟨left, after, held, admitted, rest_created⟩ := ih held derived' known apart still_free
    refine ⟨left, after, held, ⟨admitted.derived, admitted.mints, ?_, ?_⟩, ?_⟩
    · refine List.forall_mem_cons.mpr ⟨?_, admitted.here⟩
      rw [admitted.elsewhere _ unused]
      exact (MemoryStore.getAccount_putAccount _ _ _).trans (if_pos rfl)
    · intro address outside
      obtain ⟨other, outside⟩ := not_or.mp (mt List.mem_cons.mpr outside)
      rw [admitted.elsewhere address outside]
      exact (MemoryStore.getAccount_putAccount _ _ _).trans (if_neg (Ne.symm other))
    · have first : (fixture.createAccount mint holder).ComesTo store
          (.ok (fixture.place mint holder)) between := created.bind (reads_pure _).comesTo
      rw [List.mapM_cons]
      exact first.bind (rest_created.bind (reads_pure _).comesTo)

/-- The first holder whose address an earlier one has gets no account, nor does any after. -/
theorem comesTo_mapM_createAccount_repeated {front : List Keypair} {holder : Keypair}
    (rest : List Keypair) (apart : (front.map (fixture.place mint)).Nodup)
    (free : ∀ holder ∈ front, records.getAccount (fixture.place mint holder) = none)
    (repeated : fixture.place mint holder ∈ front.map (fixture.place mint)) :
    ∃ left, ((front ++ holder :: rest).mapM (fixture.createAccount mint)).ComesTo store
      (.error (.rejected (.alreadyExists (.account (fixture.place mint holder))))) left := by
  obtain ⟨between, after, held, admitted, created⟩ :=
    comesTo_mapM_createAccount holds derived known apart free
  obtain ⟨earlier, member, same⟩ := List.mem_map.mp repeated
  have taken := admitted.here earlier member
  rw [same] at taken
  obtain ⟨left, _, refused⟩ := Ledger.comesTo_createAccount_taken held admitted.derived
    ((admitted.mints mint).trans known) holder.principal holder.principal taken
  refine ⟨left, ?_⟩
  rw [List.mapM_append, List.mapM_cons]
  exact created.bind refused.stop.stop.stop

end Known

end Fixture

/-! ## Seeds -/

/-- A list that is not apart has a first member that is there before. -/
theorem exists_first_repeated {α β : Type} {f : α → β} {items : List α}
    (repeats : ¬(items.map f).Nodup) :
    ∃ front item rest, items = front ++ item :: rest ∧ (front.map f).Nodup ∧
      f item ∈ front.map f := by
  induction items using List.reverseRecOn with
  | nil => exact absurd List.nodup_nil repeats
  | append_singleton front item ih =>
    -- the last member is the first to repeat only if no member before it does
    by_cases apart : (front.map f).Nodup
    · refine ⟨front, item, [], rfl, apart, ?_⟩
      by_contra single
      rw [List.map_append, List.map_singleton, ← List.concat_eq_append] at repeats
      exact repeats (apart.concat single)
    · obtain ⟨first, earlier, rest, rfl, apart, again⟩ := ih apart
      exact ⟨first, earlier, rest ++ [item], by simp, apart, again⟩

/-- The holders of a scenario with so many of them. -/
def firstHolders (count : Nat) : List Keypair := (List.range count).map Keypair.ofNumber

theorem Keypair.ofNumber_inj {m n : Nat} : ofNumber m = ofNumber n ↔ m % 256 = n % 256 := by
  constructor
  · intro same
    have seeds : Bytes32.ofNatLE (m % 256) = Bytes32.ofNatLE (n % 256) := congrArg seed same
    have numbers := congrArg Bytes32.toNatLE seeds
    rwa [Bytes32.toNatLE_ofNatLE (by omega), Bytes32.toNatLE_ofNatLE (by omega)] at numbers
  · intro same
    rw [ofNumber, ofNumber, same]

theorem nodup_firstHolders {count : Nat} (few : count ≤ 256) : (firstHolders count).Nodup := by
  refine List.Nodup.map_on ?_ List.nodup_range
  intro m small n small' same
  have small := List.mem_range.mp small
  have small' := List.mem_range.mp small'
  have numbers := Keypair.ofNumber_inj.mp same
  omega

/-- After the first 256 holders comes the first again. -/
theorem firstHolders_eq_append {count : Nat} (many : 256 < count) :
    ∃ rest, firstHolders count = firstHolders 256 ++ Keypair.ofNumber 0 :: rest := by
  obtain ⟨more, rfl⟩ := Nat.exists_eq_add_of_lt many
  have again : Keypair.ofNumber 0 = Keypair.ofNumber 256 := Keypair.ofNumber_inj.mpr rfl
  refine ⟨(List.range more).map fun n => Keypair.ofNumber (256 + (n + 1)), ?_⟩
  have later : List.range (more + 1) = 0 :: (List.range more).map Nat.succ := List.range_succ_eq_map
  rw [firstHolders, Nat.add_assoc, List.range_add, List.map_append, later, again]
  simp [firstHolders, Function.comp_def]

theorem nodup_firstHolders_iff {count : Nat} : (firstHolders count).Nodup ↔ count ≤ 256 := by
  refine ⟨fun apart => ?_, nodup_firstHolders⟩
  by_contra many
  obtain ⟨rest, split⟩ := firstHolders_eq_append (Nat.lt_of_not_le many)
  rw [split] at apart
  -- the first holder is in front of itself
  have twice := List.disjoint_of_nodup_append apart
  exact twice (List.mem_map_of_mem (List.mem_range.mpr (by decide))) (List.mem_cons_self ..)

theorem nodup_seeds_iff {count : Nat} :
    ((firstHolders count).map (·.seed)).Nodup ↔ count ≤ 256 := by
  refine ⟨fun apart => nodup_firstHolders_iff.mp (apart.of_map _), fun few => ?_⟩
  refine (nodup_firstHolders few).map_on ?_
  rintro ⟨seed⟩ _ ⟨seed'⟩ _ same
  exact congrArg Keypair.mk same

/-! ## Scenarios -/

namespace Scenario

variable {count : Nat} {store : AnyStore} {candidate : MintAddress}

/-- The fixture of every scenario. -/
def usual : Fixture := { authority }

/-- What a scenario's store holds before the first account is created. -/
def minted (mint : MintAddress) : MemoryStore :=
  MemoryStore.empty.putMint (.empty mint authority.principal 0)

theorem derived_minted (mint : MintAddress) : (minted mint).Derived usual.ledger.config.ns :=
  have posting : Posting usual.ledger.config.ns authority.principal (.createMint mint 0) .empty
      (minted mint) := .createMint rfl
  posting.derived .empty

theorem getMint_minted (mint : MintAddress) :
    (minted mint).getMint mint = some (.empty mint authority.principal 0) :=
  (MemoryStore.getMint_putMint _ _ _).trans (if_pos rfl)

theorem comesTo_createMint (empty : store.IsEmpty) (candidate : MintAddress)
    (others : List MintAddress) :
    ∃ left, left.Holds (minted candidate) ∧
      (usual.createMint 0 candidate others).ComesTo store (.ok candidate) left := by
  obtain ⟨left, held, created⟩ :=
    Ledger.comesTo_createMintAnywhere empty.holds rfl 0 authority.principal others
  exact ⟨left, held, created.bind (reads_pure _).comesTo⟩

/-- The scenario for so many holders. -/
def standing (count : Nat) (mint : MintAddress) : Scenario where
  fixture := usual
  mint := mint
  holders := firstHolders count
  accounts := (firstHolders count).map (usual.place mint)

/-- If all addresses are apart the scenario is set up. -/
theorem comesTo_create (empty : store.IsEmpty) (others : List MintAddress)
    (apart : ((firstHolders count).map (usual.place candidate)).Nodup) :
    ∃ left after, left.Holds after ∧
      usual.Admitted candidate (firstHolders count) (minted candidate) after ∧
      (create count candidate others).ComesTo store (.ok (standing count candidate)) left := by
  obtain ⟨between, held, created⟩ := comesTo_createMint empty candidate others
  obtain ⟨left, after, held, admitted, accounts⟩ := Fixture.comesTo_mapM_createAccount held
    (derived_minted candidate) (getMint_minted candidate) apart fun _ _ => rfl
  exact ⟨left, after, held, admitted, created.bind (accounts.bind (reads_pure _).comesTo)⟩

/-- The first holder whose address is not apart is in the way. -/
theorem comesTo_create_repeated (empty : store.IsEmpty) (others : List MintAddress)
    {front rest : List Keypair} {holder : Keypair}
    (split : firstHolders count = front ++ holder :: rest)
    (apart : (front.map (usual.place candidate)).Nodup)
    (repeated : usual.place candidate holder ∈ front.map (usual.place candidate)) :
    ∃ left, (create count candidate others).ComesTo store
      (.error (.rejected (.alreadyExists (.account (usual.place candidate holder))))) left := by
  obtain ⟨between, held, created⟩ := comesTo_createMint empty candidate others
  obtain ⟨left, refused⟩ := Fixture.comesTo_mapM_createAccount_repeated held
    (derived_minted candidate) (getMint_minted candidate) rest apart (fun _ _ => rfl) repeated
  rw [← split] at refused
  exact ⟨left, created.bind refused.stop⟩

/-- Whether a scenario can be set up is a matter of addresses alone. -/
theorem create_eq_ok_iff (empty : store.IsEmpty) (others : List MintAddress) :
    (∃ scenario, (Program.run (create count candidate others).run store).result = .ok scenario) ↔
      ((firstHolders count).map (usual.place candidate)).Nodup := by
  constructor
  · rintro ⟨scenario, created⟩
    by_contra repeats
    obtain ⟨front, holder, rest, split, apart, again⟩ := exists_first_repeated repeats
    obtain ⟨left, refused⟩ := comesTo_create_repeated empty others split apart again
    rw [refused.alone.1] at created
    cases created
  · intro apart
    obtain ⟨left, after, _, _, created⟩ := comesTo_create empty others apart
    exact ⟨_, created.alone.1⟩

/-- The snapshot of a scenario that stands: the mint and then the accounts. -/
theorem length_snapshot {left : AnyStore} {after : MemoryStore} (held : left.Holds after)
    (admitted : usual.Admitted candidate (firstHolders count) (minted candidate) after) :
    ∃ entries, (Program.run (standing count candidate).snapshot.run left).result = .ok entries ∧
      entries.length = count + 1 := by
  have reads : (standing count candidate).snapshot.Reads left _ :=
    (reads_loadMint held candidate).bind fun _ _ =>
      (reads_mapM (reads_loadAccount held) _).bind fun _ _ => reads_pure _
  have mint := MemoryStore.mintAt_eq_ok_iff.mpr
    ((admitted.mints candidate).trans (getMint_minted candidate))
  have accounts : (standing count candidate).accounts.mapM after.accountAt =
      .ok ((firstHolders count).map fun holder =>
        .create usual.ledger.config.ns holder.principal candidate) := by
    refine List.mapM_map.trans (mapM_eq_ok fun holder member => ?_)
    exact MemoryStore.accountAt_eq_ok_iff.mpr (admitted.here holder member)
  rw [mint, ok_bind, accounts, ok_bind] at reads
  refine ⟨_, reads.comesTo.alone.1, ?_⟩
  simp [firstHolders]

theorem firstHolders_subset {few : Nat} (fewer : few ≤ count) :
    ∀ holder ∈ firstHolders few, holder ∈ firstHolders count := by
  intro holder member
  obtain ⟨n, small, rfl⟩ := List.mem_map.mp member
  exact List.mem_map_of_mem (List.mem_range.mpr ((List.mem_range.mp small).trans_le fewer))

/-- Nothing about keys and hashes is assumed beyond the holders themselves. -/
theorem nodup_places
    (principals : ∀ a ∈ firstHolders count, ∀ b ∈ firstHolders count,
      a.principal = b.principal → a.seed = b.seed)
    (addresses : ∀ a ∈ firstHolders count, ∀ b ∈ firstHolders count,
      Blake3.Separates (preimage defaultNamespace a.principal candidate)
        (preimage defaultNamespace b.principal candidate))
    (few : count ≤ 256) : ((firstHolders count).map (usual.place candidate)).Nodup := by
  refine (nodup_firstHolders few).map_on ?_
  intro a member b member' same
  obtain ⟨_, owners, _⟩ := (derive_inj (addresses a member b member')).mp same
  have seeds := principals a member b member' owners
  cases a
  cases b
  exact congrArg Keypair.mk seeds

/-- What is there once a scenario is set up. -/
theorem accounts_standing {after : MemoryStore}
    (admitted : usual.Admitted candidate (firstHolders count) (minted candidate) after) :
    List.Forall₂ (fun holder address => ∃ account, after.getAccount address = some account ∧
      account.owner = holder.principal ∧ account.mint = candidate ∧ account.amount = 0)
      (firstHolders count) (standing count candidate).accounts := by
  rw [standing, List.forall₂_map_right_iff, List.forall₂_same]
  exact fun holder member => ⟨_, admitted.here holder member, rfl, rfl, rfl⟩

/-- How many holders a scenario can have: 256 of them have seeds of their own and, where
    seeds have principals of their own and the hash keeps their addresses apart, accounts
    of their own.  With one more the first holder is asked to have a second account. -/
theorem create_iff (count : Nat) (empty : store.IsEmpty) (candidate : MintAddress)
    (others : List MintAddress)
    (principals : ∀ a ∈ firstHolders count, ∀ b ∈ firstHolders count,
      a.principal = b.principal → a.seed = b.seed)
    (addresses : ∀ a ∈ firstHolders count, ∀ b ∈ firstHolders count,
      Blake3.Separates (preimage defaultNamespace a.principal candidate)
        (preimage defaultNamespace b.principal candidate)) :
    let run := Program.run (create count candidate others).run store
    (((firstHolders count).map (·.seed)).Nodup ↔ count ≤ 256) ∧
    ((∃ scenario, run.result = .ok scenario) ↔ count ≤ 256) ∧
    (count ≤ 256 → ∃ scenario records, run.result = .ok scenario ∧ run.store.Holds records ∧
      scenario.holders = firstHolders count ∧
      scenario.accounts.length = count ∧ scenario.accounts.Nodup ∧
      (∃ mint, records.getMint scenario.mint = some mint ∧ mint.supply = 0) ∧
      List.Forall₂ (fun holder address => ∃ account, records.getAccount address = some account ∧
        account.owner = holder.principal ∧ account.mint = scenario.mint ∧ account.amount = 0)
        scenario.holders scenario.accounts ∧
      ∃ entries, (Program.run scenario.snapshot.run run.store).result = .ok entries ∧
        entries.length = count + 1) ∧
    (256 < count → run.result = .error (.rejected (.alreadyExists (.account
      (.deriveDefault (Keypair.ofNumber 0).principal candidate))))) := by
  intro run
  have created : count ≤ 256 → ((firstHolders count).map (usual.place candidate)).Nodup :=
    nodup_places principals addresses
  have refused : 256 < count → run.result = .error (.rejected (.alreadyExists (.account
      (.deriveDefault (Keypair.ofNumber 0).principal candidate)))) := by
    intro many
    obtain ⟨rest, split⟩ := firstHolders_eq_append many
    have earlier := firstHolders_subset many.le
    have apart : ((firstHolders 256).map (usual.place candidate)).Nodup := nodup_places
      (fun a member b member' => principals a (earlier a member) b (earlier b member'))
      (fun a member b member' => addresses a (earlier a member) b (earlier b member')) le_rfl
    have first : Keypair.ofNumber 0 ∈ firstHolders 256 :=
      List.mem_map_of_mem (List.mem_range.mpr (by decide))
    obtain ⟨left, comes⟩ := comesTo_create_repeated empty others split apart
      (List.mem_map_of_mem first)
    exact comes.alone.1
  refine ⟨nodup_seeds_iff, ⟨?_, ?_⟩, ?_, refused⟩
  · rintro ⟨scenario, succeeded⟩
    by_contra many
    rw [refused (Nat.lt_of_not_le many)] at succeeded
    cases succeeded
  · exact fun few => (create_eq_ok_iff empty others).mpr (created few)
  · intro few
    obtain ⟨left, after, held, admitted, comes⟩ := comesTo_create empty others (created few)
    obtain ⟨result, stored⟩ := comes.alone
    refine ⟨standing count candidate, after, result, ?_, rfl, ?_, created few,
      ⟨_, (admitted.mints candidate).trans (getMint_minted candidate), rfl⟩,
      accounts_standing admitted, ?_⟩
    · rw [show run.store = left from stored]
      exact held
    · simp [standing, firstHolders]
    · rw [show run.store = left from stored]
      exact length_snapshot held admitted

/-- Two holders, over a database. -/
theorem create_iff_two :
    let candidate : MintAddress := ⟨.replicate 2⟩
    AnyStore.emptyDatabase.IsEmpty ∧
    (∀ a ∈ firstHolders 2, ∀ b ∈ firstHolders 2, a.principal = b.principal → a.seed = b.seed) ∧
    (∀ a ∈ firstHolders 2, ∀ b ∈ firstHolders 2,
      Blake3.Separates (preimage defaultNamespace a.principal candidate)
        (preimage defaultNamespace b.principal candidate)) ∧
    ∃ scenario, (Program.run (create 2 candidate []).run AnyStore.emptyDatabase).result =
      .ok scenario ∧ scenario.accounts.length = 2 := by
  intro candidate
  have keys : ((firstHolders 2).map (·.principal)).Nodup := by decide +kernel
  have hashes : ((firstHolders 2).map fun holder =>
      Blake3.hash (preimage defaultNamespace holder.principal candidate)).Nodup := by
    decide +kernel
  have principals : ∀ a ∈ firstHolders 2, ∀ b ∈ firstHolders 2,
      a.principal = b.principal → a.seed = b.seed :=
    fun a member b member' same => congrArg _ (List.inj_on_of_nodup_map keys member member' same)
  have addresses : ∀ a ∈ firstHolders 2, ∀ b ∈ firstHolders 2,
      Blake3.Separates (preimage defaultNamespace a.principal candidate)
        (preimage defaultNamespace b.principal candidate) :=
    fun a member b member' same => by rw [List.inj_on_of_nodup_map hashes member member' same]
  obtain ⟨_, _, standing, _⟩ := create_iff 2 AnyStore.isEmpty_emptyDatabase candidate [] principals
    addresses
  obtain ⟨scenario, _, created, _, _, length, _⟩ := standing (by decide)
  exact ⟨AnyStore.isEmpty_emptyDatabase, principals, addresses, scenario, created, length⟩

/-- One holder more than a byte can number: two seeds are the same, and the scenario cannot be
    set up. -/
theorem not_always_created :
    ¬((firstHolders 257).map (·.seed)).Nodup ∧
    ¬∃ scenario, (Program.run (create 257 ⟨.replicate 2⟩ []).run AnyStore.emptyMemory).result =
      .ok scenario := by
  refine ⟨mt nodup_seeds_iff.mp (by decide), ?_⟩
  rw [create_eq_ok_iff AnyStore.isEmpty_emptyMemory]
  exact fun apart => absurd (nodup_firstHolders_iff.mp (apart.of_map _)) (by decide)

end Scenario

end TokenLedger
