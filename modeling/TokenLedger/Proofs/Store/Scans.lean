import TokenLedger.Proofs.Store.AllOrNothing

/-! # Scans agree with look-ups

A store of either kind can be asked for the records at an address, for all accounts of a mint or of
an owner, and for all mints.  What it has at one time it has by all of these: a scan lists, in the
order of their addresses, just the records that are found at their addresses and belong in it
(`Lists`).
-/

namespace TokenLedger

namespace MemoryStore

variable {records : MemoryStore}

theorem mem_listMints_iff {address : MintAddress} :
    address ∈ records.listMints ↔ ∃ mint, records.getMint address = some mint := by
  simp only [listMints, List.mem_map]
  constructor
  · rintro ⟨mint, member, rfl⟩
    exact ⟨mint, mem_mints_iff.mp member⟩
  · rintro ⟨mint, stored⟩
    obtain rfl := address_of_getMint stored
    exact ⟨mint, mem_mints_iff.mpr stored, rfl⟩

end MemoryStore

namespace AnyStore

open RecordStore (after answer HasMint HasAccount)

variable {store : AnyStore} {records : MemoryStore}

/-- Just the accounts of this sort that a store has, by ascending address. -/
structure Lists (store : AnyStore) (sort : AccountRecord → Prop) (scan : List AccountRecord) :
    Prop where
  ascending : scan.Pairwise fun a b => a.address.raw < b.address.raw
  exact : ∀ account, account ∈ scan ↔ sort account ∧ HasAccount store account.address account

/-- An account that a store has is in a scan of its sort once, and in no other. -/
theorem Lists.count {sort : AccountRecord → Prop} [DecidablePred sort] {scan : List AccountRecord}
    (lists : Lists store sort scan) {address : AccountAddress} {account : AccountRecord}
    (here : account.address = address) (stored : HasAccount store address account) :
    scan.count account = if sort account then 1 else 0 := by
  subst here
  have different := Index.nodup (⟨scan, lists.ascending⟩ : Index AccountRecord.key)
  simp only [different.count, lists.exact, stored, and_true]

namespace Holds

theorem hasMint_iff (holds : store.Holds records) {address : MintAddress} {mint : MintRecord} :
    HasMint store address mint ↔ records.getMint address = some mint := by
  rw [HasMint, holds.getMint]
  exact .of_eq (Except.ok.injEq ..)

theorem hasAccount_iff (holds : store.Holds records) {address : AccountAddress}
    {account : AccountRecord} :
    HasAccount store address account ↔ records.getAccount address = some account := by
  rw [HasAccount, holds.getAccount]
  exact .of_eq (Except.ok.injEq ..)

theorem lists (holds : store.Holds records) (sort : AccountRecord → Prop) [DecidablePred sort] :
    Lists store sort (records.accounts.items.filter sort) where
  ascending := records.accounts.sorted.filter _
  exact account := by
    rw [List.mem_filter, MemoryStore.mem_accounts_iff, holds.hasAccount_iff, decide_eq_true_iff,
      and_comm]

end Holds

/-- Whatever calls a store has seen, the scans of a mint and of an owner are ordered and list just
    what is found at addresses, so an account that is stored is in one scan of each kind, once;
    and the list of mints is ordered and has just the addresses where one is found. -/
theorem scans_agree {start : AnyStore} (empty : start.IsEmpty) (calls : List StoreCall) :
    let store := after start calls
    (∀ mint, ∃ scan, (answer (.accountsByMint mint) store).1 = .ok scan ∧
        Lists store (·.mint = mint) scan) ∧
      (∀ owner, ∃ scan, (answer (.accountsByOwner owner) store).1 = .ok scan ∧
        Lists store (·.owner = owner) scan) ∧
      (∃ scan : List MintAddress, (answer .listMints store).1 = .ok scan ∧
        scan.Pairwise (fun a b => a.raw < b.raw) ∧
        ∀ address, address ∈ scan ↔ ∃ mint, HasMint store address mint) ∧
      ∀ address account, HasAccount store address account →
        (∀ mint scan, (answer (.accountsByMint mint) store).1 = .ok scan →
          scan.count account = if account.mint = mint then 1 else 0) ∧
        ∀ owner scan, (answer (.accountsByOwner owner) store).1 = .ok scan →
          scan.count account = if account.owner = owner then 1 else 0 := by
  intro store
  obtain ⟨records, holds⟩ := empty.holds.after calls
  refine ⟨fun mint => ⟨_, holds.accountsByMint mint, holds.lists (·.mint = mint)⟩,
    fun owner => ⟨_, holds.accountsByOwner owner, holds.lists (·.owner = owner)⟩,
    ⟨_, holds.listMints, ?_, fun address => ?_⟩, fun address account stored => ?_⟩
  · rw [MemoryStore.listMints, List.pairwise_map]
    exact records.mints.sorted
  · exact MemoryStore.mem_listMints_iff.trans (exists_congr fun _ => holds.hasMint_iff.symm)
  · have here := MemoryStore.address_of_getAccount (holds.hasAccount_iff.mp stored)
    constructor
    · intro mint scan listed
      obtain rfl := Except.ok.inj ((holds.accountsByMint mint).symm.trans listed)
      exact (holds.lists (·.mint = mint)).count here stored
    · intro owner scan listed
      obtain rfl := Except.ok.inj ((holds.accountsByOwner owner).symm.trans listed)
      exact (holds.lists (·.owner = owner)).count here stored

/-- The account at the greater address is created first and credited last; both are in the scan of
    their mint as they are now, the credited one once. -/
theorem scans_agree_credited :
    let mint : MintRecord := .empty ⟨.replicate 2⟩ ⟨.replicate 1⟩ 0
    let low : AccountRecord := .empty ⟨.replicate 4⟩ ⟨.replicate 3⟩ mint.address
    let high : AccountRecord := .empty ⟨.replicate 9⟩ ⟨.replicate 1⟩ mint.address
    let credited := { high with amount := 5 }
    let store := after emptyDatabase [.insertMint mint, .insertAccount high, .insertAccount low,
      .commit ⟨[], [⟨high, credited⟩]⟩]
    emptyDatabase.IsEmpty ∧
      ∃ scan : List AccountRecord, (answer (.accountsByMint mint.address) store).1 = .ok scan ∧
        low ∈ scan ∧ high ∉ scan ∧ scan.count credited = 1 := by
  intro mint low high credited store
  obtain ⟨byMint, _, _, once⟩ := scans_agree isEmpty_emptyDatabase
    [.insertMint mint, .insertAccount high, .insertAccount low, .commit ⟨[], [⟨high, credited⟩]⟩]
  obtain ⟨scan, listed, lists⟩ := byMint mint.address
  have has_low : HasAccount store low.address low := by decide +kernel
  have has_credited : HasAccount store high.address credited := by decide +kernel
  have overwritten : ¬HasAccount store high.address high := by decide +kernel
  refine ⟨isEmpty_emptyDatabase, scan, listed, (lists.exact low).mpr ⟨rfl, has_low⟩,
    fun member => overwritten ((lists.exact high).mp member).2, ?_⟩
  exact (once _ _ has_credited).1 mint.address scan listed

end AnyStore

end TokenLedger
