import TokenLedger.Proofs.Ledger.Conservation

/-! # Exactness of an audit

An audit adds in machine words, and the accounts it is given need not come from the
rules: any amounts, any owners, an account more than once.  What bounds the sum is
then only that an amount is a word.  A tally never has more than a word for each
account that it has counted, which each account preserves, so the sum has room as
long as the count has.
-/

namespace TokenLedger

namespace SupplyReport

variable {current : BitVec 128 × UInt64} {accounts : List AccountRecord}

/-! ## Room for one more account -/

/-- One account added to a tally, in integers: none where a word would overflow. -/
def add? (current : BitVec 128 × UInt64) (account : AccountRecord) : Option (BitVec 128 × UInt64) :=
  let sum := current.1.toNat + account.amount.toNat
  let count := current.2.toNat + 1
  if sum < 2 ^ 128 ∧ count < 2 ^ 64 then some (BitVec.ofNat 128 sum, UInt64.ofNat count) else none

/-- The tally of a mint's accounts with each addition checked. -/
def tally? (mint : MintAddress) (accounts : List AccountRecord) : Option (BitVec 128 × UInt64) :=
  (accounts.filter (·.mint = mint)).foldlM add? (0, 0)

/-- Whether a tally has at most a word for each account counted, with room for the
    count of those that are left. -/
structure Room (current : BitVec 128 × UInt64) (left : Nat) : Prop where
  sum : current.1.toNat ≤ current.2.toNat * (2 ^ 64 - 1)
  count : current.2.toNat + left < 2 ^ 64

theorem Room.start {left : Nat} (few : left < 2 ^ 64) : Room (0, 0) left where
  sum := Nat.le_refl _
  count := by simpa using few

theorem Room.add? {left : Nat} (room : Room current (left + 1)) (account : AccountRecord) :
    ∃ next, SupplyReport.add? current account = some next ∧ Room next left ∧
      next.1.toNat = current.1.toNat + account.amount.toNat ∧
      next.2.toNat = current.2.toNat + 1 := by
  obtain ⟨sum, count⟩ := room
  have word := account.amount.toNat_lt
  have fits : current.1.toNat + account.amount.toNat < 2 ^ 128 := by omega
  have fits' : current.2.toNat + 1 < 2 ^ 64 := by omega
  refine ⟨_, if_pos ⟨fits, fits'⟩, ?_⟩
  have added : (BitVec.ofNat 128 (current.1.toNat + account.amount.toNat)).toNat =
      current.1.toNat + account.amount.toNat := Nat.mod_eq_of_lt fits
  have counted : (UInt64.ofNat (current.2.toNat + 1)).toNat = current.2.toNat + 1 :=
    UInt64.toNat_ofNat_of_lt' fits'
  refine ⟨⟨?_, ?_⟩, added, counted⟩
  · rw [added, counted]
    omega
  · rw [counted]
    omega

/-! ## Room for all accounts -/

/-- From a tally with room, no addition is cut off and the result is exact. -/
theorem Room.foldlM_add? (room : Room current accounts.length) :
    ∃ final, accounts.foldlM SupplyReport.add? current = some final ∧
      final.1.toNat = current.1.toNat + (accounts.map fun account => account.amount.toNat).sum ∧
      final.2.toNat = current.2.toNat + accounts.length := by
  -- the room is what an account hands on to the next
  induction accounts generalizing current with
  | nil => exact ⟨current, rfl, rfl, rfl⟩
  | cons account rest ih =>
    obtain ⟨next, added, room, sum, count⟩ := room.add? account
    obtain ⟨final, rest_added, total, number⟩ := ih room
    refine ⟨final, ?_, ?_, ?_⟩
    · rw [List.foldlM_cons, added]
      exact rest_added
    · rw [total, sum, List.map_cons, List.sum_cons, Nat.add_assoc]
    · rw [number, count, List.length_cons]
      omega

/-- For fewer accounts than words no addition of the audit is cut off, and its tally
    is the sum and the number of the mint's accounts. -/
theorem tally?_eq (mint : MintAddress) (few : accounts.length < 2 ^ 64) :
    tally? mint accounts = some (tally mint accounts) ∧
      (tally mint accounts).1.toNat = MemoryStore.totalOf mint accounts ∧
      (tally mint accounts).2.toNat = accounts.countP (·.mint = mint) := by
  have some_of : (accounts.filter (·.mint = mint)).length ≤ accounts.length :=
    List.length_filter_le _ _
  obtain ⟨final, added, sum, count⟩ := (Room.start (some_of.trans_lt few)).foldlM_add?
  have exact_sum : final.1.toNat = MemoryStore.totalOf mint accounts := by
    simpa [MemoryStore.totalOf] using sum
  have exact_count : final.2.toNat = accounts.countP (·.mint = mint) := by
    simpa [List.countP_eq_length_filter] using count
  -- the words of the tally wrap around, so they are the sum and the number where these fit
  have reached : tally mint accounts = final := by
    rw [tally, foldl_tally, ← List.countP_eq_length_filter, ← exact_count, UInt64.ofNat_toNat]
    show (_ + BitVec.ofNat 128 (MemoryStore.totalOf mint accounts), _ + final.2) = final
    rw [← exact_sum, BitVec.ofNat_toNat, BitVec.setWidth_eq]
    simp
  rw [reached]
  exact ⟨added, exact_sum, exact_count⟩

/-! ## Which accounts count -/

theorem tally_perm {mint : MintAddress} {accounts accounts' : List AccountRecord}
    (perm : (accounts.filter (·.mint = mint)).Perm (accounts'.filter (·.mint = mint))) :
    tally mint accounts = tally mint accounts' := by
  rw [tally, tally, foldl_tally, foldl_tally, perm.length_eq, (perm.map _).sum_eq]

theorem tally_strangers {mint : MintAddress} {strangers : List AccountRecord}
    (others : ∀ stranger ∈ strangers, stranger.mint ≠ mint) (front rest : List AccountRecord) :
    tally mint (front ++ strangers ++ rest) = tally mint (front ++ rest) := by
  have none_of : strangers.filter (·.mint = mint) = [] := by
    simpa [List.filter_eq_nil_iff] using others
  simp only [tally, List.filter_append, none_of, List.append_nil]

end SupplyReport

open SupplyReport in
/-- The report on a mint is exact for any accounts, fewer than words: no addition is cut
    off, the sum and the number are those of the mint's accounts, and the supply is
    consistent just if it is that sum.  Their order and accounts of other mints make no
    difference. -/
theorem MintRecord.checkSupply_exact (mint : MintRecord) {accounts : List AccountRecord}
    (few : accounts.length < 2 ^ 64) :
    tally? mint.address accounts = some (tally mint.address accounts) ∧
    (mint.checkSupply accounts).mint = mint.address ∧
    (mint.checkSupply accounts).supply = mint.supply ∧
    (mint.checkSupply accounts).accountSum.toNat = MemoryStore.totalOf mint.address accounts ∧
    (mint.checkSupply accounts).accounts.toNat = accounts.countP (·.mint = mint.address) ∧
    ((mint.checkSupply accounts).consistent = true ↔
      MemoryStore.totalOf mint.address accounts = mint.supply.toNat) ∧
    (∀ permuted, accounts.Perm permuted → mint.checkSupply permuted = mint.checkSupply accounts) ∧
    ∀ front strangers rest, (∀ stranger ∈ strangers, stranger.mint ≠ mint.address) →
      (accounts = front ++ rest →
        mint.checkSupply (front ++ strangers ++ rest) = mint.checkSupply accounts) ∧
      (accounts = front ++ strangers ++ rest →
        mint.checkSupply (front ++ rest) = mint.checkSupply accounts) := by
  obtain ⟨added, sum, count⟩ := tally?_eq mint.address few
  have same : ∀ {others}, tally mint.address others = tally mint.address accounts →
      mint.checkSupply others = mint.checkSupply accounts := by
    intro others equal
    simp only [checkSupply, equal]
  refine ⟨added, rfl, rfl, sum, count, ?_,
    fun permuted perm => same (tally_perm (perm.symm.filter _)),
    fun front strangers rest others => ⟨?_, ?_⟩⟩
  · have word := mint.supply.toNat_lt
    have supply : (BitVec.ofNat 128 mint.supply.toNat).toNat = mint.supply.toNat :=
      Nat.mod_eq_of_lt (by omega)
    have consistent : (mint.checkSupply accounts).consistent = true ↔
        (tally mint.address accounts).1 = BitVec.ofNat 128 mint.supply.toNat := decide_eq_true_iff
    rw [consistent, ← BitVec.toNat_inj, sum, supply]
  · rintro rfl
    exact same (tally_strangers others front rest)
  · rintro rfl
    exact same (tally_strangers others front rest).symm

/-- Contents that no rule allows: one account twice, with all that a word can hold, and
    an account of another mint. -/
theorem MintRecord.checkSupply_exact_overfull :
    let mint : MintRecord := { MintRecord.empty ⟨.replicate 2⟩ ⟨.replicate 1⟩ 0 with supply := 7 }
    let full : AccountRecord :=
      { AccountRecord.empty ⟨.replicate 4⟩ ⟨.replicate 3⟩ mint.address with
        amount := UInt64.ofNat (2 ^ 64 - 1) }
    let stranger : AccountRecord :=
      { AccountRecord.empty ⟨.replicate 5⟩ ⟨.replicate 3⟩ ⟨.replicate 6⟩ with amount := 7 }
    [full, stranger, full].length < 2 ^ 64 ∧
    (mint.checkSupply [full, stranger, full]).accountSum.toNat = 2 * (2 ^ 64 - 1) ∧
    (mint.checkSupply [full, stranger, full]).accounts.toNat = 2 ∧
    (mint.checkSupply [full, stranger, full]).consistent = false := by
  intro mint full stranger
  have few : [full, stranger, full].length < 2 ^ 64 := by decide
  obtain ⟨_, _, _, sum, count, consistent, _⟩ := mint.checkSupply_exact few
  have total : MemoryStore.totalOf mint.address [full, stranger, full] = 2 * (2 ^ 64 - 1) := by
    decide +kernel
  refine ⟨few, sum.trans total, count.trans (by decide +kernel), ?_⟩
  rw [← Bool.not_eq_true, consistent, total]
  decide

end TokenLedger
