import TokenLedger.Ledger.Basic
import TokenLedger.Proofs.Ed25519.Points
import TokenLedger.Proofs.Store.Records

/-! # Derived addresses are apart

No two triples of namespace, owner and mint have one preimage (`preimage_inj`), so two
accounts share an address only where the hash collides on two different byte strings
(`derived_apart`).  Read from the front a preimage also says where it ends
(`eq_of_preimage_append`): that is what the length before the namespace is for.
-/

namespace TokenLedger

/-- Hashing keeps these two byte strings apart, if they are two. -/
def Blake3.Separates (first second : Bytes) : Prop := hash first = hash second → first = second

instance (first second : Bytes) : Decidable (Blake3.Separates first second) :=
  inferInstanceAs (Decidable (_ → _))

namespace Derivation

variable {ns ns' : Bytes} {owner owner' : Principal} {mint mint' : MintAddress}

/-- The parts of fixed width are taken off at both ends, and what they leave is the namespace. -/
theorem preimage_inj :
    preimage ns owner mint = preimage ns' owner' mint' ↔
      ns = ns' ∧ owner = owner' ∧ mint = mint' := by
  constructor
  · intro same
    unfold preimage at same
    -- from the right: a namespace may hold anything, but the two keys have 32 bytes each
    obtain ⟨same, mints⟩ := List.append_inj' same
      (mint.raw.length_toBytes.trans mint'.raw.length_toBytes.symm)
    obtain ⟨same, owners⟩ := List.append_inj' same
      (owner.raw.length_toBytes.trans owner'.raw.length_toBytes.symm)
    have spaces := List.append_inj_right same (by simp)
    exact ⟨spaces, Principal.toBytes_inj.mp owners, MintAddress.toBytes_inj.mp mints⟩
  · rintro ⟨rfl, rfl, rfl⟩
    rfl

/-- A reader of one preimage after another knows where each ends. -/
theorem eq_of_preimage_append {rest rest' : Bytes}
    (short : ns.length < 2 ^ 64) (short' : ns'.length < 2 ^ 64)
    (same : preimage ns owner mint ++ rest = preimage ns' owner' mint' ++ rest') :
    (ns = ns' ∧ owner = owner' ∧ mint = mint') ∧ rest = rest' := by
  -- here the ends are unknown, so the number in front of the namespace has to say it
  have lengths : ns.length = ns'.length := by
    simp only [preimage, List.append_assoc] at same
    have written := List.append_inj_left (List.append_cancel_left same) (by simp)
    have read := congrArg Bytes.toNatLE written
    have range : 256 ^ 8 = 2 ^ 64 := by decide
    rwa [Bytes.toNatLE_ofNatLE, Bytes.toNatLE_ofNatLE, range, Nat.mod_eq_of_lt short,
      Nat.mod_eq_of_lt short'] at read
  obtain ⟨preimages, rests⟩ := List.append_inj same (by
    simp [preimage, lengths, MintAddress.toBytes, Principal.toBytes, Bytes32.length_toBytes])
  exact ⟨preimage_inj.mp preimages, rests⟩

theorem derive_inj
    (separates : Blake3.Separates (preimage ns owner mint) (preimage ns' owner' mint')) :
    AccountAddress.derive ns owner mint = AccountAddress.derive ns' owner' mint' ↔
      ns = ns' ∧ owner = owner' ∧ mint = mint' := by
  simp only [AccountAddress.derive, AccountAddress.mk.injEq]
  rw [← preimage_inj]
  exact ⟨separates, congrArg _⟩

/-- Where the hash separates two preimages, the addresses of two triples are two, and so are those
    of two pairs in the default namespace or in that of a ledger. -/
theorem derived_apart (ns ns' : Bytes) (owner owner' : Principal) (mint mint' : MintAddress) :
    (preimage ns owner mint = preimage ns' owner' mint' ↔
        ns = ns' ∧ owner = owner' ∧ mint = mint') ∧
      (Blake3.Separates (preimage ns owner mint) (preimage ns' owner' mint') →
        (AccountAddress.derive ns owner mint = AccountAddress.derive ns' owner' mint' ↔
          ns = ns' ∧ owner = owner' ∧ mint = mint')) ∧
      (Blake3.Separates (preimage defaultNamespace owner mint)
          (preimage defaultNamespace owner' mint') →
        (AccountAddress.deriveDefault owner mint = AccountAddress.deriveDefault owner' mint' ↔
          owner = owner' ∧ mint = mint')) ∧
      ∀ ledger : Ledger, Blake3.Separates (preimage ledger.config.ns owner mint)
          (preimage ledger.config.ns owner' mint') →
        (ledger.accountAddress owner mint = ledger.accountAddress owner' mint' ↔
          owner = owner' ∧ mint = mint') := by
  have within (ns : Bytes)
      (separates : Blake3.Separates (preimage ns owner mint) (preimage ns owner' mint')) :
      AccountAddress.derive ns owner mint = AccountAddress.derive ns owner' mint' ↔
        owner = owner' ∧ mint = mint' := by
    simpa using derive_inj separates
  exact ⟨preimage_inj, derive_inj, within defaultNamespace, fun ledger => within ledger.config.ns⟩

/-- A namespace that goes on with the first key's first byte is still another namespace, and its
    ledger has other addresses. -/
theorem derived_apart_longer_namespace :
    let owner : Principal := ⟨.replicate 1⟩
    let mint : MintAddress := ⟨.replicate 2⟩
    let longer : Ledger := { config := { ns := defaultNamespace ++ [1] } }
    AccountAddress.deriveDefault owner mint ≠ longer.accountAddress owner mint ∧
      longer.accountAddress owner mint ≠ longer.accountAddress owner ⟨.replicate 1⟩ := by
  intro owner mint longer
  constructor
  · exact mt ((derived_apart defaultNamespace longer.config.ns owner owner mint mint).2.1
      (by decide +kernel)).mp (by decide)
  · exact mt ((derived_apart longer.config.ns longer.config.ns owner owner mint
      ⟨.replicate 1⟩).2.2.2 longer (by decide +kernel)).mp (by decide)

end Derivation

end TokenLedger
