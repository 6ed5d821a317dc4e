import TokenLedger.Proofs.Program.Orderly

/-! # Programs that stay where they hold addresses

A program is confined to addresses if it changes nothing elsewhere, and leaves there what it
would leave if the records elsewhere were others (`Program.Confined`).  It acts on the addresses
if its result goes by nothing else either (`Program.ActsOn`), which is kept when programs are put
one after the other.

Two programs that are confined to addresses, none of them the same, leave the same records in
either order (`Program.Confined.comm`).
-/

namespace TokenLedger

namespace MemoryStore

variable {a b c : MemoryStore} {keys : List Bytes32}

/-! ## What is left alone -/

theorem AgreeOn.symm {region : Bytes32 → Prop} (agree : a.AgreeOn region b) : b.AgreeOn region a :=
  ⟨fun address inside => (agree.mint address inside).symm,
    fun address inside => (agree.account address inside).symm⟩

theorem AgreeOn.eq {region : Bytes32 → Prop} (inside : a.AgreeOn region b)
    (outside : a.AgreeOn (¬region ·) b) : a = b := by
  refine ext_of_lookups (fun address => ?_) fun address => ?_
  · by_cases here : region address.raw
    · exact inside.mint address here
    · exact outside.mint address here
  · by_cases here : region address.raw
    · exact inside.account address here
    · exact outside.account address here

/-- Whether records are the same but at addresses, and mints elsewhere have as many accounts. -/
structure Spares (keys : List Bytes32) (before after : MemoryStore) : Prop where
  others : before.AgreeBut keys after
  counts : ∀ mint : MintAddress, mint.raw ∉ keys →
    (before.accountsByMint mint).length = (after.accountsByMint mint).length

namespace Spares

theorem refl (a : MemoryStore) : Spares keys a a := ⟨.refl a, fun _ _ => rfl⟩

theorem trans (first : Spares keys a b) (second : Spares keys b c) : Spares keys a c :=
  ⟨first.others.trans second.others,
    fun mint outside => (first.counts mint outside).trans (second.counts mint outside)⟩

theorem agreeAt {keys' : List Bytes32} (spares : Spares keys a b) (disjoint : keys'.Disjoint keys) :
    a.AgreeAt keys' b :=
  spares.others.mono fun _ inside held => disjoint inside held

theorem putMint {mint : MintRecord} (held : mint.address.raw ∈ keys) :
    Spares keys a (a.putMint mint) :=
  ⟨a.agreeBut_putAll (List.forall_mem_singleton.mpr held) (List.forall_mem_nil _),
    fun _ _ => rfl⟩

theorem putAccount {account : AccountRecord} (held : account.address.raw ∈ keys)
    (held' : account.mint.raw ∈ keys) (free : a.getAccount account.address = none) :
    Spares keys a (a.putAccount account) := by
  refine ⟨a.agreeBut_putAll (List.forall_mem_nil _) (List.forall_mem_singleton.mpr held),
    fun mint outside => ?_⟩
  have apart : account.mint ≠ mint := fun same => outside (same ▸ held')
  have items : (a.accounts.put account).items.Perm _ := Index.perm_put_new free
  have filtered := items.filter (·.mint = mint)
  rw [List.filter_cons_of_neg (by simpa using apart)] at filtered
  exact filtered.length_eq.symm

end Spares

/-- Records that are put in are the same wherever they are put in. -/
theorem agreeAt_putAll (agree : a.AgreeAt keys b) (mints : List MintRecord)
    (accounts : List AccountRecord) :
    (a.putAll mints accounts).AgreeAt keys (b.putAll mints accounts) where
  mint address held := by
    rw [getMint_putAll, getMint_putAll, agree.mint address held]
  account address held := by
    rw [getAccount_putAll, getAccount_putAll, agree.account address held]

end MemoryStore

/-! ## Calls -/

/-- Whether a call is done alike wherever the records at addresses are the same, and changes nothing
    elsewhere. -/
structure StoreCall.ActsOn (keys : List Bytes32) (records : MemoryStore) (call : StoreCall) :
    Prop where
  spares : MemoryStore.Spares keys records (RecordStore.answer call records).2
  inside : ∀ {found}, records.AgreeAt keys found →
    (RecordStore.answer call records).2.AgreeAt keys (RecordStore.answer call found).2
  reply : ∀ {found}, records.AgreeAt keys found →
    (RecordStore.answer call found).1 = (RecordStore.answer call records).1

namespace StoreCall

variable {keys : List Bytes32} {records : MemoryStore}

/-- A record is put in if there is room for it, and that goes by what is at the addresses. -/
theorem actsOn_insert {call : StoreCall} {put : MemoryStore → MemoryStore}
    {done refused : call.Reply} {room : MemoryStore → Prop} [DecidablePred room]
    (answers : ∀ found, RecordStore.answer call found =
      if room found then (done, put found) else (refused, found))
    (seen : ∀ {found}, records.AgreeAt keys found → (room found ↔ room records))
    (spares : room records → MemoryStore.Spares keys records (put records))
    (alike : ∀ {found}, records.AgreeAt keys found → (put records).AgreeAt keys (put found)) :
    ActsOn keys records call := by
  by_cases free : room records
  · have here := (answers records).trans (if_pos free)
    have there {found : MemoryStore} (agree : records.AgreeAt keys found) :=
      (answers found).trans (if_pos ((seen agree).mpr free))
    refine ⟨?_, fun agree => ?_, fun agree => ?_⟩
    · rw [here]
      exact spares free
    · rw [here, there agree]
      exact alike agree
    · rw [here, there agree]
  · have here := (answers records).trans (if_neg free)
    have there {found : MemoryStore} (agree : records.AgreeAt keys found) :=
      (answers found).trans (if_neg (mt (seen agree).mp free))
    refine ⟨?_, fun agree => ?_, fun agree => ?_⟩
    · rw [here]
      exact .refl records
    · rw [here, there agree]
      exact agree
    · rw [here, there agree]

theorem actsOn_insertMint {mint : MintRecord} (held : mint.address.raw ∈ keys) :
    ActsOn keys records (.insertMint mint) := by
  have answers : ∀ found : MemoryStore, RecordStore.answer (.insertMint mint) found =
      if found.getMint mint.address = none then (.ok .inserted, found.putMint mint)
      else (.ok .alreadyExists, found) := by
    intro found
    simp only [RecordStore.answer, MemoryStore.insertMint]
    cases found.getMint mint.address <;> rfl
  exact actsOn_insert answers (fun agree => by rw [agree.mint _ held]) (fun _ => .putMint held)
    (MemoryStore.agreeAt_putAll · [mint] [])

theorem actsOn_insertAccount {account : AccountRecord} (held : account.address.raw ∈ keys)
    (held' : account.mint.raw ∈ keys) : ActsOn keys records (.insertAccount account) := by
  have answers : ∀ found : MemoryStore, RecordStore.answer (.insertAccount account) found =
      if found.getAccount account.address = none then (.ok .inserted, found.putAccount account)
      else (.ok .alreadyExists, found) := by
    intro found
    simp only [RecordStore.answer, MemoryStore.insertAccount]
    cases found.getAccount account.address <;> rfl
  exact actsOn_insert answers (fun agree => by rw [agree.account _ held]) (.putAccount held held')
    (MemoryStore.agreeAt_putAll · [] [account])

end StoreCall

/-! ## Programs -/

namespace Program

/-- Whether a program changes records at no other addresses than these, and those alike wherever
    they are the same at first. -/
structure Confined {α : Type} (keys : List Bytes32) (records : MemoryStore) (p : Program α) :
    Prop where
  spares : MemoryStore.Spares keys records (p.run records).store
  inside : ∀ {found}, records.AgreeAt keys found →
    (p.run records).store.AgreeAt keys (p.run found).store

/-- Whether the records at these addresses are all that a program goes by, too. -/
structure ActsOn {α : Type} (keys : List Bytes32) (records : MemoryStore) (p : Program α) : Prop
    extends Confined keys records p where
  result : ∀ {found}, records.AgreeAt keys found → (p.run found).result = (p.run records).result

variable {α β : Type} {keys keys' : List Bytes32} {records found : MemoryStore} {p : Program α}
  {a : α}

/-- In either order, each address has what the one program leaves that is confined to it. -/
theorem Confined.comm {q : Program β} (confined : ∀ records, p.Confined keys records)
    (confined' : ∀ records, q.Confined keys' records) (disjoint : keys.Disjoint keys')
    (records : MemoryStore) :
    (p.run (q.run records).store).store = (q.run (p.run records).store).store := by
  have kept := (confined records).spares
  have kept' := (confined' records).spares
  have later := (confined (q.run records).store).spares
  have later' := (confined' (p.run records).store).spares
  have here := ((confined records).inside (kept'.agreeAt disjoint)).symm.trans
    (later'.agreeAt disjoint)
  have there := (later.agreeAt (List.disjoint_symm disjoint)).symm.trans
    ((confined' records).inside (kept.agreeAt (List.disjoint_symm disjoint)))
  -- what is elsewhere for both is as it was at first
  have elsewhere : (p.run (q.run records).store).store.AgreeOn
      (fun key => key ∉ keys ∧ key ∉ keys') (q.run (p.run records).store).store :=
    ((kept'.others.mono fun _ => And.right).trans (later.others.mono fun _ => And.left)).symm.trans
      ((kept.others.mono fun _ => And.left).trans (later'.others.mono fun _ => And.right))
  refine here.eq ⟨fun address outside => ?_, fun address outside => ?_⟩
  · by_cases held : address.raw ∈ keys'
    · exact there.mint address held
    · exact elsewhere.mint address ⟨outside, held⟩
  · by_cases held : address.raw ∈ keys'
    · exact there.account address held
    · exact elsewhere.account address ⟨outside, held⟩

namespace ActsOn

/-- A program that leaves all as it is, with one result. -/
theorem of_still (still : ∀ found, records.AgreeAt keys found →
    (p.run found).result = a ∧ (p.run found).store = found) : p.ActsOn keys records := by
  obtain ⟨result, store⟩ := still records (.refl records)
  refine ⟨⟨?_, fun {found} agree => ?_⟩, fun {found} agree => ?_⟩
  · rw [store]
    exact .refl records
  · rw [store, (still found agree).2]
    exact agree
  · rw [result, (still found agree).1]

theorem of_concludes (concludes : p.Concludes (· = a)) : p.ActsOn keys records :=
  of_still fun found _ => concludes.run found

theorem bind {f : α → Program β} (first : p.ActsOn keys records)
    (rest : (f (p.run records).result).ActsOn keys (p.run records).store) :
    (p >>= f).ActsOn keys records := by
  refine ⟨⟨?_, fun {found} agree => ?_⟩, fun {found} agree => ?_⟩
  · rw [store_run_bind]
    exact first.spares.trans rest.spares
  · rw [store_run_bind, store_run_bind, first.result agree]
    exact rest.inside (first.inside agree)
  · rw [result_run_bind, result_run_bind, first.result agree]
    exact rest.result (first.inside agree)

end ActsOn

theorem ReadsTo.agree (reads : p.ReadsTo keys records a) (agree : records.AgreeAt keys found) :
    p.ReadsTo keys found a := by
  induction p with
  | done result => exact reads
  | perform effect next ih =>
    cases effect with
    | call call =>
      obtain ⟨held, reads⟩ := reads
      refine ⟨held, ?_⟩
      rw [held.agree agree]
      exact ih _ reads
    | acquire keys => exact reads.elim
    | note event => exact ih () reads

theorem ReadsTo.run (reads : p.ReadsTo keys records a) :
    (p.run records).result = a ∧ (p.run records).store = records := by
  induction p with
  | done result => exact ⟨reads, rfl⟩
  | perform effect next ih =>
    cases effect with
    | call call =>
      obtain ⟨held, reads⟩ := reads
      rw [run_call, (held.asks.answer records).2]
      exact ih _ reads
    | acquire keys => exact reads.elim
    | note event => exact ih () reads

theorem ReadsTo.actsOn (reads : p.ReadsTo keys records a) : p.ActsOn keys records :=
  .of_still fun _ agree => (reads.agree agree).run

end Program

end TokenLedger
