import TokenLedger.Ledger.Basic
import TokenLedger.Proofs.Program.Ensures

/-! # Steps of a ledger's programs

What the small programs that a ledger's operations are made of ensure: one lemma
for each, for any contract, and a rule for sequences (`ensures_bind`).  Where a
step reads, its answer is the one for some moment of the span, and nothing more is
said of when that was.
-/

namespace TokenLedger

/-- The mint at an address, or the failure that there is none. -/
def MemoryStore.mintAt (records : MemoryStore) (address : MintAddress) :
    Except Failure MintRecord :=
  match records.getMint address with
  | some mint => .ok mint
  | none => .error (.mintNotFound address)

/-- The account at an address, or the failure that there is none. -/
def MemoryStore.accountAt (records : MemoryStore) (address : AccountAddress) :
    Except Failure AccountRecord :=
  match records.getAccount address with
  | some account => .ok account
  | none => .error (.accountNotFound address)

theorem MemoryStore.mintAt_eq_ok_iff {records : MemoryStore} {address : MintAddress}
    {mint : MintRecord} :
    records.mintAt address = .ok mint ↔ records.getMint address = some mint := by
  unfold mintAt
  cases records.getMint address <;> simp

theorem MemoryStore.accountAt_eq_ok_iff {records : MemoryStore} {address : AccountAddress}
    {account : AccountRecord} :
    records.accountAt address = .ok account ↔ records.getAccount address = some account := by
  unfold accountAt
  cases records.getAccount address <;> simp

theorem MemoryStore.mintAt_ne_rejected {records : MemoryStore} {address : MintAddress}
    {reason : Rejection} : records.mintAt address ≠ .error (.rejected reason) := by
  unfold mintAt
  cases records.getMint address <;> simp

theorem MemoryStore.accountAt_ne_rejected {records : MemoryStore} {address : AccountAddress}
    {reason : Rejection} : records.accountAt address ≠ .error (.rejected reason) := by
  unfold accountAt
  cases records.getAccount address <;> simp

namespace LedgerProgram

variable {α β : Type} {c : Contract} {s : Span}

/-! ## Sequences -/

theorem ensures_pure (a : α) :
    (pure a : LedgerProgram α).run.Ensures c (fun result t => result = .ok a ∧ s.Continues t) s :=
  fun _ waits => ⟨rfl, waits.continues⟩

theorem ensures_throw (e : Failure) :
    (throw e : LedgerProgram α).run.Ensures c
      (fun result t => result = .error e ∧ s.Continues t) s :=
  fun _ waits => ⟨rfl, waits.continues⟩

theorem ensures_bind {x : LedgerProgram α} {f : α → LedgerProgram β}
    {middle : Except Failure α → Span → Prop} {post : Except Failure β → Span → Prop}
    (first : x.run.Ensures c middle s)
    (then_ok : ∀ a t, middle (.ok a) t → (f a).run.Ensures c post t)
    (then_error : ∀ e t, middle (.error e) t → post (.error e) t) :
    (x >>= f).run.Ensures c post s := by
  show (x.run >>= ExceptT.bindCont f).Ensures c post s
  -- others may act between the two parts, so the first is taken with its postcondition settled
  refine .bind (first.settled.mono fun result t middle => ?_)
  cases result with
  | ok a => exact then_ok a t (middle t (.refl t))
  | error e => exact fun later waits => then_error e later (middle later waits)

/-! ## Locks and events -/

theorem ensures_note (event : Event) :
    (note event).run.Ensures c (fun result t => result = .ok () ∧ s.Continues t) s :=
  fun _ waits => ⟨rfl, waits.continues⟩

theorem ensures_lock (keys : List Bytes32) :
    (lock keys).run.Ensures c (fun result t => result = .ok () ∧ s.Continues t) s :=
  fun _ waits => ⟨rfl, waits.continues⟩

/-! ## Reading -/

/-- A call that only reads is answered for the moment at which it is made. -/
theorem ensures_read {request : StoreCall} {answer : MemoryStore → request.Answer}
    (distinct : request.Distinct)
    (reads : ∀ {records after : MemoryStore} {reply : request.Reply},
      records.Replies request reply after → reply = .ok (answer records) ∧ after = records)
    (quiet : ∀ reply, request.wrote reply = false) :
    (call request).run.Ensures c
      (fun result t => (∃ records ∈ t.moments, result = .ok (answer records)) ∧ s.Continues t)
      s := by
  refine ⟨distinct, fun later others reply after replied => ?_⟩
  obtain ⟨rfl, rfl⟩ := reads replied
  rw [quiet]
  refine ⟨c.idle later, fun final waits => ?_⟩
  have on := (Span.continues_step later later.now).trans waits.continues
  exact ⟨⟨later.now, on.moments _ later.now_mem, rfl⟩, others.continues.trans on⟩

theorem ensures_loadMint (address : MintAddress) :
    (loadMint address).run.Ensures c
      (fun result t => (∃ records ∈ t.moments, result = records.mintAt address) ∧ s.Continues t)
      s := by
  have reading := @ensures_read c s (.getMint address) (·.getMint address) trivial id
    fun reply => by cases reply <;> rfl
  refine ensures_bind reading ?_ ?_
  · rintro found t ⟨⟨records, member, same⟩, on⟩
    cases same
    cases at_address : records.getMint address with
    | none =>
      refine (ensures_throw _).mono fun result u ⟨same, further⟩ => ?_
      refine ⟨⟨records, further.moments _ member, ?_⟩, on.trans further⟩
      rw [same, MemoryStore.mintAt, at_address]
    | some mint =>
      refine (ensures_pure _).mono fun result u ⟨same, further⟩ => ?_
      refine ⟨⟨records, further.moments _ member, ?_⟩, on.trans further⟩
      rw [same, MemoryStore.mintAt, at_address]
  · rintro e t ⟨⟨records, member, same⟩, on⟩
    cases same

theorem ensures_loadAccount (address : AccountAddress) :
    (loadAccount address).run.Ensures c
      (fun result t =>
        (∃ records ∈ t.moments, result = records.accountAt address) ∧ s.Continues t) s := by
  have reading := @ensures_read c s (.getAccount address) (·.getAccount address) trivial id
    fun reply => by cases reply <;> rfl
  refine ensures_bind reading ?_ ?_
  · rintro found t ⟨⟨records, member, same⟩, on⟩
    cases same
    cases at_address : records.getAccount address with
    | none =>
      refine (ensures_throw _).mono fun result u ⟨same, further⟩ => ?_
      refine ⟨⟨records, further.moments _ member, ?_⟩, on.trans further⟩
      rw [same, MemoryStore.accountAt, at_address]
    | some mint =>
      refine (ensures_pure _).mono fun result u ⟨same, further⟩ => ?_
      refine ⟨⟨records, further.moments _ member, ?_⟩, on.trans further⟩
      rw [same, MemoryStore.accountAt, at_address]
  · rintro e t ⟨⟨records, member, same⟩, on⟩
    cases same

/-! ## Rules -/

theorem ensures_rule (kind : OperationKind) (outcome : Except Rejection α) :
    (rule kind outcome).run.Ensures c
      (fun result t => result = outcome.mapError .rejected ∧ s.Continues t) s := by
  cases outcome with
  | ok a => exact fun _ waits => ⟨rfl, waits.continues⟩
  | error reason => exact fun _ waits => ⟨rfl, waits.continues⟩

/-! ## Auditing -/

/-- An audit reports on the accounts of some moment, and leaves the records alone. -/
theorem ensures_auditRecord (mint : MintRecord) :
    (auditRecord mint).run.Ensures c
      (fun result t => (∃ records ∈ t.moments,
        result = .ok (mint.checkSupply (records.accountsByMint mint.address))) ∧ s.Continues t)
      s := by
  have reading := @ensures_read c s (.accountsByMint mint.address)
    (·.accountsByMint mint.address) trivial id fun reply => by cases reply <;> rfl
  refine ensures_bind reading ?_ ?_
  · rintro accounts t ⟨⟨records, member, same⟩, on⟩
    cases same
    have returned : ∀ u, t.Continues u →
        (pure (mint.checkSupply (records.accountsByMint mint.address)) :
          LedgerProgram SupplyReport).run.Ensures c
            (fun result t => (∃ records ∈ t.moments,
              result = .ok (mint.checkSupply (records.accountsByMint mint.address))) ∧
                s.Continues t) u := by
      intro u further final waits
      have later := further.trans waits.continues
      exact ⟨⟨records, later.moments _ member, rfl⟩, on.trans later⟩
    dsimp only
    split
    · refine ensures_bind (ensures_note _) (fun _ u noted => returned u noted.2) ?_
      rintro e u ⟨impossible, _⟩
      cases impossible
    · exact returned t (.refl t)
  · rintro e t ⟨⟨records, member, same⟩, on⟩
    cases same

end LedgerProgram

end TokenLedger
