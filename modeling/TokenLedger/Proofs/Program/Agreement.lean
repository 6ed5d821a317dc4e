import TokenLedger.Derivation
import TokenLedger.Proofs.Program.Ensures

/-! # Programs that cannot tell stores apart

Two kinds of store that hold the same records differ in three things.  A batch that
names a record twice is one of them, and programs that ensure anything make no such
commit.  The others are the two checks that tables make of a new account: that its
owner has no other account for its mint, and that its mint is there.

Neither check fails where every account is at the address that its owner and its mint
put it at, and every account's mint is there (`MemoryStore.Derived`).  So a program
whose contract keeps the records like that runs on every store as it does on the
records themselves (`Program.Ensures.agrees`).
-/

namespace TokenLedger

namespace MemoryStore

variable {records : MemoryStore}

/-! ## Calls -/

/-- Whether an account that may be put at its address may be put into tables as well. -/
def Accepts (records : MemoryStore) (account : AccountRecord) : Prop :=
  records.getAccount account.address = none →
    ¬records.HasPair account.owner account.mint ∧ (records.getMint account.mint).isSome

theorem insertAccount_toTables_of_accepts {account : AccountRecord}
    (accepts : records.Accepts account) :
    records.toTables.insertAccount account =
      .ok ((records.insertAccount account).1, (records.insertAccount account).2.toTables) := by
  rw [insertAccount_toTables]
  cases at_address : records.getAccount account.address with
  | some old => rw [insertAccount_some at_address, if_pos (.inl rfl)]
  | none =>
    obtain ⟨single, known⟩ := accepts at_address
    rw [insertAccount_none at_address, if_neg, if_neg (Option.isSome_iff_ne_none.mp known)]
    rintro (taken | pair)
    · cases taken
    · exact single pair

/-- Tables answer as the records of which they have the rows. -/
theorem answer_toTables {call : StoreCall} (distinct : call.Distinct)
    (accepts : ∀ account, call = .insertAccount account → records.Accepts account) :
    RecordStore.answer call records.toTables =
      ((RecordStore.answer call records).1, (RecordStore.answer call records).2.toTables) := by
  cases call with
  | getMint address => exact Prod.ext (records.getMint_toTables address) rfl
  | getAccount address => exact Prod.ext (records.getAccount_toTables address) rfl
  | insertMint mint => simp only [RecordStore.answer, insertMint_toTables]
  | insertAccount account =>
    simp only [RecordStore.answer, insertAccount_toTables_of_accepts (accepts account rfl)]
  | commit batch =>
    simp only [RecordStore.answer, commit_toTables records distinct]
    cases records.commit batch <;> rfl
  | accountsByMint mint => exact Prod.ext (records.accountsByMint_toTables mint) rfl
  | accountsByOwner owner => exact Prod.ext (records.accountsByOwner_toTables owner) rfl
  | listMints => exact Prod.ext records.listMints_toTables rfl

end MemoryStore

/-- Every store that holds records answers as they do. -/
theorem AnyStore.answer_eq {store : AnyStore} {records : MemoryStore} (holds : store.Holds records)
    {call : StoreCall} (distinct : call.Distinct)
    (accepts : ∀ account, call = .insertAccount account → records.Accepts account) :
    (RecordStore.answer call store).1 = (RecordStore.answer call records).1 ∧
      (RecordStore.answer call store).2.Holds (RecordStore.answer call records).2 := by
  cases holds with
  | memory => exact ⟨rfl, .memory _⟩
  | database rows =>
    have same := MemoryStore.answer_toTables distinct accepts
    simp only [RecordStore.answer, rows] at *
    rw [same]
    exact ⟨rfl, .database rfl⟩

/-! ## Records in their place -/

/-- Whether every account is at the address that its owner and its mint have in a namespace, and its
    mint is there. -/
structure MemoryStore.Derived (ns : Bytes) (records : MemoryStore) : Prop where
  address : ∀ {address account}, records.getAccount address = some account →
    address = .derive ns account.owner account.mint
  known : ∀ {address account}, records.getAccount address = some account →
    (records.getMint account.mint).isSome

namespace MemoryStore.Derived

variable {ns : Bytes} {records : MemoryStore}

theorem empty : MemoryStore.empty.Derived ns where
  address impossible := nomatch impossible
  known impossible := nomatch impossible

/-- Another account of the owner for the mint would be at the same address. -/
theorem accepts (derived : records.Derived ns) {account : AccountRecord}
    (placed : records.getAccount account.address = none → (records.putAccount account).Derived ns) :
    records.Accepts account := by
  intro free
  have found : (records.putAccount account).getAccount account.address = some account := by
    rw [getAccount_putAccount, if_pos rfl]
  refine ⟨?_, (placed free).known found⟩
  rintro ⟨other, member, owner, mint⟩
  have stored : records.getAccount other.address = some other := Index.find?_of_mem member
  have same : other.address = account.address := by
    rw [derived.address stored, owner, mint, (placed free).address found]
  rw [same, free] at stored
  cases stored

end MemoryStore.Derived

/-! ## Programs -/

/-- Whether what a program may do leaves accounts in their place. -/
def Contract.KeepsDerived (c : Contract) (ns : Bytes) : Prop :=
  ∀ {span : Span} {after : MemoryStore} {wrote : Bool}, c.guar span after wrote →
    span.now.Derived ns → after.Derived ns

/-- A program that runs alone on a store has the result that it has on the records held there,
    reports the same, and leaves the records that it leaves there. -/
theorem Program.Ensures.agrees {α : Type} {c : Contract} {ns : Bytes} {post : α → Span → Prop}
    {p : Program α} {s : Span} (ensures : p.Ensures c post s) (keeps : c.KeepsDerived ns)
    (derived : s.now.Derived ns) {store : AnyStore} (holds : store.Holds s.now) :
    (p.run store).result = (p.run s.now).result ∧ (p.run store).events = (p.run s.now).events ∧
      (p.run store).store.Holds (p.run s.now).store ∧ (p.run s.now).store.Derived ns := by
  induction p generalizing s store with
  | done result => exact ⟨rfl, rfl, holds, derived⟩
  | perform effect next ih =>
    cases effect with
    | call call =>
      obtain ⟨distinct, each⟩ := ensures
      obtain ⟨allowed, rest⟩ := each s (.refl s) _ _ (MemoryStore.replies call)
      have accepts : ∀ account, call = .insertAccount account → s.now.Accepts account := by
        rintro account rfl
        refine derived.accepts fun free => ?_
        -- that the store puts the account in is one of the replies that the program is ready for
        obtain ⟨placed, _⟩ := each s (.refl s) (.ok .inserted) _ (.inl ⟨rfl, free, rfl⟩)
        exact keeps placed derived
      obtain ⟨reply, held⟩ := AnyStore.answer_eq holds distinct accepts
      have first : (perform (.call call) next).run store =
          (next (RecordStore.answer call s.now).1).run (RecordStore.answer call store).2 :=
        congrArg (fun r : call.Reply => (next r).run (RecordStore.answer call store).2) reply
      rw [first]
      exact ih _ rest (keeps allowed derived) held
    | acquire keys => exact ih () ensures derived holds
    | note event =>
      obtain ⟨result, events, rest⟩ := ih () ensures derived holds
      exact ⟨result, congrArg (event :: ·) events, rest⟩

end TokenLedger
