import TokenLedger.Proofs.Program.Agreement

/-! # Programs that act at one moment

A program that holds addresses may take as many steps as it likes and still act at one
moment.  At first it looks at nothing but records that it holds, which nobody else
changes (`Program.ReadsTo`).  Then it makes the call that decides: that call changes
nothing but what is held, and whatever the records are by then, after it the result of
the program is fixed, whatever else it asks for (`Program.Concludes`).  So the program
might as well have been run as a whole when it made that call.

`Program.Orderly` is the obligation, by recursion on the program.  It is about a program
that has begun and holds some addresses already, and about the records as they are; what
others do to records elsewhere does not matter (`Orderly.agree`).  The rules after it are
for putting such programs together.
-/

namespace TokenLedger

/-! ## Regions -/

/-- Whether two collections of records are the same at all addresses of a region. -/
structure MemoryStore.AgreeOn (region : Bytes32 → Prop) (a b : MemoryStore) : Prop where
  mint : ∀ address : MintAddress, region address.raw → a.getMint address = b.getMint address
  account : ∀ address : AccountAddress, region address.raw →
    a.getAccount address = b.getAccount address

namespace MemoryStore

/-- Whether two collections of records are the same where addresses are held. -/
abbrev AgreeAt (keys : List Bytes32) : MemoryStore → MemoryStore → Prop := AgreeOn (· ∈ keys)

/-- Whether two collections of records are the same but where addresses are held. -/
abbrev AgreeBut (keys : List Bytes32) : MemoryStore → MemoryStore → Prop := AgreeOn (· ∉ keys)

namespace AgreeOn

variable {region region' : Bytes32 → Prop} {a b c : MemoryStore}

theorem refl (a : MemoryStore) : a.AgreeOn region a := ⟨fun _ _ => rfl, fun _ _ => rfl⟩

theorem trans (first : a.AgreeOn region b) (second : b.AgreeOn region c) : a.AgreeOn region c :=
  ⟨fun address inside => (first.mint address inside).trans (second.mint address inside),
    fun address inside => (first.account address inside).trans (second.account address inside)⟩

theorem mono (agree : a.AgreeOn region b) (smaller : ∀ key, region' key → region key) :
    a.AgreeOn region' b :=
  ⟨fun address inside => agree.mint address (smaller _ inside),
    fun address inside => agree.account address (smaller _ inside)⟩

end AgreeOn

/-- Records that are put in where addresses are held. -/
theorem agreeBut_putAll {keys : List Bytes32} (records : MemoryStore) {mints : List MintRecord}
    {accounts : List AccountRecord} (held : ∀ mint ∈ mints, mint.address.raw ∈ keys)
    (held' : ∀ account ∈ accounts, account.address.raw ∈ keys) :
    records.AgreeBut keys (records.putAll mints accounts) where
  mint address outside := by
    refine (getMint_putAll_of_forall_ne fun mint member => ?_).symm
    rintro rfl
    exact outside (held mint member)
  account address outside := by
    refine (getAccount_putAll_of_forall_ne fun account member => ?_).symm
    rintro rfl
    exact outside (held' account member)

end MemoryStore

/-! ## Calls -/

namespace StoreCall

/-- Whether a call asks and does no more. -/
def Asks : StoreCall → Prop
  | insertMint _ => False
  | insertAccount _ => False
  | commit _ => False
  | _ => True

/-- Whether a call looks up a record at an address that is held. -/
def ReadsAt (keys : List Bytes32) : StoreCall → Prop
  | getMint address => address.raw ∈ keys
  | getAccount address => address.raw ∈ keys
  | _ => False

/-- Whether a call is done for one who holds addresses, and then as it should be. -/
structure Decides (good : MemoryStore → Prop) (keys : List Bytes32) (call : StoreCall)
    (records : MemoryStore) : Prop where
  distinct : call.Distinct
  accepts : ∀ account, call = .insertAccount account → records.Accepts account
  answered : ∃ answer, (RecordStore.answer call records).1 = .ok answer
  good : good (RecordStore.answer call records).2
  others : records.AgreeBut keys (RecordStore.answer call records).2

variable {call : StoreCall} {keys : List Bytes32} {good : MemoryStore → Prop}
  {records found : MemoryStore}

theorem Decides.of_answer {answer : call.Answer} {after : MemoryStore}
    (done : RecordStore.answer call records = (.ok answer, after)) (distinct : call.Distinct)
    (accepts : ∀ account, call = .insertAccount account → records.Accepts account)
    (fine : good after) (others : records.AgreeBut keys after) :
    call.Decides good keys records where
  distinct := distinct
  accepts := accepts
  answered := ⟨answer, congrArg Prod.fst done⟩
  good := (congrArg Prod.snd done).symm ▸ fine
  others := (congrArg Prod.snd done).symm ▸ others

theorem ReadsAt.asks (reads : call.ReadsAt keys) : call.Asks := by
  cases call with
  | getMint address => trivial
  | getAccount address => trivial
  | _ => exact reads.elim

theorem Asks.answer (asks : call.Asks) (records : MemoryStore) :
    (∃ answer, (RecordStore.answer call records).1 = .ok answer) ∧
      (RecordStore.answer call records).2 = records := by
  cases call with
  | insertMint mint => exact asks.elim
  | insertAccount account => exact asks.elim
  | commit batch => exact asks.elim
  | _ => exact ⟨⟨_, rfl⟩, rfl⟩

theorem Asks.decides (asks : call.Asks) (held : good records) : call.Decides good keys records := by
  obtain ⟨answered, same⟩ := asks.answer records
  refine ⟨?_, ?_, answered, same.symm ▸ held, same.symm ▸ .refl records⟩
  · cases call <;> trivial
  · rintro account rfl
    exact asks.elim

/-- A look-up at an address that is held finds what has been there all the time. -/
theorem ReadsAt.agree (reads : call.ReadsAt keys) (agree : records.AgreeAt keys found) :
    (RecordStore.answer call found).1 = (RecordStore.answer call records).1 := by
  cases call with
  | getMint address => exact congrArg Except.ok (agree.mint address reads).symm
  | getAccount address => exact congrArg Except.ok (agree.account address reads).symm
  | _ => exact reads.elim

end StoreCall

/-! ## Programs -/

namespace Program

variable {α β : Type}

/-- Whether a program makes no more calls than to ask, and comes to a result of a kind,
    whatever is answered. -/
def Concludes (post : α → Prop) : Program α → Prop
  | done a => post a
  | perform (.call call) next => call.Asks ∧ ∀ answer, (next (.ok answer)).Concludes post
  | perform (.acquire _) _ => False
  | perform (.note _) next => (next ()).Concludes post

/-- Whether a program comes to a result by look-ups at addresses that are held. -/
def ReadsTo (keys : List Bytes32) (records : MemoryStore) (result : α) : Program α → Prop
  | done a => a = result
  | perform (.call call) next =>
    call.ReadsAt keys ∧ (next (RecordStore.answer call records).1).ReadsTo keys records result
  | perform (.acquire _) _ => False
  | perform (.note _) next => (next ()).ReadsTo keys records result

/-- Whether a program that holds addresses acts at one moment, from records on that are
    good. -/
def Orderly (good : MemoryStore → Prop) : List Bytes32 → MemoryStore → Program α → Prop
  | _, _, done _ => True
  | keys, records, perform (.call call) next =>
    (call.ReadsAt keys ∧ (next (RecordStore.answer call records).1).Orderly good keys records) ∨
      ∀ found, good found → records.AgreeAt keys found → call.Decides good keys found ∧
        ∃ result, (next (RecordStore.answer call found).1).Concludes (· = result)
  | keys, _, perform (.acquire more) next =>
    keys = [] ∧ ∀ found, good found → (next ()).Orderly good more found
  | keys, records, perform (.note _) next => (next ()).Orderly good keys records

variable {good : MemoryStore → Prop} {keys : List Bytes32} {records found : MemoryStore}
  {p : Program α} {f : α → Program β} {a a' : α} {b : β} {post : α → Prop} {post' : β → Prop}

theorem run_call {σ : Type} [RecordStore σ] {call : StoreCall}
    {next : (Effect.call call).Reply → Program α} (store : σ) :
    (perform (.call call) next).run store =
      (next (RecordStore.answer call store).1).run (RecordStore.answer call store).2 := rfl

/-! ### Concluding -/

theorem Concludes.bind (first : p.Concludes post) (rest : ∀ a, post a → (f a).Concludes post') :
    (p >>= f).Concludes post' := by
  induction p with
  | done a => exact rest a first
  | perform effect next ih =>
    cases effect with
    | call call => exact ⟨first.1, fun answer => ih _ (first.2 answer)⟩
    | acquire keys => exact first
    | note event => exact ih () first

theorem Concludes.run (concludes : p.Concludes post) (records : MemoryStore) :
    post (p.run records).result ∧ (p.run records).store = records := by
  induction p with
  | done result => exact ⟨concludes, rfl⟩
  | perform effect next ih =>
    cases effect with
    | call call =>
      obtain ⟨asks, each⟩ := concludes
      obtain ⟨⟨answer, answered⟩, same⟩ := asks.answer records
      rw [run_call, answered, same]
      exact ih _ (each answer)
    | acquire keys => exact concludes.elim
    | note event => exact ih () concludes

theorem Concludes.orderly (concludes : p.Concludes (· = a)) : p.Orderly good keys records := by
  induction p with
  | done result => trivial
  | perform effect next ih =>
    cases effect with
    | call call =>
      obtain ⟨asks, each⟩ := concludes
      refine .inr fun found fine _ => ⟨asks.decides fine, a, ?_⟩
      obtain ⟨⟨answer, answered⟩, _⟩ := asks.answer found
      exact answered ▸ each answer
    | acquire keys => exact concludes.elim
    | note event => exact ih () concludes

/-! ### Reading -/

theorem ReadsTo.bind (first : p.ReadsTo keys records a) (rest : (f a).ReadsTo keys records b) :
    (p >>= f).ReadsTo keys records b := by
  induction p with
  | done result =>
    cases first
    exact rest
  | perform effect next ih =>
    cases effect with
    | call call => exact ⟨first.1, ih _ first.2⟩
    | acquire keys => exact first.elim
    | note event => exact ih () first

theorem ReadsTo.eq_of_agree (here : p.ReadsTo keys records a) (there : p.ReadsTo keys found a')
    (agree : records.AgreeAt keys found) : a = a' := by
  induction p with
  | done result => exact here.symm.trans there
  | perform effect next ih =>
    cases effect with
    | call call =>
      obtain ⟨reads, here⟩ := here
      obtain ⟨_, there⟩ := there
      rw [reads.agree agree] at there
      exact ih _ here there
    | acquire keys => exact here.elim
    | note event => exact ih () here there

/-! ### Acting at one moment -/

theorem ReadsTo.bind_orderly (first : p.ReadsTo keys records a)
    (rest : (f a).Orderly good keys records) : (p >>= f).Orderly good keys records := by
  induction p with
  | done result =>
    cases first
    exact rest
  | perform effect next ih =>
    cases effect with
    | call call => exact .inl ⟨first.1, ih _ first.2⟩
    | acquire keys => exact first.elim
    | note event => exact ih () first

theorem Orderly.bind (first : p.Orderly good keys records)
    (rest : ∀ a, ∃ b, (f a).Concludes (· = b)) : (p >>= f).Orderly good keys records := by
  induction p generalizing keys records with
  | done a =>
    obtain ⟨b, concludes⟩ := rest a
    exact concludes.orderly
  | perform effect next ih =>
    cases effect with
    | call call =>
      rcases first with ⟨reads, first⟩ | decides
      · exact .inl ⟨reads, ih _ first⟩
      · -- the decision may now fall in the first program, and the second only concludes
        refine .inr fun found fine agree => ?_
        obtain ⟨decided, a, concludes⟩ := decides found fine agree
        obtain ⟨b, after⟩ := rest a
        exact ⟨decided, b, concludes.bind fun a same => same ▸ after⟩
    | acquire more => exact ⟨first.1, fun found fine => ih () (first.2 found fine)⟩
    | note event => exact ih () first

/-- What others do to records that are not held does not matter. -/
theorem Orderly.agree (orderly : p.Orderly good keys records)
    (agree : records.AgreeAt keys found) : p.Orderly good keys found := by
  induction p with
  | done a => trivial
  | perform effect next ih =>
    cases effect with
    | call call =>
      rcases orderly with ⟨reads, orderly⟩ | decides
      · -- the reply is the same in both, for it is about a record that is held
        have rest := ih _ orderly
        rw [← reads.agree agree] at rest
        exact .inl ⟨reads, rest⟩
      · exact .inr fun later fine agree' => decides later fine (agree.trans agree')
    | acquire more => exact orderly
    | note event => exact ih () orderly

theorem Orderly.decides {call : StoreCall} {next : call.Reply → Program α}
    (orderly : (perform (.call call) next).Orderly good keys records) (fine : good records) :
    call.Decides good keys records := by
  rcases orderly with ⟨reads, _⟩ | decides
  · exact reads.asks.decides fine
  · exact (decides records fine (.refl records)).1

end Program

end TokenLedger
