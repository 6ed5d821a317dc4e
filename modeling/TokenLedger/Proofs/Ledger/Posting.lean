import TokenLedger.Proofs.Ledger.Movement

/-! # What an operation writes

An operation writes at most once, and then does one of five things to the records,
which `Posting` lists.  Whatever else is said of runs of a ledger follows from these
five: `ensures_perform` shows that an operation keeps to `Contract.once`, that it
has written when it answers that it is done, and that it has not when it fails.
-/

namespace TokenLedger

/-- What the operation of a signer does to the records when it writes, on a ledger with
    a namespace. -/
inductive Posting (ns : Bytes) (signer : Principal) :
    Operation → MemoryStore → MemoryStore → Prop
  | createMint {before : MemoryStore} {mint : MintAddress} {decimals : UInt8}
    (free : before.getMint mint = none) :
    Posting ns signer (.createMint mint decimals) before
      (before.putMint (.empty mint signer decimals))
  | createAccount {before : MemoryStore} {mint : MintAddress} {owner : Principal}
    {mintRecord : MintRecord} (known : before.getMint mint = some mintRecord)
    (free : before.getAccount (.derive ns owner mint) = none) :
    Posting ns signer (.createAccount mint owner) before
      (before.putAccount (.create ns owner mint))
  | issue {before : MemoryStore} {mint : MintAddress} {account : AccountAddress}
    {amount : UInt64} {mintRecord : MintRecord} {accountRecord : AccountRecord}
    {change : SupplyChange} (nonzero : amount ≠ 0)
    (stored : before.getMint mint = some mintRecord)
    (stored' : before.getAccount account = some accountRecord)
    (passed : Transition.issue mintRecord accountRecord signer amount = .ok change) :
    Posting ns signer (.issue mint account amount) before
      ((before.putMint change.mint).putAccount change.account)
  | transfer {before : MemoryStore} {sender recipient : AccountAddress} {amount : UInt64}
    {senderRecord recipientRecord : AccountRecord} {change : TransferChange}
    (nonzero : amount ≠ 0) (different : sender ≠ recipient)
    (stored : before.getAccount sender = some senderRecord)
    (stored' : before.getAccount recipient = some recipientRecord)
    (passed : Transition.transfer senderRecord recipientRecord signer amount = .ok change) :
    Posting ns signer (.transfer sender recipient amount) before
      ((before.putAccount change.sender).putAccount change.recipient)
  | burn {before : MemoryStore} {mint : MintAddress} {account : AccountAddress}
    {amount : UInt64} {mintRecord : MintRecord} {accountRecord : AccountRecord}
    {change : SupplyChange} (nonzero : amount ≠ 0)
    (stored : before.getMint mint = some mintRecord)
    (stored' : before.getAccount account = some accountRecord)
    (passed : Transition.burn mintRecord accountRecord signer amount = .ok change) :
    Posting ns signer (.burn mint account amount) before
      ((before.putMint change.mint).putAccount change.account)

/-- Whether an operation that is done has written. -/
def Operation.writes : Operation → Bool
  | .createMint _ _ => true
  | .createAccount _ _ => true
  | .issue _ _ amount => amount ≠ 0
  | .transfer sender recipient amount => amount ≠ 0 ∧ sender ≠ recipient
  | .burn _ _ amount => amount ≠ 0

/-- The contract of a program that writes at most once, and then only so. -/
def Contract.once (rely writes : MemoryStore → MemoryStore → Prop) : Contract where
  rely := rely
  guar span after wrote :=
    (wrote = false ∧ after = span.now) ∨
      (wrote = true ∧ span.posted = [] ∧ writes span.now after)
  idle _ := .inl ⟨rfl, rfl⟩

/-- A program that writes at most once and runs alone sees the same records all the time,
    unless it writes: then the records that it found are those before its write. -/
theorem Program.Ensures.run_once {α : Type} {p : Program α}
    {writes : MemoryStore → MemoryStore → Prop} {post : α → Span → Prop} {records : MemoryStore}
    (ensures : p.Ensures (.once (fun _ _ => False) writes) post (.start records))
    {store : AnyStore} (holds : store.Holds records) :
    ∃ final, (p.run store).store.Holds final.now ∧ post (p.run store).result final ∧
      ((final.posted = [] ∧ ∀ moment ∈ final.moments, moment = records) ∨
        (final.posted = [(records, final.now)] ∧ writes records final.now)) := by
  have alone := @invariant _ _ _ _ _
    (fun t => (t.posted = [] ∧ ∀ moment ∈ t.moments, moment = records) ∨
      (t.posted = [(records, t.now)] ∧ writes records t.now))
    ensures (.inl ⟨rfl, fun moment seen => List.mem_singleton.mp seen⟩)
    (fun _ _ _ impossible => impossible.elim) ?_
  · obtain ⟨final, held, met, seen⟩ := alone.run holds
    exact ⟨final, held, met, seen⟩
  · -- a call of the program's own either leaves the records alone or is its one write
    rintro t after wrote keeps (⟨rfl, rfl⟩ | ⟨rfl, quiet, written⟩)
    · refine keeps.imp_left fun ⟨quiet, still⟩ => ⟨quiet, fun moment seen => ?_⟩
      rcases List.mem_cons.mp seen with rfl | seen
      · exact still _ t.now_mem
      · exact still moment seen
    · rcases keeps with ⟨_, still⟩ | ⟨posted, _⟩
      · have found := still _ t.now_mem
        refine .inr ⟨?_, found ▸ written⟩
        rw [Span.step, if_pos rfl, quiet, found]
      · rw [quiet] at posted
        cases posted

/-- Whether a mint that is there stays there when others act. -/
def KeepsMints (rely : MemoryStore → MemoryStore → Prop) : Prop :=
  ∀ {before after : MemoryStore} {address : MintAddress}, rely before after →
    (before.getMint address).isSome → (after.getMint address).isSome

/-! ## Creating -/

namespace LedgerProgram

variable {c : Contract} {s : Span}

theorem ensures_insertMint {mint : MintRecord} (quiet : s.posted = [])
    (permits : ∀ span, span.posted = [] → span.now.getMint mint.address = none →
      c.guar span (span.now.putMint mint) true) :
    (call (.insertMint mint)).run.Ensures c (fun result t =>
      (result = .ok .inserted ∧ ∃ before, t.posted = [(before, before.putMint mint)]) ∨
        (result = .ok .alreadyExists ∧ t.posted = [])) s := by
  refine ⟨trivial, fun later others reply after replied => ?_⟩
  obtain ⟨rfl, rfl⟩ := replied
  have quiet := others.continues.posted.trans quiet
  cases at_address : later.now.getMint mint.address with
  | none =>
    rw [MemoryStore.insertMint, at_address]
    refine ⟨permits later quiet at_address, fun final waits => .inl ⟨rfl, later.now, ?_⟩⟩
    rw [waits.continues.posted, Span.step, quiet]
    rfl
  | some old =>
    rw [MemoryStore.insertMint, at_address]
    exact ⟨c.idle later, fun final waits => .inr ⟨rfl, waits.continues.posted.trans quiet⟩⟩

theorem ensures_insertAccount {account : AccountRecord} (quiet : s.posted = [])
    (permits : ∀ later, c.Waits s later → later.posted = [] →
      later.now.getAccount account.address = none →
        c.guar later (later.now.putAccount account) true) :
    (call (.insertAccount account)).run.Ensures c (fun result t =>
      (result = .ok .inserted ∧ ∃ before, t.posted = [(before, before.putAccount account)]) ∨
        (result ≠ .ok .inserted ∧ t.posted = [])) s := by
  refine ⟨trivial, fun later others reply after replied => ?_⟩
  have quiet := others.continues.posted.trans quiet
  rcases replied with ⟨rfl, free, rfl⟩ | ⟨rfl, rfl, _⟩ | ⟨rfl, rfl, _⟩
  · refine ⟨permits later others quiet free, fun final waits => .inl ⟨rfl, later.now, ?_⟩⟩
    rw [waits.continues.posted, Span.step, quiet]
    rfl
  · refine ⟨c.idle later, fun final waits => .inr ⟨?_, waits.continues.posted.trans quiet⟩⟩
    intro inserted
    cases inserted
  · refine ⟨c.idle later, fun final waits => .inr ⟨?_, waits.continues.posted.trans quiet⟩⟩
    intro inserted
    cases inserted

/-- A mint that has been seen is there from then on. -/
theorem ensures_getMint_known {address : MintAddress} (keeps : KeepsMints c.rely) :
    (call (.getMint address)).run.Ensures c (fun result t =>
      (∃ found, result = .ok found ∧ (found.isSome → (t.now.getMint address).isSome)) ∧
        s.Continues t) s := by
  refine ⟨trivial, fun later others reply after replied => ?_⟩
  obtain ⟨rfl, rfl⟩ := replied
  refine ⟨c.idle later, fun final waits => ⟨⟨_, rfl, fun found => ?_⟩, ?_⟩⟩
  · exact waits.keeps found fun span after present change => keeps change present
  · exact others.continues.trans ((Span.continues_step _ _).trans waits.continues)

end LedgerProgram

namespace Ledger

open LedgerProgram

variable {s : Span} {rely writes : MemoryStore → MemoryStore → Prop}

/-- How often a program has written at its end: as often as `count` says if it is done,
    never if it has failed. -/
def Wrote {α : Type} (count : Nat) (result : Except Failure α) (t : Span) : Prop :=
  t.posted.length = match result with
    | .ok _ => count
    | .error _ => 0

/-- What is done once a record has been put in, or has not. -/
def Creates {α : Type} (record : α) (put : MemoryStore → MemoryStore)
    (result : Except Failure α) (t : Span) : Prop :=
  match result with
  | .ok a => a = record ∧ ∃ before, t.posted = [(before, put before)]
  | .error _ => t.posted = []

theorem Creates.wrote {α : Type} {record : α} {put : MemoryStore → MemoryStore}
    {result : Except Failure α} {t : Span} (creates : Creates record put result t) :
    Wrote 1 result t := by
  cases result with
  | ok a =>
    obtain ⟨_, before, posted⟩ := creates
    exact congrArg List.length posted
  | error e => exact congrArg List.length creates

theorem ensures_done {α β : Type} {c : Contract} {x : LedgerProgram α} {record : α}
    {put : MemoryStore → MemoryStore} (f : α → β)
    (ensures : x.run.Ensures c (Creates record put) s) :
    (do return f (← x) : LedgerProgram β).run.Ensures c (Creates (f record) put) s := by
  refine ensures_bind ensures ?_ ?_
  · rintro a t ⟨rfl, before, posted⟩ final waits
    exact ⟨rfl, before, waits.continues.posted.trans posted⟩
  · exact fun e t quiet => quiet

theorem ensures_createMint {ns : Bytes} {signer : Principal} {address : MintAddress}
    {decimals : UInt8} (quiet : s.posted = [])
    (posts : ∀ {before after}, Posting ns signer (.createMint address decimals) before after →
      writes before after) :
    (createMint address decimals signer).run.Ensures (.once rely writes)
      (Creates (.empty address signer decimals)
        fun before => before.putMint (.empty address signer decimals)) s := by
  refine ensures_bind (ensures_lock _) ?_ ?_
  · rintro _ t ⟨_, on⟩
    have quiet := on.posted.trans quiet
    have inserting := @ensures_insertMint (.once rely writes) t (.empty address signer decimals)
      quiet fun span quiet free => .inr ⟨rfl, quiet, posts (.createMint free)⟩
    refine ensures_bind inserting ?_ ?_
    · rintro answer u (⟨same, before, posted⟩ | ⟨same, quiet⟩)
      · cases same
        intro final waits
        exact ⟨rfl, before, waits.continues.posted.trans posted⟩
      · cases same
        intro final waits
        exact waits.continues.posted.trans quiet
    · rintro e u (⟨same, _⟩ | ⟨same, _⟩) <;> cases same
  · rintro e t ⟨impossible, _⟩
    cases impossible

theorem ensures_createAccount {ledger : Ledger} {signer owner : Principal} {mint : MintAddress}
    (keeps : KeepsMints rely) (quiet : s.posted = [])
    (posts : ∀ {before after},
      Posting ledger.config.ns signer (.createAccount mint owner) before after →
        writes before after) :
    (ledger.createAccount mint owner signer).run.Ensures (.once rely writes)
      (Creates (.create ledger.config.ns owner mint)
        fun before => before.putAccount (.create ledger.config.ns owner mint)) s := by
  refine ensures_bind (ensures_lock _) ?_ ?_
  · rintro _ t ⟨_, on⟩
    refine ensures_bind (ensures_getMint_known keeps) ?_ ?_
    · rintro found u ⟨⟨_, same, known⟩, on'⟩
      cases same
      have quiet := (on.trans on').posted.trans quiet
      cases found with
      | none =>
        intro final waits
        exact waits.continues.posted.trans quiet
      | some mintRecord =>
        have inserting := @ensures_insertAccount (.once rely writes) u
          (.create ledger.config.ns owner mint) quiet ?_
        · refine ensures_bind inserting ?_ ?_
          · rintro answer v (⟨same, before, posted⟩ | ⟨other, quiet⟩)
            · cases same
              intro final waits
              exact ⟨rfl, before, waits.continues.posted.trans posted⟩
            · cases answer with
              | inserted => exact absurd rfl other
              | alreadyExists =>
                intro final waits
                exact waits.continues.posted.trans quiet
          · rintro e v (⟨impossible, _⟩ | ⟨_, quiet⟩)
            · cases impossible
            · exact quiet
        · -- the mint was there at the look-up, and others do not take it away
          intro later others quiet free
          have present := others.keeps (known rfl) fun _ _ present change => keeps change present
          obtain ⟨mintRecord, stored⟩ := Option.isSome_iff_exists.mp present
          exact .inr ⟨rfl, quiet, posts (.createAccount stored free)⟩
    · rintro e u ⟨⟨_, impossible, _⟩, _⟩
      cases impossible
  · rintro e t ⟨impossible, _⟩
    cases impossible

/-! ## Moving tokens -/

/-- What is asked to be committed is asked for by an operation that writes, and is what
    the operation is said to write. -/
theorem posting_of_judged {ledger : Ledger} {signer : Principal} {operation : Operation}
    {j : Judgement Outcome} (moves : ledger.judgement? signer operation = some j)
    {records after : MemoryStore} {outcome : Outcome} {batch : WriteBatch}
    (judged : j.judge records records = .ok (outcome, some batch))
    (committed : records.commit batch = .ok after) :
    Posting ledger.config.ns signer operation records after := by
  obtain ⟨_, _, rfl⟩ := MemoryStore.commit_eq_ok_iff.mp committed
  cases operation with
  | createMint mint decimals => cases moves
  | createAccount mint owner => cases moves
  | issue mint account amount =>
    cases moves
    obtain ⟨change, judged, _⟩ := Judgement.judge_map_unlessZero judged
    obtain ⟨nonzero, _, _, stored, stored', passed, rfl⟩ := judgeSupply_eq_some_iff.mp judged
    exact .issue nonzero stored stored' passed
  | transfer sender recipient amount =>
    cases moves
    obtain ⟨change, judged, _⟩ := Judgement.judge_map_unlessZero judged
    obtain ⟨⟨nonzero, different⟩, _, _, stored, stored', passed, rfl⟩ :=
      judgeTransfer_eq_some_iff.mp judged
    exact .transfer nonzero different stored stored' passed
  | burn mint account amount =>
    cases moves
    obtain ⟨change, judged, _⟩ := Judgement.judge_map_unlessZero judged
    obtain ⟨nonzero, _, _, stored, stored', passed, rfl⟩ := judgeSupply_eq_some_iff.mp judged
    exact .burn nonzero stored stored' passed

theorem permits_of_judged {ledger : Ledger} {signer : Principal} {operation : Operation}
    {j : Judgement Outcome} (moves : ledger.judgement? signer operation = some j)
    (posts : ∀ {before after}, Posting ledger.config.ns signer operation before after →
      writes before after) : Permits (.once rely writes) j :=
  fun quiet judged committed => .inr ⟨rfl, quiet, posts (posting_of_judged moves judged committed)⟩

theorem writes_of_judged {ledger : Ledger} {signer : Principal} {operation : Operation}
    {j : Judgement Outcome} (moves : ledger.judgement? signer operation = some j)
    {first second : MemoryStore} {outcome : Outcome} {batch? : Option WriteBatch}
    (judged : j.judge first second = .ok (outcome, batch?)) :
    batch?.isSome = operation.writes := by
  cases operation with
  | createMint mint decimals => cases moves
  | createAccount mint owner => cases moves
  | issue mint account amount =>
    cases moves
    obtain ⟨change, judged, _⟩ := Judgement.judge_map_unlessZero judged
    obtain ⟨_, _, _, _, _, rfl⟩ := judgeSupply_eq_ok_iff.mp judged
    by_cases zero : amount = 0 <;> simp [Operation.writes, zero]
  | transfer sender recipient amount =>
    cases moves
    obtain ⟨change, judged, _⟩ := Judgement.judge_map_unlessZero judged
    obtain ⟨_, _, _, _, _, rfl⟩ := judgeTransfer_eq_ok_iff.mp judged
    by_cases zero : amount = 0 <;> by_cases same : sender = recipient <;>
      simp [Operation.writes, zero, same]
  | burn mint account amount =>
    cases moves
    obtain ⟨change, judged, _⟩ := Judgement.judge_map_unlessZero judged
    obtain ⟨_, _, _, _, _, rfl⟩ := judgeSupply_eq_ok_iff.mp judged
    by_cases zero : amount = 0 <;> simp [Operation.writes, zero]

/-- An operation writes only as is said of it, if at all; it has written when it is done,
    unless there is nothing to write, and it has not when it fails. -/
theorem ensures_perform {ledger : Ledger} {signer : Principal} (operation : Operation)
    (keeps : KeepsMints rely) (quiet : s.posted = [])
    (posts : ∀ {before after}, Posting ledger.config.ns signer operation before after →
      writes before after) :
    (ledger.perform signer operation).run.Ensures (.once rely writes)
      (Wrote operation.writes.toNat) s := by
  cases moves : ledger.judgement? signer operation with
  | some j =>
    refine (ensures_perform_movement moves (permits_of_judged moves posts) quiet).mono
      fun result t answers => ?_
    -- one case for each way to answer, and in each the span says whether there was a write
    cases answers with
    | still quiet seen seen' judged =>
      have nothing := writes_of_judged moves judged
      rw [Wrote, quiet, ← nothing]
      rfl
    | refused quiet seen seen' judged => exact congrArg List.length quiet
    | posted posted seen judged committed =>
      have something := writes_of_judged moves judged
      rw [Wrote, posted, ← something]
      rfl
    | contended quiet seen seen' moved => exact congrArg List.length quiet
  | none =>
    cases operation with
    | createMint mint decimals =>
      exact (ensures_done _ (ensures_createMint quiet posts)).mono fun _ _ => Creates.wrote
    | createAccount mint owner =>
      exact (ensures_done _ (ensures_createAccount keeps quiet posts)).mono fun _ _ => Creates.wrote
    | issue mint account amount => cases moves
    | transfer sender recipient amount => cases moves
    | burn mint account amount => cases moves

end Ledger

end TokenLedger
