import TokenLedger.Proofs.Ledger.Posting

/-! # Requests, one after the other

What a ledger can be asked to write comes as an operation for a signer who is
believed, or as an envelope.  `Request.ensures` carries over to requests what is
known of operations, and `Request.run_alone` says what it comes to if nobody else
uses the store meanwhile: the records stay as they are, or the operation is posted.
`serve` is the run of requests one after the other.
-/

namespace TokenLedger

/-- What a ledger is asked to do. -/
inductive Request where
  /-- Do an operation for a signer. -/
  | act (signer : Principal) (operation : Operation)
  /-- Do the operation of an envelope, if it authenticates. -/
  | submit (envelope : SignedOperation)

namespace Request

/-- The operation that is asked for. -/
def operation : Request → Operation
  | act _ operation => operation
  | submit envelope => envelope.operation

/-- The principal for whom a ledger does the operation. -/
def signer (ledger : Ledger) : Request → Except CoreError Principal
  | act signer _ => .ok signer
  | submit envelope => ledger.authenticator.authenticate envelope

/-- What a ledger does on a request. -/
def program (ledger : Ledger) : Request → LedgerProgram Outcome
  | act signer operation => ledger.perform signer operation
  | submit envelope => ledger.submit envelope

/-- A request that is done alone. -/
def run (ledger : Ledger) (request : Request) (store : AnyStore) :
    Program.Finished AnyStore (Except Failure Outcome) :=
  Program.run (request.program ledger).run store

/-- What a request writes, if it writes. -/
def Posts (ledger : Ledger) (request : Request) (before after : MemoryStore) : Prop :=
  ∃ signer, request.signer ledger = .ok signer ∧
    Posting ledger.config.ns signer request.operation before after

variable {ledger : Ledger} {request : Request}

theorem program_eq_perform {signer : Principal} (signed : request.signer ledger = .ok signer) :
    request.program ledger = ledger.perform signer request.operation := by
  cases request with
  | act p operation =>
    cases signed
    rfl
  | submit envelope =>
    show ledger.submit envelope = _
    rw [Ledger.submit, show ledger.authenticator.authenticate envelope = .ok signer from signed]
    rfl

/-- A request writes only as is said of it, if at all; it has written when it is done,
    unless there is nothing to write, and it has not when it fails. -/
theorem ensures_writes {rely writes : MemoryStore → MemoryStore → Prop} {s : Span}
    (keeps : KeepsMints rely) (quiet : s.posted = [])
    (posts : ∀ {before after}, request.Posts ledger before after → writes before after) :
    (request.program ledger).run.Ensures (.once rely writes)
      (Ledger.Wrote request.operation.writes.toNat) s := by
  cases signed : request.signer ledger with
  | ok signer =>
    rw [program_eq_perform signed]
    exact ledger.ensures_perform request.operation keeps quiet fun posting =>
      posts ⟨_, signed, posting⟩
  | error e =>
    cases request with
    | act p operation => cases signed
    | submit envelope =>
      show (ledger.submit envelope).run.Ensures _ _ s
      rw [Ledger.submit, show ledger.authenticator.authenticate envelope = .error e from signed]
      exact fun final waits => congrArg List.length (waits.continues.posted.trans quiet)

theorem ensures {rely : MemoryStore → MemoryStore → Prop} {s : Span} (keeps : KeepsMints rely)
    (quiet : s.posted = []) :
    (request.program ledger).run.Ensures (.once rely (request.Posts ledger))
      (Ledger.Wrote request.operation.writes.toNat) s :=
  ensures_writes keeps quiet id

theorem keepsMints_alone : KeepsMints fun _ _ => False := fun impossible => impossible.elim

/-- A request that is done alone leaves the records as they are or posts its operation,
    and leaves them as they are if it fails. -/
theorem run_alone {store : AnyStore} {records : MemoryStore} (holds : store.Holds records) :
    ∃ after, (request.run ledger store).store.Holds after ∧
      (after = records ∨ request.Posts ledger records after) ∧
      ∀ e, (request.run ledger store).result = .error e → after = records := by
  have writes := @ensures ledger request (fun _ _ => False) (.start records) keepsMints_alone rfl
  obtain ⟨final, held, wrote, ⟨_, still⟩ | ⟨posted, posts⟩⟩ := writes.run_once holds
  · have same := still _ final.now_mem
    exact ⟨final.now, held, .inl same, fun _ _ => same⟩
  · refine ⟨final.now, held, .inr posts, fun e failed => ?_⟩
    have unwritten : Ledger.Wrote _ (request.run ledger store).result final := wrote
    rw [failed, Ledger.Wrote, posted] at unwritten
    cases unwritten

end Request

/-- The store after requests to ledgers, one after the other. -/
def serve (start : AnyStore) (requests : List (Ledger × Request)) : AnyStore :=
  requests.foldl (fun store (ledger, request) => (request.run ledger store).store) start

/-- A store that holds records still does after requests. -/
theorem serve_holds {start : AnyStore} {records : MemoryStore} (holds : start.Holds records)
    (requests : List (Ledger × Request)) : ∃ after, (serve start requests).Holds after := by
  induction requests generalizing start records with
  | nil => exact ⟨records, holds⟩
  | cons first rest ih =>
    obtain ⟨ledger, request⟩ := first
    obtain ⟨between, held, _⟩ := @Request.run_alone ledger request _ _ holds
    exact ih held

/-- An operation under a claimed signer, with no signature to speak of. -/
def SignedOperation.claimed (signer : Principal) (operation : Operation) : SignedOperation :=
  { signer, operation, signature := ⟨.replicate 64 0, List.length_replicate⟩ }

end TokenLedger
