import TokenLedger.Proofs.Ledger.Settlement
import TokenLedger.Proofs.SharedStore.Basic

/-! # Answers that no moment justifies

While ledgers share a store, is every answer one that the operation could have had
if it had been done alone, at a single moment between its call and its return?  For
operations that move tokens it is, but for the two kinds of answers that
`Process.Torn` lists.  They come about when somebody else commits between the two
loads: the mint or the sender of the one moment is then judged together with the
account of the other.
-/

namespace TokenLedger

/-! ## What has been seen while tokens move -/

theorem Span.Steady.grow {span later : Span} {after : MemoryStore} (steady : span.Steady)
    (moments : later.moments = after :: span.moments) (balanced : after.Balanced)
    (kin : span.now.Kin after) : later.Steady := by
  constructor
  · intro records seen
    rw [moments] at seen
    rcases List.mem_cons.mp seen with rfl | seen
    · exact balanced
    · exact steady.balanced records seen
  · intro a seen b seen'
    rw [moments] at seen seen'
    -- every earlier moment is kin to the present one, and that to the next
    have on : ∀ records ∈ span.moments, records.Kin after := fun records seen =>
      (steady.kin records seen span.now span.now_mem).trans kin
    rcases List.mem_cons.mp seen with rfl | earlier
    · rcases List.mem_cons.mp seen' with rfl | earlier'
      · exact .refl _
      · exact (on b earlier').symm
    · rcases List.mem_cons.mp seen' with rfl | earlier'
      · exact on a earlier
      · exact steady.kin a earlier b earlier'

theorem Span.steady_start {records : MemoryStore} (balanced : records.Balanced) :
    (Span.start records).Steady := by
  constructor
  · intro a seen
    rw [List.mem_singleton.mp seen]
    exact balanced
  · intro a seen b seen'
    rw [List.mem_singleton.mp seen, List.mem_singleton.mp seen']
    exact .refl records

namespace Request

/-- Whether a request is one to move tokens. -/
def Moves (_ : Ledger) (request : Request) : Prop := request.operation.moves = true

/-- What a request to move tokens may answer after it has seen a span. -/
def Answers (ledger : Ledger) (request : Request) (result : Except Failure Outcome) (t : Span) :
    Prop :=
  match request.signer ledger with
  | .ok signer => ∃ j, ledger.judgement? signer request.operation = some j ∧ j.Answers t result
  | .error e => result = .error (.authentication e)

variable {ledger : Ledger} {request : Request}

theorem kin_written {before after : MemoryStore} (written : Written Moves before after) :
    before.Kin after := by
  rcases written with rfl | ⟨_, _, moves, _, _, posting⟩
  · exact .refl _
  · exact posting.kin moves

theorem ensures_answers {rely : MemoryStore → MemoryStore → Prop} {s : Span}
    (moves : request.Moves ledger) (quiet : s.posted = []) :
    (request.program ledger).run.Ensures (.once rely (request.Posts ledger))
      (request.Answers ledger) s := by
  unfold Answers
  cases signed : request.signer ledger with
  | ok signer =>
    obtain ⟨j, judged⟩ := ledger.exists_judgement signer moves
    rw [program_eq_perform signed]
    have permits : LedgerProgram.Permits (.once rely (request.Posts ledger)) j :=
      fun quiet judged' committed =>
        .inr ⟨rfl, quiet, signer, signed, Ledger.posting_of_judged judged judged' committed⟩
    exact (Ledger.ensures_perform_movement judged permits quiet).mono
      fun _ _ answers => ⟨j, judged, answers⟩
  | error e =>
    cases request with
    | act p operation => cases signed
    | submit envelope =>
      show (ledger.submit envelope).run.Ensures _ _ s
      rw [Ledger.submit, show ledger.authenticator.authenticate envelope = .error e from signed]
      exact fun _ _ => rfl

/-- A request that is done alone answers by the records that it finds. -/
theorem run_answers {store : AnyStore} {records : MemoryStore} (holds : store.Holds records) :
    match request.signer ledger with
    | .ok signer => ∀ j, ledger.judgement? signer request.operation = some j →
        (request.run ledger store).result = j.answer records records
    | .error e => (request.run ledger store).result = .error (.authentication e) := by
  unfold run
  cases signed : request.signer ledger with
  | ok signer =>
    intro j judged
    rw [program_eq_perform signed]
    exact Ledger.perform_alone judged holds
  | error e =>
    cases request with
    | act p operation => cases signed
    | submit envelope =>
      show (Program.run (ledger.submit envelope).run store).result = _
      rw [Ledger.submit, show ledger.authenticator.authenticate envelope = .error e from signed]
      rfl

end Request

/-- Requests to move tokens, and what they may answer. -/
def Discipline.moving : Discipline where
  allowed := Request.Moves
  post ledger request result span := request.Answers ledger result span ∧ span.Steady
  starts := by
    intro ledger request records moves balanced
    have grows : ∀ {span later : Span} {after : MemoryStore}, span.Steady →
        later.moments = after :: span.moments → Written Request.Moves span.now after →
          later.Steady :=
      fun steady moments written => steady.grow moments
        (written.balanced (steady.balanced _ (Span.now_mem _))) (Request.kin_written written)
    refine (Request.ensures_answers moves rfl).invariant (Span.steady_start balanced) ?_ ?_
    · exact fun span after steady written => grows steady rfl written
    · rintro span after wrote steady (⟨_, same⟩ | ⟨_, _, posts⟩)
      · exact grows steady rfl (.inl same)
      · exact grows steady rfl (.inr ⟨ledger, request, moves, posts⟩)

/-! ## Justified answers -/

theorem exists_mem_iff_of_forall₂ {α β : Type} {R : α → β → Prop} {as : List α} {bs : List β}
    (paired : List.Forall₂ R as bs) {P : α → Prop} {Q : β → Prop}
    (same : ∀ a b, R a b → (P a ↔ Q b)) : (∃ a ∈ as, P a) ↔ ∃ b ∈ bs, Q b := by
  induction paired with
  | nil => simp
  | cons first _ ih => simp [same _ _ first, ih]

namespace Process

/-- Whether a process could have given an answer, had it been done alone at one of its moments. -/
def Justified (p : Process) (answer : Except Failure Outcome) : Prop :=
  ∃ store ∈ p.moments, (p.request.run p.ledger store).result = answer

instance (p : Process) (answer : Except Failure Outcome) : Decidable (p.Justified answer) :=
  inferInstanceAs (Decidable (∃ store ∈ p.moments, (p.request.run p.ledger store).result = answer))

/-- The answers that come of records of two moments: an overflow that is not an issue's,
    and the answer without a write that shows records which were never there together. -/
def Torn (p : Process) (answer : Except Failure Outcome) : Prop :=
  (answer = .error (.rejected .overflow) ∧ p.request.operation.kind ≠ .issue) ∨
    ∃ outcome, answer = .ok outcome ∧ p.writes = 0 ∧ ∀ store ∈ p.moments, ¬outcome.StoredIn store

theorem justified_iff_of_follows {p : Process} {span : Span}
    (follows : Discipline.moving.Follows p span) {answer : Except Failure Outcome}
    (answered : p.answer? = some answer) (replied : ∀ reason, answer ≠ .error (.storage reason)) :
    p.Justified answer ↔ ¬p.Torn answer := by
  obtain ⟨answers, steady⟩ := follows.answered answered
  have alone := @Request.run_answers p.ledger p.request
  unfold Request.Answers at answers
  cases signed : p.request.signer p.ledger with
  | ok signer =>
    simp only [signed] at answers alone
    obtain ⟨j, judged, answers⟩ := answers
    have justified : p.Justified answer ↔
        ∃ records ∈ span.moments, j.answer records records = answer :=
      exists_mem_iff_of_forall₂ follows.moments fun _ _ holds => by rw [alone holds j judged]
    have unseen : ∀ outcome : Outcome, (∀ store ∈ p.moments, ¬outcome.StoredIn store) ↔
        ∀ records ∈ span.moments, ¬outcome.StoredIn records := by
      intro outcome
      have seen := exists_mem_iff_of_forall₂ follows.moments
        fun _ _ holds => @Outcome.storedIn_iff _ _ holds outcome
      simpa using not_congr seen
    have unwritten : p.writes = 0 ↔ span.posted = [] := by
      rw [follows.writes, List.length_eq_zero_iff]
    rw [justified, Judgement.justified_iff (Ledger.settles judged) steady answers replied, Torn]
    simp only [unwritten, unseen]
  | error e =>
    simp only [signed] at answers alone
    subst answers
    have justified : p.Justified (.error (.authentication e)) ↔ ∃ records ∈ span.moments, True :=
      exists_mem_iff_of_forall₂ follows.moments fun _ _ holds => iff_true_intro (alone holds)
    rw [justified]
    -- an envelope that does not authenticate is refused at any moment
    refine iff_of_true ⟨span.now, span.now_mem, trivial⟩ ?_
    rintro (⟨impossible, _⟩ | ⟨outcome, impossible, _⟩) <;> cases impossible

end Process

namespace SharedStore

/-- Once ledgers have written to a store, each of them in any number of requests at a time,
    an answer to a request to move tokens is justified by one moment unless it is torn. -/
theorem answer_justified_iff {origin : AnyStore} (empty : origin.IsEmpty) (earlier : List Action)
    {actions : List Action} (moving : ∀ action ∈ actions, action.Asks Request.Moves) {p : Process}
    (made : p ∈ ((start ((start origin).run earlier).store).run actions).processes)
    {answer : Except Failure Outcome} (answered : p.answer? = some answer)
    (replied : ∀ reason, answer ≠ .error (.storage reason)) :
    p.Justified answer ↔ ¬p.Torn answer := by
  obtain ⟨records, holds, balanced⟩ := run_balanced empty earlier
  have first := @keeps_start .moving _ _ holds balanced
  obtain ⟨_, keeps, _⟩ := @run_keeps .moving _ _ (fun _ _ => True) (fun _ _ => trivial) first
    trivial actions moving
  obtain ⟨span, follows, _⟩ := keeps.sound p made
  exact Process.justified_iff_of_follows follows answered replied

/-- A ledger creates a mint and an account. -/
def opening (mint : MintAddress) (authority owner : Principal) : List Action :=
  .request {} (.act authority (.createMint mint 0)) :: .replicate 4 (.turn 0) ++
    .request {} (.act authority (.createAccount mint owner)) :: .replicate 5 (.turn 1)

/-- Another ledger issues ten tokens between the two loads of a burn of ten. -/
def tornBurn (mint : MintAddress) (authority owner : Principal) : List Action :=
  let account := AccountAddress.derive Derivation.defaultNamespace owner mint
  let another : Ledger := { config := { rejectZeroAmounts := true } }
  .request {} (.act owner (.burn mint account 10)) :: .replicate 3 (.turn 0) ++
    .request another (.act authority (.issue mint account 10)) :: .replicate 6 (.turn 1) ++
    .replicate 2 (.turn 0)

theorem tornBurn_moves (mint : MintAddress) (authority owner : Principal) :
    ∀ action ∈ tornBurn mint authority owner, action.Asks Request.Moves := by
  simp [tornBurn, Action.Asks, Request.Moves, Request.operation, Operation.moves]

/-- The burn overflows, as it would have done at none of its moments: there are no tokens
    at first, and ten of the mint and in the account from the commit on. -/
theorem exists_tornBurn :
    let mint : MintAddress := ⟨.replicate 2⟩
    let authority : Principal := ⟨.replicate 1⟩
    let owner : Principal := ⟨.replicate 3⟩
    let store := ((start .emptyMemory).run (opening mint authority owner)).store
    ∃ p ∈ ((start store).run (tornBurn mint authority owner)).processes,
      p.answer? = some (.error (.rejected .overflow)) ∧
        ¬p.Justified (.error (.rejected .overflow)) := by
  decide +kernel

theorem answer_justified_iff_tornBurn :
    let mint : MintAddress := ⟨.replicate 2⟩
    let authority : Principal := ⟨.replicate 1⟩
    let owner : Principal := ⟨.replicate 3⟩
    let store := ((start .emptyMemory).run (opening mint authority owner)).store
    ∃ p ∈ ((start store).run (tornBurn mint authority owner)).processes,
      p.answer? = some (.error (.rejected .overflow)) ∧
        (p.Justified (.error (.rejected .overflow)) ↔ ¬p.Torn (.error (.rejected .overflow))) ∧
          p.Torn (.error (.rejected .overflow)) := by
  obtain ⟨p, made, answered, unjustified⟩ := exists_tornBurn
  have settled := answer_justified_iff AnyStore.isEmpty_emptyMemory _ (tornBurn_moves _ _ _) made
    answered (fun reason impossible => by cases impossible)
  exact ⟨p, made, answered, settled, not_not.mp (mt settled.mpr unjustified)⟩

/-- Not every answer is justified by one moment. -/
theorem not_all_answers_justified :
    ¬∀ (origin : AnyStore) (earlier actions : List Action), origin.IsEmpty →
      (∀ action ∈ actions, action.Asks Request.Moves) →
        ∀ p ∈ ((start ((start origin).run earlier).store).run actions).processes,
          ∀ answer, p.answer? = some answer → (∀ reason, answer ≠ .error (.storage reason)) →
            p.Justified answer := by
  intro justified
  obtain ⟨p, made, answered, unjustified⟩ := exists_tornBurn
  refine unjustified (justified _ _ _ AnyStore.isEmpty_emptyMemory (tornBurn_moves _ _ _) p made _
    answered fun reason impossible => ?_)
  cases impossible

end SharedStore

end TokenLedger
