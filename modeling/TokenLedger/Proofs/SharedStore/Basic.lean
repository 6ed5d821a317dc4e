import Mathlib.Algebra.Ring.Int.Defs
import TokenLedger.Proofs.Ledger.Authorization
import TokenLedger.Proofs.Ledger.Conservation

/-! # Ledgers that share a store

Any number of ledgers work on one store, each on any number of requests at a time.
Whoever has a turn makes one call, or takes one other step, and then it may be
anybody's turn: between any two calls of one request there may be calls of all the
others.  Locks are granted at once.  They are a ledger's own and mean nothing to
the others, and what they would keep apart within one ledger is only more that may
happen here.

A process remembers the store at each moment from its call on to its return, and
how many of its own calls have written.
-/

namespace TokenLedger

/-- A request on its way through a ledger. -/
structure Process where
  ledger : Ledger
  request : Request
  /-- What is still to be done. -/
  rest : Program (Except Failure Outcome)
  /-- The store at the moments since the request was made, the latest first. -/
  moments : List AnyStore
  /-- How many calls have written: commits that succeeded, and insertions. -/
  writes : Nat

namespace Process

/-- A request that is made of a ledger. -/
def start (ledger : Ledger) (request : Request) (store : AnyStore) : Process where
  ledger := ledger
  request := request
  rest := (request.program ledger).run
  moments := [store]
  writes := 0

/-- The process after somebody else's call. One that has returned takes no notice. -/
def observe (store : AnyStore) (p : Process) : Process :=
  match p.rest with
  | .done _ => p
  | .perform _ _ => { p with moments := store :: p.moments }

/-- What a process has answered, if it has returned. -/
def answer? (p : Process) : Option (Except Failure Outcome) :=
  match p.rest with
  | .done result => some result
  | .perform _ _ => none

theorem answer?_eq_some_iff {p : Process} {answer : Except Failure Outcome} :
    p.answer? = some answer ↔ p.rest = .done answer := by
  unfold answer?
  split
  next result finished => rw [finished, Option.some.injEq, Program.done.injEq]
  next effect next unfinished => simp [unfinished]

/-- The writes of a process, weighed by its request. -/
def weight (weigh : Ledger → Request → Int) (p : Process) : Int :=
  p.writes * weigh p.ledger p.request

theorem weight_observe (weigh : Ledger → Request → Int) (store : AnyStore) (p : Process) :
    (p.observe store).weight weigh = p.weight weigh := by
  unfold observe
  split <;> rfl

end Process

/-- A store and the requests that have been made of the ledgers that share it. -/
structure SharedStore where
  store : AnyStore
  processes : List Process

/-- What may happen next. -/
inductive Action where
  /-- A request is made of a ledger. -/
  | request (ledger : Ledger) (request : Request)
  /-- A process takes its next step. -/
  | turn (index : Nat)

/-- Whether an action makes no request but of some that are allowed. -/
def Action.Asks (allowed : Ledger → Request → Prop) : Action → Prop
  | .request ledger asked => allowed ledger asked
  | .turn _ => True

namespace SharedStore

/-- A store before any requests. -/
def start (store : AnyStore) : SharedStore := { store, processes := [] }

/-- The shared store after a step of the process with an index. -/
def step (shared : SharedStore) (index : Nat) (p : Process) : SharedStore :=
  match p.rest with
  | .done _ => shared
  | .perform (.call call) next =>
    let (reply, store) := RecordStore.answer call shared.store
    let p := { p with
      rest := next reply
      moments := store :: p.moments
      writes := p.writes + (call.wrote reply).toNat }
    { store, processes := (shared.processes.map (·.observe store)).set index p }
  | .perform (.acquire _) next =>
    { shared with processes := shared.processes.set index { p with rest := next () } }
  | .perform (.note _) next =>
    { shared with processes := shared.processes.set index { p with rest := next () } }

/-- The shared store after something has happened. -/
def act (shared : SharedStore) : Action → SharedStore
  | .request ledger request =>
    { shared with processes := shared.processes ++ [.start ledger request shared.store] }
  | .turn index =>
    match shared.processes[index]? with
    | some p => shared.step index p
    | none => shared

/-- The shared store after several things have happened, one after the other. -/
def run (shared : SharedStore) (actions : List Action) : SharedStore := actions.foldl act shared

/-- The writes of all processes, each weighed by its request. -/
def tally (shared : SharedStore) (weigh : Ledger → Request → Int) : Int :=
  (shared.processes.map (Process.weight weigh)).sum

end SharedStore

/-! ## What processes keep to -/

/-- How the records may change when requests of a kind are made. -/
def Written (allowed : Ledger → Request → Prop) (before after : MemoryStore) : Prop :=
  after = before ∨ ∃ ledger request, allowed ledger request ∧ request.Posts ledger before after

theorem Written.balanced {allowed : Ledger → Request → Prop} {before after : MemoryStore}
    (written : Written allowed before after) (balanced : before.Balanced) : after.Balanced := by
  rcases written with rfl | ⟨_, _, _, _, _, posting⟩
  · exact balanced
  · exact posting.balanced balanced

/-- Which requests are made, and what is to be shown of their answers. -/
structure Discipline where
  allowed : Ledger → Request → Prop
  post : Ledger → Request → Except Failure Outcome → Span → Prop
  starts : ∀ {ledger request records}, allowed ledger request → records.Balanced →
    (request.program ledger).run.Ensures (.once (Written allowed) (request.Posts ledger))
      (post ledger request) (.start records)

namespace Discipline

variable (d : Discipline)

/-- What is known of a process that has seen a span. -/
structure Follows (p : Process) (span : Span) : Prop where
  allowed : d.allowed p.ledger p.request
  ensures : p.rest.Ensures (.once (Written d.allowed) (p.request.Posts p.ledger))
    (d.post p.ledger p.request) span
  moments : List.Forall₂ AnyStore.Holds p.moments span.moments
  writes : p.writes = span.posted.length
  once : span.posted.length ≤ 1

/-- What is known of a process while the store holds records: its span ends with them,
    unless it has returned. -/
def Sound (records : MemoryStore) (p : Process) : Prop :=
  ∃ span, d.Follows p span ∧ (span.now = records ∨ ∃ result, p.rest = .done result)

/-- What is known of a shared store that holds records. -/
structure Keeps (shared : SharedStore) (records : MemoryStore) : Prop where
  holds : shared.store.Holds records
  balanced : records.Balanced
  sound : ∀ p ∈ shared.processes, d.Sound records p

variable {d}

theorem sound_start {ledger : Ledger} {request : Request} {store : AnyStore}
    {records : MemoryStore} (allowed : d.allowed ledger request) (holds : store.Holds records)
    (balanced : records.Balanced) : d.Sound records (.start ledger request store) :=
  ⟨.start records, ⟨allowed, d.starts allowed balanced, .cons holds .nil, rfl, Nat.zero_le 1⟩,
    .inl rfl⟩

/-- A process that has returned meets the postcondition. -/
theorem Follows.answered {p : Process} {span : Span} (follows : d.Follows p span)
    {answer : Except Failure Outcome} (answered : p.answer? = some answer) :
    d.post p.ledger p.request answer span := by
  have ensures := follows.ensures
  rw [Process.answer?_eq_some_iff.mp answered] at ensures
  exact ensures span (.refl span)

/-- What the records are when it is the turn of a process that has not returned. -/
theorem now_eq_of_unfinished {records : MemoryStore} {p : Process} {span : Span} {effect : Effect}
    {next : effect.Reply → Program (Except Failure Outcome)}
    (now : span.now = records ∨ ∃ result, p.rest = .done result)
    (unfinished : p.rest = .perform effect next) : span.now = records := by
  rcases now with now | ⟨result, finished⟩
  · exact now
  · rw [unfinished] at finished
    cases finished

/-- A process stays sound when another has changed the records. -/
theorem Sound.observe {before after : MemoryStore} {store : AnyStore} {p : Process}
    (sound : d.Sound before p) (change : Written d.allowed before after)
    (holds : store.Holds after) : d.Sound after (p.observe store) := by
  obtain ⟨span, follows, now⟩ := sound
  unfold Process.observe
  split
  next result finished => exact ⟨span, follows, .inr ⟨result, finished⟩⟩
  next effect next unfinished =>
    -- what another has done is one more thing that may happen while the process waits
    obtain rfl := now_eq_of_unfinished now unfinished
    refine ⟨span.observe after,
      ⟨follows.allowed, ?_, .cons holds follows.moments, follows.writes, follows.once⟩, .inl rfl⟩
    exact follows.ensures.waits (.other (.refl span) change)

/-- A process that makes a call keeps to its contract, and is followed on. -/
theorem Follows.call {p : Process} {span : Span} (follows : d.Follows p span) {call : StoreCall}
    {next : call.Reply → Program (Except Failure Outcome)}
    (unfinished : p.rest = .perform (.call call) next) {store : AnyStore}
    (holds : store.Holds span.now) :
    ∃ after, (RecordStore.answer call store).2.Holds after ∧
      (Contract.once (Written d.allowed) (p.request.Posts p.ledger)).guar span after
        (call.wrote (RecordStore.answer call store).1) ∧
      d.Follows
        { p with
          rest := next (RecordStore.answer call store).1
          moments := (RecordStore.answer call store).2 :: p.moments
          writes := p.writes + (call.wrote (RecordStore.answer call store).1).toNat }
        (span.step after (call.wrote (RecordStore.answer call store).1)) := by
  have ensures := follows.ensures
  rw [unfinished] at ensures
  obtain ⟨distinct, each⟩ := ensures
  obtain ⟨after, held, replied⟩ := AnyStore.replies holds distinct
  obtain ⟨guar, rest⟩ := each span (.refl span) _ after replied
  refine ⟨after, held, guar, follows.allowed, rest, .cons held follows.moments, ?_, ?_⟩
  · show p.writes + _ = _
    rw [follows.writes, Span.step]
    cases call.wrote (RecordStore.answer call store).1 <;> rfl
  · rcases guar with ⟨quiet, _⟩ | ⟨wrote, unposted, _⟩
    · rw [Span.step, quiet]
      exact follows.once
    · -- the contract has only those write that have not, so this is the one write
      rw [Span.step, wrote, unposted]
      exact Nat.le_refl 1

end Discipline

/-! ## Steps -/

namespace SharedStore

variable {d : Discipline} {shared : SharedStore} {before : MemoryStore}

/-- What an action comes to: the records stay as they are, or a request is posted that
    had not been, and is counted. -/
inductive Advances (d : Discipline) (before : MemoryStore) (tally : (Ledger → Request → Int) → Int)
    (after : MemoryStore) (tally' : (Ledger → Request → Int) → Int) : Prop
  | quiet (same : after = before) (uncounted : ∀ weigh, tally' weigh = tally weigh)
  | posted {ledger : Ledger} {request : Request} (allowed : d.allowed ledger request)
    (posts : request.Posts ledger before after)
    (counted : ∀ weigh, tally' weigh = tally weigh + weigh ledger request)

theorem tally_set {weigh : Ledger → Request → Int} {processes : List Process} {index : Nat}
    {p p' : Process} (found : processes[index]? = some p) :
    ((processes.set index p').map (Process.weight weigh)).sum =
      (processes.map (Process.weight weigh)).sum - p.weight weigh + p'.weight weigh := by
  obtain ⟨inside, rfl⟩ := List.getElem?_eq_some_iff.mp found
  rw [List.map_set, List.sum_set']
  rw [dif_pos (by simpa using inside), List.getElem_map]
  omega

theorem tally_observe (weigh : Ledger → Request → Int) (store : AnyStore)
    (processes : List Process) :
    ((processes.map (·.observe store)).map (Process.weight weigh)).sum =
      (processes.map (Process.weight weigh)).sum := by
  rw [List.map_map]
  exact congrArg List.sum (List.map_congr_left fun p _ => p.weight_observe weigh store)

/-- A step that is no call concerns its process alone. -/
theorem keeps_rest (keeps : d.Keeps shared before) {index : Nat} {p : Process} {span : Span}
    (found : shared.processes[index]? = some p) (follows : d.Follows p span)
    (now : span.now = before) {rest : Program (Except Failure Outcome)}
    (ensures : rest.Ensures (.once (Written d.allowed) (p.request.Posts p.ledger))
      (d.post p.ledger p.request) span) :
    let next : SharedStore :=
      { shared with processes := shared.processes.set index { p with rest } }
    d.Keeps next before ∧ Advances d before shared.tally before next.tally := by
  refine ⟨⟨keeps.holds, keeps.balanced, fun q member => ?_⟩, .quiet rfl fun weigh => ?_⟩
  · rcases List.mem_or_eq_of_mem_set member with member | rfl
    · exact keeps.sound q member
    · exact ⟨span, ⟨follows.allowed, ensures, follows.moments, follows.writes, follows.once⟩,
        .inl now⟩
  · have same : Process.weight weigh { p with rest } = p.weight weigh := rfl
    rw [tally, tally_set found, same, tally]
    omega

/-- A step of one process keeps to the discipline, and what it writes is counted. -/
theorem step_keeps (keeps : d.Keeps shared before) {index : Nat} {p : Process}
    (found : shared.processes[index]? = some p) :
    ∃ after, d.Keeps (shared.step index p) after ∧
      Advances d before shared.tally after (shared.step index p).tally := by
  obtain ⟨span, follows, now⟩ := keeps.sound p (List.mem_of_getElem? found)
  unfold step
  split
  next result finished => exact ⟨before, keeps, .quiet rfl fun _ => rfl⟩
  next call next unfinished =>
    obtain rfl := Discipline.now_eq_of_unfinished now unfinished
    obtain ⟨after, held, guar, followed⟩ := follows.call unfinished keeps.holds
    have change : Written d.allowed span.now after := by
      rcases guar with ⟨_, same⟩ | ⟨_, _, posts⟩
      · exact .inl same
      · exact .inr ⟨_, _, follows.allowed, posts⟩
    have found' :
        (shared.processes.map (·.observe (RecordStore.answer call shared.store).2))[index]? =
        some (p.observe (RecordStore.answer call shared.store).2) := by
      rw [List.getElem?_map, found]
      rfl
    refine ⟨after, ⟨held, change.balanced keeps.balanced, fun q member => ?_⟩, ?_⟩
    · rcases List.mem_or_eq_of_mem_set member with member | rfl
      · obtain ⟨r, running, rfl⟩ := List.mem_map.mp member
        exact (keeps.sound r running).observe change held
      · exact ⟨_, followed, .inl rfl⟩
    · -- a tally changes by what the writes of this one process weigh more than before
      rcases guar with ⟨quiet, same⟩ | ⟨wrote, _, posts⟩
      · refine .quiet same fun weigh => ?_
        rw [tally, tally_set found', Process.weight_observe, tally_observe, tally]
        simp only [Process.weight, quiet, Bool.toNat_false, Nat.add_zero]
        omega
      · refine .posted follows.allowed posts fun weigh => ?_
        rw [tally, tally_set found', Process.weight_observe, tally_observe, tally]
        simp only [Process.weight, wrote, Bool.toNat_true, Int.natCast_add, Int.add_mul]
        omega
  next keys next unfinished =>
    have ensures := follows.ensures
    rw [unfinished] at ensures
    exact ⟨before, keeps_rest keeps found follows
      (Discipline.now_eq_of_unfinished now unfinished) ensures⟩
  next event next unfinished =>
    have ensures := follows.ensures
    rw [unfinished] at ensures
    exact ⟨before, keeps_rest keeps found follows
      (Discipline.now_eq_of_unfinished now unfinished) ensures⟩

theorem act_keeps (keeps : d.Keeps shared before) {action : Action} (asks : action.Asks d.allowed) :
    ∃ after, d.Keeps (shared.act action) after ∧
      Advances d before shared.tally after (shared.act action).tally := by
  cases action with
  | request ledger request =>
    refine ⟨before, ⟨keeps.holds, keeps.balanced, fun q member => ?_⟩, .quiet rfl fun weigh => ?_⟩
    · rcases List.mem_append.mp member with member | member
      · exact keeps.sound q member
      · cases List.mem_singleton.mp member
        exact Discipline.sound_start asks keeps.holds keeps.balanced
    · simp [act, tally, Process.weight, Process.start]
  | turn index =>
    cases found : shared.processes[index]? with
    | none =>
      simp only [act, found]
      exact ⟨before, keeps, .quiet rfl fun _ => rfl⟩
    | some p =>
      simp only [act, found]
      exact step_keeps keeps found

/-- What holds of the records and the counts at the start, and is kept by every posting
    that is counted, holds after any run. -/
theorem run_keeps {holds : MemoryStore → ((Ledger → Request → Int) → Int) → Prop}
    (advances : ∀ {before tally after tally'}, holds before tally →
      Advances d before tally after tally' → holds after tally')
    (keeps : d.Keeps shared before) (first : holds before shared.tally) {actions : List Action}
    (asks : ∀ action ∈ actions, action.Asks d.allowed) :
    ∃ after, d.Keeps (shared.run actions) after ∧ holds after (shared.run actions).tally := by
  induction actions generalizing shared before with
  | nil => exact ⟨before, keeps, first⟩
  | cons action rest ih =>
    obtain ⟨between, keeps, advance⟩ := act_keeps keeps (asks action (by simp))
    exact ih keeps (advances first advance) fun other member => asks other (by simp [member])

end SharedStore

/-! ## Any requests -/

theorem keepsMints_written (allowed : Ledger → Request → Prop) : KeepsMints (Written allowed) := by
  intro before after address written present
  rcases written with rfl | ⟨_, _, _, _, _, posting⟩
  · exact present
  · obtain ⟨old, stored⟩ := Option.isSome_iff_exists.mp present
    obtain ⟨new, stored', _⟩ := posting.mint_change stored
    exact Option.isSome_of_eq_some stored'

/-- Any requests, and how often they have written when they return. -/
def Discipline.any : Discipline where
  allowed _ _ := True
  post _ request := Ledger.Wrote request.operation.writes.toNat
  starts _ _ := Request.ensures (keepsMints_written _) rfl

namespace SharedStore

theorem asks_any (actions : List Action) :
    ∀ action ∈ actions, action.Asks Discipline.any.allowed := by
  intro action _
  cases action <;> exact trivial

theorem keeps_start {d : Discipline} {store : AnyStore} {records : MemoryStore}
    (holds : store.Holds records) (balanced : records.Balanced) : d.Keeps (start store) records :=
  ⟨holds, balanced, fun _ member => absurd member List.not_mem_nil⟩

/-- Whatever ledgers do with a store that was empty, its records are balanced. -/
theorem run_balanced {store : AnyStore} (empty : store.IsEmpty) (actions : List Action) :
    ∃ records, ((start store).run actions).store.Holds records ∧ records.Balanced := by
  have first := @keeps_start .any _ _ empty.holds .empty
  obtain ⟨records, keeps, _⟩ := @run_keeps .any _ _ (fun _ _ => True) (fun _ _ => trivial) first
    trivial actions (asks_any actions)
  exact ⟨records, keeps.holds, keeps.balanced⟩

end SharedStore

end TokenLedger
