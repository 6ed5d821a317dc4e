import Mathlib.Data.List.Perm.Subperm
import TokenLedger.Proofs.Ledger.Orderly

/-! # Calls that hold addresses are serializable

One ledger works on any number of calls at a time.  A call that locks addresses waits
until nobody holds any of them, and holds them until it gives them back after it has
answered.  In between it may be anybody's turn after every step.

Whatever the turns, the calls might as well have been made one after the other.  The
order is the one in which they act: each call is put at the end of it when it makes the
call to the store that decides, or when it answers without one.  Until then what is left
of a call does what the whole call would do now (`LockedCall.Waiting`), because nobody
changes the records that it holds; from then on its answer is fixed (`LockedCall.Sound`).
`BusyLedger.Follows` is the invariant, and one step of one call is all that there is to
show of it.
-/

namespace TokenLedger

/-! ## Calls one after the other -/

/-- The store after calls to ledgers, one after the other. -/
def afterAll (start : AnyStore) (calls : List (Ledger × LedgerCall)) : AnyStore :=
  calls.foldl (fun store (ledger, call) => (call.run ledger store).store) start

theorem transcript_append (start : AnyStore) (first second : List (Ledger × LedgerCall)) :
    transcript start (first ++ second) =
      transcript start first ++ transcript (afterAll start first) second := by
  induction first generalizing start with
  | nil => rfl
  | cons head rest ih => exact congrArg (_ :: ·) (ih _)

/-- Whether an answer does not say that the supply of a mint is not what its accounts hold. -/
def Answered.Consistent : Answered → Prop
  | ⟨.auditSupply _, .ok report⟩ => report.consistent = true
  | _ => True

theorem LedgerCall.consistent (ledger : Ledger) (call : LedgerCall) {store : AnyStore}
    {records : MemoryStore} (holds : store.Holds records) (balanced : records.Balanced) :
    Answered.Consistent ⟨call, (call.run ledger store).result⟩ := by
  cases call with
  | auditSupply mint =>
    cases answered : ((LedgerCall.auditSupply mint).run ledger store).result with
    | ok report => exact Ledger.consistent_of_auditSupply holds balanced answered
    | error e => trivial
  | _ => trivial

/-- Whether calls to one ledger, in an order and one after the other, give answers, none of
    them of an inconsistent supply, and leave records. -/
structure Ledger.Serial (ledger : Ledger) (start : AnyStore) (order : List Answered)
    (records : MemoryStore) : Prop where
  answers : (transcript start (order.map fun answered => (ledger, answered.1))).map Prod.fst = order
  leaves : (afterAll start (order.map fun answered => (ledger, answered.1))).Holds records
  consistent : ∀ answered ∈ order, answered.Consistent

theorem Ledger.Serial.next {ledger : Ledger} {start : AnyStore} {order : List Answered}
    {records : MemoryStore} (serial : ledger.Serial start order records)
    (kept : records.WellKept ledger.config.ns) (call : LedgerCall) :
    ledger.Serial start (order ++ [⟨call, (Program.run (call.program ledger).run records).result⟩])
      (Program.run (call.program ledger).run records).store := by
  obtain ⟨result, held, _⟩ := call.agrees serial.leaves kept.derived
  have consistent := call.consistent ledger serial.leaves kept.balanced
  rw [result] at consistent
  constructor
  · rw [List.map_append, transcript_append, List.map_append, serial.answers, ← result]
    rfl
  · rw [List.map_append, afterAll, List.foldl_append]
    exact held
  · intro answered member
    rcases List.mem_append.mp member with member | member
    · exact serial.consistent answered member
    · cases List.mem_singleton.mp member
      exact consistent

/-! ## Calls that take turns -/

/-- A call on its way through a ledger. -/
structure LockedCall where
  call : LedgerCall
  /-- What is still to be done. -/
  rest : Program (Except Failure call.Answer)
  /-- The addresses that it holds. -/
  held : List Bytes32

namespace LockedCall

def start (ledger : Ledger) (call : LedgerCall) : LockedCall where
  call := call
  rest := (call.program ledger).run
  held := []

/-- What a call has been answered with, if it has returned. -/
def answer? (c : LockedCall) : Option Answered :=
  match c.rest with
  | .done result => some ⟨c.call, result⟩
  | .perform _ _ => none

theorem answer?_eq_some_iff {c : LockedCall} {answered : Answered} :
    c.answer? = some answered ↔ ∃ result, c.rest = .done result ∧ answered = ⟨c.call, result⟩ := by
  unfold answer?
  split
  next result finished => simp [finished, eq_comm]
  next effect next unfinished => simp [unfinished]

end LockedCall

/-- A ledger that works on calls, alone on its store. -/
structure BusyLedger where
  ledger : Ledger
  store : AnyStore
  calls : List LockedCall

/-- What may happen next. -/
inductive Move where
  /-- The ledger is called. -/
  | call (call : LedgerCall)
  /-- A call takes its next step, or, once it has returned, gives back what it holds. -/
  | turn (index : Nat)

namespace BusyLedger

def start (ledger : Ledger) (store : AnyStore) : BusyLedger := { ledger, store, calls := [] }

/-- Whether somebody holds one of several addresses. -/
def Blocks (busy : BusyLedger) (keys : List Bytes32) : Prop :=
  ∃ c ∈ busy.calls, ∃ key ∈ keys, key ∈ c.held

instance (busy : BusyLedger) (keys : List Bytes32) : Decidable (busy.Blocks keys) :=
  inferInstanceAs (Decidable (∃ c ∈ busy.calls, ∃ key ∈ keys, key ∈ c.held))

/-- The busy ledger after a step of the call with an index. Locks are not granted while
    somebody holds one of the addresses. -/
def step (busy : BusyLedger) (index : Nat) (c : LockedCall) : BusyLedger :=
  match c.rest with
  | .done _ => { busy with calls := busy.calls.set index { c with held := [] } }
  | .perform (.call call) next =>
    let (reply, store) := RecordStore.answer call busy.store
    { busy with store, calls := busy.calls.set index { c with rest := next reply } }
  | .perform (.acquire keys) next =>
    if busy.Blocks keys then busy
    else
      let c := { c with rest := next (), held := keys ++ c.held }
      { busy with calls := busy.calls.set index c }
  | .perform (.note _) next =>
    { busy with calls := busy.calls.set index { c with rest := next () } }

/-- The busy ledger after something has happened. -/
def move (busy : BusyLedger) : Move → BusyLedger
  | .call call => { busy with calls := busy.calls ++ [.start busy.ledger call] }
  | .turn index =>
    match busy.calls[index]? with
    | some c => busy.step index c
    | none => busy

/-- The busy ledger after several things have happened, one after the other. -/
def run (busy : BusyLedger) (moves : List Move) : BusyLedger := moves.foldl move busy

end BusyLedger

/-! ## What is known of a call -/

namespace LockedCall

variable {ledger : Ledger} {records found : MemoryStore} {c : LockedCall} {a : Option Answered}

/-- What is known of a call that has not acted: where what it holds is as it is now, the
    rest of the call does what the whole call does. -/
structure Waiting (ledger : Ledger) (records : MemoryStore) (c : LockedCall) : Prop where
  orderly : c.rest.Orderly (MemoryStore.WellKept ledger.config.ns) c.held records
  result : ∀ found, found.WellKept ledger.config.ns → records.AgreeAt c.held found →
    (c.rest.run found).result = (Program.run (c.call.program ledger).run found).result
  store : ∀ found, found.WellKept ledger.config.ns → records.AgreeAt c.held found →
    (c.rest.run found).store = (Program.run (c.call.program ledger).run found).store

/-- What is known of a call, and of its answer once it has acted. -/
inductive Sound (ledger : Ledger) (records : MemoryStore) : LockedCall → Option Answered → Prop
  | waiting {c : LockedCall} (waiting : c.Waiting ledger records) : Sound ledger records c none
  | served {c : LockedCall} {result : Except Failure c.call.Answer}
    (concludes : c.rest.Concludes (· = result)) : Sound ledger records c (some ⟨c.call, result⟩)

theorem waiting_start (ledger : Ledger) (call : LedgerCall) (records : MemoryStore) :
    (start ledger call).Waiting ledger records :=
  ⟨call.orderly ledger records, fun _ _ _ => rfl, fun _ _ _ => rfl⟩

theorem Waiting.agree (waiting : c.Waiting ledger records) (agree : records.AgreeAt c.held found) :
    c.Waiting ledger found where
  orderly := waiting.orderly.agree agree
  result later kept agree' := waiting.result later kept (agree.trans agree')
  store later kept agree' := waiting.store later kept (agree.trans agree')

theorem Sound.agree (sound : c.Sound ledger records a) (agree : records.AgreeAt c.held found) :
    c.Sound ledger found a := by
  cases sound with
  | waiting waiting => exact .waiting (waiting.agree agree)
  | served concludes => exact .served concludes

/-- A step of a call that waits, after which the rest of it still does all that is to be done. -/
theorem Waiting.step (waiting : c.Waiting ledger records) {keys : List Bytes32}
    {rest : Program (Except Failure c.call.Answer)}
    (orderly : rest.Orderly (MemoryStore.WellKept ledger.config.ns) keys records)
    (more : ∀ key ∈ c.held, key ∈ keys)
    (result : ∀ found, records.AgreeAt keys found →
      (c.rest.run found).result = (rest.run found).result)
    (store : ∀ found, records.AgreeAt keys found →
      (c.rest.run found).store = (rest.run found).store) :
    Waiting ledger records { c with rest, held := keys } where
  orderly := orderly
  result found kept agree :=
    (result found agree).symm.trans (waiting.result found kept (agree.mono more))
  store found kept agree :=
    (store found agree).symm.trans (waiting.store found kept (agree.mono more))

theorem Waiting.read (waiting : c.Waiting ledger records) {call : StoreCall}
    {next : (Effect.call call).Reply → Program (Except Failure c.call.Answer)}
    (unfinished : c.rest = .perform (.call call) next) (reads : call.ReadsAt c.held)
    (orderly : (next (RecordStore.answer call records).1).Orderly
      (MemoryStore.WellKept ledger.config.ns) c.held records) :
    Waiting ledger records { c with rest := next (RecordStore.answer call records).1 } := by
  -- what is looked up is held, so it does not matter when
  have first : ∀ found, records.AgreeAt c.held found →
      c.rest.run found = (next (RecordStore.answer call records).1).run found := by
    intro found agree
    obtain ⟨_, same⟩ := reads.asks.answer found
    rw [unfinished, Program.run_call, same, reads.agree agree]
  refine waiting.step orderly (fun _ => id) ?_ ?_
  · exact fun found agree => congrArg Program.Finished.result (first found agree)
  · exact fun found agree => congrArg Program.Finished.store (first found agree)

theorem Waiting.acquire (waiting : c.Waiting ledger records)
    (kept : records.WellKept ledger.config.ns) {keys : List Bytes32}
    {next : (Effect.acquire keys).Reply → Program (Except Failure c.call.Answer)}
    (unfinished : c.rest = .perform (.acquire keys) next) :
    Waiting ledger records { c with rest := next (), held := keys ++ c.held } := by
  have orderly := waiting.orderly
  rw [unfinished] at orderly
  obtain ⟨nothing, orderly⟩ := orderly
  rw [nothing, List.append_nil]
  refine waiting.step (orderly records kept) (by simp [nothing]) ?_ ?_
  · exact fun found _ => by rw [unfinished, Program.run]
  · exact fun found _ => by rw [unfinished, Program.run]

theorem Sound.note (sound : c.Sound ledger records a) {event : Event}
    {next : (Effect.note event).Reply → Program (Except Failure c.call.Answer)}
    (unfinished : c.rest = .perform (.note event) next) :
    Sound ledger records { c with rest := next () } a := by
  cases sound with
  | waiting waiting =>
    have orderly := waiting.orderly
    rw [unfinished] at orderly
    refine .waiting (waiting.step orderly (fun _ => id) ?_ ?_)
    · exact fun found _ => by rw [unfinished, Program.run]
    · exact fun found _ => by rw [unfinished, Program.run]
  | served concludes =>
    rw [unfinished] at concludes
    exact .served concludes

theorem Waiting.serial {start : AnyStore} {order : List Answered}
    (waiting : c.Waiting ledger records) (kept : records.WellKept ledger.config.ns)
    (serial : ledger.Serial start order records) :
    ledger.Serial start (order ++ [⟨c.call, (c.rest.run records).result⟩])
      (c.rest.run records).store := by
  rw [waiting.result records kept (.refl records), waiting.store records kept (.refl records)]
  exact serial.next kept c.call

theorem Sound.decides (sound : c.Sound ledger records a) (kept : records.WellKept ledger.config.ns)
    {call : StoreCall} {next : call.Reply → Program (Except Failure c.call.Answer)}
    (unfinished : c.rest = .perform (.call call) next) :
    call.Decides (MemoryStore.WellKept ledger.config.ns) c.held records := by
  cases sound with
  | waiting waiting =>
    have orderly := waiting.orderly
    rw [unfinished] at orderly
    exact orderly.decides kept
  | served concludes =>
    rw [unfinished] at concludes
    exact concludes.1.decides kept

end LockedCall

/-! ## What is known of a busy ledger -/

namespace BusyLedger

/-- What is known of a ledger that works on calls: an order of those that have acted, in
    which they might have been made one after the other. -/
structure Tracks (start : AnyStore) (busy : BusyLedger) (records : MemoryStore)
    (tracked : List (LockedCall × Option Answered)) (order : List Answered) : Prop where
  holds : busy.store.Holds records
  kept : records.WellKept busy.ledger.config.ns
  calls : busy.calls.Perm (tracked.map Prod.fst)
  sound : ∀ c ∈ tracked, c.1.Sound busy.ledger records c.2
  apart : tracked.Pairwise fun c d => c.1.held.Disjoint d.1.held
  served : order.Perm (tracked.filterMap Prod.snd)
  serial : busy.ledger.Serial start order records

/-- Whether all that have returned have acted. -/
def Settled (tracked : List (LockedCall × Option Answered)) : Prop :=
  ∀ c ∈ tracked, c.2 = none → c.1.answer? = none

variable {start : AnyStore} {busy : BusyLedger} {records after : MemoryStore}
  {tracked others : List (LockedCall × Option Answered)} {order : List Answered}
  {c c' : LockedCall} {a a' : Option Answered} {index : Nat} {store : AnyStore}
  {calls : List LockedCall}

theorem Tracks.perm {tracked' : List (LockedCall × Option Answered)}
    (tracks : Tracks start busy records tracked order) (perm : tracked.Perm tracked') :
    Tracks start busy records tracked' order where
  holds := tracks.holds
  kept := tracks.kept
  calls := tracks.calls.trans (perm.map _)
  sound c member := tracks.sound c (perm.mem_iff.mpr member)
  apart := tracks.apart.perm perm fun apart _ held held' => apart held' held
  served := tracks.served.trans (perm.filterMap _)
  serial := tracks.serial

/-- The call whose turn it is can be looked at apart from all others. -/
theorem Tracks.focus (tracks : Tracks start busy records tracked order)
    (found : busy.calls[index]? = some c) :
    ∃ a others, tracked.Perm ((c, a) :: others) ∧
      ∀ c', (busy.calls.set index c').Perm (c' :: others.map Prod.fst) := by
  obtain ⟨inside, here⟩ := List.getElem?_eq_some_iff.mp found
  -- calls are compared up to their order, so that the one in question can be put first
  have replaced : ∀ c', (busy.calls.set index c').Perm
      (c' :: (busy.calls.take index ++ busy.calls.drop (index + 1))) := by
    intro c'
    rw [List.set_eq_take_append_cons_drop, if_pos inside]
    exact List.perm_middle
  have present : busy.calls.Perm (c :: (busy.calls.take index ++ busy.calls.drop (index + 1))) := by
    have same := replaced busy.calls[index]
    rwa [List.set_getElem_self, here] at same
  obtain ⟨⟨_, a⟩, member, rfl⟩ :=
    List.mem_map.mp (tracks.calls.mem_iff.mp (List.mem_of_getElem? found))
  obtain ⟨first, second, split⟩ := List.append_of_mem member
  have perm : tracked.Perm ((_, a) :: (first ++ second)) := split ▸ List.perm_middle
  have rest := (present.symm.trans (tracks.calls.trans (perm.map Prod.fst))).cons_inv
  exact ⟨a, _, perm, fun c' => (replaced c').trans (rest.cons c')⟩

theorem Tracks.apart_head (tracks : Tracks start busy records ((c, a) :: others) order) :
    ∀ d ∈ others, c.held.Disjoint d.1.held :=
  fun _ member => List.rel_of_pairwise_cons tracks.apart member

/-- What a step has to do: whatever it changes of the records has been held by its call,
    and what the call holds from then on nobody else holds. -/
theorem Tracks.replace (tracks : Tracks start busy records ((c, a) :: others) order)
    (perm : calls.Perm (c' :: others.map Prod.fst)) (holds : store.Holds after)
    (kept : after.WellKept busy.ledger.config.ns) (elsewhere : records.AgreeBut c.held after)
    (sound : c'.Sound busy.ledger after a') (apart : ∀ d ∈ others, c'.held.Disjoint d.1.held)
    {order' : List Answered} (served : order'.Perm (((c', a') :: others).filterMap Prod.snd))
    (serial : busy.ledger.Serial start order' after) :
    Tracks start { busy with store, calls } after ((c', a') :: others) order' where
  holds := holds
  kept := kept
  calls := perm
  sound := by
    rintro d member
    rcases List.mem_cons.mp member with rfl | member
    · exact sound
    · -- another call holds none of the addresses at which something has changed
      refine (tracks.sound d (.tail _ member)).agree (elsewhere.mono fun key held => ?_)
      exact fun held' => tracks.apart_head d member held' held
  apart := List.pairwise_cons.mpr ⟨apart, tracks.apart.of_cons⟩
  served := served
  serial := serial

theorem Tracks.stay (tracks : Tracks start busy records ((c, a) :: others) order)
    (perm : calls.Perm (c' :: others.map Prod.fst)) (holds : store.Holds records)
    (sound : c'.Sound busy.ledger records a) (apart : ∀ d ∈ others, c'.held.Disjoint d.1.held) :
    Tracks start { busy with store, calls } records ((c', a) :: others) order :=
  tracks.replace perm holds tracks.kept (.refl records) sound apart tracks.served tracks.serial

theorem Tracks.serve (tracks : Tracks start busy records ((c, none) :: others) order)
    (perm : calls.Perm (c' :: others.map Prod.fst)) (holds : store.Holds after)
    (kept : after.WellKept busy.ledger.config.ns) (elsewhere : records.AgreeBut c.held after)
    {answered : Answered} (sound : c'.Sound busy.ledger after (some answered))
    (apart : ∀ d ∈ others, c'.held.Disjoint d.1.held)
    (serial : busy.ledger.Serial start (order ++ [answered]) after) :
    Tracks start { busy with store, calls } after ((c', some answered) :: others)
      (order ++ [answered]) := by
  refine tracks.replace perm holds kept elsewhere sound apart ?_ serial
  exact (List.perm_append_singleton _ _).trans (tracks.served.cons answered)

/-- A call that has returned without having acted acts now. -/
theorem Tracks.settle (tracks : Tracks start busy records ((c, a) :: others) order)
    (settled : Settled others) :
    ∃ tracked order, Tracks start busy records tracked order ∧ Settled tracked := by
  have sound : c.Sound busy.ledger records a := tracks.sound _ (.head _)
  cases sound with
  | served concludes => exact ⟨_, _, tracks, List.forall_mem_cons.mpr ⟨nofun, settled⟩⟩
  | waiting waiting =>
    cases unfinished : c.answer? with
    | none =>
      exact ⟨_, _, tracks, List.forall_mem_cons.mpr ⟨fun _ => unfinished, settled⟩⟩
    | some answered =>
      obtain ⟨result, finished, rfl⟩ := LockedCall.answer?_eq_some_iff.mp unfinished
      have serial := waiting.serial tracks.kept tracks.serial
      rw [finished] at serial
      have acted : c.Sound busy.ledger records (some ⟨c.call, result⟩) := by
        refine .served ?_
        rw [finished]
        exact rfl
      have acts := tracks.serve tracks.calls tracks.holds tracks.kept (.refl records) acted
        tracks.apart_head serial
      exact ⟨_, _, acts, List.forall_mem_cons.mpr ⟨nofun, settled⟩⟩

/-! ## Steps -/

theorem Tracks.call (tracks : Tracks start busy records ((c, a) :: others) order)
    (perm : ∀ c', (busy.calls.set index c').Perm (c' :: others.map Prod.fst)) {call : StoreCall}
    {next : (Effect.call call).Reply → Program (Except Failure c.call.Answer)}
    (unfinished : c.rest = .perform (.call call) next) :
    let rest := next (RecordStore.answer call busy.store).1
    ∃ after a' order', Tracks start
      { busy with
        store := (RecordStore.answer call busy.store).2
        calls := busy.calls.set index { c with rest } } after (({ c with rest }, a') :: others)
        order' := by
  have sound : c.Sound busy.ledger records a := tracks.sound _ (.head _)
  have decides := sound.decides tracks.kept unfinished
  obtain ⟨reply, held⟩ := AnyStore.answer_eq tracks.holds decides.distinct decides.accepts
  rw [reply]
  cases sound with
  | served concludes =>
    -- once a call has acted, it does not change anything
    rw [unfinished] at concludes
    obtain ⟨asks, each⟩ := concludes
    obtain ⟨⟨answer, answered⟩, same⟩ := asks.answer records
    rw [same] at held
    refine ⟨_, _, _, tracks.stay (perm _) held (.served ?_) tracks.apart_head⟩
    rw [answered]
    exact each answer
  | waiting waiting =>
    have orderly := waiting.orderly
    rw [unfinished] at orderly
    rcases orderly with ⟨reads, orderly⟩ | acts
    · obtain ⟨_, same⟩ := reads.asks.answer records
      rw [same] at held
      have waits := waiting.read unfinished reads orderly
      exact ⟨_, _, _, tracks.stay (perm _) held (.waiting waits) tracks.apart_head⟩
    · -- this is its moment: the whole call, made now, would do the same
      obtain ⟨_, result, concludes⟩ := acts records tracks.kept (.refl records)
      have serial := waiting.serial tracks.kept tracks.serial
      obtain ⟨answer, same⟩ := concludes.run (RecordStore.answer call records).2
      rw [unfinished, Program.run_call, answer, same] at serial
      have acted : LockedCall.Sound busy.ledger (RecordStore.answer call records).2
          { c with rest := next (RecordStore.answer call records).1 } (some ⟨c.call, result⟩) :=
        .served concludes
      exact ⟨_, _, _, tracks.serve (perm _) held decides.good decides.others acted
        tracks.apart_head serial⟩

theorem step_tracks (tracks : Tracks start busy records tracked order) (settled : Settled tracked)
    (found : busy.calls[index]? = some c) :
    ∃ after tracked order, Tracks start (busy.step index c) after tracked order ∧
      Settled tracked := by
  obtain ⟨a, others, focus, perm⟩ := tracks.focus found
  replace tracks := tracks.perm focus
  replace settled : Settled ((c, a) :: others) :=
    fun d member => settled d (focus.mem_iff.mpr member)
  have others_settled : Settled others := fun d member => settled d (.tail _ member)
  have sound : c.Sound busy.ledger records a := tracks.sound _ (.head _)
  unfold step
  split
  next result finished =>
    cases sound with
    | waiting waiting =>
      -- who has returned has acted, and only then gives back what it holds
      have unfinished := settled _ (.head _) rfl
      rw [LockedCall.answer?_eq_some_iff.mpr ⟨result, finished, rfl⟩] at unfinished
      cases unfinished
    | served concludes =>
      have done : LockedCall.Sound busy.ledger records { c with held := [] } (some ⟨c.call, _⟩) :=
        .served concludes
      have released := tracks.stay (perm _) tracks.holds done fun _ _ => List.disjoint_nil_left _
      exact ⟨_, released.settle others_settled⟩
  next call next unfinished =>
    obtain ⟨after, _, _, called⟩ := tracks.call perm unfinished
    exact ⟨after, called.settle others_settled⟩
  next keys next unfinished =>
    split
    · exact ⟨_, _, _, tracks, settled⟩
    next free =>
      have apart : ∀ d ∈ others, (keys ++ c.held).Disjoint d.1.held := by
        intro d member
        refine List.disjoint_append_left.mpr ⟨fun key wanted held => ?_, tracks.apart_head d member⟩
        have present : d.1 ∈ busy.calls :=
          tracks.calls.mem_iff.mpr (.tail _ (List.mem_map_of_mem member))
        exact free ⟨d.1, present, key, wanted, held⟩
      cases sound with
      | waiting waiting =>
        have waits := waiting.acquire tracks.kept unfinished
        have granted := tracks.stay (perm _) tracks.holds (.waiting waits) apart
        exact ⟨_, granted.settle others_settled⟩
      | served concludes =>
        rw [unfinished] at concludes
        exact concludes.elim
  next event next unfinished =>
    have on := tracks.stay (perm _) tracks.holds (sound.note unfinished) tracks.apart_head
    exact ⟨_, on.settle others_settled⟩

theorem move_tracks (tracks : Tracks start busy records tracked order) (settled : Settled tracked)
    (move : Move) :
    ∃ after tracked order, Tracks start (busy.move move) after tracked order ∧
      Settled tracked := by
  cases move with
  | call call =>
    have called : Tracks start (busy.move (.call call)) records
        ((.start busy.ledger call, none) :: tracked) order := by
      refine ⟨tracks.holds, tracks.kept, ?_, ?_, ?_, tracks.served, tracks.serial⟩
      · exact (List.perm_append_singleton _ _).trans (tracks.calls.cons _)
      · intro d member
        rcases List.mem_cons.mp member with rfl | member
        · exact .waiting (LockedCall.waiting_start _ _ _)
        · exact tracks.sound d member
      · exact List.pairwise_cons.mpr ⟨fun _ _ => List.disjoint_nil_left _, tracks.apart⟩
    exact ⟨_, called.settle settled⟩
  | turn index =>
    simp only [BusyLedger.move]
    split
    next c found => exact step_tracks tracks settled found
    · exact ⟨_, _, _, tracks, settled⟩

theorem run_tracks (tracks : Tracks start busy records tracked order) (settled : Settled tracked)
    (moves : List Move) :
    ∃ after tracked order, Tracks start (busy.run moves) after tracked order ∧
      Settled tracked := by
  induction moves generalizing busy records tracked order with
  | nil => exact ⟨_, _, _, tracks, settled⟩
  | cons move rest ih =>
    obtain ⟨_, _, _, tracks, settled⟩ := move_tracks tracks settled move
    exact ih tracks settled

theorem tracks_start (ledger : Ledger) (empty : start.IsEmpty) :
    Tracks start (.start ledger start) .empty [] [] where
  holds := empty.holds
  kept := .empty
  calls := .nil
  sound _ member := absurd member List.not_mem_nil
  apart := .nil
  served := .nil
  serial := ⟨rfl, empty.holds, fun _ member => absurd member List.not_mem_nil⟩

theorem ledger_step (busy : BusyLedger) (index : Nat) (c : LockedCall) :
    (busy.step index c).ledger = busy.ledger := by
  unfold step
  split
  · rfl
  · rfl
  · split <;> rfl
  · rfl

theorem ledger_run (busy : BusyLedger) (moves : List Move) :
    (busy.run moves).ledger = busy.ledger := by
  induction moves generalizing busy with
  | nil => rfl
  | cons move rest ih =>
    refine (ih _).trans ?_
    cases move with
    | call call => rfl
    | turn index =>
      simp only [BusyLedger.move]
      split
      · exact ledger_step _ _ _
      · rfl

/-! ## Runs -/

theorem Tracks.answer_eq (tracks : Tracks start busy records tracked order)
    (settled : Settled tracked) {c : LockedCall × Option Answered} (member : c ∈ tracked) :
    c.1.answer? = none ∨ c.1.answer? = c.2 := by
  obtain ⟨c, a⟩ := c
  have sound : c.Sound busy.ledger records a := tracks.sound _ member
  cases sound with
  | waiting waiting => exact .inl (settled _ member rfl)
  | served concludes =>
    cases answered : c.answer? with
    | none => exact .inl rfl
    | some other =>
      obtain ⟨result, finished, rfl⟩ := LockedCall.answer?_eq_some_iff.mp answered
      rw [finished] at concludes
      cases concludes
      exact .inr rfl

theorem Tracks.call_eq (tracks : Tracks start busy records tracked order)
    {c : LockedCall × Option Answered} (member : c ∈ tracked) :
    c.2.map Sigma.fst = none ∨ c.2.map Sigma.fst = some c.1.call := by
  obtain ⟨c, a⟩ := c
  have sound : c.Sound busy.ledger records a := tracks.sound _ member
  cases sound with
  | waiting waiting => exact .inl rfl
  | served concludes => exact .inr rfl

end BusyLedger

theorem filterMap_sublist_filterMap {α β : Type} {f g : α → Option β} {items : List α}
    (each : ∀ item ∈ items, f item = none ∨ f item = g item) :
    (items.filterMap f).Sublist (items.filterMap g) := by
  induction items with
  | nil => exact .slnil
  | cons item rest ih =>
    have others := ih fun item member => each item (.tail _ member)
    rw [List.filterMap_cons, List.filterMap_cons]
    rcases each item (.head _) with nothing | same
    · rw [nothing]
      cases g item with
      | none => exact others
      | some b => exact others.cons b
    · rw [same]
      cases g item with
      | none => exact others
      | some b => exact others.cons_cons b

namespace BusyLedger

/-- Whatever turns the calls of a ledger take on a store that was empty, there is an order in
    which those that have answered, and perhaps others that are still to answer, have the same
    answers when they are made one after the other, and leave the same records. Every call to
    the store is done, so no commit conflicts, and no audit reports an inconsistent supply. -/
theorem serializable {store : AnyStore} (empty : store.IsEmpty) (ledger : Ledger)
    (moves : List Move) :
    let busy := (start ledger store).run moves
    let answers := busy.calls.filterMap LockedCall.answer?
    (∃ order : List Answered,
      let calls := order.map fun answered => (ledger, answered.1)
      (transcript store calls).map Prod.fst = order ∧
      (∃ records, busy.store.Holds records ∧ (afterAll store calls).Holds records) ∧
      answers.Subperm order ∧
      (order.map Sigma.fst).Subperm (busy.calls.map LockedCall.call) ∧
      ((∀ c ∈ busy.calls, c.answer?.isSome) → order.Perm answers)) ∧
    (∀ c ∈ busy.calls, ∀ call next, c.rest = .perform (.call call) next →
      ∃ answer, (RecordStore.answer call busy.store).1 = .ok answer) ∧
    ∀ mint report, ⟨.auditSupply mint, .ok report⟩ ∈ answers → report.consistent = true := by
  intro busy answers
  obtain ⟨records, tracked, order, tracks, settled⟩ :=
    run_tracks (tracks_start ledger empty) (fun _ member => absurd member List.not_mem_nil) moves
  have serial := tracks.serial
  rw [ledger_run] at serial
  have given : answers.Perm (tracked.filterMap fun c => c.1.answer?) := by
    refine (tracks.calls.filterMap _).trans (.of_eq ?_)
    rw [List.filterMap_map]
    rfl
  have among : answers.Subperm order := by
    have answered := filterMap_sublist_filterMap fun c member => tracks.answer_eq settled member
    exact given.subperm.trans (answered.subperm.trans tracks.served.symm.subperm)
  have called : (order.map Sigma.fst).Subperm (busy.calls.map LockedCall.call) := by
    have acted := filterMap_sublist_filterMap fun c member => tracks.call_eq member
    have first := tracks.served.map Sigma.fst
    have last := tracks.calls.map LockedCall.call
    rw [List.map_filterMap] at first
    rw [List.filterMap_eq_map'] at acted
    rw [List.map_map] at last
    exact first.subperm.trans (acted.subperm.trans last.symm.subperm)
  refine ⟨⟨order, serial.answers, ⟨records, tracks.holds, serial.leaves⟩, among, called, ?_⟩,
    ?_, ?_⟩
  · intro all
    refine (among.perm_of_length_le ?_).symm
    rw [List.filterMap_length_eq_length.mpr all]
    simpa using called.length_le
  · intro c member call next unfinished
    obtain ⟨d, tracked, rfl⟩ := List.mem_map.mp (tracks.calls.mem_iff.mp member)
    have decides := (tracks.sound d tracked).decides tracks.kept unfinished
    rw [(AnyStore.answer_eq tracks.holds decides.distinct decides.accepts).1]
    exact decides.answered
  · intro mint report answered
    exact serial.consistent _ (among.subset answered)

def turns (index count : Nat) : List Move := .replicate count (.turn index)

/-- A transfer between the two readings of an audit, and an issue that has to wait for both. -/
def auditedTransfer (mint : MintAddress) (authority sender recipient : Principal) : List Move :=
  let account (owner : Principal) := AccountAddress.derive Derivation.defaultNamespace owner mint
  [.call (.createMint mint 0 authority) :: turns 0 5,
    .call (.createAccount mint sender authority) :: turns 1 6,
    .call (.createAccount mint recipient authority) :: turns 2 6,
    .call (.issue mint (account sender) authority 10) :: turns 3 7,
    .call (.auditSupply mint) :: turns 4 3,
    .call (.issue mint (account sender) authority 5) :: turns 5 2,
    .call (.transfer (account sender) (account recipient) sender 4) :: turns 6 7,
    turns 5 2, turns 4 2, turns 5 7].flatten

theorem auditedTransfer_done :
    let moves := auditedTransfer ⟨.replicate 2⟩ ⟨.replicate 1⟩ ⟨.replicate 3⟩ ⟨.replicate 4⟩
    ∀ c ∈ ((start {} .emptyDatabase).run moves).calls,
      c.answer?.any (fun answered => answered.2.isOk) = true := by
  decide +kernel

theorem serializable_auditedTransfer :
    let moves := auditedTransfer ⟨.replicate 2⟩ ⟨.replicate 1⟩ ⟨.replicate 3⟩ ⟨.replicate 4⟩
    let busy := (start {} .emptyDatabase).run moves
    let answers := busy.calls.filterMap LockedCall.answer?
    AnyStore.emptyDatabase.IsEmpty ∧
      (∀ c ∈ busy.calls, c.answer?.any (fun answered => answered.2.isOk) = true) ∧
      ∃ order : List Answered, order.Perm answers ∧
        (transcript .emptyDatabase (order.map fun answered => ({}, answered.1))).map Prod.fst =
          order := by
  intro moves busy answers
  obtain ⟨⟨order, serial, _, _, _, complete⟩, _⟩ :=
    serializable AnyStore.isEmpty_emptyDatabase {} moves
  refine ⟨rfl, auditedTransfer_done, order, complete fun c member => ?_, serial⟩
  have done := auditedTransfer_done c member
  cases given : c.answer? with
  | none =>
    rw [given] at done
    cases done
  | some answered => rfl

end BusyLedger

end TokenLedger
