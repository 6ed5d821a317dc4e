import TokenLedger.Ledger.Program
import TokenLedger.Proofs.Store.Replies

/-! # What a program ensures while others use the store

Between two calls of a program anybody may change the records.  A `Contract` says
what others may do to them and what the program itself has to keep to at each of
its calls, and `Program.Ensures` is the obligation that it does, whatever others do
in between, and that its result and all it has seen then meet a postcondition.
The obligation is by recursion on the program: at a call it quantifies over all
that others may have done before and over every reply that a store may give.

What a program has seen is its `Span`: the records at each moment from its start
on, and which of the changes were its own.  Postconditions speak about moments of
the span, so they can say that an answer is right for one and the same moment, or
for two.
-/

namespace TokenLedger

/-! ## Spans -/

/-- The records while a program runs. -/
structure Span where
  /-- The records at the present moment. -/
  now : MemoryStore
  /-- The records at earlier moments, the latest first. -/
  earlier : List MemoryStore
  /-- The program's own writes, each by the records before and after it. -/
  posted : List (MemoryStore × MemoryStore)

namespace Span

/-- The span of a program that begins. -/
def start (records : MemoryStore) : Span := { now := records, earlier := [], posted := [] }

/-- The records at all moments, the latest first. -/
def moments (span : Span) : List MemoryStore := span.now :: span.earlier

/-- The span after somebody else's call. -/
def observe (span : Span) (after : MemoryStore) : Span :=
  { span with now := after, earlier := span.moments }

/-- The span after a call of the program's own. -/
def step (span : Span) (after : MemoryStore) (wrote : Bool) : Span where
  now := after
  earlier := span.moments
  posted := if wrote then (span.now, after) :: span.posted else span.posted

/-- Whether a span goes on from another without a write of the program's own. -/
structure Continues (before after : Span) : Prop where
  posted : after.posted = before.posted
  moments : ∀ records ∈ before.moments, records ∈ after.moments

variable {a b c : Span}

theorem Continues.refl (a : Span) : a.Continues a := ⟨rfl, fun _ member => member⟩

theorem Continues.trans (first : a.Continues b) (second : b.Continues c) : a.Continues c :=
  ⟨second.posted.trans first.posted,
    fun records member => second.moments records (first.moments records member)⟩

theorem continues_observe (span : Span) (after : MemoryStore) :
    span.Continues (span.observe after) :=
  ⟨rfl, fun _ member => .tail _ member⟩

theorem continues_step (span : Span) (after : MemoryStore) :
    span.Continues (span.step after false) :=
  ⟨rfl, fun _ member => .tail _ member⟩

theorem now_mem (span : Span) : span.now ∈ span.moments := .head _

end Span

/-! ## Contracts -/

/-- What others may do to the records, and what the program may do. -/
structure Contract where
  rely : MemoryStore → MemoryStore → Prop
  guar : Span → MemoryStore → Bool → Prop
  /-- A call that leaves the records alone is always allowed. -/
  idle : ∀ span, guar span span.now false

/-- What a program may see while it waits for its turn. -/
inductive Contract.Waits (c : Contract) : Span → Span → Prop
  | refl (span : Span) : c.Waits span span
  | other {before between : Span} {after : MemoryStore} :
    c.Waits before between → c.rely between.now after → c.Waits before (between.observe after)

namespace Contract

variable {c : Contract} {r s t : Span}

theorem Waits.trans (first : c.Waits r s) (second : c.Waits s t) : c.Waits r t := by
  induction second with
  | refl => exact first
  | other _ change ih => exact .other ih change

theorem Waits.continues (waits : c.Waits s t) : s.Continues t := by
  induction waits with
  | refl => exact .refl s
  | other _ _ ih => exact ih.trans (Span.continues_observe _ _)

/-- What others do not undo still holds when the program has its turn. -/
theorem Waits.keeps {keeps : Span → Prop} (waits : c.Waits s t) (holds : keeps s)
    (others : ∀ span after, keeps span → c.rely span.now after → keeps (span.observe after)) :
    keeps t := by
  induction waits with
  | refl => exact holds
  | other _ change ih => exact others _ _ ih change

end Contract

/-- Whether the reply to a call says that it wrote. -/
def StoreCall.wrote : (call : StoreCall) → call.Reply → Bool
  | .insertMint _, .ok .inserted => true
  | .insertAccount _, .ok .inserted => true
  | .commit _, .ok () => true
  | _, _ => false

/-! ## Running in sequence -/

namespace Program

variable {α β σ : Type} [RecordStore σ]

theorem result_run_bind (p : Program α) (f : α → Program β) (store : σ) :
    ((p >>= f).run store).result = ((f (p.run store).result).run (p.run store).store).result := by
  induction p generalizing store with
  | done result => rfl
  | perform effect next ih =>
    cases effect with
    | call call => exact ih _ _
    | acquire keys => exact ih () store
    | note event => exact ih () store

theorem store_run_bind (p : Program α) (f : α → Program β) (store : σ) :
    ((p >>= f).run store).store = ((f (p.run store).result).run (p.run store).store).store := by
  induction p generalizing store with
  | done result => rfl
  | perform effect next ih =>
    cases effect with
    | call call => exact ih _ _
    | acquire keys => exact ih () store
    | note event => exact ih () store

end Program

/-! ## The obligation -/

namespace Program

/-- Whether a program keeps to a contract from a span on, and its result and the span
    at its end are as the postcondition says. -/
def Ensures {α : Type} (c : Contract) (post : α → Span → Prop) : Program α → Span → Prop
  | done result, span => ∀ later, c.Waits span later → post result later
  | perform (.call call) next, span =>
    call.Distinct ∧ ∀ later, c.Waits span later → ∀ reply after,
      later.now.Replies call reply after →
        c.guar later after (call.wrote reply) ∧
          (next reply).Ensures c post (later.step after (call.wrote reply))
  | perform (.acquire _) next, span => (next ()).Ensures c post span
  | perform (.note _) next, span => (next ()).Ensures c post span

namespace Ensures

variable {α β : Type} {c : Contract} {post post' : α → Span → Prop} {p : Program α} {s t : Span}

theorem waits (ensures : p.Ensures c post s) (waits : c.Waits s t) : p.Ensures c post t := by
  induction p with
  | done result => exact fun later others => ensures later (waits.trans others)
  | perform effect next ih =>
    cases effect with
    | call call =>
      -- the obligation at a call is for any waiting before it, so more waiting is covered
      obtain ⟨distinct, keeps⟩ := ensures
      exact ⟨distinct, fun later others => keeps later (waits.trans others)⟩
    | acquire keys => exact ih () ensures
    | note event => exact ih () ensures

theorem mono (ensures : p.Ensures c post s) (implies : ∀ a t, post a t → post' a t) :
    p.Ensures c post' s := by
  induction p generalizing s with
  | done result => exact fun later others => implies result later (ensures later others)
  | perform effect next ih =>
    cases effect with
    | call call =>
      obtain ⟨distinct, keeps⟩ := ensures
      refine ⟨distinct, fun later others reply after replied => ?_⟩
      obtain ⟨allowed, rest⟩ := keeps later others reply after replied
      exact ⟨allowed, ih reply rest⟩
    | acquire keys => exact ih () ensures
    | note event => exact ih () ensures

/-- The postcondition still holds after others have acted. -/
theorem settled (ensures : p.Ensures c post s) :
    p.Ensures c (fun a t => ∀ later, c.Waits t later → post a later) s := by
  induction p generalizing s with
  | done result => exact fun later others further waits => ensures further (others.trans waits)
  | perform effect next ih =>
    cases effect with
    | call call =>
      obtain ⟨distinct, keeps⟩ := ensures
      refine ⟨distinct, fun later others reply after replied => ?_⟩
      obtain ⟨allowed, rest⟩ := keeps later others reply after replied
      exact ⟨allowed, ih reply rest⟩
    | acquire keys => exact ih () ensures
    | note event => exact ih () ensures

theorem bind {f : α → Program β} {post : β → Span → Prop}
    (first : p.Ensures c (fun a t => (f a).Ensures c post t) s) :
    (p >>= f).Ensures c post s := by
  induction p generalizing s with
  | done result => exact first s (.refl s)
  | perform effect next ih =>
    cases effect with
    | call call =>
      obtain ⟨distinct, keeps⟩ := first
      refine ⟨distinct, fun later others reply after replied => ?_⟩
      obtain ⟨allowed, rest⟩ := keeps later others reply after replied
      exact ⟨allowed, ih reply rest⟩
    | acquire keys => exact ih () first
    | note event => exact ih () first

/-- What holds of the span at the start, and what neither others nor the program's own
    calls undo, holds at the end as well. -/
theorem invariant {keeps : Span → Prop} (ensures : p.Ensures c post s) (holds : keeps s)
    (others : ∀ span after, keeps span → c.rely span.now after → keeps (span.observe after))
    (own : ∀ span after wrote, keeps span → c.guar span after wrote →
      keeps (span.step after wrote)) :
    p.Ensures c (fun a t => post a t ∧ keeps t) s := by
  induction p generalizing s with
  | done result =>
    exact fun later waits => ⟨ensures later waits, waits.keeps holds others⟩
  | perform effect next ih =>
    cases effect with
    | call call =>
      obtain ⟨distinct, each⟩ := ensures
      refine ⟨distinct, fun later waits reply after replied => ?_⟩
      obtain ⟨allowed, rest⟩ := each later waits reply after replied
      exact ⟨allowed, ih reply rest (own _ _ _ (waits.keeps holds others) allowed)⟩
    | acquire keys => exact ih () ensures holds
    | note event => exact ih () ensures holds

/-- A program that runs alone does what it ensures. -/
theorem run {store : AnyStore} (ensures : p.Ensures c post s) (holds : store.Holds s.now) :
    ∃ final, (p.run store).store.Holds final.now ∧ post (p.run store).result final := by
  induction p generalizing s store with
  | done result => exact ⟨s, holds, ensures s (.refl s)⟩
  | perform effect next ih =>
    cases effect with
    | call call =>
      -- alone, nobody acts before the call, and the reply is the store's own
      obtain ⟨distinct, keeps⟩ := ensures
      obtain ⟨after, held, replied⟩ := AnyStore.replies holds distinct
      exact ih _ (keeps s (.refl s) _ after replied).2 held
    | acquire keys => exact ih () ensures holds
    | note event => exact ih () ensures holds

end Ensures

end Program

end TokenLedger
