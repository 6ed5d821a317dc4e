import TokenLedger.Proofs.Ledger.Steps
import TokenLedger.Proofs.Transition

/-! # What an operation answers, by what it has loaded

Issuing, transferring and burning all load two records, apply a rule to them, and
commit.  The two loads are two calls, so they may show two different moments; a
`Judgement` is therefore a function of the records at both.  What makes a commit
the act of one moment is `Judgement.current`: a batch that can be committed is the
one that would be asked for by what is there just then, whatever was loaded.

`Judgement.Answers` says what an operation may answer after it has seen a span, and
`ensures_attempts` that a cycle which is run again after each conflict answers so.
The induction is on the number of reruns; since a rerun keeps nothing of the cycles
before it, all it needs to know of them is that they wrote nothing.
-/

namespace TokenLedger

/-- What a cycle answers and asks to be committed, by the records at the moments at
    which it loads the first and the second of its records. -/
structure Judgement (α : Type) where
  judge : MemoryStore → MemoryStore → Except Failure (α × Option WriteBatch)
  distinct : ∀ {first second a batch}, judge first second = .ok (a, some batch) → batch.Distinct
  current : ∀ {first second now after a batch}, judge first second = .ok (a, some batch) →
    now.commit batch = .ok after → judge now now = .ok (a, some batch)
  commits : ∀ {now a batch}, judge now now = .ok (a, some batch) →
    ∃ after, now.commit batch = .ok after

namespace Judgement

variable {α β : Type}

/-- The answer alone. -/
def answer (j : Judgement α) (first second : MemoryStore) : Except Failure α :=
  (j.judge first second).map Prod.fst

/-- What may be answered after a span has been seen. -/
inductive Answers (j : Judgement α) (t : Span) : Except Failure α → Prop
  /-- Nothing was to be committed. -/
  | still {first second : MemoryStore} {a : α} (quiet : t.posted = [])
    (seen : first ∈ t.moments) (seen' : second ∈ t.moments)
    (judged : j.judge first second = .ok (a, none)) : Answers j t (.ok a)
  | refused {first second : MemoryStore} {e : Failure} (quiet : t.posted = [])
    (seen : first ∈ t.moments) (seen' : second ∈ t.moments)
    (judged : j.judge first second = .error e) : Answers j t (.error e)
  /-- The batch was committed, once. -/
  | posted {records after : MemoryStore} {a : α} {batch : WriteBatch}
    (posted : t.posted = [(records, after)]) (seen : records ∈ t.moments)
    (judged : j.judge records records = .ok (a, some batch))
    (committed : records.commit batch = .ok after) : Answers j t (.ok a)
  /-- The store would not commit, and the records had not stood still. -/
  | contended {first second : MemoryStore} {reason : StoreError} (quiet : t.posted = [])
    (seen : first ∈ t.moments) (seen' : second ∈ t.moments) (moved : first ≠ second) :
    Answers j t (.error (.storage reason))

variable {j : Judgement α} {s t : Span} {c : Contract}

theorem Answers.continues {result : Except Failure α} (answers : j.Answers s result)
    (on : s.Continues t) : j.Answers t result := by
  cases answers with
  | still quiet seen seen' judged =>
    exact .still (on.posted.trans quiet) (on.moments _ seen) (on.moments _ seen') judged
  | refused quiet seen seen' judged =>
    exact .refused (on.posted.trans quiet) (on.moments _ seen) (on.moments _ seen') judged
  | posted posted seen judged committed =>
    exact .posted (on.posted.trans posted) (on.moments _ seen) judged committed
  | contended quiet seen seen' moved =>
    exact .contended (on.posted.trans quiet) (on.moments _ seen) (on.moments _ seen') moved

/-- A batch that cannot be committed was not judged by what is there. -/
theorem moved_of_refused {first second now : MemoryStore} {a : α} {batch : WriteBatch}
    {e : StoreError} (judged : j.judge first second = .ok (a, some batch))
    (refused : now.commit batch = .error e) : first ≠ now ∨ second ≠ now := by
  by_contra same
  obtain ⟨rfl, rfl⟩ := not_or.mp same |>.imp not_not.mp not_not.mp
  obtain ⟨after, committed⟩ := j.commits judged
  rw [committed] at refused
  cases refused

end Judgement

namespace LedgerProgram

variable {α : Type} {c : Contract} {j : Judgement α}
  {cycle : LedgerProgram (α × Option WriteBatch)}

/-- Whether a cycle answers as a judgement says, for moments that it sees. -/
def Follows (c : Contract) (cycle : LedgerProgram (α × Option WriteBatch)) (j : Judgement α) :
    Prop :=
  ∀ s, cycle.run.Ensures c (fun result t =>
    (∃ first ∈ t.moments, ∃ second ∈ t.moments, result = j.judge first second) ∧
      s.Continues t) s

/-- Whether a contract allows a program that has not written to commit what a judgement
    asks for. -/
def Permits (c : Contract) (j : Judgement α) : Prop :=
  ∀ {span : Span} {a batch after}, span.posted = [] →
    j.judge span.now span.now = .ok (a, some batch) → span.now.commit batch = .ok after →
      c.guar span after true

theorem ensures_attempt {onConflict : Subject → LedgerProgram α} {s : Span}
    (follows : Follows c cycle j) (permits : Permits c j) (quiet : s.posted = [])
    (conflict : ∀ subject t, t.posted = [] →
      (∃ first ∈ t.moments, ∃ second ∈ t.moments, first ≠ second) →
        (onConflict subject).run.Ensures c (fun result u => j.Answers u result) t) :
    (attempt cycle onConflict).run.Ensures c (fun result t => j.Answers t result) s := by
  refine ensures_bind (follows s) ?_ ?_
  · rintro ⟨a, batch?⟩ t ⟨⟨first, seen, second, seen', judged⟩, on⟩
    replace quiet := on.posted.trans quiet
    cases batch? with
    | none =>
      have still := Judgement.Answers.still quiet seen seen' judged.symm
      exact fun final waits => still.continues waits.continues
    | some batch =>
      refine ⟨j.distinct judged.symm, fun later waits reply after replied => ?_⟩
      have further := waits.continues
      replace quiet := further.posted.trans quiet
      rcases replied with ⟨rfl, committed⟩ | ⟨e, rfl, refused, rfl⟩
      · -- what could be committed is what the records at the commit ask for
        have current := j.current judged.symm committed
        refine ⟨permits quiet current committed, fun final waits' => ?_⟩
        have posted : (later.step after true).posted = [(later.now, after)] := by
          rw [Span.step, if_pos rfl, quiet]
        have seen : later.now ∈ (later.step after true).moments := .tail _ later.now_mem
        exact (Judgement.Answers.posted posted seen current committed).continues waits'.continues
      · have on := Span.continues_step later later.now
        -- the records at the commit do not ask for this batch, so one of the loads saw others
        have moved : ∃ first ∈ (later.step later.now false).moments,
            ∃ second ∈ (later.step later.now false).moments, first ≠ second := by
          have present := on.moments _ later.now_mem
          rcases Judgement.moved_of_refused judged.symm refused with moved | moved
          · exact ⟨first, on.moments _ (further.moments _ seen), later.now, present, moved⟩
          · exact ⟨second, on.moments _ (further.moments _ seen'), later.now, present, moved⟩
        replace quiet := on.posted.trans quiet
        refine ⟨c.idle later, ?_⟩
        have failed : ∀ reason, (throw (.storage reason) : LedgerProgram α).run.Ensures c
            (fun result u => j.Answers u result) (later.step later.now false) := by
          intro reason final waits'
          obtain ⟨first, seen, second, seen', moved⟩ := moved
          exact (Judgement.Answers.contended quiet seen seen' moved).continues waits'.continues
        -- a conflict alone is worth another cycle
        cases e with
        | conflict subject => exact conflict subject _ quiet moved
        | database fault => exact failed _
        | serialization reason => exact failed _
        | notFound address => exact failed _
        | invalidData fault => exact failed _
        | newerSchema found supported => exact failed _
  · rintro e t ⟨⟨first, seen, second, seen', judged⟩, on⟩
    exact .refused (on.posted.trans quiet) seen seen' judged.symm

theorem ensures_attempts {kind : OperationKind} {reruns : Nat} {s : Span}
    (follows : Follows c cycle j) (permits : Permits c j) (quiet : s.posted = []) :
    (attempts kind cycle reruns).run.Ensures c (fun result t => j.Answers t result) s := by
  -- the span grows with each rerun, and nothing but its having no write is carried over
  induction reruns generalizing s with
  | zero =>
    refine ensures_attempt follows permits quiet ?_
    rintro subject t quiet ⟨first, seen, second, seen', moved⟩ final waits
    exact (Judgement.Answers.contended quiet seen seen' moved).continues waits.continues
  | succ reruns ih =>
    refine ensures_attempt follows permits quiet fun subject t quiet _ => ?_
    refine ensures_bind (ensures_note _) (fun _ u noted => ih (noted.2.posted.trans quiet)) ?_
    rintro e u ⟨impossible, _⟩
    cases impossible

end LedgerProgram

end TokenLedger
