import TokenLedger.Ledger.Program

/-! # Programs that run amid others

Others may use the store while a program runs.  What matters is what they do between the
program's reading and its commit, so in this run they act just before each commit, by a
function of the store for each time (`Program.amid`).  The run shows every commit that the
program tries: the store that it has read, the store that the commit finds, and the reply.

If the others do nothing this is the program's run alone (`amid_alone`).  Programs are
taken apart as they are put together: what comes first leaves a store, and has used up the
turns of the others for its trials (`amid_bind`).
-/

namespace TokenLedger

variable {σ α β : Type}

/-- A commit that a program has tried. -/
structure Trial (σ : Type) where
  /-- The store that the program has read. -/
  loaded : σ
  /-- The store after what the others have done since, which the commit finds. -/
  found : σ
  batch : WriteBatch
  reply : Except StoreError Unit

/-- Whether the commit came to a conflict. -/
def Trial.Conflicts (trial : Trial σ) : Prop := ∃ subject, trial.reply = .error (.conflict subject)

/-- A finished run amid others: the result, the store after it, and the commits in order. -/
structure Contest (σ α : Type) where
  result : α
  store : σ
  trials : List (Trial σ)

/-- The run with what has been tried before. -/
def Contest.after (earlier : List (Trial σ)) (run : Contest σ α) : Contest σ α :=
  { run with trials := earlier ++ run.trials }

theorem Contest.getLast?_after {earlier trial : Trial σ} {run : Contest σ α}
    (last : run.trials.getLast? = some trial) :
    (run.after [earlier]).trials.getLast? = some trial := by
  simp [Contest.after, List.getLast?_cons, last]

/-- The store after the first turns of the others, if nobody else writes. -/
def afterTurns (meanwhile : Nat → σ → σ) (store : σ) : Nat → σ
  | 0 => store
  | turns + 1 => meanwhile turns (afterTurns meanwhile store turns)

theorem afterTurns_first (meanwhile : Nat → σ → σ) (store : σ) (turns : Nat) :
    afterTurns (fun turn => meanwhile (turn + 1)) (meanwhile 0 store) turns =
      afterTurns meanwhile store (turns + 1) := by
  induction turns with
  | zero => rfl
  | succ turns ih => exact congrArg (meanwhile (turns + 1)) ih

variable [RecordStore σ]

namespace Program

/-- Runs a program while others use the store: what they do the next time comes just before
    the next commit. -/
def amid (meanwhile : Nat → σ → σ) : Program α → σ → Contest σ α
  | done result, store => { result, store, trials := [] }
  | perform (.call (.commit batch)) next, store =>
    let found := meanwhile 0 store
    let (reply, left) := RecordStore.answer (.commit batch) found
    ((next reply).amid (fun turn => meanwhile (turn + 1)) left).after [⟨store, found, batch, reply⟩]
  | perform (.call call) next, store =>
    let (reply, left) := RecordStore.answer call store
    (next reply).amid meanwhile left
  | perform (.acquire _) next, store => (next ()).amid meanwhile store
  | perform (.note _) next, store => (next ()).amid meanwhile store

theorem amid_bind (p : Program α) (f : α → Program β) (meanwhile : Nat → σ → σ) (store : σ) :
    (p >>= f).amid meanwhile store =
      ((f (p.amid meanwhile store).result).amid
        (fun turn => meanwhile (turn + (p.amid meanwhile store).trials.length))
        (p.amid meanwhile store).store).after (p.amid meanwhile store).trials := by
  induction p generalizing meanwhile store with
  | done result => rfl
  | perform effect next ih =>
    cases effect with
    | call call =>
      cases call with
      | commit batch =>
        -- the trial is the first of them all, and takes the first turn of the others
        exact congrArg (Contest.after [_]) (ih _ _ _)
      | _ => exact ih _ _ _
    | acquire keys => exact ih () _ _
    | note event => exact ih () _ _

theorem amid_alone (p : Program α) (store : σ) :
    (p.amid (fun _ => id) store).result = (p.run store).result ∧
      (p.amid (fun _ => id) store).store = (p.run store).store := by
  induction p generalizing store with
  | done result => exact ⟨rfl, rfl⟩
  | perform effect next ih =>
    cases effect with
    | call call =>
      cases call with
      | commit batch => exact ih _ _
      | _ => exact ih _ _
    | acquire keys => exact ih () _
    | note event => exact ih () _

end Program

end TokenLedger
