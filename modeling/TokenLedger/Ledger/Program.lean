import TokenLedger.Ledger.Event

/-!
# Programs over a store

A ledger's operation is a program: a tree that at each node asks for one effect and goes on
according to the reply. The effects are a call of the store, the locking of addresses, and the
reporting of an event. Since programs are data, one can run them alone, run them in a monad of the
caller's, or let several of them take turns at the nodes.
-/

namespace TokenLedger

/-- What a program may ask for. -/
inductive Effect where
  | call (call : StoreCall)
  /-- To hold addresses, alone, until the program is done. -/
  | acquire (keys : List Bytes32)
  | note (event : Event)

def Effect.Reply : Effect → Type
  | call c => c.Reply
  | acquire _ => Unit
  | note _ => Unit

inductive Program (α : Type) where
  | done (result : α)
  | perform (effect : Effect) (next : effect.Reply → Program α)

namespace Program

variable {α β σ : Type}

/-- Goes on with another program where the first is done. -/
def bind : Program α → (α → Program β) → Program β
  | done result, f => f result
  | perform effect next, f => perform effect fun reply => (next reply).bind f

instance : Monad Program where
  pure := done
  bind := bind

@[simp] theorem bind_done (a : α) (f : α → Program β) : (done a >>= f) = f a := rfl

@[simp] theorem pure_eq_done (a : α) : (pure a : Program α) = done a := rfl

@[simp] theorem bind_perform (effect : Effect) (next : effect.Reply → Program α)
    (f : α → Program β) :
    (perform effect next >>= f) = perform effect fun reply => next reply >>= f := rfl

theorem bind_done_right (p : Program α) : p.bind done = p := by
  induction p with
  | done _ => rfl
  | perform effect next ih => simp [bind, ih]

theorem bind_assoc {γ : Type} (p : Program α) (f : α → Program β) (g : β → Program γ) :
    (p.bind f).bind g = p.bind fun a => (f a).bind g := by
  induction p with
  | done _ => rfl
  | perform effect next ih => simp [bind, ih]

instance : LawfulMonad Program :=
  LawfulMonad.mk' Program
    (fun p => bind_done_right p)
    (fun _ _ => rfl)
    (fun p f g => bind_assoc p f g)

/-! ## Running -/

/-- Runs a program where effects are the business of another monad. -/
def interpret {m : Type → Type} [Monad m] (handle : (effect : Effect) → m effect.Reply) :
    Program α → m α
  | done result => pure result
  | perform effect next => handle effect >>= fun reply => (next reply).interpret handle

/-- A finished run: the result, the store after it, and the events in order. -/
structure Finished (σ α : Type) where
  result : α
  store : σ
  events : List Event

/-- Runs a program alone. Nobody else holds any address, so locking succeeds at once. -/
def run [RecordStore σ] : Program α → σ → Finished σ α
  | done result, store => { result, store, events := [] }
  | perform (.call c) next, store =>
    let (reply, store) := RecordStore.answer c store
    (next reply).run store
  | perform (.acquire _) next, store => (next ()).run store
  | perform (.note event) next, store =>
    let rest := (next ()).run store
    { rest with events := event :: rest.events }

end Program

end TokenLedger
