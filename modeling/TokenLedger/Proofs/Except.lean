/-! # Computations that may fail

How a computation goes on after a value or an error, when a check of every
member of a list passes and where it fails, what a list comes to if each member
has a value, and what a chain of steps keeps, up to where it fails.
-/

namespace TokenLedger

variable {ε α β : Type}

@[simp] theorem ok_bind (a : α) (f : α → Except ε β) : (Except.ok a >>= f) = f a := rfl

@[simp] theorem error_bind (e : ε) (f : α → Except ε β) :
    ((Except.error e : Except ε α) >>= f) = .error e := rfl

theorem bind_eq_ok_iff {x : Except ε α} {f : α → Except ε β} {b : β} :
    (x >>= f) = .ok b ↔ ∃ a, x = .ok a ∧ f a = .ok b := by
  cases x <;> simp

theorem bind_eq_error_iff {x : Except ε α} {f : α → Except ε β} {e : ε} :
    (x >>= f) = .error e ↔ x = .error e ∨ ∃ a, x = .ok a ∧ f a = .error e := by
  cases x <;> simp

theorem exists_error_of_ne_ok {x : Except ε α} (none : ∀ a, x ≠ .ok a) : ∃ e, x = .error e := by
  cases x with
  | error e => exact ⟨e, rfl⟩
  | ok a => exact absurd rfl (none a)

@[simp] theorem mapError_ok {ε' : Type} (f : ε → ε') (a : α) :
    (Except.ok a : Except ε α).mapError f = .ok a := rfl

@[simp] theorem mapError_error {ε' : Type} (f : ε → ε') (e : ε) :
    (Except.error e : Except ε α).mapError f = .error (f e) := rfl

theorem mapError_eq_ok_iff {ε' : Type} {f : ε → ε'} {x : Except ε α} {a : α} :
    x.mapError f = .ok a ↔ x = .ok a := by
  cases x <;> simp

theorem map_eq_ok_iff {f : α → β} {x : Except ε α} {b : β} :
    x.map f = .ok b ↔ ∃ a, x = .ok a ∧ f a = b := by
  cases x <;> simp [Except.map]

theorem map_eq_error_iff {f : α → β} {x : Except ε α} {e : ε} :
    x.map f = .error e ↔ x = .error e := by
  cases x <;> simp [Except.map]

theorem mapError_eq_error_iff {ε' : Type} {f : ε → ε'} {x : Except ε α} {e' : ε'} :
    x.mapError f = .error e' ↔ ∃ e, x = .error e ∧ f e = e' := by
  cases x <;> simp

theorem forM_eq_ok_iff {check : α → Except ε Unit} {items : List α} {u : Unit} :
    items.forM check = .ok u ↔ ∀ item ∈ items, check item = .ok () := by
  induction items with
  | nil => simp [List.forM, pure, Except.pure]
  | cons first rest ih =>
    rw [List.forM, bind_eq_ok_iff]
    constructor
    · rintro ⟨⟨⟩, passed, others⟩ item member
      rcases List.mem_cons.mp member with rfl | member
      · exact passed
      · exact ih.mp others item member
    · intro passed
      exact ⟨(), passed first (by simp), ih.mpr fun item member => passed item (by simp [member])⟩

/-- A check of all members fails at the first of them that does not pass. -/
theorem forM_eq_error_iff {check : α → Except ε Unit} {items : List α} {e : ε} :
    items.forM check = .error e ↔ ∃ front item rest, items = front ++ item :: rest ∧
      (∀ earlier ∈ front, check earlier = .ok ()) ∧ check item = .error e := by
  induction items with
  | nil => simp [List.forM, pure, Except.pure]
  | cons first rest ih =>
    rw [List.forM, bind_eq_error_iff]
    constructor
    · rintro (failed | ⟨⟨⟩, passed, failed⟩)
      · exact ⟨[], first, rest, rfl, by simp, failed⟩
      · obtain ⟨front, item, behind, rfl, before, failed⟩ := ih.mp failed
        exact ⟨first :: front, item, behind, rfl, List.forall_mem_cons.mpr ⟨passed, before⟩, failed⟩
    · rintro ⟨front, item, behind, split, before, failed⟩
      rcases List.cons_eq_append_iff.mp split with ⟨rfl, same⟩ | ⟨front, rfl, rfl⟩
      · cases same
        exact .inl failed
      · obtain ⟨passed, before⟩ := List.forall_mem_cons.mp before
        exact .inr ⟨(), passed, ih.mpr ⟨front, item, behind, rfl, before, failed⟩⟩

theorem forM_congr {check check' : α → Except ε Unit} {items : List α}
    (same : ∀ item ∈ items, check item = check' item) : items.forM check = items.forM check' := by
  induction items with
  | nil => rfl
  | cons first rest ih =>
    rw [List.forM, List.forM, same first (by simp)]
    have others := ih fun item member => same item (by simp [member])
    simp only [others]

theorem mapM_eq_ok {f : α → Except ε β} {g : α → β} {items : List α}
    (each : ∀ item ∈ items, f item = .ok (g item)) : items.mapM f = .ok (items.map g) := by
  induction items with
  | nil => rfl
  | cons first rest ih =>
    rw [List.mapM_cons, each first (by simp), ok_bind,
      ih fun item member => each item (by simp [member])]
    rfl

/-- Steps that are the images of others come to the image of what the others come to. -/
theorem foldlM_map_of_steps {γ δ : Type} {image : β → γ} {step : β → δ → Except ε β}
    {step' : γ → α → Except ε γ} {as : α → δ}
    (steps : ∀ b a, step' (image b) a = (step b (as a)).map image) (first : β) (items : List α) :
    items.foldlM step' (image first) = ((items.map as).foldlM step first).map image := by
  induction items generalizing first with
  | nil => rfl
  | cons item rest ih =>
    rw [List.map_cons, List.foldlM_cons, List.foldlM_cons, steps]
    cases step first (as item) with
    | error e => rfl
    | ok next => exact ih next

/-- What every step keeps holds of the value at the end. -/
theorem foldlM_keeps {keeps : β → Prop} {step : β → α → Except ε β} {items : List α}
    {first last : β} (steps : ∀ {b a next}, keeps b → step b a = .ok next → keeps next)
    (holds : keeps first) (done : items.foldlM step first = .ok last) : keeps last := by
  induction items generalizing first with
  | nil =>
    cases done
    exact holds
  | cons item rest ih =>
    rw [List.foldlM_cons, bind_eq_ok_iff] at done
    obtain ⟨between, stepped, done⟩ := done
    exact ih (steps holds stepped) done

/-- What every step keeps holds of the value at which one of them fails. -/
theorem exists_step_of_foldlM_error {keeps : β → Prop} {step : β → α → Except ε β}
    {items : List α} {first : β} {e : ε}
    (steps : ∀ {b a next}, keeps b → step b a = .ok next → keeps next) (holds : keeps first)
    (failed : items.foldlM step first = .error e) :
    ∃ item ∈ items, ∃ between, keeps between ∧ step between item = .error e := by
  induction items generalizing first with
  | nil => cases failed
  | cons item rest ih =>
    rw [List.foldlM_cons, bind_eq_error_iff] at failed
    rcases failed with failed | ⟨between, stepped, failed⟩
    · exact ⟨item, by simp, first, holds, failed⟩
    · obtain ⟨later, member, failed⟩ := ih (steps holds stepped) failed
      exact ⟨later, List.mem_cons_of_mem item member, failed⟩

end TokenLedger
