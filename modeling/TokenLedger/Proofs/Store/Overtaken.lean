import TokenLedger.Proofs.Store.AllOrNothing

/-! # Commits of what has been loaded

Records are loaded from a store, a batch is computed from them, and when it comes to be
committed others may have used the store.  Records stay where they are and keep what
identifies them, so all that can have happened is that one of those loaded has another
value now (`WriteBatch.Overtaken`).  Then the batch comes to a conflict; otherwise it is
applied.  Nothing else can go wrong (`AnyStore.commit_loaded`).
-/

namespace TokenLedger

open RecordStore

/-- Whether a call is replied to differently by another store. -/
def StoreCall.Differs (call : StoreCall) (before after : AnyStore) : Prop :=
  (answer call before).1 ≠ (answer call after).1

namespace AnyUpdate

/-- The look-up of the record that the update is for. -/
def load : AnyUpdate → StoreCall
  | mint update => .getMint update.after.address
  | account update => .getAccount update.after.address

variable {update : AnyUpdate} {store found : AnyStore} {a b : MemoryStore}

theorem check_later (holds : store.Holds a) (held : found.Holds b) (kept : Keeps a b)
    (fits : update.Fits a) :
    (¬update.load.Differs store found ∧ update.check b = .ok ()) ∨
      (update.load.Differs store found ∧
        update.check b = .error (.conflict (.record update.address))) := by
  cases update with
  | mint update =>
    obtain ⟨stored, there, keeps, _, rfl⟩ := fits
    obtain ⟨later, there', same⟩ := kept.mint (MemoryStore.hasMint_iff.mpr there)
    rw [MemoryStore.hasMint_iff] at there'
    simp only [load, StoreCall.Differs, holds.getMint, held.getMint, there, there', check]
    by_cases unchanged : update.before = later
    · rw [← unchanged]
      exact .inl ⟨not_not.mpr rfl, Update.checkMint_eq_ok_iff.mpr ⟨rfl, keeps⟩⟩
    · -- the identity is what it was, so the value is all that there is to be said against it
      have offence := Update.checkMint_eq_error_iff.mpr
        (.moved ⟨keeps, same.symm.trans keeps⟩ (Ne.symm unchanged))
      exact .inr ⟨fun same => unchanged (Option.some.inj (Except.ok.inj same)), offence⟩
  | account update =>
    obtain ⟨stored, there, keeps, _, rfl⟩ := fits
    obtain ⟨later, there', same⟩ := kept.account (MemoryStore.hasAccount_iff.mpr there)
    rw [MemoryStore.hasAccount_iff] at there'
    simp only [load, StoreCall.Differs, holds.getAccount, held.getAccount, there, there', check]
    by_cases unchanged : update.before = later
    · rw [← unchanged]
      exact .inl ⟨not_not.mpr rfl, Update.checkAccount_eq_ok_iff.mpr ⟨rfl, keeps⟩⟩
    · have offence := Update.checkAccount_eq_error_iff.mpr
        (.moved ⟨keeps, same.symm.trans keeps⟩ (Ne.symm unchanged))
      exact .inr ⟨fun same => unchanged (Option.some.inj (Except.ok.inj same)), offence⟩

end AnyUpdate

/-- Whether a record that a batch is for has changed from one store to another. -/
def WriteBatch.Overtaken (batch : WriteBatch) (before after : AnyStore) : Prop :=
  ∃ update ∈ batch.updates, update.load.Differs before after

namespace AnyStore

variable {store found : AnyStore} {a b after : MemoryStore} {batch : WriteBatch}

/-- A batch that could have been committed when its records were loaded is committed later,
    or conflicts since it is overtaken. -/
theorem commit_loaded (holds : store.Holds a) (held : found.Holds b) (kept : Keeps a b)
    (distinct : batch.Distinct) (could : a.commit batch = .ok after) :
    (¬batch.Overtaken store found ∧ ∃ later final, b.commit batch = .ok later ∧
        RecordStore.answer (.commit batch) found = (.ok (), final) ∧ final.Holds later) ∨
      (batch.Overtaken store found ∧ ∃ subject,
        RecordStore.answer (.commit batch) found = (.error (.conflict subject), found)) := by
  have fits := (WriteBatch.commit_eq_ok_iff_fits.mp could).1
  rcases commit_of_distinct held distinct with ⟨later, done, ok, final⟩ | ⟨e, failed, refused⟩
  · refine .inl ⟨?_, later, _, done, Prod.ext ok rfl, final⟩
    rintro ⟨update, member, differs⟩
    have fits_later := (WriteBatch.commit_eq_ok_iff_fits.mp done).1 update member
    rcases AnyUpdate.check_later holds held kept (fits update member) with ⟨same, _⟩ | ⟨_, conflict⟩
    · exact same differs
    · cases conflict.symm.trans (AnyUpdate.check_eq_ok_iff.mpr fits_later)
  · have unchanged := commit_error_unchanged held refused
    obtain ⟨front, update, rest, split, _, offence⟩ :=
      WriteBatch.commit_eq_error_iff_offence.mp failed
    have member : update ∈ batch.updates := by
      rw [split]
      exact List.mem_append_right _ List.mem_cons_self
    -- of what can be said against an update, only a conflict can come up later
    rcases AnyUpdate.check_later holds held kept (fits update member) with
      ⟨_, passed⟩ | ⟨differs, conflict⟩
    · cases passed.symm.trans (AnyUpdate.check_eq_error_iff.mpr offence)
    · cases conflict.symm.trans (AnyUpdate.check_eq_error_iff.mpr offence)
      exact .inr ⟨⟨update, member, differs⟩, _, Prod.ext refused unchanged⟩

end AnyStore

end TokenLedger
