import Mathlib.Data.Option.Basic
import TokenLedger.CommandLine.Opening
import TokenLedger.Proofs.CommandLine.Files
import TokenLedger.Proofs.Store.Migration

/-! # What opening leaves behind

What is found beside the file of a database may be cleared away, be made anew, or be a
reason to refuse.  Each of the three steps that deal with it is said in one equation
(`on_setMarker`, `on_clearJournal`, `on_takeUpLog`).  Where no step refuses, the companions
of the file are left `Settled`, once those are gone that closing removes
(`companions_eq_some`), and where they are settled, no step refuses
(`exists_companions_of_settled`).

A file that may be written and one that may only be read are settled for different
reasons.  From beside the former all that could be refused is removed, if not at once then
in the end; beside the latter nothing has changed but the index of a log.
-/

namespace TokenLedger

/-- The file of a database as it is found. -/
def DatabaseName.found (name : DatabaseName) (place : Location) (isBlank : Bool) : Opening.Found :=
  { place, isBlank, canWrite := name.canWrite, sharing := name.sharing }

namespace Opening

variable {α β : Type} {fs next : FileSystem} {found : Found} {place : Location}
  {log : List Location} {name : DatabaseName} {opened : OpenDatabase} {path : Bytes}

/-! ## Steps -/

/-- What steps come to, and the files after them. -/
def on (steps : Opening α) (fs : FileSystem) : Option α × FileSystem := StateT.run steps.run fs

theorem on_get_bind (steps : FileSystem → Opening α) (fs : FileSystem) :
    (get >>= steps : Opening α).on fs = (steps fs).on fs := rfl

theorem on_guard_bind (p : Prop) [Decidable p] (steps : Opening α) (fs : FileSystem) :
    (guard p >>= fun _ => steps).on fs = if p then steps.on fs else (none, fs) := by
  unfold guard
  split <;> rfl

theorem on_guard (p : Prop) [Decidable p] (fs : FileSystem) :
    (guard p : Opening Unit).on fs = (if p then some () else none, fs) := by
  unfold guard
  split <;> rfl

theorem on_bind_eq_some {steps : Opening α} {rest : α → Opening β} {b : β} :
    (steps >>= rest).on fs = (some b, next) ↔
      ∃ a between, steps.on fs = (some a, between) ∧ (rest a).on between = (some b, next) := by
  have unfolded : (steps >>= rest).on fs = StateT.run
      ((steps.on fs).1.elim (pure none) fun a => (rest a).run) (steps.on fs).2 := by
    rw [on, OptionT.run_bind, Option.elimM, StateT.run_bind]
    rfl
  rw [unfolded]
  cases steps.on fs with
  | mk result between =>
    cases result with
    | none => exact iff_of_false nofun (by simp)
    | some a => simp [on]

theorem on_orElse (steps others : Opening α) (fs : FileSystem) :
    (steps <|> others).on fs = match steps.on fs with
      | (some a, next) => (some a, next)
      | (none, next) => others.on next := by
  show StateT.run (OptionT.run (OptionT.orElse steps fun _ => others)) fs = _
  rw [OptionT.orElse]
  simp only [OptionT.run, OptionT.mk, StateT.run_bind, on]
  generalize StateT.run steps fs = ran
  obtain ⟨result, next⟩ := ran
  cases result <;> rfl

/-! ## Companions of the file -/

/-- What is done with the companions of a file, and which of them are to be removed in the end. -/
def companions (found : Found) : Opening (List Location) := do
  setMarker found
  clearJournal found
  takeUpLog found

/-- Whether no log is left, or one that stays because the file may only be read. -/
def LogSettled (found : Found) (fs : FileSystem) : Prop :=
  fs.bytesAt found.place.log = [] ∨ (found.canWrite = false ∧ found.sharing.allowsLog ∧
    if found.sharing.keepsIndex then
      fs.holds found.place.logIndex ∧ (fs.bytesAt found.place.log).length < logHeader
    else (fs.contentAt? found.place.logIndex).isSome)

/-- Whether the companions of a file are such that the file can be opened with them. -/
structure Settled (found : Found) (fs : FileSystem) : Prop where
  marker : found.sharing.setsMarker →
    found.place.marker.hasShortName ∧ ¬ fs.holds found.place.marker
  journal : found.canWrite ∨ seemsInUse found fs ∨ (fs.bytesAt found.place.journal).headD 0 = 0
  log : LogSettled found fs

theorem on_setMarker (found : Found) (fs : FileSystem) :
    (setMarker found).on fs =
      if found.sharing.setsMarker then
        (if found.place.marker.hasShortName ∧ ¬ fs.holds found.place.marker then some ()
          else none, fs)
      else (some (), fs) := by
  unfold setMarker
  split
  · rw [on_get_bind, on_guard]
  · rfl

theorem on_clearJournal (found : Found) (fs : FileSystem) :
    (clearJournal found).on fs =
      if seemsInUse found fs then (some (), fs)
      else match fs.bytesAt found.place.journal with
        | [] => (some (), fs)
        | first :: _ =>
          if found.isBlank then
            if found.canWrite || found.sharing.isOpen then (some (), fs.remove found.place.journal)
            else (some (), fs)
          else if first ≠ 0 then
            if found.canWrite then (some (), fs.remove found.place.journal) else (none, fs)
          else (some (), fs) := by
  rw [clearJournal, on_get_bind]
  dsimp only
  split
  · rfl
  cases fs.bytesAt found.place.journal with
  | nil => rfl
  | cons first rest =>
    dsimp only
    split
    · split <;> rfl
    · split
      · exact on_guard_bind _ _ _
      · rfl

theorem on_takeUpLog (found : Found) (fs : FileSystem) :
    (takeUpLog found).on fs =
      if fs.bytesAt found.place.log = [] then (some [], fs)
      else if found.isBlank then (some [], fs.remove found.place.log)
      else if found.sharing.allowsLog then
        if found.canWrite && found.sharing.locking = .exclusive then (some [found.place.log], fs)
        else if found.sharing.keepsIndex then
          if !found.canWrite && fs.holds found.place.logIndex &&
              (fs.bytesAt found.place.log).length < logHeader then (some [], fs)
          else (none, fs)
        else
          (some (if found.canWrite then [found.place.log, found.place.logIndex] else []),
            fs.put found.place.logIndex .blankIndex)
      else (none, fs) := by
  by_cases empty : fs.bytesAt found.place.log = []
  · simp only [takeUpLog, on_get_bind, if_pos empty]
    rfl
  · simp only [takeUpLog, on_get_bind, if_neg empty]
    split
    · rfl
    · split
      · rw [on_guard_bind]
        rfl
      · split
        · rw [on_guard_bind, on_guard_bind]
          rfl
        · rw [on_guard_bind]
          rfl

/-! ## What is left of the companions -/

theorem setMarker_eq_some {u : Unit} (done : (setMarker found).on fs = (some u, next)) :
    next = fs ∧ (found.sharing.setsMarker →
      found.place.marker.hasShortName ∧ ¬ fs.holds found.place.marker) := by
  rw [on_setMarker] at done
  split at done
  next sets =>
    split at done
    next free =>
      cases done
      exact ⟨rfl, fun _ => free⟩
    · cases done
  next unset =>
    cases done
    exact ⟨rfl, fun sets => absurd sets unset⟩

theorem clearJournal_eq_some {u : Unit} (usable : found.isBlank → found.canWrite)
    (done : (clearJournal found).on fs = (some u, next)) :
    next.SameBut [found.place.journal] fs ∧
      (found.canWrite ∨ seemsInUse found next ∨
        (next.bytesAt found.place.journal).headD 0 = 0) := by
  rw [on_clearJournal] at done
  split at done
  next used =>
    cases done
    exact ⟨.refl fs, .inr (.inl used)⟩
  split at done
  next empty =>
    cases done
    exact ⟨.refl fs, .inr (.inr (by rw [empty]; rfl))⟩
  next first _ starts =>
    split at done
    next blank =>
      refine ⟨?_, .inl (usable blank)⟩
      split at done
      · cases done
        exact .remove fs (List.mem_singleton_self _)
      · cases done
        exact .refl fs
    split at done
    · split at done
      next writable =>
        cases done
        exact ⟨.remove fs (List.mem_singleton_self _), .inl writable⟩
      · cases done
    next finished =>
      cases done
      exact ⟨.refl fs, .inr (.inr (by rw [starts]; exact not_not.mp finished))⟩

theorem takeUpLog_eq_some (done : (takeUpLog found).on fs = (some log, next)) :
    log ⊆ [found.place.log, found.place.logIndex] ∧
      next.SameBut [found.place.log, found.place.logIndex] fs ∧
      LogSettled found (next.removeAll log) := by
  rw [on_takeUpLog] at done
  split at done
  next empty =>
    cases done
    exact ⟨List.nil_subset _, .refl fs, .inl empty⟩
  -- where the log is among the files that closing removes, there is none to be taken up
  have removed := fun fs : FileSystem =>
    @FileSystem.bytesAt_removeAll_of_mem fs found.place.log [found.place.log] (by simp)
  split at done
  · cases done
    exact ⟨List.nil_subset _, .remove fs (by simp), .inl (removed fs)⟩
  split at done
  next allows =>
    split at done
    · cases done
      exact ⟨by simp, .refl fs, .inl (removed fs)⟩
    split at done
    next keeps =>
      split at done
      next short =>
        cases done
        simp only [Bool.and_eq_true, Bool.not_eq_true', decide_eq_true_eq] at short
        refine ⟨List.nil_subset _, .refl fs, .inr ⟨short.1.1, allows, ?_⟩⟩
        rw [if_pos keeps]
        exact ⟨short.1.2, short.2⟩
      · cases done
    next makes =>
      have same : (fs.put found.place.logIndex .blankIndex).SameBut
          [found.place.log, found.place.logIndex] fs := .put fs (by simp) _
      cases writable : found.canWrite with
      | true =>
        rw [writable, if_pos rfl] at done
        cases done
        exact ⟨fun _ member => member, same, .inl (FileSystem.bytesAt_removeAll_of_mem (by simp))⟩
      | false =>
        rw [writable, if_neg Bool.false_ne_true] at done
        cases done
        refine ⟨List.nil_subset _, same, .inr ⟨writable, allows, ?_⟩⟩
        have made : (fs.put found.place.logIndex .blankIndex).contentAt? found.place.logIndex =
            some .blankIndex := by rw [FileSystem.contentAt?_put, if_pos rfl]
        rw [if_neg makes]
        exact Option.isSome_of_eq_some made
  · cases done

/-- Only companions of a file are touched, and they are left settled. -/
theorem companions_eq_some (inside : found.place ≠ []) (usable : found.isBlank → found.canWrite)
    (done : (companions found).on fs = (some log, next)) :
    log ⊆ [found.place.log, found.place.logIndex] ∧
      next.SameBut [found.place.journal, found.place.log, found.place.logIndex] fs ∧
      Settled found (next.removeAll log) := by
  simp only [companions, on_bind_eq_some] at done
  obtain ⟨⟨⟩, between, set, ⟨⟩, cleared, clears, takes⟩ := done
  obtain ⟨rfl, marker⟩ := setMarker_eq_some set
  obtain ⟨clearedBut, journal⟩ := clearJournal_eq_some usable clears
  obtain ⟨members, took, logged⟩ := takeUpLog_eq_some takes
  replace clearedBut : cleared.SameBut
      [found.place.journal, found.place.log, found.place.logIndex] between :=
    clearedBut.mono (by simp)
  have closed : (next.removeAll log).SameBut [found.place.log, found.place.logIndex] cleared :=
    (FileSystem.SameBut.removeAll next members).trans took
  have later : ∀ {fs next : FileSystem},
      next.SameBut [found.place.log, found.place.logIndex] fs → next.SameBut
        [found.place.journal, found.place.log, found.place.logIndex] fs :=
    fun same => same.mono (List.subset_cons_self _ _)
  -- the companions are different files, so that no step undoes what another has settled
  have journalApart := @Location.besides_apart_beside found.place inside ["-wal", "-shm"] "-journal"
    (by decide)
  have markerApart := @Location.besides_apart_beside found.place inside
    ["-journal", "-wal", "-shm"] ".lock" (by decide)
  have heldBefore : (next.removeAll log).holds found.place.marker = _ :=
    ((later closed).trans clearedBut).holds markerApart
  have heldBetween : (next.removeAll log).holds found.place.marker = _ :=
    (later closed).holds markerApart
  have journalBetween : (next.removeAll log).bytesAt found.place.journal = _ :=
    closed.bytesAt journalApart
  refine ⟨members, (later took).trans clearedBut, fun sets => ?_, ?_, logged⟩
  · rw [heldBefore]
    exact marker sets
  · rw [seemsInUse, heldBetween, journalBetween]
    exact journal

/-! ## Settled companions -/

/-- With a file that may be written, only the marker and the log matter. -/
theorem Settled.of_sameBut (settled : Settled found fs) (inside : found.place ≠ [])
    (writable : found.canWrite) (same : next.SameBut [found.place, found.place.journal] fs) :
    Settled found next := by
  have apart (other : String) (longer : Bytes.ofText other ≠ [])
      (unlike : Bytes.ofText "-journal" ≠ Bytes.ofText other) :
      ∀ place ∈ [found.place, found.place.journal],
        place.text ≠ (found.place.beside other).text := by
    simp only [List.forall_mem_cons, List.not_mem_nil, false_imp_iff, implies_true, and_true]
    have self := @Location.besides_apart_self found.place inside [other] (by simpa using longer)
    have journal := @Location.besides_apart_beside found.place inside ["-journal"] other
      (by simpa using unlike)
    exact ⟨(self _ (List.mem_singleton_self _)).symm, journal _ (List.mem_singleton_self _)⟩
  have held : next.holds found.place.marker = _ :=
    same.holds (apart ".lock" (by decide) (by decide))
  have log : next.bytesAt found.place.log = _ := same.bytesAt (apart "-wal" (by decide) (by decide))
  refine ⟨fun sets => ?_, .inl writable, .inl ?_⟩
  · rw [held]
    exact settled.marker sets
  · rw [log]
    rcases settled.log with empty | ⟨readOnly, _⟩
    · exact empty
    · rw [writable] at readOnly
      cases readOnly

theorem exists_clearJournal (used : found.isBlank = false)
    (journal : found.canWrite ∨ seemsInUse found fs ∨
      (fs.bytesAt found.place.journal).headD 0 = 0) :
    ∃ next, (clearJournal found).on fs = (some (), next) ∧
      next.SameBut [found.place.journal] fs ∧ next.Within fs := by
  rw [on_clearJournal]
  split
  · exact ⟨_, rfl, .refl fs, .refl fs⟩
  next unused =>
  split
  · exact ⟨_, rfl, .refl fs, .refl fs⟩
  next first rest starts =>
  rw [if_neg (by simp [used])]
  split
  next unfinished =>
    have writable : found.canWrite := by
      rcases journal with writable | used | finished
      · exact writable
      · exact absurd used unused
      · rw [starts] at finished
        exact absurd finished unfinished
    rw [if_pos writable]
    exact ⟨_, rfl, .remove fs (List.mem_singleton_self _), .remove fs _⟩
  · exact ⟨_, rfl, .refl fs, .refl fs⟩

theorem exists_takeUpLog (used : found.isBlank = false)
    (settled : LogSettled found fs) :
    ∃ log next, (takeUpLog found).on fs = (some log, next) ∧ next.Within fs := by
  rw [on_takeUpLog]
  split
  · exact ⟨_, _, rfl, .refl fs⟩
  next lasting =>
  -- of a file that may be written no log has been left
  obtain ⟨readOnly, allows, index⟩ := settled.resolve_left lasting
  rw [if_neg (by simp [used]), if_pos allows, if_neg (by simp [readOnly])]
  split at index
  next keeps =>
    rw [if_pos keeps, if_pos (by simpa [readOnly] using index)]
    exact ⟨_, _, rfl, .refl fs⟩
  next makes =>
    rw [if_neg makes]
    exact ⟨_, _, rfl, .put index _⟩

theorem exists_companions_of_settled (settled : Settled found fs) (inside : found.place ≠ [])
    (used : found.isBlank = false) :
    ∃ log next, (companions found).on fs = (some log, next) ∧ next.Within fs := by
  have marked : (setMarker found).on fs = (some (), fs) := by
    rw [on_setMarker]
    split
    next sets => rw [if_pos (settled.marker sets)]
    · rfl
  obtain ⟨cleared, clears, same, less⟩ := exists_clearJournal used settled.journal
  have logApart := @Location.besides_apart_beside found.place inside ["-journal"] "-wal" (by decide)
  have indexApart := @Location.besides_apart_beside found.place inside ["-journal"] "-shm"
    (by decide)
  have bytes : cleared.bytesAt found.place.log = _ := same.bytesAt logApart
  have held : cleared.holds found.place.logIndex = _ := same.holds indexApart
  have content : cleared.contentAt? found.place.logIndex = _ := same.contents _ indexApart
  have log : LogSettled found cleared := by
    rw [LogSettled, bytes, held, content]
    exact settled.log
  obtain ⟨log, next, takes, within⟩ := exists_takeUpLog used log
  refine ⟨log, next, ?_, within.trans less⟩
  simp only [companions, on_bind_eq_some]
  exact ⟨(), fs, marked, (), cleared, clears, takes⟩

/-! ## Files of databases -/

/-- What is done with the companions of a file. Those of a frozen one are left alone. -/
def companionsOf (name : DatabaseName) (found : Found) : Opening (List Location) :=
  if name.isFrozen then pure [] else companions found

/-- Takes what a file holds for a database. -/
def read (name : DatabaseName) (place : Location) (content : FileContent) (log : List Location) :
    Opening OpenDatabase :=
  match content.database? with
  | some db => return { db, file? := some { place, log }, canWrite := name.canWrite }
  | none => do
    modify (·.removeAll log)
    failure

theorem openFile_eq (name : DatabaseName) (path : Bytes) :
    openFile name path = (do
      guard (name.model?.all (← get).hasPath)
      let some place := (← get).databasePlace? path | failure
      let content ← content place name.access
      let log ← companionsOf name (name.found place content.isBlank)
      read name place content log) := by
  unfold openFile
  apply bind_congr
  intro fs
  apply bind_congr
  intro _
  apply bind_congr
  intro fs
  cases fs.databasePlace? path with
  | none => rfl
  | some place =>
    apply bind_congr
    intro content
    unfold companionsOf companions
    dsimp only
    split
    · rfl
    · simp only [bind_assoc]
      rfl

theorem companionsOf_eq_some {isBlank : Bool} (inside : place ≠ [])
    (usable : isBlank → name.canWrite)
    (done : (companionsOf name (name.found place isBlank)).on fs = (some log, next)) :
    log ⊆ [place.log, place.logIndex] ∧
      next.SameBut [place.journal, place.log, place.logIndex] fs ∧
      (name.isFrozen = false → Settled (name.found place false) (next.removeAll log)) := by
  unfold companionsOf at done
  split at done
  next frozen =>
    cases done
    refine ⟨List.nil_subset _, .refl fs, fun moves => ?_⟩
    rw [frozen] at moves
    cases moves
  · obtain ⟨members, same, settled⟩ := companions_eq_some inside usable done
    exact ⟨members, same, fun _ => ⟨settled.marker, settled.journal, settled.log⟩⟩

theorem exists_companionsOf (inside : place ≠ [])
    (settled : name.isFrozen = false → Settled (name.found place false) fs) :
    ∃ log next, (companionsOf name (name.found place false)).on fs = (some log, next) ∧
      next.Within fs := by
  unfold companionsOf
  split
  · exact ⟨[], fs, rfl, .refl fs⟩
  next moves => exact exists_companions_of_settled (settled (by simpa using moves)) inside rfl

theorem content_eq_some {content : FileContent} {access : Access}
    (done : (Opening.content place access).on fs = (some content, next)) :
    next.contentAt? place = some content := by
  rw [Opening.content, on_get_bind] at done
  split at done
  next there =>
    cases done
    exact there
  · rw [on_guard_bind] at done
    split at done
    · cases done
      rw [FileSystem.contentAt?_put, if_pos rfl]
    · cases done

theorem openFile_eq_some (done : (openFile name path).on fs = (some opened, next)) :
    ∃ place content log between, place ≠ [] ∧ between.contentAt? place = some content ∧
      (companionsOf name (name.found place content.isBlank)).on between = (some log, next) ∧
      content.database? = some opened.db ∧
      opened = { db := opened.db, file? := some ⟨place, log⟩, canWrite := name.canWrite } := by
  rw [openFile_eq, on_get_bind, on_guard_bind] at done
  split at done
  · rw [on_get_bind] at done
    split at done
    next place leads =>
      obtain ⟨content, between, found, done⟩ := on_bind_eq_some.mp done
      obtain ⟨log, after, clears, done⟩ := on_bind_eq_some.mp done
      unfold read at done
      split at done
      next db reads =>
        cases done
        exact ⟨place, content, log, between, fs.ne_nil_of_databasePlace? leads,
          content_eq_some found, clears, reads, rfl⟩
      · cases done
    · cases done
  · cases done

/-- A database that is there already is found where a path leads. -/
theorem on_openFile {db : Database} (model : name.model? = none)
    (leads : fs.databasePlace? path = some place)
    (there : fs.contentAt? place = some (.database db))
    (clears : (companionsOf name (name.found place false)).on fs = (some log, next)) :
    (openFile name path).on fs =
      (some { db, file? := some ⟨place, log⟩, canWrite := name.canWrite }, next) := by
  have found : (content place name.access).on fs = (some (.database db), fs) := by
    rw [content, on_get_bind, there]
    rfl
  rw [openFile_eq, on_get_bind, on_guard_bind, if_pos (by rw [model]; rfl), on_get_bind, leads]
  refine on_bind_eq_some.mpr ⟨_, _, found, on_bind_eq_some.mpr ⟨_, _, clears, rfl⟩⟩

/-! ## Schemas -/

theorem on_migrate (opened : OpenDatabase) (now : Int) (fs : FileSystem) :
    (migrate opened now).on fs =
      match opened.db.migrate now with
      | .error _ => (none, fs)
      | .ok (found, db) =>
        if found = Database.supportedVersion then (some opened, fs)
        else if opened.canWrite ∧ opened.file?.all (·.canChange) then
          (some { opened with db }, fs.keep { opened with db })
        else (none, fs) := by
  unfold migrate
  cases opened.db.migrate now with
  | error e => rfl
  | ok migrated =>
    dsimp only
    split
    · rfl
    · rw [on_guard_bind]
      rfl

theorem on_migrate_of_upToDate (latest : opened.db.UpToDate) (now : Int) (fs : FileSystem) :
    (migrate opened now).on fs = (some opened, fs) := by
  rw [on_migrate, latest]
  rfl

theorem opened_eq_some {now : Int} :
    Opening.on (name.opened now) fs = (some opened, next) ↔
      ∃ asIs between, Opening.on name.openedAsIs fs = (some asIs, between) ∧
        (migrate asIs now).on between = (some opened, next) := by
  rw [DatabaseName.opened, on_bind_eq_some]
  refine exists_congr fun asIs => exists_congr fun between => and_congr_right fun _ => ?_
  rw [on_orElse]
  cases (migrate asIs now).on between with
  | mk result after =>
    cases result with
    | some migrated => rfl
    | none => exact iff_of_false nofun nofun

end Opening

end TokenLedger
