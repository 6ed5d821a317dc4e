import TokenLedger.Proofs.Authentication
import TokenLedger.Proofs.CommandLine.Keyfiles
import TokenLedger.Proofs.CommandLine.Reopening
import TokenLedger.Proofs.Ledger.Failures

/-! # Mints and their key files

Creating a mint from the command line is two effects, one on the database and one on the
file of the new mint's keypair, in this order.  The first is all or nothing
(`OpenDatabase.insertMint_cases`).  The second changes no file that is there, but where
writing breaks off, a file with the beginning of the text is left
(`FileSystem.saveKeypair_cases`).  Since it comes last, a key file is there only for a mint
that is stored (`createMint_settled`); but if it cannot be saved, the mint stays
(`createMint_keyfile_unsaved`).
-/

namespace TokenLedger

open RecordStore

/-! ## Programs that call once -/

namespace LedgerProgram

variable {σ α : Type} [RecordStore σ]

theorem run_reply (request : StoreCall) (f : request.Reply → LedgerProgram α) (store : σ) :
    Program.run (reply request >>= f).run store =
      Program.run (f (answer request store).1).run (answer request store).2 := rfl

/-- A call goes on with its answer, or fails. -/
theorem run_call (request : StoreCall) (f : request.Answer → LedgerProgram α) (store : σ) :
    Program.run (call request >>= f).run store = match answer request store with
      | (.ok answer, next) => Program.run (f answer).run next
      | (.error e, next) => { result := .error (.storage e), store := next, events := [] } := by
  rw [call, bind_assoc, run_reply]
  rcases answer request store with ⟨_ | _, next⟩ <;> rfl

/-- What is done to a result leaves the store as it is. -/
theorem run_bind_pure {β : Type} (program : LedgerProgram α) (f : α → β) (store : σ) :
    let finished := Program.run program.run store
    let mapped := Program.run (do return f (← program) : LedgerProgram β).run store
    mapped.store = finished.store ∧ mapped.result = finished.result.map f := by
  intro finished mapped
  have store' : mapped.store = _ := Program.store_run_bind program.run _ store
  have result : mapped.result = _ := Program.result_run_bind program.run _ store
  rw [store', result]
  show _ = finished.store ∧ _
  cases finished.result <;> exact ⟨rfl, rfl⟩

end LedgerProgram

namespace Ledger

variable {σ : Type} [RecordStore σ]

/-- A new mint is one call of the store. -/
theorem run_createMint (address : MintAddress) (decimals : UInt8) (authority : Principal)
    (store : σ) :
    let answered := answer (.insertMint (.empty address authority decimals)) store
    let finished := Program.run (createMint address decimals authority).run store
    finished.store = answered.2 ∧ finished.result = match answered.1 with
      | .ok .inserted => .ok (.empty address authority decimals)
      | .ok .alreadyExists => .error (.rejected (.alreadyExists (.mint address)))
      | .error e => .error (.storage e) := by
  have locked : ∀ f : Unit → LedgerProgram MintRecord,
      (Program.run (LedgerProgram.lock [address.raw] >>= f).run store).store =
        (Program.run (f ()).run store).store ∧
      (Program.run (LedgerProgram.lock [address.raw] >>= f).run store).result =
        (Program.run (f ()).run store).result := fun f => ⟨rfl, rfl⟩
  dsimp only
  rw [createMint, (locked _).1, (locked _).2, LedgerProgram.run_call]
  rcases answer (.insertMint (.empty address authority decimals)) store with ⟨e | _ | _, next⟩ <;>
    exact ⟨rfl, rfl⟩

theorem submit_createMint {ledger : Ledger} {envelope : SignedOperation} {signer : Principal}
    {mint : MintAddress} {decimals : UInt8}
    (signed : ledger.authenticator.authenticate envelope = .ok signer)
    (asks : envelope.operation = .createMint mint decimals) :
    ledger.submit envelope = do return .mintCreated (← createMint mint decimals signer) := by
  rw [Ledger.submit, signed, asks]
  rfl

end Ledger

/-! ## Inserting a mint -/

/-- Whether a mint that is to be inserted is stored then, or else nothing has changed. -/
def InsertsOrStays {σ : Type} [RecordStore σ] (mint : MintRecord) (store : σ) : Prop :=
  ((answer (.insertMint mint) store).1 = .ok .inserted ∧
    HasMint (answer (.insertMint mint) store).2 mint.address mint) ∨
  (answer (.insertMint mint) store).1 ≠ .ok .inserted ∧ (answer (.insertMint mint) store).2 = store

theorem Tables.insertMint_cases (mint : MintRecord) (tables : Tables) :
    InsertsOrStays mint tables := by
  unfold InsertsOrStays
  simp only [answer, insertMint]
  cases free : tables.mints.find? mint.address.toBytes with
  | some row => exact .inr ⟨by rintro ⟨⟩, rfl⟩
  | none =>
    refine .inl ⟨rfl, Tables.getMint_eq_some_iff.mpr ⟨mint.toRow, ?_, mint.decode_encode, rfl⟩⟩
    rw [Index.find?_put]
    exact if_pos rfl

theorem Database.insertMint_cases (mint : MintRecord) (db : Database) :
    InsertsOrStays mint db := by
  obtain ⟨tables, others, triggers⟩ := db
  cases tables with
  | none => exact .inr ⟨by rintro ⟨⟩, rfl⟩
  | some tables =>
    rcases tables.insertMint_cases mint with ⟨inserted, found⟩ | ⟨refused, same⟩
    · exact .inl ⟨inserted, found⟩
    · exact .inr ⟨refused, by simp only [answer] at same ⊢; rw [same]⟩

theorem OpenDatabase.file?_answer (call : StoreCall) (opened : OpenDatabase) :
    (answer call opened).2.file? = opened.file? := by
  rw [OpenDatabase.answer_eq]
  split <;> rfl

theorem OpenDatabase.insertMint_cases (mint : MintRecord) (opened : OpenDatabase) :
    InsertsOrStays mint opened := by
  unfold InsertsOrStays
  rw [OpenDatabase.answer_eq]
  split
  · exact .inr ⟨by rintro ⟨⟩, rfl⟩
  · rcases opened.db.insertMint_cases mint with ⟨inserted, found⟩ | ⟨refused, same⟩
    · exact .inl ⟨inserted, found⟩
    · exact .inr ⟨refused, by rw [same]⟩

theorem OpenDatabase.hasMint_iff {opened : OpenDatabase} {address : MintAddress}
    {mint : MintRecord} : HasMint opened address mint ↔ HasMint opened.db address mint := .rfl

/-! ## Open databases in files -/

/-- Whether an open database is what its file holds, if it has one. -/
def OpenDatabase.IsKept (opened : OpenDatabase) (fs : FileSystem) : Prop :=
  ∀ file ∈ opened.file?, fs.contentAt? file.place = some (.database opened.db)

/-- The places at which an open database changes files when it is kept. -/
def OpenDatabase.places (opened : OpenDatabase) : List Location :=
  opened.file?.elim [] fun file => [file.place, file.place.journal]

namespace FileSystem

variable {fs : FileSystem} {opened : OpenDatabase}

/-- A database that has just been opened is what its file holds. -/
theorem isKept_of_opened {name : DatabaseName} {now : Int} {before : FileSystem}
    (done : Opening.on (name.opened now) before = (some opened, fs)) : opened.IsKept fs := by
  cases named : name.file? with
  | some path =>
    obtain ⟨place, serves⟩ := OpenDatabase.exists_serves_of_opened named done
    obtain ⟨log, _, file⟩ := serves.file
    rintro _ found
    cases file.symm.trans found
    exact serves.content
  | none =>
    have opens : Opening.on name.openedAsIs before =
        (some { db := .empty, canWrite := name.canWrite }, before) := by
      rw [DatabaseName.openedAsIs, named]
      rfl
    obtain ⟨asIs, between, opens', migrates⟩ := Opening.opened_eq_some.mp done
    cases opens.symm.trans opens'
    -- without a file there is nothing to say
    rw [Opening.on_migrate] at migrates
    split at migrates
    · cases migrates
    split at migrates
    · cases migrates
      rintro _ ⟨⟩
    split at migrates
    · cases migrates
      rintro _ ⟨⟩
    · cases migrates

theorem keep_of_isKept (kept : opened.IsKept fs) : fs.keep opened = fs := by
  cases file : opened.file? with
  | none => simp only [keep, file]
  | some file' => exact keep_of_content file (kept file' file)

theorem keep_sameBut_places (fs : FileSystem) (opened : OpenDatabase) :
    (fs.keep opened).SameBut opened.places fs := by
  cases file : opened.file? with
  | none =>
    simp only [keep, file]
    exact .refl fs
  | some file' =>
    have places : opened.places = [file'.place, file'.place.journal] := by
      rw [OpenDatabase.places, file]
      rfl
    rw [places]
    exact keep_sameBut fs file

/-- Whether something is where a path leads is not for the files elsewhere to say. -/
theorem SameBut.hasPath {base : FileSystem} {places : List Location} {path : Bytes}
    {place : Location} (same : fs.SameBut places base) (leads : base.resolve? path = some place)
    (apart : ∀ other ∈ places, other.text ≠ place.text) : fs.hasPath path = base.holds place := by
  rw [FileSystem.hasPath, resolve?_congr same.current same.directories, leads, Option.any_some,
    same.holds apart]

/-- What an open database comes to is what its file holds once it is kept. -/
theorem isKept_keep {next : OpenDatabase} (kept : opened.IsKept fs)
    (same : next.file? = opened.file?) : next.IsKept (fs.keep next) := by
  intro file found
  refine contentAt?_keep found fun reads => ?_
  rw [kept file (same ▸ found)] at reads ⊢
  exact congrArg (some ∘ FileContent.database) (Option.some.inj reads)

theorem isKept_saveKeypair (kept : opened.IsKept fs) (path : String) (keypair : Keypair)
    (disk : Disk) : opened.IsKept (fs.saveKeypair path keypair disk).2 := fun file here =>
  contentAt?_saveKeypair disk (kept file here)

end FileSystem

namespace CommandLine

variable {α β : Type}

/-! ## Steps -/

theorem on_bind (step : CommandM α) (rest : α → CommandM β) (fs : FileSystem) :
    (step >>= rest).on fs = match step.on fs with
      | (.ok a, next) => (rest a).on next
      | (.error e, next) => (.error e, next) := by
  have unfolded : (step >>= rest).on fs =
      StateT.run (ExceptT.bindCont rest (step.on fs).1) (step.on fs).2 := rfl
  rw [unfolded]
  rcases step.on fs with ⟨e | a, next⟩ <;> rfl

theorem on_modify_bind (change : FileSystem → FileSystem) (steps : PUnit → CommandM α)
    (fs : FileSystem) : (modify change >>= steps).on fs = (steps ⟨⟩).on (change fs) := rfl

theorem on_runLedger (opened : OpenDatabase) (program : LedgerProgram α)
    (failed : Failure → CommandError) (fs : FileSystem) :
    (runLedger opened program failed).on fs =
      ((Program.run program.run opened).result.mapError failed,
        fs.keep (Program.run program.run opened).store) := by
  dsimp only [runLedger]
  rw [on_modify_bind]
  cases (Program.run program.run opened).result <;> rfl

/-- What submitting a new mint comes to, and the open database after it. -/
def submitMint (opened : OpenDatabase) (payer : Keypair) (mint : MintAddress) (decimals : UInt8) :
    Program.Finished OpenDatabase (Except Failure Outcome) :=
  Program.run (ledger.submit (.sign payer (.createMint mint decimals))).run opened

/-- The first effect: a mint is stored, or nothing has changed. -/
theorem submitMint_cases (opened : OpenDatabase) (payer : Keypair) (mint : MintAddress)
    (decimals : UInt8) :
    let submitted := submitMint opened payer mint decimals
    ((∃ outcome, submitted.result = .ok outcome) ∧
        HasMint submitted.store mint (.empty mint payer.principal decimals) ∧
        submitted.store.file? = opened.file?) ∨
      (∃ reason, submitted.result = .error reason) ∧ submitted.store = opened ∧
        (answer (.insertMint (.empty mint payer.principal decimals)) opened).1 ≠ .ok .inserted := by
  have checks : ledger.authenticator = .ed25519 := rfl
  have signed := Authenticator.authenticate_sign payer (.createMint mint decimals)
  rw [← checks] at signed
  have authentic := Ledger.submit_createMint signed rfl
  obtain ⟨store, result⟩ := Ledger.run_createMint mint decimals payer.principal opened
  obtain ⟨store', result'⟩ := LedgerProgram.run_bind_pure
    (Ledger.createMint mint decimals payer.principal) Outcome.mintCreated opened
  rw [← authentic, store] at store'
  rw [← authentic, result] at result'
  dsimp only [submitMint]
  rw [store', result']
  rcases opened.insertMint_cases (.empty mint payer.principal decimals) with
    ⟨inserted, found⟩ | ⟨refused, same⟩
  · rw [inserted]
    exact .inl ⟨⟨_, rfl⟩, found, OpenDatabase.file?_answer _ opened⟩
  · refine .inr ⟨?_, same, refused⟩
    clear same
    generalize (answer (.insertMint (.empty mint payer.principal decimals)) opened).1 = reply at *
    rcases reply with e | _ | _
    · exact ⟨_, rfl⟩
    · exact absurd rfl refused
    · exact ⟨_, rfl⟩

/-- The mint comes first, and then its key file. -/
theorem on_createMint (opened : OpenDatabase) (payer fresh : Keypair) (decimals : UInt8)
    (disk : Disk) (fs : FileSystem) :
    let mint : MintAddress := ⟨fresh.principal.raw⟩
    let submitted := submitMint opened payer mint decimals
    let saved := (fs.keep submitted.store).saveKeypair (mintKeyfile mint) fresh disk
    ∃ text, (createMint opened payer fresh decimals none disk).on fs =
      match submitted.result with
      | .error reason => (.error (.operation .createMint reason), fs.keep submitted.store)
      | .ok _ => ((saved.1.map fun _ => text).mapError .newKeypair, saved.2) := by
  intro mint submitted saved
  have steps : ∃ text, createMint opened payer fresh decimals none disk = (do
      let _ ← submit opened payer (.createMint mint decimals)
      saveKeypair (mintKeyfile mint) fresh .newKeypair disk
      return text) := ⟨_, by simp only [createMint, pure_bind]; rfl⟩
  obtain ⟨text, steps⟩ := steps
  have submits : (submit opened payer (.createMint mint decimals)).on fs =
      (submitted.result.mapError (.operation .createMint), fs.keep submitted.store) :=
    on_runLedger opened _ _ fs
  refine ⟨text, ?_⟩
  rw [steps, on_bind, submits]
  cases submitted.result with
  | error reason => rfl
  | ok outcome =>
    dsimp only [Except.mapError]
    rw [on_bind, on_saveKeypair]
    dsimp only [saved]
    rcases (fs.keep submitted.store).saveKeypair (mintKeyfile mint) fresh disk with
      ⟨_ | _, left⟩ <;> rfl

/-- Either nothing has changed, or the mint is kept before the key file is tried, and is not taken
    back. -/
theorem createMint_cases {opened : OpenDatabase} {fs : FileSystem} (kept : opened.IsKept fs)
    (payer fresh : Keypair) (decimals : UInt8) (disk : Disk) :
    let mint : MintAddress := ⟨fresh.principal.raw⟩
    let stored := (submitMint opened payer mint decimals).store
    let saved := (fs.keep stored).saveKeypair (mintKeyfile mint) fresh disk
    let ended := (createMint opened payer fresh decimals none disk).on fs
    ((∃ reason, ended = (.error (.operation .createMint reason), fs)) ∧ stored = opened ∧
        (answer (.insertMint (.empty mint payer.principal decimals)) opened).1 ≠ .ok .inserted) ∨
      HasMint stored mint (.empty mint payer.principal decimals) ∧
        stored.file? = opened.file? ∧ stored.IsKept saved.2 ∧
        (fs.keep stored).SameBut opened.places fs ∧
        ∃ text, ended = ((saved.1.map fun _ => text).mapError .newKeypair, saved.2) := by
  obtain ⟨text, ran⟩ := on_createMint opened payer fresh decimals disk fs
  have effect := submitMint_cases opened payer ⟨fresh.principal.raw⟩ decimals
  dsimp only at ran effect ⊢
  rw [ran]
  generalize submitMint opened payer ⟨fresh.principal.raw⟩ decimals = submitted at effect ⊢
  rcases effect with ⟨⟨outcome, done⟩, found, file⟩ | ⟨⟨reason, failed⟩, same, refused⟩
  -- the mint goes to the file of the database, which saving a keypair does not touch
  · have keeps := FileSystem.isKept_keep kept file
    have places := fs.keep_sameBut_places submitted.store
    rw [OpenDatabase.places, file] at places
    rw [done]
    exact .inr ⟨found, file, FileSystem.isKept_saveKeypair keeps _ _ _, places, text, rfl⟩
  · rw [failed, same, FileSystem.keep_of_isKept kept]
    exact .inl ⟨⟨reason, rfl⟩, rfl, refused⟩

section Unsaved

variable {opened : OpenDatabase} {fs : FileSystem} {payer fresh : Keypair} {decimals : UInt8}
  {keyfile : Location} {disk : Disk}

/-- Whether the files of an open database have a new mint in them. -/
def MintIsIn (opened : OpenDatabase) (fs : FileSystem) (mint : MintRecord) : Prop :=
  ∀ file ∈ opened.file?, ∃ db, fs.contentAt? file.place = some (.database db) ∧
    HasMint db mint.address mint

theorem createMint_of_taken (kept : opened.IsKept fs)
    (inserted : (answer (.insertMint (.empty ⟨fresh.principal.raw⟩ payer.principal decimals))
      opened).1 = .ok .inserted)
    (leads : fs.resolve? (Bytes.ofText (mintKeyfile ⟨fresh.principal.raw⟩)) = some keyfile)
    (apart : ∀ other ∈ opened.places, other.text ≠ keyfile.text) (taken : fs.holds keyfile) :
    let mint : MintAddress := ⟨fresh.principal.raw⟩
    let ended := (createMint opened payer fresh decimals none disk).on fs
    ended.1 = .error (.newKeypair (.fileExists (mintKeyfile mint))) ∧
      MintIsIn opened ended.2 (.empty mint payer.principal decimals) := by
  have cases := createMint_cases kept payer fresh decimals disk
  dsimp only at cases ⊢
  generalize (createMint opened payer fresh decimals none disk).on fs = ended at cases ⊢
  generalize (submitMint opened payer ⟨fresh.principal.raw⟩ decimals).store = stored at cases
  rcases cases with ⟨_, _, unwritten⟩ | ⟨found, file, stays, places, text, rfl⟩
  · exact absurd inserted unwritten
  -- no file of the database is at that path, so keeping it has not made the path free
  have occupied := (places.hasPath leads apart).trans taken
  rw [FileSystem.saveKeypair, if_pos occupied] at stays ⊢
  exact ⟨rfl, fun _ here => ⟨_, stays _ (file ▸ here), OpenDatabase.hasMint_iff.mp found⟩⟩

theorem createMint_of_cut (kept : opened.IsKept fs)
    (inserted : (answer (.insertMint (.empty ⟨fresh.principal.raw⟩ payer.principal decimals))
      opened).1 = .ok .inserted)
    (leads : fs.resolve? (Bytes.ofText (mintKeyfile ⟨fresh.principal.raw⟩)) = some keyfile)
    (apart : ∀ other ∈ opened.places, other.text ≠ keyfile.text)
    (free : fs.holds keyfile = false) (opens : disk.opens)
    (cut : disk.taken (Bytes.ofText fresh.fileText) ≠ Bytes.ofText fresh.fileText) :
    let mint : MintAddress := ⟨fresh.principal.raw⟩
    let ended := (createMint opened payer fresh decimals none disk).on fs
    ended.1 = .error (.newKeypair (.unwritable (mintKeyfile mint))) ∧
      ended.2.contentAt? keyfile = some (.plain (disk.taken (Bytes.ofText fresh.fileText))) ∧
      MintIsIn opened ended.2 (.empty mint payer.principal decimals) := by
  have cases := createMint_cases kept payer fresh decimals disk
  dsimp only at cases ⊢
  generalize (createMint opened payer fresh decimals none disk).on fs = ended at cases ⊢
  generalize (submitMint opened payer ⟨fresh.principal.raw⟩ decimals).store = stored at cases
  rcases cases with ⟨_, _, unwritten⟩ | ⟨found, file, stays, places, text, rfl⟩
  · exact absurd inserted unwritten
  have leads' := (FileSystem.resolve?_congr places.current places.directories _).trans leads
  have breaks :=
    FileSystem.saveKeypair_of_free leads' ((places.holds apart).trans free) fresh opens
  dsimp only at breaks
  rw [if_neg cut] at breaks
  rw [breaks] at stays ⊢
  exact ⟨rfl, (FileSystem.contentAt?_put _ _ _ _).trans (if_pos rfl),
    fun _ here => ⟨_, stays _ (file ▸ here), OpenDatabase.hasMint_iff.mp found⟩⟩

end Unsaved

end CommandLine

end TokenLedger
