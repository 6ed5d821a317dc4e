import TokenLedger.CommandLine.Run
import TokenLedger.Proofs.CommandLine.Files
import TokenLedger.Proofs.Json.Forms

/-! # Keypair files

A keypair is saved only where nothing is, and is loaded again from where it has been saved
(`saveKeypair_eq_ok_iff`, `loadKeypair_of_saveKeypair`).  A file is loaded just if its text
spells a record of the two fields, the one being the secret seed in hex and the other the
public key that goes with it (`loadKeypair_eq_ok_iff`).  For that the grammar of the text,
the fields of the record and the digits of the seed are put together, each of which has
been settled for itself.
-/

namespace TokenLedger

theorem Bytes32.ofBytes?_eq_some_iff {bytes : Bytes} {value : Bytes32} :
    ofBytes? bytes = some value ↔ value.toBytes = bytes := by
  refine ⟨toBytes_of_ofBytes?, ?_⟩
  rintro rfl
  exact ofBytes?_toBytes value

/-! ## Texts of the file -/

namespace Keypair

variable {text publicKey seed path : String} {keypair : Keypair}

theorem text?_eq_some_iff {value : Json.Value} : value.text? = some text ↔ value = .text text := by
  cases value with
  | string content => cases content <;> simp [Json.Value.text?, Json.Value.text]
  | _ => simp [Json.Value.text?, Json.Value.text]

/-- Both fields are read off a text just if it spells a record of them. -/
theorem fileParts?_eq_some_iff : fileParts? text = some (publicKey, seed) ↔
    ∃ value, Json.Spells text value ∧
      Json.IsRecord ["public_key", "secret_seed"] value [.text publicKey, .text seed] := by
  simp only [fileParts?, Option.bind_eq_bind, Option.bind_eq_some_iff, Json.ofText?_eq_some_iff,
    Json.fields?_eq_some_iff]
  constructor
  · rintro ⟨value, spelled, values, record, read⟩
    split at read
    next first second =>
      simp only [Option.bind_eq_some_iff, text?_eq_some_iff] at read
      obtain ⟨_, rfl, _, rfl, same⟩ := read
      cases same
      exact ⟨value, spelled, record⟩
    · cases read
  · rintro ⟨value, spelled, record⟩
    exact ⟨value, spelled, _, record, rfl⟩

/-- The text of a keypair's file holds the keypair. -/
theorem fileParts?_fileText (keypair : Keypair) :
    fileParts? keypair.fileText = some (keypair.principal.raw.hex, keypair.seed.hex) := by
  have fields := @Json.fields?_record fileFields
    [.text keypair.principal.raw.hex, .text keypair.seed.hex] (by decide) rfl
  simp only [fileParts?, fileText, Json.ofText?_pretty, fields, Option.bind_eq_bind,
    Option.bind_some]
  rfl

/-- A text is read as a keypair just if the secret seed in it is that of the keypair, in digits
    of either case, and the public key the one that goes with it. -/
theorem ofFileText_eq_ok_iff : ofFileText path text = .ok keypair ↔
    ∃ seed, fileParts? text = some (keypair.principal.raw.hex, seed) ∧
      seed.toLower = keypair.seed.hex := by
  constructor
  · intro read
    rw [ofFileText] at read
    split at read
    · cases read
    next publicKey seed parts =>
      split at read
      · cases read
      next bytes decoded =>
        split at read
        · cases read
        next value whole =>
          dsimp only at read
          split at read
          next same =>
            -- the key in the file is compared with that of the seed, so the seed settles both
            cases read
            rw [← same] at parts
            rw [Hex.decode_eq_ok_iff, ← Bytes32.ofBytes?_eq_some_iff.mp whole] at decoded
            exact ⟨seed, parts, decoded⟩
          · cases read
  · rintro ⟨seed, parts, lower⟩
    have decoded : Hex.decode seed = .ok keypair.seed.toBytes := Hex.decode_eq_ok_iff.mpr lower
    simp only [ofFileText, parts, decoded, Bytes32.ofBytes?_toBytes]
    exact if_pos trivial

end Keypair

theorem Disk.taken_prefix (disk : Disk) (bytes : Bytes) : disk.taken bytes <+: bytes := by
  obtain ⟨opens, _ | room⟩ := disk
  · exact List.prefix_rfl
  · exact List.take_prefix room bytes

namespace FileSystem

variable {fs saved base : FileSystem} {place : Location} {path text : String} {keypair : Keypair}

/-! ## Saving and loading -/

/-- Files are in the way of no path. -/
theorem resolve?_congr (current : fs.current = base.current)
    (directories : fs.directories = base.directories) (path : Bytes) :
    fs.resolve? path = base.resolve? path := by
  have step : fs.step? = base.step? := by
    funext place step
    rw [step?, step?, isDirectory, isDirectory, directories]
  rw [resolve?, resolve?, current, step]

theorem resolve?_put (fs : FileSystem) (place : Location) (content : FileContent) (path : Bytes) :
    (fs.put place content).resolve? path = fs.resolve? path := resolve?_congr rfl rfl path

theorem readText?_eq_some_iff : fs.readText? path = some text ↔
    fs.content? path = some (.plain (Bytes.ofText text)) := by
  rw [readText?]
  constructor
  · intro read
    split at read
    next bytes there => rw [there, Bytes.ofText_of_toText? read]
    · cases read
  · intro there
    rw [there]
    exact Bytes.toText?_ofText text

/-- Whether files are what a write that breaks off leaves: nothing has changed, or there is a new
    file with no more than the beginning of the text. -/
def BrokenOff (base : FileSystem) (path text : String) (fs : FileSystem) : Prop :=
  fs = base ∨ ∃ place written, base.resolve? (Bytes.ofText path) = some place ∧
    base.holds place = false ∧ written <+: Bytes.ofText text ∧ written ≠ Bytes.ofText text ∧
    fs = base.put place (.plain written)

theorem writeText_cases (fs : FileSystem) (path text : String) (disk : Disk) :
    fs.writeText path text disk = (false, fs) ∨
      ∃ place written, fs.resolve? (Bytes.ofText path) = some place ∧
        written <+: Bytes.ofText text ∧ fs.writeText path text disk =
          (decide (written = Bytes.ofText text), fs.put place (.plain written)) := by
  rw [writeText]
  cases fs.resolve? (Bytes.ofText path) with
  | none => exact .inl rfl
  | some place =>
    dsimp only
    split
    · exact .inl rfl
    · exact .inr ⟨place, _, rfl, disk.taken_prefix _, rfl⟩

/-- All that saving a keypair can come to. -/
theorem saveKeypair_cases (fs : FileSystem) (path : String) (keypair : Keypair) (disk : Disk) :
    fs.saveKeypair path keypair disk = (.error (.fileExists path), fs) ∨
      (∃ left, fs.saveKeypair path keypair disk = (.error (.unwritable path), left) ∧
        fs.BrokenOff path keypair.fileText left) ∨
      ∃ place, fs.resolve? (Bytes.ofText path) = some place ∧ fs.holds place = false ∧
        fs.saveKeypair path keypair disk =
          (.ok (), fs.put place (.plain (Bytes.ofText keypair.fileText))) := by
  rw [saveKeypair]
  cases there : fs.hasPath (Bytes.ofText path) with
  | true => exact .inl rfl
  | false =>
    rw [if_neg Bool.false_ne_true]
    rcases fs.writeText_cases path keypair.fileText disk with
      fails | ⟨place, written, leads, shorter, done⟩
    · rw [fails]
      exact .inr (.inl ⟨fs, rfl, .inl rfl⟩)
    -- nothing has been found at the end of the path, so what is written is a new file
    · rw [hasPath, leads, Option.any_some] at there
      rw [done]
      by_cases whole : written = Bytes.ofText keypair.fileText
      · rw [decide_eq_true whole, whole]
        exact .inr (.inr ⟨place, leads, there, rfl⟩)
      · rw [decide_eq_false whole]
        exact .inr (.inl ⟨_, rfl, .inr ⟨place, written, leads, there, shorter, whole, rfl⟩⟩)

theorem saveKeypair_eq_ok {disk : Disk}
    (saves : fs.saveKeypair path keypair disk = (.ok (), saved)) :
    ∃ place, fs.resolve? (Bytes.ofText path) = some place ∧ fs.holds place = false ∧
      saved = fs.put place (.plain (Bytes.ofText keypair.fileText)) := by
  rcases fs.saveKeypair_cases path keypair disk with
    fails | ⟨_, fails, _⟩ | ⟨place, leads, free, done⟩
  · cases saves.symm.trans fails
  · cases saves.symm.trans fails
  · cases saves.symm.trans done
    exact ⟨place, leads, free, rfl⟩

/-- Where there is nothing at the end of the path, and a file can be opened there, it is for the
    disk how much is written. -/
theorem saveKeypair_of_free (leads : fs.resolve? (Bytes.ofText path) = some place)
    (free : fs.holds place = false) (keypair : Keypair) {disk : Disk} (opens : disk.opens) :
    let text := Bytes.ofText keypair.fileText
    fs.saveKeypair path keypair disk =
      (if disk.taken text = text then .ok () else .error (.unwritable path),
        fs.put place (.plain (disk.taken text))) := by
  intro text
  have file : fs.isDirectory place = false := (Bool.or_eq_false_iff.mp free).1
  by_cases whole : disk.taken text = text <;>
    simp [saveKeypair, hasPath, writeText, leads, free, file, opens, text, whole]

theorem loadKeypair_eq_ok_iff : fs.loadKeypair path = .ok keypair ↔
    ∃ text value seed, fs.content? path = some (.plain (Bytes.ofText text)) ∧
      Json.Spells text value ∧ Json.IsRecord ["public_key", "secret_seed"] value
        [.text keypair.principal.raw.hex, .text seed] ∧ seed.toLower = keypair.seed.hex := by
  have loads : fs.loadKeypair path = .ok keypair ↔
      ∃ text, fs.readText? path = some text ∧ Keypair.ofFileText path text = .ok keypair := by
    rw [loadKeypair]
    cases fs.readText? path <;> simp
  simp only [loads, readText?_eq_some_iff, Keypair.ofFileText_eq_ok_iff,
    Keypair.fileParts?_eq_some_iff]
  constructor
  · rintro ⟨text, there, seed, ⟨value, spelled, record⟩, lower⟩
    exact ⟨text, value, seed, there, spelled, record, lower⟩
  · rintro ⟨text, value, seed, there, spelled, record, lower⟩
    exact ⟨text, there, seed, ⟨value, spelled, record⟩, lower⟩

theorem loadKeypair_of_saveKeypair {disk : Disk}
    (saves : fs.saveKeypair path keypair disk = (.ok (), saved)) :
    saved.loadKeypair path = .ok keypair := by
  obtain ⟨place, leads, _, rfl⟩ := saveKeypair_eq_ok saves
  have there : (fs.put place (.plain (Bytes.ofText keypair.fileText))).content? path =
      some (.plain (Bytes.ofText keypair.fileText)) := by
    rw [content?, resolve?_put, leads, Option.bind_some, contentAt?_put, if_pos rfl]
  have lower : keypair.seed.hex.toLower = keypair.seed.hex :=
    Hex.decode_eq_ok_iff.mp (Hex.decode_encode keypair.seed.toBytes)
  rw [loadKeypair, readText?_eq_some_iff.mpr there]
  exact Keypair.ofFileText_eq_ok_iff.mpr ⟨_, Keypair.fileParts?_fileText keypair, lower⟩

/-- A new file is in the place of none that is there already. -/
theorem contentAt?_put_of_free {other : Location} {content added : FileContent}
    (free : fs.holds other = false) (there : fs.contentAt? place = some content) :
    (fs.put other added).contentAt? place = some content := by
  have missing : fs.contentAt? other = none := by
    simpa using (Bool.or_eq_false_iff.mp free).2
  rw [contentAt?_put, if_neg, there]
  intro same
  rw [contentAt?, same] at missing
  cases missing.symm.trans there

/-- What is there already is not touched. -/
theorem contentAt?_saveKeypair (disk : Disk) {content : FileContent}
    (there : fs.contentAt? place = some content) :
    (fs.saveKeypair path keypair disk).2.contentAt? place = some content := by
  rcases fs.saveKeypair_cases path keypair disk with
    same | ⟨left, done, rfl | ⟨_, _, _, free, _, _, rfl⟩⟩ | ⟨_, _, free, done⟩
  · rwa [same]
  · rwa [done]
  · rw [done]
    exact contentAt?_put_of_free free there
  · rw [done]
    exact contentAt?_put_of_free free there

end FileSystem

/-! ## Steps of commands -/

namespace CommandLine

/-- What a step of a command comes to, and the files after it. -/
def CommandM.on {α : Type} (step : CommandM α) (fs : FileSystem) :
    Except CommandError α × FileSystem :=
  StateT.run step.run fs

theorem on_get_bind {α : Type} (steps : FileSystem → CommandM α) (fs : FileSystem) :
    CommandM.on (get >>= steps) fs = (steps fs).on fs := rfl

theorem on_saveKeypair (fs : FileSystem) (path : String) (keypair : Keypair)
    (failed : KeyfileError → CommandError) (disk : Disk) :
    (saveKeypair path keypair failed disk).on fs =
      ((fs.saveKeypair path keypair disk).1.mapError failed,
        (fs.saveKeypair path keypair disk).2) := by
  rw [saveKeypair, on_get_bind]
  rcases fs.saveKeypair path keypair disk with ⟨_ | _, saved⟩ <;> rfl

theorem on_loadKeypair (fs : FileSystem) (path : String) (failed : KeyfileError → CommandError) :
    (loadKeypair path failed).on fs = ((fs.loadKeypair path).mapError failed, fs) := by
  rw [loadKeypair, on_get_bind]
  cases fs.loadKeypair path <;> rfl

/-- A keypair is saved where there is nothing yet, unless the disk fails, and one that has been
    saved is loaded again.  Whatever the disk does, no file is written over for it: where
    something is, saving fails and leaves all files as they are, as it does where no file can
    be.  A keypair is loaded from the files that hold a record of its public key and its secret
    seed, the digits of the seed being of either case, and from no others. -/
theorem keypairFile_faithful (fs : FileSystem) (path : String)
    (failed : KeyfileError → CommandError) (keypair : Keypair) :
    (fs.hasPath (Bytes.ofText path) = false → fs.resolve? (Bytes.ofText path) ≠ none →
      ∃ saved, (saveKeypair path keypair failed).on fs = (.ok (), saved) ∧
        (loadKeypair path failed).on saved = (.ok keypair, saved) ∧
        ∀ place content, fs.contentAt? place = some content →
          saved.contentAt? place = some content) ∧
    (∀ disk saved, (saveKeypair path keypair failed disk).on fs = (.ok (), saved) →
      (loadKeypair path failed).on saved = (.ok keypair, saved)) ∧
    (∀ disk place content, fs.contentAt? place = some content →
      ((saveKeypair path keypair failed disk).on fs).2.contentAt? place = some content) ∧
    (fs.hasPath (Bytes.ofText path) = true → ∀ disk,
      (saveKeypair path keypair failed disk).on fs = (.error (failed (.fileExists path)), fs)) ∧
    (fs.resolve? (Bytes.ofText path) = none → ∀ disk,
      (saveKeypair path keypair failed disk).on fs = (.error (failed (.unwritable path)), fs)) ∧
    ((loadKeypair path failed).on fs = (.ok keypair, fs) ↔
      ∃ text value seed, fs.content? path = some (.plain (Bytes.ofText text)) ∧
        Json.Spells text value ∧ Json.IsRecord ["public_key", "secret_seed"] value
          [.text keypair.principal.raw.hex, .text seed] ∧ seed.toLower = keypair.seed.hex) := by
  have loads : ∀ disk saved, (saveKeypair path keypair failed disk).on fs = (.ok (), saved) →
      (loadKeypair path failed).on saved = (.ok keypair, saved) := by
    intro disk saved saves
    rw [on_saveKeypair] at saves
    have saved_eq : (fs.saveKeypair path keypair disk).2 = saved := congrArg Prod.snd saves
    have succeeds := mapError_eq_ok_iff.mp (congrArg Prod.fst saves)
    rw [on_loadKeypair, FileSystem.loadKeypair_of_saveKeypair (Prod.ext succeeds saved_eq)]
    rfl
  refine ⟨fun free leads => ?_, loads, fun disk place content there => ?_, fun there disk => ?_,
    fun missing disk => ?_, ?_⟩
  · obtain ⟨place, leads⟩ := Option.ne_none_iff_exists'.mp leads
    rw [FileSystem.hasPath, leads, Option.any_some] at free
    have taken : Disk.taken {} (Bytes.ofText keypair.fileText) = Bytes.ofText keypair.fileText :=
      rfl
    have saves := FileSystem.saveKeypair_of_free leads free keypair (@rfl _ ({} : Disk).opens)
    dsimp only at saves
    rw [taken, if_pos rfl] at saves
    have done := on_saveKeypair fs path keypair failed {}
    rw [saves] at done
    exact ⟨_, done, loads {} _ done,
      fun other content there => FileSystem.contentAt?_put_of_free free there⟩
  · rw [on_saveKeypair]
    exact FileSystem.contentAt?_saveKeypair disk there
  · rw [on_saveKeypair, FileSystem.saveKeypair, if_pos there]
    rfl
  · have free : ¬fs.hasPath (Bytes.ofText path) = true := by
      rw [FileSystem.hasPath, missing]
      exact Bool.false_ne_true
    rw [on_saveKeypair, FileSystem.saveKeypair, if_neg free, FileSystem.writeText, missing]
    rfl
  · rw [on_loadKeypair, ← FileSystem.loadKeypair_eq_ok_iff]
    cases fs.loadKeypair path <;> simp [Except.mapError]

/-- A directory with one file in it: at the path of the file, at a path beside it, and at one
    that leads nowhere. -/
theorem keypairFile_faithful_directory :
    let place : Location := [Bytes.ofText "payer.json", Bytes.ofText "keys"]
    let fs := (FileSystem.ofCurrent [Bytes.ofText "keys"]).put place (.plain [])
    let keypair : Keypair := ⟨.replicate 7⟩
    (fs.hasPath (Bytes.ofText "./payer.json") = true ∧
      (saveKeypair "./payer.json" keypair .keygen).on fs =
        (.error (.keygen (.fileExists "./payer.json")), fs)) ∧
    (fs.hasPath (Bytes.ofText "alice.json") = false ∧
      fs.resolve? (Bytes.ofText "alice.json") ≠ none ∧
      ∃ saved, (saveKeypair "alice.json" keypair .keygen).on fs = (.ok (), saved) ∧
        (loadKeypair "alice.json" .keygen).on saved = (.ok keypair, saved)) ∧
    fs.resolve? (Bytes.ofText "../none/alice.json") = none ∧
      (saveKeypair "../none/alice.json" keypair .keygen).on fs =
        (.error (.keygen (.unwritable "../none/alice.json")), fs) := by
  intro place fs keypair
  have there : fs.hasPath (Bytes.ofText "./payer.json") = true := by decide +kernel
  have free : fs.hasPath (Bytes.ofText "alice.json") = false := by decide +kernel
  have leads : fs.resolve? (Bytes.ofText "alice.json") ≠ none := by decide +kernel
  have missing : fs.resolve? (Bytes.ofText "../none/alice.json") = none := by decide +kernel
  obtain ⟨saved, saves, loads, _⟩ :=
    (keypairFile_faithful fs "alice.json" .keygen keypair).1 free leads
  obtain ⟨_, _, refuses, _⟩ := (keypairFile_faithful fs "./payer.json" .keygen keypair).2
  obtain ⟨_, _, _, fails, _⟩ := (keypairFile_faithful fs "../none/alice.json" .keygen keypair).2
  exact ⟨⟨there, refuses there {}⟩, ⟨free, leads, saved, saves, loads⟩, missing,
    fails missing {}⟩

end CommandLine

end TokenLedger
