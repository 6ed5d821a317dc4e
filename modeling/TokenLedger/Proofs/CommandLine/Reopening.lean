import TokenLedger.Proofs.CommandLine.Opening
import TokenLedger.Proofs.Store.Rows

/-! # Opening a database again

A database is opened from its file, changes as its store is called, and goes to the file
after each call.  It makes no difference whether it is closed in between and the file
opened again.  What an open database and the files must be like for that is the invariant
`OpenDatabase.Serves`.  The first opening brings it about, migration included
(`exists_serves_of_opened`), calls keep it (`Serves.call`), and where it holds the file
can be opened again, whereby it holds of the same database (`Serves.exists_reopened`).

The version on record is why a migration has nothing to do then, and no call changes it.
Where a path leads might change with the files that are there, but once a database is
open, no file is made where there has been none.

A migration looks for the version on record and for names that are taken, and trusts
whatever else it finds.  So there are databases in which its work is undone before it is
done, and a version may change while nobody looks (`reopening_noticed`).
-/

namespace TokenLedger

open RecordStore

/-! ## Names and contents -/

/-- The name by which a file is opened again at a path, to be used in the same way.  It asks for
    no model, which is for files that are made. -/
def DatabaseName.again (name : DatabaseName) (path : Bytes) : DatabaseName :=
  { name with file? := some path, model? := none }

theorem FileContent.database?_cases {content : FileContent} {db : Database}
    (reads : content.database? = some db) : content = .database db ∨ db = .empty := by
  cases content with
  | database stored =>
    cases reads
    exact .inl rfl
  | plain bytes =>
    simp only [database?, Option.ite_none_right_eq_some] at reads
    exact .inr (Option.some.inj reads.2).symm

theorem Database.recordedVersion?_answer (call : StoreCall) (db : Database) :
    (answer call db).2.recordedVersion? = db.recordedVersion? := by
  obtain ⟨tables, others, triggers⟩ := db
  cases tables <;> rfl

/-! ## Open databases -/

namespace OpenDatabase

variable {opened : OpenDatabase} {name : DatabaseName} {place : Location} {fs : FileSystem}
  {path : Bytes}

theorem answer_eq (opened : OpenDatabase) (call : StoreCall) :
    answer call opened =
      if call.writes && !opened.canWrite then (.error (.database .readOnly), opened)
      else ((answer call opened.db).1, { opened with db := (answer call opened.db).2 }) := rfl

theorem answer_of_canWrite (writable : opened.canWrite) (call : StoreCall) :
    (answer call opened).2 = { opened with db := (answer call opened.db).2 } := by
  rw [answer_eq, if_neg (by simp [writable])]

theorem answer_of_readOnly (readOnly : opened.canWrite = false) (call : StoreCall) :
    (answer call opened).2 = opened := by
  rw [answer_eq]
  split
  · rfl
  next reads =>
    rw [Database.answer_of_not_writes (by simpa [readOnly] using reads)]

theorem recordedVersion?_answer (call : StoreCall) (opened : OpenDatabase) :
    (answer call opened).2.db.recordedVersion? = opened.db.recordedVersion? := by
  rw [answer_eq]
  split
  · rfl
  · exact Database.recordedVersion?_answer call opened.db

/-- What is answered, and the database after it, are a matter of the database and of whether
    it may be changed. -/
theorem answer_congr {other : OpenDatabase} (db : opened.db = other.db)
    (canWrite : opened.canWrite = other.canWrite) (call : StoreCall) :
    (answer call opened).1 = (answer call other).1 ∧
      (answer call opened).2.db = (answer call other).2.db := by
  rw [answer_eq, answer_eq, db, canWrite]
  split
  · exact ⟨rfl, db⟩
  · exact ⟨rfl, rfl⟩

/-- Whether an open database is that of the file at a place, and is so again when the file is
    opened again. -/
structure Serves (opened : OpenDatabase) (name : DatabaseName) (place : Location)
    (fs : FileSystem) : Prop where
  inside : place ≠ []
  canWrite : opened.canWrite = name.canWrite
  file : ∃ log, log ⊆ [place.log, place.logIndex] ∧ opened.file? = some ⟨place, log⟩
  content : fs.contentAt? place = some (.database opened.db)
  companions : name.isFrozen = false →
    Opening.Settled (name.found place false) (fs.close opened)

/-- A database that may be changed is kept, be it in a file that was blank. -/
theorem serves_keep {log : List Location} (inside : place ≠ [])
    (canWrite : opened.canWrite = name.canWrite) (writable : opened.canWrite)
    (members : log ⊆ [place.log, place.logIndex]) (file : opened.file? = some ⟨place, log⟩)
    (used : (fs.contentAt? place).bind (·.database?) = some opened.db →
      fs.contentAt? place = some (.database opened.db))
    (companions : name.isFrozen = false →
      Opening.Settled (name.found place false) (fs.removeAll log)) :
    opened.Serves name place (fs.keep opened) := by
  refine ⟨inside, canWrite, ⟨log, members, file⟩, FileSystem.contentAt?_keep file used,
    fun moves => ?_⟩
  rw [FileSystem.close, file]
  exact (companions moves).of_sameBut inside (canWrite.symm.trans writable)
    ((FileSystem.keep_sameBut fs file).removeAll_congr log)

/-- A database that is up to date in its file is as it should be once the companions of the file
    have been dealt with. -/
theorem serves_of_companionsOf {db : Database} {log : List Location} {next : FileSystem}
    (inside : place ≠ []) (there : fs.contentAt? place = some (.database db))
    (clears : (Opening.companionsOf name (name.found place false)).on fs = (some log, next)) :
    Serves { db, file? := some ⟨place, log⟩, canWrite := name.canWrite } name place next := by
  obtain ⟨members, same, settled⟩ := Opening.companionsOf_eq_some inside (by simp) clears
  have apart := @Location.besides_apart_self place inside ["-journal", "-wal", "-shm"] (by decide)
  have stays : next.contentAt? place = some (.database db) := by
    rw [same.contents place apart, there]
  exact ⟨inside, rfl, ⟨log, members, rfl⟩, stays, settled⟩

theorem exists_serves_of_opened (named : name.file? = some path) {now : Int}
    {before : FileSystem} (done : Opening.on (name.opened now) before = (some opened, fs)) :
    ∃ place, opened.Serves name place fs := by
  obtain ⟨asIs, between, opens, migrates⟩ := Opening.opened_eq_some.mp done
  simp only [DatabaseName.openedAsIs, named] at opens
  obtain ⟨place, content, log, found, inside, there, clears, reads, asIs_eq⟩ :=
    Opening.openFile_eq_some opens
  generalize asIs.db = db at reads asIs_eq
  subst asIs_eq
  rw [Opening.on_migrate] at migrates
  split at migrates
  · cases migrates
  next version next migrated =>
  obtain ⟨recorded, ⟨latest, _⟩ | ⟨older, free, _⟩⟩ := Database.migrate_eq_ok migrated
  · rw [if_pos latest] at migrates
    cases migrates
    -- a blank file has no version on record
    have used : content = .database db := by
      rcases FileContent.database?_cases reads with used | rfl
      · exact used
      · cases recorded.trans (congrArg (some ∘ Nat.cast) latest)
    subst used
    exact ⟨place, serves_of_companionsOf inside there clears⟩
  · rw [if_neg (Nat.ne_of_lt older)] at migrates
    split at migrates
    next may =>
      cases migrates
      obtain ⟨members, same, settled⟩ :=
        Opening.companionsOf_eq_some inside (fun _ => may.1) clears
      have apart := @Location.besides_apart_self place inside ["-journal", "-wal", "-shm"]
        (by decide)
      refine ⟨place, serves_keep inside rfl may.1 members rfl ?_ settled⟩
      rw [same.contents place apart, there]
      -- the migrated database has tables, and the file has been read as one without them
      intro kept
      have same : db = next := Option.some.inj (reads.symm.trans kept)
      rw [same, Database.tables_of_migrate migrated older] at free
      cases free
    · cases migrates

namespace Serves

theorem contentAt?_close (serves : opened.Serves name place fs) :
    (fs.close opened).contentAt? place = some (.database opened.db) := by
  obtain ⟨log, members, file⟩ := serves.file
  have apart := @Location.besides_apart_self place serves.inside ["-wal", "-shm"] (by decide)
  rw [FileSystem.close, file, ← serves.content]
  exact (FileSystem.SameBut.removeAll fs members).contents place apart

/-- The step lemma for calls. -/
theorem call (serves : opened.Serves name place fs) (call : StoreCall) :
    (answer call opened).2.Serves name place (fs.keep (answer call opened).2) ∧
      (fs.keep (answer call opened).2).Within fs := by
  obtain ⟨log, members, file⟩ := serves.file
  cases writable : opened.canWrite with
  | false =>
    rw [answer_of_readOnly writable, FileSystem.keep_of_content file serves.content]
    exact ⟨serves, .refl fs⟩
  | true =>
    rw [answer_of_canWrite writable]
    have companions := serves.companions
    rw [FileSystem.close, file] at companions
    refine ⟨serves_keep serves.inside serves.canWrite writable members file ?_
      companions, FileSystem.keep_within serves.inside file ?_⟩
    · rw [serves.content]
      exact fun kept => congrArg (some ∘ FileContent.database) (Option.some.inj kept)
    · rw [serves.content]
      rfl

/-- The step lemma for closing the database and opening its file again. -/
theorem exists_reopened (serves : opened.Serves name place fs)
    (recorded : opened.db.recordedVersion? = some (Database.supportedVersion : Int))
    (leads : (fs.close opened).databasePlace? path = some place) (now : Int) :
    ∃ reopened next,
      Opening.on ((name.again path).opened now) (fs.close opened) = (some reopened, next) ∧
      reopened.Serves name place next ∧ reopened.db = opened.db ∧ next.Within fs := by
  obtain ⟨log, next, clears, within⟩ :=
    Opening.exists_companionsOf serves.inside serves.companions
  have closes : (fs.close opened).Within fs := .removeAll fs _
  have opens := @Opening.on_openFile _ _ _ _ (name.again path) path opened.db rfl leads
    serves.contentAt?_close clears
  refine ⟨{ db := opened.db, file? := some ⟨place, log⟩, canWrite := name.canWrite }, next,
    Opening.opened_eq_some.mpr ⟨_, next, opens, ?_⟩,
    serves_of_companionsOf serves.inside serves.contentAt?_close clears, rfl,
    within.trans closes⟩
  refine Opening.on_migrate_of_upToDate ?_ now next
  exact Database.upToDate_of_recordedVersion recorded

end Serves

end OpenDatabase

/-! ## Sessions -/

/-- What is done with an open database. -/
inductive Use where
  | call (call : StoreCall)
  | reopen (path : Bytes) (now : Int)

/-- Whether the store is called. -/
def Use.isCall : Use → Bool
  | call _ => true
  | reopen .. => false

/-- An open database among files. -/
structure Session where
  fs : FileSystem
  opened : OpenDatabase

namespace Session

variable {name : DatabaseName} {place : Location} {base : FileSystem}

/-- What a use is answered, and the session after it.  The database goes to its file after each
    call. -/
def use? (name : DatabaseName) (session : Session) :
    Use → Option (List ((call : StoreCall) × call.Reply) × Session)
  | .call call =>
    let (reply, opened) := answer call session.opened
    some ([⟨call, reply⟩], ⟨session.fs.keep opened, opened⟩)
  | .reopen path now =>
    match Opening.on ((name.again path).opened now) (session.fs.close session.opened) with
    | (some opened, fs) => some ([], ⟨fs, opened⟩)
    | (none, _) => none

/-- What all calls are answered when a session is used. -/
def run? (name : DatabaseName) (session : Session) :
    List Use → Option (List ((call : StoreCall) × call.Reply) × Session)
  | [] => some ([], session)
  | use :: rest => do
    let (first, next) ← session.use? name use
    let (others, last) ← next.run? name rest
    return (first ++ others, last)

theorem use?_call (session : Session) (call : StoreCall) :
    session.use? name (.call call) =
      some ([⟨call, (answer call session.opened).1⟩],
        ⟨session.fs.keep (answer call session.opened).2, (answer call session.opened).2⟩) := rfl

theorem run?_cons {session next last : Session} {use : Use} {rest : List Use}
    {first others : List ((call : StoreCall) × call.Reply)}
    (used : session.use? name use = some (first, next))
    (ran : next.run? name rest = some (others, last)) :
    session.run? name (use :: rest) = some (first ++ others, last) := by
  rw [run?, used]
  simp only [Option.bind_eq_bind, Option.bind_some, ran]
  rfl

/-- Whether two sessions are of the same database, at one place, which has the supported version on
    record. -/
structure Alike (name : DatabaseName) (place : Location) (base : FileSystem) (a b : Session) :
    Prop where
  first : a.opened.Serves name place a.fs
  second : b.opened.Serves name place b.fs
  db : a.opened.db = b.opened.db
  recorded : a.opened.db.recordedVersion? = some (Database.supportedVersion : Int)
  within : a.fs.Within base

theorem Alike.call {a b : Session} (alike : Alike name place base a b) (call : StoreCall) :
    ∃ answers next other, a.use? name (.call call) = some (answers, next) ∧
      b.use? name (.call call) = some (answers, other) ∧ Alike name place base next other := by
  have canWrite := alike.first.canWrite.trans alike.second.canWrite.symm
  obtain ⟨reply, db⟩ := OpenDatabase.answer_congr alike.db canWrite call
  obtain ⟨first, within⟩ := alike.first.call call
  have recorded := OpenDatabase.recordedVersion?_answer call a.opened
  exact ⟨_, _, _, use?_call a call, (use?_call b call).trans (by rw [reply]),
    ⟨first, (alike.second.call call).1, db, recorded.trans alike.recorded,
      within.trans alike.within⟩⟩

theorem Alike.reopen {a b : Session} (alike : Alike name place base a b)
    {path : Bytes} (leads : base.databasePlace? path = some place) (now : Int) :
    ∃ next, a.use? name (.reopen path now) = some ([], next) ∧ Alike name place base next b := by
  have closes : (a.fs.close a.opened).Within base :=
    .trans (.removeAll a.fs _) alike.within
  obtain ⟨reopened, next, opens, serves, db, within⟩ :=
    alike.first.exists_reopened alike.recorded (closes.databasePlace? leads) now
  refine ⟨⟨next, reopened⟩, by simp only [use?, opens], ?_⟩
  exact ⟨serves, alike.second, db.trans alike.db, db ▸ alike.recorded,
    within.trans alike.within⟩

/-- The run lemma. -/
theorem Alike.run {a b : Session} (alike : Alike name place base a b) {uses : List Use}
    (leads : ∀ path now, .reopen path now ∈ uses → base.databasePlace? path = some place) :
    ∃ answers next other, a.run? name uses = some (answers, next) ∧
      b.run? name (uses.filter (·.isCall)) = some (answers, other) ∧
      Alike name place base next other := by
  induction uses generalizing a b with
  | nil => exact ⟨[], a, b, rfl, rfl, alike⟩
  | cons use rest ih =>
    have leads' := fun path now member => leads path now (List.mem_cons_of_mem _ member)
    cases use with
    | call call =>
      obtain ⟨first, a', b', used, used', alike'⟩ := alike.call call
      obtain ⟨others, next, other, ran, ran', last⟩ := ih alike' leads'
      refine ⟨first ++ others, next, other, run?_cons used ran, ?_, last⟩
      rw [List.filter_cons_of_pos rfl]
      exact run?_cons used' ran'
    -- the second session goes on as it is
    | reopen path now =>
      obtain ⟨a', used, alike'⟩ := alike.reopen (leads path now List.mem_cons_self) now
      obtain ⟨others, next, other, ran, ran', last⟩ := ih alike' leads'
      refine ⟨others, next, other, run?_cons used ran, ?_, last⟩
      rw [List.filter_cons_of_neg (by simp [Use.isCall])]
      exact ran'

end Session

end TokenLedger
