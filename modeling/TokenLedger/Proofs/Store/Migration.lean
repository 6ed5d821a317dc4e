import Mathlib.Data.Rat.Cast.Order
import TokenLedger.Proofs.Except
import TokenLedger.Proofs.Store.Index
import TokenLedger.Store.Database

/-! # Bringing a schema up to date

A migration reads the version on record from a table that may hold anything, or be missing,
or be of another form.  `migrate_eq_ok` says all that a migration can have done when it
succeeds: nothing at all, if the version was known already, and otherwise to make the tables
of the ledger, which have not been there, and to put the version on record.

What that comes to is for the table to decide.  Somebody may have given it columns that make
texts of numbers, keys that pass rows over or make room for them, or triggers.  Where there
is nothing of the kind (`RecordsPlainly`), the row is refused or goes in as it is.  Then
nothing that was there is gone, the version on record is the supported one, and with that on
record there is nothing left to do (`upToDate_of_recordedVersion`).
-/

namespace TokenLedger

/-! ## Values -/

namespace Cell

theorem last_concat (cells : List Cell) (cell : Cell) :
    last (cells ++ [cell]) = if (last cells).before cell then cell else last cells := by
  rw [last, List.foldl_append]
  rfl

theorem before_integer (m n : Int) : (integer m).before (integer n) = decide (m < n) := by
  show decide ((m : Rat) < (n : Rat)) = _
  exact decide_eq_decide.mpr Int.cast_lt

theorem before_of_version? {cell : Cell} {m n : Int} (stands : cell.version? = some m)
    (less : m < n) : cell.before (integer n) = true := by
  cases cell with
  | null => rfl
  | integer k =>
    cases stands
    rw [before_integer, decide_eq_true less]
  | _ => cases stands

end Cell

/-! ## Rows that go in as they are -/

namespace AnyTable

variable {table next : AnyTable} {values : List (String × Cell)} {row : List Cell}
  {result : Option AnyTable}

/-- Whether a row is either refused or goes in without others having to make room, with the
    integers in the column of versions kept. -/
structure Plain (table : AnyTable) : Prop where
  integers : ∀ column ∈ table.columns, sameName column.name "version" → column.numbers = .integers
  nulls : ∀ column ∈ table.columns, column.notNull? ≠ some .passOver
  keys : ∀ key ∈ table.keys, key.conflict = .refuse

theorem Plain.refuses (plain : table.Plain) (row : List Cell) :
    ∀ fault ∈ table.nullFaults row ++ table.keyFaults row, fault.1 = .refuse := by
  intro fault member
  rcases List.mem_append.mp member with member | member
  · obtain ⟨⟨column, cell⟩, listed, broken⟩ := List.mem_filterMap.mp member
    have named : column ∈ table.columns := (List.of_mem_zip listed).1
    simp only [Option.ite_none_right_eq_some, Option.map_eq_some_iff] at broken
    obtain ⟨_, conflict, asked, rfl⟩ := broken
    cases conflict with
    | refuse => rfl
    | passOver => exact absurd asked (plain.nulls column named)
    | replace => rfl
  · obtain ⟨key, listed, broken⟩ := List.mem_filterMap.mp member
    simp only [Option.ite_none_right_eq_some, Option.some.injEq] at broken
    obtain ⟨_, rfl⟩ := broken
    exact plain.keys key listed

/-- Where no key is broken, no row is in the way. -/
theorem filter_of_keyFaults_eq_nil (none : table.keyFaults row = []) :
    (table.rows.filter fun other => table.keys.all fun key => !table.agree key row other) =
      table.rows := by
  refine List.filter_eq_self.mpr fun other stored => List.all_eq_true.mpr fun key listed => ?_
  have whole := List.filterMap_eq_nil_iff.mp none key listed
  rw [ite_eq_right_iff] at whole
  cases agrees : table.agree key row other with
  | false => rfl
  | true => cases whole (List.any_eq_true.mpr ⟨other, stored, agrees⟩)

theorem Plain.insert_eq_ok (plain : table.Plain) (done : table.insert values = .ok result) :
    result = some { table with rows := table.rows ++ [table.row values] } := by
  unfold insert at done
  split at done
  · cases done
  split at done
  · cases done
  dsimp only at done
  split at done
  · cases done
  next fault kept found =>
    -- nothing is passed over, so the fault would have been a reason to refuse
    have refused := plain.refuses (table.row values) fault (List.mem_of_find?_eq_some found)
    exact (kept fault.2 (Prod.ext refused rfl)).elim
  next unbroken =>
    have refuses := plain.refuses (table.row values)
    -- no fault asks for room to be made, so there is none at all
    have none : table.keyFaults (table.row values) = [] := by
      refine List.eq_nil_iff_forall_not_mem.mpr fun fault member => ?_
      have member := List.mem_append_right (table.nullFaults (table.row values)) member
      have replaces := List.find?_eq_none.mp unbroken fault member
      rw [refuses fault member] at replaces
      exact replaces rfl
    cases done
    rw [filter_of_keyFaults_eq_nil none]

/-- What is in the column of versions after a row with a version number has gone in. -/
theorem Plain.cells_concat (plain : table.Plain) {column : Nat} {version : Int}
    (there : table.column? "version" = some column) (others : List (String × Cell)) :
    let row := table.row (("version", .integer version) :: others)
    cells { table with rows := table.rows ++ [row] } column =
      table.cells column ++ [.integer version] := by
  intro row
  obtain ⟨inside, named, _⟩ := List.findIdx?_eq_some_iff_getElem.mp there
  have same : sameName "version" table.columns[column].name = true := by
    simpa [sameName, eq_comm] using named
  have kept := plain.integers _ (List.getElem_mem inside) named
  have value : row.getD column .null = .integer version := by
    simp [row, AnyTable.row, inside, same, kept, Numbers.store]
  rw [cells, List.map_append, List.map_singleton, value]
  rfl

end AnyTable

/-! ## Databases -/

namespace Database

variable {db next : Database} {cells : List Cell} {version now : Int} {current found : Nat}

/-- The version on record, if it is a number: the last in the order, or zero if there is none. -/
def recordedVersion? (db : Database) : Option Int :=
  match db.other? versionName with
  | none => some 0
  | some table =>
    (table.column? "version").bind fun column => (Cell.last (table.cells column)).version?

/-- Whether a version number is either refused or goes on record and does nothing else: the table
    that is there takes it as it is, and no trigger is fired. -/
structure RecordsPlainly (db : Database) : Prop where
  table : ∀ table, db.other? versionName = some table → table.Plain
  triggers : ∀ trigger ∈ db.triggers, sameName trigger.table versionName = false

/-- Whether all that is in a database is there in another. -/
structure IsIn (a b : Database) : Prop where
  tables : ∀ tables, a.tables = some tables → b.tables = some tables
  others : ∀ name table, a.other? name = some table →
    ∃ rows, table.rows.Sublist rows ∧ b.other? name = some { table with rows }
  triggers : b.triggers = a.triggers

theorem IsIn.refl (db : Database) : db.IsIn db :=
  ⟨fun _ has => has, fun _ table has => ⟨table.rows, .refl _, has⟩, rfl⟩

theorem IsIn.trans {a b c : Database} (first : a.IsIn b) (second : b.IsIn c) : a.IsIn c := by
  refine ⟨fun tables has => second.tables tables (first.tables tables has),
    fun name table has => ?_, second.triggers.trans first.triggers⟩
  obtain ⟨rows, shorter, has⟩ := first.others name table has
  obtain ⟨rows', shorter', has⟩ := second.others name _ has
  exact ⟨rows', shorter.trans shorter', has⟩

/-- Whether there is nothing for a migration to do. -/
def UpToDate (db : Database) : Prop := ∀ now, db.migrate now = .ok (supportedVersion, db)

theorem migrate_empty : migrate empty = .ok (0, fresh) := by
  decide +kernel

theorem other?_putOther (db : Database) (table : AnyTable) (name : String) :
    (db.putOther table).other? name =
      if table.key = Bytes.ofText name.toLower then some table else db.other? name :=
  Index.find?_put db.others table _

theorem key_of_other? {table : AnyTable} {name : String} (has : db.other? name = some table) :
    table.key = Bytes.ofText name.toLower := Index.key_of_find? has

theorem recordedVersion?_putOther {table : AnyTable}
    (named : table.key = Bytes.ofText versionName.toLower) :
    (db.putOther table).recordedVersion? = (table.column? "version").bind fun column =>
      (Cell.last (table.cells column)).version? := by
  rw [recordedVersion?, other?_putOther, if_pos named]

/-! ## The table of version numbers -/

/-- The database with a table of version numbers. -/
def withVersions (db : Database) : Database :=
  if (db.other? versionName).isSome then db else db.putOther versionTable

theorem withVersions_of_none (missing : db.other? versionName = none) :
    db.withVersions = db.putOther versionTable := by
  rw [withVersions, missing]
  rfl

theorem withVersions_of_some {table : AnyTable} (has : db.other? versionName = some table) :
    db.withVersions = db := by
  rw [withVersions, has]
  rfl

theorem other?_withVersions (db : Database) :
    db.withVersions.other? versionName = some ((db.other? versionName).getD versionTable) := by
  cases has : db.other? versionName with
  | none =>
    rw [withVersions_of_none has, other?_putOther, Option.getD_none]
    exact if_pos rfl
  | some table => rw [withVersions_of_some has, has, Option.getD_some]

theorem recordedVersion?_withVersions (db : Database) :
    db.withVersions.recordedVersion? = db.recordedVersion? := by
  cases has : db.other? versionName with
  | none =>
    rw [recordedVersion?, recordedVersion?, other?_withVersions, has, Option.getD_none]
    decide +kernel
  | some table => rw [withVersions_of_some has]

theorem tables_withVersions (db : Database) : db.withVersions.tables = db.tables := by
  rw [withVersions]
  split <;> rfl

theorem isIn_withVersions (db : Database) : db.IsIn db.withVersions := by
  cases has : db.other? versionName with
  | none =>
    rw [withVersions_of_none has]
    refine ⟨fun _ has => has, fun name table found => ?_, rfl⟩
    refine ⟨table.rows, .refl _, ?_⟩
    -- the new table is in the place of none
    rw [other?_putOther, if_neg, found]
    intro same
    have missing : db.other? name = none := by rwa [other?, ← same]
    cases missing.symm.trans found
  | some table =>
    rw [withVersions_of_some has]
    exact .refl db

theorem RecordsPlainly.withVersions (plain : db.RecordsPlainly) :
    db.withVersions.RecordsPlainly := by
  cases has : db.other? versionName with
  | some table => rwa [withVersions_of_some has]
  | none =>
    refine ⟨fun table found => ?_, by rw [withVersions_of_none has]; exact plain.triggers⟩
    rw [other?_withVersions, has] at found
    cases found
    exact ⟨by decide +kernel, by decide, by decide⟩

theorem ensureVersions_eq_ok (done : db.ensureVersions = .ok next) : next = db.withVersions := by
  unfold ensureVersions at done
  split at done
  next has =>
    cases done
    rw [withVersions_of_some has]
  next missing =>
    split at done
    · cases done
    · cases done
      rw [withVersions_of_none missing]

theorem recordedVersion?_of_currentVersion (read : db.versionCells = .ok cells)
    (known : currentVersion cells = .ok current) : db.recordedVersion? = some (current : Int) := by
  unfold versionCells at read
  split at read
  · cases read
  next table has =>
  split at read
  · cases read
  next column there =>
  cases read
  rw [recordedVersion?, has]
  dsimp only
  rw [there, Option.bind_some]
  unfold currentVersion at known
  split at known
  · cases known
  next n stands =>
  split at known
  next inside =>
    cases known
    rw [stands, Int.toNat_of_nonneg inside.1]
  · cases known

theorem exists_last_of_recordedVersion? {n : Int} (recorded : db.recordedVersion? = some n)
    (positive : 0 < n) : ∃ table column, db.other? versionName = some table ∧
      table.column? "version" = some column ∧
      (Cell.last (table.cells column)).version? = some n := by
  rw [recordedVersion?] at recorded
  split at recorded
  -- without a table the version would be zero
  · cases recorded
    exact absurd positive (Int.lt_irrefl 0)
  next table has =>
    obtain ⟨column, there, stands⟩ := Option.bind_eq_some_iff.mp recorded
    exact ⟨table, column, has, there, stands⟩

/-- Once the supported version is on record, there is nothing left to do. -/
theorem upToDate_of_recordedVersion
    (recorded : db.recordedVersion? = some (supportedVersion : Int)) : db.UpToDate := by
  obtain ⟨table, column, has, there, stands⟩ :=
    exists_last_of_recordedVersion? recorded (by decide)
  have ensured : db.ensureVersions = .ok db := by simp only [ensureVersions, has]
  have read : db.versionCells = .ok (table.cells column) := by simp only [versionCells, has, there]
  have known : currentVersion (table.cells column) = .ok supportedVersion := by
    rw [currentVersion, stands]
    rfl
  intro now
  rw [migrate, ensured, ok_bind, read, ok_bind, known]
  rfl

/-! ## Recording a version -/

theorem fire_of_no_triggers {name : String}
    (none : ∀ trigger ∈ db.triggers, sameName trigger.table name = false) :
    db.fire name = .ok db := by
  have fired : (db.triggers.filter fun trigger => sameName trigger.table name) = [] :=
    List.filter_eq_nil_iff.mpr fun trigger member => by simp [none trigger member]
  rw [fire, fired]
  rfl

theorem RecordsPlainly.recordVersion_eq_ok (plain : db.RecordsPlainly)
    (done : db.recordVersion version now = .ok next) :
    ∃ table, db.other? versionName = some table ∧
      let row := table.row [("version", .integer version), ("applied_at", .integer now)]
      next = db.putOther { table with rows := table.rows ++ [row] } := by
  unfold recordVersion at done
  split at done
  · cases done
  next table has =>
  obtain ⟨result, inserted, done⟩ := bind_eq_ok_iff.mp done
  cases (plain.table table has).insert_eq_ok (mapError_eq_ok_iff.mp inserted)
  dsimp only at done
  rw [fire_of_no_triggers (by exact plain.triggers), mapError_ok] at done
  cases done
  exact ⟨table, has, rfl⟩

theorem RecordsPlainly.isIn_of_recordVersion (plain : db.RecordsPlainly)
    (done : db.recordVersion version now = .ok next) : db.IsIn next := by
  obtain ⟨table, has, rfl⟩ := plain.recordVersion_eq_ok done
  refine ⟨fun _ has => has, fun name other found => ?_, rfl⟩
  rw [other?_putOther]
  split
  next same =>
    have named : db.other? name = some table := by
      rw [other?, ← same, ← has, other?, ← key_of_other? has]
      rfl
    cases found.symm.trans named
    exact ⟨_, List.sublist_append_left table.rows _, rfl⟩
  next => exact ⟨other.rows, .refl _, found⟩

/-- A number that is larger than what was on record is on record from then on. -/
theorem RecordsPlainly.recordedVersion?_of_recordVersion (plain : db.RecordsPlainly)
    {before : Int} (recorded : db.recordedVersion? = some before) (larger : before < version)
    (done : db.recordVersion version now = .ok next) : next.recordedVersion? = some version := by
  obtain ⟨table, has, rfl⟩ := plain.recordVersion_eq_ok done
  rw [recordedVersion?, has] at recorded
  obtain ⟨column, there, stands⟩ := Option.bind_eq_some_iff.mp recorded
  have named : table.key = Bytes.ofText versionName.toLower := key_of_other? has
  -- the number goes in behind the others, and comes last in the order too
  rw [recordedVersion?_putOther (by exact named)]
  show Option.bind (table.column? "version") _ = _
  rw [there, Option.bind_some, (plain.table table has).cells_concat there, Cell.last_concat,
    if_pos (Cell.before_of_version? stands larger)]
  rfl

/-! ## Migrations -/

/-- Where the tables of the ledger are, their names are taken. -/
theorem createTables_eq_ok (done : db.createTables = .ok next) :
    db.tables = none ∧ next = { db with tables := some .empty } := by
  simp only [createTables] at done
  split at done
  · cases done
  next free =>
    cases done
    refine ⟨?_, rfl⟩
    have unnamed := List.find?_eq_none.mp free "mints" (by decide)
    cases has : db.tables with
    | none => rfl
    | some tables =>
      refine absurd ?_ unnamed
      simp [hasName, names, ledgerNames, has, sameName]

/-- All that a migration can have done. -/
theorem migrate_eq_ok (done : db.migrate now = .ok (found, next)) :
    db.recordedVersion? = some (found : Int) ∧
      ((found = supportedVersion ∧ next = db) ∨
        (found < supportedVersion ∧ db.tables = none ∧
          recordVersion { db.withVersions with tables := some .empty } supportedVersion now =
            .ok next)) := by
  simp only [migrate, bind_eq_ok_iff] at done
  obtain ⟨between, ensured, cells, read, current, known, done⟩ := done
  cases ensureVersions_eq_ok ensured
  have recorded := recordedVersion?_of_currentVersion read known
  rw [recordedVersion?_withVersions] at recorded
  split at done
  · obtain ⟨_, ⟨⟩, _⟩ := bind_eq_ok_iff.mp done
  split at done
  next latest =>
    cases done
    -- a version other than zero has been read from a table that was there
    obtain ⟨table, _, has, _⟩ := exists_last_of_recordedVersion? recorded (by rw [latest]; decide)
    exact ⟨recorded, .inl ⟨latest, withVersions_of_some has⟩⟩
  next known older =>
    obtain ⟨created, creates, done⟩ := bind_eq_ok_iff.mp done
    obtain ⟨_, records, ⟨⟩⟩ := bind_eq_ok_iff.mp done
    obtain ⟨free, rfl⟩ := createTables_eq_ok creates
    rw [tables_withVersions] at free
    exact ⟨recorded, .inr ⟨by omega, free, records⟩⟩

/-- What a migration comes to where the version is on record already, or goes there plainly. -/
theorem recordedVersion?_of_migrate (done : db.migrate now = .ok (found, next))
    (plain : db.recordedVersion? = some (supportedVersion : Int) ∨ db.RecordsPlainly) :
    next.recordedVersion? = some (supportedVersion : Int) ∧ db.IsIn next := by
  obtain ⟨recorded, ⟨rfl, rfl⟩ | ⟨older, free, records⟩⟩ := migrate_eq_ok done
  · exact ⟨recorded, .refl next⟩
  rcases plain with latest | plain
  · cases recorded.symm.trans latest
    exact absurd older (Nat.lt_irrefl _)
  · let between : Database := { db.withVersions with tables := some .empty }
    have plain' : between.RecordsPlainly :=
      ⟨plain.withVersions.table, plain.withVersions.triggers⟩
    have recorded' : between.recordedVersion? = some (found : Int) :=
      (recordedVersion?_withVersions db).trans recorded
    have created : db.withVersions.IsIn between := by
      refine ⟨fun tables has => ?_, (IsIn.refl _).others, rfl⟩
      rw [tables_withVersions, free] at has
      cases has
    exact ⟨plain'.recordedVersion?_of_recordVersion recorded' (by omega) records,
      (isIn_withVersions db).trans (created.trans (plain'.isIn_of_recordVersion records))⟩

theorem exists_error_of_newer {n : Int} (recorded : db.recordedVersion? = some n)
    (newer : (supportedVersion : Int) < n) (now : Int) : ∃ e, db.migrate now = .error e := by
  refine exists_error_of_ne_ok fun ⟨found, next⟩ done => ?_
  obtain ⟨found_eq, ⟨rfl, _⟩ | ⟨older, _⟩⟩ := migrate_eq_ok done <;>
    cases recorded.symm.trans found_eq <;> omega

end Database

end TokenLedger
