import TokenLedger.CommandLine.DatabaseFile
import TokenLedger.Proofs.Store.Index

/-! # Files that come and go

What becomes of other files when one is put in its place or removed, and what becomes of
the ways that paths lead.  A file is in the way of a path that goes through it, so the
fewer files there are, the more paths lead somewhere (`Within.databasePlace?`), and none
of them leads elsewhere for it.

What is beside a database is told apart by its ending.  Places are told apart by their
texts, as files are.
-/

namespace TokenLedger

/-! ## Names -/

namespace Location

variable {place : Location}

theorem text_beside {ending : String} (inside : place ≠ []) :
    (place.beside ending).text = place.text ++ Bytes.ofText ending := by
  obtain ⟨name, directory, rfl⟩ := List.exists_cons_of_ne_nil inside
  simp [beside, text]

/-- Companions of a database are nowhere else than the database. -/
theorem besides_apart_self (inside : place ≠ []) {endings : List String}
    (longer : ∀ ending ∈ endings, Bytes.ofText ending ≠ []) :
    ∀ companion ∈ endings.map place.beside, companion.text ≠ place.text := by
  intro companion member
  obtain ⟨ending, listed, rfl⟩ := List.mem_map.mp member
  rw [text_beside inside]
  exact fun same => longer ending listed (List.append_right_eq_self.mp same)

/-- Companions of other endings are elsewhere. -/
theorem besides_apart_beside (inside : place ≠ []) {endings : List String} {other : String}
    (apart : ∀ ending ∈ endings, Bytes.ofText ending ≠ Bytes.ofText other) :
    ∀ companion ∈ endings.map place.beside, companion.text ≠ (place.beside other).text := by
  intro companion member
  obtain ⟨ending, listed, rfl⟩ := List.mem_map.mp member
  rw [text_beside inside, text_beside inside]
  exact fun same => apart ending listed (List.append_cancel_left same)

end Location

namespace FileSystem

variable {fs base : FileSystem} {place other : Location} {content : FileContent}

/-! ## Contents -/

theorem contentAt?_put (fs : FileSystem) (place other : Location) (content : FileContent) :
    (fs.put place content).contentAt? other =
      if place.text = other.text then some content else fs.contentAt? other := by
  rw [contentAt?, put, Index.find?_put, apply_ite (Option.map _)]
  rfl

theorem contentAt?_remove (fs : FileSystem) (place other : Location) :
    (fs.remove place).contentAt? other =
      if place.text = other.text then none else fs.contentAt? other := by
  rw [contentAt?, remove, Index.find?_erase, apply_ite (Option.map _)]
  rfl

theorem contentAt?_removeAll_of_mem {places : List Location} (member : place ∈ places) :
    (fs.removeAll places).contentAt? place = none := by
  -- what has been removed is not there again after the rest
  have stays : ∀ (places : List Location) (fs : FileSystem), fs.contentAt? place = none →
      (fs.removeAll places).contentAt? place = none := by
    intro places
    induction places with
    | nil => exact fun _ missing => missing
    | cons first rest ih =>
      refine fun fs missing => ih (fs.remove first) ?_
      rw [contentAt?_remove, missing, ite_self]
  induction places generalizing fs with
  | nil => cases member
  | cons first rest ih =>
    rcases List.mem_cons.mp member with rfl | member
    · exact stays rest _ (by rw [contentAt?_remove, if_pos rfl])
    · exact ih member

theorem bytesAt_removeAll_of_mem {places : List Location} (member : place ∈ places) :
    (fs.removeAll places).bytesAt place = [] := by
  rw [bytesAt, contentAt?_removeAll_of_mem member]
  rfl

/-! ## Other files -/

/-- Whether two file systems are the same but for the files at some places. -/
structure SameBut (places : List Location) (fs base : FileSystem) : Prop where
  current : fs.current = base.current
  directories : fs.directories = base.directories
  contents : ∀ other, (∀ place ∈ places, place.text ≠ other.text) →
    fs.contentAt? other = base.contentAt? other

namespace SameBut

variable {places more : List Location}

theorem refl (fs : FileSystem) : fs.SameBut places fs := ⟨rfl, rfl, fun _ _ => rfl⟩

theorem trans {between : FileSystem} (first : fs.SameBut places between)
    (second : between.SameBut places base) : fs.SameBut places base where
  current := first.current.trans second.current
  directories := first.directories.trans second.directories
  contents other apart := (first.contents other apart).trans (second.contents other apart)

theorem mono (same : fs.SameBut places base) (members : places ⊆ more) : fs.SameBut more base where
  current := same.current
  directories := same.directories
  contents other apart := same.contents other fun place member => apart place (members member)

theorem put (fs : FileSystem) (member : place ∈ places) (content : FileContent) :
    (fs.put place content).SameBut places fs where
  current := rfl
  directories := rfl
  contents other apart := by rw [contentAt?_put, if_neg (apart place member)]

theorem remove (fs : FileSystem) (member : place ∈ places) :
    (fs.remove place).SameBut places fs where
  current := rfl
  directories := rfl
  contents other apart := by rw [contentAt?_remove, if_neg (apart place member)]

theorem removeAll (fs : FileSystem) (members : places ⊆ more) :
    (fs.removeAll places).SameBut more fs := by
  induction places generalizing fs with
  | nil => exact .refl fs
  | cons first rest ih =>
    obtain ⟨member, members⟩ := List.cons_subset.mp members
    exact (ih (fs.remove first) members).trans (.remove fs member)

theorem removeAll_congr (same : fs.SameBut places base) (gone : List Location) :
    (fs.removeAll gone).SameBut places (base.removeAll gone) := by
  induction gone generalizing fs base with
  | nil => exact same
  | cons first rest ih =>
    refine ih ⟨same.current, same.directories, fun other apart => ?_⟩
    rw [contentAt?_remove, contentAt?_remove, same.contents other apart]

theorem bytesAt (same : fs.SameBut places base)
    (apart : ∀ place ∈ places, place.text ≠ other.text) :
    fs.bytesAt other = base.bytesAt other := by
  rw [FileSystem.bytesAt, same.contents other apart]
  rfl

theorem holds (same : fs.SameBut places base)
    (apart : ∀ place ∈ places, place.text ≠ other.text) :
    fs.holds other = base.holds other := by
  rw [FileSystem.holds, isDirectory, same.contents other apart, same.directories]
  rfl

end SameBut

/-! ## Fewer files -/

/-- Whether a file system has no file that another has not. -/
structure Within (fs base : FileSystem) : Prop where
  current : fs.current = base.current
  directories : fs.directories = base.directories
  files : ∀ place, (fs.contentAt? place).isSome → (base.contentAt? place).isSome

namespace Within

theorem refl (fs : FileSystem) : fs.Within fs := ⟨rfl, rfl, fun _ there => there⟩

theorem trans {between : FileSystem} (first : fs.Within between) (second : between.Within base) :
    fs.Within base where
  current := first.current.trans second.current
  directories := first.directories.trans second.directories
  files place there := second.files place (first.files place there)

theorem remove (fs : FileSystem) (place : Location) : (fs.remove place).Within fs where
  current := rfl
  directories := rfl
  files other there := by
    rw [contentAt?_remove] at there
    split at there
    · cases there
    · exact there

theorem removeAll (fs : FileSystem) (places : List Location) : (fs.removeAll places).Within fs := by
  induction places generalizing fs with
  | nil => exact .refl fs
  | cons first rest ih => exact (ih (fs.remove first)).trans (.remove fs first)

theorem put (there : (fs.contentAt? place).isSome) (content : FileContent) :
    (fs.put place content).Within fs where
  current := rfl
  directories := rfl
  files other stays := by
    rw [contentAt?_put] at stays
    split at stays
    next same =>
      simp only [contentAt?, ← same] at there ⊢
      exact there
    · exact stays

/-! ## Paths -/

theorem canLookUp (within : fs.Within base) {name : Bytes}
    (allowed : base.canLookUp place name = true) : fs.canLookUp place name = true := by
  unfold FileSystem.canLookUp isDirectory at *
  rw [within.directories]
  split at allowed
  next directory => rwa [if_pos directory]
  next none =>
    rw [if_neg none]
    -- a file in the way here would have been in the way before
    cases there : fs.contentAt? place with
    | none => rfl
    | some content =>
      have found := within.files place (by rw [there]; rfl)
      rw [Option.isNone_iff_eq_none.mp allowed] at found
      cases found

theorem stepToDatabase? (within : fs.Within base) {step : Step}
    (taken : base.stepToDatabase? place step = some other) :
    fs.stepToDatabase? place step = some other := by
  unfold FileSystem.stepToDatabase? at *
  cases step with
  | down name =>
    simp only [Bool.and_eq_true, decide_eq_true_eq, Option.ite_none_right_eq_some] at taken ⊢
    exact ⟨⟨within.canLookUp taken.1.1, taken.1.2⟩, taken.2⟩
  | stay => exact taken
  | up => exact taken

theorem databasePlace? (within : fs.Within base) {path : Bytes}
    (leads : base.databasePlace? path = some place) : fs.databasePlace? path = some place := by
  have steps : ∀ (steps : List Step) (start last : Location),
      steps.foldlM base.stepToDatabase? start = some last →
        steps.foldlM fs.stepToDatabase? start = some last := by
    intro steps
    induction steps with
    | nil => exact fun _ _ done => done
    | cons first rest ih =>
      intro start last done
      rw [List.foldlM_cons, Option.bind_eq_bind, Option.bind_eq_some_iff] at done ⊢
      obtain ⟨between, taken, done⟩ := done
      exact ⟨between, within.stepToDatabase? taken, ih _ _ done⟩
  simp only [FileSystem.databasePlace?, Option.bind_eq_bind, Option.bind_eq_some_iff] at leads ⊢
  obtain ⟨last, done, leads⟩ := leads
  rw [within.current]
  exact ⟨last, steps _ _ _ done, leads⟩

end Within

theorem ne_nil_of_databasePlace? {path : Bytes} (leads : fs.databasePlace? path = some place) :
    place ≠ [] := by
  simp only [databasePlace?, Option.bind_eq_bind, Option.bind_eq_some_iff] at leads
  obtain ⟨last, _, leads⟩ := leads
  split at leads
  next inside =>
    cases leads
    exact inside.1
  · cases leads

/-! ## Keeping a database -/

variable {opened : OpenDatabase} {log : List Location}

theorem keep_of_content (file : opened.file? = some ⟨place, log⟩)
    (content : fs.contentAt? place = some (.database opened.db)) : fs.keep opened = fs := by
  simp only [keep, file, content]
  exact if_pos rfl

/-- A file that has been read as the database that is kept must hold that, and not be blank. -/
theorem contentAt?_keep (file : opened.file? = some ⟨place, log⟩)
    (used : (fs.contentAt? place).bind (·.database?) = some opened.db →
      fs.contentAt? place = some (.database opened.db)) :
    (fs.keep opened).contentAt? place = some (.database opened.db) := by
  simp only [keep, file]
  split
  next kept => exact used kept
  · rw [contentAt?_put, if_pos rfl]

theorem keep_sameBut (fs : FileSystem) (file : opened.file? = some ⟨place, log⟩) :
    (fs.keep opened).SameBut [place, place.journal] fs := by
  have cleared : ∀ p [Decidable p],
      (if p then fs.remove place.journal else fs).SameBut [place, place.journal] fs := by
    intro p _
    split
    · exact .remove fs (by simp)
    · exact .refl fs
  simp only [keep, file]
  split
  · exact .refl fs
  · exact (SameBut.put _ (by simp) _).trans (cleared _)

theorem keep_within (inside : place ≠ []) (file : opened.file? = some ⟨place, log⟩)
    (there : (fs.contentAt? place).isSome) : (fs.keep opened).Within fs := by
  have apart := @Location.besides_apart_self place inside ["-journal"] (by decide)
  -- the journal is a file of its own, so the database is there when it is written
  have kept : (fs.remove place.journal).contentAt? place = fs.contentAt? place :=
    (SameBut.remove fs (List.mem_singleton_self _)).contents place apart
  simp only [keep, file]
  split
  · exact .refl fs
  · split
    · exact (Within.put (by rw [kept]; exact there) _).trans (.remove fs _)
    · exact .put there _

end FileSystem

end TokenLedger
