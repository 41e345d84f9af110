import KernelTuning.Proofs.Checked
import KernelTuning.Session

/-!
# Saved files

Where a path leads depends on directories alone, and writing a file makes none.  A file that
is written under a temporary path and then renamed therefore stands at its own path with the
text that was written, and whether the two steps succeed does not depend on the text.

Main statements: `Table.exists_save_iff` and `Table.load_of_save`.
-/

namespace KernelTuning

variable {ε α β : Type}

/-- What the first computation gives, the second one gives too. -/
def Carries (first second : Except ε α) : Prop :=
  ∀ value, first = .ok value → second = .ok value

theorem Carries.refl (computation : Except ε α) : Carries computation computation :=
  fun _ => id

theorem Carries.bind {first second : Except ε α} {next after : α → Except ε β}
    (carries : Carries first second) (rest : ∀ value, Carries (next value) (after value)) :
    Carries (first >>= next) (second >>= after) := by
  intro result passes
  obtain ⟨value, found, passesRest⟩ := bind_eq_ok_iff.mp passes
  exact bind_eq_ok_iff.mpr ⟨value, carries value found, rest value result passesRest⟩

namespace FileStore

variable {store other : FileStore}

/-! ## Where paths lead -/

private theorem isDirectory_congr (same : store.directories = other.directories) (place : Place) :
    store.isDirectory place = other.isDirectory place := by
  rw [isDirectory, isDirectory, same]

private theorem isDirectory_of_subset (subset : store.directories ⊆ other.directories)
    {place : Place}
    (there : store.isDirectory place = true) : other.isDirectory place = true := by
  unfold isDirectory at there ⊢
  simp only [Bool.or_eq_true, List.contains_iff_mem] at there ⊢
  exact there.imp_right fun member => subset member

/-- Further directories do not change where a name leads. -/
theorem carries_enter_of_subset (subset : store.directories ⊆ other.directories) (place : Place)
    (name : String) : Carries (store.enter place name) (other.enter place name) := by
  unfold enter
  split
  · exact Carries.refl _
  · split
    · exact Carries.refl _
    · dsimp only
      split
      · rename_i there
        rw [if_pos (isDirectory_of_subset subset there)]
        exact Carries.refl _
      · -- Only here do files matter: for which failure it is.
        intro inner missing
        cases missing

theorem carries_enter (same : store.directories = other.directories) (place : Place)
    (name : String) : Carries (store.enter place name) (other.enter place name) := by
  apply carries_enter_of_subset
  rw [same]
  exact List.Subset.refl _

private theorem carries_foldlM_enter (same : store.directories = other.directories) (place : Place)
    (names : List String) :
    Carries (names.foldlM store.enter place) (names.foldlM other.enter place) := by
  induction names generalizing place with
  | nil => exact Carries.refl _
  | cons name names induction =>
      rw [List.foldlM_cons, List.foldlM_cons]
      exact (carries_enter same place name).bind induction

/-- Stores with the same directories agree on the place that a path leads to. -/
private theorem carries_locate (same : store.directories = other.directories) (path : String) :
    Carries (store.locate path) (other.locate path) := by
  unfold locate
  apply (Carries.refl _).bind
  intro _
  dsimp only
  split
  · exact Carries.refl _
  · split
    · exact Carries.refl _
    · apply (carries_foldlM_enter same _ _).bind
      intro directory
      split
      · exact (carries_enter same _ _).bind fun _ => Carries.refl _
      · exact Carries.refl _

theorem locateTarget_eq_ok_iff {path : String} {place : Place} :
    store.locateTarget path = .ok place ↔
      store.locate path = .ok ⟨place, false⟩ ∧ store.isDirectory place = false := by
  unfold locateTarget
  rw [bind_eq_ok_iff]
  constructor
  · rintro ⟨⟨found, asDirectory⟩, located, rest⟩
    cases directory : store.isDirectory found with
    | true =>
        simp only [directory, if_true] at rest
        cases rest
    | false =>
        cases asDirectory with
        | true =>
            simp only [directory] at rest
            cases rest
        | false =>
            simp only [directory] at rest
            cases rest
            exact ⟨located, directory⟩
  · rintro ⟨located, noDirectory⟩
    refine ⟨⟨place, false⟩, located, ?_⟩
    simp only [noDirectory]
    rfl

theorem carries_locateTarget (same : store.directories = other.directories) (path : String) :
    Carries (store.locateTarget path) (other.locateTarget path) := by
  intro place target
  obtain ⟨located, noDirectory⟩ := locateTarget_eq_ok_iff.mp target
  apply locateTarget_eq_ok_iff.mpr
  exact ⟨carries_locate same path _ located, by rw [← isDirectory_congr same, noDirectory]⟩

/-! ## Directories that are there already -/

private theorem directories_subset_enterCreating (store : FileStore) (place : Place)
    (name : String) :
    store.directories ⊆ (store.enterCreating place name).1.directories := by
  unfold enterCreating
  split
  · exact List.subset_cons_self _ _
  · exact List.Subset.refl _

private theorem directories_subset_createAll (store : FileStore) (place : Place)
    (names : List String) :
    store.directories ⊆ (store.createAll place names).1.directories := by
  induction names generalizing store place with
  | nil => exact List.Subset.refl _
  | cons name names induction =>
      have entered := store.directories_subset_enterCreating place name
      unfold createAll
      split
      · rename_i middle inner made
        rw [made] at entered
        exact List.Subset.trans entered (induction middle inner)
      · rename_i middle error made
        rw [made] at entered
        exact entered

/-- A name that has been entered once, creating its directory if necessary, can be entered. -/
private theorem enter_of_enterCreating {place inner : Place} {name : String} {middle : FileStore}
    (entered : store.enterCreating place name = (middle, .ok inner))
    (subset : middle.directories ⊆ other.directories) : other.enter place name = .ok inner := by
  unfold enterCreating at entered
  split at entered
  · rename_i missing
    cases entered
    have created : other.isDirectory (place ++ [name]) = true := by
      unfold isDirectory
      simp only [Bool.or_eq_true, List.contains_iff_mem]
      exact .inr (subset List.mem_cons_self)
    -- The failure was that of a directory which is there by now.
    unfold enter at missing ⊢
    split at missing
    · cases missing
    · rename_i notUp
      rw [if_neg notUp]
      split at missing
      · cases missing
      · rename_i short
        simp only [if_neg short, created, if_true]
  · obtain ⟨rfl, result⟩ := Prod.mk.inj entered
    exact carries_enter_of_subset subset place name inner result

/-- Directories that have been created once need not be created again. -/
theorem createAll_again {place : Place} {names : List String} {created : FileStore}
    (made : store.createAll place names = (created, .ok ()))
    (subset : created.directories ⊆ other.directories) :
    other.createAll place names = (other, .ok ()) := by
  induction names generalizing store place with
  | nil => rfl
  | cons name names induction =>
      unfold createAll at made
      split at made
      · rename_i middle inner entered
        have later : middle.directories ⊆ other.directories := by
          have kept := middle.directories_subset_createAll inner names
          rw [made] at kept
          exact List.Subset.trans kept subset
        have again := enter_of_enterCreating entered later
        rw [createAll, enterCreating, again]
        exact induction made
      · cases made

theorem createDirectories_again {path : String} {created : FileStore}
    (made : store.createDirectories path = (created, .ok ()))
    (subset : created.directories ⊆ other.directories) :
    other.createDirectories path = (other, .ok ()) := by
  unfold createDirectories at made ⊢
  split at made
  · cases made
  · exact createAll_again made subset

/-! ## Files at their places -/

private theorem directories_put (store : FileStore) (place : Place) (text : String) :
    (store.put place text).directories = store.directories :=
  rfl

theorem file?_put (store : FileStore) (place : Place) (text : String) :
    (store.put place text).file? place = some text := by
  simp [file?, put]

/-- The file at a place where one may be written. -/
theorem locateFile_of_target {path text : String} {place : Place}
    (target : store.locateTarget path = .ok place) (file : store.file? place = some text) :
    store.locateFile path = .ok (place, text) := by
  obtain ⟨located, noDirectory⟩ := locateTarget_eq_ok_iff.mp target
  unfold locateFile
  apply bind_eq_ok_iff.mpr
  refine ⟨⟨place, false⟩, located, ?_⟩
  simp only [noDirectory, file]
  rfl

private theorem read_of_target {path text : String} {place : Place}
    (target : store.locateTarget path = .ok place) (file : store.file? place = some text) :
    store.read path = .ok text := by
  rw [read, locateFile_of_target target file]
  rfl

private theorem contains_of_target {path text : String} {place : Place}
    (target : store.locateTarget path = .ok place) (file : store.file? place = some text) :
    store.contains path = true := by
  obtain ⟨located, _⟩ := locateTarget_eq_ok_iff.mp target
  simp [contains, located, file]

theorem write_eq_ok_iff {path text : String} {after : FileStore} :
    store.write path text = .ok after ↔
      ∃ place, store.locateTarget path = .ok place ∧ after = store.put place text := by
  unfold write
  rw [bind_eq_ok_iff]
  constructor
  · rintro ⟨place, target, written⟩
    cases written
    exact ⟨place, target, rfl⟩
  · rintro ⟨place, target, rfl⟩
    exact ⟨place, target, rfl⟩

/-- A file that has just been written can be renamed to where a file may stand. -/
theorem rename_put_eq_ok_iff {source target text : String} {place : Place} {after : FileStore}
    (written : store.locateTarget source = .ok place) :
    (store.put place text).rename source target = .ok after ↔
      ∃ newPlace, store.locateTarget target = .ok newPlace ∧
        after = ((store.put place text).erase place).put newPlace text := by
  have same : (store.put place text).directories = store.directories :=
    directories_put store place text
  have file : (store.put place text).locateFile source = .ok (place, text) :=
    locateFile_of_target (carries_locateTarget same.symm source place written)
      (file?_put store place text)
  unfold rename
  rw [bind_eq_ok_iff]
  constructor
  · rintro ⟨⟨source, moved⟩, found, renamed⟩
    cases file.symm.trans found
    obtain ⟨newPlace, newTarget, done⟩ := bind_eq_ok_iff.mp renamed
    cases done
    exact ⟨newPlace, carries_locateTarget same target newPlace newTarget, rfl⟩
  · rintro ⟨newPlace, newTarget, rfl⟩
    refine ⟨(place, text), file, ?_⟩
    apply bind_eq_ok_iff.mpr
    exact ⟨newPlace, carries_locateTarget same.symm target newPlace newTarget, rfl⟩

end FileStore

namespace Table

/-! ## Saving -/

theorem save_eq_ok_iff {table : Table} {path : String} {store after : FileStore} :
    outcome (table.save path) store = (.ok (), after) ↔
      ∃ created written, outcome (createParent path) store = (.ok (), created) ∧
        created.write (FilePath.temporary path) table.text = .ok written ∧
        written.rename (FilePath.temporary path) path = .ok after := by
  rw [save, outcome_bind]
  cases outcome (createParent path) store with
  | mk result created =>
      cases result with
      | error fault => simp
      | ok value =>
          simp only [outcome_bind, outcome_get]
          cases written : created.write (FilePath.temporary path) table.text with
          | error error => simp [outcome_throw, written]
          | ok writtenStore =>
              simp only [outcome_bind, outcome_set, outcome_get]
              cases renamed : writtenStore.rename (FilePath.temporary path) path with
              | error error => simp [outcome_throw, written, renamed]
              | ok renamedStore => simp [outcome_set, written, renamed]

/-- The store takes a file at a path: the directories above it are there or can be made, and
both at the path and at the temporary one next to it a file may stand. -/
def Accepts (store : FileStore) (path : String) : Prop :=
  ∃ created temporary place, outcome (createParent path) store = (.ok (), created) ∧
    created.locateTarget (FilePath.temporary path) = .ok temporary ∧
    created.locateTarget path = .ok place

/-- A table can be saved exactly where a file can stand, whatever is in the table. -/
theorem exists_save_iff {table : Table} {path : String} {store : FileStore} :
    (∃ after, outcome (table.save path) store = (.ok (), after)) ↔ Accepts store path := by
  constructor
  · rintro ⟨after, saved⟩
    obtain ⟨created, written, parent, wrote, renamed⟩ := save_eq_ok_iff.mp saved
    obtain ⟨temporary, source, rfl⟩ := FileStore.write_eq_ok_iff.mp wrote
    obtain ⟨place, target, _⟩ := (FileStore.rename_put_eq_ok_iff source).mp renamed
    exact ⟨created, temporary, place, parent, source, target⟩
  · rintro ⟨created, temporary, place, parent, source, target⟩
    have wrote := FileStore.write_eq_ok_iff.mpr
      (⟨temporary, source, rfl⟩ : ∃ place, created.locateTarget _ = .ok place ∧
        _ = created.put place table.text)
    have renamed := (FileStore.rename_put_eq_ok_iff source).mpr
      ⟨place, target, (rfl : _ = ((created.put temporary table.text).erase temporary).put place _)⟩
    exact ⟨_, save_eq_ok_iff.mpr ⟨created, _, parent, wrote, renamed⟩⟩

/-- What has been saved is there, as far as its text can be read. -/
theorem load_of_save {table : Table} {path : String} {store after : FileStore}
    (saved : outcome (table.save path) store = (.ok (), after))
    (readable : parse? table.text = some table) : load after path = .ok table := by
  obtain ⟨created, written, parent, wrote, renamed⟩ := save_eq_ok_iff.mp saved
  obtain ⟨temporary, source, rfl⟩ := FileStore.write_eq_ok_iff.mp wrote
  obtain ⟨place, target, rfl⟩ := (FileStore.rename_put_eq_ok_iff source).mp renamed
  -- Neither writing nor renaming has changed a directory.
  have standing : (((created.put temporary table.text).erase temporary).put place
      table.text).locateTarget path = .ok place :=
    FileStore.carries_locateTarget (by rfl) path place target
  have file := FileStore.file?_put ((created.put temporary table.text).erase temporary) place
    table.text
  rw [load, FileStore.contains_of_target standing file, if_pos rfl,
    FileStore.read_of_target standing file]
  simp [readable]

theorem createParent_again {path : String} {store created other : FileStore}
    (made : outcome (createParent path) store = (.ok (), created))
    (subset : created.directories ⊆ other.directories) :
    outcome (createParent path) other = (.ok (), other) := by
  unfold createParent at made ⊢
  cases above : FilePath.parent? path with
  | none => rfl
  | some parent =>
      simp only [above] at made ⊢
      split
      · rfl
      · rename_i notEmpty
        rw [if_neg notEmpty] at made
        simp only [outcome_bind, outcome_get, outcome_set] at made ⊢
        cases first : store.createDirectories parent with
        | mk middle result =>
            cases result with
            | error error =>
                rw [first] at made
                cases made
            | ok value =>
                rw [first] at made
                cases made
                rw [FileStore.createDirectories_again first subset]
                rfl

/-- Where a table has been saved, the next one can be saved too. -/
theorem accepts_of_save {table : Table} {path : String} {store after : FileStore}
    (saved : outcome (table.save path) store = (.ok (), after)) : Accepts after path := by
  obtain ⟨created, written, parent, wrote, renamed⟩ := save_eq_ok_iff.mp saved
  obtain ⟨temporary, source, rfl⟩ := FileStore.write_eq_ok_iff.mp wrote
  obtain ⟨place, target, rfl⟩ := (FileStore.rename_put_eq_ok_iff source).mp renamed
  refine ⟨_, temporary, place, createParent_again parent (List.Subset.refl _), ?_, ?_⟩
  · exact FileStore.carries_locateTarget (by rfl) _ temporary source
  · exact FileStore.carries_locateTarget (by rfl) path place target

end Table

/-- A session that keeps its table starts without touching a file. -/
theorem Session.outcome_start {options : SessionOptions} (keeps : options.clearTable = false)
    (store : FileStore) :
    outcome (start options) store =
      ((options.tablePath.elim (.ok .empty) (Table.load store)).map (Session.mk options),
        store) := by
  unfold start
  cases options.tablePath with
  | none => rfl
  | some path =>
      simp only [keeps, Bool.false_eq_true, if_false, outcome_bind, outcome_get, Option.elim_some]
      cases Table.load store path <;> rfl

end KernelTuning
