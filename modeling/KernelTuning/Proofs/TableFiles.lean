import KernelTuning.Proofs.JsonRecords
import KernelTuning.Proofs.JsonText
import KernelTuning.Proofs.MergedTables
import KernelTuning.Proofs.SavedFiles

/-!
# Table files

The text of a table lists its rows in their order, and the reader offers them in that order
to an empty table, which takes every one of them: their times are finite and no signature
comes twice.  So nothing of a table is lost when it is saved and loaded, whatever texts are
in it.
-/

namespace KernelTuning

open Json (Kept ReadsRounded record?_object)

theorem Timing.ofJson?_toJson {timing : Timing} (finite : timing.time.isFinite = true) :
    ofJson? timing.toJson = some timing := by
  have record : timing.toJson.record? ["config", "time"] = some ⟨_⟩ :=
    record?_object (List.Sublist.refl _) (by decide)
  rw [ofJson?, record]
  simp [Json.binary64?_float finite]

theorem Timing.kept_toJson {timing : Timing} (finite : timing.time.isFinite = true)
    (rounded : ReadsRounded timing.time) : Kept timing.toJson := by
  apply Kept.object
  simp [Kept.string, Kept.float finite rounded]

namespace Rows

/-- A row behind all others is placed at the end. -/
private theorem place_concat {rows : Rows} {signature : String} (timing : Timing)
    (last : ∀ row ∈ rows, row.1 < signature) :
    rows.place signature timing = rows ++ [(signature, timing)] := by
  induction rows with
  | nil => rfl
  | cons row rows induction =>
      have below := last row List.mem_cons_self
      have tail := induction fun later member => last later (List.mem_cons_of_mem _ member)
      have different : signature ≠ row.1 := by
        rintro rfl
        exact String.lt_irrefl _ below
      have notBefore : ¬signature < row.1 :=
        fun above => String.lt_irrefl _ (String.lt_trans below above)
      rw [place, if_neg notBefore, if_neg different, tail]
      rfl

/-- Placing the rows of an ordered list one after the other gives the list. -/
private theorem foldl_place {rows : Rows} (ordered : rows.Ordered) :
    rows.foldl (fun placed row => Rows.place row.1 row.2 placed) [] = rows := by
  induction rows using List.reverseRecOn with
  | nil => rfl
  | append_singleton rows row induction =>
      obtain ⟨signature, timing⟩ := row
      obtain ⟨orderedRows, _, last⟩ := List.pairwise_append.mp ordered
      rw [List.foldl_append, induction orderedRows]
      exact place_concat timing fun other member => last other member _ List.mem_cons_self

end Rows

namespace Table

variable {table : Table}

/-- The member of a table's object that holds a row. -/
def memberOfRow (row : String × Timing) : String × Json :=
  (row.1, row.2.toJson)

theorem toJson_eq (table : Table) :
    table.toJson = .object [("entries", .object (table.rows.map memberOfRow))] :=
  rfl

/-- A table is what its own rows lead to. -/
theorem ofRows_rows (finite : table.AllFinite) : ofRows table.rows = table := by
  apply eq_of_find?_eq
  intro signature
  have merged : (empty.merge table).1.find? signature =
      Timing.preferred (empty.find? signature) (table.find? signature) :=
    find?_merge finite signature
  change (empty.merge table).1.find? signature = _
  rw [merged]
  cases table.find? signature <;> rfl

theorem isFinite_of_mem_rows (finite : table.AllFinite) {row : String × Timing}
    (member : row ∈ table.rows) : row.2.time.isFinite = true :=
  finite row.1 row.2 (mem_rows_iff.mp member)

private theorem rowsOfJson?_map (finite : table.AllFinite) :
    rowsOfJson? (.object (table.rows.map memberOfRow)) = some table.rows := by
  have timingBack : ∀ row ∈ table.rows, Timing.ofJson? row.2.toJson = some row.2 :=
    fun _ member => Timing.ofJson?_toJson (isFinite_of_mem_rows finite member)
  rw [rowsOfJson?, Json.mapM_map]
  · exact congrArg some (Rows.foldl_place table.ordered)
  · intro row member
    simp [memberOfRow, timingBack row member]

theorem ofJson?_toJson (finite : table.AllFinite) : ofJson? table.toJson = some table := by
  have record : table.toJson.record? ["entries"] =
      some ⟨[("entries", .object (table.rows.map memberOfRow))]⟩ :=
    record?_object (List.Sublist.refl _) (by decide)
  rw [ofJson?, record]
  simp [rowsOfJson?_map finite, ofRows_rows finite]

theorem kept_toJson (finite : table.AllFinite)
    (rounded : ∀ row ∈ table.rows, ReadsRounded row.2.time) : Kept table.toJson := by
  have entries : Kept (.object (table.rows.map memberOfRow)) := by
    apply Kept.object
    intro member found
    obtain ⟨row, inRows, rfl⟩ := List.mem_map.mp found
    exact Timing.kept_toJson (isFinite_of_mem_rows finite inRows) (rounded row inRows)
  rw [toJson_eq]
  apply Kept.object
  simp [entries]

/-- The text of a table is read as the table. -/
theorem parse?_text (finite : table.AllFinite)
    (rounded : ∀ row ∈ table.rows, ReadsRounded row.2.time) : parse? table.text = some table := by
  rw [parse?, text, Json.parse?_pretty (kept_toJson finite rounded)]
  exact ofJson?_toJson finite

theorem exists_ofRows_of_parse? {text : String} (read : parse? text = some table) :
    ∃ calls, table = ofRows calls := by
  obtain ⟨json, _, decoded⟩ := Option.bind_eq_some_iff.mp read
  simp only [ofJson?, Option.bind_eq_bind, Option.bind_eq_some_iff, Option.pure_def] at decoded
  obtain ⟨record, _, calls, _, done⟩ := decoded
  cases done
  exact ⟨calls, rfl⟩

/-- What is loaded was reached by updates, also where there is no file. -/
theorem exists_ofRows_of_load {store : FileStore} {path : String}
    (loaded : load store path = .ok table) : ∃ calls, table = ofRows calls := by
  unfold load at loaded
  split at loaded
  · split at loaded
    · cases loaded
    · split at loaded
      · cases loaded
      · rename_i found read
        cases loaded
        exact exists_ofRows_of_parse? read
  · cases loaded
    exact ⟨[], rfl⟩

/-- Nothing has to be assumed about tables whose times have few digits. -/
theorem load_of_save_short {calls : Rows}
    (short : ∀ row ∈ (ofRows calls).rows, Json.Short row.2.time) {store after : FileStore}
    {path : String} (saved : outcome ((ofRows calls).save path) store = (.ok (), after)) :
    load after path = .ok (ofRows calls) :=
  load_of_save saved
    (parse?_text (allFinite_ofRows calls) fun row member => (short row member).readsRounded)

/-- Saving and loading a table loses nothing of it.  The table may have been reached by updates
or have been loaded from a file, and its times are read correctly rounded.  It can be saved
exactly where a file can stand, and is then loaded again, the times with all their bits. -/
theorem save_load (table : Table)
    (reached : (∃ calls, table = ofRows calls) ∨ ∃ before source, load before source = .ok table)
    (rounded : ∀ row ∈ table.rows, ReadsRounded row.2.time) (store : FileStore) (path : String) :
    ((∃ after, outcome (table.save path) store = (.ok (), after)) ↔ Accepts store path) ∧
      ∀ after, outcome (table.save path) store = (.ok (), after) → load after path = .ok table := by
  have finite : table.AllFinite := by
    obtain ⟨calls, rfl⟩ : ∃ calls, table = ofRows calls := by
      rcases reached with updates | ⟨before, source, loaded⟩
      · exact updates
      · exact exists_ofRows_of_load loaded
    exact allFinite_ofRows calls
  refine ⟨exists_save_iff, ?_⟩
  intro after saved
  exact load_of_save saved (parse?_text finite rounded)

/-- Quotation marks, backslashes, control characters and empty texts, and a time that needs
all its digits. -/
def awkwardTable : Table :=
  ofRows
    [("\"gemm\"\\", ⟨"", ⟨0x3fb999999999999a⟩⟩), ("", ⟨"\t\x01\n", ⟨0x8000000000000000⟩⟩),
      ("größe", ⟨"v4:1,2", ⟨0x3fd5555555555555⟩⟩), ("", ⟨"slower", ⟨0x3ff0000000000000⟩⟩)]

theorem save_load_awkwardTable :
    ∃ after, outcome (awkwardTable.save "tables/best.json") {} = (.ok (), after) ∧
      load after "tables/best.json" = .ok awkwardTable := by
  have rounded : ∀ row ∈ awkwardTable.rows, ReadsRounded row.2.time :=
    @of_decide_eq_true _ (List.decidableBAll _ _) (by decide +kernel)
  have accepts : Accepts {} "tables/best.json" :=
    ⟨{ directories := [["tables"]] }, ["tables", "best.json.tmp"], ["tables", "best.json"], rfl,
      rfl, rfl⟩
  obtain ⟨saves, loads⟩ :=
    save_load awkwardTable (.inl ⟨_, rfl⟩) rounded {} "tables/best.json"
  obtain ⟨after, saved⟩ := saves.mpr accepts
  exact ⟨after, saved, loads after saved⟩

end Table

end KernelTuning
