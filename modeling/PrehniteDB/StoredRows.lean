import PrehniteDB.Constraints

namespace PrehniteDB.Constraints

/-!
# Rows and their index entries

What a table's trees have in common at every row boundary: one row for a rowid,
and in every index one key for each version, visible or not.  Over it, what the
executor's writes and index probes come to in terms of rows.
-/

/-- Some version of the table, whoever sees it, has the value in the column. -/
def Trees.Holds (trees : Trees) (position : Nat) (value : Value) : Prop :=
  ∃ row ∈ trees.rows, column row.2.values position = value

/-- One row for a rowid, one key in every index for each row. -/
structure Stored (schema : Schema) (trees : Trees) : Prop where
  rowids : (trees.rows.map Prod.fst).Nodup
  bounded : ∀ row ∈ trees.rows, row.1 < trees.nextRowid
  indexed :
    ∀ index ∈ schema.indexes, ∀ key,
      key ∈ trees.entries index.name ↔
        ∃ row ∈ trees.rows,
          key = (encodeIndexKey row.2.values index.columns row.1, row.1)

/-! ## Tree writes -/

@[simp] theorem mem_insertKey
    {key entry : List UInt8 × Nat}
    {entries : List (List UInt8 × Nat)} :
    entry ∈ insertKey key entries ↔ entry = key ∨ entry ∈ entries := by
  induction entries with
  | nil => simp [insertKey]
  | cons head rest inductionHypothesis =>
      unfold insertKey
      split
      case isTrue same =>
        rw [same]
        simp
      case isFalse =>
        split
        · simp
        · rw [List.mem_cons, inductionHypothesis, List.mem_cons]
          constructor
          · rintro (here | new | old)
            · exact .inr (.inl here)
            · exact .inl new
            · exact .inr (.inr old)
          · rintro (new | here | old)
            · exact .inr (.inl new)
            · exact .inl here
            · exact .inr (.inr old)

theorem putRow_fresh
    {rowid : Nat}
    {record : Record}
    {rows : List (Nat × Record)}
    (fresh : ∀ row ∈ rows, row.1 ≠ rowid) :
    putRow rowid record rows = rows ++ [(rowid, record)] := by
  unfold putRow
  rw [if_neg]
  intro found
  obtain ⟨row, listed, same⟩ := List.any_eq_true.mp found
  exact fresh row listed (of_decide_eq_true same)

theorem putRow_present
    {rowid : Nat}
    {record old : Record}
    {rows : List (Nat × Record)}
    (present : (rowid, old) ∈ rows) :
    putRow rowid record rows =
      rows.map fun row => if row.1 = rowid then (rowid, record) else row := by
  unfold putRow
  rw [if_pos]
  exact List.any_eq_true.mpr ⟨_, present, decide_eq_true rfl⟩

namespace Stored

variable {schema : Schema} {trees : Trees}

theorem empty : Stored schema .empty where
  rowids := List.nodup_nil
  bounded := nofun
  indexed := by
    intro index _ key
    simp [Trees.empty]

theorem row_unique
    (stored : Stored schema trees)
    {first second : Nat × Record}
    (firstListed : first ∈ trees.rows)
    (secondListed : second ∈ trees.rows)
    (same : first.1 = second.1) :
    first = second :=
  List.inj_on_of_nodup_map stored.rowids firstListed secondListed same

theorem fresh (stored : Stored schema trees) :
    ∀ row ∈ trees.rows, row.1 ≠ trees.nextRowid :=
  fun row listed => Nat.ne_of_lt (stored.bounded row listed)

theorem append_rows (stored : Stored schema trees) (record : Record) :
    (trees.append record).rows = trees.rows ++ [(trees.nextRowid, record)] :=
  putRow_fresh stored.fresh

theorem indexHasValue_iff
    (stored : Stored schema trees)
    {index : Index}
    {position : Nat}
    {value : Value}
    (listed : index ∈ schema.indexes)
    (single : index.columns = [position]) :
    trees.indexHasValue index (encodeIndexValue value) = true ↔
      trees.Holds position value := by
  simp only [Trees.indexHasValue, ReadPaths.keysHaveValue, List.any_map, List.any_eq_true,
    Function.comp_apply, ReadPaths.inIndexRange_prefixUpperBound, stored.indexed index listed]
  constructor
  · rintro ⟨_, ⟨row, here, rfl⟩, starts⟩
    refine ⟨row, here, (@encodeIndexValue_isPrefix_iff _ _ (rowidKey row.1)).mp ?_⟩
    simpa [encodeIndexKey, encodeIndexValuePrefix, single] using starts
  · rintro ⟨row, here, held⟩
    refine ⟨_, ⟨row, here, rfl⟩, ?_⟩
    have starts := (@encodeIndexValue_isPrefix_iff _ _ (rowidKey row.1)).mpr held
    simpa [encodeIndexKey, encodeIndexValuePrefix, single] using starts

/-- A rewrite of a row in place that keeps its values keeps the index entries. -/
theorem rewrite
    (stored : Stored schema trees)
    {rowid : Nat}
    {old record : Record}
    (present : (rowid, old) ∈ trees.rows)
    (values : record.values = old.values) :
    Stored schema (trees.put rowid record) := by
  have rows :
      (trees.put rowid record).rows =
        trees.rows.map fun row => if row.1 = rowid then (rowid, record) else row :=
    putRow_present present
  refine ⟨?_, ?_, ?_⟩
  · rw [rows, List.map_map]
    have kept :
        (trees.rows.map (Prod.fst ∘ fun row =>
          if row.1 = rowid then (rowid, record) else row)) =
            trees.rows.map Prod.fst := by
      refine List.map_congr_left fun row _ => ?_
      simp only [Function.comp_apply]
      split
      case isTrue same => exact same.symm
      case isFalse => rfl
    rw [kept]
    exact stored.rowids
  · intro row listed
    rw [rows] at listed
    obtain ⟨before, here, rfl⟩ := List.mem_map.mp listed
    have below := stored.bounded before here
    split
    case isTrue same => exact same ▸ below
    case isFalse => exact below
  · intro index listed key
    rw [rows]
    refine (stored.indexed index listed key).trans ?_
    constructor
    · rintro ⟨row, here, rfl⟩
      refine ⟨_, List.mem_map_of_mem here, ?_⟩
      split
      case isTrue same =>
        obtain rfl := stored.row_unique here present same
        rw [values]
      case isFalse => rfl
    · rintro ⟨_, here, rfl⟩
      obtain ⟨row, before, rfl⟩ := List.mem_map.mp here
      split
      case isTrue same =>
        obtain rfl := stored.row_unique before present same
        exact ⟨_, present, by rw [values]⟩
      case isFalse => exact ⟨row, before, rfl⟩

end Stored

/-! ## A new version -/

/-- The value of a column is checked for duplicates: not NULL, and changed. -/
def Checked (values : Row) (oldValues : Option Row) (position : Nat) : Prop :=
  (column values position).isNull = false ∧
    oldValues.all (fun old =>
      !(column values position).equal (column old position)) = true

instance (values : Row) (oldValues : Option Row) (position : Nat) :
    Decidable (Checked values oldValues position) :=
  inferInstanceAs (Decidable (_ ∧ _))

/-- A value that is already held is written to the column of a unique index. -/
def Taken
    (indexes : List Index)
    (held : Nat → Value → Prop)
    (values : Row)
    (oldValues : Option Row) : Prop :=
  ∃ index ∈ indexes,
    index.unique = true ∧
      ∃ position,
        index.columns = [position] ∧
          Checked values oldValues position ∧
          held position (column values position)

/-- The trees once one index has got its key. -/
def insertEntries
    (rowid : Nat)
    (values : Row) : List Index → Trees → Trees
  | [], trees => trees
  | index :: rest, trees =>
      insertEntries rowid values rest
        (trees.insertEntry index (encodeIndexKey values index.columns rowid, rowid))

section NewVersion

variable (schema : Schema) {values : Row} {oldValues : Option Row} {rowid : Nat}

theorem insertEntry_other
    {trees : Trees}
    {index other : Index}
    {key : List UInt8 × Nat}
    (different : other.name ≠ index.name) :
    (trees.insertEntry index key).entries other.name = trees.entries other.name :=
  Function.update_of_ne different _ _

theorem checkUnique_congr
    {trees other : Trees}
    {index : Index}
    (same : trees.entries index.name = other.entries index.name) :
    checkUnique schema trees values oldValues index =
      checkUnique schema other values oldValues index := by
  have probe :
      trees.indexHasValue index (encodeIndexValuePrefix values index.columns) =
        other.indexHasValue index (encodeIndexValuePrefix values index.columns) := by
    simp only [Trees.indexHasValue, same]
  unfold checkUnique
  rw [probe]

/-- The loop over the indexes fails at the first failing check, or writes every key. -/
theorem indexInsertRowWithOld_cases
    (values : Row)
    (oldValues : Option Row)
    (rowid : Nat)
    {indexes : List Index}
    (distinct : (indexes.map Index.name).Nodup)
    (trees : Trees) :
    (∃ index ∈ indexes, ∃ failure,
        checkUnique schema trees values oldValues index = .error failure ∧
          indexInsertRowWithOld schema rowid values oldValues indexes trees =
            .error failure) ∨
      ((∀ index ∈ indexes, checkUnique schema trees values oldValues index = .ok ()) ∧
        indexInsertRowWithOld schema rowid values oldValues indexes trees =
          .ok (insertEntries rowid values indexes trees)) := by
  induction indexes generalizing trees with
  | nil => exact .inr ⟨nofun, rfl⟩
  | cons index rest inductionHypothesis =>
      obtain ⟨unlisted, restDistinct⟩ := List.nodup_cons.mp distinct
      have kept (other : Index) (listed : other ∈ rest) :
          (trees.insertEntry index
              (encodeIndexKey values index.columns rowid, rowid)).entries other.name =
            trees.entries other.name :=
        insertEntry_other fun same => unlisted (same ▸ List.mem_map_of_mem listed)
      cases check : checkUnique schema trees values oldValues index with
      | error failure =>
          refine .inl ⟨index, List.mem_cons_self, failure, check, ?_⟩
          simp only [indexInsertRowWithOld, check]
      | ok _ =>
          simp only [indexInsertRowWithOld, check, insertEntries]
          rcases inductionHypothesis restDistinct (trees.insertEntry index
              (encodeIndexKey values index.columns rowid, rowid)) with
            ⟨other, listed, failure, failed, outcome⟩ | ⟨passed, outcome⟩
          · refine .inl ⟨other, List.mem_cons_of_mem _ listed, failure, ?_, outcome⟩
            rw [← failed]
            exact checkUnique_congr schema (kept other listed).symm
          · refine .inr ⟨?_, outcome⟩
            intro other listed
            rcases List.mem_cons.mp listed with rfl | later
            · exact check
            · rw [← passed other later]
              exact checkUnique_congr schema (kept other later).symm

theorem insertEntries_rows (indexes : List Index) (trees : Trees) :
    (insertEntries rowid values indexes trees).rows = trees.rows := by
  induction indexes generalizing trees with
  | nil => rfl
  | cons index rest inductionHypothesis => exact inductionHypothesis _

theorem insertEntries_nextRowid (indexes : List Index) (trees : Trees) :
    (insertEntries rowid values indexes trees).nextRowid = trees.nextRowid := by
  induction indexes generalizing trees with
  | nil => rfl
  | cons index rest inductionHypothesis => exact inductionHypothesis _

theorem mem_insertEntries
    {indexes : List Index}
    (distinct : (indexes.map Index.name).Nodup)
    {index : Index}
    (listed : index ∈ indexes)
    (trees : Trees)
    (key : List UInt8 × Nat) :
    key ∈ (insertEntries rowid values indexes trees).entries index.name ↔
      key = (encodeIndexKey values index.columns rowid, rowid) ∨
        key ∈ trees.entries index.name := by
  have untouched :
      ∀ (rest : List Index) (start : Trees) (name : String),
        name ∉ rest.map Index.name →
        (insertEntries rowid values rest start).entries name = start.entries name := by
    intro rest
    induction rest with
    | nil => exact fun _ _ _ => rfl
    | cons first later inductionHypothesis =>
        intro start name absent
        rw [List.map_cons, List.mem_cons, not_or] at absent
        exact (inductionHypothesis _ name absent.2).trans
          (Function.update_of_ne absent.1 _ _)
  induction indexes generalizing trees with
  | nil => cases listed
  | cons first rest inductionHypothesis =>
      obtain ⟨unlisted, restDistinct⟩ := List.nodup_cons.mp distinct
      simp only [insertEntries]
      rcases List.mem_cons.mp listed with rfl | later
      · rw [untouched rest _ index.name unlisted]
        simp [Trees.insertEntry]
      · refine (inductionHypothesis restDistinct later _).trans ?_
        rw [insertEntry_other fun same => unlisted (same ▸ List.mem_map_of_mem later)]

end NewVersion

/-! ## Writing a version -/

/-- The duplicate check fails on a value some version holds, visible or not. -/
theorem checkUnique_iff
    {schema : Schema}
    {trees : Trees}
    {index : Index}
    {position : Nat}
    (stored : Stored schema trees)
    (listed : index ∈ schema.indexes)
    (unique : index.unique = true)
    (single : index.columns = [position])
    (values : Row)
    (oldValues : Option Row) :
    (Checked values oldValues position ∧
          trees.Holds position (column values position) ∧
        checkUnique schema trees values oldValues index =
          .error (.duplicateKey index.name schema.name)) ∨
      (¬ (Checked values oldValues position ∧
            trees.Holds position (column values position)) ∧
        checkUnique schema trees values oldValues index = .ok ()) := by
  have prefixed :
      encodeIndexValuePrefix values index.columns =
        encodeIndexValue (column values position) := by
    simp [encodeIndexValuePrefix, single]
  have checked :
      needsProbe index.unique index.columns values oldValues = true ↔
        Checked values oldValues position := by
    unfold Checked needsProbe
    cases oldValues <;> simp [single, unique]
  have probed :
      trees.indexHasValue index (encodeIndexValue (column values position)) = true ↔
        trees.Holds position (column values position) :=
    stored.indexHasValue_iff listed single
  by_cases taken :
      Checked values oldValues position ∧ trees.Holds position (column values position)
  · refine .inl ⟨taken.1, taken.2, ?_⟩
    simp only [checkUnique, if_true, prefixed, checked.mpr taken.1, probed.mpr taken.2,
      Bool.and_self]
  · refine .inr ⟨taken, ?_⟩
    simp only [checkUnique, prefixed]
    rw [if_neg]
    intro both
    have parts := (Bool.and_eq_true _ _).mp both
    exact taken ⟨checked.mp parts.1, probed.mp parts.2⟩

theorem checkUnique_plain
    {schema : Schema}
    {trees : Trees}
    {values : Row}
    {oldValues : Option Row}
    {index : Index}
    (plain : index.unique = false) :
    checkUnique schema trees values oldValues index = .ok () := by
  simp [checkUnique, needsProbe, plain]

namespace Stored

variable {schema : Schema} {trees : Trees}

/-- With the keys of a new version every index is complete again. -/
theorem insertEntries
    (stored : Stored schema trees)
    (distinct : (schema.indexes.map Index.name).Nodup)
    (record : Record) :
    Stored schema
      (insertEntries trees.nextRowid record.values schema.indexes
        (trees.append record)) where
  rowids := by
    rw [insertEntries_rows, stored.append_rows, List.map_append]
    refine List.nodup_append.mpr ⟨stored.rowids, List.nodup_singleton _, ?_⟩
    intro first listed second new same
    obtain ⟨row, here, rfl⟩ := List.mem_map.mp listed
    rw [List.map_singleton, List.mem_singleton] at new
    exact stored.fresh row here (same.trans new)
  bounded := by
    intro row listed
    rw [insertEntries_rows, stored.append_rows] at listed
    rw [insertEntries_nextRowid]
    rcases List.mem_append.mp listed with old | new
    · exact Nat.lt_succ_of_lt (stored.bounded row old)
    · rw [List.mem_singleton.mp new]
      exact Nat.lt_succ_self _
  indexed := by
    intro index listed key
    rw [mem_insertEntries distinct listed, insertEntries_rows, stored.append_rows]
    refine (or_congr_right (stored.indexed index listed key)).trans ?_
    constructor
    · rintro (rfl | ⟨row, here, rfl⟩)
      · exact ⟨_, List.mem_append_right _ (List.mem_singleton_self _), rfl⟩
      · exact ⟨row, List.mem_append_left _ here, rfl⟩
    · rintro ⟨row, here, rfl⟩
      rcases List.mem_append.mp here with old | new
      · exact .inr ⟨row, old, rfl⟩
      · obtain rfl := List.mem_singleton.mp new
        exact .inl rfl

theorem writeVersion_cases
    (stored : Stored schema trees)
    (distinct : (schema.indexes.map Index.name).Nodup)
    (single :
      ∀ index ∈ schema.indexes, index.unique = true →
        ∃ position, index.columns = [position])
    (txId : Nat)
    (values : Row)
    (oldValues : Option Row) :
    (∃ index ∈ schema.indexes,
        Taken [index] trees.Holds values oldValues ∧
          writeVersion schema txId values oldValues trees =
            .error (.duplicateKey index.name schema.name)) ∨
      (¬ Taken schema.indexes trees.Holds values oldValues ∧
        ∃ next,
          writeVersion schema txId values oldValues trees = .ok next ∧
            Stored schema next ∧
            next.nextRowid = trees.nextRowid + 1 ∧
            next.rows =
              trees.rows ++
                [(trees.nextRowid, { txMin := txId, txMax := 0, values := values })]) := by
  have same (index : Index) :
      checkUnique schema
          (trees.append { txMin := txId, txMax := 0, values := values })
          values oldValues index =
        checkUnique schema trees values oldValues index :=
    checkUnique_congr schema rfl
  rcases indexInsertRowWithOld_cases schema values oldValues trees.nextRowid distinct
      (trees.append { txMin := txId, txMax := 0, values := values }) with
    ⟨index, listed, failure, failed, outcome⟩ | ⟨passed, outcome⟩
  · rw [same] at failed
    cases unique : index.unique with
    | false =>
        rw [checkUnique_plain unique] at failed
        cases failed
    | true =>
        obtain ⟨position, columns⟩ := single index listed unique
        rcases checkUnique_iff stored listed unique columns values oldValues with
          ⟨checked, held, duplicate⟩ | ⟨-, ok⟩
        · refine .inl ⟨index, listed,
            ⟨index, List.mem_singleton_self _, unique, position, columns, checked, held⟩, ?_⟩
          rw [duplicate] at failed
          rw [Except.error.inj failed]
          exact outcome
        · rw [ok] at failed
          cases failed
  · refine .inr ⟨?_, _, outcome,
      stored.insertEntries distinct { txMin := txId, txMax := 0, values := values },
      ?_, ?_⟩
    · rintro ⟨index, listed, unique, position, columns, checked, held⟩
      have ok := (same index).symm.trans (passed index listed)
      rcases checkUnique_iff stored listed unique columns values oldValues with
        ⟨-, -, duplicate⟩ | ⟨free, -⟩
      · rw [duplicate] at ok
        cases ok
      · exact free ⟨checked, held⟩
    · rw [insertEntries_nextRowid]
      rfl
    · rw [insertEntries_rows, stored.append_rows]

end Stored

end PrehniteDB.Constraints
