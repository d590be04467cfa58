import Mathlib.Data.List.Perm.Subperm
import PrehniteDB.CatalogStatements

namespace PrehniteDB.SchemaCodec

open ByteReader (utf8Bytes)
open ReadPaths (ForeignKeyAction ForeignKeyTarget)
open RowCodec (decodeRowWithin)

/-!
# Records that statements put

What a statement reads back from the catalog fits its record, so whether the new
schema fits is decided by the statement alone.
-/

/-! ## Schemas that are read -/

theorem get_fits
    {catalog : Catalog}
    {table : String}
    {schema : Schema}
    (found : catalog.get table = .ok (some schema)) :
    schema.Fits := by
  rw [Catalog.get] at found
  cases looked : catalog.find? fun entry => entry.1 = table with
  | none => rw [looked] at found; cases found
  | some entry =>
      rw [looked] at found
      cases decoded : decodeSchema entry.2 with
      | error error => simp only [decoded, Except.map, reduceCtorEq] at found
      | ok other =>
          simp only [decoded, Except.map, Except.ok.injEq, Option.some.injEq] at found
          exact found ▸ fits_of_decode decoded

theorem requireTable_ok
    {catalog : Catalog}
    {table : String}
    {schema : Schema}
    (required : catalog.requireTable table = .ok schema) :
    catalog.get table = .ok (some schema) := by
  rw [Catalog.requireTable] at required
  cases found : catalog.get table with
  | error error => rw [found] at required; cases required
  | ok answer =>
      rw [found] at required
      cases answer with
      | none => cases required
      | some other =>
          cases required
          rfl

/-! ## Names of tables -/

/-- A name that is a key is far shorter than a name may be. -/
def Catalog.Keyed (catalog : Catalog) : Prop :=
  ∀ entry ∈ catalog, (utf8Bytes entry.1).length ≤ 2027

theorem put_name
    {catalog next : Catalog}
    {schema : Schema}
    (put : catalog.put schema = .ok next) :
    (utf8Bytes schema.name).length ≤ 2027 := by
  simp only [Catalog.put] at put
  split at put
  case isTrue => cases put
  case isFalse short =>
    simp only [MAX_CELL, LEAF_CELL_OVERHEAD] at short
    omega

theorem mem_insertEntry
    {catalog : Catalog}
    {name : String}
    {record : List UInt8}
    {entry : String × List UInt8}
    (member : entry ∈ catalog.insertEntry name record) :
    entry = (name, record) ∨ entry ∈ catalog := by
  induction catalog with
  | nil => exact Or.inl (List.mem_singleton.mp member)
  | cons head rest inductionHypothesis =>
      rw [Catalog.insertEntry] at member
      split at member
      · exact List.mem_cons.mp member
      · exact (List.mem_cons.mp member).imp_right (List.mem_cons_of_mem _)
      · rcases List.mem_cons.mp member with rfl | deeper
        · exact Or.inr List.mem_cons_self
        · exact (inductionHypothesis deeper).imp_right (List.mem_cons_of_mem _)

theorem put_keyed
    {catalog next : Catalog}
    {schema : Schema}
    (keyed : catalog.Keyed)
    (put : catalog.put schema = .ok next) :
    next.Keyed := by
  have short := put_name put
  simp only [Catalog.put] at put
  split at put
  case isTrue => cases put
  case isFalse =>
    cases put
    intro entry member
    rcases mem_insertEntry member with rfl | old
    · exact short
    · exact keyed entry old

theorem Run.keyed
    {steps : List Step}
    {catalog : Catalog}
    (run : Run steps catalog) :
    catalog.Keyed := by
  induction run with
  | start => exact nofun
  | step _ _ put inductionHypothesis => exact put_keyed inductionHypothesis put

theorem Catalog.Keyed.named
    {catalog : Catalog}
    {table : String}
    {schema : Schema}
    (keyed : catalog.Keyed)
    (found : catalog.get table = .ok (some schema)) :
    Named table := by
  rw [Catalog.get] at found
  cases looked : catalog.find? fun entry => entry.1 = table with
  | none => rw [looked] at found; cases found
  | some entry =>
      have same : entry.1 = table := by simpa using List.find?_some looked
      have short := keyed entry (List.mem_of_find?_eq_some looked)
      rw [same] at short
      exact Nat.lt_of_le_of_lt short (by decide)

/-! ## CREATE TABLE -/

/-- What each step of a fold keeps holds of the whole fold. -/
theorem foldlM_ok
    {State Item : Type}
    {advance : State → Item → Except Error State}
    {holds : List Item → State → Prop}
    (step :
      ∀ done state item next,
        holds done state → advance state item = .ok next → holds (done ++ [item]) next)
    {items done : List Item}
    {state final : State}
    (held : holds done state)
    (folded : items.foldlM advance state = .ok final) :
    holds (done ++ items) final := by
  induction items generalizing done state with
  | nil =>
      cases folded
      rwa [List.append_nil]
  | cons item rest inductionHypothesis =>
      rw [List.foldlM_cons] at folded
      cases advanced : advance state item with
      | error error => rw [advanced] at folded; cases folded
      | ok next =>
          rw [advanced] at folded
          have later := inductionHypothesis (step done state item next held advanced) folded
          rwa [List.append_assoc, List.singleton_append] at later

/-- The constraints read so far. -/
structure Lowers
    (primaryKeyColumn : Option Nat)
    (done : List ColumnConstraint)
    (lowered : Lowered) : Prop where
  primaryKey : lowered.isPrimaryKey = done.contains .primaryKey
  unique : lowered.isUnique = done.contains .unique
  only : lowered.isPrimaryKey = true → primaryKeyColumn = none
  foreignKey : ∀ target, lowered.foreignKey = some target → ForeignKeyTarget.Fits target

/-- The parent of a foreign key has the column, and unique. -/
theorem referencedTarget_ok
    {catalog : Catalog}
    {column : ColumnDef}
    {parentTable parentColumn : String}
    {onDelete : ForeignKeyAction}
    {target : ForeignKeyTarget}
    (referenced : referencedTarget catalog column parentTable parentColumn onDelete = .ok target) :
    target = { table := parentTable, column := parentColumn, onDelete } ∧
      ∃ parent position,
        catalog.get parentTable = .ok (some parent) ∧
          parent.columnIndex? parentColumn = some position ∧
          (parent.primaryKeyColumn = some position ∨
            ∃ index ∈ parent.indexes, index.unique = true ∧ index.columns = [position]) := by
  rw [referencedTarget] at referenced
  cases found : catalog.get parentTable with
  | error error => rw [found] at referenced; cases referenced
  | ok answer =>
      rw [found] at referenced
      cases answer with
      | none => cases referenced
      | some parent =>
          simp only [bind, Except.bind] at referenced
          cases placed : parent.columnIndex? parentColumn with
          | none => rw [placed] at referenced; cases referenced
          | some position =>
              rw [placed] at referenced
              simp only [] at referenced
              split at referenced
              · cases referenced
              · split at referenced
                · cases referenced
                · next isUnique =>
                    cases referenced
                    refine ⟨rfl, parent, position, rfl, placed, or_iff_not_imp_left.mpr ?_⟩
                    simpa using isUnique

theorem referencedTarget_fits
    {catalog : Catalog}
    {column : ColumnDef}
    {parentTable parentColumn : String}
    {onDelete : ForeignKeyAction}
    {target : ForeignKeyTarget}
    (keyed : catalog.Keyed)
    (referenced : referencedTarget catalog column parentTable parentColumn onDelete = .ok target) :
    ForeignKeyTarget.Fits target := by
  obtain ⟨rfl, parent, position, found, placed, _⟩ := referencedTarget_ok referenced
  refine ⟨keyed.named found, ?_⟩
  obtain ⟨bound, equal, _⟩ := List.findIdx?_eq_some_iff_getElem.mp placed
  have same : parent.columns[position].name = parentColumn := of_decide_eq_true equal
  exact same ▸ ((get_fits found).columns _ (List.getElem_mem bound)).name

theorem lowerConstraint_ok
    {catalog : Catalog}
    {name : String}
    {column : ColumnDef}
    {primaryKeyColumn : Option Nat}
    {done : List ColumnConstraint}
    {constraint : ColumnConstraint}
    {lowered next : Lowered}
    (keyed : catalog.Keyed)
    (lowers : Lowers primaryKeyColumn done lowered)
    (accepted :
      lowerConstraint catalog name column primaryKeyColumn lowered constraint = .ok next) :
    Lowers primaryKeyColumn (done ++ [constraint]) next := by
  obtain ⟨primaryKey, unique, only, foreignKey⟩ := lowers
  cases constraint with
  | primaryKey =>
      simp only [lowerConstraint] at accepted
      split at accepted
      case isTrue => cases accepted
      case isFalse first =>
        cases accepted
        exact ⟨by simp, by simp [unique], fun _ => Option.not_isSome_iff_eq_none.mp first,
          foreignKey⟩
  | notNull =>
      cases accepted
      exact ⟨by simp [primaryKey], by simp [unique], only, foreignKey⟩
  | unique =>
      cases accepted
      exact ⟨by simp [primaryKey], by simp, only, foreignKey⟩
  | references table parentColumn onDelete =>
      simp only [lowerConstraint] at accepted
      split at accepted
      case isTrue => cases accepted
      case isFalse =>
        cases referenced : referencedTarget catalog column table parentColumn onDelete with
        | error error => rw [referenced] at accepted; cases accepted
        | ok target =>
            rw [referenced] at accepted
            cases accepted
            refine ⟨by simp [primaryKey], by simp [unique], only, ?_⟩
            rintro other ⟨rfl⟩
            exact referencedTarget_fits keyed referenced

/-- The columns lowered so far. -/
structure Plans (done : List ColumnDef) (plan : TablePlan) : Prop where
  names : plan.columns.map Column.name = done.map ColumnDef.name
  stats : ∀ column ∈ plan.columns, column.stats = none
  foreignKeys :
    ∀ column ∈ plan.columns, ∀ target, column.foreignKey = some target → ForeignKeyTarget.Fits target
  primaryKey : ∀ position, plan.primaryKeyColumn = some position → position < plan.columns.length
  unique :
    ∀ position, position ∈ plan.uniqueColumns ↔
      ∃ column, done[position]? = some column ∧ column.wantsUniqueIndex = true
  indexCount :
    plan.primaryKeyColumn.toList.length + plan.uniqueColumns.length ≤ plan.columns.length

theorem Plans.length
    {done : List ColumnDef}
    {plan : TablePlan}
    (plans : Plans done plan) :
    plan.columns.length = done.length := by
  have lengths := congrArg List.length plans.names
  rwa [List.length_map, List.length_map] at lengths

theorem Plans.mem_unique_lt
    {done : List ColumnDef}
    {plan : TablePlan}
    (plans : Plans done plan)
    {position : Nat}
    (member : position ∈ plan.uniqueColumns) :
    position < done.length := by
  obtain ⟨column, found, _⟩ := (plans.unique position).mp member
  exact (List.getElem?_eq_some_iff.mp found).1

theorem Plans.append
    {done : List ColumnDef}
    {column : ColumnDef}
    {plan : TablePlan}
    {lowered : Lowered}
    (plans : Plans done plan)
    (lowers : Lowers plan.primaryKeyColumn column.constraints lowered) :
    Plans (done ++ [column])
      { columns := plan.columns ++ [{
          name := column.name
          type := column.type
          notNull := lowered.isNotNull
          foreignKey := lowered.foreignKey
          stats := none }]
        primaryKeyColumn :=
          if lowered.isPrimaryKey then some plan.columns.length else plan.primaryKeyColumn
        uniqueColumns :=
          if !lowered.isPrimaryKey && lowered.isUnique then
            plan.uniqueColumns ++ [plan.columns.length]
          else plan.uniqueColumns } where
  names := by simp [plans.names]
  stats := by
    intro other member
    rcases List.mem_append.mp member with old | new
    · exact plans.stats other old
    · rw [List.mem_singleton.mp new]
  foreignKeys := by
    intro other member
    rcases List.mem_append.mp member with old | new
    · exact plans.foreignKeys other old
    · rw [List.mem_singleton.mp new]
      exact lowers.foreignKey
  primaryKey := by
    intro position named
    simp only [List.length_append, List.length_singleton]
    split at named
    · cases named
      exact Nat.lt_succ_self _
    · exact Nat.lt_succ_of_lt (plans.primaryKey position named)
  unique := by
    intro position
    have wants : (!lowered.isPrimaryKey && lowered.isUnique) = column.wantsUniqueIndex := by
      rw [lowers.primaryKey, lowers.unique, ColumnDef.wantsUniqueIndex, Bool.and_comm]
    have old := plans.unique position
    have below := @Plans.mem_unique_lt _ _ plans position
    have entered :
        (position ∈ if column.wantsUniqueIndex then plan.uniqueColumns ++ [plan.columns.length]
          else plan.uniqueColumns) ↔
        position ∈ plan.uniqueColumns ∨
          position = done.length ∧ column.wantsUniqueIndex = true := by
      rw [plans.length]
      split <;> simp [*]
    rw [wants, entered]
    rcases Nat.lt_trichotomy position done.length with before | rfl | behind
    · rw [List.getElem?_append_left before, ← old]
      simp [Nat.ne_of_lt before]
    · have new : done.length ∉ plan.uniqueColumns := fun member => Nat.lt_irrefl _ (below member)
      simp [new]
    · have missing : (done ++ [column])[position]? = none := by
        rw [List.getElem?_eq_none_iff, List.length_append, List.length_singleton]
        exact behind
      have outside : position ∉ plan.uniqueColumns := fun member =>
        Nat.lt_asymm behind (below member)
      simp [missing, outside, Nat.ne_of_gt behind]
  indexCount := by
    have counted := plans.indexCount
    have only := lowers.only
    cases primary : lowered.isPrimaryKey with
    | true =>
        rw [only primary] at counted
        simp only [if_true, Bool.not_true, Bool.false_and, Bool.false_eq_true, if_false,
          Option.toList_some, List.length_append, List.length_singleton]
        omega
    | false =>
        simp only [Bool.false_eq_true, if_false, Bool.not_false, Bool.true_and,
          List.length_append, List.length_singleton]
        split
        · rw [List.length_append, List.length_singleton]
          omega
        · omega

theorem lowerColumn_ok
    {catalog : Catalog}
    {name : String}
    {done : List ColumnDef}
    {column : ColumnDef}
    {plan next : TablePlan}
    (keyed : catalog.Keyed)
    (plans : Plans done plan)
    (accepted : lowerColumn catalog name plan column = .ok next) :
    Plans (done ++ [column]) next := by
  simp only [lowerColumn] at accepted
  split at accepted
  case isTrue => cases accepted
  case isFalse =>
    cases folded : column.constraints.foldlM
        (lowerConstraint catalog name column plan.primaryKeyColumn)
        { isPrimaryKey := false, isUnique := false, isNotNull := false, foreignKey := none } with
    | error error =>
        rw [folded] at accepted
        cases accepted
    | ok lowered =>
        rw [folded] at accepted
        cases accepted
        have nothing :
            Lowers plan.primaryKeyColumn []
              { isPrimaryKey := false, isUnique := false, isNotNull := false,
                foreignKey := none } :=
          ⟨rfl, rfl, by simp, by simp⟩
        have lowers : Lowers plan.primaryKeyColumn ([] ++ column.constraints) lowered :=
          foldlM_ok (fun _ _ _ _ held stepped => lowerConstraint_ok keyed held stepped)
            nothing folded
        exact plans.append lowers

theorem planCreateTable_ok
    {catalog : Catalog}
    {name : String}
    {columns : List ColumnDef}
    {plan : TablePlan}
    (keyed : catalog.Keyed)
    (planned : planCreateTable catalog name columns = .ok plan) :
    Plans columns plan := by
  have nothing :
      Plans [] { columns := [], primaryKeyColumn := none, uniqueColumns := [] } :=
    ⟨rfl, by simp, by simp, by simp, by simp, by simp⟩
  have plans : Plans ([] ++ columns) plan :=
    foldlM_ok (fun _ _ _ _ held stepped => lowerColumn_ok keyed held stepped) nothing planned
  exact plans

theorem constraintIndex_fits_iff
    {name : String}
    {position : Nat}
    (root : UInt32)
    (below : position < 2 ^ 16) :
    (constraintIndex name position root).Fits ↔ Named name :=
  ⟨Index.Fits.name, fun named => ⟨named, by simp [constraintIndex], by simpa [constraintIndex]⟩⟩

theorem primaryKeyIndexName_named
    {table : String}
    (short : (utf8Bytes table).length ≤ 2027) :
    Named (primaryKeyIndexName table) := by
  have known : (utf8Bytes "_pk_").length = 4 := rfl
  rw [Named, primaryKeyIndexName, ByteReader.utf8Bytes_append, List.length_append, known]
  omega

theorem Plans.columnName
    {done : List ColumnDef}
    {plan : TablePlan}
    (plans : Plans done plan)
    {position : Nat}
    {column : ColumnDef}
    (found : done[position]? = some column) :
    (plan.columns.map Column.name).getD position "" = column.name := by
  rw [plans.names, List.getD_eq_getElem?_getD, List.getElem?_map, found]
  rfl

theorem Plans.mem_uniqueIndexes
    {done : List ColumnDef}
    {plan : TablePlan}
    (plans : Plans done plan)
    {name : String}
    {roots : Nat → UInt32}
    {first : Nat}
    {index : Index}
    (member : index ∈ uniqueIndexes name plan roots first) :
    ∃ position root, ∃ column ∈ done,
      position < done.length ∧ column.wantsUniqueIndex = true ∧
        index = constraintIndex (uniqueIndexName name column.name) position root := by
  obtain ⟨⟨position, number⟩, entry, rfl⟩ := List.mem_map.mp member
  have listed := (List.mem_zipIdx' entry).2 ▸ List.getElem_mem _
  obtain ⟨column, found, wants⟩ := (plans.unique position).mp listed
  refine ⟨position, roots (first + number), column, List.mem_of_getElem? found,
    plans.mem_unique_lt listed, wants, ?_⟩
  simp only [plans.columnName found]

theorem Plans.uniqueIndex_mem
    {done : List ColumnDef}
    {plan : TablePlan}
    (plans : Plans done plan)
    (name : String)
    (roots : Nat → UInt32)
    (first : Nat)
    {column : ColumnDef}
    (member : column ∈ done)
    (wants : column.wantsUniqueIndex = true) :
    ∃ position root,
      constraintIndex (uniqueIndexName name column.name) position root ∈
        uniqueIndexes name plan roots first := by
  obtain ⟨position, found⟩ := List.mem_iff_getElem?.mp member
  have listed := (plans.unique position).mpr ⟨column, found, wants⟩
  obtain ⟨number, bound, rfl⟩ := List.mem_iff_getElem.mp listed
  have entry : (plan.uniqueColumns[number], number) ∈ plan.uniqueColumns.zipIdx :=
    List.mem_zipIdx_iff_getElem?.mpr (List.getElem?_eq_getElem bound)
  refine ⟨plan.uniqueColumns[number], roots (first + number),
    List.mem_map.mpr ⟨_, entry, ?_⟩⟩
  simp only [plans.columnName found]

theorem createTable_ok
    {catalog : Catalog}
    {name : String}
    {plan : TablePlan}
    {roots : Nat → UInt32}
    {schema : Schema}
    (created : createTable catalog name plan roots = .ok schema) :
    ∃ primary,
      primary = (plan.primaryKeyColumn.toList.map fun position =>
        constraintIndex (primaryKeyIndexName name) position (roots 1)) ∧
      schema = {
        name
        columns := plan.columns
        root := roots 0
        nextRowid := 1
        rowCount := 0
        indexes := primary ++ uniqueIndexes name plan roots (1 + primary.length)
        primaryKeyColumn := plan.primaryKeyColumn
        mutationsSinceAnalyze := 0 } := by
  rw [createTable] at created
  cases found : catalog.get name with
  | error error => rw [found] at created; cases created
  | ok answer =>
      rw [found] at created
      cases answer with
      | some other => cases created
      | none =>
          cases created
          exact ⟨_, rfl, rfl⟩

/-- Only names and the number of columns can be too long. -/
theorem createTable_fits_iff
    {catalog : Catalog}
    {name : String}
    {columns : List ColumnDef}
    {plan : TablePlan}
    {roots : Nat → UInt32}
    {schema : Schema}
    (short : (utf8Bytes name).length ≤ 2027)
    (plans : Plans columns plan)
    (created : createTable catalog name plan roots = .ok schema) :
    schema.Fits ↔
      columns.length < 2 ^ 16 ∧
        ∀ column ∈ columns,
          Named column.name ∧
            (column.wantsUniqueIndex = true → Named (uniqueIndexName name column.name)) := by
  obtain ⟨primary, rfl, rfl⟩ := createTable_ok created
  have length := plans.length
  constructor
  · intro fits
    refine ⟨length ▸ fits.columnCount, fun column member => ⟨?_, fun wants => ?_⟩⟩
    · have listed : column.name ∈ plan.columns.map Column.name := by
        rw [plans.names]
        exact List.mem_map_of_mem member
      obtain ⟨lowered, inside, same⟩ := List.mem_map.mp listed
      exact same ▸ (fits.columns lowered inside).name
    · obtain ⟨position, root, listed⟩ := plans.uniqueIndex_mem name roots _ member wants
      exact (fits.indexes _ (List.mem_append_right _ listed)).name
  · rintro ⟨columnCount, each⟩
    have below {position : Nat} (inside : position < columns.length) : position < 2 ^ 16 :=
      Nat.lt_trans inside columnCount
    refine ⟨Nat.lt_of_le_of_lt short (by decide), length ▸ columnCount, ?_, ?_, ?_, ?_⟩
    · intro column member
      have listed : column.name ∈ columns.map ColumnDef.name := by
        rw [← plans.names]
        exact List.mem_map_of_mem member
      obtain ⟨written, inside, same⟩ := List.mem_map.mp listed
      refine ⟨same ▸ (each written inside).1, plans.foreignKeys column member, ?_⟩
      rw [plans.stats column member]
      exact nofun
    · have counted := plans.indexCount
      simp only [List.length_append, List.length_map, uniqueIndexes, List.length_zipIdx]
      omega
    · intro index member
      rcases List.mem_append.mp member with primary | unique
      · obtain ⟨position, named, rfl⟩ := List.mem_map.mp primary
        have inside := plans.primaryKey position (Option.mem_toList.mp named)
        exact (constraintIndex_fits_iff _ (below (length ▸ inside))).mpr
          (primaryKeyIndexName_named short)
      · obtain ⟨position, root, column, inside, bound, wants, rfl⟩ :=
          plans.mem_uniqueIndexes unique
        exact (constraintIndex_fits_iff _ (below bound)).mpr ((each column inside).2 wants)
    · intro position named
      have inside := plans.primaryKey position named
      omega

/-! ## CREATE INDEX -/

theorem columnIndex_lt
    {schema : Schema}
    {name : String}
    {position : Nat}
    (resolved : columnIndex schema name = .ok position) :
    position < schema.columns.length := by
  rw [columnIndex] at resolved
  cases found : schema.columnIndex? name with
  | none => rw [found] at resolved; cases resolved
  | some other =>
      rw [found] at resolved
      cases resolved
      exact (List.findIdx?_eq_some_iff_getElem.mp found).1

theorem resolveColumn_ok
    {schema : Schema}
    {indexName name : String}
    {columns next : List Nat}
    (held : columns.Nodup ∧ ∀ position ∈ columns, position < schema.columns.length)
    (accepted : resolveColumn schema indexName columns name = .ok next) :
    next.Nodup ∧ ∀ position ∈ next, position < schema.columns.length := by
  obtain ⟨distinct, bounded⟩ := held
  rw [resolveColumn] at accepted
  cases resolved : columnIndex schema name with
  | error error => rw [resolved] at accepted; cases accepted
  | ok column =>
      simp only [resolved, bind, Except.bind] at accepted
      split at accepted
      case isTrue => cases accepted
      case isFalse new =>
        cases accepted
        have outside : column ∉ columns := by simpa using new
        constructor
        · refine List.nodup_append.mpr ⟨distinct, List.nodup_singleton _, ?_⟩
          intro position member other listed same
          rw [List.mem_singleton.mp listed] at same
          exact outside (same ▸ member)
        · intro position member
          rcases List.mem_append.mp member with old | last
          · exact bounded position old
          · exact List.mem_singleton.mp last ▸ columnIndex_lt resolved

theorem resolveColumns_ok
    {schema : Schema}
    {indexName : String}
    {columnNames : List String}
    {columns : List Nat}
    (folded : columnNames.foldlM (resolveColumn schema indexName) [] = .ok columns) :
    columns.Nodup ∧ ∀ position ∈ columns, position < schema.columns.length :=
  @foldlM_ok _ _ _
    (fun _ columns => columns.Nodup ∧ ∀ position ∈ columns, position < schema.columns.length)
    (fun _ _ _ _ held stepped => resolveColumn_ok held stepped) columnNames [] [] columns
    ⟨List.nodup_nil, by simp⟩ folded

theorem length_le_of_bounded
    {columns : List Nat}
    {count : Nat}
    (distinct : columns.Nodup)
    (bounded : ∀ position ∈ columns, position < count) :
    columns.length ≤ count := by
  have inside : columns ⊆ List.range count := fun position member =>
    List.mem_range.mpr (bounded position member)
  simpa using (distinct.subperm inside).length_le

theorem createIndexPhase1_ok
    {catalog : Catalog}
    {name table : String}
    {columnNames : List String}
    {root : UInt32}
    {schema : Schema}
    (created : createIndexPhase1 catalog name table columnNames root = .ok schema) :
    ∃ before columns,
      catalog.get table = .ok (some before) ∧
        columnNames.foldlM (resolveColumn before name) [] = .ok columns ∧
        schema = { before with
          indexes := before.indexes ++
            [{ name, columns, root, unique := false, isBuilding := true }] } := by
  rw [createIndexPhase1] at created
  cases required : catalog.requireTable table with
  | error error => rw [required] at created; cases created
  | ok before =>
      simp only [required, bind, Except.bind] at created
      cases folded : columnNames.foldlM (resolveColumn before name) [] with
      | error error => rw [folded] at created; cases created
      | ok columns =>
          simp only [folded] at created
          cases listed : catalog.tableWithIndex name with
          | error error => rw [listed] at created; cases created
          | ok answer =>
              simp only [listed] at created
              split at created
              case isTrue => cases created
              case isFalse =>
                cases created
                exact ⟨before, columns, requireTable_ok required, folded, rfl⟩

/-- Only the name and the number of indexes can be too long. -/
theorem createIndexPhase1_fits_iff
    {catalog : Catalog}
    {name table : String}
    {columnNames : List String}
    {root : UInt32}
    {schema : Schema}
    (created : createIndexPhase1 catalog name table columnNames root = .ok schema) :
    schema.Fits ↔
      Named name ∧
        ∀ found, catalog.get table = .ok (some found) → found.indexes.length + 1 < 2 ^ 16 := by
  obtain ⟨before, columns, found, folded, rfl⟩ := createIndexPhase1_ok created
  have old := get_fits found
  have resolved := resolveColumns_ok folded
  have few := length_le_of_bounded resolved.1 resolved.2
  constructor
  · intro fits
    refine ⟨(fits.indexes _ (List.mem_append_right _ List.mem_cons_self)).name, ?_⟩
    intro other same
    have counted := fits.indexCount
    rw [List.length_append, List.length_singleton] at counted
    rw [found] at same
    cases same
    exact counted
  · rintro ⟨named, room⟩
    refine { old with indexCount := ?_, indexes := ?_ }
    · rw [List.length_append, List.length_singleton]
      exact room before found
    · intro index member
      rcases List.mem_append.mp member with kept | new
      · exact old.indexes index kept
      · rw [List.mem_singleton.mp new]
        refine ⟨named, Nat.lt_of_le_of_lt few old.columnCount, ?_⟩
        intro position inside
        exact Nat.lt_trans (resolved.2 position inside) old.columnCount

theorem createIndexPhase3_ok
    {catalog : Catalog}
    {name table : String}
    {schema : Schema}
    (created : createIndexPhase3 catalog name table = .ok schema) :
    ∃ before position,
      catalog.get table = .ok (some before) ∧
        schema = { before with
          indexes := before.indexes.modify position fun index =>
            { index with isBuilding := false } } := by
  rw [createIndexPhase3] at created
  cases required : catalog.requireTable table with
  | error error => rw [required] at created; cases created
  | ok before =>
      simp only [required, bind, Except.bind] at created
      cases placed : before.indexes.findIdx? fun index => index.name = name with
      | none => rw [placed] at created; cases created
      | some position =>
          rw [placed] at created
          cases created
          exact ⟨before, position, requireTable_ok required, rfl⟩

theorem createIndexPhase3_fits
    {catalog : Catalog}
    {name table : String}
    {schema : Schema}
    (created : createIndexPhase3 catalog name table = .ok schema) :
    schema.Fits := by
  obtain ⟨before, position, found, rfl⟩ := createIndexPhase3_ok created
  have old := get_fits found
  refine { old with indexCount := ?_, indexes := ?_ }
  · rw [List.length_modify]
    exact old.indexCount
  · intro index member
    obtain ⟨number, bound, rfl⟩ := List.mem_iff_getElem.mp member
    rw [List.length_modify] at bound
    rw [List.getElem_modify]
    have kept := old.indexes _ (List.getElem_mem bound)
    split
    · exact ⟨kept.name, kept.columns, kept.positions⟩
    · exact kept

/-! ## ANALYZE -/

theorem cutBuckets_length
    {perBucket count : Nat}
    {values : List Value}
    (positive : 0 < perBucket)
    (room : values.length ≤ count * perBucket) :
    (cutBuckets perBucket values).length ≤ count := by
  induction count generalizing values with
  | zero =>
      rw [Nat.zero_mul, Nat.le_zero] at room
      rw [List.length_eq_zero_iff.mp room, cutBuckets]
      exact Nat.le_refl 0
  | succ count inductionHypothesis =>
      cases values with
      | nil => simp [cutBuckets]
      | cons lower rest =>
          rw [cutBuckets, List.length_cons]
          refine Nat.succ_le_succ (inductionHypothesis ?_)
          rw [Nat.succ_mul, List.length_cons] at room
          rw [List.length_drop]
          omega

theorem buildEquiDepth_length (sorted : List Value) :
    (buildEquiDepth sorted BUCKETS).length ≤ BUCKETS := by
  cases sorted with
  | nil => exact Nat.zero_le _
  | cons lower rest =>
      refine cutBuckets_length ?_ ?_
      · simp only [BUCKETS, List.length_cons]
        omega
      · simp only [BUCKETS, List.length_cons]
        omega

theorem analyzeTable_ok
    {catalog : Catalog}
    {table : String}
    {rows : List (List UInt8)}
    {schema : Schema}
    (analyzed : analyzeTable catalog table rows = .ok schema) :
    ∃ before records,
      catalog.get table = .ok (some before) ∧
        rows.mapM (fun row => decodeRowWithin row before.columns.length) = .ok records ∧
        schema = { before with
          columns := before.columns.mapIdx fun position column =>
            { column with stats := some (columnStats records position) }
          mutationsSinceAnalyze := 0 } := by
  rw [analyzeTable] at analyzed
  cases required : catalog.requireTable table with
  | error error => rw [required] at analyzed; cases analyzed
  | ok before =>
      simp only [required, bind, Except.bind] at analyzed
      cases decoded : rows.mapM fun row => decodeRowWithin row before.columns.length with
      | error error => rw [decoded] at analyzed; cases analyzed
      | ok records =>
          rw [decoded] at analyzed
          cases analyzed
          exact ⟨before, records, requireTable_ok required, decoded, rfl⟩

/-- Only a bound of a histogram can be too long. -/
theorem analyzeTable_fits_iff
    {catalog : Catalog}
    {table : String}
    {rows : List (List UInt8)}
    {schema : Schema}
    (analyzed : analyzeTable catalog table rows = .ok schema) :
    schema.Fits ↔ (Action.analyze table rows).Modest catalog := by
  obtain ⟨before, records, found, decoded, rfl⟩ := analyzeTable_ok analyzed
  have old := get_fits found
  constructor
  · intro fits others other same read position below bucket member
    rw [found] at same
    cases same
    rw [decoded] at read
    cases read
    have inside : position < (before.columns.mapIdx fun position column =>
        { column with stats := some (columnStats records position) }).length := by
      rwa [List.length_mapIdx]
    have column := fits.columns _ (List.getElem_mem inside)
    rw [List.getElem_mapIdx] at column
    exact (column.stats _ rfl).bounds bucket member
  · intro modest
    refine { old with columnCount := ?_, columns := ?_ }
    · rw [List.length_mapIdx]
      exact old.columnCount
    · intro column member
      obtain ⟨position, bound, rfl⟩ := List.mem_iff_getElem.mp member
      rw [List.length_mapIdx] at bound
      rw [List.getElem_mapIdx]
      have kept := old.columns _ (List.getElem_mem bound)
      refine ⟨kept.name, kept.foreignKey, ?_⟩
      rintro stats ⟨rfl⟩
      have buckets := buildEquiDepth_length (sortedValues records position)
      exact ⟨Nat.lt_of_le_of_lt buckets (by decide),
        modest before records found decoded position bound⟩

/-! ## Whole runs -/

/-- What an accepted action puts fits exactly when the action is modest. -/
theorem put_fits_iff
    {catalog next : Catalog}
    {action : Action}
    {schema : Schema}
    (keyed : catalog.Keyed)
    (accepted : action.schema catalog = .ok schema)
    (put : catalog.put schema = .ok next) :
    schema.Fits ↔ action.Modest catalog := by
  cases action with
  | createTable name columns roots =>
      simp only [Action.schema] at accepted
      cases planned : planCreateTable catalog name columns with
      | error error => rw [planned] at accepted; cases accepted
      | ok plan =>
          rw [planned] at accepted
          have short := put_name put
          have same : schema.name = name := by
            obtain ⟨_, _, rfl⟩ := createTable_ok accepted
            rfl
          rw [same] at short
          exact createTable_fits_iff short (planCreateTable_ok keyed planned) accepted
  | createIndexPhase1 name table columns root => exact createIndexPhase1_fits_iff accepted
  | createIndexPhase3 name table =>
      exact iff_of_true (createIndexPhase3_fits accepted) trivial
  | analyze table rows => exact analyzeTable_fits_iff accepted

/--
Whatever the accepted statements before it, the record that a statement puts is
read back as its schema exactly when no name, no count and no bound of a
histogram in it is too long for its field.
-/
theorem catalog_record_round_trips_iff
    {steps : List Step}
    {catalog : Catalog}
    (run : Run steps catalog) :
    ∀ step ∈ steps,
      decodeSchema (encodeSchema step.schema) = .ok step.schema ↔
        step.action.Modest step.catalog := by
  induction run with
  | start => exact nofun
  | step run accepted put inductionHypothesis =>
      refine List.forall_mem_cons.mpr ⟨?_, inductionHypothesis⟩
      exact (decode_encode_iff _).trans (put_fits_iff run.keyed accepted put)

/-! ## A table that references another, and an index built on it -/

def createOwners : Action :=
  .createTable "owners" [⟨"id", .int, [.primaryKey]⟩] fun position => 5 + UInt32.ofNat position

def createTags : Action :=
  .createTable "tags"
    [⟨"tag", .text, [.unique]⟩, ⟨"owner", .int, [.references "owners" "id" .cascade]⟩]
    fun position => 7 + UInt32.ofNat position

def owners : Schema where
  name := "owners"
  columns := [⟨"id", .int, true, none, none⟩]
  root := 5
  nextRowid := 1
  rowCount := 0
  indexes := [constraintIndex (primaryKeyIndexName "owners") 0 6]
  primaryKeyColumn := some 0
  mutationsSinceAnalyze := 0

def tags (indexes : List Index) : Schema where
  name := "tags"
  columns :=
    [⟨"tag", .text, false, none, none⟩,
      ⟨"owner", .int, false, some ⟨"owners", "id", .cascade⟩, none⟩]
  root := 7
  nextRowid := 1
  rowCount := 0
  indexes := constraintIndex (uniqueIndexName "tags" "tag") 0 8 :: indexes
  primaryKeyColumn := none
  mutationsSinceAnalyze := 0

def byOwner (isBuilding : Bool) : Index where
  name := "by_owner"
  columns := [1]
  root := 9
  unique := false
  isBuilding := isBuilding

def catalogOf (schemas : List Schema) : Catalog :=
  schemas.map fun schema => (schema.name, encodeSchema schema)

/-- The four puts, the last one first; each statement reads what the earlier ones have put. -/
def taggedOwners : List Step :=
  [⟨catalogOf [owners, tags [byOwner true]], .createIndexPhase3 "by_owner" "tags",
      tags [byOwner false]⟩,
    ⟨catalogOf [owners, tags []], .createIndexPhase1 "by_owner" "tags" ["owner"] 9,
      tags [byOwner true]⟩,
    ⟨catalogOf [owners], createTags, tags []⟩,
    ⟨[], createOwners, owners⟩]

/-- A table, one that references it, and an index built on the second. -/
theorem tagged_owners_round_trip :
    Run taggedOwners (catalogOf [owners, tags [byOwner false]]) ∧
      ∀ step ∈ taggedOwners,
        decodeSchema (encodeSchema step.schema) = .ok step.schema := by
  have run : Run taggedOwners (catalogOf [owners, tags [byOwner false]]) :=
    .step (.step (.step (.step .start (by decide +kernel) (by decide +kernel))
      (by decide +kernel) (by decide +kernel)) (by decide +kernel) (by decide +kernel))
      (by decide +kernel) (by decide +kernel)
  refine ⟨run, fun step member =>
    (catalog_record_round_trips_iff run step member).mpr ?_⟩
  simp only [taggedOwners, List.mem_cons, List.not_mem_nil, or_false] at member
  rcases member with rfl | rfl | rfl | rfl
  case inl => trivial
  case inr.inl =>
    have stored : (catalogOf [owners, tags []]).get "tags" = .ok (some (tags [])) := by
      decide +kernel
    refine ⟨by decide +kernel, fun schema found => ?_⟩
    obtain rfl := Option.some.inj (Except.ok.inj (stored.symm.trans found))
    decide
  all_goals exact ⟨by decide, by decide +kernel⟩

theorem column_name_lost {name : String} (long : ¬ Named name) :
    ∃ steps catalog, ∃ step ∈ steps,
      Run steps catalog ∧
        step.action = .createTable "t" [⟨name, .int, []⟩] (fun _ => 5) ∧
          decodeSchema (encodeSchema step.schema) ≠ .ok step.schema := by
  refine ⟨_, _, _, List.mem_cons_self, .step .start rfl rfl, rfl, fun read => long ?_⟩
  exact (((decode_encode_iff _).mp read).columns _ List.mem_cons_self).name

/-- `CREATE TABLE t (aa… INT)` with a name of 65536 letters is accepted. -/
theorem long_column_name_lost :
    ∃ steps catalog, ∃ step ∈ steps,
      Run steps catalog ∧
        step.action = .createTable "t" [⟨String.ofList (List.replicate 65536 'a'), .int, []⟩]
          (fun _ => 5) ∧
          decodeSchema (encodeSchema step.schema) ≠ .ok step.schema :=
  column_name_lost fun named => by
    rw [Named, ByteReader.length_utf8Bytes_replicate] at named
    exact absurd named (by decide)

end PrehniteDB.SchemaCodec
