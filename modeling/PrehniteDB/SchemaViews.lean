import PrehniteDB.AccessPaths
import PrehniteDB.CatalogRecords
import PrehniteDB.Constraints
import PrehniteDB.PreparedPlans
import PrehniteDB.RowidCounter
import PrehniteDB.SchemaWriteBack
import PrehniteDB.UniqueWriters

namespace PrehniteDB.SchemaCodec

/-!
# What each part reads of a schema

The catalog stores one schema for each table.  The planner, the constraints, the
writers and the catalog's own interleavings each keep the fields they read;
these are their views, and what the views share agrees.
-/

/-! ## The views -/

/-- What the choice of an access path reads. -/
def Schema.accessed (schema : Schema) : AccessPaths.Schema where
  columns := schema.columns.map fun column => { name := column.name, type := column.type }
  indexes := schema.indexes.map fun index =>
    { columns := index.columns, root := index.root, isBuilding := index.isBuilding }

/-- What a prepared plan is made from, each page numbered by the creation of its tree. -/
def Schema.planned (schema : Schema) (serials : UInt32 → Nat) : PreparedPlans.Schema where
  root := { page := schema.root, serial := serials schema.root }
  indexes := schema.indexes.map fun index =>
    { name := index.name
      columns := index.columns
      root := { page := index.root, serial := serials index.root }
      isBuilding := index.isBuilding }

def Index.constrained (index : Index) : Constraints.Index where
  name := index.name
  columns := index.columns
  unique := index.unique

/-- What the constraint checks read. -/
def Schema.constrained (schema : Schema) : Constraints.Schema where
  name := schema.name
  columns := schema.columns.map fun column =>
    { name := column.name, notNull := column.notNull, foreignKey := column.foreignKey }
  indexes := schema.indexes.map Index.constrained

/-- The indexes a row goes into. -/
def Schema.writtenIndexes (schema : Schema) : List UniqueWriters.Index :=
  schema.indexes.map fun index =>
    { root := index.root, columns := index.columns, unique := index.unique }

/-- What a statement writes back, its indexes numbered by their creations. -/
def Schema.writtenBack (schema : Schema) (serials : Index → Nat) : SchemaWriteBack.Schema where
  root := schema.root
  indexes := schema.indexes.map fun index =>
    { name := index.name
      root := index.root
      isBuilding := index.isBuilding
      serial := serials index }

/-- The counters a row statement writes back. -/
def Schema.counters (schema : Schema) : RowidCounter.Schema where
  nextRowid := schema.nextRowid.toNat
  rowCount := schema.rowCount.toNat
  mutationsSinceAnalyze := schema.mutationsSinceAnalyze.toNat

/-! ## What they share -/

variable (schema : Schema)

/-- A name is looked up at the same position in every view that has columns. -/
theorem accessed_columnIndex (name : String) :
    schema.accessed.columnIndex name = schema.columnIndex? name := by
  rw [AccessPaths.Schema.columnIndex, Schema.accessed, List.findIdx?_map]
  rfl

theorem constrained_columnIndex (name : String) :
    schema.constrained.columnIndex name = schema.columnIndex? name := by
  rw [Constraints.Schema.columnIndex, Schema.constrained, List.findIdx?_map]
  rfl

/-- A plan depends on the trees that a statement writes back. -/
theorem planned_roots
    (creations : UInt32 → Nat)
    (serials : Index → Nat) :
    (schema.planned creations).roots.map PreparedPlans.Root.page =
      (schema.writtenBack serials).trees.map Prod.snd := by
  simp only [SchemaWriteBack.Schema.trees, Schema.writtenBack, PreparedPlans.Schema.roots,
    Schema.planned, List.map_cons, List.map_map]
  rfl

/-- The probe for a value finds the index whose entries the writers put. -/
theorem uniqueIndex_isSome_iff (position : Nat) :
    (schema.constrained.uniqueIndex position).isSome = true ↔
      ∃ index ∈ schema.writtenIndexes, index.unique = true ∧ index.columns = [position] := by
  simp only [Constraints.Schema.uniqueIndex, Schema.constrained, Schema.writtenIndexes,
    Index.constrained, List.find?_isSome, List.mem_map, exists_exists_and_eq_and,
    Bool.and_eq_true, decide_eq_true_eq]

/-! ## What the statements keep of them -/

/-- Every unique index is over one column. -/
def Schema.Single (schema : Schema) : Prop :=
  ∀ index ∈ schema.constrained.indexes,
    index.unique = true → ∃ position, index.columns = [position]

/-- The primary key has its index. -/
def Schema.KeyIndexed (schema : Schema) : Prop :=
  ∀ position,
    schema.primaryKeyColumn = some position →
      (schema.constrained.uniqueIndex position).isSome = true

variable {schema}

theorem single_iff :
    schema.Single ↔
      ∀ index ∈ schema.indexes, index.unique = true → ∃ position, index.columns = [position] := by
  simp only [Schema.Single, Schema.constrained, Index.constrained, List.forall_mem_map]

theorem keyIndexed_iff :
    schema.KeyIndexed ↔
      ∀ position,
        schema.primaryKeyColumn = some position →
          ∃ index ∈ schema.indexes, index.unique = true ∧ index.columns = [position] := by
  simp only [Schema.KeyIndexed, uniqueIndex_isSome_iff, Schema.writtenIndexes, List.mem_map,
    exists_exists_and_eq_and]

/-- A new table has an index for its primary key, and no unique index over two columns. -/
theorem createTable_unique
    {catalog : Catalog}
    {name : String}
    {plan : TablePlan}
    {roots : Nat → UInt32}
    (created : createTable catalog name plan roots = .ok schema) :
    schema.Single ∧ schema.KeyIndexed := by
  obtain ⟨primary, rfl, rfl⟩ := createTable_ok created
  rw [single_iff, keyIndexed_iff]
  constructor
  · intro index member _
    rcases List.mem_append.mp member with primary | unique
    · obtain ⟨position, _, rfl⟩ := List.mem_map.mp primary
      exact ⟨position, rfl⟩
    · obtain ⟨entry, _, rfl⟩ := List.mem_map.mp unique
      exact ⟨entry.1, rfl⟩
  · intro position named
    refine ⟨constraintIndex (primaryKeyIndexName name) position (roots 1), ?_, rfl, rfl⟩
    exact List.mem_append_left _ (List.mem_map_of_mem (Option.mem_toList.mpr named))

/-- Every schema that a statement puts keeps its unique indexes to one column. -/
theorem unique_kept_by
    {catalog : Catalog}
    {action : Action}
    (before :
      ∀ table found,
        catalog.get table = .ok (some found) → found.Single ∧ found.KeyIndexed)
    (accepted : action.schema catalog = .ok schema) :
    schema.Single ∧ schema.KeyIndexed := by
  cases action with
  | createTable name columns roots =>
      simp only [Action.schema] at accepted
      cases planned : planCreateTable catalog name columns with
      | error error => rw [planned] at accepted; cases accepted
      | ok plan =>
          rw [planned] at accepted
          exact createTable_unique accepted
  | createIndexPhase1 name table columns root =>
      obtain ⟨found, positions, read, _, rfl⟩ := createIndexPhase1_ok accepted
      obtain ⟨single, keyed⟩ := before table found read
      rw [single_iff] at single ⊢
      rw [keyIndexed_iff] at keyed ⊢
      constructor
      · intro index member unique
        rcases List.mem_append.mp member with old | new
        · exact single index old unique
        · rw [List.mem_singleton.mp new] at unique
          cases unique
      · intro position named
        obtain ⟨index, member, facts⟩ := keyed position named
        exact ⟨index, List.mem_append_left _ member, facts⟩
  | createIndexPhase3 name table =>
      obtain ⟨found, changed, read, rfl⟩ := createIndexPhase3_ok accepted
      obtain ⟨single, keyed⟩ := before table found read
      rw [single_iff] at single ⊢
      rw [keyIndexed_iff] at keyed ⊢
      constructor
      · intro index member unique
        obtain ⟨place, inside, rfl⟩ := List.mem_iff_getElem.mp member
        rw [List.length_modify] at inside
        have old := single _ (List.getElem_mem inside)
        rw [List.getElem_modify] at unique ⊢
        by_cases here : changed = place
        · rw [if_pos here] at unique ⊢
          exact old unique
        · rw [if_neg here] at unique ⊢
          exact old unique
      · intro position named
        obtain ⟨index, member, unique, columns⟩ := keyed position named
        obtain ⟨place, inside, rfl⟩ := List.mem_iff_getElem.mp member
        have within : place < (found.indexes.modify changed fun index =>
            { index with isBuilding := false }).length := by rwa [List.length_modify]
        refine ⟨_, List.getElem_mem within, ?_⟩
        rw [List.getElem_modify]
        split <;> exact ⟨unique, columns⟩
  | analyze table rows =>
      obtain ⟨found, records, read, _, rfl⟩ := analyzeTable_ok accepted
      obtain ⟨single, keyed⟩ := before table found read
      exact ⟨single_iff.mpr (single_iff.mp single), keyIndexed_iff.mpr (keyIndexed_iff.mp keyed)⟩

/-- A foreign key that `CREATE TABLE` accepts resolves as the constraint checks resolve it. -/
theorem referencedTarget_resolves
    {catalog : Catalog}
    {column : ColumnDef}
    {parentTable parentColumn : String}
    {onDelete : ReadPaths.ForeignKeyAction}
    {target : ReadPaths.ForeignKeyTarget}
    (before : ∀ found, catalog.get parentTable = .ok (some found) → found.KeyIndexed)
    (referenced : referencedTarget catalog column parentTable parentColumn onDelete = .ok target) :
    ∃ parent,
      catalog.get target.table = .ok (some parent) ∧
        ∃ position,
          parent.constrained.columnIndex target.column = some position ∧
            (parent.constrained.uniqueIndex position).isSome = true := by
  obtain ⟨rfl, parent, position, found, placed, unique⟩ := referencedTarget_ok referenced
  refine ⟨parent, found, position, (constrained_columnIndex parent _).trans placed, ?_⟩
  rcases unique with primary | ⟨index, member, facts⟩
  · exact before parent found position primary
  · rw [uniqueIndex_isSome_iff]
    exact ⟨_, List.mem_map_of_mem member, facts⟩

end PrehniteDB.SchemaCodec
