import PrehniteDB.Expressions
import PrehniteDB.SchemaCodec

namespace PrehniteDB.SchemaCodec

open ByteReader (utf8Bytes)
open ReadPaths (ColumnType ForeignKeyAction ForeignKeyTarget)
open RowCodec (decodeRowWithin)

/-!
# Statements that write the catalog

`CREATE TABLE`, the two phases of `CREATE INDEX` that put a schema, and `ANALYZE`.
The catalog keeps the records of the tables under their names, and a statement
reads back what an earlier one has put.  Roots are the pages that the allocator
hands out; other failures of the pager are left out.
-/

/-! ## The catalog -/

def MAX_CELL : Nat := 2038
def LEAF_CELL_OVERHEAD : Nat := 6

/-- The records in the order of their names. -/
abbrev Catalog := List (String × List UInt8)

namespace Catalog

/-- Put a record under its name, in name order. -/
def insertEntry (name : String) (record : List UInt8) : Catalog → Catalog
  | [] => [(name, record)]
  | entry :: rest =>
      match Value.textCompare name entry.1 with
      | .lt => (name, record) :: entry :: rest
      | .eq => (name, record) :: rest
      | .gt => entry :: insertEntry name record rest

/-- The schema of a table, decoded. -/
def get (catalog : Catalog) (table : String) : Except Error (Option Schema) :=
  match catalog.find? fun entry => entry.1 = table with
  | some entry => (decodeSchema entry.2).map some
  | none => .ok none

/-- Keys are never spilled, so a name has to fit a cell. -/
def put (catalog : Catalog) (schema : Schema) : Except Error Catalog :=
  let length := (utf8Bytes schema.name).length
  if MAX_CELL < LEAF_CELL_OVERHEAD + length + 1 + 4 then
    .error (.tooLarge
      ("key of " ++ toString length ++ " bytes is too large (limit is " ++
        toString (MAX_CELL - LEAF_CELL_OVERHEAD - 5) ++ " bytes)"))
  else .ok (catalog.insertEntry schema.name (encodeSchema schema))

/-- The first table that lists the index, and where. -/
def tableWithIndex (name : String) : Catalog → Except Error (Option (Schema × Nat))
  | [] => .ok none
  | entry :: rest => do
      let schema ← decodeSchema entry.2
      match schema.indexes.findIdx? fun index => index.name = name with
      | some position => pure (some (schema, position))
      | none => tableWithIndex name rest

/-- The schema of a table that has to exist. -/
def requireTable (catalog : Catalog) (name : String) : Except Error Schema := do
  match ← catalog.get name with
  | some schema => pure schema
  | none => throw (.exec ("no such table: '" ++ name ++ "'"))

end Catalog

def Schema.columnIndex? (schema : Schema) (name : String) : Option Nat :=
  schema.columns.findIdx? fun column => column.name = name

def columnIndex (schema : Schema) (name : String) : Except Error Nat :=
  match schema.columnIndex? name with
  | some position => .ok position
  | none => .error (.exec ("table '" ++ schema.name ++ "' has no column '" ++ name ++ "'"))

/-! ## CREATE TABLE -/

/-- A constraint behind a column of `CREATE TABLE`. -/
inductive ColumnConstraint where
  | primaryKey
  | notNull
  | unique
  | references (table column : String) (onDelete : ForeignKeyAction)
  deriving Repr, DecidableEq

/-- A column as it is declared. -/
structure ColumnDef where
  name : String
  type : ColumnType
  constraints : List ColumnConstraint
  deriving Repr, DecidableEq

/-- The type as `{:?}` prints it. -/
def typeDebug : ColumnType → String
  | .int => "Int"
  | .real => "Real"
  | .text => "Text"
  | .bool => "Bool"

/-- The parent of a `REFERENCES` clause of the column. -/
def referencedTarget
    (catalog : Catalog)
    (column : ColumnDef)
    (parentTable parentColumn : String)
    (onDelete : ForeignKeyAction) : Except Error ForeignKeyTarget := do
  let some parent ← catalog.get parentTable
    | throw (.exec
        ("FOREIGN KEY on '" ++ column.name ++ "' references unknown table '" ++ parentTable ++ "'"))
  let some position := parent.columnIndex? parentColumn
    | throw (.exec
        ("FOREIGN KEY on '" ++ column.name ++ "' references unknown column '" ++ parentTable ++
          "." ++ parentColumn ++ "'"))
  let type := (parent.columns.map Column.type).getD position .int
  if type ≠ column.type then
    throw (.exec
      ("FOREIGN KEY on '" ++ column.name ++ "' (type " ++ typeDebug column.type ++
        ") does not match parent '" ++ parentTable ++ "." ++ parentColumn ++ "' (type " ++
        typeDebug type ++ ")"))
  let isUniqueParent := decide (parent.primaryKeyColumn = some position) ||
    parent.indexes.any fun index => index.unique && decide (index.columns = [position])
  if !isUniqueParent then
    throw (.exec
      ("FOREIGN KEY on '" ++ column.name ++ "' references non-unique column '" ++ parentTable ++
        "." ++ parentColumn ++ "' (parent must be PRIMARY KEY or UNIQUE)"))
  pure { table := parentTable, column := parentColumn, onDelete }

/-- What the constraints of one column say. -/
structure Lowered where
  isPrimaryKey : Bool
  isUnique : Bool
  isNotNull : Bool
  foreignKey : Option ForeignKeyTarget

/-- `primaryKeyColumn` is that of the columns before this one. -/
def lowerConstraint
    (catalog : Catalog)
    (name : String)
    (column : ColumnDef)
    (primaryKeyColumn : Option Nat)
    (lowered : Lowered) : ColumnConstraint → Except Error Lowered
  | .primaryKey =>
      if primaryKeyColumn.isSome then
        .error (.exec ("table '" ++ name ++ "' has more than one PRIMARY KEY"))
      else .ok { lowered with isPrimaryKey := true, isNotNull := true }
  | .notNull => .ok { lowered with isNotNull := true }
  | .unique => .ok { lowered with isUnique := true }
  | .references table parentColumn onDelete =>
      if lowered.foreignKey.isSome then
        .error (.exec
          ("column '" ++ column.name ++ "' of '" ++ name ++
            "' has more than one REFERENCES clause"))
      else do
        let target ← referencedTarget catalog column table parentColumn onDelete
        pure { lowered with foreignKey := some target }

/-- The columns lowered so far, and which of them get a unique index. -/
structure TablePlan where
  columns : List Column
  primaryKeyColumn : Option Nat
  uniqueColumns : List Nat

/-- The plan with one more column. -/
def lowerColumn
    (catalog : Catalog)
    (name : String)
    (plan : TablePlan)
    (column : ColumnDef) : Except Error TablePlan := do
  if plan.columns.any fun other => other.name = column.name then
    throw (.exec ("table '" ++ name ++ "' declares column '" ++ column.name ++ "' twice"))
  let lowered ← column.constraints.foldlM
    (lowerConstraint catalog name column plan.primaryKeyColumn)
    { isPrimaryKey := false, isUnique := false, isNotNull := false, foreignKey := none }
  let position := plan.columns.length
  pure {
    columns := plan.columns ++ [{
      name := column.name
      type := column.type
      notNull := lowered.isNotNull
      foreignKey := lowered.foreignKey
      stats := none }]
    primaryKeyColumn := if lowered.isPrimaryKey then some position else plan.primaryKeyColumn
    uniqueColumns :=
      if !lowered.isPrimaryKey && lowered.isUnique then plan.uniqueColumns ++ [position]
      else plan.uniqueColumns }

/-- `plan` of a `CREATE TABLE`. -/
def planCreateTable
    (catalog : Catalog)
    (name : String)
    (columns : List ColumnDef) : Except Error TablePlan :=
  columns.foldlM (lowerColumn catalog name)
    { columns := [], primaryKeyColumn := none, uniqueColumns := [] }

def primaryKeyIndexName (table : String) : String := "_pk_" ++ table

def uniqueIndexName (table column : String) : String := "_uq_" ++ table ++ "_" ++ column

/-- The index that enforces a constraint. -/
def constraintIndex (name : String) (position : Nat) (root : UInt32) : Index :=
  { name, columns := [position], root, unique := true, isBuilding := false }

/-- One index for each unique column, with the roots from `first` on. -/
def uniqueIndexes
    (name : String)
    (plan : TablePlan)
    (roots : Nat → UInt32)
    (first : Nat) : List Index :=
  plan.uniqueColumns.zipIdx.map fun entry =>
    let column := (plan.columns.map Column.name).getD entry.1 ""
    constraintIndex (uniqueIndexName name column) entry.1 (roots (first + entry.2))

/-- The trees are created in this order: the table's, that of the primary key, the others. -/
def createTable
    (catalog : Catalog)
    (name : String)
    (plan : TablePlan)
    (roots : Nat → UInt32) : Except Error Schema := do
  if (← catalog.get name).isSome then
    throw (.exec ("table '" ++ name ++ "' already exists"))
  let primary := plan.primaryKeyColumn.toList.map fun position =>
    constraintIndex (primaryKeyIndexName name) position (roots 1)
  let unique := uniqueIndexes name plan roots (1 + primary.length)
  pure {
    name
    columns := plan.columns
    root := roots 0
    nextRowid := 1
    rowCount := 0
    indexes := primary ++ unique
    primaryKeyColumn := plan.primaryKeyColumn
    mutationsSinceAnalyze := 0 }

/-! ## CREATE INDEX -/

/-- One more column of a `CREATE INDEX`, none of them twice. -/
def resolveColumn
    (schema : Schema)
    (indexName : String)
    (columns : List Nat)
    (name : String) : Except Error (List Nat) := do
  let column ← columnIndex schema name
  if columns.contains column then
    throw (.exec ("index '" ++ indexName ++ "' names column '" ++ name ++ "' twice"))
  pure (columns ++ [column])

/-- List the index as building. -/
def createIndexPhase1
    (catalog : Catalog)
    (indexName table : String)
    (columnNames : List String)
    (root : UInt32) : Except Error Schema := do
  let schema ← catalog.requireTable table
  let columns ← columnNames.foldlM (resolveColumn schema indexName) []
  if (← catalog.tableWithIndex indexName).isSome then
    throw (.exec ("index '" ++ indexName ++ "' already exists"))
  let index := { name := indexName, columns, root, unique := false, isBuilding := true }
  pure { schema with indexes := schema.indexes ++ [index] }

/-- The index is no longer building. -/
def createIndexPhase3
    (catalog : Catalog)
    (indexName table : String) : Except Error Schema := do
  let schema ← catalog.requireTable table
  let some position := schema.indexes.findIdx? fun index => index.name = indexName
    | throw (.exec
        ("phase 3: index '" ++ indexName ++ "' vanished from catalog (concurrent drop?)"))
  pure { schema with
    indexes := schema.indexes.modify position fun index => { index with isBuilding := false } }

/-! ## ANALYZE -/

def BUCKETS : Nat := 16

/-- The changes along sorted values, and one. -/
def countDistinct : List Value → Nat
  | [] => 0
  | first :: rest => ((first :: rest).zip rest).countP (fun pair => !pair.1.equal pair.2) + 1

/-- The next bucket is the first value and those behind it, `perBucket` in all. -/
def cutBuckets (perBucket : Nat) : List Value → List HistogramBucket
  | [] => []
  | lower :: rest =>
      let behind := rest.take (perBucket - 1)
      { lower, upper := behind.getLastD lower, count := UInt64.ofNat (behind.length + 1) } ::
        cutBuckets perBucket (rest.drop (perBucket - 1))
termination_by values => values.length
decreasing_by
  simp only [List.length_drop, List.length_cons]
  omega

/-- Buckets of one depth, the last one perhaps shorter. -/
def buildEquiDepth (sorted : List Value) (buckets : Nat) : List HistogramBucket :=
  if sorted.isEmpty then []
  else cutBuckets ((sorted.length + buckets - 1) / buckets) sorted

/-- The values of the column that are not `NULL`, in the order of their index encodings. -/
def sortedValues (records : List RowCodec.RowRecord) (position : Nat) : List Value :=
  ((records.map fun record => column record.values position).filter (!·.isNull)).mergeSort
    fun left right => decide (encodeIndexValue left ≤ encodeIndexValue right)

/-- The statistics of one column. -/
def columnStats (records : List RowCodec.RowRecord) (position : Nat) : ColumnStats :=
  let sorted := sortedValues records position
  { nDistinct := UInt64.ofNat (countDistinct sorted)
    nullCount := UInt64.ofNat (records.countP fun record => (column record.values position).isNull)
    totalRows := UInt64.ofNat records.length
    histogram := buildEquiDepth sorted BUCKETS }

/-- `rows` are the stored rows that a scan of the table finds. -/
def analyzeTable
    (catalog : Catalog)
    (table : String)
    (rows : List (List UInt8)) : Except Error Schema := do
  let schema ← catalog.requireTable table
  let records ← rows.mapM fun row => decodeRowWithin row schema.columns.length
  pure { schema with
    columns := schema.columns.mapIdx fun position column =>
      { column with stats := some (columnStats records position) }
    mutationsSinceAnalyze := 0 }

/-! ## Runs -/

/-- Other statements may come between the two phases of `CREATE INDEX`. -/
inductive Action where
  | createTable (name : String) (columns : List ColumnDef) (roots : Nat → UInt32)
  | createIndexPhase1 (name table : String) (columns : List String) (root : UInt32)
  | createIndexPhase3 (name table : String)
  | analyze (table : String) (rows : List (List UInt8))

/-- The schema that the action puts. -/
def Action.schema (catalog : Catalog) : Action → Except Error Schema
  | .createTable name columns roots => do
      SchemaCodec.createTable catalog name (← planCreateTable catalog name columns) roots
  | .createIndexPhase1 name table columns root =>
      SchemaCodec.createIndexPhase1 catalog name table columns root
  | .createIndexPhase3 name table => SchemaCodec.createIndexPhase3 catalog name table
  | .analyze table rows => analyzeTable catalog table rows

/-- An accepted action, the catalog it found and the schema it has put. -/
structure Step where
  catalog : Catalog
  action : Action
  schema : Schema

/-- The accepted actions, the last one first, from an empty catalog. -/
inductive Run : List Step → Catalog → Prop where
  | start : Run [] []
  | step
      {steps : List Step}
      {catalog next : Catalog}
      {action : Action}
      {schema : Schema}
      (run : Run steps catalog)
      (accepted : action.schema catalog = .ok schema)
      (put : catalog.put schema = .ok next) :
      Run (⟨catalog, action, schema⟩ :: steps) next

/-! ## What a statement may ask for -/

/-- The primary key has its index already. -/
def ColumnDef.wantsUniqueIndex (column : ColumnDef) : Bool :=
  column.constraints.contains .unique && !column.constraints.contains .primaryKey

/-- No name, no count and no bound of a histogram is too long for its field. -/
def Action.Modest (catalog : Catalog) : Action → Prop
  | .createTable name columns _ =>
      columns.length < 2 ^ 16 ∧
        ∀ column ∈ columns,
          Named column.name ∧
            (column.wantsUniqueIndex = true → Named (uniqueIndexName name column.name))
  | .createIndexPhase1 name table _ _ =>
      Named name ∧
        ∀ schema, catalog.get table = .ok (some schema) → schema.indexes.length + 1 < 2 ^ 16
  | .createIndexPhase3 _ _ => True
  | .analyze table rows =>
      ∀ schema records,
        catalog.get table = .ok (some schema) →
          rows.mapM (fun row => decodeRowWithin row schema.columns.length) = .ok records →
            ∀ position < schema.columns.length,
              ∀ bucket ∈ buildEquiDepth (sortedValues records position) BUCKETS, bucket.Fits

end PrehniteDB.SchemaCodec
