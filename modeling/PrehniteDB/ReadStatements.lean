import PrehniteDB.ReadPaths

namespace PrehniteDB.ReadPaths

/-!
# The statements that read

`select` chooses between the parallel paths, the batched operators and the row
pipeline; `update` and `delete` collect their candidates first and then check
and write one row at a time.  Of the writes only what reads on their behalf is
kept: the probes of the constraints, and the statements a cascade runs.
-/

open Interleaving (AccessPath)

variable {Value : Type}

/-- A `WHERE` clause, with the subqueries in it. -/
structure Predicate (Value : Type) where
  /-- The subqueries `prepare_subqueries` runs to their end before the scan. -/
  prepared : List (Stream (Row Value))
  correlated : Bool
  aggregate : Bool
  /-- Whether only columns of the base table occur. -/
  leftOnly : Bool
  /-- The correlated subqueries, with one row substituted. -/
  resolve : List (List (Row Value)) → Row Value → List (Stream (Row Value))
  passes :
    List (List (Row Value)) → Row Value → List (List (Row Value)) →
      Except Error Bool
  /-- The verdict of a worker, which is handed the predicate unprepared. -/
  unprepared : Row Value → Except Error Bool

/-- A select list, with the subqueries in it. -/
structure Projection (Value : Type) where
  star : Bool
  /-- Whether every item is a column or an aggregate. -/
  columnsOnly : Bool
  prepared : List (Stream (Row Value))
  correlated : Bool
  resolve : List (List (Row Value)) → Row Value → List (Stream (Row Value))
  item :
    List (List (Row Value)) → Row Value → List (List (Row Value)) →
      Except Error (Row Value)
  /-- The projection as column positions alone, where it is one. -/
  plain : Option (Row Value → Row Value)

/-- `GROUP BY`, `HAVING` and the aggregates. -/
structure Grouping (Value : Type) where
  having : Bool
  prepared : List (Stream (Row Value))
  groupedSelect :
    List (List (Row Value)) → List (Row Value) →
      Except Error (List (Row Value))

/-- `Plan::Select`. -/
structure Select (Value : Type) where
  table : Table Value
  access : AccessPath
  joins : List (Join Value)
  filter : Option (Predicate Value)
  projection : Projection Value
  grouping : Option (Grouping Value)
  orderBy : Option (List (Row Value) → List (Row Value))
  presorted : Bool
  limit : Option Nat
  offset : Option Nat

/-- `MIN_LEAVES_FOR_PARALLEL`. -/
def minLeavesForParallel : Nat := 16

/-- `u64::MAX`, the row quota without a `LIMIT`. -/
def unbounded : Nat := 2 ^ 64 - 1

section Operators

/-- `Filter`: a correlated subquery is run for each row. -/
def filterRows
    (predicate : Predicate Value)
    (results : List (List (Row Value)))
    (input : Stream (Row Value)) : Stream (Row Value) :=
  input.bind fun row =>
    PullStream.drainAll
      (if predicate.correlated then predicate.resolve results row else [])
      fun resolved =>
        match predicate.passes results row resolved with
        | .error error => .fail error
        | .ok true => .emit row .done
        | .ok false => .done

/-- `Project`. -/
def projectRows
    (projection : Projection Value)
    (results : List (List (Row Value)))
    (input : Stream (Row Value)) : Stream (Row Value) :=
  input.bind fun row =>
    PullStream.drainAll
      (if projection.correlated then projection.resolve results row else [])
      fun resolved =>
        match projection.item results row resolved with
        | .error error => .fail error
        | .ok out => .emit out .done

/-- `Sort`. -/
def sortRows
    (order : List (Row Value) → List (Row Value))
    (input : Stream (Row Value)) : Stream (Row Value) :=
  input.drain fun rows => .ofList (order rows)

/-- `BatchFilter`: the mask is computed for the whole batch. -/
def filterBatches
    (predicate : Predicate Value)
    (results : List (List (Row Value)))
    (input : Stream (List (Row Value))) : Stream (List (Row Value)) :=
  input.bind fun batch =>
    match batch.filterM fun row => predicate.passes results row [] with
    | .error error => .fail error
    | .ok [] => .done
    | .ok kept => .emit kept .done

/-- `BatchProject`. -/
def projectBatches
    (projection : Projection Value)
    (results : List (List (Row Value)))
    (input : Stream (List (Row Value))) : Stream (List (Row Value)) :=
  input.bind fun batch =>
    match batch.mapM fun row => projection.item results row [] with
    | .error error => .fail error
    | .ok projected => .emit projected .done

/-- `BatchSort`. -/
def sortBatches
    (order : List (Row Value) → List (Row Value))
    (input : Stream (List (Row Value))) : Stream (List (Row Value)) :=
  (sortRows order (input.bind .ofList)).batched batchSize []

end Operators

namespace Select

variable (encoding : Encoding Value) (reader : Reader) (plan : Select Value)

/-- The subqueries of the `WHERE` clause that are run beforehand. -/
def filterPrepared : List (Stream (Row Value)) :=
  (plan.filter.map Predicate.prepared).getD []

/-- `Limit` and `apply_limit`. -/
def limited (input : Stream (Row Value)) : Stream (Row Value) :=
  if plan.limit.isSome || plan.offset.isSome then
    input.limit (plan.offset.getD 0) (plan.limit.getD unbounded)
  else input

def hasCorrelated : Bool :=
  plan.filter.any Predicate.correlated || plan.projection.correlated

/-- The shape both parallel paths ask for. -/
def parallelShape : Bool :=
  plan.access = .fullScan && plan.grouping.isNone && plan.orderBy.isNone &&
    !plan.hasCorrelated && plan.projection.plain.isSome &&
    plan.filter.all (fun predicate => !predicate.aggregate) &&
    minLeavesForParallel ≤ plan.table.leafPages

/-- The reads of the visible rows of one table. -/
def readAll (table : Table Value) : List Effect :=
  (table.rows.filter fun row => reader.sees row.2).map fun row =>
    .read .scan (.version table.root row.1)

/-- The visible rows of one table. -/
def visibleRows (table : Table Value) : List (Row Value) :=
  (table.rows.filter fun row => reader.sees row.2).map fun row => row.2.values

/-- Whether a worker keeps a row: an error in the predicate drops it. -/
def workerKeeps (row : Row Value) : Bool :=
  plan.filter.all fun predicate =>
    match predicate.unprepared row with
    | .ok true => true
    | _ => false

/--
`try_parallel_scan`.  The relation lock is taken on the calling thread; the
workers run ahead of the consumer, at most to the end of the table.
-/
def parallelScan (plain : Row Value → Row Value) : Stream (Row Value) :=
  .work (.recordRelationRead plan.table.root :: readAll reader plan.table)
    (plan.limited (.ofList
      (((visibleRows reader plan.table).filter plan.workerKeeps).map plain)))

/--
`try_parallel_hash_join`.  The inner side is hashed before either relation
lock is taken; nothing in between is handed to the client.
-/
def parallelHashJoin
    (plain : Row Value → Row Value)
    (join : Join Value)
    (probeCol buildCol : Nat) : Stream (Row Value) :=
  let inner := visibleRows reader join.table
  let joined := ((visibleRows reader plan.table).filter
    plan.workerKeeps).flatMap fun row =>
      (bucket encoding probeCol buildCol row inner).filterMap fun other =>
        match join.matching (row ++ other) with
        | .ok true => some (plain (row ++ other))
        | _ => none
  .work
    (readAll reader join.table ++
      (.recordRelationRead plan.table.root ::
        .recordRelationRead join.table.root :: readAll reader plan.table))
    (plan.limited (.ofList joined))

/-- The row-at-a-time pipeline. -/
def rowPipeline : Stream (Row Value) :=
  .work (opened plan.table plan.access)
    (let joined := buildFrom encoding reader plan.table plan.access plan.joins
    let filtered := fun results =>
      match plan.filter with
      | none => joined
      | some predicate => filterRows predicate results joined
    match plan.grouping with
    | none =>
        PullStream.drainAll plan.projection.prepared fun items =>
          PullStream.drainAll plan.filterPrepared fun results =>
            let sorted :=
              match plan.orderBy, plan.presorted with
              | some order, false => sortRows order (filtered results)
              | _, _ => filtered results
            plan.limited (projectRows plan.projection items sorted)
    | some grouping =>
        if plan.projection.star then
          .fail (.exec "SELECT * cannot be combined with GROUP BY or HAVING")
        else
          PullStream.drainAll plan.filterPrepared fun results =>
            PullStream.drainAll grouping.prepared fun havings =>
              plan.limited ((filtered results).drain fun matched =>
                .ofExcept (grouping.groupedSelect havings matched)))

/-- `select_vectorised`. -/
def selectVectorised : Stream (Row Value) :=
  .work (opened plan.table plan.access)
    (PullStream.drainAll plan.filterPrepared fun results =>
      let joined :=
        buildBatches encoding reader plan.table plan.access plan.joins
      let filtered :=
        match plan.filter with
        | none => joined
        | some predicate => filterBatches predicate results joined
      match plan.grouping with
      | some grouping =>
          plan.limited ((filtered.bind .ofList).drain fun matched =>
            .ofExcept (grouping.groupedSelect [] matched))
      | none =>
          let sorted :=
            match plan.orderBy with
            | none => filtered
            | some order => sortBatches order filtered
          PullStream.drainAll plan.projection.prepared fun items =>
            plan.limited
              ((projectBatches plan.projection items sorted).bind .ofList))

/-- Whether the batched operators can carry the projection and the aggregation. -/
def aggregationVectorisable : Bool :=
  match plan.grouping with
  | none => plan.projection.star || plan.projection.columnsOnly
  | some grouping =>
      !grouping.having && plan.orderBy.isNone &&
        !plan.projection.star && plan.projection.columnsOnly

/-- The inputs of the parallel hash join, where the plan has its shape. -/
def parallelJoin : Option (Join Value × Nat × Nat) :=
  match plan.joins with
  | [join] =>
      if join.kind = .inner ∧ plan.filter.all Predicate.leftOnly then
        join.on.bind fun on =>
          (findEquiJoin plan.table.scope.length
            (plan.table.scope ++ join.table.scope) on.shape).map fun columns =>
              (join, columns)
      else none
  | _ => none

/-- The serial paths. -/
def serial : Stream (Row Value) :=
  if joinsVectorisable plan.table plan.joins ∧ ¬ plan.hasCorrelated ∧
      plan.aggregationVectorisable then
    plan.selectVectorised encoding reader
  else plan.rowPipeline encoding reader

/-- `select`. -/
def select : Stream (Row Value) :=
  match plan.parallelShape, plan.projection.plain with
  | true, some plain =>
      if plan.joins.isEmpty then plan.parallelScan reader plain
      else
        match plan.parallelJoin with
        | some (join, probeCol, buildCol) =>
            plan.parallelHashJoin encoding reader plain join probeCol buildCol
        | none => plan.serial encoding reader
  | _, _ => plan.serial encoding reader

/-- A stream the plan runs for one of its subqueries. -/
inductive Subquery : Stream (Row Value) → Prop where
  | projected
      {stream : Stream (Row Value)}
      (member : stream ∈ plan.projection.prepared) :
      Subquery stream
  | projectedFor
      {stream : Stream (Row Value)}
      {results : List (List (Row Value))}
      {row : Row Value}
      (member : stream ∈ plan.projection.resolve results row) :
      Subquery stream
  | filtered
      {stream : Stream (Row Value)}
      (member : stream ∈ plan.filterPrepared) :
      Subquery stream
  | filteredFor
      {stream : Stream (Row Value)}
      {predicate : Predicate Value}
      {results : List (List (Row Value))}
      {row : Row Value}
      (present : plan.filter = some predicate)
      (member : stream ∈ predicate.resolve results row) :
      Subquery stream
  | having
      {stream : Stream (Row Value)}
      {grouping : Grouping Value}
      (present : plan.grouping = some grouping)
      (member : stream ∈ grouping.prepared) :
      Subquery stream

end Select

inductive ForeignKeyAction where
  | restrict
  | cascade
  | setNull
  deriving Repr, DecidableEq

/-- The target of a foreign-key column. -/
structure ForeignKeyTarget where
  table : String
  column : String
  onDelete : ForeignKeyAction
  deriving Repr, DecidableEq

/-- A foreign key of the table written, with its parent as it stands. -/
structure ForeignKey (Value : Type) where
  column : Nat
  parent : Table Value
  parentColumn : Nat

/-- A foreign key onto the table written, with the child as it stands. -/
structure Child (Value : Type) where
  table : Table Value
  column : Nat
  parentColumn : Nat
  onDelete : ForeignKeyAction

/-- What one row change is checked against, as it stands at that row. -/
structure Constraints (Value : Type) where
  own : Table Value
  foreignKeys : List (ForeignKey Value)
  children : List (Child Value)

section Probes

variable (encoding : Encoding Value)

/-- The name of a table's column. -/
def Table.columnName (table : Table Value) (position : Nat) : String :=
  ((table.columns[position]?).map Column.name).getD ""

/-- `index_has_value`: whether some key starts with the value, whoever it belongs to. -/
def indexHasValue
    (table : Table Value)
    (indexRoot : UInt32)
    (encoded : List UInt8) : Stream Bool :=
  .work [.read .probe (.range table.root indexRoot encoded (prefixUpperBound encoded))]
    (.emit (keysHaveValue ((table.keysOf indexRoot).map Prod.fst) encoded) .done)

/-- The table walk of `scan_child_for_fk_value`, up to the first match. -/
def walkForFkValue
    (tableRoot : UInt32)
    (position : Nat)
    (value : Value) : List (Nat × Record Value) → Stream Bool
  | [] => .emit false .done
  | (rowid, record) :: rest =>
      .work [.read .probe (.version tableRoot rowid)]
        (if encoding.equal (column encoding record.values position) value then .emit true .done
        else walkForFkValue tableRoot position value rest)

/-- `scan_child_for_fk_value`. -/
def scanChildForFkValue
    (child : Child Value)
    (value : Value) : Stream Bool :=
  match child.table.indexes.find? fun index =>
      index.columns = [child.column] with
  | some index =>
      indexHasValue child.table index.root (encoding.encodeIndexValue value)
  | none => walkForFkValue encoding child.table.root child.column value child.table.rows

/-- `check_foreign_keys`, then `next`. -/
def checkForeignKeys
    (table : Table Value)
    (values : Row Value)
    (next : Stream (Row Value)) :
    List (ForeignKey Value) → Stream (Row Value)
  | [] => next
  | key :: rest =>
      let value := column encoding values key.column
      if encoding.isNull value then checkForeignKeys table values next rest
      else
        match key.parent.indexes.find? fun index =>
            index.unique ∧ index.columns = [key.parentColumn] with
        | none =>
            .fail (.corruption
              s!"FOREIGN KEY parent column '{key.parent.name}.{key.parent.columnName key.parentColumn}' has no unique index")
        | some index =>
            (indexHasValue key.parent index.root
              (encoding.encodeIndexValue value)).bind fun found =>
                if found then checkForeignKeys table values next rest
                else
                  .fail (.exec
                    s!"FOREIGN KEY violation: value in column '{table.columnName key.column}' of '{table.name}' has no matching parent in '{key.parent.name}.{key.parent.columnName key.parentColumn}'")

/-- `check_no_child_references`, then `next`. -/
def checkNoChildReferences
    (table : Table Value)
    (values : Row Value)
    (next : Stream (Row Value)) : List (Child Value) → Stream (Row Value)
  | [] => next
  | child :: rest =>
      (scanChildForFkValue encoding child
        (column encoding values child.parentColumn)).bind fun found =>
          if found then
            .fail (.exec
              s!"FOREIGN KEY violation: cannot modify '{table.name}.{child.table.columnName child.column}' — row is referenced by '{child.table.name}.{child.table.columnName child.column}'")
          else checkNoChildReferences table values next rest

/-- The unique checks of `index_insert_row_with_old`, then `next`. -/
def checkUnique
    (table : Table Value)
    (old values : Row Value)
    (next : Stream (Row Value)) : List IndexTree → Stream (Row Value)
  | [] => next
  | index :: rest =>
      let anyNull := index.columns.any fun position =>
        encoding.isNull (column encoding values position)
      let unchanged := index.columns.all fun position =>
        encoding.equal (column encoding values position) (column encoding old position)
      if index.unique ∧ ¬ anyNull ∧ ¬ unchanged then
        (indexHasValue table index.root
          (index.columns.flatMap fun position =>
            encoding.encodeIndexValue (column encoding values position))).bind
          fun found =>
            if found then
              .fail (.exec
                s!"duplicate key value violates UNIQUE constraint '{index.name}' on '{table.name}'")
            else checkUnique table old values next rest
      else checkUnique table old values next rest

/-- `apply_parent_delete_actions`, then `next`. -/
def applyParentDeleteActions
    (nested : Child Value → Row Value → Stream (Row Value))
    (table : Table Value)
    (values : Row Value)
    (next : Stream (Row Value)) : List (Child Value) → Stream (Row Value)
  | [] => next
  | child :: rest =>
      let later := applyParentDeleteActions nested table values next rest
      let probe :=
        scanChildForFkValue encoding child
          (column encoding values child.parentColumn)
      let run := (nested child values).drain fun _ => later
      match child.onDelete with
      | .restrict =>
          probe.bind fun found =>
            if found then
              .fail (.exec
                s!"FOREIGN KEY violation: cannot delete from '{table.name}' — row is referenced by '{child.table.name}.{child.table.columnName child.column}'")
            else later
      | .cascade => run
      | .setNull =>
          if (child.table.columns[child.column]?).any Column.notNull then
            probe.bind fun found =>
              if found then
                .fail (.exec
                  s!"ON DELETE SET NULL on '{child.table.name}.{child.table.columnName child.column}' violates NOT NULL constraint")
              else later
          else run

end Probes

/-- `Plan::Update`; `assign` computes the new values from the old. -/
structure Update (Value : Type) where
  table : Table Value
  access : AccessPath
  prepared : List (Stream (Row Value))
  assign : List (List (Row Value)) → Row Value → Except Error (Row Value)
  filter : Option (Predicate Value)
  /-- The trees each row change is checked against, by the row's rowid. -/
  constraints : Nat → Constraints Value

/-- `Plan::Delete`; `nested` is the statement a cascade or a `SET NULL` runs. -/
structure Delete (Value : Type) where
  table : Table Value
  access : AccessPath
  filter : Option (Predicate Value)
  constraints : Nat → Constraints Value
  nested : Child Value → Row Value → Stream (Row Value)

section Writes

variable (encoding : Encoding Value) (reader : Reader)

/-- `passes_filter` on a candidate. -/
def passesFilter
    (filter : Option (Predicate Value))
    (results : List (List (Row Value)))
    (row : Row Value) : Except Error Bool :=
  match filter with
  | none => .ok true
  | some predicate => predicate.passes results row []

/-- The first column that a row leaves `NULL` against its constraint. -/
def nullViolation (table : Table Value) (values : Row Value) : Option Column :=
  (table.columns.zipIdx.find? fun numbered =>
    numbered.1.notNull && encoding.isNull (column encoding values numbered.2)).map
      Prod.fst

/-- Whether an update changes a column that a foreign key may reference. -/
def parentChanged (table : Table Value) (old new : Row Value) : Bool :=
  table.indexes.any fun index =>
    index.unique &&
      match index.columns with
      | [position] =>
          !encoding.equal (column encoding old position) (column encoding new position)
      | _ => false

/-- One candidate of an `UPDATE`. -/
def updateRow
    (plan : Update Value)
    (assigned filtered : List (List (Row Value)))
    (found : Nat × Record Value) : Stream (Row Value) :=
  let old := found.2.values
  let constraints := plan.constraints found.1
  match passesFilter plan.filter filtered old with
  | .error error => .fail error
  | .ok false => .done
  | .ok true =>
      match checkWriteWriteConflict found.2 reader.snapshot reader.clog,
          plan.assign assigned old with
      | .error error, _ => .fail error
      | .ok (), .error error => .fail error
      | .ok (), .ok new =>
          match nullViolation encoding plan.table new with
          | some violated =>
              .fail (.exec
                s!"null value in column '{violated.name}' of '{plan.table.name}' violates NOT NULL constraint")
          | none =>
              let written :=
                checkUnique encoding constraints.own old new .done
                  constraints.own.indexes
              let checked :=
                if parentChanged encoding plan.table old new then
                  checkNoChildReferences encoding plan.table old written
                    constraints.children
                else written
              checkForeignKeys encoding plan.table new checked
                constraints.foreignKeys

/-- `update`. -/
def update (plan : Update Value) : Stream (Row Value) :=
  PullStream.drainAll plan.prepared fun assigned =>
    PullStream.drainAll ((plan.filter.map Predicate.prepared).getD [])
      fun filtered =>
        (collectCandidates reader plan.table plan.access).drain
          fun candidates =>
            (PullStream.ofList candidates).bind fun found =>
              updateRow encoding reader plan assigned filtered found

/-- One candidate of a `DELETE`. -/
def deleteRow
    (plan : Delete Value)
    (filtered : List (List (Row Value)))
    (found : Nat × Record Value) : Stream (Row Value) :=
  match passesFilter plan.filter filtered found.2.values with
  | .error error => .fail error
  | .ok false => .done
  | .ok true =>
      match checkWriteWriteConflict found.2 reader.snapshot reader.clog with
      | .error error => .fail error
      | .ok () =>
          applyParentDeleteActions encoding plan.nested plan.table
            found.2.values .done (plan.constraints found.1).children

/-- `delete`. -/
def delete (plan : Delete Value) : Stream (Row Value) :=
  PullStream.drainAll ((plan.filter.map Predicate.prepared).getD [])
    fun filtered =>
      (collectCandidates reader plan.table plan.access).drain fun candidates =>
        (PullStream.ofList candidates).bind fun found =>
          deleteRow encoding reader plan filtered found

/-- The streams a `SELECT`, `UPDATE` or `DELETE` of one transaction can run. -/
inductive Runs : Stream (Row Value) → Prop where
  | select
      (plan : Select Value)
      (subqueries :
        ∀ stream, plan.Subquery stream → Runs stream) :
      Runs (plan.select encoding reader)
  | update
      (plan : Update Value)
      (assigned : ∀ stream ∈ plan.prepared, Runs stream)
      (filtered :
        ∀ stream ∈ (plan.filter.map Predicate.prepared).getD [], Runs stream) :
      Runs (update encoding reader plan)
  | delete
      (plan : Delete Value)
      (filtered :
        ∀ stream ∈ (plan.filter.map Predicate.prepared).getD [], Runs stream)
      (nested : ∀ child row, Runs (plan.nested child row)) :
      Runs (delete encoding reader plan)

end Writes

end PrehniteDB.ReadPaths
