import PrehniteDB.FailedStatements
import PrehniteDB.IndexValues
import PrehniteDB.ReadStatements

namespace PrehniteDB.Constraints

open ConnectionCalls (Session)
open FailedStatements (snapshotForStatement)
open ReadPaths (ForeignKeyAction ForeignKeyTarget Reader keysHaveValue prefixUpperBound)

/-!
# Writing under constraints

`INSERT`, `UPDATE` and `DELETE` of one connection, with the `NOT NULL`, `UNIQUE`
and `REFERENCES` checks the executor makes at each row.  An expression is a
function of the row it is evaluated on.  No index is being built, and of the
table statistics nothing is kept.
-/

/-! ## The catalog -/

/-- What the checks read of a column. -/
structure Column where
  name : String
  notNull : Bool
  foreignKey : Option ForeignKeyTarget
  deriving Repr, DecidableEq

/-- What the checks read of an index. -/
structure Index where
  name : String
  columns : List Nat
  unique : Bool
  deriving Repr, DecidableEq

/-- What the checks read of a table. -/
structure Schema where
  name : String
  columns : List Column
  indexes : List Index
  deriving Repr, DecidableEq

namespace Schema

def columnIndex (schema : Schema) (name : String) : Option Nat :=
  schema.columns.findIdx? fun column => column.name = name

/-- The unique index over one column. -/
def uniqueIndex (schema : Schema) (position : Nat) : Option Index :=
  schema.indexes.find? fun index =>
    index.unique && decide (index.columns = [position])

end Schema

/-- The tables in name order, as `CREATE TABLE` lets them be declared. -/
structure Catalog where
  tables : List Schema
  /-- The order the tables were created in. -/
  created : String → Nat
  named : (tables.map Schema.name).Nodup
  indexed :
    ∀ schema ∈ tables, (schema.indexes.map Index.name).Nodup
  single :
    ∀ schema ∈ tables, ∀ index ∈ schema.indexes,
      index.unique = true → ∃ position, index.columns = [position]
  older :
    ∀ schema ∈ tables, ∀ column ∈ schema.columns, ∀ key,
      column.foreignKey = some key →
      created key.table < created schema.name
  resolved :
    ∀ schema ∈ tables, ∀ column ∈ schema.columns, ∀ key,
      column.foreignKey = some key →
      ∃ parent ∈ tables,
        parent.name = key.table ∧
          ∃ position,
            parent.columnIndex key.column = some position ∧
              (parent.uniqueIndex position).isSome = true

/-- One foreign key onto a table, seen from the table. -/
structure Reference where
  child : Schema
  childIdx : Nat
  column : Column
  onDelete : ForeignKeyAction
  parentIdx : Nat
  deriving Repr, DecidableEq

namespace Catalog

def get (catalog : Catalog) (name : String) : Option Schema :=
  catalog.tables.find? fun schema => schema.name = name

/-- The foreign keys onto `parent`, in the order of the table names. -/
def childrenReferencing (catalog : Catalog) (parent : Schema) : List Reference :=
  (catalog.tables.filter fun child => child.name ≠ parent.name).flatMap
    fun child =>
      child.columns.zipIdx.filterMap fun (column, childIdx) =>
        column.foreignKey.bind fun key =>
          if key.table = parent.name then
            (parent.columnIndex key.column).map fun parentIdx => {
              child := child
              childIdx := childIdx
              column := column
              onDelete := key.onDelete
              parentIdx := parentIdx }
          else none

end Catalog

/-! ## Failures -/

/-- What a statement is refused for. -/
inductive Failure where
  | notNull (column table : String)
  | duplicateKey (index table : String)
  | noParent (column table parent parentColumn : String)
  | cannotModify (parent child childColumn : String)
  | cannotDelete (parent child childColumn : String)
  | setNullNotNull (child childColumn : String)
  | other (error : Error)
  deriving Repr, DecidableEq

/-- The error a client sees. -/
def Failure.error : Failure → Error
  | .notNull column table =>
      .exec s!"null value in column '{column}' of '{table}' violates NOT NULL constraint"
  | .duplicateKey index table =>
      .exec s!"duplicate key value violates UNIQUE constraint '{index}' on '{table}'"
  | .noParent column table parent parentColumn =>
      .exec
        s!"FOREIGN KEY violation: value in column '{column}' of '{table}' has no matching parent in '{parent}.{parentColumn}'"
  | .cannotModify parent child childColumn =>
      .exec
        s!"FOREIGN KEY violation: cannot modify '{parent}.{childColumn}' — row is referenced by '{child}.{childColumn}'"
  | .cannotDelete parent child childColumn =>
      .exec
        s!"FOREIGN KEY violation: cannot delete from '{parent}' — row is referenced by '{child}.{childColumn}'"
  | .setNullNotNull child childColumn =>
      .exec s!"ON DELETE SET NULL on '{child}.{childColumn}' violates NOT NULL constraint"
  | .other error => error

/-! ## The trees -/

abbrev Row := List Value

abbrev Record := RowRecord Row

/-- One table's rows in rowid order, the keys of its indexes in order, and its rowid counter. -/
structure Trees where
  rows : List (Nat × Record)
  entries : String → List (List UInt8 × Nat)
  nextRowid : Nat

def Trees.empty : Trees where
  rows := []
  entries := fun _ => []
  nextRowid := 1

/-- The trees of every table. -/
abbrev Store := String → Trees

/-- Insert a row under its rowid, or overwrite the one that is there. -/
def putRow (rowid : Nat) (record : Record) (rows : List (Nat × Record)) :
    List (Nat × Record) :=
  if rows.any fun row => row.1 = rowid then
    rows.map fun row => if row.1 = rowid then (rowid, record) else row
  else rows ++ [(rowid, record)]

/-- Insert a key where its bytes belong. -/
def insertKey (key : List UInt8 × Nat) :
    List (List UInt8 × Nat) → List (List UInt8 × Nat)
  | [] => [key]
  | head :: rest =>
      if key = head then head :: rest
      else if key.1 ≤ head.1 then key :: head :: rest
      else head :: insertKey key rest

namespace Trees

/-- The row of a rowid. -/
def search (trees : Trees) (rowid : Nat) : Option Record :=
  (trees.rows.find? fun row => row.1 = rowid).map Prod.snd

/-- Write a row under its rowid. -/
def put (trees : Trees) (rowid : Nat) (record : Record) : Trees :=
  { trees with rows := putRow rowid record trees.rows }

/-- Write a new version under the next rowid. -/
def append (trees : Trees) (record : Record) : Trees :=
  { trees.put trees.nextRowid record with nextRowid := trees.nextRowid + 1 }

/-- Put a key into the tree of an index. -/
def insertEntry (trees : Trees) (index : Index) (key : List UInt8 × Nat) : Trees :=
  { trees with
    entries := Function.update trees.entries index.name
      (insertKey key (trees.entries index.name)) }

/-- Whether any key of the index starts with the given bytes, whoever it belongs to. -/
def indexHasValue (trees : Trees) (index : Index) (valuePrefix : List UInt8) : Bool :=
  keysHaveValue ((trees.entries index.name).map Prod.fst) valuePrefix

end Trees

/-! ## The checks of one row -/

/-- The duplicate check of one index. -/
def checkUnique
    (schema : Schema)
    (trees : Trees)
    (values : Row)
    (oldValues : Option Row)
    (index : Index) : Except Failure Unit :=
  if needsProbe index.unique index.columns values oldValues &&
      trees.indexHasValue index (encodeIndexValuePrefix values index.columns) then
    .error (.duplicateKey index.name schema.name)
  else .ok ()

/-- Add a row to every index of its table. -/
def indexInsertRowWithOld
    (schema : Schema)
    (rowid : Nat)
    (values : Row)
    (oldValues : Option Row) : List Index → Trees → Except Failure Trees
  | [], trees => .ok trees
  | index :: rest, trees =>
      match checkUnique schema trees values oldValues index with
      | .error failure => .error failure
      | .ok () =>
          indexInsertRowWithOld schema rowid values oldValues rest
            (trees.insertEntry index
              (encodeIndexKey values index.columns rowid, rowid))

/-- The first `NOT NULL` column without a value fails. -/
def checkNotNull (schema : Schema) (values : Row) :
    List (Column × Nat) → Except Failure Unit
  | [] => .ok ()
  | (declared, position) :: rest =>
      if declared.notNull && (column values position).isNull then
        .error (.notNull declared.name schema.name)
      else checkNotNull schema values rest

/-- The unique index a foreign key is looked up in, with its table. -/
def parentIndex
    (catalog : Catalog)
    (key : ForeignKeyTarget) : Except Failure (Schema × Nat × Index) :=
  match catalog.get key.table with
  | none =>
      .error (.other (.corruption
        s!"FOREIGN KEY parent table '{key.table}' is gone (catalog inconsistent)"))
  | some parent =>
      match parent.columnIndex key.column with
      | none =>
          .error (.other (.corruption
            s!"FOREIGN KEY parent column '{key.table}.{key.column}' is gone"))
      | some position =>
          match parent.uniqueIndex position with
          | none =>
              .error (.other (.corruption
                s!"FOREIGN KEY parent column '{key.table}.{key.column}' has no unique index"))
          | some index => .ok (parent, position, index)

/-- Every foreign key with a value has a visible parent. -/
def checkForeignKeys
    (catalog : Catalog)
    (store : Store)
    (schema : Schema)
    (values : Row) : List (Column × Nat) → Except Failure Unit
  | [] => .ok ()
  | (declared, position) :: rest =>
      match declared.foreignKey with
      | none => checkForeignKeys catalog store schema values rest
      | some key =>
          if (column values position).isNull then
            checkForeignKeys catalog store schema values rest
          else
            match parentIndex catalog key with
            | .error failure => .error failure
            | .ok (parent, _, index) =>
                if (store parent.name).indexHasValue index
                    (encodeIndexValue (column values position)) then
                  checkForeignKeys catalog store schema values rest
                else
                  .error (.noParent declared.name schema.name key.table key.column)

/-- Whether any version of the child holds the value. -/
def scanChildForFkValue
    (store : Store)
    (reference : Reference)
    (value : Value) : Bool :=
  let trees := store reference.child.name
  let index := reference.child.indexes.find? fun index =>
    index.columns = [reference.childIdx]
  childHasValue (index.map fun index => (trees.entries index.name).map Prod.fst)
    (trees.rows.map fun row => row.2.values) reference.childIdx value

/-- No visible child refers to a value the row gives up. -/
def checkNoChildReferences
    (store : Store)
    (parent : Schema)
    (values : Row) : List Reference → Except Failure Unit
  | [] => .ok ()
  | reference :: rest =>
      if scanChildForFkValue store reference (column values reference.parentIdx) then
        .error (.cannotModify parent.name reference.child.name reference.column.name)
      else checkNoChildReferences store parent values rest

/-- `parent_changed`: whether an assignment touches a column that can be referenced. -/
def parentChanged (schema : Schema) (old new : Row) : Bool :=
  schema.indexes.any fun index =>
    index.unique && match index.columns with
      | [position] => !(column old position).equal (column new position)
      | _ => false

/-! ## `INSERT` and `UPDATE` -/

/-- How a statement finds its candidates. -/
inductive AccessPath where
  | fullScan
  | indexScan (index : String) (lower : List UInt8) (upper : Option (List UInt8))
  deriving Repr, DecidableEq

/-- The rows an index walk leads to, each rowid once. -/
def indexCandidates
    (reader : Reader)
    (trees : Trees)
    (seen : List Nat) :
    List (List UInt8 × Nat) → Except Failure (List (Nat × Record))
  | [] => .ok []
  | (_, rowid) :: rest =>
      if rowid ∈ seen then indexCandidates reader trees seen rest
      else
        match trees.search rowid with
        | none =>
            .error (.other (.corruption "index references a row that does not exist"))
        | some record =>
            (indexCandidates reader trees (rowid :: seen) rest).map fun later =>
              if reader.sees record then (rowid, record) :: later else later

/-- The visible rows of an access path, collected before the first one is written. -/
def collectCandidates
    (reader : Reader)
    (trees : Trees) : AccessPath → Except Failure (List (Nat × Record))
  | .fullScan => .ok (trees.rows.filter fun row => reader.sees row.2)
  | .indexScan index lower upper =>
      indexCandidates reader trees []
        ((trees.entries index).filter fun entry => inIndexRange lower upper entry.1)

/-- A prepared `UPDATE`; each assignment is evaluated on the old row and coerced. -/
structure Update where
  access : AccessPath
  filter : Row → Except Error Bool
  assignments : List (Nat × (Row → Except Error Value))

/-- A planned `DELETE`. -/
structure Delete where
  access : AccessPath
  filter : Row → Except Error Bool

/-- Assignments read the old row only. -/
def assign (old : Row) :
    List (Nat × (Row → Except Error Value)) → Row → Except Error Row
  | [], new => .ok new
  | (position, expression) :: rest, new =>
      match expression old with
      | .error error => .error error
      | .ok value => assign old rest (new.set position value)

section Rows

variable (catalog : Catalog) (schema : Schema)

/-- What an `INSERT` checks of a row before it writes it. -/
def admitInsert
    (store : Store)
    (evaluated : Except Error Row) : Except Failure Row := do
  let values ← evaluated.mapError .other
  checkNotNull schema values schema.columns.zipIdx
  checkForeignKeys catalog store schema values schema.columns.zipIdx
  return values

/-- What an `UPDATE` checks of a candidate before it writes it; `none` fails the filter. -/
def admitUpdate
    (reader : Reader)
    (update : Update)
    (store : Store)
    (record : Record) : Except Failure (Option Row) := do
  let old := record.values
  if ← (update.filter old).mapError Failure.other then
    (checkWriteWriteConflict record reader.snapshot reader.clog).mapError .other
    let new ← (assign old update.assignments old).mapError .other
    checkNotNull schema new schema.columns.zipIdx
    checkForeignKeys catalog store schema new schema.columns.zipIdx
    if parentChanged schema old new then
      checkNoChildReferences store schema old (catalog.childrenReferencing schema)
    return some new
  else return none

/-- Write a new version and its index entries. -/
def writeVersion
    (txId : Nat)
    (values : Row)
    (oldValues : Option Row)
    (trees : Trees) : Except Failure Trees :=
  indexInsertRowWithOld schema trees.nextRowid values oldValues schema.indexes
    (trees.append { txMin := txId, txMax := 0, values := values })

/-- Rewrite a row in place with the deleting transaction's id. -/
def tombstone (txId : Nat) (candidate : Nat × Record) (trees : Trees) : Trees :=
  trees.put candidate.1
    { txMin := candidate.2.txMin, txMax := txId, values := candidate.2.values }

/-- Rows are admitted one after the other. -/
def insertRows (txId : Nat) :
    List (Except Error Row) → Store → Except Failure Store
  | [], store => .ok store
  | evaluated :: rest, store =>
      match admitInsert catalog schema store evaluated with
      | .error failure => .error failure
      | .ok values =>
          match writeVersion schema txId values none (store schema.name) with
          | .error failure => .error failure
          | .ok trees => insertRows txId rest (Function.update store schema.name trees)

/-- Candidates are replaced one after the other. -/
def updateRows (reader : Reader) (txId : Nat) (update : Update) :
    List (Nat × Record) → Store → Except Failure Store
  | [], store => .ok store
  | candidate :: rest, store =>
      match admitUpdate catalog schema reader update store candidate.2 with
      | .error failure => .error failure
      | .ok none => updateRows reader txId update rest store
      | .ok (some new) =>
          match writeVersion schema txId new (some candidate.2.values)
              (tombstone txId candidate (store schema.name)) with
          | .error failure => .error failure
          | .ok trees =>
              updateRows reader txId update rest
                (Function.update store schema.name trees)

end Rows

section Statements

variable (catalog : Catalog) (reader : Reader)

/-- The schema and the transaction id a statement writes with. -/
def openTable (statement table : String) : Except Failure (Schema × Nat) :=
  match catalog.get table with
  | none => .error (.other (.exec s!"no such table: '{table}'"))
  | some schema =>
      match reader.snapshot.ownTx with
      | none =>
          .error (.other (.corruption s!"{statement} reached executor without a write TX"))
      | some txId => .ok (schema, txId)

def insert
    (table : String)
    (rows : List (Except Error Row))
    (store : Store) : Except Failure Store :=
  match openTable catalog reader "INSERT" table with
  | .error failure => .error failure
  | .ok (schema, txId) => insertRows catalog schema txId rows store

def update
    (table : String)
    (prepared : Except Error Update)
    (store : Store) : Except Failure Store :=
  match openTable catalog reader "UPDATE" table with
  | .error failure => .error failure
  | .ok (schema, txId) =>
      match prepared with
      | .error error => .error (.other error)
      | .ok update =>
          match collectCandidates reader (store table) update.access with
          | .error failure => .error failure
          | .ok candidates =>
              updateRows catalog schema reader txId update candidates store

end Statements

/-! ## The statements of a cascade -/

/-- A literal of a nested statement: a bound for an index, and its comparison with a row's value. -/
structure Literal where
  indexed : Option Value
  selects : Value → Except Error Bool

/-- `column = literal` on one row; a comparison with NULL selects nothing. -/
def selectsEqual (literal value : Value) : Except Error Bool :=
  match value, literal with
  | .null, _ | _, .null => .ok false
  | .int left, .int right => .ok (left = right)
  | .text left, .text right => .ok (left = right)
  | .bool left, .bool right => .ok (left = right)
  | left, right =>
      .error (.exec s!"cannot compare {left.typeName} with {right.typeName}")

/--
What the text of `sql_literal` reads back as.  A negative number is an expression
and bounds no index; the least one does not fit the lexer.  How a `REAL` prints
and reads is `realLiteral`.
-/
def sqlLiteral
    (realLiteral : UInt64 → Except Error Literal) : Value → Except Error Literal
  | .null => .ok { indexed := none, selects := fun _ => .ok false }
  | .int number =>
      if number = Int64.minValue then
        .error (.parse "integer literal \"9223372036854775808\" is out of range")
      else
        .ok {
          indexed := if number < 0 then none else some (.int number)
          selects := selectsEqual (.int number) }
  | .real bits => realLiteral bits
  | .text string =>
      .ok {
        indexed := some (.text string)
        selects := selectsEqual (.text string) }
  | .bool truth =>
      .ok {
        indexed := some (.bool truth)
        selects := selectsEqual (.bool truth) }

/-- `choose_access` for a single equality on a column. -/
def chooseAccess (schema : Schema) (position : Nat) : Option Value → AccessPath
  | none => .fullScan
  | some value =>
      match schema.indexes.find? fun index => index.columns.head? = some position with
      | none => .fullScan
      | some index =>
          .indexScan index.name (encodeIndexValue value)
            (prefixUpperBound (encodeIndexValue value))

/-! ## `DELETE` -/

/-- What a running `DELETE` has still to do, the innermost statement first. -/
inductive Task where
  /-- The loop of `delete` over the candidates that remain. -/
  | deleteRows
      (schema : Schema)
      (filter : Row → Except Error Bool)
      (candidates : List (Nat × Record))
  /-- The foreign keys that remain to be acted on before one row is deleted. -/
  | actions (schema : Schema) (candidate : Nat × Record) (references : List Reference)

section Deletes

variable (catalog : Catalog) (realLiteral : UInt64 → Except Error Literal) (reader : Reader)

/-- The nested `UPDATE` of `ON DELETE SET NULL`. -/
def setNull (reference : Reference) (literal : Literal) : Update where
  access := chooseAccess reference.child reference.childIdx literal.indexed
  filter := fun row => literal.selects (column row reference.childIdx)
  assignments := [(reference.childIdx, fun _ => .ok .null)]

/-- One foreign key of `apply_parent_delete_actions`, with the nested `DELETE` it starts. -/
def applyParentDeleteAction
    (parent : Schema)
    (values : Row)
    (reference : Reference)
    (store : Store) : Except Failure (Store × List Task) :=
  let value := column values reference.parentIdx
  match reference.onDelete with
  | .restrict =>
      if scanChildForFkValue store reference value then
        .error (.cannotDelete parent.name reference.child.name reference.column.name)
      else .ok (store, [])
  | .cascade =>
      match sqlLiteral realLiteral value with
      | .error error => .error (.other error)
      | .ok literal =>
          (collectCandidates reader (store reference.child.name)
              (chooseAccess reference.child reference.childIdx literal.indexed)).map
            fun candidates =>
              (store,
                [.deleteRows reference.child
                  (fun row => literal.selects (column row reference.childIdx))
                  candidates])
  | .setNull =>
      if reference.column.notNull then
        if scanChildForFkValue store reference value then
          .error (.setNullNotNull reference.child.name reference.column.name)
        else .ok (store, [])
      else
        match sqlLiteral realLiteral value with
        | .error error => .error (.other error)
        | .ok literal =>
            (update catalog reader reference.child.name (.ok (setNull reference literal))
              store).map fun store => (store, [])

/-- The candidates of a top-level `DELETE`. -/
def delete
    (table : String)
    (prepared : Except Error Delete)
    (store : Store) : Except Failure (List Task) :=
  match openTable catalog reader "DELETE" table with
  | .error failure => .error failure
  | .ok (schema, _) =>
      match prepared with
      | .error error => .error (.other error)
      | .ok delete =>
          (collectCandidates reader (store table) delete.access).map fun candidates =>
            [.deleteRows schema delete.filter candidates]

/-- The next step of a running `DELETE`. -/
def advance (txId : Nat) (store : Store) :
    List Task → Except Failure (Store × List Task)
  | [] => .ok (store, [])
  | .deleteRows _ _ [] :: rest => .ok (store, rest)
  | .deleteRows schema filter (candidate :: later) :: rest =>
      match filter candidate.2.values with
      | .error error => .error (.other error)
      | .ok false => .ok (store, .deleteRows schema filter later :: rest)
      | .ok true =>
          match checkWriteWriteConflict candidate.2 reader.snapshot reader.clog with
          | .error error => .error (.other error)
          | .ok () =>
              .ok (store,
                .actions schema candidate (catalog.childrenReferencing schema) ::
                  .deleteRows schema filter later :: rest)
  | .actions schema candidate [] :: rest =>
      .ok (Function.update store schema.name
        (tombstone txId candidate (store schema.name)), rest)
  | .actions schema candidate (reference :: later) :: rest =>
      (applyParentDeleteAction catalog realLiteral reader schema candidate.2.values
        reference store).map fun (store, nested) =>
          (store, nested ++ .actions schema candidate later :: rest)

end Deletes

/-! ## One connection -/

/-- A `DELETE` under way and the trees its failure goes back to. -/
structure Running where
  saved : Store
  stack : List Task

/-- One connection, the trees and a `DELETE` under way. -/
structure State where
  session : Session
  store : Store
  running : Option Running

/-- Empty tables, no statement run yet. -/
def initial (nextTxId : Nat) : State where
  session := { db := .fresh, tx := .new nextTxId .fresh }
  store := fun _ => .empty
  running := none

/-- What the connection asks for. -/
inductive Action where
  | begin
  | commit
  | rollback
  | insert (table : String) (rows : List (Except Error Row))
  | update (table : String) (prepared : Except Error Update)
  | delete (table : String) (prepared : Except Error Delete)
  /-- The next step of the `DELETE` under way. -/
  | advance

/-- What lies outside: the SSI entries a statement leaves, and the rowids a failed one has used up. -/
structure Surroundings where
  recorded : Nat → SsiTxState
  gaps : String → Nat

/-- No page write and no append to the log fails. -/
def Surroundings.answers (surroundings : Surroundings) : ConnectionCalls.Answers where
  executed := .ok ""
  recorded := surroundings.recorded
  physical := .ok ()
  logged := .ok ()

namespace State

/-- The snapshot of a statement that writes. -/
def reader (state : State) : Reader where
  snapshot := snapshotForStatement state.session.ensureWriteTx
  clog := state.session.tx.clog

/--
A statement has failed: its pages are dropped, the rowids it took stay taken.  The
trees are as before if it had freed no page; see `harms`.
-/
def failed (state : State) (surroundings : Surroundings) (saved : Store) : State where
  session :=
    (state.session.running .delete surroundings.answers).abandon surroundings.answers
  store := fun table =>
    { saved table with
      nextRowid := (saved table).nextRowid + surroundings.gaps table }
  running := none

/-- A statement has run to its end. -/
def finished (state : State) (surroundings : Surroundings) (store : Store) : State where
  session :=
    ((state.session.running .delete surroundings.answers).settle true
      surroundings.answers).2
  store := store
  running := none

/-- A statement that fails is rolled back. -/
def settled
    (state : State)
    (surroundings : Surroundings) : Except Failure Store → State
  | .ok store => state.finished surroundings store
  | .error _ => state.failed surroundings state.store

/-- Whether a statement may start. -/
def accepts (state : State) : Bool :=
  state.running.isNone && state.session.db.txn ≠ .aborted

/-- One step, `none` when it is not enabled. -/
def step
    (catalog : Catalog)
    (realLiteral : UInt64 → Except Error Literal)
    (state : State) : Action × Surroundings → Option State
  | (.begin, _) =>
      if state.running.isNone then
        some { state with session := state.session.beginTransaction.2 }
      else none
  | (.commit, surroundings) =>
      if state.running.isNone then
        some { state with
          session := (state.session.commitTransaction surroundings.answers).2 }
      else none
  | (.rollback, surroundings) =>
      if state.running.isNone then
        some { state with
          session := (state.session.rollbackTransaction surroundings.answers).2 }
      else none
  | (.insert table rows, surroundings) =>
      if state.accepts then
        some (state.settled surroundings
          (insert catalog state.reader table rows state.store))
      else none
  | (.update table prepared, surroundings) =>
      if state.accepts then
        some (state.settled surroundings
          (update catalog state.reader table prepared state.store))
      else none
  | (.delete table prepared, surroundings) =>
      if state.accepts then
        match delete catalog state.reader table prepared state.store with
        | .error _ => some (state.failed surroundings state.store)
        | .ok stack =>
            some {
              session := state.session.ensureWriteTx
              store := state.store
              running := some { saved := state.store, stack := stack } }
      else none
  | (.advance, surroundings) =>
      match state.running, state.reader.snapshot.ownTx with
      | some running, some txId =>
          if running.stack.isEmpty then
            some (state.finished surroundings state.store)
          else
            match advance catalog realLiteral state.reader txId state.store
                running.stack with
            | .error _ => some (state.failed surroundings running.saved)
            | .ok (store, stack) =>
                some { state with
                  store := store
                  running := some { running with stack := stack } }
      | _, _ => none

/-- Whether a statement fails in the step. -/
def fails
    (catalog : Catalog)
    (realLiteral : UInt64 → Except Error Literal)
    (state : State) : Action × Surroundings → Bool
  | (.insert table rows, _) =>
      !(insert catalog state.reader table rows state.store).isOk
  | (.update table prepared, _) =>
      !(update catalog state.reader table prepared state.store).isOk
  | (.delete table prepared, _) =>
      !(delete catalog state.reader table prepared state.store).isOk
  | (.advance, _) =>
      match state.running, state.reader.snapshot.ownTx with
      | some running, some txId =>
          !(advance catalog realLiteral state.reader txId state.store running.stack).isOk
      | _, _ => false
  | (.begin, _) | (.commit, _) | (.rollback, _) => false

/--
The steps that do harm.  `Pager::rollback` keeps what `free_page` did, so the overflow
pages of a committed row that the failed statement has stamped stay on the free list,
and a later statement writes over them.
-/
def harms
    (catalog : Catalog)
    (realLiteral : UInt64 → Except Error Literal)
    (state : State)
    (action : Action × Surroundings)
    (pages : FailedPages) : Bool :=
  state.fails catalog realLiteral action && pages.leftFree

theorem harms_alone
    (catalog : Catalog)
    (realLiteral : UInt64 → Except Error Literal)
    (dirty : List UInt32)
    (state : State)
    (action : Action × Surroundings) :
    state.harms catalog realLiteral action (.alone dirty) = false := by
  simp [harms]

end State

end PrehniteDB.Constraints
