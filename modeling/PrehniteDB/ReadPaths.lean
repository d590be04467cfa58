import PrehniteDB.PullStream
import PrehniteDB.TransactionInterleaving

namespace PrehniteDB.ReadPaths

/-!
# How statements read

The reading side of `SELECT`, `UPDATE` and `DELETE`: what each operator pulls
from the table and index trees, which versions it hands on, and which SSI locks
it records on the way.  Expressions are functions of a row, and a subquery in
one is a stream of its own.

The trees a statement reads are given with it.  A nested statement brings the
trees as they stand when it runs, so that what the outer statement has written
by then is already in them.
-/

/-- Why the executor reads: for an operator of a scan, for an index join, or for a constraint. -/
inductive Via where
  | scan
  | lookup
  | probe
  deriving Repr, DecidableEq

/-- What is read: the values of one version, or a range of one index's keys. -/
inductive Extent where
  | version (tableRoot : UInt32) (rowid : Nat)
  | range
      (tableRoot indexRoot : UInt32)
      (lower : List UInt8)
      (upper : Option (List UInt8))
  deriving Repr, DecidableEq

/-- A read, or one of the three `record_*` calls of a reader. -/
inductive Effect where
  | recordRead (tableRoot : UInt32) (rowid : Nat) (tombstoneBy : Option Nat)
  | recordRelationRead (tableRoot : UInt32)
  | recordIndexRangeRead
      (indexRoot : UInt32)
      (lower : List UInt8)
      (upper : Option (List UInt8))
  | read (via : Via) (extent : Extent)
  deriving Repr, DecidableEq

/-- The values of a row. -/
abbrev Row (Value : Type) := List Value

abbrev Record (Value : Type) := RowRecord (Row Value)

/-- Rows that are pulled, and what each pull does. -/
abbrev Stream (Item : Type) := PullStream Effect Error Item

/-- What the executor knows of the values it moves about. -/
structure Encoding (Value : Type) where
  null : Value
  isNull : Value → Bool
  /-- `==` of two values. -/
  equal : Value → Value → Bool
  encodeIndexValue : Value → List UInt8

inductive ColumnType where
  | int
  | real
  | text
  | bool
  deriving Repr, DecidableEq

structure Column where
  name : String
  type : ColumnType
  notNull : Bool
  deriving Repr, DecidableEq

/-- One index tree: its keys in order, each with the rowid in its last eight bytes. -/
structure IndexTree where
  name : String
  root : UInt32
  columns : List Nat
  unique : Bool
  keys : List (List UInt8 × Nat)

/-- One table as its trees stand: the rows in rowid order, and its indexes. -/
structure Table (Value : Type) where
  name : String
  root : UInt32
  columns : List Column
  rows : List (Nat × Record Value)
  leafPages : Nat
  indexes : List IndexTree

/-- The snapshot a statement reads under. -/
structure Reader where
  snapshot : Snapshot
  clog : Clog

variable {Value : Type}

namespace Reader

/-- The version is visible to the reader. -/
def sees (reader : Reader) (record : Record Value) : Bool :=
  reader.snapshot.visible reader.clog record.txMin record.txMax

end Reader

/-- The `Some(peer)` argument of `record_read`. -/
def tombstoneBy (record : Record Value) : Option Nat :=
  if record.txMax ≠ 0 then some record.txMax else none

/--
The smallest byte string greater than every one that starts with `encoded`;
`none` when there is no such bound.
-/
def prefixUpperBound (encoded : List UInt8) : Option (List UInt8) :=
  bump encoded.reverse
where
  bump : List UInt8 → Option (List UInt8)
    | [] => none
    | last :: rest =>
        if last ≠ 0xFF then some ((last + 1) :: rest).reverse else bump rest

/-- Whether some key starts with the bytes, whoever it belongs to. -/
def keysHaveValue (keys : List (List UInt8)) (encoded : List UInt8) : Bool :=
  keys.any (inIndexRange encoded (prefixUpperBound encoded))

namespace Table

/-- The row of a rowid. -/
def search (table : Table Value) (rowid : Nat) : Option (Record Value) :=
  (table.rows.find? fun row => row.1 = rowid).map Prod.snd

/-- The keys of the index at a root. -/
def keysOf (table : Table Value) (indexRoot : UInt32) : List (List UInt8 × Nat) :=
  ((table.indexes.find? fun index => index.root = indexRoot).map
    IndexTree.keys).getD []

/-- An index range with each key's rowid followed back to the table tree. -/
def scanRange
    (table : Table Value)
    (indexRoot : UInt32)
    (lower : List UInt8)
    (upper : Option (List UInt8)) : List (Nat × Option (Record Value)) :=
  ((table.keysOf indexRoot).filter fun key =>
    inIndexRange lower upper key.1).map fun key => (key.2, table.search key.2)

end Table

section Scans

variable (reader : Reader) (table : Table Value)

/-- The visible versions of a table walk. -/
def scanRows : List (Nat × Record Value) → Stream (Nat × Record Value)
  | [] => .done
  | (rowid, record) :: rest =>
      if reader.sees record then
        .work [.read .scan (.version table.root rowid)]
          (.emit (rowid, record) (scanRows rest))
      else scanRows rest

/-- The visible versions of an index walk, each rowid once. -/
def indexRows
    (seen : List Nat) :
    List (Nat × Option (Record Value)) → Stream (Nat × Record Value)
  | [] => .done
  | (rowid, found) :: rest =>
      if rowid ∈ seen then indexRows seen rest
      else
        match found with
        | none =>
            .fail (.corruption "index references a row that does not exist")
        | some record =>
            if reader.sees record then
              .work
                [.recordRead table.root rowid (tombstoneBy record),
                  .read .scan (.version table.root rowid)]
                (.emit (rowid, record) (indexRows (rowid :: seen) rest))
            else indexRows (rowid :: seen) rest

open Interleaving (AccessPath)

/-- What opening an access path does before the first row is pulled. -/
def opened : AccessPath → List Effect
  | .fullScan => []
  | .indexScan indexRoot lower upper =>
      [.recordIndexRangeRead indexRoot lower upper,
        .read .scan (.range table.root indexRoot lower upper)]

/-- The versions an opened access path returns. -/
def versions : AccessPath → Stream (Nat × Record Value)
  | .fullScan =>
      .work [.recordRelationRead table.root] (scanRows reader table table.rows)
  | .indexScan indexRoot lower upper =>
      indexRows reader table [] (table.scanRange indexRoot lower upper)

/-- `TableScan` and `IndexScan`. -/
def scanOperator (access : AccessPath) : Stream (Row Value) :=
  (versions reader table access).bind fun found => .emit found.2.values .done

/-- `BATCH_SIZE`. -/
def batchSize : Nat := 1024

/-- `BatchScan`. -/
def batchScan (access : AccessPath) : Stream (List (Row Value)) :=
  (scanOperator reader table access).batched batchSize []

/-- `collect_candidates`: the whole walk is made before the first row is written. -/
def collectCandidates (access : AccessPath) : Stream (Nat × Record Value) :=
  .work (opened table access) (versions reader table access)

end Scans

/-- The kinds of joins, those of rewritten subqueries included. -/
inductive JoinKind where
  | inner
  | left
  | cross
  | semi
  | anti
  deriving Repr, DecidableEq

/--
The shape of an `ON` predicate, as far as the join analysis looks: the
positions of the columns an equality compares, where its sides are columns.
-/
inductive OnShape where
  | both (left right : OnShape)
  | equal (left right : Option Nat)
  | other
  deriving Repr, DecidableEq

/-- An `ON`: its shape and what it holds of. -/
structure On (Value : Type) where
  shape : OnShape
  holds : Row Value → Except Error Bool

/-- One `JOIN`; `partitionFor` is the hash a grace join draws for it. -/
structure Join (Value : Type) where
  table : Table Value
  kind : JoinKind
  on : Option (On Value)
  partitionFor : Value → Fin 16

/-- Whether a combined row passes the `ON` predicate; a `CROSS JOIN` pairs everything. -/
def Join.matching (join : Join Value) (combined : Row Value) : Except Error Bool :=
  match join.on with
  | none => .ok true
  | some on => on.holds combined

/-- The types of a scope's columns. -/
abbrev Scope := List ColumnType

def Table.scope (table : Table Value) : Scope := table.columns.map Column.type

/-- A left column and an inner column of one type that an equality joins. -/
def equiJoinColumns
    (leftLen : Nat)
    (scope : Scope)
    (left right : Option Nat) : Option (Nat × Nat) := do
  let leftAt ← left
  let rightAt ← right
  let (outerAt, innerAt) ←
    if leftAt < leftLen ∧ leftLen ≤ rightAt then some (leftAt, rightAt)
    else if rightAt < leftLen ∧ leftLen ≤ leftAt then some (rightAt, leftAt)
    else none
  if scope[outerAt]? = scope[innerAt]? then some (outerAt, innerAt - leftLen)
  else none

/-- An equality onto the leading column of one of the joined table's indexes. -/
def equiJoinIndex
    (leftLen : Nat)
    (scope : Scope)
    (joined : Table Value)
    (left right : Option Nat) : Option (Nat × UInt32) := do
  let (keyAt, innerColumn) ← equiJoinColumns leftLen scope left right
  let index ← joined.indexes.find? fun index =>
    index.columns.head? = some innerColumn
  return (keyAt, index.root)

/-- An equality over an index of the joined table. -/
def findIndexJoin
    (leftLen : Nat)
    (scope : Scope)
    (joined : Table Value) : OnShape → Option (Nat × UInt32)
  | .both left right =>
      (findIndexJoin leftLen scope joined left).orElse fun _ =>
        findIndexJoin leftLen scope joined right
  | .equal left right => equiJoinIndex leftLen scope joined left right
  | .other => none

/-- An equality of columns of one type. -/
def findEquiJoin (leftLen : Nat) (scope : Scope) : OnShape → Option (Nat × Nat)
  | .both left right =>
      (findEquiJoin leftLen scope left).orElse fun _ =>
        findEquiJoin leftLen scope right
  | .equal left right => equiJoinColumns leftLen scope left right
  | .other => none

section Joins

variable (encoding : Encoding Value) (reader : Reader)

/-- The value at a column position. -/
def column (row : Row Value) (position : Nat) : Value :=
  (row[position]?).getD encoding.null

/-- One left row against the right rows that remain. -/
def pair
    (join : Join Value)
    (left : Row Value)
    (matched : Bool) :
    List (Row Value) → Stream (Row Value)
  | [] =>
      match join.kind with
      | .left =>
          if matched then .done
          else
            .emit
              (left ++ List.replicate join.table.columns.length encoding.null)
              .done
      | .anti => if matched then .done else .emit left .done
      | _ => .done
  | right :: rest =>
      match join.matching (left ++ right) with
      | .error error => .fail error
      | .ok false => pair join left matched rest
      | .ok true =>
          match join.kind with
          | .semi => .emit left .done
          | .anti => .done
          | _ => .emit (left ++ right) (pair join left true rest)

/-- `NestedLoopJoin`: the inner side is buffered on the first pull. -/
def nestedLoopJoin
    (join : Join Value)
    (left right : Stream (Row Value)) : Stream (Row Value) :=
  right.drain fun rightRows =>
    left.bind fun row => pair encoding join row false rightRows

/-- The visible versions an index join finds, each rowid once. -/
def lookupRows
    (table : Table Value)
    (seen : List Nat) :
    List (Nat × Option (Record Value)) → Stream (Row Value)
  | [] => .done
  | (rowid, found) :: rest =>
      if rowid ∈ seen then lookupRows table seen rest
      else
        match found with
        | none =>
            .fail (.corruption "index references a row that does not exist")
        | some record =>
            if reader.sees record then
              .work [.read .lookup (.version table.root rowid)]
                (.emit record.values (lookupRows table (rowid :: seen) rest))
            else lookupRows table (rowid :: seen) rest

/-- `IndexNestedLoopJoin::lookup`: it records no lock. -/
def lookup
    (table : Table Value)
    (indexRoot : UInt32)
    (key : Value) : Stream (Row Value) :=
  if encoding.isNull key then .done
  else
    let lower := encoding.encodeIndexValue key
    let upper := prefixUpperBound lower
    .work [.read .lookup (.range table.root indexRoot lower upper)]
      (lookupRows reader table [] (table.scanRange indexRoot lower upper))

/-- `IndexNestedLoopJoin`: one lookup for each left row. -/
def indexNestedLoopJoin
    (join : Join Value)
    (keyAt : Nat)
    (indexRoot : UInt32)
    (left : Stream (Row Value)) : Stream (Row Value) :=
  left.bind fun row =>
    (lookup encoding reader join.table indexRoot
      (column encoding row keyAt)).drain fun inner =>
        pair encoding join row false inner

/-- The inner rows that share a left row's join key; a `NULL` key matches nothing. -/
def bucket
    (probeCol buildCol : Nat)
    (left : Row Value)
    (inner : List (Row Value)) : List (Row Value) :=
  let probe := column encoding left probeCol
  if encoding.isNull probe then []
  else
    inner.filter fun row =>
      let build := column encoding row buildCol
      !encoding.isNull build &&
        encoding.encodeIndexValue build = encoding.encodeIndexValue probe

/-- `GraceHashJoin`: both sides are spilled before the first partition is joined. -/
def graceHashJoin
    (join : Join Value)
    (probeCol buildCol : Nat)
    (left right : Stream (Row Value)) : Stream (Row Value) :=
  right.drain fun inner =>
    left.drain fun outer =>
      (PullStream.ofList (List.finRange 16)).bind fun partition =>
        let spilled := fun position row =>
          join.partitionFor (column encoding row position) = partition
        (PullStream.ofList (outer.filter fun row => spilled probeCol row)).bind
          fun row =>
            pair encoding join row false
              (bucket encoding probeCol buildCol row
                (inner.filter fun other => spilled buildCol other))

/-- One join of `build_from`, over the rows joined so far. -/
def joinStep
    (join : Join Value)
    (left : Stream (Row Value) × Scope) : Stream (Row Value) × Scope :=
  let combined := left.2 ++ join.table.scope
  let right := scanOperator reader join.table .fullScan
  match join.kind with
  | .semi | .anti => (nestedLoopJoin encoding join left.1 right, left.2)
  | _ =>
      match join.on.bind fun on =>
          findIndexJoin left.2.length combined join.table on.shape with
      | some (keyAt, indexRoot) =>
          (indexNestedLoopJoin encoding reader join keyAt indexRoot left.1,
            combined)
      | none =>
          match join.on.bind fun on =>
              findEquiJoin left.2.length combined on.shape with
          | some (probeCol, buildCol) =>
              (graceHashJoin encoding join probeCol buildCol left.1 right,
                combined)
          | none => (nestedLoopJoin encoding join left.1 right, combined)

/-- `build_from`, once the base access path is open. -/
def buildFrom
    (table : Table Value)
    (access : Interleaving.AccessPath)
    (joins : List (Join Value)) : Stream (Row Value) :=
  (joins.foldl (fun left join => joinStep encoding reader join left)
    (scanOperator reader table access, table.scope)).1

/-- `BatchNestedLoopJoin` and `BatchHashJoin`. -/
def batchJoinStep
    (join : Join Value)
    (left : Stream (List (Row Value)) × Scope) :
    Stream (List (Row Value)) × Scope :=
  let combined := left.2 ++ join.table.scope
  let right := (batchScan reader join.table .fullScan).bind .ofList
  let matching : Row Value → List (Row Value) → List (Row Value) :=
    match join.on.bind fun on =>
        findEquiJoin left.2.length combined on.shape with
    | some (probeCol, buildCol) => bucket encoding probeCol buildCol
    | none => fun _ inner => inner
  let rows := right.drain fun inner =>
    (left.1.bind .ofList).bind fun row =>
      pair encoding join row false (matching row inner)
  (rows.batched batchSize [], combined)

/-- The join tree of `select_vectorised`. -/
def buildBatches
    (table : Table Value)
    (access : Interleaving.AccessPath)
    (joins : List (Join Value)) : Stream (List (Row Value)) :=
  (joins.foldl (fun left join => batchJoinStep encoding reader join left)
    (batchScan reader table access, table.scope)).1

/-- Whether no join has to go through the row pipeline. -/
def joinsVectorisable (table : Table Value) (joins : List (Join Value)) : Bool :=
  (joins.foldl
    (fun (sofar : Bool × Scope) join =>
      let combined := sofar.2 ++ join.table.scope
      let onRows := join.kind = .semi ∨ join.kind = .anti ∨
        (join.on.bind fun on => findIndexJoin sofar.2.length combined join.table
          on.shape).isSome
      (sofar.1 && !decide onRows, combined))
    (true, table.scope)).1

end Joins

end PrehniteDB.ReadPaths
