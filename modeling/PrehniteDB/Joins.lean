import PrehniteDB.AccessPaths
import PrehniteDB.RowCodec

namespace PrehniteDB.Joins

open ReadPaths (ColumnType JoinKind OnShape batchSize prefixUpperBound)
open AccessPaths (Schema Index)

/-!
# The join operators

Each operator is drained: its rows in the order it hands them out, or the error
that stops it.  Left and right rows are those of its inputs.  A spill file holds the
bytes that were written to it; no access to it fails.
-/

abbrev Row := List Value

variable {Query : Type}

/-! ## Equality conjuncts -/

/--
The two sides of an equality between a left column and an inner one of its type:
the left reference, its position, and the position within an inner row.
-/
def equiSides
    (scope : Scope)
    (leftLen : Nat)
    (left right : Expr Query) : Option (ColumnRef × Nat × Nat) :=
  match left, right with
  | .column leftRef, .column rightRef => do
      let leftAt ← (scope.resolve leftRef).toOption
      let rightAt ← (scope.resolve rightRef).toOption
      let (key, keyAt, innerAt) ←
        if leftAt < leftLen ∧ leftLen ≤ rightAt then some (leftRef, leftAt, rightAt)
        else if rightAt < leftLen ∧ leftLen ≤ leftAt then some (rightRef, rightAt, leftAt)
        else none
      if (scope[keyAt]?).map ScopedColumn.type = (scope[innerAt]?).map ScopedColumn.type then
        some (key, keyAt, innerAt - leftLen)
      else none
  | _, _ => none

/-- The positions to hash on: within a left row, and within an inner row. -/
def equiJoinColumns
    (scope : Scope)
    (leftLen : Nat)
    (left right : Expr Query) : Option (Nat × Nat) :=
  (equiSides scope leftLen left right).map fun (_, keyAt, inner) => (keyAt, inner)

/-- The left key and the root of the first index that leads with the inner column. -/
def equiJoinIndex
    (scope : Scope)
    (leftLen : Nat)
    (joined : Schema)
    (left right : Expr Query) : Option (ColumnRef × UInt32) := do
  let (key, _, inner) ← equiSides scope leftLen left right
  let index ← joined.indexes.find? fun index => index.columns.head? = some inner
  some (key, index.root)

/-- The first equality among the conjuncts that serves. -/
def findEquality
    {Found : Type}
    (serves : Expr Query → Expr Query → Option Found) : Expr Query → Option Found
  | .binary (.logic .and) left right =>
      (findEquality serves left).or (findEquality serves right)
  | .binary (.comparison .eq) left right => serves left right
  | _ => none

def findEquiJoin (on : Expr Query) (leftLen : Nat) (scope : Scope) : Option (Nat × Nat) :=
  findEquality (equiJoinColumns scope leftLen) on

def findIndexJoin
    (on : Expr Query)
    (leftLen : Nat)
    (scope : Scope)
    (joined : Schema) : Option (ColumnRef × UInt32) :=
  findEquality (equiJoinIndex scope leftLen joined) on

/-! ## Pairing -/

section Operators

variable (scope : Scope) (on : Option (Expr Query)) (kind : JoinKind) (rightWidth : Nat)

/-- A left row against right rows: the combined rows the `ON` predicate keeps. -/
def pairs (left : Row) : List Row → Except Error (List Row)
  | [] => .ok []
  | right :: rest => do
      let keep ← passesFilter on scope (left ++ right)
      let later ← pairs left rest
      pure (if keep then (left ++ right) :: later else later)

/-- Whether some right row matches; the rows behind the first match are not looked at. -/
def anyMatch (left : Row) : List Row → Except Error Bool
  | [] => .ok false
  | right :: rest => do
      if ← passesFilter on scope (left ++ right) then pure true else anyMatch left rest

/-- A `LEFT` join pads a left row that matched nothing. -/
def padded (left : Row) (found : List Row) : List Row :=
  if kind = .left ∧ found = [] then [left ++ List.replicate rightWidth .null] else found

/-- What one left row contributes, for every left row in turn. -/
def eachLeft (contribution : Row → Except Error (List Row)) : List Row → Except Error (List Row)
  | [] => .ok []
  | left :: rest => do
      let here ← contribution left
      let later ← eachLeft contribution rest
      pure (here ++ later)

/-! ## The row operators -/

def nestedLoopRow (right : List Row) (left : Row) : Except Error (List Row) :=
  match kind with
  | .semi => do
      pure (if ← anyMatch scope on left right then [left] else [])
  | .anti => do
      pure (if ← anyMatch scope on left right then [] else [left])
  | .inner | .left | .cross =>
      (pairs scope on left right).map (padded kind rightWidth left)

/-- `NestedLoopJoin`. -/
def nestedLoopJoin (left right : List Row) : Except Error (List Row) :=
  eachLeft (nestedLoopRow scope on kind rightWidth right) left

/-- The inner rows under each encoded key; a `NULL` key is under none. -/
def buildTable (buildCol : Nat) (inner : List Row) : List UInt8 → List Row :=
  inner.foldl
    (fun table row =>
      if (column row buildCol).isNull then table
      else
        let key := encodeIndexValue (column row buildCol)
        Function.update table key (table key ++ [row]))
    fun _ => []

/-- The bucket of a left row; a `NULL` key probes none. -/
def bucket (table : List UInt8 → List Row) (probeCol : Nat) (left : Row) : List Row :=
  if (column left probeCol).isNull then []
  else table (encodeIndexValue (column left probeCol))

/-- `HashJoin`. -/
def hashJoin (probeCol buildCol : Nat) (left right : List Row) : Except Error (List Row) :=
  let table := buildTable buildCol right
  eachLeft
    (fun row =>
      (pairs scope on row (bucket table probeCol row)).map (padded kind rightWidth row))
    left

def hashPartitions : Nat := 16

/-- A `NULL` key goes to partition 0. -/
def partitionFor (hasher : List UInt8 → Nat) (value : Value) : Nat :=
  if value.isNull then 0 else hasher (encodeIndexValue value) % hashPartitions

/-- The length of the encoded row is cast to a `u32`. -/
def writeRow (row : Row) : List UInt8 :=
  let encoded := RowCodec.encodeRow 0 0 row
  ByteReader.bigEndian 4 encoded.length ++ encoded

/-- The rows a spill file hands back, and the error that ends them. -/
def readRows (columnCount : Nat) (bytes : List UInt8) : List Row × Option Error :=
  if bytes.length < 4 then ([], none)
  else
    let length := ByteReader.valueOf (bytes.take 4).reverse
    let rest := bytes.drop 4
    if rest.length < length then ([], some (.io "failed to fill whole buffer"))
    else
      match RowCodec.decodeRowWithin (rest.take length) columnCount with
      | .error error => ([], some error)
      | .ok record =>
          let later := readRows columnCount (rest.drop length)
          (record.values :: later.1, later.2)
termination_by bytes.length

/-- The hash join of two spill files: the inner one is drained first. -/
def spilledHashJoin
    (leftWidth probeCol buildCol : Nat)
    (left right : List UInt8) : Except Error (List Row) :=
  match readRows rightWidth right with
  | (_, some error) => .error error
  | (inner, none) =>
      let outer := readRows leftWidth left
      match hashJoin scope on kind rightWidth probeCol buildCol outer.1 inner, outer.2 with
      | .ok rows, none => .ok rows
      | .ok _, some error => .error error
      | .error error, _ => .error error

/-- `GraceHashJoin`: one hash join for each pair of partitions. -/
def graceHashJoin
    (hasher : List UInt8 → Nat)
    (leftWidth probeCol buildCol : Nat)
    (left right : List Row) : Except Error (List Row) :=
  eachPartition (List.range hashPartitions)
where
  eachPartition : List Nat → Except Error (List Row)
    | [] => .ok []
    | partition :: rest => do
        let here ← spilledHashJoin scope on kind rightWidth leftWidth probeCol buildCol
          ((left.filter fun row =>
            partitionFor hasher (column row probeCol) = partition).flatMap writeRow)
          ((right.filter fun row =>
            partitionFor hasher (column row buildCol) = partition).flatMap writeRow)
        let later ← eachPartition rest
        pure (here ++ later)

/-- `IndexNestedLoopJoin::lookup`. -/
def lookup
    {joined : Schema}
    (table : AccessPaths.Table joined)
    (root : UInt32)
    (key : Value) : Except Error (List Row) :=
  if key.isNull then .ok []
  else
    let lower := encodeIndexValue key
    (table.scan (.indexScan root lower (prefixUpperBound lower))).map
      (List.map AccessPaths.Version.values)

/-- `IndexNestedLoopJoin`. -/
def indexNestedLoopJoin
    {joined : Schema}
    (leftScope : Scope)
    (table : AccessPaths.Table joined)
    (key : ColumnRef)
    (root : UInt32)
    (left : List Row) : Except Error (List Row) :=
  eachLeft
    (fun row => do
      let keyValue ← eval leftScope row (.column key : Expr Query)
      let inner ← lookup table root keyValue
      (pairs scope on row inner).map (padded kind rightWidth row))
    left

end Operators

/-! ## Batches -/

/-- `Column::push_value`: the value as the column holds it. -/
def pushValue (type : ColumnType) (value : Value) : Except Error Value :=
  match type, value with
  | _, .null => .ok .null
  | .int, .int number => .ok (.int number)
  | .real, .real bits => .ok (.real bits)
  | .real, .int number => .ok (.real (realOfInt number))
  | .text, .text string => .ok (.text string)
  | .bool, .bool truth => .ok (.bool truth)
  | type, other =>
      .error (.exec
        ("value of type " ++ other.typeName ++ " does not fit a " ++
          ColumnType.display type ++ " column"))

/-- The batches handed out, and the one that is being filled. -/
structure Assembler where
  emitted : List (List Row)
  out : List Row

def pushValues : List ColumnType → Row → Except Error Row
  | type :: types, value :: rest => do
      let stored ← pushValue type value
      let later ← pushValues types rest
      pure (stored :: later)
  | _, _ => .ok []

/-- `ColumnBatch::push_row`: the row as the batch holds it. -/
def pushRow (types : List ColumnType) (row : Row) : Except Error Row :=
  if row.length ≠ types.length then
    .error (.corruption
      ("batch row has " ++ toString row.length ++ " value(s) but the batch has " ++
        toString types.length ++ " column(s)"))
  else pushValues types row

namespace Assembler

def empty : Assembler := { emitted := [], out := [] }

/-- Append a row; a full batch is handed out. -/
def push
    (types : List ColumnType)
    (assembler : Assembler)
    (row : Row) : Except Error Assembler := do
  let stored ← pushRow types row
  let out := assembler.out ++ [stored]
  if batchSize ≤ out.length then
    pure { emitted := assembler.emitted ++ [out], out := [] }
  else pure { assembler with out := out }

/-- The batches once the left input is spent. -/
def finish (assembler : Assembler) : List (List Row) :=
  if assembler.out = [] then assembler.emitted else assembler.emitted ++ [assembler.out]

end Assembler

section BatchOperators

variable
  (scope : Scope)
  (on : Option (Expr Query))
  (kind : JoinKind)
  (rightWidth : Nat)
  (types : List ColumnType)

/-- A left row against the rows it is compared with: every kept pair is pushed. -/
def pushPairs
    (left : Row)
    (assembler : Assembler)
    (matched : Bool) : List Row → Except Error (Assembler × Bool)
  | [] => .ok (assembler, matched)
  | right :: rest => do
      if ← passesFilter on scope (left ++ right) then
        let assembler ← assembler.push types (left ++ right)
        pushPairs left assembler true rest
      else pushPairs left assembler matched rest

/-- The rows of the left batches in turn. -/
def batchProbe
    (candidates : Row → List Row) : Assembler → List Row → Except Error Assembler
  | assembler, [] => .ok assembler
  | assembler, left :: rest => do
      let (assembler, matched) ←
        pushPairs scope on types left assembler false (candidates left)
      if kind = .left ∧ matched = false then
        let assembler ← assembler.push types (left ++ List.replicate rightWidth .null)
        batchProbe candidates assembler rest
      else batchProbe candidates assembler rest

/-- `BatchHashJoin`. -/
def batchHashJoin
    (probeCol buildCol : Nat)
    (left right : List (List Row)) : Except Error (List (List Row)) :=
  (batchProbe scope on kind rightWidth types (bucket (buildTable buildCol right.flatten) probeCol)
    .empty left.flatten).map Assembler.finish

/-- `BatchNestedLoopJoin`. -/
def batchNestedLoopJoin (left right : List (List Row)) : Except Error (List (List Row)) :=
  (batchProbe scope on kind rightWidth types (fun _ => right.flatten) .empty left.flatten).map
    Assembler.finish

end BatchOperators

/-! ## The parallel hash join -/

section Parallel

variable (scope : Scope) (outerLen : Nat) (on : Expr Query) (filter : Option (Expr Query))

/-- A worker keeps a row only when the predicate is `TRUE`; an error rejects it. -/
def workerKeeps (predicate : Option (Expr Query)) (scope : Scope) (row : Row) : Bool :=
  match passesFilter predicate scope row with
  | .ok keep => keep
  | .error _ => false

/-- One worker over the visible outer rows of its key range. -/
def joinWorker
    (table : List UInt8 → List Row)
    (probeCol : Nat)
    (plain : List Nat)
    (outer : List Row) : List Row :=
  outer.flatMap fun row =>
    if workerKeeps filter (scope.take outerLen) row then
      ((bucket table probeCol row).map (row ++ ·)).filter (workerKeeps (some on) scope)
        |>.map fun combined => plain.map (column combined)
    else []

/-- The streams of the workers, in the order of their key ranges. -/
def parallelHashJoin
    (probeCol buildCol : Nat)
    (plain : List Nat)
    (outer : List (List Row))
    (inner : List Row) : List Row :=
  outer.flatMap
    (joinWorker scope outerLen on filter (buildTable buildCol inner) probeCol plain)

end Parallel

end PrehniteDB.Joins
