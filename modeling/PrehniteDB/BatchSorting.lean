import PrehniteDB.Joins
import PrehniteDB.PulledRuns
import PrehniteDB.RowCodec
import PrehniteDB.RowSorting

namespace PrehniteDB.BatchSorting

open ByteReader (littleEndian valueOf)
open Joins (Row pushRow)
open PulledRuns (Machine)
open ReadPaths (ColumnType batchSize)
open RowCodec (decodeValuesWithin encodeValues)

/-!
# External sorting

Rows are buffered up to a threshold; a full buffer is sorted and spilled.  What was
spilled is merged, with one row of every run in a heap.  A spill file holds the
bytes that were written to it.
-/

def sortSpillThreshold : Nat := 8 * 1024

/-! ## Runs -/

/-- What is left to read of a run. -/
structure SpilledRun where
  bytes : List UInt8
  columnCount : Nat

/-- The length is written as a `u32`. -/
def encodeEntry (row : Row) : List UInt8 :=
  littleEndian 4 (encodeValues row).length ++ encodeValues row

/-- The run of a buffer, which is sorted first. -/
def spillSortedRun (keys : List (Nat × Bool)) (columnCount : Nat) (buffer : List Row) :
    SpilledRun where
  bytes := (sortRows keys buffer).flatMap encodeEntry
  columnCount

/-- The end of the file within a length ends the run. -/
def SpilledRun.nextRow (run : SpilledRun) : Except Error (Option (Row × SpilledRun)) :=
  if run.bytes.length < 4 then .ok none
  else
    let length := valueOf (run.bytes.take 4)
    let rest := run.bytes.drop 4
    if rest.length < length then .error (.io "failed to fill whole buffer")
    else do
      let row ← decodeValuesWithin (rest.take length) run.columnCount
      pure (some (row, { run with bytes := rest.drop length }))

/-! ## The heap -/

/-- A row with the number of its run. -/
structure MergeEntry where
  row : Row
  runId : Nat
  deriving DecidableEq

/-- The order of a max-heap: the row that sorts first, and of tied rows that of the first run. -/
def MergeEntry.cmp (keys : List (Nat × Bool)) (entry other : MergeEntry) : Ordering :=
  (orderRows keys entry.row other.row).swap.then (compare other.runId entry.runId)

/-- `BinaryHeap::pop`: the greatest entry, and the others. -/
def pop (keys : List (Nat × Bool)) : List MergeEntry → Option (MergeEntry × List MergeEntry)
  | [] => none
  | entry :: rest =>
      match pop keys rest with
      | none => some (entry, [])
      | some (best, others) =>
          if best.cmp keys entry = .gt then some (best, entry :: others)
          else some (entry, rest)

/-! ## The operator -/

inductive SortState where
  | building (buffer : List Row) (runs : List SpilledRun)
  | drainingMemory (rows : List Row)
  | drainingMerge (runs : List SpilledRun) (heap : List MergeEntry)

structure BatchSort where
  /-- The batches to come, until they are drained. -/
  input : Option (List (List Row))
  state : SortState

section Operator

variable (threshold : Nat) (keys : List (Nat × Bool)) (columnTypes : List ColumnType)

def BatchSort.new (input : List (List Row)) : BatchSort where
  input := some input
  state := .building [] []

/-- One input row; a full buffer is spilled. -/
def bufferRow (building : List Row × List SpilledRun) (row : Row) : List Row × List SpilledRun :=
  let buffer := building.1 ++ [row]
  if threshold ≤ buffer.length then
    ([], building.2 ++ [spillSortedRun keys columnTypes.length buffer])
  else (buffer, building.2)

/-- The first row of each run is put on the heap. -/
def primeHeap : Nat → List SpilledRun → Except Error (List SpilledRun × List MergeEntry)
  | _, [] => .ok ([], [])
  | runId, run :: rest => do
      match ← run.nextRow with
      | some (row, later) => do
          let (runs, heap) ← primeHeap (runId + 1) rest
          pure (later :: runs, { row, runId } :: heap)
      | none => do
          let (runs, heap) ← primeHeap (runId + 1) rest
          pure (run :: runs, heap)

def drainInput (input : List (List Row)) (state : SortState) : Except Error SortState :=
  match state with
  | .building buffer runs =>
      let (buffer, runs) :=
        input.flatten.foldl (bufferRow threshold keys columnTypes) (buffer, runs)
      if runs.isEmpty then .ok (.drainingMemory (sortRows keys buffer))
      else
        let runs :=
          if buffer.isEmpty then runs
          else runs ++ [spillSortedRun keys columnTypes.length buffer]
        (primeHeap 0 runs).map fun (runs, heap) => .drainingMerge runs heap
  | _ => .error (.corruption "drain_input called in non-Building state")

/-- A run that gave a row gives the heap its next one. -/
def nextSortedRow : Machine SortState Error Row
  | .building _ _ => .error (.corruption "next_sorted_row called before drain_input")
  | .drainingMemory [] => .ok none
  | .drainingMemory (row :: rest) => .ok (some (row, .drainingMemory rest))
  | .drainingMerge runs heap =>
      match pop keys heap with
      | none => .ok none
      | some (entry, others) =>
          match runs[entry.runId]? with
          | none => .error (.corruption "index out of bounds")
          | some run => do
              match ← run.nextRow with
              | some (row, later) =>
                  pure (some (entry.row,
                    .drainingMerge (runs.set entry.runId later)
                      ({ row, runId := entry.runId } :: others)))
              | none => pure (some (entry.row, .drainingMerge runs others))

/-- At most so many rows, as the batch holds them. -/
def collectRows : Nat → SortState → List Row → Except Error (List Row × SortState)
  | 0, state, batch => .ok (batch, state)
  | room + 1, state, batch => do
      match ← nextSortedRow keys state with
      | some (row, later) =>
          let stored ← pushRow columnTypes row
          collectRows room later (batch ++ [stored])
      | none => pure (batch, state)

def nextBatch : Machine BatchSort Error (List Row) := fun sort => do
  let state ←
    match sort.input with
    | some input => drainInput threshold keys columnTypes input sort.state
    | none => pure sort.state
  let (batch, state) ← collectRows keys columnTypes batchSize state []
  pure (if batch = [] then none else some (batch, { input := none, state }))

end Operator

end PrehniteDB.BatchSorting
