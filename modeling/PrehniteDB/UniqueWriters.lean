import PrehniteDB.ConflictTracking
import PrehniteDB.IndexValues

namespace PrehniteDB.UniqueWriters

open Interleaving (IndexEntry)
open ReadPaths (keysHaveValue)
open TransitionRun

/-!
# Concurrent writers of a unique index

The row writes of `INSERT` and `UPDATE` taken apart: the row goes into the
table, and then, index by index, a unique index is probed for the value and the
entry is inserted.  Every one of these is a step of its own, and the steps of
the connections that hold the table lock shared interleave freely.  The
transactions underneath are those of `Interleaving`.
-/

abbrev Row := List Value

structure Index where
  root : UInt32
  columns : List Nat
  unique : Bool
  deriving Repr, DecidableEq

/-- The indexes of each table, by the root of its tree. -/
abbrev Catalog := UInt32 → List Index

/-- Where a connection stands in the write of one row. -/
inductive Writing where
  | idle
  /-- `UPDATE` has tombstoned the old version and has yet to write the new one. -/
  | replaced (old : RowKey) (values : Row)
  /-- The row is in the table; `remaining` are the indexes it is not in yet. -/
  | indexing
      (row : RowKey)
      (values : Row)
      (old : Option (RowKey × Row))
      (remaining : List Index)
      (probed : Bool)
  deriving Repr, DecidableEq

structure State where
  base : Interleaving.State Row
  writing : Nat → Writing
  /-- The snapshots of autocommit reads that are still running. -/
  readers : List Snapshot

def initial : State where
  base := Interleaving.initial
  writing := fun _ => .idle
  readers := []

inductive Action where
  /-- Anything a connection does between two row writes. -/
  | between (action : Interleaving.Action Row)
  | openReader
  | closeReader (snapshot : Snapshot)
  /-- `INSERT` puts a row into the table. -/
  | insert (txId : Nat) (row : RowKey) (values : Row)
  /-- `UPDATE` tombstones a candidate. -/
  | replace (txId : Nat) (row : RowKey)
  /-- `UPDATE` puts the new version into the table. -/
  | insertVersion (txId : Nat) (row : RowKey) (values : Row)
  /-- The duplicate probe; on a hit the entries of the `lost` rows go with the statement. -/
  | probe (txId : Nat) (lost : List RowKey)
  | insertEntry (txId : Nat)
  /-- The row is in every index. -/
  | finish (txId : Nat)
  /-- The statement fails for another reason. -/
  | fail (txId : Nat) (lost : List RowKey)

/-- The transaction an action belongs to; `none` for a row write, which has steps of its own. -/
def worker : Interleaving.Action Row → Option (Option Nat)
  | .begin => some none
  | .read txId _ _ | .collect txId _ _ | .check txId _ | .tombstone txId _
  | .fail txId | .commit txId | .rollback txId => some (some txId)
  | .insert .. | .insertVersion .. => none

/-- `any_null`, `unchanged` and the flag of the index: whether the duplicate probe runs. -/
def needsProbe (index : Index) (values : Row) (old : Option (RowKey × Row)) : Bool :=
  PrehniteDB.needsProbe index.unique index.columns values (old.map Prod.snd)

/-- `index_has_value`: a scan of the keys that start with the value. -/
def indexHasValue
    (entries : List IndexEntry)
    (root : UInt32)
    (valuePrefix : List UInt8) : Bool :=
  keysHaveValue ((entries.filter fun entry => entry.indexRoot = root).map IndexEntry.encodedKey)
    valuePrefix

/-- The entry of a row in one index. -/
def entryOf (index : Index) (values : Row) (row : RowKey) : IndexEntry where
  indexRoot := index.root
  encodedKey := encodeIndexKey values index.columns row.rowid
  row := row

namespace State

def setWriting (state : State) (txId : Nat) (writing : Writing) : State :=
  { state with writing := Function.update state.writing txId writing }

/-- Insert one entry and record the index write. -/
def insertEntry (base : Interleaving.State Row) (txId : Nat) (entry : IndexEntry) :
    Interleaving.State Row :=
  { base with
    tx := { base.tx with
      ssi := base.tx.ssi.recordIndexWrite (some txId) entry.indexRoot entry.encodedKey }
    index := base.index ++ [entry] }

/-- The transaction that created the stored version of a row. -/
def creator (base : Interleaving.State Row) (row : RowKey) : Option Nat :=
  (base.rows row).map RowRecord.txMin

/--
A failed statement ends its transaction.  Its rows can be seen by nobody from
here on; the entries of those whose pages were dropped are gone.  What else goes
with the pages is left to `harms`.
-/
def fail (state : State) (txId : Nat) (lost : List RowKey) : State :=
  let ended := state.base.resolve txId .rolledBack
  { (state.setWriting txId .idle) with
    base := { ended with
      index := ended.index.filter fun entry =>
        !(decide (entry.row ∈ lost) && decide (creator state.base entry.row = some txId)) } }

/-- The probe of the next index, and what follows from it. -/
def probe
    (state : State)
    (txId : Nat)
    (lost : List RowKey) : Option State :=
  match state.writing txId with
  | .indexing row values old (index :: rest) false =>
      if needsProbe index values old then
        if indexHasValue state.base.index index.root
            (encodeIndexValuePrefix values index.columns) then
          some (state.fail txId lost)
        else some (state.setWriting txId (.indexing row values old (index :: rest) true))
      else none
  | _ => none

end State

open State in
/-- One step, `none` when it is not enabled. -/
def step (catalog : Catalog) (state : State) : Action → Option State
  | .between action =>
      match worker action with
      | none => none
      | some who =>
          if who.all fun txId => decide (state.writing txId = .idle) then
            (Interleaving.step state.base action).map fun base => { state with base := base }
          else none
  | .openReader =>
      some { state with readers := state.base.tx.snapshot none :: state.readers }
  | .closeReader snapshot =>
      some { state with readers := state.readers.erase snapshot }
  | .insert txId row values =>
      if state.writing txId = .idle then
        (Interleaving.step state.base (.insert txId row values [])).map fun base =>
          { (state.setWriting txId
              (.indexing row values none (catalog row.tableRoot) false)) with
            base := base }
      else none
  | .replace txId row =>
      match state.writing txId, (state.base.openSession txId).bind fun session =>
          session.candidates row with
      | .idle, some record =>
          (Interleaving.step state.base (.tombstone txId row)).map fun base =>
            { (state.setWriting txId (.replaced row record.values)) with base := base }
      | _, _ => none
  | .insertVersion txId row values =>
      match state.writing txId with
      | .replaced old oldValues =>
          (Interleaving.step state.base (.insertVersion txId old row values [])).map fun base =>
            { (state.setWriting txId
                (.indexing row values (some (old, oldValues))
                  (catalog row.tableRoot) false)) with
              base := base }
      | _ => none
  | .probe txId lost => state.probe txId lost
  | .insertEntry txId =>
      match state.writing txId with
      | .indexing row values old (index :: rest) probed =>
          if needsProbe index values old = true → probed = true then
            some { (state.setWriting txId (.indexing row values old rest false)) with
              base := State.insertEntry state.base txId (entryOf index values row) }
          else none
      | _ => none
  | .finish txId =>
      match state.writing txId with
      | .indexing _ _ _ [] _ => some (state.setWriting txId .idle)
      | _ => none
  | .fail txId lost =>
      (state.base.session txId).map fun _ => state.fail txId lost

/-- Whether the step is the failure of a statement. -/
def fails (state : State) : Action → Bool
  | .fail _ _ | .between (.fail _) => true
  | .probe txId _ =>
      match state.writing txId with
      | .indexing _ values old (index :: _) false =>
          needsProbe index values old &&
            indexHasValue state.base.index index.root
              (encodeIndexValuePrefix values index.columns)
      | _ => false
  | _ => false

/--
The steps that do harm: a statement fails.  `drop_pages` takes whole frames out of the
shared pool, with the rows and entries a peer has staged on the same pages, and the pages
that the statement had freed stay on the free list.
-/
def harms (state : State) (action : Action) (pages : FailedPages) : Bool :=
  fails state action && (pages.shared || pages.leftFree)

theorem harms_alone
    (dirty : List UInt32)
    (state : State)
    (action : Action) :
    harms state action (.alone dirty) = false := by
  simp [harms]

end PrehniteDB.UniqueWriters
