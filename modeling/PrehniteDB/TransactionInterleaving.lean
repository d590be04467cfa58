import PrehniteDB.TransactionState
import PrehniteDB.TransitionRun

namespace PrehniteDB.Interleaving

/-!
# Interleaved explicit transactions

Any number of connections run `BEGIN … COMMIT` blocks against one set of
tables.  A statement is not atomic: its candidate scan, the conflict check of
each candidate and each row write are separate steps, and the steps of
different connections interleave freely, as they do under the shared side of
the per-table lock.

`Trail` is an audit record.  No step reads it; it keeps what the laws about
runs talk about after the code itself has forgotten it.
-/

/-- One key of an index tree and the row version its rowid suffix names. -/
structure IndexEntry where
  indexRoot : UInt32
  encodedKey : List UInt8
  row : RowKey
  deriving Repr, DecidableEq

/-- How a statement reaches the rows of a table. -/
inductive AccessPath where
  | fullScan
  | indexScan (indexRoot : UInt32) (lower : List UInt8) (upper : Option (List UInt8))
  deriving Repr, DecidableEq

/-- A connection inside an explicit transaction. -/
structure Session (Values : Type) where
  snapshot : Snapshot
  aborted : Bool
  /-- Rows the running `UPDATE` or `DELETE` collected, as it read them. -/
  candidates : RowKey → Option (RowRecord Values)
  /-- Candidates the conflict check has let through. -/
  checked : RowKey → Bool
  /-- Rows this transaction has tombstoned. -/
  tombstoned : List RowKey

/-- One tombstone write: whose stamp it replaced, and who wrote it. -/
structure Overwrite where
  row : RowKey
  previous : Nat
  writer : Nat
  deriving Repr, DecidableEq

/-- The audit record of a run. -/
structure Trail where
  clock : Nat
  beganAt : Nat → Nat
  endedAt : Nat → Nat
  snapshotOf : Nat → Option Snapshot
  reads : Nat → RowKey → Bool
  scans : List (Nat × UInt32 × AccessPath)
  overwrites : List Overwrite

structure State (Values : Type) where
  tx : TxState
  rows : RowKey → Option (RowRecord Values)
  index : List IndexEntry
  session : Nat → Option (Session Values)
  trail : Trail

variable {Values : Type}

/-- An empty database with a fresh coordinator. -/
def initial : State Values where
  tx := .new 1 .fresh
  rows := fun _ => none
  index := []
  session := fun _ => none
  trail := {
    clock := 0
    beganAt := fun _ => 0
    endedAt := fun _ => 0
    snapshotOf := fun _ => none
    reads := fun _ _ => false
    scans := []
    overwrites := []
  }

/-- The rows an access path of one table ranges over. -/
def AccessPath.covers
    (access : AccessPath)
    (index : List IndexEntry)
    (tableRoot : UInt32)
    (row : RowKey) : Bool :=
  row.tableRoot = tableRoot &&
    match access with
    | .fullScan => true
    | .indexScan indexRoot lower upper =>
        index.any fun entry =>
          entry.indexRoot = indexRoot && entry.row = row &&
            inIndexRange lower upper entry.encodedKey

/-- The read lock an access path takes before its first row. -/
def AccessPath.lock (access : AccessPath) (tableRoot : UInt32) : ReadLock :=
  match access with
  | .fullScan => .relation tableRoot
  | .indexScan indexRoot lower upper => .indexRange indexRoot lower upper

namespace State

/-- Whether the stored version of `row` exists and is visible to `snapshot`. -/
def sees (state : State Values) (snapshot : Snapshot) (row : RowKey) : Bool :=
  (state.rows row).any fun record =>
    snapshot.visible state.tx.clog record.txMin record.txMax

/-- The version a scan under `snapshot` returns for `row`, if it returns one. -/
def returned
    (state : State Values)
    (snapshot : Snapshot)
    (tableRoot : UInt32)
    (access : AccessPath)
    (row : RowKey) : Bool :=
  access.covers state.index tableRoot row && state.sees snapshot row

/-- The `Some(peer)` argument of `record_read`: the stamp on the version, if any. -/
def tombstoneBy (state : State Values) (row : RowKey) : Option Nat :=
  (state.rows row).bind fun record =>
    if record.txMax = 0 then none else some record.txMax

/-- The tuple lock an index scan takes on each row it returns. -/
def lockReturned
    (state : State Values)
    (snapshot : Snapshot)
    (ssi : SsiMap)
    (row : RowKey) : SsiMap :=
  if state.sees snapshot row then
    ssi.recordRead snapshot.ownTx row.tableRoot row.rowid (state.tombstoneBy row)
  else ssi

/-- The rows an index scan looks up, once each. -/
def lookedUp (state : State Values) (tableRoot : UInt32) (access : AccessPath) : List RowKey :=
  ((state.index.map IndexEntry.row).filter
    fun row => access.covers state.index tableRoot row).dedup

/-- The SSI bookkeeping of one scan. -/
def scanLocks
    (state : State Values)
    (snapshot : Snapshot)
    (tableRoot : UInt32)
    (access : AccessPath) : SsiMap :=
  match access with
  | .fullScan => state.tx.ssi.recordRelationRead snapshot.ownTx tableRoot
  | .indexScan indexRoot lower upper =>
      (state.lookedUp tableRoot access).foldl (state.lockReturned snapshot)
        (state.tx.ssi.recordIndexRangeRead snapshot.ownTx indexRoot lower upper)

def setSession (state : State Values) (txId : Nat) (session : Session Values) : State Values :=
  { state with session := Function.update state.session txId (some session) }

/-- `BEGIN`: reserve an id and pin the snapshot. -/
def begin (state : State Values) : State Values :=
  let (txId, tx) := state.tx.beginWrite
  let snapshot := tx.snapshot (some txId)
  { state with
    tx := tx
    session := Function.update state.session txId (some {
      snapshot := snapshot
      aborted := false
      candidates := fun _ => none
      checked := fun _ => false
      tombstoned := []
    })
    trail := { state.trail with
      clock := state.trail.clock + 1
      beganAt := Function.update state.trail.beganAt txId state.trail.clock
      snapshotOf := Function.update state.trail.snapshotOf txId (some snapshot) } }

/-- The scan under a `SELECT`, a subquery, or a candidate collection. -/
def scan
    (state : State Values)
    (txId : Nat)
    (snapshot : Snapshot)
    (tableRoot : UInt32)
    (access : AccessPath) : State Values :=
  { state with
    tx := { state.tx with ssi := state.scanLocks snapshot tableRoot access }
    trail := { state.trail with
      reads := fun reader row =>
        state.trail.reads reader row ||
          (reader = txId && state.returned snapshot tableRoot access row)
      scans := (txId, tableRoot, access) :: state.trail.scans } }

/-- What `collect_candidates` hands to the update or delete loop. -/
def collected
    (state : State Values)
    (snapshot : Snapshot)
    (tableRoot : UInt32)
    (access : AccessPath)
    (row : RowKey) : Option (RowRecord Values) :=
  if state.returned snapshot tableRoot access row then state.rows row else none

/-- Rewrite `row` from the collected copy with `txMax = txId`, and record the write. -/
def writeTombstone
    (state : State Values)
    (txId : Nat)
    (row : RowKey)
    (record : RowRecord Values) : State Values :=
  { state with
    tx := { state.tx with
      ssi := state.tx.ssi.recordWrite (some txId) row.tableRoot row.rowid }
    rows := Function.update state.rows row (some { record with txMax := txId })
    trail := { state.trail with
      overwrites :=
        { row := row
          previous := ((state.rows row).map RowRecord.txMax).getD 0
          writer := txId } :: state.trail.overwrites } }

/-- `index_insert_row`: add every index key and record each index write. -/
def indexInsertRow
    (ssi : SsiMap)
    (txId : Nat)
    (keys : List (UInt32 × List UInt8)) : SsiMap :=
  keys.foldl (fun map key => map.recordIndexWrite (some txId) key.1 key.2) ssi

/-- Store a new version and its index keys. -/
def writeVersion
    (state : State Values)
    (txId : Nat)
    (row : RowKey)
    (values : Values)
    (keys : List (UInt32 × List UInt8)) : State Values :=
  { state with
    tx := { state.tx with ssi := indexInsertRow state.tx.ssi txId keys }
    rows := Function.update state.rows row
      (some { txMin := txId, txMax := 0, values := values })
    index := state.index ++ keys.map fun key =>
      { indexRoot := key.1, encodedKey := key.2, row := row } }

/-- Record the outcome and close the session. -/
def resolve (state : State Values) (txId : Nat) (outcome : Status) : State Values :=
  { state with
    tx := state.tx.resolve txId outcome
    session := Function.update state.session txId none
    trail := { state.trail with
      clock := state.trail.clock + 1
      endedAt := Function.update state.trail.endedAt txId state.trail.clock } }

end State

/-- One step of one connection. -/
inductive Action (Values : Type) where
  | begin
  | read (txId : Nat) (tableRoot : UInt32) (access : AccessPath)
  | collect (txId : Nat) (tableRoot : UInt32) (access : AccessPath)
  | check (txId : Nat) (row : RowKey)
  | tombstone (txId : Nat) (row : RowKey)
  | insert (txId : Nat) (row : RowKey) (values : Values) (keys : List (UInt32 × List UInt8))
  | insertVersion
      (txId : Nat) (old row : RowKey) (values : Values) (keys : List (UInt32 × List UInt8))
  | fail (txId : Nat)
  | commit (txId : Nat)
  | rollback (txId : Nat)

/-- The session of a transaction that still accepts statements. -/
def State.openSession (state : State Values) (txId : Nat) : Option (Session Values) :=
  (state.session txId).filter fun session => !session.aborted

/--
One step, `none` when it is not enabled.  An aborted transaction accepts only
`COMMIT` and `ROLLBACK`, and both roll it back.
-/
def step (state : State Values) : Action Values → Option (State Values)
  | .begin => some state.begin
  | .read txId tableRoot access =>
      (state.openSession txId).map fun session =>
        state.scan txId session.snapshot tableRoot access
  | .collect txId tableRoot access =>
      (state.openSession txId).map fun session =>
        (state.scan txId session.snapshot tableRoot access).setSession txId {
          session with
          candidates := state.collected session.snapshot tableRoot access
          checked := fun _ => false }
  | .check txId row =>
      (state.openSession txId).bind fun session =>
        (session.candidates row).map fun record =>
          match checkWriteWriteConflict record session.snapshot state.tx.clog with
          | .ok () =>
              state.setSession txId {
                session with checked := Function.update session.checked row true }
          | .error _ => state.setSession txId { session with aborted := true }
  | .tombstone txId row =>
      (state.openSession txId).bind fun session =>
        if session.checked row then
          (session.candidates row).map fun record =>
            (state.writeTombstone txId row record).setSession txId {
              session with
              candidates := Function.update session.candidates row none
              tombstoned := row :: session.tombstoned }
        else none
  | .insert txId row values keys =>
      (state.openSession txId).bind fun _ =>
        if (state.rows row).isNone then
          let written := state.writeVersion txId row values keys
          some { written with
            tx := { written.tx with
              ssi := written.tx.ssi.recordInsert (some txId) row.tableRoot } }
        else none
  | .insertVersion txId old row values keys =>
      (state.openSession txId).bind fun session =>
        if old ∈ session.tombstoned ∧ old.tableRoot = row.tableRoot ∧
            (state.rows row).isNone then
          some (state.writeVersion txId row values keys)
        else none
  | .fail txId =>
      (state.openSession txId).map fun session =>
        state.setSession txId { session with aborted := true }
  | .commit txId =>
      (state.session txId).map fun session =>
        if session.aborted then state.resolve txId .rolledBack
        else
          match state.tx.ssiCheckCommit txId with
          | .ok () => state.resolve txId .committed
          | .error _ => state.resolve txId .rolledBack
  | .rollback txId =>
      (state.session txId).map fun _ => state.resolve txId .rolledBack

end PrehniteDB.Interleaving
