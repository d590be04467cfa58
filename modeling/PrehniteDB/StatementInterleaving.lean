import PrehniteDB.TransactionState
import PrehniteDB.TransitionRun

namespace PrehniteDB.Statements

/-!
# Interleaved statements

The row store of one process at the granularity of whole statements: a
row-changing statement collects its candidates, checks all of them and writes
all of its rows in one step, and physically commits them together with the
header's next id.  A transaction draws its id and captures its snapshot in two
steps, as `TxState` does under two separate locks.

The SSI map stays out: a commit the pivot check refuses is a rollback, and a
statement that fails for any reason is `fail`.  It leaves the rows as they were
if it has freed no page; what else it can do is left to `TransitionRun.harmingStep`.
-/

/-- A connection inside a transaction. -/
structure Session where
  snapshot : Snapshot
  aborted : Bool
  deriving DecidableEq

structure State (Values : Type) where
  tx : TxState
  /-- The next id in the header on disk. -/
  persistedNextTxId : Nat
  rows : RowKey → Option (RowRecord Values)
  session : Nat → Option Session
  /-- Snapshots of autocommit reads that are still running. -/
  readers : List Snapshot

variable {Values : Type}

/-- An empty database with a fresh coordinator. -/
def initial : State Values where
  tx := .new 1 .fresh
  persistedNextTxId := 1
  rows := fun _ => none
  session := fun _ => none
  readers := []

namespace State

/-- The snapshots statements may still read under. -/
def InUse (state : State Values) (snapshot : Snapshot) : Prop :=
  snapshot ∈ state.readers ∨
    ∃ txId session,
      state.session txId = some session ∧ session.snapshot = snapshot

/-- What `snapshot` reads at `row`. -/
def read (state : State Values) (snapshot : Snapshot) (row : RowKey) : Option Values :=
  (state.rows row).bind fun record =>
    if snapshot.visible state.tx.clog record.txMin record.txMax then
      some record.values
    else none

/-- A candidate of an `UPDATE` or `DELETE`: visible, and let through by the conflict check. -/
def updatable (state : State Values) (snapshot : Snapshot) (row : RowKey) : Bool :=
  (state.rows row).any fun record =>
    snapshot.visible state.tx.clog record.txMin record.txMax &&
      match checkWriteWriteConflict record snapshot state.tx.clog with
      | .ok () => true
      | .error _ => false

/-- The rows after a statement: stamped candidates, new versions, and everything else. -/
def written
    (rows : RowKey → Option (RowRecord Values))
    (txId : Nat)
    (tombstones : List RowKey)
    (inserts : List (RowKey × Values))
    (row : RowKey) : Option (RowRecord Values) :=
  if row ∈ tombstones then
    (rows row).map fun record => { record with txMax := txId }
  else
    match inserts.lookup row with
    | some values => some { txMin := txId, txMax := 0, values := values }
    | none => rows row

/-- The session of a transaction that still accepts statements. -/
def openSession (state : State Values) (txId : Nat) : Option Session :=
  (state.session txId).filter fun session => !session.aborted

def setSession (state : State Values) (txId : Nat) (session : Option Session) : State Values :=
  { state with session := Function.update state.session txId session }

/-- Record the outcome and close the session. -/
def resolve (state : State Values) (txId : Nat) (outcome : Status) : State Values :=
  { state.setSession txId none with tx := state.tx.resolve txId outcome }

end State

/-- One step of one connection. -/
inductive Action (Values : Type) where
  | beginWrite
  | pin (txId : Nat)
  | openReader
  | closeReader (snapshot : Snapshot)
  | exec (txId : Nat) (tombstones : List RowKey) (inserts : List (RowKey × Values))
  | fail (txId : Nat)
  | commit (txId : Nat)
  | rollback (txId : Nat)

/-- One step, `none` when it is not enabled. -/
def step (state : State Values) : Action Values → Option (State Values)
  | .beginWrite => some { state with tx := state.tx.beginWrite.2 }
  | .pin txId =>
      if txId ∈ state.tx.inFlight ∧ state.session txId = none then
        some (state.setSession txId (some {
          snapshot := state.tx.snapshot (some txId)
          aborted := false }))
      else none
  | .openReader =>
      some { state with readers := state.tx.snapshot none :: state.readers }
  | .closeReader snapshot =>
      some { state with readers := state.readers.erase snapshot }
  | .exec txId tombstones inserts =>
      (state.openSession txId).bind fun session =>
        if (∀ row ∈ tombstones, state.updatable session.snapshot row = true) ∧
            (∀ insert ∈ inserts, state.rows insert.1 = none) then
          some { state with
            persistedNextTxId := state.tx.nextTxId
            rows := State.written state.rows txId tombstones inserts }
        else none
  | .fail txId =>
      (state.openSession txId).map fun session =>
        state.setSession txId (some { session with aborted := true })
  | .commit txId =>
      (state.session txId).map fun session =>
        state.resolve txId (if session.aborted then .rolledBack else .committed)
  | .rollback txId =>
      (state.session txId).map fun _ => state.resolve txId .rolledBack

/--
The steps that do harm.  `Pager::rollback` keeps what `free_page` did: when the
failed statement had stamped a row kept in overflow pages, those pages stay on the
free list, and a later statement may write over a row that is still there.
-/
def harms (_ : State Values) (action : Action Values) (pages : FailedPages) : Bool :=
  match action with
  | .fail _ => pages.leftFree
  | _ => false

theorem harms_alone
    (dirty : List UInt32)
    (state : State Values)
    (action : Action Values) :
    harms state action (.alone dirty) = false := by
  cases action <;> rfl

end PrehniteDB.Statements
