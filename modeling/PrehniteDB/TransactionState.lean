import Mathlib.Data.Finset.Max
import Mathlib.Logic.Function.Basic
import PrehniteDB.Error

namespace PrehniteDB

/-!
# Transaction coordinator

The commit log, the visibility snapshots and the SSI bookkeeping of
`engine/transaction.rs` and `engine/clog.rs`.  A snapshot keeps a handle to
the live commit log, so visibility takes the log as an argument: the same
snapshot may be asked again after the log has moved on.
-/

/-- The outcome a transaction resolved to. -/
inductive Status where
  | committed
  | rolledBack
  deriving Repr, DecidableEq

/-- The published part of the commit log: fsynced outcomes and the truncation floor. -/
structure Clog where
  map : Nat → Option Status
  minTxId : Nat

namespace Clog

/-- A freshly created commit log. -/
def fresh : Clog where
  map := fun _ => none
  minTxId := 0

/-- Below the truncation floor every id answers `committed`. -/
def status (clog : Clog) (txId : Nat) : Option Status :=
  if txId < clog.minTxId then some .committed else clog.map txId

def isCommitted (clog : Clog) (txId : Nat) : Bool :=
  clog.status txId = some .committed

def isRolledBack (clog : Clog) (txId : Nat) : Bool :=
  clog.status txId = some .rolledBack

/-- Publish one durable outcome. -/
def append (clog : Clog) (txId : Nat) (outcome : Status) : Clog where
  map := Function.update clog.map txId (some outcome)
  minTxId := clog.minTxId

def recordCommit (clog : Clog) (txId : Nat) : Clog :=
  clog.append txId .committed

def recordRollback (clog : Clog) (txId : Nat) : Clog :=
  clog.append txId .rolledBack

/-- Drop every record below `floor` and raise the floor; a floor that does not advance is a no-op. -/
def truncateBelow (clog : Clog) (floor : Nat) : Clog :=
  if floor = 0 then clog
  else if floor ≤ clog.minTxId then clog
  else {
    map := fun txId => if floor ≤ txId then clog.map txId else none
    minTxId := floor
  }

@[simp] theorem isCommitted_iff {clog : Clog} {txId : Nat} :
    clog.isCommitted txId = true ↔ clog.status txId = some .committed := by
  simp [isCommitted]

@[simp] theorem isRolledBack_iff {clog : Clog} {txId : Nat} :
    clog.isRolledBack txId = true ↔ clog.status txId = some .rolledBack := by
  simp [isRolledBack]

@[simp] theorem status_fresh (txId : Nat) : fresh.status txId = none := by
  simp [fresh, status]

theorem status_append_other
    {clog : Clog}
    {txId other : Nat}
    {outcome : Status}
    (different : other ≠ txId) :
    (clog.append txId outcome).status other = clog.status other := by
  simp [append, status, different]

theorem status_append_self
    {clog : Clog}
    {txId : Nat}
    {outcome : Status}
    (aboveFloor : clog.minTxId ≤ txId) :
    (clog.append txId outcome).status txId = some outcome := by
  simp [append, status, Nat.not_lt.mpr aboveFloor]

/-- Truncation answers `committed` below the floor and leaves the rest alone. -/
theorem status_truncateBelow
    (clog : Clog)
    (floor txId : Nat) :
    (clog.truncateBelow floor).status txId =
      if txId < floor then some .committed else clog.status txId := by
  unfold truncateBelow
  by_cases zero : floor = 0
  · simp [zero]
  by_cases stale : floor ≤ clog.minTxId
  · by_cases below : txId < floor
    · simp [zero, stale, below, status, Nat.lt_of_lt_of_le below stale]
    · simp [zero, stale, below]
  · by_cases below : txId < floor
    · simp [zero, stale, below, status]
    · have aboveOld : ¬ txId < clog.minTxId := by omega
      simp [zero, stale, below, status, aboveOld, Nat.le_of_not_lt below]

end Clog

/-- The visibility frame of one read, as captured. -/
structure Snapshot where
  nextTx : Nat
  inFlight : Finset Nat
  ownTx : Option Nat
  deriving DecidableEq

namespace Snapshot

/-- The creation half of the visibility rule. -/
def created (snapshot : Snapshot) (clog : Clog) (txMin : Nat) : Bool :=
  if some txMin = snapshot.ownTx then true
  else if txMin = 0 then true
  else if !clog.isCommitted txMin then false
  else decide (txMin < snapshot.nextTx) && decide (txMin ∉ snapshot.inFlight)

/-- Whether a row with header `(txMin, txMax)` is visible to this snapshot. -/
def visible (snapshot : Snapshot) (clog : Clog) (txMin txMax : Nat) : Bool :=
  if !snapshot.created clog txMin then false
  else if txMax = 0 then true
  else if some txMax = snapshot.ownTx then false
  else if !clog.isCommitted txMax then true
  else decide (snapshot.nextTx ≤ txMax) || decide (txMax ∈ snapshot.inFlight)

/-- The snapshot counts `txId` as finished: it is below `nextTx` and was not in flight at capture. -/
def Past (snapshot : Snapshot) (txId : Nat) : Prop :=
  txId < snapshot.nextTx ∧ txId ∉ snapshot.inFlight

instance (snapshot : Snapshot) (txId : Nat) : Decidable (snapshot.Past txId) :=
  inferInstanceAs (Decidable (_ ∧ _))

/-- The effects of `txId` are visible through the log: committed and past. -/
def Sees (snapshot : Snapshot) (clog : Clog) (txId : Nat) : Prop :=
  clog.status txId = some .committed ∧ snapshot.Past txId

instance (snapshot : Snapshot) (clog : Clog) (txId : Nat) :
    Decidable (snapshot.Sees clog txId) :=
  inferInstanceAs (Decidable (_ ∧ _))

/-- The creator is the reader itself, or has committed before its snapshot. -/
theorem created_iff
    {snapshot : Snapshot}
    {clog : Clog}
    {txMin : Nat} :
    snapshot.created clog txMin = true ↔
      some txMin = snapshot.ownTx ∨ txMin = 0 ∨ snapshot.Sees clog txMin := by
  unfold created Sees Past
  split_ifs with own zero uncommitted
  · simp [own]
  · simp [zero]
  · simp only [Bool.not_eq_eq_eq_not, Bool.not_true, ← Bool.not_eq_true,
      Clog.isCommitted_iff] at uncommitted
    simp [own, zero, uncommitted]
  · simp only [Bool.not_eq_eq_eq_not, Bool.not_true, ← Bool.not_eq_true,
      Clog.isCommitted_iff, not_not] at uncommitted
    simp [own, zero, uncommitted]

/-- A version is visible when it is created and not removed. -/
theorem visible_iff
    {snapshot : Snapshot}
    {clog : Clog}
    {txMin txMax : Nat} :
    snapshot.visible clog txMin txMax = true ↔
      snapshot.created clog txMin = true ∧
        (txMax = 0 ∨
          (some txMax ≠ snapshot.ownTx ∧ ¬ snapshot.Sees clog txMax)) := by
  unfold visible
  split_ifs with uncreated live own uncommitted
  · simp_all
  · simp_all
  · simp_all
  · simp only [Bool.not_eq_eq_eq_not, Bool.not_true, ← Bool.not_eq_true,
      Clog.isCommitted_iff] at uncommitted
    simp_all [Sees]
  · simp only [Bool.not_eq_eq_eq_not, Bool.not_true, ← Bool.not_eq_true,
      Clog.isCommitted_iff, not_not] at uncommitted
    simp only [Bool.not_eq_eq_eq_not, Bool.not_true, Bool.not_eq_false] at uncreated
    simp only [Bool.or_eq_true, decide_eq_true_eq, uncreated, true_and, live,
      own, Sees, uncommitted, Past, not_and, not_not, false_or, ne_eq,
      not_false_eq_true]
    constructor
    · rintro (future | inFlight) notFuture
      · omega
      · exact inFlight
    · intro hidden
      by_cases future : snapshot.nextTx ≤ txMax
      · exact .inl future
      · exact .inr (hidden (Nat.lt_of_not_le future))

/-- Visibility asks the commit log only about the two ids of the header. -/
theorem visible_congr
    {snapshot : Snapshot}
    {clog other : Clog}
    {txMin txMax : Nat}
    (sameMin : clog.status txMin = other.status txMin)
    (sameMax : txMax ≠ 0 → clog.status txMax = other.status txMax) :
    snapshot.visible clog txMin txMax = snapshot.visible other txMin txMax := by
  have sameCreated :
      snapshot.created clog txMin = snapshot.created other txMin := by
    have answer : clog.isCommitted txMin = other.isCommitted txMin := by
      rw [Clog.isCommitted, Clog.isCommitted, sameMin]
    simp only [created, answer]
  by_cases live : txMax = 0
  · simp only [visible, sameCreated, live, if_true]
  · have answer : clog.isCommitted txMax = other.isCommitted txMax := by
      rw [Clog.isCommitted, Clog.isCommitted, sameMax live]
    simp only [visible, sameCreated, answer]

/-- A version its creator deleted is visible to nobody. -/
theorem visible_self
    {snapshot : Snapshot}
    {clog : Clog}
    {txId : Nat}
    (positive : txId ≠ 0) :
    snapshot.visible clog txId txId = false := by
  rw [Bool.eq_false_iff, ne_eq, visible_iff, created_iff]
  rintro ⟨created, alive⟩
  obtain ⟨foreign, unseen⟩ := alive.resolve_left positive
  rcases created with own | zero | seen
  · exact foreign own
  · exact positive zero
  · exact unseen seen

end Snapshot

/-- One entry of a transaction's SSI read set. -/
inductive ReadLock where
  | tuple (tableRoot : UInt32) (rowidKey : Nat)
  | relation (tableRoot : UInt32)
  | indexRange (indexRoot : UInt32) (lower : List UInt8) (upper : Option (List UInt8))
  deriving Repr, DecidableEq

/-- One transaction's read set and its two conflict flags. -/
structure SsiTxState where
  readSet : List ReadLock
  outConflict : Bool
  inConflict : Bool
  deriving Repr, DecidableEq

namespace SsiTxState

/-- The bookkeeping a transaction starts with. -/
def default : SsiTxState where
  readSet := []
  outConflict := false
  inConflict := false

/-- One more lock in the read set. -/
def addLock (state : SsiTxState) (lock : ReadLock) : SsiTxState :=
  { state with readSet := lock :: state.readSet }

/-- A peer has written what the transaction read. -/
def markOut (state : SsiTxState) : SsiTxState :=
  { state with outConflict := true }

/-- The transaction has written what a peer read. -/
def markIn (state : SsiTxState) : SsiTxState :=
  { state with inConflict := true }

end SsiTxState

/-- The SSI map: the transactions it holds an entry for, and their entries. -/
structure SsiMap where
  keys : Finset Nat
  entry : Nat → SsiTxState

namespace SsiMap

def empty : SsiMap where
  keys := ∅
  entry := fun _ => .default

def insert (ssi : SsiMap) (txId : Nat) : SsiMap where
  keys := Insert.insert txId ssi.keys
  entry := Function.update ssi.entry txId .default

def remove (ssi : SsiMap) (txId : Nat) : SsiMap where
  keys := ssi.keys.erase txId
  entry := ssi.entry

/-- Change the entry of `txId` if the map holds one. -/
def modify (ssi : SsiMap) (txId : Nat) (change : SsiTxState → SsiTxState) : SsiMap :=
  if txId ∈ ssi.keys then
    { ssi with entry := Function.update ssi.entry txId (change (ssi.entry txId)) }
  else ssi

/-- The transactions other than `writer` whose read set holds a lock that `covers` accepts. -/
def readers (ssi : SsiMap) (writer : Nat) (covers : ReadLock → Bool) : Finset Nat :=
  ssi.keys.filter fun txId =>
    txId ≠ writer ∧ (ssi.entry txId).readSet.any covers = true

/--
The walk shared by `record_write`, `record_insert` and `record_index_write`:
every in-flight reader of what `writer` touches gets its out flag, and the
writer its in flag.
-/
def markReaders (ssi : SsiMap) (writer : Nat) (covers : ReadLock → Bool) : SsiMap :=
  let readers := ssi.readers writer covers
  if readers = ∅ then ssi
  else
    let marked := ssi.modify writer .markIn
    { marked with
      entry := fun txId =>
        if txId ∈ readers then (marked.entry txId).markOut else marked.entry txId }

end SsiMap

/-- Whether `[lower, upper)` contains an encoded index key; `none` is open-ended. -/
def inIndexRange (lower : List UInt8) (upper : Option (List UInt8)) (key : List UInt8) : Bool :=
  decide (lower ≤ key) && upper.all fun bound => decide (key < bound)

/-- The locks a tombstone of `(tableRoot, rowidKey)` runs into. -/
def ReadLock.coversWrite (tableRoot : UInt32) (rowidKey : Nat) (lock : ReadLock) : Bool :=
  lock = .tuple tableRoot rowidKey || lock = .relation tableRoot

/-- The locks an insert into `tableRoot` runs into. -/
def ReadLock.coversInsert (tableRoot : UInt32) (lock : ReadLock) : Bool :=
  lock = .relation tableRoot

/-- The locks a new key of the index at `indexRoot` runs into. -/
def ReadLock.coversIndexWrite (indexRoot : UInt32) (encodedKey : List UInt8) : ReadLock → Bool
  | .indexRange root lower upper =>
      root = indexRoot && inIndexRange lower upper encodedKey
  | _ => false

namespace SsiMap

/-- A tuple read, with the transaction that has tombstoned the version, if any. -/
def recordRead
    (ssi : SsiMap)
    (ownTx : Option Nat)
    (tableRoot : UInt32)
    (rowidKey : Nat)
    (tombstoneBy : Option Nat) : SsiMap :=
  match ownTx with
  | none => ssi
  | some txId =>
      let locked := ssi.modify txId (·.addLock (.tuple tableRoot rowidKey))
      match tombstoneBy with
      | none => locked
      | some peer =>
          if peer ≠ txId ∧ peer ∈ locked.keys then
            (locked.modify txId .markOut).modify peer .markIn
          else locked

/-- A full table scan. -/
def recordRelationRead (ssi : SsiMap) (ownTx : Option Nat) (tableRoot : UInt32) : SsiMap :=
  match ownTx with
  | none => ssi
  | some txId => ssi.modify txId (·.addLock (.relation tableRoot))

/-- An index range scan. -/
def recordIndexRangeRead
    (ssi : SsiMap)
    (ownTx : Option Nat)
    (indexRoot : UInt32)
    (lower : List UInt8)
    (upper : Option (List UInt8)) : SsiMap :=
  match ownTx with
  | none => ssi
  | some txId => ssi.modify txId (·.addLock (.indexRange indexRoot lower upper))

/-- A tombstone of one tuple. -/
def recordWrite
    (ssi : SsiMap)
    (ownTx : Option Nat)
    (tableRoot : UInt32)
    (rowidKey : Nat) : SsiMap :=
  match ownTx with
  | none => ssi
  | some writer => ssi.markReaders writer (ReadLock.coversWrite tableRoot rowidKey)

/-- An insert of a new row. -/
def recordInsert (ssi : SsiMap) (ownTx : Option Nat) (tableRoot : UInt32) : SsiMap :=
  match ownTx with
  | none => ssi
  | some writer => ssi.markReaders writer (ReadLock.coversInsert tableRoot)

/-- A new key in one index. -/
def recordIndexWrite
    (ssi : SsiMap)
    (ownTx : Option Nat)
    (indexRoot : UInt32)
    (encodedKey : List UInt8) : SsiMap :=
  match ownTx with
  | none => ssi
  | some writer => ssi.markReaders writer (ReadLock.coversIndexWrite indexRoot encodedKey)

end SsiMap

/-- The process-wide coordinator shared by every connection on one file. -/
structure TxState where
  nextTxId : Nat
  inFlight : Finset Nat
  clog : Clog
  ssi : SsiMap

namespace TxState

/-- A coordinator initialised from the header's next id and the opened commit log. -/
def new (persistedNextTxId : Nat) (clog : Clog) : TxState where
  nextTxId := max persistedNextTxId 1
  inFlight := ∅
  clog := clog
  ssi := .empty

/-- Capture the current in-flight set and the next id. -/
def snapshot (state : TxState) (ownTx : Option Nat) : Snapshot where
  nextTx := state.nextTxId
  inFlight := state.inFlight
  ownTx := ownTx

/-- Reserve an id, mark it in flight and open its SSI slot. -/
def beginWrite (state : TxState) : Nat × TxState :=
  (state.nextTxId,
    { state with
      nextTxId := state.nextTxId + 1
      inFlight := insert state.nextTxId state.inFlight
      ssi := state.ssi.insert state.nextTxId })

/-- Record an outcome, then drop the id from the in-flight set and the SSI map. -/
def resolve (state : TxState) (txId : Nat) (outcome : Status) : TxState :=
  { state with
    clog := state.clog.append txId outcome
    inFlight := state.inFlight.erase txId
    ssi := state.ssi.remove txId }

def commitWrite (state : TxState) (txId : Nat) : TxState :=
  state.resolve txId .committed

def rollbackWrite (state : TxState) (txId : Nat) : TxState :=
  state.resolve txId .rolledBack

/-- The commit-time pivot check. -/
def ssiCheckCommit (state : TxState) (txId : Nat) : Except Error Unit :=
  if txId ∈ state.ssi.keys ∧
      (state.ssi.entry txId).inConflict = true ∧
      (state.ssi.entry txId).outConflict = true then
    .error (.serialization
      s!"transaction {txId} would close a dangerous rw-dependency cycle")
  else .ok ()

/-- The smallest id in flight, or the next id when nothing is in flight. -/
def oldestActiveTxId (state : TxState) : Nat :=
  state.inFlight.min.getD state.nextTxId

theorem oldestActiveTxId_le
    {state : TxState}
    {txId : Nat}
    (active : txId ∈ state.inFlight) :
    state.oldestActiveTxId ≤ txId := by
  unfold oldestActiveTxId
  cases smallest : state.inFlight.min with
  | top =>
      simp [Finset.min_eq_top.mp smallest] at active
  | coe least =>
      exact Finset.min_le_of_eq active smallest

theorem oldestActiveTxId_le_next
    {state : TxState}
    (assigned : ∀ txId ∈ state.inFlight, txId < state.nextTxId) :
    state.oldestActiveTxId ≤ state.nextTxId := by
  unfold oldestActiveTxId
  cases smallest : state.inFlight.min with
  | top => exact Nat.le_refl _
  | coe least =>
      exact Nat.le_of_lt (assigned least (Finset.mem_of_min smallest))

end TxState

/-- Where a row version lives: the table's B+tree root and the rowid. -/
structure RowKey where
  tableRoot : UInt32
  rowid : Nat
  deriving Repr, DecidableEq

/-- One row version: the MVCC header and the column values. -/
structure RowRecord (Values : Type) where
  txMin : Nat
  txMax : Nat
  values : Values
  deriving Repr, DecidableEq

/--
First-updater-wins: refuse a row whose tombstone belongs to a transaction with
no recorded outcome.  A committed stamp is let through.
-/
def checkWriteWriteConflict
    {Values : Type}
    (record : RowRecord Values)
    (snapshot : Snapshot)
    (clog : Clog) : Except Error Unit :=
  if record.txMax = 0 ∨ some record.txMax = snapshot.ownTx then .ok ()
  else
    match clog.status record.txMax with
    | some .rolledBack | some .committed => .ok ()
    | none =>
        .error (.conflict
          s!"write-write conflict on a row stamped by in-flight transaction {record.txMax}")

/-- The check lets a row through exactly when its stamp is absent, own, or resolved. -/
theorem checkWriteWriteConflict_ok
    {Values : Type}
    {record : RowRecord Values}
    {snapshot : Snapshot}
    {clog : Clog} :
    checkWriteWriteConflict record snapshot clog = .ok () ↔
      record.txMax = 0 ∨ some record.txMax = snapshot.ownTx ∨
        (clog.status record.txMax).isSome = true := by
  unfold checkWriteWriteConflict
  split_ifs with unstamped
  · simp only [true_iff]
    rcases unstamped with zero | own
    · exact .inl zero
    · exact .inr (.inl own)
  · simp only [not_or] at unstamped
    cases outcome : clog.status record.txMax with
    | none => simp [unstamped]
    | some status => cases status <;> simp

/-- What a statement has done to its pages when it fails and `Pager::rollback` runs. -/
structure FailedPages where
  /-- Staged by the statement: `drop_pages` takes their frames out of the shared pool. -/
  dirty : List UInt32
  /-- Staged by the statements of peers that ran beside it. -/
  peers : List UInt32
  /-- Handed to `free_page`: they stay on the free list. -/
  freed : List UInt32

namespace FailedPages

/-- Frames with the staged rows and entries of a peer are dropped. -/
def shared (pages : FailedPages) : Bool := pages.dirty.any pages.peers.contains

/-- Pages that are in use again are on the free list. -/
def leftFree (pages : FailedPages) : Bool := !pages.freed.isEmpty

/-- No peer has staged a page and the statement has freed none. -/
def alone (dirty : List UInt32) : FailedPages where
  dirty := dirty
  peers := []
  freed := []

@[simp] theorem alone_shared (dirty : List UInt32) : (alone dirty).shared = false :=
  List.any_eq_false.mpr fun _ _ => nofun

@[simp] theorem alone_leftFree (dirty : List UInt32) : (alone dirty).leftFree = false := rfl

end FailedPages

end PrehniteDB
