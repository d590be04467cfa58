import PrehniteDB.IndexValues
import PrehniteDB.SchemaWriteBack

namespace PrehniteDB.OnlineIndex

open SchemaWriteBack (Access TableLock)
open TransitionRun

/-!
# `CREATE INDEX` online

One connection builds an index in three phases while peers write the table and
the reclaimer sweeps it.  Each takes the table lock it takes in the code; a
statement decides from the schema it reads at its start whether the new index
exists, and puts that schema back at its end.  Of a row version only its values are
kept, since its index entry does not depend on its header.
-/

abbrev Row := List Value

/-- A row version as the table tree holds it. -/
abbrev Version := UInt64 × Row

/-- The entry of a version: the encoded values, then the rowid. -/
def keyOf (columns : List Nat) (version : Version) : List UInt8 :=
  encodeIndexKey version.2 columns version.1.toNat

/-- What a schema says about the index: nothing, or its `is_building`. -/
inductive Listing where
  | absent
  | building
  | ready
  deriving Repr, DecidableEq

/-- An `INSERT`, `UPDATE` or `DELETE` that writes this table. -/
structure Statement where
  /-- It holds the table lock; a cascade from another table does not. -/
  locked : Bool
  /-- What the schema it has read says about the index. -/
  schema : Listing
  /-- The candidates it has collected. -/
  copies : List Version
  created : List Version
  /-- The created versions whose entry it has inserted. -/
  inserted : List Version
  /-- The version it has put into the table and not yet into the index. -/
  owed : Option Version
  deriving Repr, DecidableEq

/-- `index_insert_row_with_old` goes over the indexes of the schema it is given. -/
def Statement.maintains (statement : Statement) : Bool :=
  decide (statement.schema ≠ .absent)

inductive Task where
  | idle
  | writing (statement : Statement)
  | reclaiming (schema : Listing) (dead : List Version)
  /-- Phase 1 holds the lock. -/
  | first
  /-- Between phases 1 and 2. -/
  | listed
  /-- The scan of phase 2 has read every version below `cursor`. -/
  | scanning (cursor : Nat) (found : List Version)
  | populating (remaining : List Version)
  /-- Between phases 2 and 3. -/
  | populated
  /-- Phase 3 holds the lock. -/
  | last
  /-- Phase 3 has committed and still holds the lock. -/
  | finalized
  deriving Repr, DecidableEq

/-- The side of the table lock that is held during a task. -/
def Task.access : Task → Option Access
  | .writing statement => if statement.locked then some .shared else none
  | .scanning _ _ | .populating _ => some .shared
  | .reclaiming _ _ | .first | .last | .finalized => some .exclusive
  | .idle | .listed | .populated => none

/-- The tasks of `create_index_online` once phase 1 has committed. -/
def Task.builds : Task → Bool
  | .listed | .scanning _ _ | .populating _ | .populated | .last | .finalized => true
  | _ => false

structure State where
  rows : List Version
  /-- The keys of the new index's tree. -/
  index : Finset (List UInt8)
  /-- The schema in the catalog. -/
  listing : Listing
  lock : TableLock
  task : Nat → Task
  /-- The rowids the scan of phase 2 has read. -/
  scanned : List UInt64

/-- The table tree keeps one version under a rowid. -/
structure Table where
  rows : List Version
  keyed : ∀ first ∈ rows, ∀ second ∈ rows, first.1 = second.1 → first = second

/-- A table whose index is still to be created. -/
def initial (table : Table) : State where
  rows := table.rows
  index := ∅
  listing := .absent
  lock := { readers := ∅, writer := none }
  task := fun _ => .idle
  scanned := []

inductive Action where
  | begin (connection : Nat) (locked : Bool)
  | collect (connection : Nat) (rowid : UInt64)
  /-- The tombstone of a candidate: its copy is written back. -/
  | rewrite (connection : Nat) (rowid : UInt64)
  | insertRow (connection : Nat) (rowid : UInt64) (values : Row)
  | insertEntry (connection : Nat)
  /-- The statement ends; a `DELETE` of no row puts no schema back. -/
  | finish (connection : Nat) (puts : Bool)
  | fail (connection : Nat)
  /-- The reclaimer collects the dead versions of the table. -/
  | reclaim (connection : Nat) (dead : List UInt64)
  | removeRow (connection : Nat)
  /-- The pass ends; only rolled-back rows make it put the schema back. -/
  | reclaimed (connection : Nat) (puts : Bool)
  | lockFirst (connection : Nat)
  /-- The catalog entry of phase 1, committed. -/
  | list (connection : Nat)
  | scan (connection : Nat)
  | scanRow (connection : Nat) (version : Version)
  | scanEnd (connection : Nat)
  | populate (connection : Nat)
  | populated (connection : Nat)
  | lockLast (connection : Nat)
  /-- The catalog entry of phase 3, committed. -/
  | finalize (connection : Nat)
  | release (connection : Nat)
  deriving Repr, DecidableEq

namespace State

def setTask (state : State) (connection : Nat) (task : Task) : State :=
  { state with task := Function.update state.task connection task }

/-- Take the side of the lock a task needs. -/
def enter (state : State) (connection : Nat) (task : Task) : Option State :=
  (state.lock.acquire connection task.access).map fun lock =>
    { state.setTask connection task with lock := lock }

/-- Go on to a task that holds nothing. -/
def leave (state : State) (connection : Nat) (task : Task) : State :=
  { state.setTask connection task with lock := state.lock.release connection }

/-- `catalog.put` of a schema read earlier. -/
def put (state : State) (puts : Bool) (schema : Listing) : State :=
  if puts then { state with listing := schema } else state

/-- `BTree::insert` on the table tree. -/
def putRow (state : State) (version : Version) : State :=
  { state with rows := version :: state.rows.filter fun other => other.1 ≠ version.1 }

/-- The versions another statement has created and not yet committed. -/
def createdElsewhere (state : State) (connection : Nat) (rowid : UInt64) : Prop :=
  ∃ other statement,
    other ≠ connection ∧
      state.task other = .writing statement ∧
      rowid ∈ statement.created.map Prod.fst

/-- The state after a failed statement: what it wrote is taken back. -/
def takeBack (columns : List Nat) (state : State) (statement : Statement) : State :=
  { state with
    rows := state.rows.filter fun version => version ∉ statement.created
    index := state.index.filter fun key => key ∉ statement.inserted.map (keyOf columns) }

end State

open State in
/-- One step, `none` when it is not enabled. -/
def step (columns : List Nat) (state : State) : Action → Option State
  | .begin connection locked =>
      match state.task connection with
      | .idle =>
          state.enter connection (.writing {
            locked := locked
            schema := state.listing
            copies := []
            created := []
            inserted := []
            owed := none })
      | _ => none
  | .collect connection rowid =>
      match state.task connection, state.rows.find? fun version => version.1 = rowid with
      | .writing statement, some version =>
          some (state.setTask connection
            (.writing { statement with copies := version :: statement.copies }))
      | _, _ => none
  | .rewrite connection rowid =>
      match state.task connection with
      | .writing statement =>
          (statement.copies.find? fun version => version.1 = rowid).map fun version =>
            state.putRow version
      | _ => none
  | .insertRow connection rowid values =>
      match state.task connection with
      | .writing statement =>
          if statement.owed = none ∧ rowid ∉ state.rows.map Prod.fst then
            some ((state.putRow (rowid, values)).setTask connection
              (.writing { statement with
                created := (rowid, values) :: statement.created
                owed := if statement.maintains then some (rowid, values) else none }))
          else none
      | _ => none
  | .insertEntry connection =>
      match state.task connection with
      | .writing statement =>
          statement.owed.map fun version =>
            { state.setTask connection
                (.writing { statement with
                  inserted := version :: statement.inserted
                  owed := none }) with
              index := insert (keyOf columns version) state.index }
      | _ => none
  | .finish connection puts =>
      match state.task connection with
      | .writing statement =>
          if statement.owed = none then
            some ((state.put puts statement.schema).leave connection .idle)
          else none
      | _ => none
  | .fail connection =>
      match state.task connection with
      | .writing statement =>
          some ((state.takeBack columns statement).leave connection .idle)
      | _ => none
  | .reclaim connection dead =>
      match state.task connection with
      | .idle =>
          state.enter connection
            (.reclaiming state.listing
              (state.rows.filter fun version => version.1 ∈ dead))
      | _ => none
  | .removeRow connection =>
      match state.task connection with
      | .reclaiming schema (version :: rest) =>
          some { state.setTask connection (.reclaiming schema rest) with
            rows := state.rows.filter fun other => other.1 ≠ version.1
            index :=
              if schema ≠ .absent then state.index.erase (keyOf columns version)
              else state.index }
      | _ => none
  | .reclaimed connection puts =>
      match state.task connection with
      | .reclaiming schema [] => some ((state.put puts schema).leave connection .idle)
      | _ => none
  | .lockFirst connection =>
      match state.task connection with
      | .idle => state.enter connection .first
      | _ => none
  | .list connection =>
      match state.task connection with
      | .first =>
          if state.listing = .absent then
            some { state.leave connection .listed with
              listing := .building
              index := ∅ }
          else some (state.leave connection .idle)
      | _ => none
  | .scan connection =>
      match state.task connection with
      | .listed => state.enter connection (.scanning 0 [])
      | _ => none
  | .scanRow connection version =>
      match state.task connection with
      | .scanning cursor found =>
          if version ∈ state.rows ∧ cursor ≤ version.1.toNat ∧
              ∀ other ∈ state.rows, cursor ≤ other.1.toNat → version.1 ≤ other.1 then
            some { state.setTask connection
                (.scanning (version.1.toNat + 1) (version :: found)) with
              scanned := version.1 :: state.scanned }
          else none
      | _ => none
  | .scanEnd connection =>
      match state.task connection with
      | .scanning cursor found =>
          if ∀ version ∈ state.rows, version.1.toNat < cursor then
            some (state.setTask connection (.populating found.reverse))
          else none
      | _ => none
  | .populate connection =>
      match state.task connection with
      | .populating (version :: rest) =>
          some { state.setTask connection (.populating rest) with
            index := insert (keyOf columns version) state.index }
      | _ => none
  | .populated connection =>
      match state.task connection with
      | .populating [] => some (state.leave connection .populated)
      | _ => none
  | .lockLast connection =>
      match state.task connection with
      | .populated => state.enter connection .last
      | _ => none
  | .finalize connection =>
      match state.task connection with
      | .last =>
          -- Phase 3 looks the index up again, and errs where it has vanished.
          if state.listing = .absent then some (state.leave connection .idle)
          else some { state.setTask connection .finalized with listing := .ready }
      | _ => none
  | .release connection =>
      match state.task connection with
      | .finalized => some (state.leave connection .idle)
      | _ => none

/-- No cascade from another table is writing this one. -/
def State.Uncascaded (state : State) : Prop :=
  ∀ connection statement,
    state.task connection = .writing statement → statement.locked = true

/--
A cascade writes the table as if it held the lock of the table, and no
statement fails whose versions the scan of phase 2 has read.  A statement
collects what it can see, which is nothing a peer has not committed.
-/
def Guarded (state : State) : Action → Prop
  | .begin _ locked => locked = false → state.lock.writer = none
  | .collect connection rowid => ¬ state.createdElsewhere connection rowid
  | .reclaim _ _ | .lockFirst _ | .lockLast _ => state.Uncascaded
  | .fail connection =>
      ∀ statement,
        state.task connection = .writing statement →
        ∀ version ∈ statement.created, version.1 ∉ state.scanned
  | _ => True

/--
The steps that do harm: a statement fails.  `drop_pages` takes whole frames out of
the shared pool, with the rows a peer and the entries the builder has staged on the same
pages, and the pages that the statement had freed stay on the free list.
-/
def harms (_ : State) (action : Action) (pages : FailedPages) : Bool :=
  match action with
  | .fail _ => pages.shared || pages.leftFree
  | _ => false

theorem harms_alone
    (dirty : List UInt32)
    (state : State)
    (action : Action) :
    harms state action (.alone dirty) = false := by
  cases action <;> simp [harms]

/-- One entry for every row version, and nothing else. -/
structure Complete (columns : List Nat) (state : State) : Prop where
  exact_ :
    ∀ key, key ∈ state.index ↔ ∃ version ∈ state.rows, key = keyOf columns version
  apart :
    ∀ first ∈ state.rows, ∀ second ∈ state.rows,
      keyOf columns first = keyOf columns second → first = second

end PrehniteDB.OnlineIndex
