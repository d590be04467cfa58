import PrehniteDB.Maintenance

namespace PrehniteDB.Lifetime

open TransitionRun

/-!
# The lifetime of a database file

Transactions, reclamation, truncation and `VACUUM` between one open and the
next.  The next transaction id lives in three places: the coordinator, the
shared header in memory, and page 0 on disk, which only a page commit writes.
A close and a crash leave the same files.
-/

variable {Values Columns : Type}

/-- A secondary index; an entry is the encoded column values and a rowid. -/
structure IndexTree where
  name : String
  columns : List Nat
  unique : Bool
  isBuilding : Bool
  entries : List (List UInt8 × Nat)
  deriving Repr, DecidableEq

/-- The counters a row statement puts back. -/
structure Counters where
  nextRowid : Nat
  rowCount : Nat
  mutationsSinceAnalyze : Nat
  deriving Repr, DecidableEq

/-- A schema and the trees behind it. -/
structure Table (Values Columns : Type) where
  columns : Columns
  primaryKeyColumn : Option Nat
  counters : Counters
  rows : List (Nat × RowRecord Values)
  indexes : List IndexTree

namespace Table

/-- The rows after the tree stores `record` under `rowid`. -/
def storeRow
    (rowid : Nat)
    (record : RowRecord Values) :
    List (Nat × RowRecord Values) → List (Nat × RowRecord Values)
  | [] => [(rowid, record)]
  | (other, stored) :: rest =>
      if rowid < other then (rowid, record) :: (other, stored) :: rest
      else if rowid = other then (rowid, record) :: rest
      else (other, stored) :: storeRow rowid record rest

/-- Stamp the version stored under `rowid`. -/
def stampRow
    (txId : Nat)
    (rows : List (Nat × RowRecord Values))
    (rowid : Nat) : List (Nat × RowRecord Values) :=
  rows.map fun row =>
    if row.1 = rowid then (row.1, { row.2 with txMax := txId }) else row

/-- Store a new version and its index entries. -/
def insertRow
    (encode : Values → List Nat → List UInt8)
    (txId : Nat)
    (table : Table Values Columns)
    (row : Nat × Values) : Table Values Columns :=
  { table with
    rows := storeRow row.1 { txMin := txId, txMax := 0, values := row.2 } table.rows
    indexes := table.indexes.map fun index =>
      { index with entries := (encode row.2 index.columns, row.1) :: index.entries } }

/-- What one row statement leaves: stamped versions, new versions, counters. -/
def write
    (encode : Values → List Nat → List UInt8)
    (table : Table Values Columns)
    (txId : Nat)
    (tombstones : List Nat)
    (inserts : List (Nat × Values))
    (counters : Counters) : Table Values Columns :=
  { inserts.foldl (insertRow encode txId)
      { table with rows := tombstones.foldl (stampRow txId) table.rows } with
    counters := counters }

/-- A row whose delete committed below the watermark; `DELETE` has counted it off already. -/
def committedTombstone (clog : Clog) (oldestActive : Nat) (record : RowRecord Values) : Bool :=
  decide (record.txMax ≠ 0) && decide (record.txMax < oldestActive) &&
    clog.isCommitted record.txMax

/-- Delete the dead rows and their index entries. -/
def reclaim
    (clog : Clog)
    (oldestActive : Nat)
    (table : Table Values Columns) : Table Values Columns :=
  let dead := table.rows.filter fun row => Maintenance.dead clog oldestActive row.2
  let rolledBack := dead.filter fun row => !committedTombstone clog oldestActive row.2
  let gone := dead.map Prod.fst
  { table with
    counters := { table.counters with
      rowCount := table.counters.rowCount - rolledBack.length }
    rows := table.rows.filter fun row => !Maintenance.dead clog oldestActive row.2
    indexes := table.indexes.map fun index =>
      { index with entries := index.entries.filter fun entry => !gone.contains entry.2 } }

/-- `VACUUM` copies a row unless its insert rolled back or its delete committed. -/
def copied (clog : Clog) (record : RowRecord Values) : Bool :=
  !(decide (record.txMin ≠ 0) && clog.isRolledBack record.txMin) &&
    !(decide (record.txMax ≠ 0) && clog.isCommitted record.txMax)

/-- The compact copy of one table. -/
def compact (clog : Clog) (table : Table Values Columns) : Table Values Columns :=
  let rows := table.rows.filter fun row => copied clog row.2
  let keptRowids := rows.map Prod.fst
  { table with
    rows := rows
    indexes := table.indexes.map fun index =>
      { index with
        isBuilding := false
        entries := index.entries.filter fun entry => keptRowids.contains entry.2 } }

/-- `sweep_partial_indexes`. -/
def sweep (table : Table Values Columns) : Table Values Columns :=
  { table with indexes := table.indexes.filter fun index => !index.isBuilding }

end Table

structure State (Values Columns : Type) where
  tx : TxState
  /-- `next_tx_id` of the shared header in memory. -/
  sharedNextTxId : Nat
  /-- `next_tx_id` of page 0 on disk. -/
  headerNextTxId : Nat
  tables : String → Option (Table Values Columns)
  /-- The watermark of the maintenance pass in progress. -/
  watermark : Option Nat
  /-- Every id `begin_write` has returned on this file. -/
  held : List Nat

/-- A new file. -/
def initial : State Values Columns where
  tx := .new 1 .fresh
  sharedNextTxId := 1
  headerNextTxId := 1
  tables := fun _ => none
  watermark := none
  held := []

inductive Action (Values Columns : Type) where
  | beginWrite
  /-- `set_next_tx_id(id + 1)`, the other half of taking an id. -/
  | publish (txId : Nat)
  | createTable
      (txId : Nat)
      (name : String)
      (columns : Columns)
      (primaryKeyColumn : Option Nat)
      (indexes : List IndexTree)
  | dropTable (txId : Nat) (name : String)
  /-- A phase of `CREATE INDEX`, or `DROP INDEX`. -/
  | reindex (name : String) (indexes : List IndexTree)
  /-- A row statement with something to write, and its page commit. -/
  | write
      (txId : Nat)
      (name : String)
      (tombstones : List Nat)
      (inserts : List (Nat × Values))
      (counters : Counters)
  /-- A statement that writes no page; its page commit returns at once. -/
  | writeNothing
  /-- `COMMIT` and `ROLLBACK`: the outcome reaches the commit log. -/
  | resolve (txId : Nat) (outcome : Status)
  | startPass
  | reclaimTable (name : String)
  | truncateClog
  | vacuum
  /-- A close or a crash, and the next open. -/
  | restart

namespace State

/-- A page commit of one table; `commit_apply` writes the shared header beside it. -/
def commitTable
    (state : State Values Columns)
    (name : String)
    (table : Option (Table Values Columns)) : State Values Columns :=
  { state with
    headerNextTxId := state.sharedNextTxId
    tables := Function.update state.tables name table }

/-- `VACUUM`: the compact file brings its own fresh header, on disk and in memory. -/
def vacuum (state : State Values Columns) : State Values Columns :=
  { state with
    sharedNextTxId := 1
    headerNextTxId := 1
    tables := fun name => (state.tables name).map (Table.compact state.tx.clog) }

/-- `open_with_pool` on the files left behind. -/
def restart (state : State Values Columns) : State Values Columns where
  tx := .new state.headerNextTxId state.tx.clog
  sharedNextTxId := state.headerNextTxId
  headerNextTxId := state.headerNextTxId
  tables := fun name => (state.tables name).map Table.sweep
  watermark := none
  held := state.held

/-- One step, `none` when it is not enabled. -/
def step
    (encode : Values → List Nat → List UInt8)
    (state : State Values Columns) :
    Action Values Columns → Option (State Values Columns)
  | .beginWrite =>
      some { state with
        tx := state.tx.beginWrite.2
        held := state.tx.beginWrite.1 :: state.held }
  | .publish txId =>
      if txId ∈ state.tx.inFlight then
        some { state with sharedNextTxId := max state.sharedNextTxId (txId + 1) }
      else none
  | .createTable txId name columns primaryKeyColumn indexes =>
      if txId ∈ state.tx.inFlight ∧ (state.tables name).isNone then
        some (state.commitTable name (some {
          columns := columns
          primaryKeyColumn := primaryKeyColumn
          counters := { nextRowid := 1, rowCount := 0, mutationsSinceAnalyze := 0 }
          rows := []
          indexes := indexes }))
      else none
  | .dropTable txId name =>
      if txId ∈ state.tx.inFlight ∧ (state.tables name).isSome then
        some (state.commitTable name none)
      else none
  | .reindex name indexes =>
      (state.tables name).map fun table =>
        state.commitTable name (some { table with indexes := indexes })
  | .write txId name tombstones inserts counters =>
      if txId ∈ state.tx.inFlight then
        (state.tables name).map fun table =>
          state.commitTable name (some (table.write encode txId tombstones inserts counters))
      else none
  | .writeNothing => some state
  | .resolve txId outcome =>
      if txId ∈ state.tx.inFlight then
        some { state with tx := state.tx.resolve txId outcome }
      else none
  | .startPass => some { state with watermark := some state.tx.oldestActiveTxId }
  | .reclaimTable name =>
      state.watermark.bind fun oldestActive =>
        (state.tables name).map fun table =>
          if table.rows.any fun row => Maintenance.dead state.tx.clog oldestActive row.2 then
            state.commitTable name (some (table.reclaim state.tx.clog oldestActive))
          else state
  | .truncateClog =>
      state.watermark.map fun floor =>
        { state with tx := { state.tx with clog := state.tx.clog.truncateBelow floor } }
  | .vacuum => some state.vacuum
  | .restart => some state.restart

/-- Nothing on the file knows any of the ids that are still to be handed out. -/
def Fresh (state : State Values Columns) : Prop :=
  ∀ txId,
    state.tx.beginWrite.1 ≤ txId →
      txId ∉ state.held ∧
        state.tx.clog.map txId = none ∧
        state.tx.clog.minTxId ≤ txId ∧
        ∀ name table,
          state.tables name = some table →
            ∀ row ∈ table.rows, row.2.txMin ≠ txId ∧ row.2.txMax ≠ txId

/-- The file is closed or crashes only while page 0 carries the current next id. -/
def Current (state : State Values Columns) : Action Values Columns → Prop
  | .restart => state.tx.nextTxId ≤ state.headerNextTxId
  | _ => True

/-! ## Ids in order -/

/-- Every stamp of a table is below `bound`. -/
def StampedBelow (bound : Nat) (table : Table Values Columns) : Prop :=
  ∀ row ∈ table.rows, row.2.txMin < bound ∧ row.2.txMax < bound

section Stamps

variable
  {bound : Nat}
  {table : Table Values Columns}

theorem StampedBelow.raise
    {higher : Nat}
    (stamped : StampedBelow bound table)
    (climbs : bound ≤ higher) :
    StampedBelow higher table := by
  intro row member
  obtain ⟨created, deleted⟩ := stamped row member
  exact ⟨Nat.lt_of_lt_of_le created climbs, Nat.lt_of_lt_of_le deleted climbs⟩

/-- A table with a part of the rows. -/
theorem StampedBelow.subset
    {other : Table Values Columns}
    (stamped : StampedBelow bound table)
    (fewer : ∀ row ∈ other.rows, row ∈ table.rows) :
    StampedBelow bound other :=
  fun row member => stamped row (fewer row member)

theorem mem_storeRow
    {rowid : Nat}
    {record : RowRecord Values}
    {rows : List (Nat × RowRecord Values)}
    {row : Nat × RowRecord Values}
    (member : row ∈ Table.storeRow rowid record rows) :
    row = (rowid, record) ∨ row ∈ rows := by
  induction rows with
  | nil => exact .inl (List.mem_singleton.mp member)
  | cons stored rest inductionHypothesis =>
      simp only [Table.storeRow] at member
      split at member
      · exact List.mem_cons.mp member
      · split at member
        · rcases List.mem_cons.mp member with here | later
          · exact .inl here
          · exact .inr (List.mem_cons_of_mem stored later)
        · rcases List.mem_cons.mp member with here | later
          · exact .inr (here ▸ List.mem_cons_self)
          · rcases inductionHypothesis later with new | old
            · exact .inl new
            · exact .inr (List.mem_cons_of_mem stored old)

theorem StampedBelow.stampRows
    {txId : Nat}
    (stamped : StampedBelow bound table)
    (assigned : txId < bound)
    (tombstones : List Nat) :
    StampedBelow bound
      { table with rows := tombstones.foldl (Table.stampRow txId) table.rows } := by
  induction tombstones generalizing table with
  | nil => exact stamped
  | cons rowid rest inductionHypothesis =>
      refine @inductionHypothesis
        { table with rows := Table.stampRow txId table.rows rowid } fun row member => ?_
      obtain ⟨stored, storedMember, rfl⟩ := List.mem_map.mp member
      have before := stamped stored storedMember
      split
      · exact ⟨before.1, assigned⟩
      · exact before

theorem StampedBelow.insertRows
    {txId : Nat}
    (encode : Values → List Nat → List UInt8)
    (stamped : StampedBelow bound table)
    (assigned : txId < bound)
    (inserts : List (Nat × Values)) :
    StampedBelow bound (inserts.foldl (Table.insertRow encode txId) table) := by
  induction inserts generalizing table with
  | nil => exact stamped
  | cons insert rest inductionHypothesis =>
      apply inductionHypothesis
      intro row member
      rcases mem_storeRow member with rfl | old
      · exact ⟨assigned, Nat.zero_lt_of_lt assigned⟩
      · exact stamped row old

theorem StampedBelow.write
    {txId : Nat}
    (encode : Values → List Nat → List UInt8)
    (stamped : StampedBelow bound table)
    (assigned : txId < bound)
    (tombstones : List Nat)
    (inserts : List (Nat × Values))
    (counters : Counters) :
    StampedBelow bound (table.write encode txId tombstones inserts counters) :=
  (stamped.stampRows assigned tombstones).insertRows encode assigned inserts

end Stamps

/-- The next id lies above everything the file knows, and exactly the ids below it were held. -/
structure Assigned (state : State Values Columns) : Prop where
  firstId : 1 ≤ state.tx.nextTxId
  held : ∀ txId, txId ∈ state.held ↔ 1 ≤ txId ∧ txId < state.tx.nextTxId
  inFlight : ∀ txId ∈ state.tx.inFlight, 1 ≤ txId ∧ txId < state.tx.nextTxId
  outcome : ∀ txId, state.tx.clog.map txId ≠ none → txId < state.tx.nextTxId
  floor : state.tx.clog.minTxId ≤ state.tx.nextTxId
  watermark : ∀ oldestActive ∈ state.watermark, oldestActive ≤ state.tx.nextTxId
  shared : 1 ≤ state.sharedNextTxId ∧ state.sharedNextTxId ≤ state.tx.nextTxId
  header : 1 ≤ state.headerNextTxId ∧ state.headerNextTxId ≤ state.tx.nextTxId
  stamped :
    ∀ name table,
      state.tables name = some table → StampedBelow state.tx.nextTxId table

namespace Assigned

variable {state next : State Values Columns}

theorem initial : Assigned (initial : State Values Columns) where
  firstId := Nat.le_refl 1
  held := by
    intro txId
    constructor
    · nofun
    · rintro ⟨positive, below⟩
      exact absurd below (Nat.not_lt.mpr positive)
  inFlight := nofun
  outcome := fun _ recorded => absurd rfl recorded
  floor := Nat.zero_le 1
  watermark := nofun
  shared := ⟨Nat.le_refl 1, Nat.le_refl 1⟩
  header := ⟨Nat.le_refl 1, Nat.le_refl 1⟩
  stamped := nofun

theorem fresh (assigned : state.Assigned) : state.Fresh := by
  intro txId later
  have above : state.tx.nextTxId ≤ txId := later
  refine ⟨fun held => ?_, ?_, Nat.le_trans assigned.floor above, ?_⟩
  · exact Nat.not_lt.mpr above ((assigned.held txId).mp held).2
  · by_contra recorded
    exact Nat.not_lt.mpr above (assigned.outcome txId recorded)
  · intro name table found row member
    obtain ⟨created, deleted⟩ := assigned.stamped name table found row member
    exact ⟨Nat.ne_of_lt (Nat.lt_of_lt_of_le created above),
      Nat.ne_of_lt (Nat.lt_of_lt_of_le deleted above)⟩

theorem commitTable
    {name : String}
    {table : Option (Table Values Columns)}
    (assigned : state.Assigned)
    (stamped : ∀ stored ∈ table, StampedBelow state.tx.nextTxId stored) :
    (state.commitTable name table).Assigned :=
  { assigned with
    header := assigned.shared
    stamped := by
      intro other stored found
      by_cases here : other = name
      · subst here
        have same : (state.commitTable other table).tables other = table :=
          Function.update_self _ _ _
        exact stamped stored (same.symm.trans found)
      · have same : (state.commitTable name table).tables other = state.tables other :=
          Function.update_of_ne here _ _
        exact assigned.stamped other stored (same.symm.trans found) }

theorem beginWrite (assigned : state.Assigned) :
    Assigned { state with
      tx := state.tx.beginWrite.2
      held := state.tx.beginWrite.1 :: state.held } where
  firstId := Nat.le_succ_of_le assigned.firstId
  held := by
    intro txId
    have before := assigned.held txId
    have first := assigned.firstId
    simp only [TxState.beginWrite, List.mem_cons, before]
    omega
  inFlight := by
    intro txId active
    rcases Finset.mem_insert.mp active with rfl | active
    · exact ⟨assigned.firstId, Nat.lt_succ_self _⟩
    · have before := assigned.inFlight txId active
      exact ⟨before.1, Nat.lt_succ_of_lt before.2⟩
  outcome := fun txId recorded => Nat.lt_succ_of_lt (assigned.outcome txId recorded)
  floor := Nat.le_succ_of_le assigned.floor
  watermark := fun oldestActive captured =>
    Nat.le_succ_of_le (assigned.watermark oldestActive captured)
  shared := ⟨assigned.shared.1, Nat.le_succ_of_le assigned.shared.2⟩
  header := ⟨assigned.header.1, Nat.le_succ_of_le assigned.header.2⟩
  stamped := fun name table found => (assigned.stamped name table found).raise (Nat.le_succ _)

theorem resolve
    {txId : Nat}
    {outcome : Status}
    (assigned : state.Assigned)
    (active : txId ∈ state.tx.inFlight) :
    Assigned { state with tx := state.tx.resolve txId outcome } :=
  { assigned with
    inFlight := fun other member => assigned.inFlight other (Finset.mem_of_mem_erase member)
    outcome := by
      intro other recorded
      by_cases here : other = txId
      · subst here
        exact (assigned.inFlight other active).2
      · exact assigned.outcome other fun absent =>
          recorded ((Function.update_of_ne here _ _).trans absent) }

theorem truncated
    {floor : Nat}
    (assigned : state.Assigned)
    (captured : floor ∈ state.watermark) :
    Assigned { state with
      tx := { state.tx with clog := state.tx.clog.truncateBelow floor } } := by
  have outcome :
      ∀ txId,
        (state.tx.clog.truncateBelow floor).map txId ≠ none → txId < state.tx.nextTxId := by
    intro txId recorded
    apply assigned.outcome
    intro absent
    apply recorded
    unfold Clog.truncateBelow
    split_ifs
    · exact absent
    · exact absent
    · dsimp only
      split_ifs
      · exact absent
      · rfl
  have minTxId : (state.tx.clog.truncateBelow floor).minTxId ≤ state.tx.nextTxId := by
    unfold Clog.truncateBelow
    split_ifs
    · exact assigned.floor
    · exact assigned.floor
    · exact assigned.watermark floor captured
  exact { assigned with outcome := outcome, floor := minTxId }

theorem vacuum (assigned : state.Assigned) : state.vacuum.Assigned :=
  { assigned with
    shared := ⟨Nat.le_refl 1, assigned.firstId⟩
    header := ⟨Nat.le_refl 1, assigned.firstId⟩
    stamped := by
      intro name table found
      obtain ⟨stored, storedFound, rfl⟩ := Option.map_eq_some_iff.mp found
      exact (assigned.stamped name stored storedFound).subset fun row member =>
        List.mem_of_mem_filter member }

theorem restart
    (assigned : state.Assigned)
    (current : state.tx.nextTxId ≤ state.headerNextTxId) :
    state.restart.Assigned := by
  have header : state.headerNextTxId = state.tx.nextTxId :=
    Nat.le_antisymm assigned.header.2 current
  have nextTxId : state.restart.tx.nextTxId = state.tx.nextTxId := by
    show max state.headerNextTxId 1 = state.tx.nextTxId
    rw [header]
    exact Nat.max_eq_left assigned.firstId
  exact {
    firstId := by
      rw [nextTxId]
      exact assigned.firstId
    held := by
      rw [nextTxId]
      exact assigned.held
    inFlight := nofun
    outcome := by
      rw [nextTxId]
      exact assigned.outcome
    floor := by
      rw [nextTxId]
      exact assigned.floor
    watermark := nofun
    shared := by
      rw [nextTxId]
      exact assigned.header
    header := by
      rw [nextTxId]
      exact assigned.header
    stamped := by
      rw [nextTxId]
      intro name table found
      obtain ⟨stored, storedFound, rfl⟩ := Option.map_eq_some_iff.mp found
      exact assigned.stamped name stored storedFound }

/-- Every current step keeps the ids below the counter. -/
theorem step
    {encode : Values → List Nat → List UInt8}
    {action : Action Values Columns}
    (assigned : state.Assigned)
    (current : state.Current action)
    (stepped : state.step encode action = some next) :
    next.Assigned := by
  cases action with
  | beginWrite =>
      obtain rfl := Option.some.inj stepped
      exact assigned.beginWrite
  | publish txId =>
      simp only [State.step] at stepped
      split at stepped
      case isTrue active =>
        obtain rfl := Option.some.inj stepped
        have id := (assigned.inFlight txId active).2
        exact { assigned with
          shared := ⟨Nat.le_trans assigned.shared.1 (Nat.le_max_left _ _),
            Nat.max_le.mpr ⟨assigned.shared.2, id⟩⟩ }
      case isFalse => cases stepped
  | createTable txId name columns primaryKeyColumn indexes =>
      simp only [State.step] at stepped
      split at stepped
      case isTrue =>
        obtain rfl := Option.some.inj stepped
        apply assigned.commitTable
        intro stored found
        obtain rfl := Option.mem_some_iff.mp found
        nofun
      case isFalse => cases stepped
  | dropTable txId name =>
      simp only [State.step] at stepped
      split at stepped
      case isTrue =>
        obtain rfl := Option.some.inj stepped
        exact assigned.commitTable nofun
      case isFalse => cases stepped
  | reindex name indexes =>
      obtain ⟨table, found, rfl⟩ := Option.map_eq_some_iff.mp stepped
      apply assigned.commitTable
      intro stored changed
      obtain rfl := Option.mem_some_iff.mp changed
      exact (assigned.stamped name table found).subset fun row member => member
  | write txId name tombstones inserts counters =>
      simp only [State.step] at stepped
      split at stepped
      case isTrue active =>
        obtain ⟨table, found, rfl⟩ := Option.map_eq_some_iff.mp stepped
        apply assigned.commitTable
        intro stored changed
        obtain rfl := Option.mem_some_iff.mp changed
        exact (assigned.stamped name table found).write encode
          (assigned.inFlight txId active).2 tombstones inserts counters
      case isFalse => cases stepped
  | writeNothing =>
      obtain rfl := Option.some.inj stepped
      exact assigned
  | resolve txId outcome =>
      simp only [State.step] at stepped
      split at stepped
      case isTrue active =>
        obtain rfl := Option.some.inj stepped
        exact assigned.resolve active
      case isFalse => cases stepped
  | startPass =>
      obtain rfl := Option.some.inj stepped
      refine { assigned with watermark := fun oldestActive captured => ?_ }
      obtain rfl := Option.mem_some_iff.mp captured
      exact TxState.oldestActiveTxId_le_next fun txId active => (assigned.inFlight txId active).2
  | reclaimTable name =>
      obtain ⟨oldestActive, _, reclaimed⟩ := Option.bind_eq_some_iff.mp stepped
      obtain ⟨table, found, rfl⟩ := Option.map_eq_some_iff.mp reclaimed
      split
      · apply assigned.commitTable
        intro stored changed
        obtain rfl := Option.mem_some_iff.mp changed
        exact (assigned.stamped name table found).subset fun row member =>
          List.mem_of_mem_filter member
      · exact assigned
  | truncateClog =>
      obtain ⟨floor, captured, rfl⟩ := Option.map_eq_some_iff.mp stepped
      exact assigned.truncated captured
  | vacuum =>
      obtain rfl := Option.some.inj stepped
      exact assigned.vacuum
  | restart =>
      obtain rfl := Option.some.inj stepped
      exact assigned.restart current

end Assigned

variable
  {encode : Values → List Nat → List UInt8}
  {actions : List (Action Values Columns)}
  {state : State Values Columns}

/--
While page 0 carries the current next id at every close and crash, no id that is
still to be handed out was ever held, recorded or stamped; and a further restart
keeps that exactly when page 0 is current at that moment.
-/
theorem ids_never_assigned_twice
    (run : Run (step encode) Current initial actions state) :
    state.Fresh ∧ (state.restart.Fresh ↔ state.tx.nextTxId ≤ state.headerNextTxId) := by
  have assigned : state.Assigned :=
    run.invariant Assigned (fun assigned current stepped => assigned.step current stepped)
      .initial
  refine ⟨assigned.fresh, fun fresh => ?_, fun current => (assigned.restart current).fresh⟩
  by_contra stale
  have first : state.restart.tx.beginWrite.1 = state.headerNextTxId :=
    Nat.max_eq_left assigned.header.1
  have reassigned : state.headerNextTxId ∈ state.held :=
    (assigned.held _).mpr ⟨assigned.header.1, Nat.lt_of_not_le stale⟩
  exact (fresh state.headerNextTxId (Nat.le_of_eq first)).1 reassigned

/-- `CREATE TABLE`, a restart, and the next transaction. -/
def createAndReopen : List (Action Unit Unit) :=
  [.beginWrite, .publish 1, .createTable 1 "t" () none [], .resolve 1 .committed, .restart,
    .beginWrite]

/-- An id behind a restart is a new one, the table of the first in place. -/
theorem create_and_reopen_fresh :
    ∃ state,
      Run (step fun _ _ => []) Current initial createAndReopen state ∧
        state.held = [2, 1] ∧
        state.Fresh := by
  have run : Run (step fun _ _ => []) Current initial createAndReopen _ :=
    ((((((Run.nil initial).snoc trivial rfl).snoc trivial rfl).snoc trivial rfl).snoc
      trivial rfl).snoc (Nat.le_refl 2) rfl).snoc trivial rfl
  exact ⟨_, run, rfl, (ids_never_assigned_twice run).1⟩

/-- A transaction that writes no page, and a restart. -/
def emptyTransaction : List (Action Unit Unit) :=
  [.beginWrite, .publish 1, .writeNothing, .resolve 1 .committed, .restart]

/-- The next id after it is 1 again, committed already. -/
theorem empty_transaction_reuses_id :
    ∃ state,
      Run (step fun _ _ => []) unrestricted initial emptyTransaction state ∧
        state.tx.beginWrite.1 = 1 ∧
        1 ∈ state.held ∧
        state.tx.clog.status 1 = some .committed := by
  have run : Run (step fun _ _ => []) unrestricted initial emptyTransaction _ :=
    (((((Run.nil initial).snoc trivial rfl).snoc trivial rfl).snoc trivial rfl).snoc
      trivial rfl).snoc trivial rfl
  exact ⟨_, run, rfl, List.mem_singleton_self 1, rfl⟩

end State

end PrehniteDB.Lifetime
