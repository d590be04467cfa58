import PrehniteDB.StatementInvariant

namespace PrehniteDB.Maintenance

/-!
# Reclamation, truncation and restarts

The background work on top of the statement-level process.  A reclamation pass
captures its watermark once and then visits one table after another, so
statements run between two tables.  A truncation captures its floor, runs a pass
with a watermark of its own and then forgets what is below the floor.  A crash
loses everything but the rows, the header and the commit log.
-/

variable {Values : Type}

structure State (Values : Type) where
  store : Statements.State Values
  /-- The tables rows were ever stored in. -/
  tables : Finset UInt32
  /-- The watermark of the reclamation pass in progress. -/
  watermark : Option Nat
  /-- The tables the pass has still to visit. -/
  remaining : Finset UInt32
  /-- The floor the truncation in progress has captured. -/
  floor : Option Nat
  /-- The commit log with nothing forgotten; no step reads it. -/
  full : Clog
  /-- The rows reclaimed so far; no step reads them. -/
  removed : Set (RowKey × RowRecord Values)

/-- An empty database and no pass in progress. -/
def initial : State Values where
  store := Statements.initial
  tables := ∅
  watermark := none
  remaining := ∅
  floor := none
  full := .fresh
  removed := ∅

/-- A committed tombstone or a rolled-back insert below the watermark. -/
def dead (clog : Clog) (oldestActive : Nat) (record : RowRecord Values) : Bool :=
  (decide (record.txMax ≠ 0) && decide (record.txMax < oldestActive) &&
      clog.isCommitted record.txMax) ||
    (decide (record.txMin ≠ 0) && decide (record.txMin < oldestActive) &&
      clog.isRolledBack record.txMin)

/-- Delete the dead rows of the tables `chosen` accepts. -/
def reclaim
    (store : Statements.State Values)
    (oldestActive : Nat)
    (chosen : UInt32 → Bool) : Statements.State Values :=
  { store with
    rows := fun row =>
      (store.rows row).filter fun record =>
        !(chosen row.tableRoot && dead store.tx.clog oldestActive record) }

/-- `after` with the outcomes it has forgotten since `before`. -/
def recalled (after before : Clog) : Clog where
  map := fun txId =>
    if txId < after.minTxId then before.map txId else after.map txId
  minTxId := before.minTxId

/-- The tables a statement stores new rows in. -/
def storesIn : Statements.Action Values → Finset UInt32
  | .exec _ _ inserts => (inserts.map fun insert => insert.1.tableRoot).toFinset
  | _ => ∅

/-- Reopen the database after a crash. -/
def restart (store : Statements.State Values) : Statements.State Values where
  tx := .new store.persistedNextTxId store.tx.clog
  persistedNextTxId := store.persistedNextTxId
  rows := store.rows
  session := fun _ => none
  readers := []

inductive Action (Values : Type) where
  | statement (action : Statements.Action Values)
  /-- Any other pager commit; it writes the current header. -/
  | writeHeader
  /-- `reclaim_dead_rows` captures its watermark and lists the tables. -/
  | startPass
  | reclaimTable (tableRoot : UInt32)
  /-- `truncate_clog` captures its floor; its pass comes after. -/
  | captureFloor
  /-- The end of `truncate_clog`, once its pass has visited every table. -/
  | truncateBelow
  | restart

/-- One step, `none` when it is not enabled. -/
def step (state : State Values) : Action Values → Option (State Values)
  | .statement action =>
      (Statements.step state.store action).map fun store =>
        { state with
          store := store
          tables := state.tables ∪ storesIn action
          full := recalled store.tx.clog state.full }
  | .writeHeader =>
      some { state with
        store := { state.store with
          persistedNextTxId := state.store.tx.nextTxId } }
  | .startPass =>
      some { state with
        watermark := some state.store.tx.oldestActiveTxId
        remaining := state.tables }
  | .reclaimTable tableRoot =>
      state.watermark.map fun oldestActive =>
        { state with
          store := reclaim state.store oldestActive (· = tableRoot)
          remaining := state.remaining.erase tableRoot
          removed := state.removed ∪ {row |
            state.store.rows row.1 = some row.2 ∧ row.1.tableRoot = tableRoot ∧
              dead state.store.tx.clog oldestActive row.2 = true} }
  | .captureFloor =>
      some { state with
        floor := some state.store.tx.oldestActiveTxId
        watermark := none }
  | .truncateBelow =>
      match state.floor, state.watermark with
      | some floor, some _ =>
          if state.remaining = ∅ then
            some { state with
              store := { state.store with
                tx := { state.store.tx with
                  clog := state.store.tx.clog.truncateBelow floor } }
              watermark := none
              floor := none }
          else none
      | _, _ => none
  | .restart =>
      some { state with
        store := Maintenance.restart state.store
        watermark := none
        floor := none }

/-- Removed by a commit or created by a rollback, below the watermark. -/
theorem dead_iff
    {clog : Clog}
    {oldestActive : Nat}
    {record : RowRecord Values} :
    dead clog oldestActive record = true ↔
      (record.txMax ≠ 0 ∧ record.txMax < oldestActive ∧
          clog.status record.txMax = some .committed) ∨
        (record.txMin ≠ 0 ∧ record.txMin < oldestActive ∧
          clog.status record.txMin = some .rolledBack) := by
  simp [dead, and_assoc]

theorem reclaim_rows
    {store : Statements.State Values}
    {oldestActive : Nat}
    {chosen : UInt32 → Bool}
    {row : RowKey}
    {record : RowRecord Values} :
    (reclaim store oldestActive chosen).rows row = some record ↔
      store.rows row = some record ∧
        (chosen row.tableRoot = true →
          dead store.tx.clog oldestActive record = false) := by
  simp only [reclaim, Option.filter_eq_some_iff, Bool.not_eq_eq_eq_not,
    Bool.not_true, Bool.and_eq_false_imp]

/-- No id below `bound` is in flight or still to be assigned. -/
def Bounds (store : Statements.State Values) (bound : Nat) : Prop :=
  bound ≤ store.tx.nextTxId ∧ ∀ txId ∈ store.tx.inFlight, bound ≤ txId

/-- The watermark of a pass and the floor of a truncation are at most every id in flight. -/
structure Sound (state : State Values) : Prop where
  store : Statements.Sound state.store
  watermark : ∀ oldestActive ∈ state.watermark, Bounds state.store oldestActive
  floor : ∀ floor ∈ state.floor, Bounds state.store floor

namespace Sound

variable {state next : State Values}

theorem reclaimed
    {store : Statements.State Values}
    (sound : Statements.Sound store)
    (oldestActive : Nat)
    (chosen : UInt32 → Bool) :
    Statements.Sound (reclaim store oldestActive chosen) :=
  { sound with
    stamped := fun row record found =>
      sound.stamped row record (reclaim_rows.mp found).1
    deleted := fun row record found =>
      sound.deleted row record (reclaim_rows.mp found).1 }

theorem truncated
    {store : Statements.State Values}
    (sound : Statements.Sound store)
    (floor : Nat) :
    Statements.Sound { store with
      tx := { store.tx with clog := store.tx.clog.truncateBelow floor } } := by
  refine { sound with deleted := ?_ }
  intro row record found stamped foreign
  have creator := sound.deleted row record found stamped foreign
  refine ⟨creator.1, ?_⟩
  rw [Clog.status_truncateBelow]
  split_ifs
  · rfl
  · exact creator.2

theorem restarted
    {store : Statements.State Values}
    (sound : Statements.Sound store) :
    Statements.Sound (restart store) where
  firstId := Nat.lt_of_lt_of_le Nat.zero_lt_one (Nat.le_max_right _ _)
  assigned := nofun
  session := nofun
  reader := nofun
  current := by
    intro snapshot inUse
    rcases inUse with reader | ⟨_, _, running, _⟩
    · cases reader
    · cases running
  persisted := ⟨sound.persisted.1, Nat.le_max_left _ _⟩
  stamped := sound.stamped
  deleted := by
    intro row record found stamped foreign
    exact ⟨nofun, (sound.deleted row record found stamped foreign).2⟩

theorem headerWritten
    {store : Statements.State Values}
    (sound : Statements.Sound store) :
    Statements.Sound { store with persistedNextTxId := store.tx.nextTxId } :=
  { sound with
    persisted := ⟨sound.firstId, Nat.le_refl _⟩
    stamped := by
      intro row record found
      have bounds := sound.stamped row record found
      exact ⟨bounds.1, Nat.lt_of_lt_of_le bounds.2.1 sound.persisted.2,
        Nat.lt_of_lt_of_le bounds.2.2 sound.persisted.2⟩ }

theorem statement_inFlight
    {store after : Statements.State Values}
    {action : Statements.Action Values}
    (stepped : Statements.step store action = some after) :
    store.tx.nextTxId ≤ after.tx.nextTxId ∧
      ∀ txId ∈ after.tx.inFlight,
        txId ∈ store.tx.inFlight ∨ store.tx.nextTxId ≤ txId := by
  cases Statements.step_effect stepped with
  | beginWrite =>
      refine ⟨Nat.le_succ _, fun txId active => ?_⟩
      rcases Finset.mem_insert.mp active with fresh | active
      · exact .inr (Nat.le_of_eq fresh.symm)
      · exact .inl active
  | commit _ =>
      exact ⟨Nat.le_refl _, fun _ active => .inl (Finset.mem_of_mem_erase active)⟩
  | rollback _ =>
      exact ⟨Nat.le_refl _, fun _ active => .inl (Finset.mem_of_mem_erase active)⟩
  | pin _ _ => exact ⟨Nat.le_refl _, fun _ active => .inl active⟩
  | openReader => exact ⟨Nat.le_refl _, fun _ active => .inl active⟩
  | closeReader => exact ⟨Nat.le_refl _, fun _ active => .inl active⟩
  | exec _ _ _ => exact ⟨Nat.le_refl _, fun _ active => .inl active⟩
  | fail _ => exact ⟨Nat.le_refl _, fun _ active => .inl active⟩

theorem oldest_bounds
    {store : Statements.State Values}
    (sound : Statements.Sound store) :
    Bounds store store.tx.oldestActiveTxId :=
  ⟨TxState.oldestActiveTxId_le_next fun txId active => (sound.assigned txId active).2,
    fun _ active => TxState.oldestActiveTxId_le active⟩

theorem statement_bounds
    {store after : Statements.State Values}
    {action : Statements.Action Values}
    {bound : Nat}
    (bounds : Bounds store bound)
    (stepped : Statements.step store action = some after) :
    Bounds after bound := by
  obtain ⟨grown, entered⟩ := statement_inFlight stepped
  refine ⟨Nat.le_trans bounds.1 grown, fun txId active => ?_⟩
  rcases entered txId active with earlier | fresh
  · exact bounds.2 txId earlier
  · exact Nat.le_trans bounds.1 fresh

theorem step
    {action : Action Values}
    (sound : Sound state)
    (stepped : Maintenance.step state action = some next) :
    Sound next := by
  cases action with
  | statement action =>
      obtain ⟨store, taken, rfl⟩ := Option.map_eq_some_iff.mp stepped
      exact ⟨sound.store.step taken,
        fun bound captured => statement_bounds (sound.watermark bound captured) taken,
        fun bound captured => statement_bounds (sound.floor bound captured) taken⟩
  | writeHeader =>
      obtain rfl := Option.some.inj stepped
      exact ⟨headerWritten sound.store, sound.watermark, sound.floor⟩
  | startPass =>
      obtain rfl := Option.some.inj stepped
      refine ⟨sound.store, fun oldestActive captured => ?_, sound.floor⟩
      obtain rfl := Option.mem_some_iff.mp captured
      exact oldest_bounds sound.store
  | reclaimTable tableRoot =>
      obtain ⟨oldestActive, _, rfl⟩ := Option.map_eq_some_iff.mp stepped
      exact ⟨reclaimed sound.store oldestActive (· = tableRoot), sound.watermark, sound.floor⟩
  | captureFloor =>
      obtain rfl := Option.some.inj stepped
      refine ⟨sound.store, nofun, fun floor captured => ?_⟩
      obtain rfl := Option.mem_some_iff.mp captured
      exact oldest_bounds sound.store
  | truncateBelow =>
      simp only [Maintenance.step] at stepped
      split at stepped
      · split_ifs at stepped
        obtain rfl := Option.some.inj stepped
        exact ⟨truncated sound.store _, nofun, nofun⟩
      · cases stepped
  | restart =>
      obtain rfl := Option.some.inj stepped
      exact ⟨restarted sound.store, nofun, nofun⟩

theorem reachable
    {allowed : State Values → Action Values → Prop}
    {actions : List (Action Values)}
    (run : TransitionRun.Run Maintenance.step allowed Maintenance.initial
      actions state) :
    Sound state :=
  run.invariant Sound (fun sound _ stepped => sound.step stepped)
    ⟨.initial, nofun, nofun⟩

end Sound

end PrehniteDB.Maintenance
