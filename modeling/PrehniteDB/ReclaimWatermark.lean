import PrehniteDB.Maintenance

namespace PrehniteDB.Maintenance

/-!
# The reclamation watermark

The watermark is the smallest id in flight.  A snapshot, however, remembers the
ids that were in flight when it was captured, and an autocommit reader holds no
id at all, so a delete below the watermark may still be in the future of a
snapshot that is in use.
-/

variable {Values : Type}

/-- The pass over `tableRoot` removes this row. -/
def Removes
    (store : Statements.State Values)
    (oldestActive : Nat)
    (tableRoot : UInt32)
    (row : RowKey)
    (record : RowRecord Values) : Prop :=
  store.rows row = some record ∧
    row.tableRoot = tableRoot ∧
    dead store.tx.clog oldestActive record = true

/-- No snapshot in use sees a row the pass over `tableRoot` removes. -/
def ReclaimSafe
    (store : Statements.State Values)
    (oldestActive : Nat)
    (tableRoot : UInt32) : Prop :=
  ∀ row record snapshot,
    Removes store oldestActive tableRoot row record →
    store.InUse snapshot →
    snapshot.visible store.tx.clog record.txMin record.txMax = false

/--
Every committed delete below the watermark had ended when each snapshot in use
was captured, as far as the snapshot sees the row's creator.
-/
def DeletesPast
    (store : Statements.State Values)
    (oldestActive : Nat)
    (tableRoot : UInt32) : Prop :=
  ∀ row record snapshot,
    store.rows row = some record →
    row.tableRoot = tableRoot →
    record.txMax ≠ 0 →
    record.txMax < oldestActive →
    store.tx.clog.status record.txMax = some .committed →
    store.InUse snapshot →
    snapshot.created store.tx.clog record.txMin = true →
    snapshot.Past record.txMax

theorem not_created_of_rolledBack
    {snapshot : Snapshot}
    {clog : Clog}
    {txMin : Nat}
    (positive : txMin ≠ 0)
    (foreign : snapshot.ownTx ≠ some txMin)
    (dead : clog.status txMin = some .rolledBack) :
    ¬ snapshot.created clog txMin = true := by
  rw [Snapshot.created_iff]
  rintro (own | zero | seen)
  · exact foreign own.symm
  · exact positive zero
  · have committed := seen.1
    rw [dead] at committed
    cases committed

theorem own_ne_of_lt
    {store : Statements.State Values}
    {oldestActive txId : Nat}
    {snapshot : Snapshot}
    (sound : Statements.Sound store)
    (bound : ∀ active ∈ store.tx.inFlight, oldestActive ≤ active)
    (inUse : store.InUse snapshot)
    (below : txId < oldestActive) :
    snapshot.ownTx ≠ some txId := by
  intro own
  exact Nat.not_le.mpr below (bound txId (sound.own_active inUse own))

/-- One table pass is safe exactly when every delete it acts on is past for the snapshots in use. -/
theorem reclaim_safe_iff
    {actions : List (Action Values)}
    {state : State Values}
    {oldestActive : Nat}
    (run : TransitionRun.Run step TransitionRun.unrestricted initial actions state)
    (captured : state.watermark = some oldestActive)
    (tableRoot : UInt32) :
    ReclaimSafe state.store oldestActive tableRoot ↔
      DeletesPast state.store oldestActive tableRoot := by
  have sound := Sound.reachable run
  have bound := (sound.watermark oldestActive captured).2
  constructor
  · intro safe row record snapshot stored sameTable stamped below committed
      inUse created
    have invisible := safe row record snapshot
      ⟨stored, sameTable, dead_iff.mpr (.inl ⟨stamped, below, committed⟩)⟩
      inUse
    rw [Bool.eq_false_iff, ne_eq, Snapshot.visible_iff] at invisible
    have foreign := own_ne_of_lt sound.store bound inUse below
    by_contra future
    exact invisible ⟨created, .inr ⟨fun own => foreign own.symm,
      fun seen => future seen.2⟩⟩
  · intro past row record snapshot removes inUse
    obtain ⟨stored, sameTable, isDead⟩ := removes
    rw [Bool.eq_false_iff, ne_eq, Snapshot.visible_iff]
    rintro ⟨created, alive⟩
    rcases dead_iff.mp isDead with
      ⟨stamped, below, committed⟩ | ⟨positive, below, rolledBack⟩
    · rcases alive with zero | ⟨_, unseen⟩
      · exact stamped zero
      · exact unseen ⟨committed, past row record snapshot stored sameTable
          stamped below committed inUse created⟩
    · exact not_created_of_rolledBack positive
        (own_ne_of_lt sound.store bound inUse below) rolledBack created

/-- The row the traces below are about. -/
def reclaimedRow : RowKey where
  tableRoot := 7
  rowid := 1

/-- One transaction creates the row and commits. -/
def createRow : List (Action Nat) :=
  [.statement .beginWrite, .statement (.pin 1),
    .statement (.exec 1 [] [(reclaimedRow, 0)]), .statement (.commit 1)]

/-- The snapshot of a reader that starts when ids 1 and 2 have ended. -/
def lateReader : Snapshot where
  nextTx := 3
  inFlight := ∅
  ownTx := none

/-- A deleted row is reclaimed under a reader that started after the delete. -/
theorem reclaim_safe_late_reader :
    ∃ state : State Nat,
      state.store.rows reclaimedRow =
          some { txMin := 1, txMax := 2, values := 0 } ∧
        state.store.InUse lateReader ∧
        ReclaimSafe state.store 3 7 := by
  have replayed :
      ((TransitionRun.replay step TransitionRun.unrestricted initial
        (createRow ++
          [.statement .beginWrite, .statement (.pin 2),
            .statement (.exec 2 [reclaimedRow] []), .statement (.commit 2),
            .statement .openReader, .startPass])).map fun state =>
          (state.store.rows reclaimedRow, state.store.readers,
            state.store.tx.inFlight, state.watermark)) =
        some (some { txMin := 1, txMax := 2, values := 0 }, [lateReader], ∅,
          some 3) := by
    decide
  obtain ⟨state, reached, observed⟩ := Option.map_eq_some_iff.mp replayed
  simp only [Prod.mk.injEq] at observed
  obtain ⟨stored, readers, idle, captured⟩ := observed
  have run := TransitionRun.run_of_replay reached
  refine ⟨state, stored, .inl (by simp [readers]),
    (reclaim_safe_iff run captured 7).mpr ?_⟩
  intro row record snapshot _ _ _ below _ inUse _
  have reader := (Sound.reachable run).store.reader_of_idle idle inUse
  rw [readers, List.mem_singleton] at reader
  subst reader
  exact ⟨below, Finset.notMem_empty _⟩

/-- The snapshot transaction 3 pins while transaction 2 is in flight. -/
def overlappingSnapshot : Snapshot where
  nextTx := 4
  inFlight := {3, 2}
  ownTx := some 3

/--
Transaction 2 deletes the row and commits after transaction 3 has pinned its
snapshot; the watermark is then 3, and the pass removes the row under it.
-/
theorem reclaim_unsafe_reachable :
    ¬ ∀ (actions : List (Action Nat)) (state : State Nat) (oldestActive : Nat)
        (tableRoot : UInt32),
      TransitionRun.Run step TransitionRun.unrestricted initial actions state →
      state.watermark = some oldestActive →
      ReclaimSafe state.store oldestActive tableRoot := by
  intro claim
  have replayed :
      ((TransitionRun.replay step TransitionRun.unrestricted initial
        (createRow ++
          [.statement .beginWrite, .statement (.pin 2), .statement .beginWrite,
            .statement (.pin 3), .statement (.exec 2 [reclaimedRow] []),
            .statement (.commit 2), .startPass])).map fun state =>
          (state.watermark, state.store.session 3,
            state.store.rows reclaimedRow,
            dead state.store.tx.clog 3 { txMin := 1, txMax := 2, values := 0 },
            overlappingSnapshot.visible state.store.tx.clog 1 2)) =
        some (some 3, some { snapshot := overlappingSnapshot, aborted := false },
          some { txMin := 1, txMax := 2, values := 0 }, true, true) := by
    decide
  obtain ⟨state, reached, observed⟩ := Option.map_eq_some_iff.mp replayed
  simp only [Prod.mk.injEq] at observed
  obtain ⟨captured, running, stored, isDead, visible⟩ := observed
  have invisible := claim _ state 3 7 (TransitionRun.run_of_replay reached)
    captured reclaimedRow { txMin := 1, txMax := 2, values := 0 }
    overlappingSnapshot ⟨stored, rfl, isDead⟩ (.inr ⟨3, _, running, rfl⟩)
  rw [visible] at invisible
  cases invisible

end PrehniteDB.Maintenance
