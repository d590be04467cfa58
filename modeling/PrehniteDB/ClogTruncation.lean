import PrehniteDB.ReclaimWatermark

namespace PrehniteDB.Maintenance

/-!
# Truncating the commit log

Below the floor the commit log answers `committed` for every id.  The rows that
survive the reclamation pass may still name an id whose outcome was something
else: the insert of a transaction that crashed without a record, or a delete
that was rolled back or crashed.  The pass reads a watermark of its own, later
than the floor, and after a restart ids below the floor may be assigned again.
The state carries the log that has forgotten nothing, and the law compares the
two in every state of a run.
-/

variable {Values : Type}

/-- No snapshot in use notices what was forgotten, or saw anything in a row that is gone. -/
structure Preserved (state : State Values) : Prop where
  kept :
    ∀ snapshot,
      state.store.InUse snapshot →
      ∀ row record,
        state.store.rows row = some record →
        snapshot.visible state.store.tx.clog record.txMin record.txMax =
          snapshot.visible state.full record.txMin record.txMax
  removed :
    ∀ snapshot,
      state.store.InUse snapshot →
      ∀ row ∈ state.removed,
        snapshot.visible state.full row.2.txMin row.2.txMax = false

/-- No row below the floor depends on an outcome the truncation rewrites. -/
structure TruncationSafe (store : Statements.State Values) (floor : Nat) : Prop where
  /-- No live row was inserted by a transaction that crashed without a record. -/
  inserted :
    ∀ row record,
      store.rows row = some record →
      record.txMax = 0 →
      record.txMin < floor →
      store.tx.clog.status record.txMin ≠ none
  /-- Every delete of another transaction's row has committed. -/
  deleted :
    ∀ row record,
      store.rows row = some record →
      record.txMax ≠ 0 →
      record.txMax ≠ record.txMin →
      record.txMax < floor →
      store.tx.clog.status record.txMax = some .committed

/--
Each table pass acts on deletes that are past for the snapshots in use, each
truncation is safe at its floor, and no restart finds a header below the floor.
-/
def Careful (state : State Values) : Action Values → Prop
  | .reclaimTable tableRoot =>
      ∀ oldestActive ∈ state.watermark, DeletesPast state.store oldestActive tableRoot
  | .truncateBelow => ∀ floor ∈ state.floor, TruncationSafe state.store floor
  | .restart => state.store.tx.clog.minTxId ≤ state.store.persistedNextTxId
  | _ => True

theorem status_recalled
    {after before : Clog}
    (raised : before.minTxId ≤ after.minTxId)
    (txId : Nat) :
    (recalled after before).status txId =
      if txId < after.minTxId then before.status txId
      else after.status txId := by
  unfold recalled Clog.status
  by_cases forgotten : txId < after.minTxId
  · simp [forgotten]
  · have aboveOld : ¬ txId < before.minTxId := by omega
    simp [forgotten, aboveOld]

theorem minTxId_truncateBelow
    (clog : Clog)
    (floor : Nat) :
    (clog.truncateBelow floor).minTxId = max floor clog.minTxId := by
  unfold Clog.truncateBelow
  split_ifs with zero stale
  · omega
  · exact (Nat.max_eq_right stale).symm
  · exact (Nat.max_eq_left (Nat.le_of_not_le stale)).symm

/-- The log and the full log give one answer for the id. -/
def Agreed (state : State Values) (txId : Nat) : Prop :=
  state.store.tx.clog.status txId = state.full.status txId

/-- The id has ended, and no restart assigns it again. -/
def Finished (store : Statements.State Values) (txId : Nat) : Prop :=
  txId < store.persistedNextTxId ∧ txId ∉ store.tx.inFlight

/-- Why no snapshot, now or later, sees anything in a removed row. -/
inductive Gone (state : State Values) (record : RowRecord Values) : Prop where
  | own
      (positive : record.txMin ≠ 0)
      (same : record.txMax = record.txMin)
  | inserted
      (positive : record.txMin ≠ 0)
      (creator : Finished state.store record.txMin)
      (rolledBack : state.full.status record.txMin = some .rolledBack)
  | deleted
      (positive : record.txMin ≠ 0)
      (creator : Finished state.store record.txMin)
      (stamped : record.txMax ≠ 0)
      (deleter : Finished state.store record.txMax)
      (committed : state.full.status record.txMax = some .committed)
      (past :
        ∀ snapshot,
          state.store.InUse snapshot →
          snapshot.Sees state.full record.txMin →
          snapshot.Past record.txMax)

/-- What holds of every state while all steps are careful. -/
structure Remembers (state : State Values) : Prop where
  sound : Sound state
  bounds : Bounds state.store state.store.tx.clog.minTxId
  floor : state.full.minTxId ≤ state.store.tx.clog.minTxId
  above : ∀ txId, state.store.tx.clog.minTxId ≤ txId → Agreed state txId
  rows :
    ∀ row record,
      state.store.rows row = some record →
      record.txMax = record.txMin ∨
        (Agreed state record.txMin ∧ (record.txMax = 0 ∨ Agreed state record.txMax))
  tables :
    ∀ row record,
      state.store.rows row = some record →
      row.tableRoot ∈ state.tables
  /-- A table the pass has visited keeps no rolled-back insert below the floor. -/
  visited :
    ∀ floor ∈ state.floor, ∀ oldestActive ∈ state.watermark,
      floor ≤ oldestActive ∧
        ∀ row record,
          state.store.rows row = some record →
          row.tableRoot ∉ state.remaining →
          record.txMin < floor →
          state.store.tx.clog.status record.txMin ≠ some .rolledBack
  removed : ∀ row ∈ state.removed, Gone state row.2

section Steps

variable {state next : State Values}

theorem le_oldestActive
    {store : Statements.State Values}
    {bound : Nat}
    (bounds : Bounds store bound) :
    bound ≤ store.tx.oldestActiveTxId := by
  unfold TxState.oldestActiveTxId
  cases smallest : store.tx.inFlight.min with
  | top => exact bounds.1
  | coe least => exact bounds.2 least (Finset.mem_of_min smallest)

/-- What is gone stays gone while its outcomes stay and new snapshots count ended ids as past. -/
theorem Gone.mono
    {record : RowRecord Values}
    (gone : Gone state record)
    (ended :
      ∀ txId,
        Finished state.store txId →
        Finished next.store txId ∧ next.full.status txId = state.full.status txId)
    (snapshots :
      ∀ snapshot,
        next.store.InUse snapshot →
        state.store.InUse snapshot ∨
          ∀ txId, Finished state.store txId → snapshot.Past txId) :
    Gone next record := by
  cases gone with
  | own positive same => exact .own positive same
  | inserted positive creator rolledBack =>
      exact .inserted positive (ended _ creator).1 ((ended _ creator).2.trans rolledBack)
  | deleted positive creator stamped deleter committed past =>
      refine .deleted positive (ended _ creator).1 stamped (ended _ deleter).1
        ((ended _ deleter).2.trans committed) fun snapshot inUse seen => ?_
      rcases snapshots snapshot inUse with earlier | fresh
      · exact past snapshot earlier ⟨(ended _ creator).2 ▸ seen.1, seen.2⟩
      · exact fresh _ deleter

/-- A statement ends at most ids in flight, and leaves the floor alone. -/
theorem statement_clog
    {store after : Statements.State Values}
    {action : Statements.Action Values}
    (stepped : Statements.step store action = some after)
    (sound : Statements.Sound store) :
    after.tx.clog.minTxId = store.tx.clog.minTxId ∧
      ∀ txId ∉ store.tx.inFlight, after.tx.clog.status txId = store.tx.clog.status txId := by
  cases Statements.step_effect stepped with
  | commit running =>
      refine ⟨rfl, fun txId ended => Clog.status_append_other ?_⟩
      rintro rfl
      exact ended (sound.session _ _ running).2
  | rollback running =>
      refine ⟨rfl, fun txId ended => Clog.status_append_other ?_⟩
      rintro rfl
      exact ended (sound.session _ _ running).2
  | _ => exact ⟨rfl, fun _ _ => rfl⟩

/-- A snapshot in use after a statement was in use before it or is captured by it. -/
theorem statement_inUse
    {store after : Statements.State Values}
    {action : Statements.Action Values}
    (stepped : Statements.step store action = some after)
    {snapshot : Snapshot}
    (inUse : after.InUse snapshot) :
    store.InUse snapshot ∨ ∃ own, snapshot = store.tx.snapshot own := by
  have replaced :
      ∀ (txId : Nat) (session : Option Statements.Session),
        (∀ found, session = some found →
          store.InUse found.snapshot ∨ ∃ own, found.snapshot = store.tx.snapshot own) →
        (store.setSession txId session).InUse snapshot →
        store.InUse snapshot ∨ ∃ own, snapshot = store.tx.snapshot own := by
    rintro txId session opened (reader | ⟨id, found, running, rfl⟩)
    · exact .inl (.inl reader)
    · by_cases same : id = txId
      · subst same
        simp only [Statements.State.setSession, Function.update_self] at running
        exact opened found running
      · simp only [Statements.State.setSession, Function.update_of_ne same] at running
        exact .inl (.inr ⟨id, found, running, rfl⟩)
  cases Statements.step_effect stepped with
  | beginWrite => exact .inl inUse
  | pin _ _ =>
      refine replaced _ _ (fun found member => ?_) inUse
      obtain rfl := Option.some.inj member
      exact .inr ⟨_, rfl⟩
  | openReader =>
      rcases inUse with member | opened
      · rcases List.mem_cons.mp member with rfl | member
        · exact .inr ⟨_, rfl⟩
        · exact .inl (.inl member)
      · exact .inl (.inr opened)
  | closeReader => exact .inl (inUse.imp_left List.mem_of_mem_erase)
  | exec _ _ _ => exact .inl inUse
  | fail running =>
      refine replaced _ _ (fun found member => ?_) inUse
      obtain rfl := Option.some.inj member
      exact .inl (.inr ⟨_, _, running, rfl⟩)
  | commit _ => exact replaced _ none (fun _ running => by cases running) inUse
  | rollback _ => exact replaced _ none (fun _ running => by cases running) inUse

/-- A row found after a statement was there before, or carries the id of the writer. -/
theorem statement_rows
    {store after : Statements.State Values}
    {action : Statements.Action Values}
    (stepped : Statements.step store action = some after)
    (sound : Statements.Sound store)
    {row : RowKey}
    {record : RowRecord Values}
    (found : after.rows row = some record) :
    store.rows row = some record ∨
      (∃ earlier txId,
        store.rows row = some earlier ∧ txId ∈ store.tx.inFlight ∧
          record = { earlier with txMax := txId } ∧ earlier.txMax ≠ earlier.txMin) ∨
      ∃ txId values,
        txId ∈ store.tx.inFlight ∧ row.tableRoot ∈ storesIn action ∧
          record = { txMin := txId, txMax := 0, values := values } := by
  cases Statements.step_effect stepped with
  | @exec txId tombstones inserts session running updatable _ =>
      have writer := (sound.session txId session running).2
      rcases Statements.written_cases found with
        ⟨deleted, earlier, stored, rfl⟩ | ⟨values, member, rfl⟩ | stored
      · obtain ⟨_, present, visible, _⟩ := Statements.updatable_iff.mp (updatable row deleted)
        obtain rfl := Option.some.inj (stored.symm.trans present)
        refine .inr (.inl ⟨earlier, txId, stored, writer, rfl, fun own => ?_⟩)
        have positive := (sound.stamped row earlier stored).1
        rw [own, Snapshot.visible_self (Nat.pos_iff_ne_zero.mp positive)] at visible
        cases visible
      · refine .inr (.inr ⟨txId, values, writer, ?_, rfl⟩)
        simp only [storesIn, List.mem_toFinset, List.mem_map]
        exact ⟨_, member, rfl⟩
      · exact .inl stored
  | _ => exact .inl found

namespace Remembers

/-- Everything the full log knows of an ended id survives a statement. -/
theorem full_statement
    (remembers : Remembers state)
    {action : Statements.Action Values}
    {store : Statements.State Values}
    (taken : Statements.step state.store action = some store)
    {txId : Nat}
    (ended : txId ∉ state.store.tx.inFlight) :
    (recalled store.tx.clog state.full).status txId = state.full.status txId := by
  obtain ⟨sameFloor, same⟩ := statement_clog taken remembers.sound.store
  rw [status_recalled (sameFloor ▸ remembers.floor)]
  split_ifs with below
  · rfl
  · rw [sameFloor] at below
    exact (same txId ended).trans (remembers.above txId (Nat.le_of_not_lt below))

theorem statement
    (remembers : Remembers state)
    {action : Statements.Action Values}
    {store : Statements.State Values}
    (taken : Statements.step state.store action = some store)
    (sound : Sound { state with
      store := store
      tables := state.tables ∪ storesIn action
      full := recalled store.tx.clog state.full }) :
    Remembers { state with
      store := store
      tables := state.tables ∪ storesIn action
      full := recalled store.tx.clog state.full } := by
  obtain ⟨sameFloor, same⟩ := statement_clog taken remembers.sound.store
  have raised : state.full.minTxId ≤ store.tx.clog.minTxId := sameFloor ▸ remembers.floor
  have above : ∀ txId, store.tx.clog.minTxId ≤ txId →
      store.tx.clog.status txId = (recalled store.tx.clog state.full).status txId := by
    intro txId past
    rw [status_recalled raised, if_neg (Nat.not_lt.mpr past)]
  have agreed : ∀ txId, Agreed state txId →
      store.tx.clog.status txId = (recalled store.tx.clog state.full).status txId := by
    intro txId before
    by_cases past : store.tx.clog.minTxId ≤ txId
    · exact above txId past
    · have below : txId < store.tx.clog.minTxId := Nat.lt_of_not_le past
      rw [status_recalled raised, if_pos below, ← before]
      simp only [Clog.status, if_pos below, if_pos (sameFloor ▸ below)]
  have writer : ∀ txId ∈ state.store.tx.inFlight,
      store.tx.clog.status txId = (recalled store.tx.clog state.full).status txId :=
    fun txId active => above txId (sameFloor.symm ▸ remembers.bounds.2 txId active)
  have rowsOf := fun {row record} (found : store.rows row = some record) =>
    statement_rows taken remembers.sound.store found
  refine ⟨sound, sameFloor.symm ▸ Sound.statement_bounds remembers.bounds taken, raised, above,
    ?_, ?_, ?_, ?_⟩
  · intro row record found
    rcases rowsOf found with stored | ⟨earlier, txId, stored, active, rfl, foreign⟩ |
        ⟨txId, values, active, -, rfl⟩
    · exact (remembers.rows row record stored).imp_right fun both =>
        ⟨agreed _ both.1, both.2.imp_right (agreed _)⟩
    · have creator := ((remembers.rows row earlier stored).resolve_left foreign).1
      exact .inr ⟨agreed _ creator, .inr (writer txId active)⟩
    · exact .inr ⟨writer txId active, .inl rfl⟩
  · intro row record found
    rcases rowsOf found with stored | ⟨earlier, txId, stored, -⟩ | ⟨txId, values, -, inside, -⟩
    · exact Finset.mem_union_left _ (remembers.tables row record stored)
    · exact Finset.mem_union_left _ (remembers.tables row earlier stored)
    · exact Finset.mem_union_right _ inside
  · intro floor captured oldestActive watermark
    obtain ⟨ordered, cleaned⟩ := remembers.visited floor captured oldestActive watermark
    refine ⟨ordered, fun row record found passed below => ?_⟩
    have active := (remembers.sound.floor floor captured).2
    have ended : record.txMin ∉ state.store.tx.inFlight := fun member =>
      Nat.not_le.mpr below (active _ member)
    have answer := same record.txMin ended
    rcases rowsOf found with stored | ⟨earlier, txId, stored, -, rfl, -⟩ |
        ⟨txId, values, member, -, rfl⟩
    · exact answer ▸ cleaned row record stored passed below
    · exact answer ▸ cleaned row earlier stored passed below
    · exact absurd member ended
  · intro row member
    refine (remembers.removed row member).mono (fun txId ended => ⟨?_, ?_⟩) ?_
    · have persisted := remembers.sound.store.persisted.2
      refine ⟨Nat.lt_of_lt_of_le ended.1 ?_, fun active => ?_⟩
      · cases Statements.step_effect taken with
        | exec _ _ _ => exact persisted
        | _ => exact Nat.le_refl _
      · rcases (Sound.statement_inFlight taken).2 txId active with earlier | fresh
        · exact ended.2 earlier
        · exact absurd ended.1 (Nat.not_lt.mpr (Nat.le_trans persisted fresh))
    · exact remembers.full_statement taken ended.2
    · intro snapshot inUse
      rcases statement_inUse taken inUse with earlier | ⟨own, rfl⟩
      · exact .inl earlier
      · exact .inr fun txId ended =>
          ⟨Nat.lt_of_lt_of_le ended.1 remembers.sound.store.persisted.2, ended.2⟩

/-- The pass over one table removes what no snapshot will miss. -/
theorem reclaimTable
    (remembers : Remembers state)
    {tableRoot : UInt32}
    {oldestActive : Nat}
    (captured : oldestActive ∈ state.watermark)
    (past : DeletesPast state.store oldestActive tableRoot)
    {row : RowKey × RowRecord Values}
    (stored : state.store.rows row.1 = some row.2)
    (here : row.1.tableRoot = tableRoot)
    (isDead : dead state.store.tx.clog oldestActive row.2 = true) :
    Gone state row.2 := by
  have stamps := remembers.sound.store.stamped row.1 row.2 stored
  have positive := Nat.pos_iff_ne_zero.mp stamps.1
  have active := (remembers.sound.watermark oldestActive captured).2
  have ended : ∀ txId < oldestActive, txId ∉ state.store.tx.inFlight := fun txId below member =>
    Nat.not_le.mpr below (active txId member)
  rcases dead_iff.mp isDead with ⟨stamped, below, committed⟩ | ⟨-, below, rolledBack⟩
  · rcases remembers.rows row.1 row.2 stored with own | ⟨creator, deleter⟩
    · exact .own positive own
    · by_cases own : row.2.txMax = row.2.txMin
      · exact .own positive own
      · have finished := remembers.sound.store.deleted row.1 row.2 stored stamped own
        refine .deleted positive ⟨stamps.2.1, finished.1⟩ stamped
          ⟨stamps.2.2, ended _ below⟩ ((deleter.resolve_left stamped) ▸ committed) ?_
        intro snapshot inUse seen
        refine past row.1 row.2 snapshot stored here stamped below committed inUse ?_
        exact Snapshot.created_iff.mpr (.inr (.inr ⟨creator.trans seen.1, seen.2⟩))
  · have above : state.store.tx.clog.minTxId ≤ row.2.txMin := by
      by_contra forgotten
      simp only [Clog.status, if_pos (Nat.lt_of_not_le forgotten), Option.some.injEq,
        reduceCtorEq] at rolledBack
    exact .inserted positive ⟨stamps.2.1, ended _ below⟩
      ((remembers.above _ above).symm.trans rolledBack)

/-- Below the floor only committed outcomes are left in the rows. -/
theorem truncated_rows
    (remembers : Remembers state)
    {floor : Nat}
    (captured : floor ∈ state.floor)
    {oldestActive : Nat}
    (watermark : oldestActive ∈ state.watermark)
    (done : state.remaining = ∅)
    (safe : TruncationSafe state.store floor)
    {row : RowKey}
    {record : RowRecord Values}
    (stored : state.store.rows row = some record)
    (foreign : record.txMax ≠ record.txMin) :
    (record.txMin < floor → state.store.tx.clog.status record.txMin = some .committed) ∧
      (record.txMax ≠ 0 → record.txMax < floor →
        state.store.tx.clog.status record.txMax = some .committed) := by
  refine ⟨fun below => ?_, fun stamped below =>
    safe.deleted row record stored stamped foreign below⟩
  by_cases live : record.txMax = 0
  · have recorded := safe.inserted row record stored live below
    have cleaned := (remembers.visited floor captured oldestActive watermark).2 row record stored
      (done ▸ Finset.notMem_empty _) below
    cases outcome : state.store.tx.clog.status record.txMin with
    | none => exact absurd outcome recorded
    | some status =>
        cases status with
        | committed => rfl
        | rolledBack => exact absurd outcome cleaned
  · exact (remembers.sound.store.deleted row record stored live foreign).2

theorem truncateBelow
    (remembers : Remembers state)
    {floor oldestActive : Nat}
    (captured : floor ∈ state.floor)
    (watermark : oldestActive ∈ state.watermark)
    (done : state.remaining = ∅)
    (safe : TruncationSafe state.store floor)
    (sound : Sound { state with
      store := { state.store with
        tx := { state.store.tx with clog := state.store.tx.clog.truncateBelow floor } }
      watermark := none
      floor := none }) :
    Remembers { state with
      store := { state.store with
        tx := { state.store.tx with clog := state.store.tx.clog.truncateBelow floor } }
      watermark := none
      floor := none } := by
  have raised := minTxId_truncateBelow state.store.tx.clog floor
  have agreed : ∀ txId, Agreed state txId →
      (txId < floor → state.store.tx.clog.status txId = some .committed) →
      (state.store.tx.clog.truncateBelow floor).status txId = state.full.status txId := by
    intro txId before committed
    rw [Clog.status_truncateBelow]
    split_ifs with below
    · exact (committed below).symm.trans before
    · exact before
  have floors := remembers.sound.floor floor captured
  refine ⟨sound, ⟨?_, fun txId active => ?_⟩, ?_, fun txId past => ?_, ?_, remembers.tables,
    nofun, ?_⟩
  · exact raised ▸ Nat.max_le.mpr ⟨floors.1, remembers.bounds.1⟩
  · exact raised ▸ Nat.max_le.mpr ⟨floors.2 txId active, remembers.bounds.2 txId active⟩
  · exact raised ▸ Nat.le_trans remembers.floor (Nat.le_max_right _ _)
  · have both : floor ≤ txId ∧ state.store.tx.clog.minTxId ≤ txId :=
      Nat.max_le.mp (raised ▸ past)
    exact agreed txId (remembers.above txId both.2) fun below =>
      absurd both.1 (Nat.not_le.mpr below)
  · intro row record stored
    by_cases own : record.txMax = record.txMin
    · exact .inl own
    · obtain ⟨creator, deleter⟩ :=
        remembers.truncated_rows captured watermark done safe stored own
      have both := (remembers.rows row record stored).resolve_left own
      refine .inr ⟨agreed _ both.1 creator, ?_⟩
      by_cases live : record.txMax = 0
      · exact .inl live
      · exact .inr (agreed _ (both.2.resolve_left live) (deleter live))
  · intro row member
    exact (remembers.removed row member).mono (fun _ ended => ⟨ended, rfl⟩) fun _ => .inl

theorem step
    {action : Action Values}
    (remembers : Remembers state)
    (careful : Careful state action)
    (stepped : Maintenance.step state action = some next) :
    Remembers next := by
  have sound := remembers.sound.step stepped
  cases action with
  | statement action =>
      obtain ⟨store, taken, rfl⟩ := Option.map_eq_some_iff.mp stepped
      exact remembers.statement taken sound
  | writeHeader =>
      obtain rfl := Option.some.inj stepped
      refine { remembers with sound := sound, removed := fun row member => ?_ }
      refine (remembers.removed row member).mono (fun txId ended => ⟨⟨?_, ended.2⟩, rfl⟩)
        fun _ => .inl
      exact Nat.lt_of_lt_of_le ended.1 remembers.sound.store.persisted.2
  | startPass =>
      obtain rfl := Option.some.inj stepped
      refine { remembers with
        sound := sound
        visited := fun floor captured oldestActive watermark => ?_
        removed := fun row member =>
          (remembers.removed row member).mono (fun _ ended => ⟨ended, rfl⟩) fun _ => .inl }
      obtain rfl := Option.mem_some_iff.mp watermark
      refine ⟨le_oldestActive (remembers.sound.floor floor captured), ?_⟩
      exact fun row record stored passed => absurd (remembers.tables row record stored) passed
  | reclaimTable tableRoot =>
      obtain ⟨oldestActive, captured, rfl⟩ := Option.map_eq_some_iff.mp stepped
      have kept : ∀ row record,
          (reclaim state.store oldestActive (· = tableRoot)).rows row = some record →
          state.store.rows row = some record ∧
            (decide (row.tableRoot = tableRoot) = true →
              dead state.store.tx.clog oldestActive record = false) :=
        fun _ _ => reclaim_rows.mp
      refine { remembers with
        sound := sound
        rows := fun row record found => remembers.rows row record (kept row record found).1
        tables := fun row record found => remembers.tables row record (kept row record found).1
        visited := fun floor inProgress watermark same => ?_
        removed := fun row member => ?_ }
      · obtain ⟨ordered, cleaned⟩ := remembers.visited floor inProgress watermark same
        obtain rfl := Option.some.inj (captured.symm.trans same)
        refine ⟨ordered, fun row record found passed below rolledBack => ?_⟩
        obtain ⟨stored, alive⟩ := kept row record found
        by_cases here : row.tableRoot = tableRoot
        · have positive := (remembers.sound.store.stamped row record stored).1
          have isDead := dead_iff.mpr (.inr ⟨Nat.pos_iff_ne_zero.mp positive,
            Nat.lt_of_lt_of_le below ordered, rolledBack⟩)
          exact absurd ((alive (decide_eq_true here)).symm.trans isDead) (by decide)
        · refine cleaned row record stored (fun inside => passed ?_) below rolledBack
          exact Finset.mem_erase.mpr ⟨here, inside⟩
      · have gone : Gone state row.2 := by
          rcases member with earlier | ⟨stored, here, isDead⟩
          · exact remembers.removed row earlier
          · exact remembers.reclaimTable captured (careful oldestActive captured) stored here
              isDead
        exact gone.mono (fun _ ended => ⟨ended, rfl⟩) fun _ => .inl
  | captureFloor =>
      obtain rfl := Option.some.inj stepped
      exact { remembers with
        sound := sound
        visited := fun _ _ _ watermark => by cases watermark
        removed := fun row member =>
          (remembers.removed row member).mono (fun _ ended => ⟨ended, rfl⟩) fun _ => .inl }
  | truncateBelow =>
      simp only [Maintenance.step] at stepped
      split at stepped
      · next floor oldestActive captured watermark =>
          split_ifs at stepped with done
          obtain rfl := Option.some.inj stepped
          exact remembers.truncateBelow captured watermark done (careful floor captured) sound
      · cases stepped
  | restart =>
      obtain rfl := Option.some.inj stepped
      refine { remembers with
        sound := sound
        bounds := ⟨Nat.le_trans careful (Nat.le_max_left _ _), fun _ active => by cases active⟩
        visited := fun _ captured => by cases captured
        removed := fun row member => ?_ }
      exact (remembers.removed row member).mono
        (fun _ ended => ⟨⟨ended.1, fun active => by cases active⟩, rfl⟩)
        fun snapshot inUse => by
          rcases inUse with reader | ⟨_, _, running, _⟩
          · cases reader
          · cases running

theorem initial : Remembers (Maintenance.initial : State Values) where
  sound := ⟨.initial, nofun, nofun⟩
  bounds := ⟨Nat.zero_le _, fun _ _ => Nat.zero_le _⟩
  floor := Nat.le_refl _
  above := fun _ _ => rfl
  rows := nofun
  tables := nofun
  visited := nofun
  removed := nofun

theorem preserved (remembers : Remembers state) : Preserved state where
  kept := by
    intro snapshot _ row record stored
    rcases remembers.rows row record stored with own | ⟨creator, deleter⟩
    · have positive := (remembers.sound.store.stamped row record stored).1
      rw [own, Snapshot.visible_self (Nat.pos_iff_ne_zero.mp positive),
        Snapshot.visible_self (Nat.pos_iff_ne_zero.mp positive)]
    · exact Snapshot.visible_congr creator fun live => deleter.resolve_left live
  removed := by
    intro snapshot inUse row member
    have own : ∀ txId, Finished state.store txId → some txId ≠ snapshot.ownTx :=
      fun txId ended same => ended.2 (remembers.sound.store.own_active inUse same.symm)
    rw [Bool.eq_false_iff, ne_eq, Snapshot.visible_iff, Snapshot.created_iff]
    rintro ⟨created, alive⟩
    cases remembers.removed row member with
    | own positive same =>
        have never : snapshot.visible state.full row.2.txMin row.2.txMin = false :=
          Snapshot.visible_self positive
        rw [Bool.eq_false_iff, ne_eq, Snapshot.visible_iff, Snapshot.created_iff] at never
        exact never ⟨created, same ▸ alive⟩
    | inserted positive creator rolledBack =>
        rcases created with mine | zero | seen
        · exact own _ creator mine
        · exact positive zero
        · exact absurd (seen.1.symm.trans rolledBack) (by decide)
    | deleted positive creator stamped deleter committed past =>
        rcases created with mine | zero | seen
        · exact own _ creator mine
        · exact positive zero
        · exact (alive.resolve_left stamped).2 ⟨committed, past snapshot inUse seen⟩

end Remembers

end Steps

/-- While every step is careful, truncation changes no snapshot's answer and reclamation
removes nothing a snapshot sees, in every state. -/
theorem truncations_preserve
    {actions : List (Action Values)}
    {state : State Values}
    (run : TransitionRun.Run step Careful initial actions state) :
    Preserved state :=
  (run.invariant Remembers (fun remembers careful stepped => remembers.step careful stepped)
    .initial).preserved

/-- Transaction 2 deletes the row of transaction 1. -/
def deleteRow : List (Action Nat) :=
  createRow ++
    [.statement .beginWrite, .statement (.pin 2),
      .statement (.exec 2 [reclaimedRow] [])]

/-- The delete commits and a truncation captures its floor; transaction 3, in flight then,
inserts into another table and commits before the pass reads its watermark. -/
def truncationBegins : List (Action Nat) :=
  deleteRow ++
    [.statement (.commit 2), .statement .beginWrite, .statement (.pin 3), .captureFloor,
      .statement (.exec 3 [] [({ tableRoot := 9, rowid := 1 }, 1)]), .statement (.commit 3),
      .statement .openReader, .startPass]

/-- Neither removes rows nor forgets outcomes. -/
def quiet : Action Nat → Bool
  | .reclaimTable _ | .truncateBelow | .restart => false
  | _ => true

/-- The snapshot of a reader that starts when ids 1 to 3 have ended. -/
def laterReader : Snapshot where
  nextTx := 4
  inFlight := ∅
  ownTx := none

theorem deletesPast_of_laterReader
    {store : Statements.State Values}
    (readers : ∀ snapshot, store.InUse snapshot → snapshot = laterReader)
    (tableRoot : UInt32) :
    DeletesPast store 4 tableRoot := by
  intro row record snapshot _ _ _ below _ inUse _
  obtain rfl := readers snapshot inUse
  exact ⟨below, Finset.notMem_empty _⟩

/-- The pass visits both tables and removes the deleted row under a reader, and the truncation
forgets how its transactions ended. -/
theorem truncation_preserves_committed :
    ∃ (actions : List (Action Nat)) (state : State Nat),
      TransitionRun.Run step Careful initial actions state ∧
        state.store.tx.clog.minTxId = 3 ∧ state.store.InUse laterReader ∧
        (reclaimedRow, { txMin := 1, txMax := 2, values := 0 }) ∈ state.removed ∧
        Preserved state := by
  have evaluated :
      ((TransitionRun.replay step (fun _ action => quiet action = true) initial
        truncationBegins).bind fun begun : State Nat =>
          (step begun (.reclaimTable 7)).bind fun first =>
            (step first (.reclaimTable 9)).bind fun second =>
              (step second .truncateBelow).map fun state =>
                (begun.store.rows reclaimedRow,
                  decide (begun.watermark = some 4 ∧ begun.floor = some 3),
                  decide (begun.store.tx.inFlight = ∅ ∧ begun.store.readers = [laterReader]),
                  decide ([1, 2].map begun.store.tx.clog.status =
                    [some .committed, some .committed] ∧ state.store.tx.clog.minTxId = 3))) =
        some (some { txMin := 1, txMax := 2, values := 0 }, true, true, true) := by
    decide
  obtain ⟨begun, reached, rest⟩ := Option.bind_eq_some_iff.mp evaluated
  obtain ⟨first, firstStep, rest⟩ := Option.bind_eq_some_iff.mp rest
  obtain ⟨second, secondStep, rest⟩ := Option.bind_eq_some_iff.mp rest
  obtain ⟨state, last, observed⟩ := Option.map_eq_some_iff.mp rest
  simp only [Prod.mk.injEq, List.map_cons, List.map_nil, List.cons.injEq, and_true,
    decide_eq_true_eq] at observed
  obtain ⟨stored, ⟨watermark, floor⟩, ⟨idle, readers⟩, ⟨committed, deleted⟩, forgotten⟩ :=
    observed
  have prefixed : TransitionRun.Run step Careful initial truncationBegins begun :=
    (TransitionRun.run_of_replay reached).imp fun state action unhurried => by
      cases action <;> trivial
  have sound := (Sound.reachable prefixed).store
  have reading : ∀ snapshot, begun.store.InUse snapshot → snapshot = laterReader := by
    intro snapshot inUse
    have reader := sound.reader_of_idle idle inUse
    rwa [readers, List.mem_singleton] at reader
  obtain ⟨oldest, captured, rfl⟩ := Option.map_eq_some_iff.mp firstStep
  obtain rfl := Option.some.inj (captured.symm.trans watermark)
  obtain ⟨_, again, rfl⟩ := Option.map_eq_some_iff.mp secondStep
  obtain rfl := Option.some.inj (again.symm.trans watermark)
  have past : ∀ (tableRoot : UInt32) (bound : Nat), begun.watermark = some bound →
      DeletesPast begun.store bound tableRoot := by
    intro tableRoot bound same
    obtain rfl := Option.some.inj (same.symm.trans watermark)
    exact deletesPast_of_laterReader reading tableRoot
  have once := prefixed.snoc (show Careful _ (.reclaimTable 7) from past 7) firstStep
  have passed := once.snoc
    (show Careful _ (.reclaimTable 9) by
      intro bound same
      obtain rfl := Option.some.inj (same.symm.trans watermark)
      apply deletesPast_of_laterReader
      exact reading) secondStep
  have known : ∀ txId, 0 < txId → txId < 3 →
      begun.store.tx.clog.status txId = some .committed := by
    intro txId positive below
    have either : txId = 1 ∨ txId = 2 := by omega
    rcases either with rfl | rfl
    · exact committed
    · exact deleted
  have stamped := (Sound.reachable passed).store.stamped
  have run := passed.snoc
    (show Careful _ .truncateBelow by
      intro bound same
      obtain rfl := Option.some.inj (same.symm.trans floor)
      constructor
      · intro row record present _ below unrecorded
        exact absurd ((known _ (stamped row record present).1 below).symm.trans unrecorded) nofun
      · intro row record _ positive _ below
        exact known _ (Nat.pos_of_ne_zero positive) below) last
  refine ⟨_, state, run, forgotten, ?_, ?_, truncations_preserve run⟩
  all_goals
    simp only [step, floor, watermark] at last
    split_ifs at last
    obtain rfl := Option.some.inj last
  · exact .inl (by simp [reclaim, readers])
  · refine .inl (.inr ⟨stored, rfl, dead_iff.mpr (.inl ⟨by decide, by decide, deleted⟩)⟩)

/-- The rolled-back delete of a live row becomes a committed one. -/
theorem truncation_hides_row :
    ¬ ∀ (actions : List (Action Nat)) (state : State Nat),
      TransitionRun.Run step TransitionRun.unrestricted initial actions state →
      Preserved state := by
  intro claim
  have replayed :
      ((TransitionRun.replay step TransitionRun.unrestricted initial
        (deleteRow ++ [.statement (.rollback 2), .captureFloor, .startPass, .reclaimTable 7,
          .truncateBelow, .statement .openReader])).map fun state =>
          (state.store.rows reclaimedRow, state.store.readers,
            lateReader.visible state.store.tx.clog 1 2,
            lateReader.visible state.full 1 2)) =
        some (some { txMin := 1, txMax := 2, values := 0 }, [lateReader], false, true) := by
    decide
  obtain ⟨state, reached, observed⟩ := Option.map_eq_some_iff.mp replayed
  simp only [Prod.mk.injEq] at observed
  obtain ⟨stored, readers, forgotten, known⟩ := observed
  have same := (claim _ state (TransitionRun.run_of_replay reached)).kept lateReader
    (.inl (by simp [readers])) reclaimedRow _ stored
  rw [forgotten, known] at same
  cases same

/-- A transaction ends between the floor and the watermark: the floor is 2, the pass works
with 3 and removes the row the snapshot of transaction 3 still sees. -/
theorem late_watermark_removes_row :
    ∃ (actions : List (Action Nat)) (state : State Nat),
      TransitionRun.Run step TransitionRun.unrestricted initial actions state ∧
        state.floor = some 2 ∧ state.watermark = some 3 ∧
        state.store.rows reclaimedRow = none ∧
        state.store.InUse overlappingSnapshot ∧
        overlappingSnapshot.visible state.full 1 2 = true := by
  have replayed :
      ((TransitionRun.replay step TransitionRun.unrestricted initial
        (createRow ++
          [.statement .beginWrite, .statement (.pin 2), .statement .beginWrite,
            .statement (.pin 3), .captureFloor, .statement (.exec 2 [reclaimedRow] []),
            .statement (.commit 2), .startPass, .reclaimTable 7])).map fun state : State Nat =>
          (decide (state.floor = some 2 ∧ state.watermark = some 3), state.store.session 3,
            state.store.rows reclaimedRow, overlappingSnapshot.visible state.full 1 2)) =
        some (true, some { snapshot := overlappingSnapshot, aborted := false }, none,
          true) := by
    decide
  obtain ⟨state, reached, observed⟩ := Option.map_eq_some_iff.mp replayed
  simp only [Prod.mk.injEq, decide_eq_true_eq] at observed
  obtain ⟨⟨floor, watermark⟩, running, gone, visible⟩ := observed
  exact ⟨_, state, TransitionRun.run_of_replay reached, floor, watermark, gone,
    .inr ⟨3, _, running, rfl⟩, visible⟩

end PrehniteDB.Maintenance
