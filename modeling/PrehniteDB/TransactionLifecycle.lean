import PrehniteDB.SsiBookkeeping
import PrehniteDB.TransactionInterleaving

namespace PrehniteDB.Interleaving

/-!
# Lifecycle of a transaction

`Effect` lists what one step of one connection can do, with every guard the
code tests.  `Lifecycle` is the part of the global invariant that only talks
about ids, snapshots and outcomes: what a captured snapshot counts as past is
exactly what had ended before it was captured.
-/

variable {Values : Type}

/-- The possible outcomes of one enabled step. -/
inductive Effect (state : State Values) : Action Values → State Values → Prop where
  | begin :
      Effect state .begin state.begin
  | read
      {txId : Nat}
      {tableRoot : UInt32}
      {access : AccessPath}
      {session : Session Values}
      (opened : state.openSession txId = some session) :
      Effect state (.read txId tableRoot access)
        (state.scan txId session.snapshot tableRoot access)
  | collect
      {txId : Nat}
      {tableRoot : UInt32}
      {access : AccessPath}
      {session : Session Values}
      (opened : state.openSession txId = some session) :
      Effect state (.collect txId tableRoot access)
        ((state.scan txId session.snapshot tableRoot access).setSession txId {
          session with
          candidates := state.collected session.snapshot tableRoot access
          checked := fun _ => false })
  | letThrough
      {txId : Nat}
      {row : RowKey}
      {session : Session Values}
      {record : RowRecord Values}
      (opened : state.openSession txId = some session)
      (candidate : session.candidates row = some record)
      (passed :
        checkWriteWriteConflict record session.snapshot state.tx.clog = .ok ()) :
      Effect state (.check txId row)
        (state.setSession txId {
          session with checked := Function.update session.checked row true })
  | conflict
      {txId : Nat}
      {row : RowKey}
      {session : Session Values}
      (opened : state.openSession txId = some session) :
      Effect state (.check txId row)
        (state.setSession txId { session with aborted := true })
  | tombstone
      {txId : Nat}
      {row : RowKey}
      {session : Session Values}
      {record : RowRecord Values}
      (opened : state.openSession txId = some session)
      (checked : session.checked row = true)
      (candidate : session.candidates row = some record) :
      Effect state (.tombstone txId row)
        ((state.writeTombstone txId row record).setSession txId {
          session with
          candidates := Function.update session.candidates row none
          tombstoned := row :: session.tombstoned })
  | insert
      {txId : Nat}
      {row : RowKey}
      {values : Values}
      {keys : List (UInt32 × List UInt8)}
      {session : Session Values}
      (opened : state.openSession txId = some session)
      (vacant : state.rows row = none) :
      Effect state (.insert txId row values keys)
        { state.writeVersion txId row values keys with
          tx := { (state.writeVersion txId row values keys).tx with
            ssi := (state.writeVersion txId row values keys).tx.ssi.recordInsert
              (some txId) row.tableRoot } }
  | insertVersion
      {txId : Nat}
      {old row : RowKey}
      {values : Values}
      {keys : List (UInt32 × List UInt8)}
      {session : Session Values}
      (opened : state.openSession txId = some session)
      (replaced : old ∈ session.tombstoned)
      (sameTable : old.tableRoot = row.tableRoot)
      (vacant : state.rows row = none) :
      Effect state (.insertVersion txId old row values keys)
        (state.writeVersion txId row values keys)
  | fail
      {txId : Nat}
      {session : Session Values}
      (opened : state.openSession txId = some session) :
      Effect state (.fail txId)
        (state.setSession txId { session with aborted := true })
  | committed
      {txId : Nat}
      {session : Session Values}
      (running : state.session txId = some session)
      (notPivot : state.tx.ssiCheckCommit txId = .ok ()) :
      Effect state (.commit txId) (state.resolve txId .committed)
  | refused
      {txId : Nat}
      {session : Session Values}
      (running : state.session txId = some session) :
      Effect state (.commit txId) (state.resolve txId .rolledBack)
  | rolledBack
      {txId : Nat}
      {session : Session Values}
      (running : state.session txId = some session) :
      Effect state (.rollback txId) (state.resolve txId .rolledBack)

theorem step_effect
    {state next : State Values}
    {action : Action Values}
    (stepped : step state action = some next) :
    Effect state action next := by
  cases action with
  | begin =>
      obtain rfl := Option.some.inj stepped
      exact .begin
  | read txId tableRoot access =>
      obtain ⟨session, opened, rfl⟩ := Option.map_eq_some_iff.mp stepped
      exact .read opened
  | collect txId tableRoot access =>
      obtain ⟨session, opened, rfl⟩ := Option.map_eq_some_iff.mp stepped
      exact .collect opened
  | check txId row =>
      obtain ⟨session, opened, found⟩ := Option.bind_eq_some_iff.mp stepped
      obtain ⟨record, candidate, rfl⟩ := Option.map_eq_some_iff.mp found
      cases passed :
          checkWriteWriteConflict record session.snapshot state.tx.clog with
      | ok _ => exact .letThrough opened candidate passed
      | error _ => exact .conflict opened
  | tombstone txId row =>
      obtain ⟨session, opened, guarded⟩ := Option.bind_eq_some_iff.mp stepped
      by_cases checked : session.checked row = true
      · rw [if_pos checked] at guarded
        obtain ⟨record, candidate, rfl⟩ := Option.map_eq_some_iff.mp guarded
        exact .tombstone opened checked candidate
      · rw [if_neg checked] at guarded
        cases guarded
  | insert txId row values keys =>
      obtain ⟨session, opened, guarded⟩ := Option.bind_eq_some_iff.mp stepped
      by_cases vacant : (state.rows row).isNone = true
      · rw [if_pos vacant] at guarded
        obtain rfl := Option.some.inj guarded
        exact .insert opened (Option.isNone_iff_eq_none.mp vacant)
      · rw [if_neg vacant] at guarded
        cases guarded
  | insertVersion txId old row values keys =>
      obtain ⟨session, opened, guarded⟩ := Option.bind_eq_some_iff.mp stepped
      by_cases allowed :
          old ∈ session.tombstoned ∧ old.tableRoot = row.tableRoot ∧
            (state.rows row).isNone = true
      · rw [if_pos allowed] at guarded
        obtain rfl := Option.some.inj guarded
        exact .insertVersion opened allowed.1 allowed.2.1
          (Option.isNone_iff_eq_none.mp allowed.2.2)
      · rw [if_neg allowed] at guarded
        cases guarded
  | fail txId =>
      obtain ⟨session, opened, rfl⟩ := Option.map_eq_some_iff.mp stepped
      exact .fail opened
  | commit txId =>
      obtain ⟨session, running, rfl⟩ := Option.map_eq_some_iff.mp stepped
      by_cases aborted : session.aborted = true
      · rw [if_pos aborted]
        exact .refused running
      · rw [if_neg aborted]
        cases notPivot : state.tx.ssiCheckCommit txId with
        | ok _ => exact .committed running notPivot
        | error _ => exact .refused running
  | rollback txId =>
      obtain ⟨session, running, rfl⟩ := Option.map_eq_some_iff.mp stepped
      exact .rolledBack running

theorem session_of_openSession
    {state : State Values}
    {txId : Nat}
    {session : Session Values}
    (opened : state.openSession txId = some session) :
    state.session txId = some session :=
  (Option.filter_eq_some_iff.mp opened).1

namespace State

variable (state : State Values)

/-- The snapshot the next `BEGIN` pins. -/
def nextSnapshot : Snapshot where
  nextTx := state.tx.nextTxId + 1
  inFlight := Insert.insert state.tx.nextTxId state.tx.inFlight
  ownTx := some state.tx.nextTxId

@[simp] theorem begin_nextTxId :
    state.begin.tx.nextTxId = state.tx.nextTxId + 1 := rfl

@[simp] theorem begin_inFlight :
    state.begin.tx.inFlight =
      Insert.insert state.tx.nextTxId state.tx.inFlight := rfl

@[simp] theorem begin_clog : state.begin.tx.clog = state.tx.clog := rfl

@[simp] theorem begin_ssi :
    state.begin.tx.ssi = state.tx.ssi.insert state.tx.nextTxId := rfl

@[simp] theorem begin_rows : state.begin.rows = state.rows := rfl

@[simp] theorem begin_clock :
    state.begin.trail.clock = state.trail.clock + 1 := rfl

@[simp] theorem begin_beganAt :
    state.begin.trail.beganAt =
      Function.update state.trail.beganAt state.tx.nextTxId state.trail.clock :=
  rfl

@[simp] theorem begin_endedAt :
    state.begin.trail.endedAt = state.trail.endedAt := rfl

@[simp] theorem begin_snapshotOf :
    state.begin.trail.snapshotOf =
      Function.update state.trail.snapshotOf state.tx.nextTxId
        (some state.nextSnapshot) := rfl

theorem begin_session :
    state.begin.session =
      Function.update state.session state.tx.nextTxId (some {
        snapshot := state.nextSnapshot
        aborted := false
        candidates := fun _ => none
        checked := fun _ => false
        tombstoned := [] }) := rfl

variable (txId : Nat) (outcome : Status)

@[simp] theorem resolve_nextTxId :
    (state.resolve txId outcome).tx.nextTxId = state.tx.nextTxId := rfl

@[simp] theorem resolve_inFlight :
    (state.resolve txId outcome).tx.inFlight = state.tx.inFlight.erase txId :=
  rfl

@[simp] theorem resolve_clog :
    (state.resolve txId outcome).tx.clog = state.tx.clog.append txId outcome :=
  rfl

@[simp] theorem resolve_ssi :
    (state.resolve txId outcome).tx.ssi = state.tx.ssi.remove txId := rfl

@[simp] theorem resolve_rows :
    (state.resolve txId outcome).rows = state.rows := rfl

@[simp] theorem resolve_session :
    (state.resolve txId outcome).session =
      Function.update state.session txId none := rfl

@[simp] theorem resolve_clock :
    (state.resolve txId outcome).trail.clock = state.trail.clock + 1 := rfl

@[simp] theorem resolve_beganAt :
    (state.resolve txId outcome).trail.beganAt = state.trail.beganAt := rfl

@[simp] theorem resolve_endedAt :
    (state.resolve txId outcome).trail.endedAt =
      Function.update state.trail.endedAt txId state.trail.clock := rfl

@[simp] theorem resolve_snapshotOf :
    (state.resolve txId outcome).trail.snapshotOf = state.trail.snapshotOf :=
  rfl

end State

namespace State

theorem setSession_self
    (state : State Values)
    (txId : Nat)
    (session : Session Values) :
    (state.setSession txId session).session txId = some session := by
  simp [setSession]

theorem setSession_other
    {state : State Values}
    {txId other : Nat}
    {session : Session Values}
    (different : other ≠ txId) :
    (state.setSession txId session).session other = state.session other := by
  simp [setSession, different]

end State

theorem lockReturned_extends
    (state : State Values)
    (snapshot : Snapshot)
    (ssi : SsiMap)
    (row : RowKey) :
    ssi.Extends (state.lockReturned snapshot ssi row) := by
  unfold State.lockReturned
  by_cases seen : state.sees snapshot row = true
  · rw [if_pos seen]
    exact SsiMap.recordRead_extends _ _ _ _
  · rw [if_neg seen]
    exact .refl ssi

theorem scanLocks_extends
    (state : State Values)
    (snapshot : Snapshot)
    (tableRoot : UInt32)
    (access : AccessPath) :
    state.tx.ssi.Extends (state.scanLocks snapshot tableRoot access) := by
  cases access with
  | fullScan => exact SsiMap.recordRelationRead_extends _ _
  | indexScan indexRoot lower upper =>
      exact (SsiMap.recordIndexRangeRead_extends _ _ _ _).trans
        (SsiMap.foldl_extends (lockReturned_extends state snapshot) _)

theorem indexInsertRow_extends
    (ssi : SsiMap)
    (txId : Nat)
    (keys : List (UInt32 × List UInt8)) :
    ssi.Extends (State.indexInsertRow ssi txId keys) :=
  SsiMap.foldl_extends (fun _ _ => SsiMap.recordIndexWrite_extends _ _ _) keys

/-- What every step inside a transaction leaves alone. -/
structure Statement (state next : State Values) : Prop where
  nextTxId : next.tx.nextTxId = state.tx.nextTxId
  inFlight : next.tx.inFlight = state.tx.inFlight
  clog : next.tx.clog = state.tx.clog
  ssi : state.tx.ssi.Extends next.tx.ssi
  snapshots :
    ∀ txId, (next.session txId).map Session.snapshot =
      (state.session txId).map Session.snapshot
  clock : next.trail.clock = state.trail.clock
  beganAt : next.trail.beganAt = state.trail.beganAt
  endedAt : next.trail.endedAt = state.trail.endedAt
  snapshotOf : next.trail.snapshotOf = state.trail.snapshotOf

namespace Statement

/-- Storing a session that keeps its snapshot leaves every snapshot alone. -/
theorem setSession
    {state next : State Values}
    {txId : Nat}
    {session changed : Session Values}
    (statement : Statement state next)
    (running : state.session txId = some session)
    (sameSnapshot : changed.snapshot = session.snapshot) :
    Statement state (next.setSession txId changed) :=
  { statement with
    snapshots := by
      intro other
      by_cases same : other = txId
      · subst same
        rw [State.setSession_self, running]
        simp [sameSnapshot]
      · rw [State.setSession_other same]
        exact statement.snapshots other }

theorem refl (state : State Values) : Statement state state where
  nextTxId := rfl
  inFlight := rfl
  clog := rfl
  ssi := .refl _
  snapshots := fun _ => rfl
  clock := rfl
  beganAt := rfl
  endedAt := rfl
  snapshotOf := rfl

theorem scan
    (state : State Values)
    (txId : Nat)
    (snapshot : Snapshot)
    (tableRoot : UInt32)
    (access : AccessPath) :
    Statement state (state.scan txId snapshot tableRoot access) :=
  { refl state with
    ssi := scanLocks_extends state snapshot tableRoot access }

theorem writeTombstone
    (state : State Values)
    (txId : Nat)
    (row : RowKey)
    (record : RowRecord Values) :
    Statement state (state.writeTombstone txId row record) :=
  { refl state with
    ssi := SsiMap.recordWrite_extends (some txId) row.tableRoot row.rowid }

theorem writeVersion
    (state : State Values)
    (txId : Nat)
    (row : RowKey)
    (values : Values)
    (keys : List (UInt32 × List UInt8)) :
    Statement state (state.writeVersion txId row values keys) :=
  { refl state with
    ssi := indexInsertRow_extends state.tx.ssi txId keys }

theorem insert
    (state : State Values)
    (txId : Nat)
    (row : RowKey)
    (values : Values)
    (keys : List (UInt32 × List UInt8)) :
    Statement state
      { state.writeVersion txId row values keys with
        tx := { (state.writeVersion txId row values keys).tx with
          ssi := (state.writeVersion txId row values keys).tx.ssi.recordInsert
            (some txId) row.tableRoot } } :=
  { refl state with
    ssi := (indexInsertRow_extends state.tx.ssi txId keys).trans
      (SsiMap.recordInsert_extends (some txId) row.tableRoot) }

end Statement

/-- A step begins a transaction, resolves one, or is a statement inside one. -/
theorem Effect.kind
    {state next : State Values}
    {action : Action Values}
    (effect : Effect state action next) :
    next = state.begin ∨
      (∃ txId outcome,
        (∃ session, state.session txId = some session) ∧
          next = state.resolve txId outcome) ∨
      Statement state next := by
  cases effect with
  | begin => exact .inl rfl
  | read opened => exact .inr (.inr (.scan _ _ _ _ _))
  | collect opened =>
      exact .inr (.inr
        ((Statement.scan _ _ _ _ _).setSession (session_of_openSession opened) rfl))
  | letThrough opened _ _ =>
      exact .inr (.inr
        ((Statement.refl _).setSession (session_of_openSession opened) rfl))
  | conflict opened =>
      exact .inr (.inr
        ((Statement.refl _).setSession (session_of_openSession opened) rfl))
  | tombstone opened _ _ =>
      exact .inr (.inr
        ((Statement.writeTombstone _ _ _ _).setSession
          (session_of_openSession opened) rfl))
  | insert opened _ => exact .inr (.inr (.insert _ _ _ _ _))
  | insertVersion opened _ _ _ => exact .inr (.inr (.writeVersion _ _ _ _ _))
  | fail opened =>
      exact .inr (.inr
        ((Statement.refl _).setSession (session_of_openSession opened) rfl))
  | committed running _ => exact .inr (.inl ⟨_, _, ⟨_, running⟩, rfl⟩)
  | refused running => exact .inr (.inl ⟨_, _, ⟨_, running⟩, rfl⟩)
  | rolledBack running => exact .inr (.inl ⟨_, _, ⟨_, running⟩, rfl⟩)

/-- Ids, snapshots and outcomes in a reachable state. -/
structure Lifecycle (state : State Values) : Prop where
  assigned :
    ∀ txId ∈ state.tx.inFlight, 0 < txId ∧ txId < state.tx.nextTxId
  firstId : 0 < state.tx.nextTxId
  floor : state.tx.clog.minTxId = 0
  tracked : state.tx.ssi.keys = state.tx.inFlight
  open_iff :
    ∀ txId, (state.session txId).isSome = true ↔ txId ∈ state.tx.inFlight
  pinned :
    ∀ txId session,
      state.session txId = some session →
      state.trail.snapshotOf txId = some session.snapshot
  captured :
    ∀ txId,
      (state.trail.snapshotOf txId).isSome = true ↔
        0 < txId ∧ txId < state.tx.nextTxId
  own :
    ∀ txId snapshot,
      state.trail.snapshotOf txId = some snapshot →
      snapshot.ownTx = some txId ∧ snapshot.nextTx ≤ state.tx.nextTxId
  unresolved :
    ∀ txId,
      txId = 0 ∨ txId ∈ state.tx.inFlight ∨ state.tx.nextTxId ≤ txId →
      state.tx.clog.status txId = none
  resolved :
    ∀ txId,
      0 < txId →
      txId < state.tx.nextTxId →
      txId ∉ state.tx.inFlight →
      (state.tx.clog.status txId).isSome = true
  activePast :
    ∀ txId snapshot peer,
      state.trail.snapshotOf txId = some snapshot →
      peer ∈ state.tx.inFlight →
      ¬ snapshot.Past peer
  beganBefore :
    ∀ txId,
      0 < txId →
      txId < state.tx.nextTxId →
      state.trail.beganAt txId < state.trail.clock
  interval :
    ∀ txId,
      0 < txId →
      txId < state.tx.nextTxId →
      txId ∉ state.tx.inFlight →
      state.trail.beganAt txId < state.trail.endedAt txId ∧
        state.trail.endedAt txId < state.trail.clock
  past_iff :
    ∀ txId snapshot peer,
      state.trail.snapshotOf txId = some snapshot →
      0 < peer →
      peer < state.tx.nextTxId →
      peer ∉ state.tx.inFlight →
      (snapshot.Past peer ↔
        state.trail.endedAt peer < state.trail.beganAt txId)

namespace Lifecycle

variable {state : State Values}

theorem initial : Lifecycle (initial : State Values) where
  assigned := by simp [Interleaving.initial, TxState.new]
  firstId := by simp [Interleaving.initial, TxState.new]
  floor := rfl
  tracked := rfl
  open_iff := by simp [Interleaving.initial, TxState.new]
  pinned := by simp [Interleaving.initial]
  captured := by
    simp only [Interleaving.initial, TxState.new, Option.isSome_none,
      Bool.false_eq_true, false_iff, not_and]
    omega
  own := by simp [Interleaving.initial]
  unresolved := fun _ _ => Clog.status_fresh _
  resolved := by
    simp only [Interleaving.initial, TxState.new]
    omega
  activePast := by simp [Interleaving.initial]
  beganBefore := by
    simp only [Interleaving.initial, TxState.new]
    omega
  interval := by
    simp only [Interleaving.initial, TxState.new]
    omega
  past_iff := by simp [Interleaving.initial]

theorem active
    (lifecycle : Lifecycle state)
    {txId : Nat}
    {session : Session Values}
    (running : state.session txId = some session) :
    txId ∈ state.tx.inFlight :=
  (lifecycle.open_iff txId).mp (by simp [running])

theorem ownTx
    (lifecycle : Lifecycle state)
    {txId : Nat}
    {session : Session Values}
    (running : state.session txId = some session) :
    session.snapshot.ownTx = some txId :=
  (lifecycle.own txId _ (lifecycle.pinned txId _ running)).1

theorem statement
    {next : State Values}
    (lifecycle : Lifecycle state)
    (statement : Statement state next) :
    Lifecycle next where
  assigned := by
    rw [statement.inFlight, statement.nextTxId]
    exact lifecycle.assigned
  firstId := by
    rw [statement.nextTxId]
    exact lifecycle.firstId
  floor := by
    rw [statement.clog]
    exact lifecycle.floor
  tracked := by
    rw [statement.ssi.keys, statement.inFlight]
    exact lifecycle.tracked
  open_iff := by
    intro txId
    have same := congrArg Option.isSome (statement.snapshots txId)
    simp only [Option.isSome_map] at same
    rw [same, statement.inFlight]
    exact lifecycle.open_iff txId
  pinned := by
    intro txId session running
    have same := statement.snapshots txId
    rw [running] at same
    obtain ⟨earlier, wasRunning, sameSnapshot⟩ :=
      Option.map_eq_some_iff.mp same.symm
    rw [statement.snapshotOf, ← sameSnapshot]
    exact lifecycle.pinned txId earlier wasRunning
  captured := by
    rw [statement.snapshotOf, statement.nextTxId]
    exact lifecycle.captured
  own := by
    rw [statement.snapshotOf, statement.nextTxId]
    exact lifecycle.own
  unresolved := by
    rw [statement.clog, statement.inFlight, statement.nextTxId]
    exact lifecycle.unresolved
  resolved := by
    rw [statement.clog, statement.inFlight, statement.nextTxId]
    exact lifecycle.resolved
  activePast := by
    rw [statement.snapshotOf, statement.inFlight]
    exact lifecycle.activePast
  beganBefore := by
    rw [statement.nextTxId, statement.beganAt, statement.clock]
    exact lifecycle.beganBefore
  interval := by
    rw [statement.nextTxId, statement.inFlight, statement.beganAt,
      statement.endedAt, statement.clock]
    exact lifecycle.interval
  past_iff := by
    rw [statement.snapshotOf, statement.nextTxId, statement.inFlight,
      statement.endedAt, statement.beganAt]
    exact lifecycle.past_iff

theorem begin (lifecycle : Lifecycle state) : Lifecycle state.begin where
  assigned := by
    intro txId active
    rw [State.begin_inFlight, Finset.mem_insert] at active
    rcases active with rfl | active
    · exact ⟨lifecycle.firstId, Nat.lt_succ_self _⟩
    · exact ⟨(lifecycle.assigned txId active).1,
        Nat.lt_succ_of_lt (lifecycle.assigned txId active).2⟩
  firstId := Nat.succ_pos _
  floor := lifecycle.floor
  tracked := by
    simp [SsiMap.insert, lifecycle.tracked]
  open_iff := by
    intro txId
    by_cases fresh : txId = state.tx.nextTxId
    · simp [State.begin_session, fresh]
    · simpa [State.begin_session, fresh] using lifecycle.open_iff txId
  pinned := by
    intro txId session running
    by_cases fresh : txId = state.tx.nextTxId
    · subst fresh
      simp only [State.begin_session, Function.update_self, Option.some.injEq]
        at running
      simp [← running]
    · rw [State.begin_session, Function.update_of_ne fresh] at running
      simpa [fresh] using lifecycle.pinned txId session running
  captured := by
    intro txId
    by_cases fresh : txId = state.tx.nextTxId
    · simp [fresh, lifecycle.firstId]
    · have captured := lifecycle.captured txId
      simp only [State.begin_snapshotOf, Function.update_of_ne fresh,
        State.begin_nextTxId, captured]
      omega
  own := by
    intro txId snapshot taken
    by_cases fresh : txId = state.tx.nextTxId
    · subst fresh
      simp only [State.begin_snapshotOf, Function.update_self,
        Option.some.injEq] at taken
      subst taken
      exact ⟨rfl, Nat.le_refl _⟩
    · rw [State.begin_snapshotOf, Function.update_of_ne fresh] at taken
      have earlier := lifecycle.own txId snapshot taken
      exact ⟨earlier.1, Nat.le_succ_of_le earlier.2⟩
  unresolved := by
    intro txId open_
    apply lifecycle.unresolved
    simp only [State.begin_inFlight, Finset.mem_insert, State.begin_nextTxId]
      at open_
    rcases open_ with zero | (fresh | active) | unassigned
    · exact .inl zero
    · exact .inr (.inr (Nat.le_of_eq fresh.symm))
    · exact .inr (.inl active)
    · exact .inr (.inr (Nat.le_of_succ_le unassigned))
  resolved := by
    intro txId positive assigned ended
    simp only [State.begin_inFlight, Finset.mem_insert, not_or] at ended
    apply lifecycle.resolved txId positive _ ended.2
    simp only [State.begin_nextTxId] at assigned
    omega
  activePast := by
    intro txId snapshot peer taken active past
    simp only [State.begin_inFlight, Finset.mem_insert] at active
    by_cases fresh : txId = state.tx.nextTxId
    · subst fresh
      simp only [State.begin_snapshotOf, Function.update_self,
        Option.some.injEq] at taken
      subst taken
      exact past.2 (Finset.mem_insert.mpr active)
    · rw [State.begin_snapshotOf, Function.update_of_ne fresh] at taken
      rcases active with rfl | active
      · exact Nat.lt_irrefl _
          (Nat.lt_of_lt_of_le past.1 (lifecycle.own txId snapshot taken).2)
      · exact lifecycle.activePast txId snapshot peer taken active past
  beganBefore := by
    intro txId positive assigned
    by_cases fresh : txId = state.tx.nextTxId
    · simp [fresh]
    · have earlier : txId < state.tx.nextTxId := by
        simp only [State.begin_nextTxId] at assigned
        omega
      have began := lifecycle.beganBefore txId positive earlier
      simp only [State.begin_beganAt, Function.update_of_ne fresh,
        State.begin_clock]
      omega
  interval := by
    intro txId positive assigned ended
    simp only [State.begin_inFlight, Finset.mem_insert, not_or] at ended
    have earlier : txId < state.tx.nextTxId := by
      simp only [State.begin_nextTxId] at assigned
      omega
    have interval := lifecycle.interval txId positive earlier ended.2
    simp only [State.begin_beganAt, Function.update_of_ne ended.1,
      State.begin_endedAt, State.begin_clock]
    omega
  past_iff := by
    intro txId snapshot peer taken positive assigned ended
    simp only [State.begin_inFlight, Finset.mem_insert, not_or] at ended
    have earlier : peer < state.tx.nextTxId := by
      simp only [State.begin_nextTxId] at assigned
      omega
    by_cases fresh : txId = state.tx.nextTxId
    -- Whatever has ended by now is past for the snapshot taken now.
    · subst fresh
      simp only [State.begin_snapshotOf, Function.update_self,
        Option.some.injEq] at taken
      subst taken
      have span := lifecycle.interval peer positive earlier ended.2
      simp only [State.begin_beganAt, Function.update_self,
        State.begin_endedAt, span.2, iff_true]
      exact ⟨assigned, by simp [State.nextSnapshot, ended]⟩
    · rw [State.begin_snapshotOf, Function.update_of_ne fresh] at taken
      simpa [fresh] using
        lifecycle.past_iff txId snapshot peer taken positive earlier ended.2

theorem resolve
    (lifecycle : Lifecycle state)
    {txId : Nat}
    {session : Session Values}
    (running : state.session txId = some session)
    (outcome : Status) :
    Lifecycle (state.resolve txId outcome) where
  assigned := by
    intro other active
    exact lifecycle.assigned other (Finset.mem_of_mem_erase active)
  firstId := lifecycle.firstId
  floor := lifecycle.floor
  tracked := by
    simp [SsiMap.remove, lifecycle.tracked]
  open_iff := by
    intro other
    by_cases same : other = txId
    · simp [same]
    · simpa [same] using lifecycle.open_iff other
  pinned := by
    intro other found stillRunning
    by_cases same : other = txId
    · simp [same] at stillRunning
    · rw [State.resolve_session, Function.update_of_ne same] at stillRunning
      exact lifecycle.pinned other found stillRunning
  captured := lifecycle.captured
  own := lifecycle.own
  unresolved := by
    intro other open_
    have assigned := lifecycle.assigned txId (lifecycle.active running)
    have different : other ≠ txId := by
      rintro rfl
      simp only [State.resolve_inFlight, Finset.mem_erase, ne_eq,
        not_true_eq_false, false_and, false_or, State.resolve_nextTxId] at open_
      omega
    rw [State.resolve_clog, Clog.status_append_other different]
    apply lifecycle.unresolved
    rcases open_ with zero | active | unassigned
    · exact .inl zero
    · exact .inr (.inl (Finset.mem_of_mem_erase active))
    · exact .inr (.inr unassigned)
  resolved := by
    intro other positive assigned ended
    by_cases same : other = txId
    · subst same
      simp [Clog.status_append_self, lifecycle.floor]
    · rw [State.resolve_clog, Clog.status_append_other same]
      apply lifecycle.resolved other positive assigned
      intro active
      exact ended (Finset.mem_erase.mpr ⟨same, active⟩)
  activePast := by
    intro other snapshot peer taken active
    exact lifecycle.activePast other snapshot peer taken
      (Finset.mem_of_mem_erase active)
  beganBefore := by
    intro other positive assigned
    exact Nat.lt_succ_of_lt (lifecycle.beganBefore other positive assigned)
  interval := by
    intro other positive assigned ended
    by_cases same : other = txId
    · subst same
      simpa using lifecycle.beganBefore other positive assigned
    · have stillEnded : other ∉ state.tx.inFlight := by
        intro active
        exact ended (Finset.mem_erase.mpr ⟨same, active⟩)
      have interval := lifecycle.interval other positive assigned stillEnded
      simp only [State.resolve_beganAt, State.resolve_endedAt,
        Function.update_of_ne same, State.resolve_clock]
      omega
  past_iff := by
    intro other snapshot peer taken positive assigned ended
    by_cases same : peer = txId
    -- The id resolved now was in flight at every capture so far.
    · subst same
      have notPast := lifecycle.activePast other snapshot peer taken
        (lifecycle.active running)
      have captured : 0 < other ∧ other < state.tx.nextTxId :=
        (lifecycle.captured other).mp (by
          rw [State.resolve_snapshotOf] at taken
          simp [taken])
      have began := lifecycle.beganBefore other captured.1 captured.2
      simp only [notPast, State.resolve_endedAt, Function.update_self,
        State.resolve_beganAt, false_iff]
      omega
    · have stillEnded : peer ∉ state.tx.inFlight := by
        intro active
        exact ended (Finset.mem_erase.mpr ⟨same, active⟩)
      simpa [same] using
        lifecycle.past_iff other snapshot peer taken positive assigned stillEnded

theorem step
    {next : State Values}
    {action : Action Values}
    (lifecycle : Lifecycle state)
    (stepped : Interleaving.step state action = some next) :
    Lifecycle next := by
  rcases (step_effect stepped).kind with
    rfl | ⟨txId, outcome, ⟨session, running⟩, rfl⟩ | statement
  · exact lifecycle.begin
  · exact lifecycle.resolve running outcome
  · exact lifecycle.statement statement

/-- An id with a recorded outcome was assigned and is no longer in flight. -/
theorem ended_of_status
    (lifecycle : Lifecycle state)
    {txId : Nat}
    (resolved : state.tx.clog.status txId ≠ none) :
    0 < txId ∧ txId < state.tx.nextTxId ∧ txId ∉ state.tx.inFlight := by
  refine ⟨?_, ?_, ?_⟩
  · apply Nat.pos_of_ne_zero
    intro zero
    exact resolved (lifecycle.unresolved txId (.inl zero))
  · apply Nat.lt_of_not_le
    intro unassigned
    exact resolved (lifecycle.unresolved txId (.inr (.inr unassigned)))
  · intro active
    exact resolved (lifecycle.unresolved txId (.inr (.inl active)))

end Lifecycle

end PrehniteDB.Interleaving
