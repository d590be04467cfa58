import PrehniteDB.FailedStatements
import PrehniteDB.ReadPaths

namespace PrehniteDB.Constraints

open ConnectionCalls (Session Answers)
open FailedStatements (snapshotForStatement)
open ReadPaths (Reader)

/-!
# What the only connection sees

With one connection a version's header says all there is to know: an id counts
when it is the connection's own or has committed.  The lemmas follow this through
every way a session can move.
-/

/-- A version is seen when its creator counts and its deleter does not. -/
def Alive {Values : Type} (counts : Nat → Prop) (record : RowRecord Values) : Prop :=
  counts record.txMin ∧ (record.txMax = 0 ∨ ¬ counts record.txMax)

/-- Whether the work of a transaction counts for one that runs as `own`. -/
def Counts (clog : Clog) (own : Option Nat) (id : Nat) : Prop :=
  some id = own ∨ id = 0 ∨ clog.status id = some .committed

/-- The snapshot of a statement that writes. -/
def writingReader (session : Session) : Reader where
  snapshot := snapshotForStatement session.ensureWriteTx
  clog := session.tx.clog

/-- A snapshot nobody writes under: what has been committed. -/
def committedReader (session : Session) : Reader where
  snapshot := session.tx.snapshot none
  clog := session.tx.clog

/-- The id the next write goes under. -/
def writingTx (session : Session) : Nat :=
  session.db.currentTx.getD session.tx.nextTxId

/-- No id but those already handed out has an outcome, and outcomes are settled. -/
structure Calm (session : Session) : Prop where
  positive : 0 < session.tx.nextTxId
  floor : session.tx.clog.minTxId = 0
  future :
    ∀ id, session.tx.nextTxId ≤ id →
      session.tx.clog.status id ≠ some .committed
  own :
    ∀ id, session.db.currentTx = some id →
      0 < id ∧ id < session.tx.nextTxId ∧
        session.tx.clog.status id ≠ some .committed
  settled :
    ∀ id, session.tx.clog.status id = some .committed →
      id ∉ session.tx.inFlight
  captured :
    ∀ base, session.db.transactionSnapshot = some base →
      ∀ id, session.tx.clog.status id = some .committed → base.Past id
  idle : session.db.txn = .none → session.db.transactionSnapshot = none

theorem Alive.congr
    {Values : Type}
    {counts other : Nat → Prop}
    {record : RowRecord Values}
    (created : counts record.txMin ↔ other record.txMin)
    (deleted : counts record.txMax ↔ other record.txMax) :
    Alive counts record ↔ Alive other record := by
  unfold Alive
  rw [created, deleted]

/-- A snapshot that takes every committed id for finished goes by `Counts`. -/
theorem sees_iff
    {Values : Type}
    {snapshot : Snapshot}
    {clog : Clog}
    {record : RowRecord (ReadPaths.Row Values)}
    (past : ∀ id, clog.status id = some .committed → snapshot.Past id) :
    (Reader.mk snapshot clog).sees record = true ↔
      Alive (Counts clog snapshot.ownTx) record := by
  have sees (id : Nat) :
      snapshot.Sees clog id ↔ clog.status id = some .committed :=
    ⟨And.left, fun committed => ⟨committed, past id committed⟩⟩
  unfold Reader.sees Alive Counts
  rw [Snapshot.visible_iff, Snapshot.created_iff, sees, sees]
  refine and_congr_right fun _ => ?_
  by_cases live : record.txMax = 0
  · simp [live]
  · simp only [live, false_or, not_or, ne_eq]

theorem counts_next
    {clog : Clog}
    {nextTxId id : Nat}
    (assigned : id < nextTxId) :
    Counts clog (some nextTxId) id ↔ Counts clog none id := by
  have different : some id ≠ some nextTxId :=
    fun same => Nat.ne_of_lt assigned (Option.some.inj same)
  simp [Counts, different]

namespace Calm

variable {session : Session}

theorem fresh (nextTxId : Nat) :
    Calm { db := .fresh, tx := .new nextTxId .fresh } where
  positive := Nat.lt_of_lt_of_le Nat.zero_lt_one (Nat.le_max_right _ _)
  floor := rfl
  future := by
    intro id _
    change Clog.fresh.status id ≠ some .committed
    rw [Clog.status_fresh]
    exact nofun
  own := nofun
  settled := by
    intro id committed
    change Clog.fresh.status id = some .committed at committed
    rw [Clog.status_fresh] at committed
    cases committed
  captured := nofun
  idle _ := rfl

theorem past
    (calm : Calm session)
    {id : Nat}
    (committed : session.tx.clog.status id = some .committed) :
    (snapshotForStatement session).Past id := by
  unfold snapshotForStatement
  cases base : session.db.transactionSnapshot with
  | some captured => exact calm.captured captured base id committed
  | none =>
      refine ⟨?_, calm.settled id committed⟩
      by_contra later
      exact calm.future id (Nat.le_of_not_lt later) committed

theorem ensureWriteTx (calm : Calm session) : Calm session.ensureWriteTx := by
  unfold Session.ensureWriteTx
  cases current : session.db.currentTx with
  | some id => exact calm
  | none =>
      exact {
        positive := Nat.succ_pos _
        floor := calm.floor
        future := fun id later => calm.future id (Nat.le_of_succ_le later)
        own := by
          intro id here
          obtain rfl : session.tx.nextTxId = id := Option.some.inj here
          exact ⟨calm.positive, Nat.lt_succ_self _, calm.future _ (Nat.le_refl _)⟩
        settled := by
          intro id committed listed
          rcases Finset.mem_insert.mp listed with rfl | before
          · exact calm.future _ (Nat.le_refl _) committed
          · exact calm.settled id committed before
        captured := calm.captured
        idle := calm.idle }

theorem ownTx_ensureWriteTx (session : Session) :
    session.ensureWriteTx.db.currentTx = some (writingTx session) := by
  unfold Session.ensureWriteTx writingTx
  cases current : session.db.currentTx with
  | some id => exact current
  | none => rfl

theorem clog_ensureWriteTx (session : Session) :
    session.ensureWriteTx.tx.clog = session.tx.clog := by
  unfold Session.ensureWriteTx
  cases session.db.currentTx with
  | some id => rfl
  | none => rfl

theorem ownTx_snapshot (session : Session) :
    (snapshotForStatement session).ownTx = session.db.currentTx := by
  unfold snapshotForStatement
  cases session.db.transactionSnapshot with
  | some base => rfl
  | none => rfl

theorem writing_ownTx (session : Session) :
    (writingReader session).snapshot.ownTx = some (writingTx session) :=
  (ownTx_snapshot _).trans (ownTx_ensureWriteTx session)

theorem writing_sees
    {Values : Type}
    {record : RowRecord (ReadPaths.Row Values)}
    (calm : Calm session) :
    (writingReader session).sees record = true ↔
      Alive (Counts session.tx.clog (some (writingTx session))) record := by
  have seen :=
    @sees_iff Values (snapshotForStatement session.ensureWriteTx) session.tx.clog record
      fun id committed =>
        calm.ensureWriteTx.past (by rw [clog_ensureWriteTx]; exact committed)
  rw [ownTx_snapshot, ownTx_ensureWriteTx] at seen
  exact seen

theorem committed_sees
    {Values : Type}
    {record : RowRecord (ReadPaths.Row Values)}
    (calm : Calm session) :
    (committedReader session).sees record = true ↔
      Alive (Counts session.tx.clog none) record := by
  refine sees_iff fun id committed => ⟨?_, calm.settled id committed⟩
  by_contra later
  exact calm.future id (Nat.le_of_not_lt later) committed

/-- The id of the next write is new or the connection's own, and has not committed. -/
theorem writingTx_uncommitted
    (calm : Calm session) :
    0 < writingTx session ∧
      session.tx.clog.status (writingTx session) ≠ some .committed := by
  unfold writingTx
  cases current : session.db.currentTx with
  | some id => exact ⟨(calm.own id current).1, (calm.own id current).2.2⟩
  | none => exact ⟨calm.positive, calm.future _ (Nat.le_refl _)⟩

theorem record (calm : Calm session) (recorded : Nat → SsiTxState) :
    Calm (session.record recorded) :=
  { calm with }

/-- The connection leaves its explicit transaction. -/
theorem closed (calm : Calm session) : Calm session.closed :=
  { calm with
    captured := nofun
    idle := fun _ => rfl }

/-- `BEGIN` takes the id the next write would have taken. -/
theorem beginTransaction
    (calm : Calm session)
    (outside : session.db.txn = .none) :
    Calm session.beginTransaction.2 := by
  unfold Session.beginTransaction
  rw [if_neg (not_not.mpr outside)]
  exact {
    positive := Nat.succ_pos _
    floor := calm.floor
    future := fun id later => calm.future id (Nat.le_of_succ_le later)
    own := by
      intro id here
      obtain rfl : session.tx.nextTxId = id := Option.some.inj here
      exact ⟨calm.positive, Nat.lt_succ_self _, calm.future _ (Nat.le_refl _)⟩
    settled := by
      intro id committed listed
      rcases Finset.mem_insert.mp listed with rfl | before
      · exact calm.future _ (Nat.le_refl _) committed
      · exact calm.settled id committed before
    captured := by
      rintro base here id committed
      obtain rfl := Option.some.inj here
      have below : id < session.tx.nextTxId := by
        by_contra later
        exact calm.future id (Nat.le_of_not_lt later) committed
      refine ⟨Nat.lt_succ_of_lt below, fun listed => ?_⟩
      rcases Finset.mem_insert.mp listed with same | before
      · exact Nat.ne_of_lt below same
      · exact calm.settled id committed before
    idle := nofun }

end Calm

/-- The connection's id has an outcome; every earlier id counts for all just as `counted` says. -/
structure Ended (before after : Session) (counted : Nat → Prop) : Prop where
  calm : Calm after
  nextTxId : after.tx.nextTxId = before.tx.nextTxId
  txn : after.db.txn = before.db.txn
  idle : after.db.currentTx = none
  committed :
    ∀ id < before.tx.nextTxId, Counts after.tx.clog none id ↔ counted id

namespace Ended

variable {session after : Session} {counted : Nat → Prop}

/-- Once an id has ended a writer sees what is committed. -/
theorem writing
    (ended : Ended session after counted)
    {id : Nat}
    (assigned : id < session.tx.nextTxId) :
    Counts after.tx.clog (some (writingTx after)) id ↔ counted id := by
  rw [← ended.committed id assigned]
  have next : writingTx after = after.tx.nextTxId := by
    simp [writingTx, ended.idle]
  rw [next]
  exact counts_next (ended.nextTxId ▸ assigned)

theorem rollbackTx (calm : Calm session) :
    Ended session (session.rollbackTx (.ok ())).2
      (Counts session.tx.clog none) := by
  unfold Session.rollbackTx
  cases current : session.db.currentTx with
  | none => exact ⟨calm, rfl, rfl, current, fun _ _ => Iff.rfl⟩
  | some id =>
      obtain ⟨positive, assigned, uncommitted⟩ := calm.own id current
      have status (other : Nat) :
          (session.tx.clog.append id .rolledBack).status other = some .committed ↔
            session.tx.clog.status other = some .committed := by
        by_cases same : other = id
        · subst same
          rw [Clog.status_append_self (calm.floor ▸ Nat.zero_le _)]
          exact ⟨nofun, fun committed => absurd committed uncommitted⟩
        · rw [Clog.status_append_other same]
      refine ⟨?_, rfl, rfl, rfl, fun other _ => ?_⟩
      · exact {
          positive := calm.positive
          floor := calm.floor
          future := fun other later => mt (status other).mp (calm.future other later)
          own := nofun
          settled := fun other committed listed =>
            calm.settled other ((status other).mp committed)
              (Finset.mem_of_mem_erase listed)
          captured := fun base here other committed =>
            calm.captured base here other ((status other).mp committed)
          idle := calm.idle }
      · exact or_congr_right (or_congr_right (status other))

/-- Outside an explicit transaction a commit makes the connection's work count, or rolls it back. -/
theorem commitTx
    (calm : Calm session)
    (alone : session.db.transactionSnapshot = none) :
    Ended session (session.commitTx (.ok ())).2 (Counts session.tx.clog none) ∨
      Ended session (session.commitTx (.ok ())).2
        (Counts session.tx.clog session.db.currentTx) := by
  unfold Session.commitTx
  cases current : session.db.currentTx with
  | none => exact .inl ⟨calm, rfl, rfl, current, fun _ _ => Iff.rfl⟩
  | some id =>
      cases check : session.tx.ssiCheckCommit id with
      | error reason =>
          simp only [check]
          exact .inl (rollbackTx calm)
      | ok _ =>
          simp only [check]
          obtain ⟨positive, assigned, uncommitted⟩ := calm.own id current
          have status (other : Nat) :
              (session.tx.clog.append id .committed).status other = some .committed ↔
                other = id ∨ session.tx.clog.status other = some .committed := by
            by_cases same : other = id
            · subst same
              rw [Clog.status_append_self (calm.floor ▸ Nat.zero_le _)]
              simp
            · rw [Clog.status_append_other same]
              simp [same]
          refine .inr ⟨?_, rfl, rfl, rfl, fun other _ => ?_⟩
          · exact {
              positive := calm.positive
              floor := calm.floor
              future := by
                intro other later committed
                rcases (status other).mp committed with rfl | before
                · exact Nat.not_lt.mpr later assigned
                · exact calm.future other later before
              own := nofun
              settled := by
                intro other committed listed
                obtain ⟨different, inFlight⟩ := Finset.mem_erase.mp listed
                rcases (status other).mp committed with same | before
                · exact different same
                · exact calm.settled other before inFlight
              captured := by
                intro base here
                rw [alone] at here
                cases here
              idle := calm.idle }
          · have outcome :
                Counts (session.tx.clog.append id .committed) none other ↔
                  Counts session.tx.clog (some id) other := by
              unfold Counts
              rw [status other]
              simp only [Option.some.injEq, reduceCtorEq, false_or]
              constructor
              · rintro (zero | same | committed)
                · exact .inr (.inl zero)
                · exact .inl same
                · exact .inr (.inr committed)
              · rintro (same | zero | committed)
                · exact .inr (.inl same)
                · exact .inl zero
                · exact .inr (.inr committed)
            exact outcome

end Ended

end PrehniteDB.Constraints
