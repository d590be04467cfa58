import PrehniteDB.ConflictGraph
import PrehniteDB.ConflictRecording

namespace PrehniteDB.Interleaving

/-!
# Serializable isolation

The multi-version dependency graph of the committed transactions.  A version
is read, replaced by a tombstone, or ranged over by a predicate; predicate
edges are what catches phantoms.
-/

variable {Values : Type}

namespace State

/-- `txId` created this version. -/
def Created (state : State Values) (txId : Nat) (row : RowKey) : Prop :=
  ∃ record, state.rows row = some record ∧ record.txMin = txId

/-- `txId` tombstoned this version. -/
def Deleted (state : State Values) (txId : Nat) (row : RowKey) : Prop :=
  ∃ overwrite ∈ state.trail.overwrites,
    overwrite.row = row ∧ overwrite.writer = txId

/-- One dependency of the multi-version serialization graph. -/
inductive Dependency (state : State Values) (source target : Nat) : Prop where
  /-- The target read a version the source created. -/
  | wr
      {row : RowKey}
      (created : state.Created source row)
      (read : state.trail.reads target row = true)
  /-- The target's predicate ranged over a write of the source it could see. -/
  | wrPredicate
      {row : RowKey}
      (written : state.Created source row ∨ state.Deleted source row)
      (scanned : state.Scanned target row)
      (seen : state.PastFor target source)
  /-- The target replaced a version the source created. -/
  | ww
      {row : RowKey}
      (created : state.Created source row)
      (deleted : state.Deleted target row)
  /-- The target replaced the source's tombstone. -/
  | wwTombstone
      {overwrite : Overwrite}
      (member : overwrite ∈ state.trail.overwrites)
      (previous : overwrite.previous = source)
      (writer : overwrite.writer = target)
  /-- The source read a version the target replaced. -/
  | rw
      {row : RowKey}
      (read : state.trail.reads source row = true)
      (deleted : state.Deleted target row)
  /-- The source's predicate ranged over a version the target created unseen. -/
  | rwPredicate
      {row : RowKey}
      (scanned : state.Scanned source row)
      (created : state.Created target row)
      (unseen : ¬ state.PastFor source target)

/-- An edge between two different committed transactions. -/
def Edge (state : State Values) (source target : Nat) : Prop :=
  source ≠ target ∧
    state.tx.clog.status source = some .committed ∧
    state.tx.clog.status target = some .committed ∧
    state.Dependency source target

/-- The dependency graph over the committed transactions has no cycle. -/
def Serializable (state : State Values) : Prop :=
  ∀ txId, ¬ Relation.TransGen state.Edge txId txId

/-- The interval of every transaction on the clock of the run. -/
def lifetimes (state : State Values) : ConflictGraph.Lifetimes Nat where
  began := state.trail.beganAt
  ended := state.trail.endedAt

end State

namespace Audited

variable {state : State Values}

theorem ended_of_committed
    (audited : Audited state)
    {txId : Nat}
    (committed : state.tx.clog.status txId = some .committed) :
    0 < txId ∧ txId < state.tx.nextTxId ∧ txId ∉ state.tx.inFlight :=
  audited.lifecycle.ended_of_status (by simp [committed])

/-- For a committed transaction, past means ended before the snapshot was taken. -/
theorem pastFor_iff_ordered
    (audited : Audited state)
    {source target : Nat}
    (sourceCommitted : state.tx.clog.status source = some .committed)
    (targetCommitted : state.tx.clog.status target = some .committed) :
    state.PastFor target source ↔ state.lifetimes.Ordered source target := by
  have sourceEnded := audited.ended_of_committed sourceCommitted
  have targetEnded := audited.ended_of_committed targetCommitted
  obtain ⟨snapshot, taken⟩ := Option.isSome_iff_exists.mp
    ((audited.lifecycle.captured target).mpr ⟨targetEnded.1, targetEnded.2.1⟩)
  have order := audited.lifecycle.past_iff target snapshot source taken
    sourceEnded.1 sourceEnded.2.1 sourceEnded.2.2
  constructor
  · rintro ⟨other, otherTaken, past⟩
    obtain rfl := Option.some.inj (taken.symm.trans otherTaken)
    exact order.mp past
  · intro ordered
    exact ⟨snapshot, taken, order.mpr ordered⟩

theorem edge_classified
    (audited : Audited state)
    {source target : Nat}
    (edge : state.Edge source target) :
    state.PastFor target source ∨
      (state.Flagged source target ∧ ¬ state.PastFor source target) := by
  obtain ⟨different, sourceCommitted, targetCommitted, dependency⟩ := edge
  have sourceLive : state.Live source := by simp [State.Live, sourceCommitted]
  have targetLive : state.Live target := by simp [State.Live, targetCommitted]
  cases dependency with
  | wr created read =>
      left
      obtain ⟨record, stored, creator⟩ := created
      obtain ⟨found, foundStored, origin⟩ :=
        audited.provenance.readCreated target _ read
      obtain rfl := Option.some.inj (stored.symm.trans foundStored)
      rw [creator] at origin
      exact origin.resolve_left different
  | wrPredicate _ _ seen => exact .inl seen
  | ww created deleted =>
      left
      obtain ⟨record, stored, creator⟩ := created
      obtain ⟨overwrite, member, rfl, rfl⟩ := deleted
      obtain ⟨found, foundStored, origin⟩ := audited.provenance.readCreated _ _
        (audited.provenance.readBeforeWrite overwrite member)
      obtain rfl := Option.some.inj (stored.symm.trans foundStored)
      rw [creator] at origin
      exact origin.resolve_left different
  | wwTombstone member previous writer =>
      have positive := (audited.ended_of_committed sourceCommitted).1
      rcases audited.stamped.harmless _ member with zero | own | dead
      · omega
      · exact (different (previous.symm.trans (own.trans writer))).elim
      · rw [previous] at dead
        exact (sourceLive dead).elim
  | rw read deleted =>
      obtain ⟨overwrite, member, rfl, rfl⟩ := deleted
      have unseen := audited.recorded.unseenDelete source overwrite member read
        different targetLive
      rcases audited.recorded.deleted source overwrite member (.inl read)
          different sourceLive targetLive with past | ordered | flagged
      · exact (unseen past).elim
      · exact .inl ordered
      · exact .inr ⟨flagged, unseen⟩
  | rwPredicate scanned created unseen =>
      obtain ⟨record, stored, rfl⟩ := created
      rcases audited.recorded.inserted source _ record scanned stored
          different sourceLive targetLive with past | ordered | flagged
      · exact (unseen past).elim
      · exact .inl ordered
      · exact .inr ⟨flagged, unseen⟩

/-- The flags of committed transactions, as anti-dependencies. -/
def anti (state : State Values) (source target : Nat) : Prop :=
  state.Flagged source target ∧
    state.tx.clog.status source = some .committed ∧
    state.tx.clog.status target = some .committed

theorem classified (audited : Audited state) :
    ConflictGraph.Classified state.lifetimes state.Edge (anti state) where
  nonempty := by
    rintro source target ⟨_, sourceCommitted, targetCommitted, _⟩
    have sourceEnded := audited.ended_of_committed sourceCommitted
    have targetEnded := audited.ended_of_committed targetCommitted
    exact
      ⟨(audited.lifecycle.interval source sourceEnded.1 sourceEnded.2.1
          sourceEnded.2.2).1,
        (audited.lifecycle.interval target targetEnded.1 targetEnded.2.1
          targetEnded.2.2).1⟩
  covered := by
    intro source target edge
    obtain ⟨_, sourceCommitted, targetCommitted, _⟩ := id edge
    rcases audited.edge_classified edge with past | ⟨flagged, unseen⟩
    · exact .inl
        ((audited.pastFor_iff_ordered sourceCommitted targetCommitted).mp past)
    · refine .inr ⟨⟨flagged, sourceCommitted, targetCommitted⟩, ?_⟩
      rw [audited.pastFor_iff_ordered targetCommitted sourceCommitted] at unseen
      exact Nat.le_of_not_lt unseen

/-- The commit-time check leaves no committed pivot. -/
theorem pivotless (audited : Audited state) :
    ConflictGraph.Pivotless (anti state) := by
  rintro incoming pivot outgoing ⟨arrived, _, committed⟩ ⟨departed, _, _⟩
  have outFlag :=
    audited.recorded.notPivot pivot committed arrived.2
  rw [departed.1] at outFlag
  cases outFlag

end Audited

/-- The committed transactions of a tracked run are serializable. -/
theorem serializable_of_tracked
    {actions : List (Action Values)}
    {final : State Values}
    (run : TransitionRun.Run step Tracked initial actions final) :
    final.Serializable :=
  ConflictGraph.acyclic (Audited.reachable run).classified
    (Audited.reachable run).pivotless

/-- One committed row, and two transactions that have just begun. -/
def openedOverRow : State Nat :=
  (((initial : State Nat).begin.writeVersion 1 contendedRow 0 []).resolve 1
    .committed).begin.begin

theorem rows_openedOverRow
    {row : RowKey}
    {record : RowRecord Nat}
    (stored : openedOverRow.rows row = some record) :
    row = contendedRow ∧ record = { txMin := 1, txMax := 0, values := 0 } := by
  by_cases same : row = contendedRow
  · subst same
    exact ⟨rfl, (Option.some.inj stored).symm⟩
  · have absent : openedOverRow.rows row = none :=
      Function.update_of_ne same _ _
    rw [absent] at stored
    cases stored

theorem committed_openedOverRow
    {txId : Nat}
    (committed : openedOverRow.tx.clog.status txId = some .committed) :
    txId = 1 := by
  by_contra different
  have unresolved : openedOverRow.tx.clog.status txId = none :=
    (Clog.status_append_other different).trans (Clog.status_fresh txId)
  rw [unresolved] at committed
  cases committed

/-- One transaction reads the row, another tombstones it, and both commit. -/
def readBesideDelete : List (Action Nat) :=
  [.begin, .insert 1 contendedRow 0 [], .commit 1, .begin, .begin,
    .read 2 7 .fullScan, .collect 3 7 .fullScan, .check 3 contendedRow,
    .tombstone 3 contendedRow, .commit 3, .commit 2]

/-- The anti-dependency of the reader on the writer closes no cycle. -/
theorem serializable_read_beside_delete :
    ∃ final : State Nat,
      TransitionRun.Run step Tracked initial readBesideDelete final ∧
        final.Edge 2 3 ∧
        final.Serializable := by
  have scanned
      (state : State Nat)
      (txId : Nat)
      (rows : state.rows = openedOverRow.rows)
      (sees :
        ∀ session ∈ state.openSession txId,
          session.snapshot.Sees state.tx.clog 1) :
      state.ScanTracked txId 7 .fullScan := by
    intro session opened row record stored _
    rw [rows] at stored
    obtain ⟨rfl, rfl⟩ := rows_openedOverRow stored
    exact ⟨.inr (.inr (sees session opened)), .inl rfl⟩
  have run :
      ∃ final : State Nat,
        TransitionRun.Run step Tracked initial readBesideDelete final ∧
          final.trail.reads 2 contendedRow = true ∧
          final.trail.overwrites = [{ row := contendedRow, previous := 0, writer := 3 }] ∧
          final.tx.clog.status 2 = some .committed ∧
          final.tx.clog.status 3 = some .committed := by
    refine ⟨_, .cons trivial rfl (.cons (fun _ _ _ member => nomatch member) rfl
      (.cons trivial rfl (.cons trivial rfl (.cons trivial rfl
      (.cons (scanned _ 2 rfl ?_) rfl (.cons (scanned _ 3 rfl ?_) rfl
      (.cons ?_ rfl (.cons ⟨by decide, ?_⟩ rfl
      (.cons trivial rfl (.cons trivial rfl (.nil _))))))))))),
      by decide, by decide, by decide, by decide⟩
    · rintro session ⟨⟩
      decide
    · rintro session ⟨⟩
      decide
    · rw [Tracked]
      decide
    -- The one committed transaction has read nothing.
    · intro reader touched committed
      obtain rfl := committed_openedOverRow committed
      rcases touched with read | full
      · cases read
      · exact absurd full (by decide)
  obtain ⟨final, run, read, overwrites, readerDone, writerDone⟩ := run
  exact ⟨final, run,
    ⟨by decide, readerDone, writerDone,
      .rw read ⟨_, overwrites ▸ List.mem_cons_self, rfl, rfl⟩⟩,
    serializable_of_tracked run⟩

/-- The second row of the write-skew pair. -/
def otherRow : RowKey where
  tableRoot := 7
  rowid := 2

/-- Check and tombstone one collected row, then commit. -/
def deleteAndCommit (txId : Nat) (row : RowKey) : List (Action Nat) :=
  [.check txId row, .tombstone txId row, .commit txId]

/--
Two transactions scan the same two rows; one deletes the first row and
commits, then the other deletes the second row and commits.
-/
def writeSkew : List (Action Nat) :=
  [.begin, .insert 1 contendedRow 0 [], .insert 1 otherRow 0 [], .commit 1,
    .begin, .begin, .collect 2 7 .fullScan, .collect 3 7 .fullScan] ++
    deleteAndCommit 2 contendedRow ++ deleteAndCommit 3 otherRow

/-- The commit of the first transaction drops its read set, and the skew goes unnoticed. -/
theorem write_skew_reachable :
    ¬ ∀ (actions : List (Action Nat)) (final : State Nat),
      TransitionRun.Run step TransitionRun.unrestricted initial actions final →
      final.Serializable := by
  intro claim
  have replayed :
      ((TransitionRun.replay step TransitionRun.unrestricted initial
        writeSkew).map fun final =>
          (final.trail.reads 2 otherRow, final.trail.reads 3 contendedRow,
            final.tx.clog.isCommitted 2, final.tx.clog.isCommitted 3,
            final.trail.overwrites)) =
        some (true, true, true, true,
          [{ row := otherRow, previous := 0, writer := 3 },
            { row := contendedRow, previous := 0, writer := 2 }]) := by
    decide
  obtain ⟨final, reached, observed⟩ := Option.map_eq_some_iff.mp replayed
  simp only [Prod.mk.injEq, Clog.isCommitted_iff] at observed
  obtain ⟨firstRead, secondRead, firstDone, secondDone, overwrites⟩ := observed
  have there : final.Edge 2 3 :=
    ⟨by decide, firstDone, secondDone,
      .rw firstRead ⟨_, overwrites ▸ List.mem_cons_self, rfl, rfl⟩⟩
  have back : final.Edge 3 2 :=
    ⟨by decide, secondDone, firstDone,
      .rw secondRead ⟨_, overwrites ▸ List.mem_cons_of_mem _ List.mem_cons_self,
        rfl, rfl⟩⟩
  exact claim _ final (TransitionRun.run_of_replay reached) 2
    ((Relation.TransGen.single there).tail back)

end PrehniteDB.Interleaving
