import PrehniteDB.TransactionLifecycle

namespace PrehniteDB.Interleaving

/-!
# First updater wins

A tombstone write replaces whatever stamp the row carries.  The conflict check
reads the stamp of the collected copy, and lets a committed stamp through on
the assumption that visibility has already filtered it out.  Both the pinned
snapshot and the gap between collection and write break that assumption; when
neither happens, no committed tombstone is ever overwritten.
-/

variable {Values : Type}

/-- No committed tombstone was overwritten. -/
structure NoLostUpdate (state : State Values) : Prop where
  atMostOne :
    ∀ first ∈ state.trail.overwrites,
      ∀ second ∈ state.trail.overwrites,
        first.row = second.row →
        state.tx.clog.isCommitted first.writer = true →
        state.tx.clog.isCommitted second.writer = true →
        first.writer = second.writer
  spared :
    ∀ overwrite ∈ state.trail.overwrites,
      overwrite.previous ≠ 0 →
      overwrite.previous ≠ overwrite.writer →
      state.tx.clog.isCommitted overwrite.previous = false

/--
The copy being checked carries no committed stamp, and the row being written
has not been stamped since it was collected, except by a transaction that has
rolled back.
-/
def Undisturbed (state : State Values) : Action Values → Prop
  | .check txId row =>
      ∀ session ∈ state.openSession txId,
        ∀ record ∈ session.candidates row,
          state.tx.clog.isCommitted record.txMax = false
  | .tombstone txId row =>
      ∀ session ∈ state.openSession txId,
        ∀ record ∈ session.candidates row,
          ∀ stored ∈ state.rows row,
            stored.txMax = record.txMax ∨
              state.tx.clog.isRolledBack stored.txMax = true
  | _ => True

instance
    (state : State Values) :
    ∀ action, Decidable (Undisturbed state action)
  | .check _ _ | .tombstone _ _ =>
      inferInstanceAs (Decidable (∀ session ∈ Option.filter _ _, _))
  | .begin | .read _ _ _ | .collect _ _ _ | .insert _ _ _ _
  | .insertVersion _ _ _ _ _ | .fail _ | .commit _ | .rollback _ =>
      isTrue trivial

/-- Every tombstone whose writer may still matter is the stamp the row carries. -/
structure Stamped (state : State Values) : Prop where
  kept :
    ∀ overwrite ∈ state.trail.overwrites,
      state.tx.clog.status overwrite.writer ≠ some .rolledBack →
      ∃ record,
        state.rows overwrite.row = some record ∧
          record.txMax = overwrite.writer
  assigned :
    ∀ overwrite ∈ state.trail.overwrites,
      0 < overwrite.writer ∧ overwrite.writer < state.tx.nextTxId
  harmless :
    ∀ overwrite ∈ state.trail.overwrites,
      overwrite.previous = 0 ∨
        overwrite.previous = overwrite.writer ∨
        state.tx.clog.status overwrite.previous = some .rolledBack
  examined :
    ∀ txId session row record,
      state.session txId = some session →
      session.checked row = true →
      session.candidates row = some record →
      record.txMax = 0 ∨
        record.txMax = txId ∨
        state.tx.clog.status record.txMax = some .rolledBack

/-- A copy the check lets through without a committed stamp is free to overwrite. -/
theorem overwritable_of_passed
    {record : RowRecord Values}
    {snapshot : Snapshot}
    {clog : Clog}
    {txId : Nat}
    (own : snapshot.ownTx = some txId)
    (passed : checkWriteWriteConflict record snapshot clog = .ok ())
    (notCommitted : clog.isCommitted record.txMax = false) :
    record.txMax = 0 ∨
      record.txMax = txId ∨
      clog.status record.txMax = some .rolledBack := by
  rcases checkWriteWriteConflict_ok.mp passed with zero | stampedByOwn | resolved
  · exact .inl zero
  · rw [own] at stampedByOwn
    exact .inr (.inl (Option.some.inj stampedByOwn))
  · obtain ⟨outcome, answer⟩ := Option.isSome_iff_exists.mp resolved
    cases outcome with
    | committed =>
        rw [Clog.isCommitted_iff.mpr answer] at notCommitted
        cases notCommitted
    | rolledBack => exact .inr (.inr answer)

namespace Stamped

variable {state next : State Values}

theorem initial : Stamped (initial : State Values) where
  kept := by simp [Interleaving.initial]
  assigned := by simp [Interleaving.initial]
  harmless := by simp [Interleaving.initial]
  examined := by simp [Interleaving.initial]

/-- A step that writes no tombstone only has to account for its sessions. -/
theorem frame
    (stamped : Stamped state)
    (sameOverwrites : next.trail.overwrites = state.trail.overwrites)
    (rowsKept :
      ∀ row record, state.rows row = some record → next.rows row = some record)
    (idsGrow : state.tx.nextTxId ≤ next.tx.nextTxId)
    (rolledBackKept :
      ∀ txId, state.tx.clog.status txId = some .rolledBack →
        next.tx.clog.status txId = some .rolledBack)
    (examined :
      ∀ txId session row record,
        next.session txId = some session →
        session.checked row = true →
        session.candidates row = some record →
        record.txMax = 0 ∨
          record.txMax = txId ∨
          next.tx.clog.status record.txMax = some .rolledBack) :
    Stamped next where
  kept := by
    rw [sameOverwrites]
    intro overwrite member live
    obtain ⟨record, stored, stamp⟩ :=
      stamped.kept overwrite member fun dead => live (rolledBackKept _ dead)
    exact ⟨record, rowsKept _ _ stored, stamp⟩
  assigned := by
    rw [sameOverwrites]
    intro overwrite member
    have assigned := stamped.assigned overwrite member
    exact ⟨assigned.1, Nat.lt_of_lt_of_le assigned.2 idsGrow⟩
  harmless := by
    rw [sameOverwrites]
    intro overwrite member
    exact (stamped.harmless overwrite member).imp_right
      (Or.imp_right (rolledBackKept _))
  examined := examined

/-- Replacing one session is harmless when its new candidates are. -/
theorem setSession
    (stamped : Stamped state)
    {txId : Nat}
    {session : Session Values}
    (examined :
      ∀ row record,
        session.checked row = true →
        session.candidates row = some record →
        record.txMax = 0 ∨
          record.txMax = txId ∨
          state.tx.clog.status record.txMax = some .rolledBack) :
    Stamped (state.setSession txId session) := by
  refine stamped.frame rfl (fun _ _ stored => stored) (Nat.le_refl _)
    (fun _ dead => dead) ?_
  intro other found row record running checked candidate
  by_cases same : other = txId
  · subst same
    rw [State.setSession_self] at running
    obtain rfl := Option.some.inj running
    exact examined row record checked candidate
  · rw [State.setSession_other same] at running
    exact stamped.examined other found row record running checked candidate

theorem begin (stamped : Stamped state) : Stamped state.begin := by
  refine stamped.frame rfl (fun _ _ stored => stored) (Nat.le_succ _)
    (fun _ dead => dead) ?_
  intro txId session row record running checked candidate
  by_cases fresh : txId = state.tx.nextTxId
  · subst fresh
    simp only [State.begin_session, Function.update_self, Option.some.injEq]
      at running
    subst running
    cases checked
  · rw [State.begin_session, Function.update_of_ne fresh] at running
    exact stamped.examined txId session row record running checked candidate

theorem resolve
    (stamped : Stamped state)
    (lifecycle : Lifecycle state)
    {txId : Nat}
    {session : Session Values}
    (running : state.session txId = some session)
    (outcome : Status) :
    Stamped (state.resolve txId outcome) := by
  have rolledBackKept :
      ∀ other, state.tx.clog.status other = some .rolledBack →
        (state.tx.clog.append txId outcome).status other =
          some .rolledBack := by
    intro other dead
    have different : other ≠ txId := by
      rintro rfl
      rw [lifecycle.unresolved other
        (.inr (.inl (lifecycle.active running)))] at dead
      cases dead
    rw [Clog.status_append_other different, dead]
  refine stamped.frame rfl (fun _ _ stored => stored) (Nat.le_refl _)
    rolledBackKept ?_
  intro other found row record stillRunning checked candidate
  by_cases same : other = txId
  · simp [same] at stillRunning
  · rw [State.resolve_session, Function.update_of_ne same] at stillRunning
    exact (stamped.examined other found row record stillRunning checked
      candidate).imp_right (Or.imp_right (rolledBackKept _))

theorem vacantWrite
    (stamped : Stamped state)
    {row : RowKey}
    {record : RowRecord Values}
    {tx : TxState}
    {index : List IndexEntry}
    (vacant : state.rows row = none)
    (sameIds : tx.nextTxId = state.tx.nextTxId)
    (sameClog : tx.clog = state.tx.clog) :
    Stamped { state with
      tx := tx
      rows := Function.update state.rows row (some record)
      index := index } := by
  refine stamped.frame rfl ?_ (Nat.le_of_eq sameIds.symm) ?_ ?_
  · intro other stored present
    have different : other ≠ row := by
      rintro rfl
      rw [vacant] at present
      cases present
    simpa [different] using present
  · intro txId dead
    simpa [sameClog] using dead
  · intro txId session other stored running checked candidate
    simpa [sameClog] using
      stamped.examined txId session other stored running checked candidate

theorem tombstone
    (stamped : Stamped state)
    (lifecycle : Lifecycle state)
    {txId : Nat}
    {row : RowKey}
    {session : Session Values}
    {record : RowRecord Values}
    (running : state.session txId = some session)
    (checked : session.checked row = true)
    (candidate : session.candidates row = some record)
    (undisturbed :
      ∀ stored, state.rows row = some stored →
        stored.txMax = record.txMax ∨
          state.tx.clog.status stored.txMax = some .rolledBack) :
    Stamped (state.writeTombstone txId row record) := by
  have assigned := lifecycle.assigned txId (lifecycle.active running)
  have overwritable :
      ∀ stored, state.rows row = some stored →
        stored.txMax = 0 ∨
          stored.txMax = txId ∨
          state.tx.clog.status stored.txMax = some .rolledBack := by
    intro stored present
    rcases undisturbed stored present with same | dead
    · rw [same]
      exact stamped.examined txId session row record running checked candidate
    · exact .inr (.inr dead)
  constructor
  · intro overwrite member live
    simp only [State.writeTombstone, List.mem_cons] at member
    by_cases sameRow : overwrite.row = row
    -- On this row the surviving stamp can only be the writer's own.
    · refine ⟨{ record with txMax := txId }, ?_, ?_⟩
      · simp [State.writeTombstone, sameRow]
      · rcases member with rfl | member
        · rfl
        · obtain ⟨stored, present, stamp⟩ := stamped.kept overwrite member live
          rw [sameRow] at present
          have positive := (stamped.assigned overwrite member).1
          rcases overwritable stored present with zero | own | dead
          · omega
          · rw [← stamp, own]
          · rw [stamp] at dead
            exact (live dead).elim
    · rcases member with rfl | member
      · exact (sameRow rfl).elim
      · obtain ⟨stored, present, stamp⟩ := stamped.kept overwrite member live
        refine ⟨stored, ?_, stamp⟩
        simpa [State.writeTombstone, sameRow] using present
  · intro overwrite member
    simp only [State.writeTombstone, List.mem_cons] at member
    rcases member with rfl | member
    · exact assigned
    · exact stamped.assigned overwrite member
  · intro overwrite member
    simp only [State.writeTombstone, List.mem_cons] at member
    rcases member with rfl | member
    · cases present : state.rows row with
      | none => exact .inl (by simp)
      | some stored =>
          have harmless := overwritable stored present
          simpa [State.writeTombstone] using harmless
    · exact stamped.harmless overwrite member
  · exact stamped.examined

/-- Every undisturbed step keeps the stamps. -/
theorem step
    {action : Action Values}
    (stamped : Stamped state)
    (lifecycle : Lifecycle state)
    (undisturbed : Undisturbed state action)
    (stepped : Interleaving.step state action = some next) :
    Stamped next := by
  cases step_effect stepped with
  | begin => exact stamped.begin
  | read opened => exact { stamped with }
  | @collect txId tableRoot access session opened =>
      have scanned :
          Stamped (state.scan txId session.snapshot tableRoot access) :=
        { stamped with }
      apply scanned.setSession
      intro row record checked
      cases checked
  | @letThrough txId row session record opened candidate passed =>
      have running := session_of_openSession opened
      apply stamped.setSession
      intro other found checked foundCandidate
      by_cases same : other = row
      · subst same
        obtain rfl := Option.some.inj (candidate.symm.trans foundCandidate)
        exact overwritable_of_passed (lifecycle.ownTx running) passed
          (undisturbed session opened record candidate)
      · simp only [Function.update_of_ne same] at checked
        exact stamped.examined txId session other found running checked
          foundCandidate
  | @conflict txId row session opened =>
      apply stamped.setSession
      intro other record checked candidate
      exact stamped.examined txId session other record
        (session_of_openSession opened) checked candidate
  | @tombstone txId row session record opened checked candidate =>
      have running := session_of_openSession opened
      refine (stamped.tombstone lifecycle running checked candidate ?_).setSession
        ?_
      · intro stored present
        exact (undisturbed session opened record candidate stored present).imp_right
          Clog.isRolledBack_iff.mp
      · intro other found checkedOther foundCandidate
        by_cases same : other = row
        · simp [same] at foundCandidate
        · simp only [Function.update_of_ne same] at foundCandidate
          exact stamped.examined txId session other found running checkedOther
            foundCandidate
  | insert opened vacant => exact stamped.vacantWrite vacant rfl rfl
  | insertVersion opened _ _ vacant => exact stamped.vacantWrite vacant rfl rfl
  | @fail txId session opened =>
      apply stamped.setSession
      intro other record checked candidate
      exact stamped.examined txId session other record
        (session_of_openSession opened) checked candidate
  | committed running _ => exact stamped.resolve lifecycle running _
  | refused running => exact stamped.resolve lifecycle running _
  | rolledBack running => exact stamped.resolve lifecycle running _

/-- Two committed tombstones of one row have the same writer. -/
theorem noLostUpdate (stamped : Stamped state) : NoLostUpdate state where
  atMostOne := by
    intro first firstMember second secondMember sameRow firstDone secondDone
    rw [Clog.isCommitted_iff] at firstDone secondDone
    obtain ⟨record, stored, stamp⟩ :=
      stamped.kept first firstMember (by simp [firstDone])
    obtain ⟨other, otherStored, otherStamp⟩ :=
      stamped.kept second secondMember (by simp [secondDone])
    rw [sameRow] at stored
    obtain rfl := Option.some.inj (stored.symm.trans otherStored)
    exact stamp.symm.trans otherStamp
  spared := by
    intro overwrite member stampedBefore foreign
    rcases stamped.harmless overwrite member with zero | own | dead
    · exact (stampedBefore zero).elim
    · exact (foreign own).elim
    · simp [Clog.isCommitted, dead]

end Stamped

theorem undisturbed_run
    {actions : List (Action Values)}
    {final : State Values}
    (run : TransitionRun.Run step Undisturbed initial actions final) :
    Lifecycle final ∧ Stamped final :=
  run.invariant (fun state => Lifecycle state ∧ Stamped state)
    (fun holds undisturbed stepped =>
      ⟨holds.1.step stepped, holds.2.step holds.1 undisturbed stepped⟩)
    ⟨.initial, .initial⟩

/-- In every run of undisturbed steps no committed tombstone is overwritten. -/
theorem no_lost_update_of_undisturbed
    {actions : List (Action Values)}
    {final : State Values}
    (run : TransitionRun.Run step Undisturbed initial actions final) :
    NoLostUpdate final :=
  (undisturbed_run run).2.noLostUpdate

/-- The row the traces below are about. -/
def contendedRow : RowKey where
  tableRoot := 7
  rowid := 1

/-- One transaction creates the row. -/
def createContendedRow : List (Action Nat) :=
  [.begin, .insert 1 contendedRow 0 [], .commit 1]

/-- Collect, check and tombstone the row, then commit. -/
def deleteContendedRow (txId : Nat) : List (Action Nat) :=
  [.collect txId 7 .fullScan, .check txId contendedRow,
    .tombstone txId contendedRow, .commit txId]

/-- Two transactions have collected the row; the one that stamps it first rolls back. -/
def contendedDeletes : List (Action Nat) :=
  createContendedRow ++
    [.begin, .begin, .collect 2 7 .fullScan, .collect 3 7 .fullScan,
      .check 2 contendedRow, .tombstone 2 contendedRow, .rollback 2] ++
    [.check 3 contendedRow, .tombstone 3 contendedRow, .commit 3]

/-- Overwriting the stamp of a transaction that has rolled back is undisturbed. -/
theorem no_lost_update_contended :
    ∃ final : State Nat,
      TransitionRun.Run step Undisturbed initial contendedDeletes final ∧
        final.trail.overwrites =
          [{ row := contendedRow, previous := 2, writer := 3 },
            { row := contendedRow, previous := 0, writer := 2 }] ∧
        NoLostUpdate final := by
  have replayed :
      ((TransitionRun.replay step Undisturbed initial contendedDeletes).map
          fun final => final.trail.overwrites) =
        some
          [{ row := contendedRow, previous := 2, writer := 3 },
            { row := contendedRow, previous := 0, writer := 2 }] := by
    decide
  obtain ⟨final, reached, overwrites⟩ := Option.map_eq_some_iff.mp replayed
  exact ⟨final, TransitionRun.run_of_replay reached, overwrites,
    no_lost_update_of_undisturbed (TransitionRun.run_of_replay reached)⟩

/--
Both transactions begin, one deletes the row and commits, and the other, which
still sees the row through its pinned snapshot, overwrites the committed stamp.
-/
theorem lost_update_reachable :
    ¬ ∀ (actions : List (Action Nat)) (final : State Nat),
      TransitionRun.Run step TransitionRun.unrestricted initial actions final →
      NoLostUpdate final := by
  intro claim
  have replayed :
      ((TransitionRun.replay step TransitionRun.unrestricted initial
        (createContendedRow ++ [.begin, .begin] ++ deleteContendedRow 3 ++
          deleteContendedRow 2)).map
          fun final =>
            (final.trail.overwrites, final.tx.clog.isCommitted 3)) =
        some
          ([{ row := contendedRow, previous := 3, writer := 2 },
            { row := contendedRow, previous := 0, writer := 3 }], true) := by
    decide
  obtain ⟨final, reached, observed⟩ := Option.map_eq_some_iff.mp replayed
  obtain ⟨overwrites, committed⟩ := Prod.mk.inj observed
  have spared :=
    (claim _ final (TransitionRun.run_of_replay reached)).spared
      { row := contendedRow, previous := 3, writer := 2 }
      (by simp [overwrites]) (by decide) (by decide)
  rw [committed] at spared
  cases spared

end PrehniteDB.Interleaving
