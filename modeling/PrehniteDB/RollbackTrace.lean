import PrehniteDB.StatementInvariant

namespace PrehniteDB.Statements

open TransitionRun

/-!
# A rolled-back transaction leaves no trace

A rollback writes one commit-log record; the rows the transaction inserted and
the stamps it left stay in the store.  `Shadow` relates the store to the one in
which the statements of the transaction never ran: its inserts are missing
there, and where it stamped a row the shadow keeps what the stamp replaced.
-/

variable {Values : Type}

/-- In a process that has not been restarted an id has no outcome before it is resolved. -/
structure Settled (state : State Values) : Prop where
  sound : Sound state
  floor : state.tx.clog.minTxId = 0
  unresolved :
    ∀ txId,
      txId = 0 ∨ txId ∈ state.tx.inFlight ∨ state.tx.nextTxId ≤ txId →
      state.tx.clog.status txId = none

namespace Settled

variable {state next : State Values}

theorem initial : Settled (initial : State Values) where
  sound := .initial
  floor := rfl
  unresolved := fun _ _ => Clog.status_fresh _

theorem unresolved_beginWrite
    (settled : Settled state)
    {txId : Nat}
    (pending :
      txId = 0 ∨ txId ∈ state.tx.beginWrite.2.inFlight ∨
        state.tx.beginWrite.2.nextTxId ≤ txId) :
    state.tx.clog.status txId = none := by
  apply settled.unresolved
  rcases pending with zero | active | unassigned
  · exact .inl zero
  · rcases Finset.mem_insert.mp active with fresh | active
    · exact .inr (.inr (Nat.le_of_eq fresh.symm))
    · exact .inr (.inl active)
  · exact .inr (.inr (Nat.le_of_succ_le unassigned))

theorem unresolved_resolve
    (settled : Settled state)
    {txId other : Nat}
    (active : txId ∈ state.tx.inFlight)
    {outcome : Status}
    (pending :
      other = 0 ∨ other ∈ state.tx.inFlight.erase txId ∨
        state.tx.nextTxId ≤ other) :
    (state.tx.clog.append txId outcome).status other = none := by
  have assigned := settled.sound.assigned txId active
  have different : other ≠ txId := by
    rintro rfl
    rcases pending with zero | active | unassigned
    · exact absurd zero (Nat.pos_iff_ne_zero.mp assigned.1)
    · exact (Finset.mem_erase.mp active).1 rfl
    · exact absurd assigned.2 (Nat.not_lt.mpr unassigned)
  rw [Clog.status_append_other different]
  apply settled.unresolved
  rcases pending with zero | active | unassigned
  · exact .inl zero
  · exact .inr (.inl (Finset.mem_of_mem_erase active))
  · exact .inr (.inr unassigned)

theorem step
    {action : Action Values}
    (settled : Settled state)
    (stepped : Statements.step state action = some next) :
    Settled next := by
  refine ⟨settled.sound.step stepped, ?_, ?_⟩
  · cases step_effect stepped <;> exact settled.floor
  · intro txId pending
    cases step_effect stepped with
    | beginWrite => exact settled.unresolved_beginWrite pending
    | commit running =>
        exact settled.unresolved_resolve
          (settled.sound.session _ _ running).2 pending
    | rollback running =>
        exact settled.unresolved_resolve
          (settled.sound.session _ _ running).2 pending
    | pin _ _ => exact settled.unresolved txId pending
    | openReader => exact settled.unresolved txId pending
    | closeReader => exact settled.unresolved txId pending
    | exec _ _ _ => exact settled.unresolved txId pending
    | fail _ => exact settled.unresolved txId pending

/-- A recorded outcome is never replaced. -/
theorem status_kept
    {action : Action Values}
    {txId : Nat}
    {outcome : Status}
    (settled : Settled state)
    (stepped : Statements.step state action = some next)
    (recorded : state.tx.clog.status txId = some outcome) :
    next.tx.clog.status txId = some outcome := by
  have resolved :
      ∀ {other : Nat} {session : Session} (result : Status),
        state.session other = some session →
        (state.tx.clog.append other result).status txId = some outcome := by
    intro other session result running
    have different : txId ≠ other := by
      rintro rfl
      have active := (settled.sound.session txId session running).2
      rw [settled.unresolved txId (.inr (.inl active))] at recorded
      cases recorded
    exact (Clog.status_append_other different).trans recorded
  cases step_effect stepped with
  | commit running => exact resolved _ running
  | rollback running => exact resolved _ running
  | beginWrite => exact recorded
  | pin _ _ => exact recorded
  | openReader => exact recorded
  | closeReader => exact recorded
  | exec _ _ _ => exact recorded
  | fail _ => exact recorded

end Settled

/-- The actions of a run without the statements of one transaction. -/
def withoutStatements (txId : Nat) (actions : List (Action Values)) : List (Action Values) :=
  actions.filter fun action =>
    match action with
    | .exec writer _ _ => writer ≠ txId
    | _ => true

/-- The statements of `txId` stamp no version whose deleter has committed. -/
def SparesCommitted (txId : Nat) (state : State Values) : Action Values → Prop
  | .exec writer tombstones _ =>
      writer = txId →
      ∀ row ∈ tombstones,
        ∀ record ∈ state.rows row,
          state.tx.clog.isCommitted record.txMax = false
  | _ => True

instance
    (txId : Nat)
    (state : State Values) :
    ∀ action, Decidable (SparesCommitted txId state action)
  | .exec _ _ _ => inferInstanceAs (Decidable (_ = _ → _))
  | .beginWrite | .pin _ | .openReader | .closeReader _ | .fail _
  | .commit _ | .rollback _ => isTrue trivial

/-- One row, and what it is when the statements of `txId` never ran. -/
inductive RowShadow (clog : Clog) (txId : Nat) :
    Option (RowRecord Values) → Option (RowRecord Values) → Prop where
  | absent : RowShadow clog txId none none
  | inserted
      {record : RowRecord Values}
      (creator : record.txMin = txId) :
      RowShadow clog txId (some record) none
  | same
      {record : RowRecord Values}
      (creator : record.txMin ≠ txId) :
      RowShadow clog txId (some record) (some record)
  | stamped
      {record : RowRecord Values}
      {previous : Nat}
      (creator : record.txMin ≠ txId)
      (stamp : record.txMax = txId)
      (harmless :
        previous = 0 ∨ clog.status previous = some .rolledBack) :
      RowShadow clog txId (some record) (some { record with txMax := previous })

/-- The same process, in which the statements of `txId` never ran. -/
def Shadow (txId : Nat) (state without : State Values) : Prop :=
  ∃ rows persistedNextTxId,
    without = { state with
      rows := rows
      persistedNextTxId := persistedNextTxId } ∧
    ∀ row, RowShadow state.tx.clog txId (state.rows row) (rows row)

namespace RowShadow

variable
  {clog : Clog}
  {txId : Nat}
  {row shadow : Option (RowRecord Values)}

/-- Outcomes recorded later keep the relation. -/
theorem later
    {after : Clog}
    (kept :
      ∀ other, clog.status other = some .rolledBack →
        after.status other = some .rolledBack)
    (related : RowShadow clog txId row shadow) :
    RowShadow after txId row shadow := by
  cases related with
  | absent => exact .absent
  | inserted creator => exact .inserted creator
  | same creator => exact .same creator
  | stamped creator stamp harmless =>
      exact .stamped creator stamp (harmless.imp_right (kept _))

/-- A snapshot that does not own `txId` reads the same values in both, unless `txId` commits. -/
theorem visible_same
    {snapshot : Snapshot}
    {record previousRecord : RowRecord Values}
    (foreign : snapshot.ownTx ≠ some txId)
    (uncommitted : clog.status txId ≠ some .committed)
    (ownPending :
      ∀ own, snapshot.ownTx = some own → clog.status own = none)
    (related :
      RowShadow clog txId (some record) (some previousRecord)) :
    snapshot.visible clog previousRecord.txMin previousRecord.txMax =
      snapshot.visible clog record.txMin record.txMax := by
  cases related with
  | same _ => rfl
  | @stamped _ previous creator stamp harmless =>
      rw [Bool.eq_iff_iff, Snapshot.visible_iff, Snapshot.visible_iff, stamp]
      apply and_congr_right
      intro _
      have alive : some txId ≠ snapshot.ownTx ∧ ¬ snapshot.Sees clog txId :=
        ⟨fun own => foreign own.symm, fun seen => uncommitted seen.1⟩
      simp only [alive, ne_eq, not_false_eq_true, and_true, or_true, iff_true]
      rcases harmless with zero | dead
      · exact .inl zero
      · refine .inr ⟨fun own => ?_, fun seen => ?_⟩
        · have pending := ownPending previous own.symm
          rw [dead] at pending
          cases pending
        · have committed := seen.1
          rw [dead] at committed
          cases committed

/-- A version of `txId` is invisible to everyone else unless `txId` commits. -/
theorem invisible_inserted
    {snapshot : Snapshot}
    {record : RowRecord Values}
    (foreign : snapshot.ownTx ≠ some txId)
    (uncommitted : clog.status txId ≠ some .committed)
    (positive : txId ≠ 0)
    (creator : record.txMin = txId) :
    snapshot.visible clog record.txMin record.txMax = false := by
  rw [Bool.eq_false_iff, ne_eq, Snapshot.visible_iff, Snapshot.created_iff,
    creator]
  rintro ⟨own | zero | seen, _⟩
  · exact foreign own.symm
  · exact positive zero
  · exact uncommitted seen.1

end RowShadow

namespace Shadow

variable {state next without : State Values} {txId : Nat}

/-- Both processes read the same values under every snapshot that is not the transaction's own. -/
theorem read_same
    (settled : Settled state)
    (shadow : Shadow txId state without)
    (uncommitted : state.tx.clog.status txId ≠ some .committed)
    (positive : txId ≠ 0)
    {snapshot : Snapshot}
    (inUse : state.InUse snapshot)
    (foreign : snapshot.ownTx ≠ some txId)
    (row : RowKey) :
    without.read snapshot row = state.read snapshot row := by
  have ownPending :
      ∀ own, snapshot.ownTx = some own → state.tx.clog.status own = none :=
    fun own owned => settled.unresolved own
      (.inr (.inl (settled.sound.own_active inUse owned)))
  obtain ⟨rows, persistedNextTxId, rfl, related⟩ := shadow
  specialize related row
  simp only [State.read]
  generalize state.rows row = stored at related ⊢
  generalize rows row = kept at related ⊢
  cases related with
  | absent => rfl
  | inserted creator =>
      simp [RowShadow.invisible_inserted foreign uncommitted positive creator]
  | same creator => rfl
  | stamped creator stamp harmless =>
      have sameAnswer := RowShadow.visible_same foreign uncommitted ownPending
        (.stamped creator stamp harmless)
      simp only [Option.bind_some, sameAnswer]

/-- A row another transaction may update is the same row in the shadow. -/
theorem updatable_kept
    (settled : Settled state)
    (shadow : Shadow txId state without)
    (uncommitted : state.tx.clog.status txId ≠ some .committed)
    (positive : txId ≠ 0)
    {writer : Nat}
    {session : Session}
    (running : state.session writer = some session)
    (foreign : writer ≠ txId)
    {row : RowKey}
    (updatable : state.updatable session.snapshot row = true) :
    without.updatable session.snapshot row = true ∧
      ∃ record previous,
        state.rows row = some record ∧ record.txMin ≠ txId ∧
          without.rows row = some { record with txMax := previous } := by
  have owned := settled.sound.session writer session running
  have pending := settled.unresolved writer (.inr (.inl owned.2))
  have foreignOwn : session.snapshot.ownTx ≠ some txId := by
    rw [owned.1]
    exact fun same => foreign (Option.some.inj same)
  have ownPending :
      ∀ own, session.snapshot.ownTx = some own →
        state.tx.clog.status own = none := by
    intro own mine
    obtain rfl := Option.some.inj (owned.1.symm.trans mine)
    exact pending
  obtain ⟨record, stored, visible, passed⟩ := updatable_iff.mp updatable
  obtain ⟨rows, persistedNextTxId, rfl, related⟩ := shadow
  specialize related row
  rw [stored] at related
  rw [updatable_iff]
  cases kept : rows row with
  | none =>
      rw [kept] at related
      cases related with
      | inserted creator =>
          rw [RowShadow.invisible_inserted foreignOwn uncommitted positive
            creator] at visible
          cases visible
  | some previousRecord =>
      rw [kept] at related
      have sameAnswer :=
        RowShadow.visible_same foreignOwn uncommitted ownPending related
      cases related with
      | same creator =>
          exact ⟨⟨record, kept, visible, passed⟩, record, record.txMax, stored,
            creator, kept⟩
      | @stamped _ previous creator stamp harmless =>
          refine ⟨⟨_, kept, sameAnswer.trans visible, ?_⟩, record, previous,
            stored, creator, kept⟩
          rw [checkWriteWriteConflict_ok]
          rcases harmless with zero | dead
          · exact .inl zero
          · exact .inr (.inr (by simp [dead]))

/-- A statement of the transaction itself only changes what the shadow leaves out. -/
theorem exec_own
    (settled : Settled state)
    (shadow : Shadow txId state without)
    {tombstones : List RowKey}
    {inserts : List (RowKey × Values)}
    (spared :
      ∀ row ∈ tombstones,
        ∀ record ∈ state.rows row,
          state.tx.clog.isCommitted record.txMax = false)
    {session : Session}
    (running : state.session txId = some session)
    (updatable :
      ∀ row ∈ tombstones, state.updatable session.snapshot row = true)
    (vacant : ∀ insert ∈ inserts, state.rows insert.1 = none) :
    Shadow txId
      { state with
        persistedNextTxId := state.tx.nextTxId
        rows := State.written state.rows txId tombstones inserts }
      without := by
  have owned := settled.sound.session txId session running
  obtain ⟨rows, persistedNextTxId, rfl, related⟩ := shadow
  refine ⟨rows, persistedNextTxId, rfl, ?_⟩
  intro row
  specialize related row
  simp only [State.written]
  by_cases deleted : row ∈ tombstones
  · obtain ⟨record, stored, visible, passed⟩ :=
      updatable_iff.mp (updatable row deleted)
    have notOwn : some record.txMax ≠ session.snapshot.ownTx ∨
        record.txMax = 0 := by
      rcases (Snapshot.visible_iff.mp visible).2 with zero | ⟨foreign, _⟩
      · exact .inr zero
      · exact .inl foreign
    have harmless : record.txMax = 0 ∨
        state.tx.clog.status record.txMax = some .rolledBack := by
      rcases checkWriteWriteConflict_ok.mp passed with zero | own | resolved
      · exact .inl zero
      · exact .inl (notOwn.resolve_left (fun foreign => foreign own))
      · obtain ⟨outcome, answer⟩ := Option.isSome_iff_exists.mp resolved
        cases outcome with
        | committed =>
            have alive := spared row deleted record stored
            rw [Clog.isCommitted_iff.mpr answer] at alive
            cases alive
        | rolledBack => exact .inr answer
    rw [if_pos deleted, stored]
    rw [stored] at related
    cases kept : rows row with
    | none =>
        rw [kept] at related
        cases related with
        | inserted creator => exact .inserted creator
    | some previousRecord =>
        rw [kept] at related
        cases related with
        | same creator => exact .stamped creator rfl harmless
        | stamped creator stamp _ =>
            exact .stamped creator rfl (by assumption)
  · rw [if_neg deleted]
    cases inserted : inserts.lookup row with
    | none => exact related
    | some values =>
        obtain ⟨before, after, shape, _⟩ := List.lookup_eq_some_iff.mp inserted
        have vacantRow : state.rows row = none :=
          vacant (row, values) (by simp [shape])
        rw [vacantRow] at related
        cases kept : rows row with
        | none => exact .inserted rfl
        | some previousRecord =>
            rw [kept] at related
            cases related

/-- A statement of another transaction runs the same in the shadow. -/
theorem exec_other
    (settled : Settled state)
    (shadow : Shadow txId state without)
    (uncommitted : state.tx.clog.status txId ≠ some .committed)
    (positive : txId ≠ 0)
    {writer : Nat}
    {tombstones : List RowKey}
    {inserts : List (RowKey × Values)}
    (foreign : writer ≠ txId)
    (stepped : step state (.exec writer tombstones inserts) = some next) :
    ∃ shadowed,
      step without (.exec writer tombstones inserts) = some shadowed ∧
        Shadow txId next shadowed := by
  obtain ⟨session, opened, guarded⟩ := Option.bind_eq_some_iff.mp stepped
  by_cases allowed :
      (∀ row ∈ tombstones, state.updatable session.snapshot row = true) ∧
        ∀ insert ∈ inserts, state.rows insert.1 = none
  · rw [if_pos allowed] at guarded
    obtain rfl := Option.some.inj guarded
    have kept := fun row deleted =>
      updatable_kept settled shadow uncommitted positive
        (session_of_openSession opened) foreign (allowed.1 row deleted)
    obtain ⟨rows, persistedNextTxId, rfl, related⟩ := shadow
    have vacant : ∀ insert ∈ inserts, rows insert.1 = none := by
      intro insert member
      have unrelated := related insert.1
      rw [allowed.2 insert member] at unrelated
      cases found : rows insert.1 with
      | none => rfl
      | some record =>
          rw [found] at unrelated
          cases unrelated
    refine ⟨{ state with
      rows := State.written rows writer tombstones inserts
      persistedNextTxId := state.tx.nextTxId }, ?_,
      State.written rows writer tombstones inserts, state.tx.nextTxId, rfl, ?_⟩
    · refine Option.bind_eq_some_iff.mpr ⟨session, opened, ?_⟩
      exact if_pos ⟨fun row deleted => (kept row deleted).1, vacant⟩
    · intro row
      simp only [State.written]
      by_cases deleted : row ∈ tombstones
      · obtain ⟨record, previous, stored, creator, shadowed⟩ :=
          (kept row deleted).2
        replace shadowed : rows row = some _ := shadowed
        rw [if_pos deleted, if_pos deleted, stored, shadowed]
        exact .same creator
      · rw [if_neg deleted, if_neg deleted]
        cases inserts.lookup row with
        | none => exact related row
        | some values => exact .same foreign
  · rw [if_neg allowed] at guarded
    cases guarded

theorem step_ignores_rows
    {action : Action Values}
    (notStatement :
      ∀ writer tombstones inserts, action ≠ .exec writer tombstones inserts)
    (stepped : step state action = some next)
    (rows : RowKey → Option (RowRecord Values))
    (persistedNextTxId : Nat) :
    next.rows = state.rows ∧
      step { state with rows := rows, persistedNextTxId := persistedNextTxId }
          action =
        some { next with
          rows := rows
          persistedNextTxId := persistedNextTxId } := by
  cases action with
  | exec writer tombstones inserts => exact (notStatement _ _ _ rfl).elim
  | beginWrite =>
      obtain rfl := Option.some.inj stepped
      exact ⟨rfl, rfl⟩
  | openReader =>
      obtain rfl := Option.some.inj stepped
      exact ⟨rfl, rfl⟩
  | closeReader snapshot =>
      obtain rfl := Option.some.inj stepped
      exact ⟨rfl, rfl⟩
  | pin txId =>
      by_cases allowed : txId ∈ state.tx.inFlight ∧ state.session txId = none
      · rw [step, if_pos allowed] at stepped
        obtain rfl := Option.some.inj stepped
        exact ⟨rfl, by rw [step, if_pos allowed]; rfl⟩
      · rw [step, if_neg allowed] at stepped
        cases stepped
  | fail txId =>
      obtain ⟨session, opened, rfl⟩ := Option.map_eq_some_iff.mp stepped
      exact ⟨rfl, Option.map_eq_some_iff.mpr ⟨session, opened, rfl⟩⟩
  | commit txId =>
      obtain ⟨session, running, rfl⟩ := Option.map_eq_some_iff.mp stepped
      exact ⟨rfl, Option.map_eq_some_iff.mpr ⟨session, running, rfl⟩⟩
  | rollback txId =>
      obtain ⟨session, running, rfl⟩ := Option.map_eq_some_iff.mp stepped
      exact ⟨rfl, Option.map_eq_some_iff.mpr ⟨session, running, rfl⟩⟩

/-- Begins, reads and outcomes run the same in the shadow. -/
theorem step_other
    (settled : Settled state)
    (shadow : Shadow txId state without)
    {action : Action Values}
    (notStatement :
      ∀ writer tombstones inserts, action ≠ .exec writer tombstones inserts)
    (stepped : step state action = some next) :
    ∃ shadowed,
      step without action = some shadowed ∧ Shadow txId next shadowed := by
  obtain ⟨rows, persistedNextTxId, rfl, related⟩ := shadow
  obtain ⟨sameRows, stepsToo⟩ :=
    step_ignores_rows notStatement stepped rows persistedNextTxId
  refine ⟨_, stepsToo, rows, persistedNextTxId, rfl, ?_⟩
  intro row
  rw [sameRows]
  exact (related row).later fun other dead =>
    settled.status_kept stepped dead

end Shadow

theorem shadow_run
    {txId : Nat}
    {actions : List (Action Values)}
    {final : State Values}
    (positive : txId ≠ 0)
    (run : Run step (SparesCommitted txId) initial actions final) :
    Settled final ∧
      (final.tx.clog.status txId ≠ some .committed →
        ∃ without,
          Run step unrestricted initial
              (withoutStatements txId actions) without ∧
            Shadow txId final without) := by
  induction run with
  | nil => exact ⟨.initial, fun _ => ⟨initial, .nil _, _, _, rfl, fun _ => .absent⟩⟩
  | @snoc middle final earlier action run permitted stepped
      inductionHypothesis =>
      obtain ⟨settled, shadowed⟩ := inductionHypothesis
      refine ⟨settled.step stepped, fun uncommitted => ?_⟩
      have stillUncommitted :
          middle.tx.clog.status txId ≠ some .committed :=
        fun committed => uncommitted (settled.status_kept stepped committed)
      obtain ⟨without, reached, shadow⟩ := shadowed stillUncommitted
      have split :
          withoutStatements txId (earlier ++ [action]) =
            withoutStatements txId earlier ++
              withoutStatements txId [action] :=
        List.filter_append ..
      rw [split]
      cases action with
      | exec writer tombstones inserts =>
          by_cases own : writer = txId
          · subst own
            have skipped :
                withoutStatements writer
                  [(.exec writer tombstones inserts : Action Values)] = [] := by
              simp [withoutStatements]
            rw [skipped, List.append_nil]
            cases step_effect stepped with
            | exec running updatable vacant =>
                exact ⟨without, reached, shadow.exec_own settled
                  (permitted rfl) running updatable vacant⟩
          · have kept :
                withoutStatements txId
                    [(.exec writer tombstones inserts : Action Values)] =
                  [.exec writer tombstones inserts] := by
              simp [withoutStatements, own]
            rw [kept]
            obtain ⟨next, taken, related⟩ := shadow.exec_other settled
              stillUncommitted positive own stepped
            exact ⟨next, reached.snoc trivial taken, related⟩
      | _ =>
          obtain ⟨next, taken, related⟩ :=
            shadow.step_other settled (by simp) stepped
          exact ⟨next, reached.snoc trivial taken, related⟩

/-- The row the traces below are about. -/
def accountRow : RowKey where
  tableRoot := 7
  rowid := 1

/-- One transaction creates the row and commits. -/
def createAccount : List (Action Nat) :=
  [.beginWrite, .pin 1, .exec 1 [] [(accountRow, 0)], .commit 1]

/--
Transaction 2 deletes the row, fails a statement and rolls back, while transaction 3
writes another row and commits.
-/
def deletedAndFailed : List (Action Nat) :=
  createAccount ++
    [.beginWrite, .pin 2, .beginWrite, .pin 3, .exec 2 [accountRow] [],
      .exec 3 [] [({ accountRow with rowid := 2 }, 5)], .fail 2, .commit 3, .rollback 2,
      .openReader]

/--
Transaction 3 deletes the row and commits; transaction 2, whose snapshot is
older, deletes it again and rolls back, and the row is back.
-/
def resurrection : List (Action Nat) :=
  createAccount ++
    [.beginWrite, .pin 2, .beginWrite, .pin 3, .exec 3 [accountRow] [],
      .commit 3, .exec 2 [accountRow] [], .rollback 2, .openReader]

/-- The snapshot the reader at the end of the trace captures. -/
def finalReader : Snapshot where
  nextTx := 4
  inFlight := ∅
  ownTx := none

end PrehniteDB.Statements
