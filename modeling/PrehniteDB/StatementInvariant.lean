import PrehniteDB.StatementInterleaving

namespace PrehniteDB.Statements

/-!
# What every statement-level state satisfies

`Effect` lists what one step can do.  `Sound` is the invariant that survives
restarts, reclamation and truncation as well: it never says that an id without
an outcome is in flight, and it leaves the floor of the commit log open.
-/

variable {Values : Type}

/-- The possible outcomes of one enabled step. -/
inductive Effect (state : State Values) : Action Values → State Values → Prop where
  | beginWrite :
      Effect state .beginWrite { state with tx := state.tx.beginWrite.2 }
  | pin
      {txId : Nat}
      (active : txId ∈ state.tx.inFlight)
      (closed : state.session txId = none) :
      Effect state (.pin txId)
        (state.setSession txId (some {
          snapshot := state.tx.snapshot (some txId)
          aborted := false }))
  | openReader :
      Effect state .openReader
        { state with readers := state.tx.snapshot none :: state.readers }
  | closeReader
      {snapshot : Snapshot} :
      Effect state (.closeReader snapshot)
        { state with readers := state.readers.erase snapshot }
  | exec
      {txId : Nat}
      {tombstones : List RowKey}
      {inserts : List (RowKey × Values)}
      {session : Session}
      (running : state.session txId = some session)
      (updatable :
        ∀ row ∈ tombstones, state.updatable session.snapshot row = true)
      (vacant : ∀ insert ∈ inserts, state.rows insert.1 = none) :
      Effect state (.exec txId tombstones inserts)
        { state with
          persistedNextTxId := state.tx.nextTxId
          rows := State.written state.rows txId tombstones inserts }
  | fail
      {txId : Nat}
      {session : Session}
      (running : state.session txId = some session) :
      Effect state (.fail txId)
        (state.setSession txId (some { session with aborted := true }))
  | commit
      {txId : Nat}
      {session : Session}
      (running : state.session txId = some session) :
      Effect state (.commit txId)
        (state.resolve txId
          (if session.aborted then .rolledBack else .committed))
  | rollback
      {txId : Nat}
      {session : Session}
      (running : state.session txId = some session) :
      Effect state (.rollback txId) (state.resolve txId .rolledBack)

theorem session_of_openSession
    {state : State Values}
    {txId : Nat}
    {session : Session}
    (opened : state.openSession txId = some session) :
    state.session txId = some session :=
  (Option.filter_eq_some_iff.mp opened).1

/-- What an enabled step does. -/
theorem step_effect
    {state next : State Values}
    {action : Action Values}
    (stepped : step state action = some next) :
    Effect state action next := by
  cases action with
  | beginWrite =>
      obtain rfl := Option.some.inj stepped
      exact .beginWrite
  | pin txId =>
      by_cases allowed : txId ∈ state.tx.inFlight ∧ state.session txId = none
      · rw [step, if_pos allowed] at stepped
        obtain rfl := Option.some.inj stepped
        exact .pin allowed.1 allowed.2
      · rw [step, if_neg allowed] at stepped
        cases stepped
  | openReader =>
      obtain rfl := Option.some.inj stepped
      exact .openReader
  | closeReader snapshot =>
      obtain rfl := Option.some.inj stepped
      exact .closeReader
  | exec txId tombstones inserts =>
      obtain ⟨session, opened, guarded⟩ := Option.bind_eq_some_iff.mp stepped
      by_cases allowed :
          (∀ row ∈ tombstones, state.updatable session.snapshot row = true) ∧
            ∀ insert ∈ inserts, state.rows insert.1 = none
      · rw [if_pos allowed] at guarded
        obtain rfl := Option.some.inj guarded
        exact .exec (session_of_openSession opened) allowed.1 allowed.2
      · rw [if_neg allowed] at guarded
        cases guarded
  | fail txId =>
      obtain ⟨session, opened, rfl⟩ := Option.map_eq_some_iff.mp stepped
      exact .fail (session_of_openSession opened)
  | commit txId =>
      obtain ⟨session, running, rfl⟩ := Option.map_eq_some_iff.mp stepped
      exact .commit running
  | rollback txId =>
      obtain ⟨session, running, rfl⟩ := Option.map_eq_some_iff.mp stepped
      exact .rollback running

theorem updatable_iff
    {state : State Values}
    {snapshot : Snapshot}
    {row : RowKey} :
    state.updatable snapshot row = true ↔
      ∃ record,
        state.rows row = some record ∧
          snapshot.visible state.tx.clog record.txMin record.txMax = true ∧
          checkWriteWriteConflict record snapshot state.tx.clog = .ok () := by
  simp only [State.updatable, Option.any_eq_true, Bool.and_eq_true]
  constructor
  · rintro ⟨record, stored, visible, passed⟩
    refine ⟨record, stored, visible, ?_⟩
    cases checked :
        checkWriteWriteConflict record snapshot state.tx.clog with
    | ok _ => rfl
    | error _ =>
        rw [checked] at passed
        cases passed
  · rintro ⟨record, stored, visible, passed⟩
    exact ⟨record, stored, visible, by rw [passed]⟩

/-- Where a row found after a statement comes from. -/
theorem written_cases
    {rows : RowKey → Option (RowRecord Values)}
    {txId : Nat}
    {tombstones : List RowKey}
    {inserts : List (RowKey × Values)}
    {row : RowKey}
    {record : RowRecord Values}
    (found : State.written rows txId tombstones inserts row = some record) :
    (row ∈ tombstones ∧
        ∃ earlier,
          rows row = some earlier ∧ record = { earlier with txMax := txId }) ∨
      (∃ values,
        (row, values) ∈ inserts ∧
          record = { txMin := txId, txMax := 0, values := values }) ∨
      rows row = some record := by
  unfold State.written at found
  by_cases deleted : row ∈ tombstones
  · rw [if_pos deleted] at found
    obtain ⟨earlier, stored, rfl⟩ := Option.map_eq_some_iff.mp found
    exact .inl ⟨deleted, earlier, stored, rfl⟩
  · rw [if_neg deleted] at found
    cases inserted : inserts.lookup row with
    | none =>
        rw [inserted] at found
        exact .inr (.inr found)
    | some values =>
        rw [inserted] at found
        obtain rfl := Option.some.inj found
        obtain ⟨before, after, shape, _⟩ := List.lookup_eq_some_iff.mp inserted
        exact .inr (.inl ⟨values, by simp [shape], rfl⟩)

structure Sound (state : State Values) : Prop where
  firstId : 0 < state.tx.nextTxId
  assigned :
    ∀ txId ∈ state.tx.inFlight, 0 < txId ∧ txId < state.tx.nextTxId
  session :
    ∀ txId session,
      state.session txId = some session →
      session.snapshot.ownTx = some txId ∧ txId ∈ state.tx.inFlight
  reader : ∀ snapshot ∈ state.readers, snapshot.ownTx = none
  current :
    ∀ snapshot,
      state.InUse snapshot →
      snapshot.nextTx ≤ state.tx.nextTxId ∧
        ∀ txId ∈ state.tx.inFlight, ¬ snapshot.Past txId
  persisted :
    0 < state.persistedNextTxId ∧
      state.persistedNextTxId ≤ state.tx.nextTxId
  stamped :
    ∀ row record,
      state.rows row = some record →
      0 < record.txMin ∧
        record.txMin < state.persistedNextTxId ∧
        record.txMax < state.persistedNextTxId
  deleted :
    ∀ row record,
      state.rows row = some record →
      record.txMax ≠ 0 →
      record.txMax ≠ record.txMin →
      record.txMin ∉ state.tx.inFlight ∧
        state.tx.clog.status record.txMin = some .committed

namespace Sound

variable {state next : State Values}

theorem initial : Sound (initial : State Values) where
  firstId := by simp [Statements.initial, TxState.new]
  assigned := by simp [Statements.initial, TxState.new]
  session := by simp [Statements.initial]
  reader := by simp [Statements.initial]
  current := by simp [Statements.initial, State.InUse]
  persisted := by simp [Statements.initial, TxState.new]
  stamped := by simp [Statements.initial]
  deleted := by simp [Statements.initial]

theorem own_active
    (sound : Sound state)
    {snapshot : Snapshot}
    {txId : Nat}
    (inUse : state.InUse snapshot)
    (own : snapshot.ownTx = some txId) :
    txId ∈ state.tx.inFlight := by
  rcases inUse with reader | ⟨opener, session, running, rfl⟩
  · rw [sound.reader snapshot reader] at own
    cases own
  · have owned := sound.session opener session running
    obtain rfl := Option.some.inj (owned.1.symm.trans own)
    exact owned.2

theorem reader_of_idle
    (sound : Sound state)
    {snapshot : Snapshot}
    (idle : state.tx.inFlight = ∅)
    (inUse : state.InUse snapshot) :
    snapshot ∈ state.readers := by
  rcases inUse with reader | ⟨opener, session, running, _⟩
  · exact reader
  · have active := (sound.session opener session running).2
    rw [idle] at active
    cases active

theorem beginWrite (sound : Sound state) :
    Sound { state with tx := state.tx.beginWrite.2 } where
  firstId := Nat.succ_pos _
  assigned := by
    intro txId active
    rcases Finset.mem_insert.mp active with rfl | active
    · exact ⟨sound.firstId, Nat.lt_succ_self _⟩
    · exact ⟨(sound.assigned txId active).1,
        Nat.lt_succ_of_lt (sound.assigned txId active).2⟩
  session := by
    intro txId session running
    have owned := sound.session txId session running
    exact ⟨owned.1, Finset.mem_insert_of_mem owned.2⟩
  reader := sound.reader
  current := by
    intro snapshot inUse
    have current := sound.current snapshot inUse
    refine ⟨Nat.le_succ_of_le current.1, ?_⟩
    intro txId active past
    rcases Finset.mem_insert.mp active with rfl | active
    · exact Nat.not_lt.mpr current.1 past.1
    · exact current.2 txId active past
  persisted :=
    ⟨sound.persisted.1, Nat.le_succ_of_le sound.persisted.2⟩
  stamped := sound.stamped
  deleted := by
    intro row record stored stampedRow foreign
    have creator := sound.deleted row record stored stampedRow foreign
    refine ⟨?_, creator.2⟩
    intro active
    rcases Finset.mem_insert.mp active with fresh | active
    · have assigned := (sound.stamped row record stored).2.1
      rw [fresh] at assigned
      exact Nat.not_lt.mpr sound.persisted.2 assigned
    · exact creator.1 active

/-- Storing or closing a session is sound when a stored one owns a current snapshot. -/
theorem setSession
    (sound : Sound state)
    {txId : Nat}
    {session : Option Session}
    (owned :
      ∀ opened ∈ session,
        opened.snapshot.ownTx = some txId ∧
          txId ∈ state.tx.inFlight ∧
          opened.snapshot.nextTx ≤ state.tx.nextTxId ∧
          ∀ other ∈ state.tx.inFlight, ¬ opened.snapshot.Past other) :
    Sound (state.setSession txId session) :=
  { sound with
    session := by
      intro other found running
      by_cases same : other = txId
      · subst same
        simp only [State.setSession, Function.update_self] at running
        exact ⟨(owned found running).1, (owned found running).2.1⟩
      · simp only [State.setSession, Function.update_of_ne same] at running
        exact sound.session other found running
    current := by
      intro snapshot inUse
      rcases inUse with reader | ⟨other, found, running, rfl⟩
      · exact sound.current snapshot (.inl reader)
      · by_cases same : other = txId
        · subst same
          simp only [State.setSession, Function.update_self] at running
          exact (owned found running).2.2
        · simp only [State.setSession, Function.update_of_ne same] at running
          exact sound.current _ (.inr ⟨other, found, running, rfl⟩) }

theorem openReader (sound : Sound state) :
    Sound { state with readers := state.tx.snapshot none :: state.readers } :=
  { sound with
    reader := by
      intro snapshot member
      rcases List.mem_cons.mp member with rfl | member
      · rfl
      · exact sound.reader snapshot member
    current := by
      intro snapshot inUse
      rcases inUse with member | opened
      · rcases List.mem_cons.mp member with rfl | member
        · exact ⟨Nat.le_refl _, fun _ active past => past.2 active⟩
        · exact sound.current snapshot (.inl member)
      · exact sound.current snapshot (.inr opened) }

theorem closeReader
    (sound : Sound state)
    (snapshot : Snapshot) :
    Sound { state with readers := state.readers.erase snapshot } :=
  { sound with
    reader := fun other member =>
      sound.reader other (List.mem_of_mem_erase member)
    current := by
      intro other inUse
      exact sound.current other (inUse.imp_left List.mem_of_mem_erase) }

theorem resolve
    (sound : Sound state)
    {txId : Nat}
    (active : txId ∈ state.tx.inFlight)
    (outcome : Status) :
    Sound (state.resolve txId outcome) where
  firstId := sound.firstId
  assigned := fun other member =>
    sound.assigned other (Finset.mem_of_mem_erase member)
  session := by
    intro other found running
    by_cases same : other = txId
    · simp [State.resolve, State.setSession, same] at running
    · simp only [State.resolve, State.setSession,
        Function.update_of_ne same] at running
      have owned := sound.session other found running
      exact ⟨owned.1, Finset.mem_erase.mpr ⟨same, owned.2⟩⟩
  reader := sound.reader
  current := by
    intro snapshot inUse
    have earlier : state.InUse snapshot := by
      rcases inUse with reader | ⟨other, found, running, rfl⟩
      · exact .inl reader
      · by_cases same : other = txId
        · simp [State.resolve, State.setSession, same] at running
        · simp only [State.resolve, State.setSession,
            Function.update_of_ne same] at running
          exact .inr ⟨other, found, running, rfl⟩
    have current := sound.current snapshot earlier
    exact ⟨current.1, fun other member =>
      current.2 other (Finset.mem_of_mem_erase member)⟩
  persisted := sound.persisted
  stamped := sound.stamped
  deleted := by
    intro row record stored stampedRow foreign
    have creator := sound.deleted row record stored stampedRow foreign
    have different : record.txMin ≠ txId := by
      rintro same
      exact creator.1 (same ▸ active)
    exact ⟨fun member => creator.1 (Finset.mem_of_mem_erase member),
      (Clog.status_append_other different).trans creator.2⟩

/-- A statement stamps only rows whose creator its snapshot sees, and its own. -/
theorem exec
    (sound : Sound state)
    {txId : Nat}
    {session : Session}
    {tombstones : List RowKey}
    {inserts : List (RowKey × Values)}
    (running : state.session txId = some session)
    (updatable :
      ∀ row ∈ tombstones, state.updatable session.snapshot row = true) :
    Sound { state with
      persistedNextTxId := state.tx.nextTxId
      rows := State.written state.rows txId tombstones inserts } := by
  have owned := sound.session txId session running
  have assigned := sound.assigned txId owned.2
  refine { sound with
    persisted := ⟨sound.firstId, Nat.le_refl _⟩
    stamped := ?_
    deleted := ?_ }
  · intro row record found
    rcases written_cases found with
      ⟨_, earlier, stored, rfl⟩ | ⟨values, _, rfl⟩ | stored
    · have bounds := sound.stamped row earlier stored
      exact ⟨bounds.1, Nat.lt_of_lt_of_le bounds.2.1 sound.persisted.2,
        assigned.2⟩
    · exact ⟨assigned.1, assigned.2, sound.firstId⟩
    · have bounds := sound.stamped row record stored
      exact ⟨bounds.1, Nat.lt_of_lt_of_le bounds.2.1 sound.persisted.2,
        Nat.lt_of_lt_of_le bounds.2.2 sound.persisted.2⟩
  · intro row record found stampedRow foreign
    rcases written_cases found with
      ⟨deleted, earlier, stored, rfl⟩ | ⟨values, _, rfl⟩ | stored
    · obtain ⟨_, present, visible, _⟩ :=
        updatable_iff.mp (updatable row deleted)
      obtain rfl := Option.some.inj (stored.symm.trans present)
      rcases Snapshot.created_iff.mp (Snapshot.visible_iff.mp visible).1 with
        own | zero | seen
      · rw [owned.1] at own
        exact (foreign (Option.some.inj own).symm).elim
      · exact absurd zero (Nat.pos_iff_ne_zero.mp
          (sound.stamped row earlier stored).1)
      · refine ⟨fun active => ?_, seen.1⟩
        exact (sound.current session.snapshot
          (.inr ⟨txId, session, running, rfl⟩)).2 _ active seen.2
    · exact (stampedRow rfl).elim
    · exact sound.deleted row record stored stampedRow foreign

theorem step
    {action : Action Values}
    (sound : Sound state)
    (stepped : Statements.step state action = some next) :
    Sound next := by
  cases step_effect stepped with
  | beginWrite => exact sound.beginWrite
  | pin active _ =>
      apply sound.setSession
      intro opened member
      obtain rfl := Option.mem_some_iff.mp member
      exact ⟨rfl, active, Nat.le_refl _, fun _ other past => past.2 other⟩
  | openReader => exact sound.openReader
  | closeReader => exact sound.closeReader _
  | exec running updatable _ => exact sound.exec running updatable
  | fail running =>
      apply sound.setSession
      intro opened member
      obtain rfl := Option.mem_some_iff.mp member
      have owned := sound.session _ _ running
      exact ⟨owned.1, owned.2,
        sound.current _ (.inr ⟨_, _, running, rfl⟩)⟩
  | commit running =>
      exact sound.resolve (sound.session _ _ running).2 _
  | rollback running =>
      exact sound.resolve (sound.session _ _ running).2 _

end Sound

end PrehniteDB.Statements
