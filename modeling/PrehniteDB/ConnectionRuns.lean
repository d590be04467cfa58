import PrehniteDB.StatementWrites

namespace PrehniteDB.Constraints

open ConnectionCalls (Session Answers)
open FailedStatements (snapshotForStatement)
open ReadPaths (Reader)

/-!
# Runs of one connection

Whatever the connection does, two views of its tables are enough to follow it:
what is committed, and what its own transaction sees.  Work changes the second
only; a commit copies it over the first, and a failure or a `ROLLBACK` copies the
first over it.
-/

/-- What a reader sees of every table. -/
abbrev View := String → Contents

def Store.view (store : Store) (reader : Reader) : View :=
  fun table => (store table).contents reader

namespace State

/-- What is committed. -/
def committed (state : State) : View :=
  Store.view state.store (committedReader state.session)

/-- What the connection's own transaction sees. -/
def own (state : State) : View :=
  Store.view state.store (writingReader state.session)

end State

namespace Task

/-- The table a task deletes from. -/
def schema : Task → Schema
  | .deleteRows schema _ _ | .actions schema _ _ => schema

/-- The rows a task has still to delete. -/
def candidates : Task → List (Nat × Record)
  | .deleteRows _ _ candidates => candidates
  | .actions _ candidate _ => [candidate]

/-- The foreign keys a task has still to act on. -/
def references : Task → List Reference
  | .deleteRows _ _ _ => []
  | .actions _ _ references => references

end Task

/-- Trees at a row boundary, stamped with ids already handed out. -/
structure Consistent (catalog : Catalog) (bound : Nat) (store : Store) : Prop where
  stored :
    ∀ schema ∈ catalog.tables, Stored schema (store schema.name)
  stamped : ∀ table, (store table).Stamped bound

/-- Every row a running `DELETE` has still to delete can be written. -/
def Pending
    (catalog : Catalog)
    (committed : Reader)
    (txId : Nat)
    (store : Store)
    (stack : List Task) : Prop :=
  ∀ task ∈ stack,
    task.schema ∈ catalog.tables ∧
      (∀ candidate ∈ task.candidates,
        Writable committed txId (store task.schema.name) candidate) ∧
      task.references ⊆ catalog.childrenReferencing task.schema

/-- The invariant of a run. -/
structure Sound (catalog : Catalog) (state : State) : Prop where
  calm : Calm state.session
  consistent : Consistent catalog state.session.tx.nextTxId state.store
  idle :
    state.running = none →
    state.session.db.txn = .none →
    state.session.db.currentTx = none
  running :
    ∀ running, state.running = some running →
      (∃ id, state.session.db.currentTx = some id) ∧
        Consistent catalog state.session.tx.nextTxId running.saved ∧
        Store.view running.saved (committedReader state.session) = state.committed ∧
        Pending catalog (committedReader state.session)
          (writingTx state.session) state.store running.stack

/-! ## The writer -/

theorem Calm.writer
    {session : Session}
    (calm : Calm session) :
    Writer (writingReader session) (committedReader session) (writingTx session) := by
  obtain ⟨positive, uncommitted⟩ := calm.writingTx_uncommitted
  have hidden : ¬ Counts session.tx.clog none (writingTx session) := by
    rintro (none | zero | committed)
    · cases none
    · exact Nat.ne_of_gt positive zero
    · exact uncommitted committed
  constructor
  · intro values
    exact calm.writing_sees.mpr ⟨.inl rfl, .inl rfl⟩
  · intro txMin values
    refine Bool.eq_false_iff.mpr fun seen => ?_
    rcases (calm.writing_sees.mp seen).2 with zero | own
    · exact Nat.ne_of_gt positive zero
    · exact own (.inl rfl)
  · intro txMax values
    exact Bool.eq_false_iff.mpr fun seen => hidden (calm.committed_sees.mp seen).1
  · intro record seen
    refine Bool.eq_iff_iff.mpr ?_
    rw [calm.committed_sees, calm.committed_sees]
    refine and_congr_right fun _ => ?_
    refine iff_of_true (.inr hidden) ?_
    rcases (calm.writing_sees.mp seen).2 with zero | uncounted
    · exact .inl zero
    · exact .inr fun counted => uncounted (.inr (counted.resolve_left nofun))

/-! ## Views along a session -/

/-- Views agree when the readers count the same of the ids on the rows. -/
theorem view_congr
    {store : Store}
    {reader other : Reader}
    {counts otherCounts : Nat → Prop}
    {bound : Nat}
    (stamped : ∀ table, (store table).Stamped bound)
    (sees : ∀ record : Record, reader.sees record = true ↔ Alive counts record)
    (otherSees : ∀ record : Record, other.sees record = true ↔ Alive otherCounts record)
    (same : ∀ id < bound, counts id ↔ otherCounts id) :
    Store.view store reader = Store.view store other := by
  funext table
  refine contents_congr fun row listed => Bool.eq_iff_iff.mpr ?_
  obtain ⟨created, deleted⟩ := stamped table row listed
  rw [sees, otherSees]
  exact Alive.congr (same _ created) (same _ deleted)

section Sessions

variable {session after : Session} {store : Store} {counted : Nat → Prop}

theorem Ended.views
    {reader : Reader}
    (ended : Ended session after counted)
    (stamped : ∀ table, (store table).Stamped session.tx.nextTxId)
    (sees : ∀ record : Record, reader.sees record = true ↔ Alive counted record) :
    Store.view store (committedReader after) = Store.view store reader ∧
      Store.view store (writingReader after) = Store.view store reader :=
  ⟨view_congr stamped (fun _ => ended.calm.committed_sees) sees ended.committed,
    view_congr stamped (fun _ => ended.calm.writing_sees) sees fun _ assigned =>
      ended.writing assigned⟩

/-- Sessions with one log and one id to write under see the same. -/
theorem Calm.views_same
    (calm : Calm session)
    (calmAfter : Calm after)
    (clog : after.tx.clog = session.tx.clog)
    (own : writingTx after = writingTx session)
    (store : Store) :
    Store.view store (committedReader after) = Store.view store (committedReader session) ∧
      Store.view store (writingReader after) = Store.view store (writingReader session) := by
  constructor
  · funext table
    refine contents_congr fun row _ => Bool.eq_iff_iff.mpr ?_
    rw [calm.committed_sees, calmAfter.committed_sees, clog]
  · funext table
    refine contents_congr fun row _ => Bool.eq_iff_iff.mpr ?_
    rw [calm.writing_sees, calmAfter.writing_sees, clog, own]

/-- Where the two views come from: what was committed, or what the connection's work has made of its own. -/
structure Derived (session after : Session) (store : Store) : Prop where
  committed :
    Store.view store (committedReader after) = Store.view store (committedReader session) ∨
      Store.view store (committedReader after) = Store.view store (writingReader session)
  own :
    Store.view store (writingReader after) = Store.view store (committedReader session) ∨
      Store.view store (writingReader after) = Store.view store (writingReader session)

theorem nextTxId_ensureWriteTx (session : Session) :
    session.tx.nextTxId ≤ session.ensureWriteTx.tx.nextTxId := by
  unfold Session.ensureWriteTx
  cases session.db.currentTx with
  | some id => exact Nat.le_refl _
  | none => exact Nat.le_succ _

theorem txn_ensureWriteTx (session : Session) :
    session.ensureWriteTx.db.txn = session.db.txn := by
  unfold Session.ensureWriteTx
  cases session.db.currentTx with
  | some id => rfl
  | none => rfl

/-- A failed statement takes its transaction back: only what was committed is left. -/
theorem Calm.abandon
    (calm : Calm session)
    (surroundings : Surroundings) :
    let after :=
      ((session.running .delete surroundings.answers).abandon surroundings.answers)
    Calm after ∧
      session.tx.nextTxId ≤ after.tx.nextTxId ∧
      after.db.currentTx = none ∧
      ∀ store : Store,
        (∀ table, (store table).Stamped session.tx.nextTxId) →
        Store.view store (committedReader after) =
            Store.view store (committedReader session) ∧
          Store.view store (writingReader after) =
            Store.view store (committedReader session) := by
  intro after
  have running : Calm (session.running .delete surroundings.answers) :=
    calm.ensureWriteTx.record _
  have aborted :
      Calm {
        session.running .delete surroundings.answers with
        db := {
          (session.running .delete surroundings.answers).db with
          txn :=
            if (session.running .delete surroundings.answers).db.txn = .opened
            then .aborted
            else (session.running .delete surroundings.answers).db.txn } } := by
    refine { running with idle := ?_ }
    intro none
    split at none
    · cases none
    · exact running.idle none
  have ended := Ended.rollbackTx aborted
  have clog :
      (session.running .delete surroundings.answers).tx.clog = session.tx.clog :=
    Calm.clog_ensureWriteTx session
  refine ⟨ended.calm, ?_, ended.idle, fun store stamped => ?_⟩
  · exact Nat.le_trans (nextTxId_ensureWriteTx session) (Nat.le_of_eq ended.nextTxId.symm)
  · refine ended.views ?_ fun record => ?_
    · intro table row listed
      obtain ⟨created, deleted⟩ := stamped table row listed
      have later := nextTxId_ensureWriteTx session
      exact ⟨Nat.lt_of_lt_of_le created later, Nat.lt_of_lt_of_le deleted later⟩
    · rw [calm.committed_sees]
      change Alive (Counts session.tx.clog none) record ↔
        Alive (Counts (session.running .delete surroundings.answers).tx.clog none) record
      rw [clog]

/-- A statement that has run to its end is committed, rolled back as a pivot, or left open. -/
theorem Calm.settle
    (calm : Calm session)
    (surroundings : Surroundings) :
    let after :=
      ((session.running .delete surroundings.answers).settle true
        surroundings.answers).2
    Calm after ∧
      session.ensureWriteTx.tx.nextTxId ≤ after.tx.nextTxId ∧
      after.db.txn = session.db.txn ∧
      (after.db.txn = .none → after.db.currentTx = none) ∧
      ∀ store : Store,
        (∀ table, (store table).Stamped session.ensureWriteTx.tx.nextTxId) →
        Derived session after store := by
  intro after
  have running : Calm (session.running .delete surroundings.answers) :=
    calm.ensureWriteTx.record _
  have clog :
      (session.running .delete surroundings.answers).tx.clog = session.tx.clog :=
    Calm.clog_ensureWriteTx session
  have current :
      (session.running .delete surroundings.answers).db.currentTx =
        some (writingTx session) :=
    Calm.ownTx_ensureWriteTx session
  have txn :
      (session.running .delete surroundings.answers).db.txn = session.db.txn :=
    txn_ensureWriteTx session
  have committedSees (record : Record) :
      (committedReader session).sees record = true ↔
        Alive (Counts
          (session.running .delete surroundings.answers).tx.clog none) record := by
    rw [clog]
    exact calm.committed_sees
  have ownSees (record : Record) :
      (writingReader session).sees record = true ↔
        Alive (Counts
          (session.running .delete surroundings.answers).tx.clog
          (session.running .delete surroundings.answers).db.currentTx) record := by
    rw [clog, current]
    exact calm.writing_sees
  by_cases outside : session.db.txn = .none
  · have here : after =
        ((session.running .delete surroundings.answers).commitTx (.ok ())).2 := by
      change ((session.running .delete surroundings.answers).settle true
        surroundings.answers).2 = _
      unfold Session.settle
      rw [if_pos rfl]
      change (if (session.running .delete surroundings.answers).db.txn = .none ∧ true = true
        then (session.running .delete surroundings.answers).commitTx (.ok ())
        else (.ok (), session.running .delete surroundings.answers)).2 = _
      rw [if_pos ⟨txn.trans outside, rfl⟩]
    have alone := running.idle (txn.trans outside)
    rw [here]
    rcases Ended.commitTx running alone with refused | allowed
    · refine ⟨refused.calm, Nat.le_of_eq refused.nextTxId.symm, refused.txn.trans txn,
        fun _ => refused.idle, fun store stamped => ?_⟩
      obtain ⟨committed, own⟩ := refused.views stamped committedSees
      exact ⟨.inl committed, .inl own⟩
    · refine ⟨allowed.calm, Nat.le_of_eq allowed.nextTxId.symm, allowed.txn.trans txn,
        fun _ => allowed.idle, fun store stamped => ?_⟩
      obtain ⟨committed, own⟩ := allowed.views stamped ownSees
      exact ⟨.inr committed, .inr own⟩
  · have here : after = session.running .delete surroundings.answers := by
      change ((session.running .delete surroundings.answers).settle true
        surroundings.answers).2 = _
      unfold Session.settle
      rw [if_pos rfl]
      change (if (session.running .delete surroundings.answers).db.txn = .none ∧ true = true
        then (session.running .delete surroundings.answers).commitTx (.ok ())
        else (.ok (), session.running .delete surroundings.answers)).2 = _
      rw [if_neg fun both => outside (txn.symm.trans both.1)]
    rw [here]
    refine ⟨running, Nat.le_refl _, txn, fun none => absurd (txn.symm.trans none) outside,
      fun store _ => ?_⟩
    have own :
        writingTx (session.running .delete surroundings.answers) = writingTx session := by
      unfold writingTx
      rw [current]
      rfl
    obtain ⟨committed, own⟩ := calm.views_same running clog own store
    exact ⟨.inl committed, .inr own⟩

/-- Whichever way a transaction control moves the session, no row is touched. -/
structure Controlled (session after : Session) : Prop where
  calm : Calm after
  nextTxId : session.tx.nextTxId ≤ after.tx.nextTxId
  idle : after.db.txn = .none → after.db.currentTx = none
  derived :
    ∀ store : Store,
      (∀ table, (store table).Stamped session.tx.nextTxId) →
      Derived session after store

theorem Controlled.refl
    (calm : Calm session)
    (idle : session.db.txn = .none → session.db.currentTx = none) :
    Controlled session session :=
  ⟨calm, Nat.le_refl _, idle, fun _ _ => ⟨.inl rfl, .inr rfl⟩⟩

theorem Controlled.beginTransaction
    (calm : Calm session)
    (idle : session.db.txn = .none → session.db.currentTx = none) :
    Controlled session session.beginTransaction.2 := by
  by_cases outside : session.db.txn = .none
  · have began := calm.beginTransaction outside
    have own : writingTx session.beginTransaction.2 = writingTx session := by
      unfold Session.beginTransaction writingTx
      rw [if_neg (not_not.mpr outside), idle outside]
      rfl
    have clog : session.beginTransaction.2.tx.clog = session.tx.clog := by
      unfold Session.beginTransaction
      rw [if_neg (not_not.mpr outside)]
      rfl
    refine ⟨began, ?_, ?_, fun store _ => ?_⟩
    · unfold Session.beginTransaction
      rw [if_neg (not_not.mpr outside)]
      exact Nat.le_succ _
    · unfold Session.beginTransaction
      rw [if_neg (not_not.mpr outside)]
      exact nofun
    · obtain ⟨committed, own⟩ := calm.views_same began clog own store
      exact ⟨.inl committed, .inr own⟩
  · have stays : session.beginTransaction.2 = session := by
      unfold Session.beginTransaction
      rw [if_pos outside]
    rw [stays]
    exact .refl calm idle

/-- The end of an explicit transaction, by its commit or its rollback. -/
theorem Controlled.ended
    {counted : Nat → Prop}
    (calm : Calm session)
    (ended : Ended session.closed after counted)
    (outcome :
      counted = Counts session.tx.clog none ∨
        counted = Counts session.tx.clog session.db.currentTx)
    (inside : session.db.currentTx = none ∨
      session.db.currentTx = some (writingTx session)) :
    Controlled session after := by
  refine ⟨ended.calm, Nat.le_of_eq ended.nextTxId.symm, fun _ => ended.idle,
    fun store stamped => ?_⟩
  have committedCase (same : counted = Counts session.tx.clog none) :
      Derived session after store := by
    obtain ⟨committed, own⟩ := ended.views stamped fun record => by
      rw [same]
      exact calm.committed_sees
    exact ⟨.inl committed, .inl own⟩
  rcases outcome with same | same
  · exact committedCase same
  · rcases inside with none | some
    · exact committedCase (none ▸ same)
    · obtain ⟨committed, own⟩ := ended.views stamped fun record => by
        rw [same, some]
        exact calm.writing_sees
      exact ⟨.inr committed, .inr own⟩

theorem currentTx_cases (session : Session) :
    session.db.currentTx = none ∨
      session.db.currentTx = some (writingTx session) := by
  unfold writingTx
  cases session.db.currentTx with
  | none => exact .inl rfl
  | some id => exact .inr rfl

theorem Controlled.rollbackTx
    {result : Except Error Unit}
    (calm : Calm session)
    (outcome : session.closed.rollbackTx (.ok ()) = (result, after)) :
    Controlled session after := by
  have ended := Ended.rollbackTx calm.closed
  rw [outcome] at ended
  exact .ended calm ended (.inl rfl) (currentTx_cases session)

theorem Controlled.commitTx
    {result : Except Error Unit}
    (calm : Calm session)
    (outcome : session.closed.commitTx (.ok ()) = (result, after)) :
    Controlled session after := by
  have ended := Ended.commitTx calm.closed rfl
  rw [outcome] at ended
  rcases ended with refused | allowed
  · exact .ended calm refused (.inl rfl) (currentTx_cases session)
  · exact .ended calm allowed (.inr rfl) (currentTx_cases session)

theorem Controlled.commitTransaction
    (calm : Calm session)
    (idle : session.db.txn = .none → session.db.currentTx = none)
    (surroundings : Surroundings) :
    Controlled session (session.commitTransaction surroundings.answers).2 := by
  unfold Session.commitTransaction
  cases txn : session.db.txn with
  | none => exact .refl calm idle
  | opened =>
      cases outcome : session.closed.commitTx surroundings.answers.logged with
      | mk result done =>
          have controlled := Controlled.commitTx calm outcome
          cases result <;> exact controlled
  | aborted =>
      cases outcome : session.closed.rollbackTx surroundings.answers.logged with
      | mk result done =>
          have controlled := Controlled.rollbackTx calm outcome
          cases result <;> exact controlled

theorem Controlled.rollbackTransaction
    (calm : Calm session)
    (idle : session.db.txn = .none → session.db.currentTx = none)
    (surroundings : Surroundings) :
    Controlled session (session.rollbackTransaction surroundings.answers).2 := by
  unfold Session.rollbackTransaction
  split
  case isTrue => exact .refl calm idle
  case isFalse =>
    cases outcome : session.closed.rollbackTx surroundings.answers.logged with
    | mk result done =>
        have controlled := Controlled.rollbackTx calm outcome
        cases result <;> exact controlled

end Sessions

/-! ## Statements -/

section Statements

variable
  {catalog : Catalog}
  {session : Session}
  {schema : Schema}
  {store next : Store}

/-- What one statement has made of the store. -/
structure Edited
    (catalog : Catalog)
    (session : Session)
    (schema : Schema)
    (changes : List Change)
    (store next : Store) : Prop where
  listed : schema ∈ catalog.tables
  written :
    ∃ trees,
      next = Function.update store schema.name trees ∧
        Written schema (writingReader session) (committedReader session)
          (writingTx session) changes (store schema.name) trees
  accepted : ¬ Refused schema.indexes (store schema.name).Holds changes

theorem writeAdmitted_cases
    (calm : Calm session)
    (listed : schema ∈ catalog.tables)
    (stored : Stored schema (store schema.name))
    {changes : List Change}
    (writable :
      ∀ change ∈ changes, ∀ candidate ∈ change.old,
        Writable (committedReader session) (writingTx session)
          (store schema.name) candidate)
    (failure : Option Failure) :
    (∃ index ∈ schema.indexes,
        Refused [index] (store schema.name).Holds changes ∧
          writeAdmitted schema (writingTx session) changes failure store =
            .error (.duplicateKey index.name schema.name)) ∨
      (¬ Refused schema.indexes (store schema.name).Holds changes ∧
        ∃ reason,
          failure = some reason ∧
            writeAdmitted schema (writingTx session) changes failure store =
              .error reason) ∨
      (failure = none ∧
        ∃ next,
          writeAdmitted schema (writingTx session) changes failure store = .ok next ∧
            Edited catalog session schema changes store next) := by
  rcases calm.writer.writeAll_cases (catalog.indexed schema listed)
      (catalog.single schema listed) stored writable with
    ⟨index, here, refused, outcome⟩ | ⟨accepted, trees, outcome, written⟩
  · refine .inl ⟨index, here, refused, ?_⟩
    simp only [writeAdmitted, outcome]
  · cases failure with
    | some reason =>
        refine .inr (.inl ⟨accepted, reason, rfl, ?_⟩)
        simp only [writeAdmitted, outcome]
    | none =>
        refine .inr (.inr ⟨rfl, Function.update store schema.name trees, ?_,
          listed, ⟨trees, rfl, written⟩, accepted⟩)
        simp only [writeAdmitted, outcome]

theorem openTable_writing
    {statement table : String}
    (got : catalog.get table = some schema) :
    openTable catalog (writingReader session) statement table =
      .ok (schema, writingTx session) := by
  simp only [openTable, got, Calm.writing_ownTx]

theorem insert_eq
    {table : String}
    (got : catalog.get table = some schema)
    (rows : List (Except Error Row)) :
    insert catalog (writingReader session) table rows store =
      writeAdmitted schema (writingTx session)
        (admitted (insertChange catalog schema store) rows)
        (admissionFailure (insertChange catalog schema store) rows) store := by
  simp only [insert, openTable_writing got]
  exact insertRows_eq (Catalog.get_name got).1 (fun _ _ => rfl) rows

theorem update_eq
    {table : String}
    {update : Update}
    {candidates : List (Nat × Record)}
    (got : catalog.get table = some schema)
    (collected :
      collectCandidates (writingReader session) (store table) update.access =
        .ok candidates) :
    Constraints.update catalog (writingReader session) table (.ok update) store =
      writeAdmitted schema (writingTx session)
        (admitted (updateChange catalog schema (writingReader session) update store)
          candidates)
        (admissionFailure
          (updateChange catalog schema (writingReader session) update store) candidates)
        store := by
  simp only [Constraints.update, openTable_writing got, collected]
  exact updateRows_eq _ update (Catalog.get_name got).1 (fun _ _ => rfl) candidates

theorem insertChange_old
    {evaluated : Except Error Row}
    {change : Change}
    (admission : insertChange catalog schema store evaluated = .ok (some change)) :
    change.old = none ∧ admitInsert catalog schema store evaluated = .ok change.new := by
  unfold insertChange at admission
  cases outcome : admitInsert catalog schema store evaluated with
  | error failure =>
      rw [outcome] at admission
      cases admission
  | ok values =>
      rw [outcome] at admission
      obtain rfl := Option.some.inj (Except.ok.inj admission)
      exact ⟨rfl, rfl⟩

theorem updateChange_old
    {reader : Reader}
    {update : Update}
    {candidate : Nat × Record}
    {change : Change}
    (admission :
      updateChange catalog schema reader update store candidate = .ok (some change)) :
    change.old = some candidate ∧
      admitUpdate catalog schema reader update store candidate.2 =
        .ok (some change.new) := by
  unfold updateChange at admission
  cases outcome : admitUpdate catalog schema reader update store candidate.2 with
  | error failure =>
      rw [outcome] at admission
      cases admission
  | ok found =>
      rw [outcome] at admission
      obtain ⟨new, rfl, rfl⟩ := Option.map_eq_some_iff.mp (Except.ok.inj admission)
      exact ⟨rfl, rfl⟩

theorem writable_inserts
    {committed : Reader}
    {txId : Nat}
    (rows : List (Except Error Row)) :
    ∀ change ∈ admitted (insertChange catalog schema store) rows,
      ∀ candidate ∈ change.old,
        Writable committed txId (store schema.name) candidate := by
  intro change listed candidate old
  obtain ⟨_, -, admission⟩ := mem_admitted listed
  rw [(insertChange_old admission).1] at old
  cases old

theorem writable_updates
    (calm : Calm session)
    (stored : Stored schema (store schema.name))
    {update : Update}
    {candidates : List (Nat × Record)}
    (collected :
      collectCandidates (writingReader session) (store schema.name) update.access =
        .ok candidates) :
    ∀ change ∈
        admitted (updateChange catalog schema (writingReader session) update store)
          candidates,
      ∀ candidate ∈ change.old,
        Writable (committedReader session) (writingTx session)
          (store schema.name) candidate := by
  intro change listed candidate old
  obtain ⟨found, here, admission⟩ := mem_admitted listed
  obtain ⟨own, -⟩ := updateChange_old admission
  obtain rfl : found = candidate := Option.some.inj (own.symm.trans old)
  obtain ⟨present, seen⟩ := (collectCandidates_spec stored collected).1 found here
  exact calm.writer.writable present seen

theorem insert_ok
    {table : String}
    {rows : List (Except Error Row)}
    (calm : Calm session)
    (consistent : Consistent catalog session.tx.nextTxId store)
    (outcome : insert catalog (writingReader session) table rows store = .ok next) :
    ∃ schema,
      catalog.get table = some schema ∧
        admissionFailure (insertChange catalog schema store) rows = none ∧
        Edited catalog session schema
          (admitted (insertChange catalog schema store) rows) store next := by
  cases got : catalog.get table with
  | none =>
      simp [insert, openTable, got] at outcome
  | some schema =>
      have listed := (Catalog.get_name got).1
      rw [insert_eq got] at outcome
      rcases writeAdmitted_cases calm listed (consistent.stored schema listed)
          (writable_inserts rows)
          (admissionFailure (insertChange catalog schema store) rows) with
        ⟨index, -, -, failed⟩ | ⟨-, reason, -, failed⟩ | ⟨none, final, done, edited⟩
      · rw [failed] at outcome
        cases outcome
      · rw [failed] at outcome
        cases outcome
      · obtain rfl : final = next := Except.ok.inj (done.symm.trans outcome)
        exact ⟨schema, rfl, none, edited⟩

theorem update_ok
    {table : String}
    {prepared : Except Error Update}
    (calm : Calm session)
    (consistent : Consistent catalog session.tx.nextTxId store)
    (outcome :
      Constraints.update catalog (writingReader session) table prepared store = .ok next) :
    ∃ schema update candidates,
      catalog.get table = some schema ∧
        prepared = .ok update ∧
        collectCandidates (writingReader session) (store schema.name) update.access =
          .ok candidates ∧
        admissionFailure
            (updateChange catalog schema (writingReader session) update store)
            candidates = none ∧
        Edited catalog session schema
          (admitted (updateChange catalog schema (writingReader session) update store)
            candidates) store next := by
  cases got : catalog.get table with
  | none =>
      simp [Constraints.update, openTable, got] at outcome
  | some schema =>
      obtain ⟨listed, rfl⟩ := Catalog.get_name got
      cases prepared with
      | error error =>
          simp [Constraints.update, openTable_writing got] at outcome
      | ok update =>
          cases collected :
              collectCandidates (writingReader session) (store schema.name)
                update.access with
          | error failure =>
              simp [Constraints.update, openTable_writing got, collected] at outcome
          | ok candidates =>
              rw [update_eq got collected] at outcome
              have stored := consistent.stored schema listed
              rcases writeAdmitted_cases calm listed stored
                  (writable_updates calm stored collected)
                  (admissionFailure
                    (updateChange catalog schema (writingReader session) update store)
                    candidates) with
                ⟨index, -, -, failed⟩ | ⟨-, reason, -, failed⟩ |
                  ⟨none, final, done, edited⟩
              · rw [failed] at outcome
                cases outcome
              · rw [failed] at outcome
                cases outcome
              · obtain rfl : final = next := Except.ok.inj (done.symm.trans outcome)
                exact ⟨schema, update, candidates, rfl, rfl, collected, none, edited⟩

end Statements

end PrehniteDB.Constraints
