import PrehniteDB.ConnectionRuns

namespace PrehniteDB.Constraints

open ConnectionCalls (Session)
open ReadPaths (Reader)

/-!
# One step of a connection

`Advanced` lists what a step of a running `DELETE` can do and `Turn` what a step
of the connection can do.  Each keeps the invariant of a run; with it comes what
the step makes of the two views.
-/

section Advance

variable
  (catalog : Catalog)
  (realLiteral : UInt64 → Except Error Literal)
  (session : Session)

/-- What acting on one foreign key can do: nothing, start a nested `DELETE`, or run an `UPDATE`. -/
inductive Acted
    (reference : Reference)
    (value : Value)
    (store : Store) : Store → List Task → Prop where
  | unreferenced
      (probed :
        reference.onDelete = .restrict ∨
          reference.onDelete = .setNull ∧ reference.column.notNull = true)
      (unheld : scanChildForFkValue store reference value = false) :
      Acted reference value store store []
  | cascaded
      {literal : Literal}
      {candidates : List (Nat × Record)}
      (action : reference.onDelete = .cascade)
      (literalOf : sqlLiteral realLiteral value = .ok literal)
      (collected :
        collectCandidates (writingReader session) (store reference.child.name)
          (chooseAccess reference.child reference.childIdx literal.indexed) =
            .ok candidates) :
      Acted reference value store store
        [.deleteRows reference.child
          (fun row => literal.selects (column row reference.childIdx)) candidates]
  | nulled
      {literal : Literal}
      {next : Store}
      (action : reference.onDelete = .setNull)
      (literalOf : sqlLiteral realLiteral value = .ok literal)
      (updated :
        update catalog (writingReader session) reference.child.name
          (.ok (setNull reference literal)) store = .ok next) :
      Acted reference value store next []

/-- What one step of a running `DELETE` can do. -/
inductive Advanced (store : Store) : List Task → Store → List Task → Prop where
  | exhausted
      {schema : Schema}
      {filter : Row → Except Error Bool}
      {rest : List Task} :
      Advanced store (.deleteRows schema filter [] :: rest) store rest
  | skipped
      {schema : Schema}
      {filter : Row → Except Error Bool}
      {candidate : Nat × Record}
      {later : List (Nat × Record)}
      {rest : List Task}
      (unselected : filter candidate.2.values = .ok false) :
      Advanced store (.deleteRows schema filter (candidate :: later) :: rest)
        store (.deleteRows schema filter later :: rest)
  | entered
      {schema : Schema}
      {filter : Row → Except Error Bool}
      {candidate : Nat × Record}
      {later : List (Nat × Record)}
      {rest : List Task} :
      Advanced store (.deleteRows schema filter (candidate :: later) :: rest)
        store
        (.actions schema candidate (catalog.childrenReferencing schema) ::
          .deleteRows schema filter later :: rest)
  | deleted
      {schema : Schema}
      {candidate : Nat × Record}
      {rest : List Task} :
      Advanced store (.actions schema candidate [] :: rest)
        (Function.update store schema.name
          (tombstone (writingTx session) candidate (store schema.name))) rest
  | acted
      {schema : Schema}
      {candidate : Nat × Record}
      {reference : Reference}
      {later : List Reference}
      {rest : List Task}
      {next : Store}
      {nested : List Task}
      (action :
        Acted catalog realLiteral session reference
          (column candidate.2.values reference.parentIdx) store next nested) :
      Advanced store (.actions schema candidate (reference :: later) :: rest)
        next (nested ++ .actions schema candidate later :: rest)

variable {catalog realLiteral session}

theorem applyParentDeleteAction_cases
    {parent : Schema}
    {values : Row}
    {reference : Reference}
    {store next : Store}
    {nested : List Task}
    (outcome :
      applyParentDeleteAction catalog realLiteral (writingReader session) parent values
        reference store = .ok (next, nested)) :
    Acted catalog realLiteral session reference
      (column values reference.parentIdx) store next nested := by
  unfold applyParentDeleteAction at outcome
  cases action : reference.onDelete with
  | restrict =>
      simp only [action] at outcome
      split at outcome
      · cases outcome
      · next unheld =>
        obtain ⟨rfl, rfl⟩ := Prod.mk.inj (Except.ok.inj outcome)
        exact .unreferenced (.inl action) (Bool.eq_false_iff.mpr unheld)
  | cascade =>
      simp only [action] at outcome
      cases literalOf : sqlLiteral realLiteral (column values reference.parentIdx) with
      | error error =>
          rw [literalOf] at outcome
          cases outcome
      | ok literal =>
          rw [literalOf] at outcome
          cases collected :
              collectCandidates (writingReader session) (store reference.child.name)
                (chooseAccess reference.child reference.childIdx literal.indexed) with
          | error failure =>
              simp only [collected] at outcome
              cases outcome
          | ok candidates =>
              simp only [collected] at outcome
              obtain ⟨rfl, rfl⟩ := Prod.mk.inj (Except.ok.inj outcome)
              exact .cascaded action literalOf collected
  | setNull =>
      simp only [action] at outcome
      split at outcome
      · next notNull =>
        split at outcome
        · cases outcome
        · next unheld =>
          obtain ⟨rfl, rfl⟩ := Prod.mk.inj (Except.ok.inj outcome)
          exact .unreferenced (.inr ⟨action, notNull⟩) (Bool.eq_false_iff.mpr unheld)
      · cases literalOf : sqlLiteral realLiteral (column values reference.parentIdx) with
        | error error =>
            rw [literalOf] at outcome
            cases outcome
        | ok literal =>
            rw [literalOf] at outcome
            cases updated :
                update catalog (writingReader session) reference.child.name
                  (.ok (setNull reference literal)) store with
            | error failure =>
                simp only [updated] at outcome
                cases outcome
            | ok final =>
                simp only [updated] at outcome
                obtain ⟨rfl, rfl⟩ := Prod.mk.inj (Except.ok.inj outcome)
                exact .nulled action literalOf updated

theorem advance_cases
    {store next : Store}
    {stack later : List Task}
    (nonempty : stack ≠ [])
    (outcome :
      advance catalog realLiteral (writingReader session) (writingTx session) store
        stack = .ok (next, later)) :
    Advanced catalog realLiteral session store stack next later := by
  cases stack with
  | nil => exact absurd rfl nonempty
  | cons task rest =>
      cases task with
      | deleteRows schema filter candidates =>
          cases candidates with
          | nil =>
              obtain ⟨rfl, rfl⟩ := Prod.mk.inj (Except.ok.inj outcome)
              exact .exhausted
          | cons candidate others =>
              simp only [advance] at outcome
              cases selected : filter candidate.2.values with
              | error error =>
                  rw [selected] at outcome
                  cases outcome
              | ok truth =>
                  rw [selected] at outcome
                  cases truth with
                  | false =>
                      obtain ⟨rfl, rfl⟩ := Prod.mk.inj (Except.ok.inj outcome)
                      exact .skipped selected
                  | true =>
                      cases conflict :
                          checkWriteWriteConflict candidate.2
                            (writingReader session).snapshot
                            (writingReader session).clog with
                      | error error =>
                          simp only [conflict] at outcome
                          cases outcome
                      | ok _ =>
                          simp only [conflict] at outcome
                          obtain ⟨rfl, rfl⟩ := Prod.mk.inj (Except.ok.inj outcome)
                          exact .entered
      | actions schema candidate references =>
          cases references with
          | nil =>
              obtain ⟨rfl, rfl⟩ := Prod.mk.inj (Except.ok.inj outcome)
              exact .deleted
          | cons reference others =>
              simp only [advance] at outcome
              cases action :
                  applyParentDeleteAction catalog realLiteral (writingReader session)
                    schema candidate.2.values reference store with
              | error failure =>
                  rw [action] at outcome
                  cases outcome
              | ok done =>
                  rw [action] at outcome
                  obtain ⟨rfl, rfl⟩ := Prod.mk.inj (Except.ok.inj outcome)
                  exact .acted (applyParentDeleteAction_cases action)

end Advance

/-! ## Work on the trees -/

/-- What the transaction's own work keeps: the trees are whole, and nothing committed has changed. -/
structure Worked
    (catalog : Catalog)
    (session : Session)
    (before after : Store) : Prop where
  stored : ∀ schema ∈ catalog.tables, Stored schema (after schema.name)
  wrote :
    ∀ table,
      Wrote (committedReader session) (writingTx session) (before table) (after table)

namespace Worked

variable
  {catalog : Catalog}
  {session : Session}
  {before after : Store}

theorem refl
    (stored : ∀ schema ∈ catalog.tables, Stored schema (before schema.name)) :
    Worked catalog session before before :=
  ⟨stored, fun _ => .refl _⟩

theorem update
    (stored : ∀ schema ∈ catalog.tables, Stored schema (before schema.name))
    {schema : Schema}
    {trees : Trees}
    (listed : schema ∈ catalog.tables)
    (here : Stored schema trees)
    (wrote :
      Wrote (committedReader session) (writingTx session) (before schema.name) trees) :
    Worked catalog session before (Function.update before schema.name trees) where
  stored := by
    intro other member
    by_cases same : other.name = schema.name
    · obtain rfl : other = schema :=
        List.inj_on_of_nodup_map catalog.named member listed same
      rw [Function.update_self]
      exact here
    · rw [Function.update_of_ne same]
      exact stored other member
  wrote := by
    intro table
    by_cases same : table = schema.name
    · subst same
      rw [Function.update_self]
      exact wrote
    · rw [Function.update_of_ne same]
      exact .refl _

theorem of_edited
    {schema : Schema}
    {changes : List Change}
    (stored : ∀ schema ∈ catalog.tables, Stored schema (before schema.name))
    (edited : Edited catalog session schema changes before after) :
    Worked catalog session before after := by
  obtain ⟨trees, rfl, written⟩ := edited.written
  exact .update stored edited.listed written.stored written.wrote

theorem committed (worked : Worked catalog session before after) :
    Store.view after (committedReader session) =
      Store.view before (committedReader session) :=
  funext fun table => (worked.wrote table).contents

theorem consistent
    (worked : Worked catalog session before after)
    {bound : Nat}
    (below : writingTx session < bound)
    (consistent : Consistent catalog bound before) :
    Consistent catalog bound after where
  stored := worked.stored
  stamped table := (worked.wrote table).stamped bound below (consistent.stamped table)

theorem pending
    (worked : Worked catalog session before after)
    {stack : List Task}
    (pending :
      Pending catalog (committedReader session) (writingTx session) before stack) :
    Pending catalog (committedReader session) (writingTx session) after stack := by
  intro task here
  obtain ⟨listed, writable, references⟩ := pending task here
  exact ⟨listed,
    fun candidate member => (worked.wrote _).writable candidate (writable candidate member),
    references⟩

end Worked

/-! ## What the transaction sees of its work -/

section Own

variable
  {catalog : Catalog}
  {session : Session}
  {schema : Schema}
  {store next : Store}

theorem view_update
    (store : Store)
    (table : String)
    (trees : Trees)
    (reader : Reader) :
    Store.view (Function.update store table trees) reader =
      Function.update (Store.view store reader) table (trees.contents reader) := by
  funext other
  by_cases same : other = table
  · subst same
    simp only [Store.view, Function.update_self]
  · simp only [Store.view, Function.update_of_ne same]

/-- An `INSERT` or `UPDATE` leaves the rows it has not replaced and its new ones. -/
theorem Edited.own
    {changes : List Change}
    (edited : Edited catalog session schema changes store next) :
    ∃ rows : Contents,
      Store.view next (writingReader session) =
          Function.update (Store.view store (writingReader session)) schema.name rows ∧
        rows.map Prod.snd =
          produced (Store.view store (writingReader session) schema.name) changes := by
  obtain ⟨trees, rfl, written⟩ := edited.written
  obtain ⟨added, values, -, contents⟩ := written.contents
  refine ⟨_, view_update _ _ _ _, ?_⟩
  rw [contents, List.map_append, values]
  rfl

theorem deleted_own
    {candidate : Nat × Record}
    (calm : Calm session)
    (stored : Stored schema (store schema.name))
    (writable :
      Writable (committedReader session) (writingTx session) (store schema.name)
        candidate) :
    Store.view
        (Function.update store schema.name
          (tombstone (writingTx session) candidate (store schema.name)))
        (writingReader session) =
      Function.update (Store.view store (writingReader session)) schema.name
        ((Store.view store (writingReader session) schema.name).filter fun row =>
          row.1 ≠ candidate.1) := by
  rw [view_update, (calm.writer.tombstoned stored writable).2.2]
  rfl

end Own

section Pending

variable
  {catalog : Catalog}
  {realLiteral : UInt64 → Except Error Literal}
  {session : Session}
  {bound : Nat}
  {store next : Store}

theorem Acted.worked
    {schema : Schema}
    {reference : Reference}
    {value : Value}
    {nested : List Task}
    (action : Acted catalog realLiteral session reference value store next nested)
    (calm : Calm session)
    (consistent : Consistent catalog session.tx.nextTxId store)
    (foreign : reference ∈ catalog.childrenReferencing schema) :
    Worked catalog session store next ∧
      Pending catalog (committedReader session) (writingTx session) next nested := by
  have child := (mem_childrenReferencing.mp foreign).1
  cases action with
  | unreferenced => exact ⟨.refl consistent.stored, nofun⟩
  | cascaded action literalOf collected =>
      refine ⟨.refl consistent.stored, fun task here => ?_⟩
      obtain rfl := List.mem_singleton.mp here
      refine ⟨child, fun candidate member => ?_, List.nil_subset _⟩
      obtain ⟨present, seen⟩ :=
        (collectCandidates_spec (consistent.stored _ child) collected).1 candidate member
      exact calm.writer.writable present seen
  | nulled action literalOf updated =>
      obtain ⟨_, _, _, _, _, _, _, edited⟩ := update_ok calm consistent updated
      exact ⟨.of_edited consistent.stored edited, nofun⟩

/-- A step of a running `DELETE` is work of its transaction. -/
theorem Advanced.worked
    {stack later : List Task}
    (advanced : Advanced catalog realLiteral session store stack next later)
    (calm : Calm session)
    (consistent : Consistent catalog session.tx.nextTxId store)
    (pending :
      Pending catalog (committedReader session) (writingTx session) store stack) :
    Worked catalog session store next ∧
      Pending catalog (committedReader session) (writingTx session) next later := by
  cases advanced with
  | exhausted =>
      exact ⟨.refl consistent.stored, (List.forall_mem_cons.mp pending).2⟩
  | skipped =>
      obtain ⟨top, below⟩ := List.forall_mem_cons.mp pending
      refine ⟨.refl consistent.stored, List.forall_mem_cons.mpr ⟨?_, below⟩⟩
      exact ⟨top.1, (List.forall_mem_cons.mp top.2.1).2, List.nil_subset _⟩
  | entered =>
      obtain ⟨top, below⟩ := List.forall_mem_cons.mp pending
      obtain ⟨candidate, others⟩ := List.forall_mem_cons.mp top.2.1
      refine ⟨.refl consistent.stored,
        List.forall_mem_cons.mpr ⟨?_, List.forall_mem_cons.mpr ⟨?_, below⟩⟩⟩
      · exact ⟨top.1, List.forall_mem_singleton.mpr candidate, List.Subset.refl _⟩
      · exact ⟨top.1, others, List.nil_subset _⟩
  | deleted =>
      obtain ⟨top, below⟩ := List.forall_mem_cons.mp pending
      obtain ⟨kept, wrote, -⟩ :=
        calm.writer.tombstoned (consistent.stored _ top.1)
          (List.forall_mem_singleton.mp top.2.1)
      have worked := Worked.update consistent.stored top.1 kept wrote
      exact ⟨worked, worked.pending below⟩
  | acted action =>
      obtain ⟨top, below⟩ := List.forall_mem_cons.mp pending
      obtain ⟨foreign, others⟩ := List.cons_subset.mp top.2.2
      obtain ⟨worked, nested⟩ := action.worked calm consistent foreign
      refine ⟨worked, List.forall_mem_append.mpr ⟨nested, ?_⟩⟩
      exact List.forall_mem_cons.mpr
        ⟨⟨top.1, (worked.pending pending _ List.mem_cons_self).2.1, others⟩,
          worked.pending below⟩

end Pending

/-! ## The connection -/

/-- What one step of a connection can do. -/
inductive Turn
    (catalog : Catalog)
    (realLiteral : UInt64 → Except Error Literal)
    (state : State)
    (surroundings : Surroundings) : Action → State → Prop where
  | controlled
      {action : Action}
      {session : Session}
      (idle : state.running = none)
      (moved : Controlled state.session session) :
      Turn catalog realLiteral state surroundings action
        { state with session := session }
  | failed
      {action : Action}
      {saved : Store}
      (back :
        state.running = none ∧ saved = state.store ∨
          ∃ running, state.running = some running ∧ saved = running.saved) :
      Turn catalog realLiteral state surroundings action
        (state.failed surroundings saved)
  | inserted
      {table : String}
      {rows : List (Except Error Row)}
      {store : Store}
      (idle : state.running = none)
      (outcome : insert catalog state.reader table rows state.store = .ok store) :
      Turn catalog realLiteral state surroundings (.insert table rows)
        (state.finished surroundings store)
  | updated
      {table : String}
      {prepared : Except Error Update}
      {store : Store}
      (idle : state.running = none)
      (outcome : update catalog state.reader table prepared state.store = .ok store) :
      Turn catalog realLiteral state surroundings (.update table prepared)
        (state.finished surroundings store)
  | started
      {table : String}
      {prepared : Except Error Delete}
      {schema : Schema}
      {filter : Row → Except Error Bool}
      {access : AccessPath}
      {candidates : List (Nat × Record)}
      (idle : state.running = none)
      (got : catalog.get table = some schema)
      (collected :
        collectCandidates state.reader (state.store table) access = .ok candidates) :
      Turn catalog realLiteral state surroundings (.delete table prepared)
        { session := state.session.ensureWriteTx
          store := state.store
          running :=
            some {
              saved := state.store
              stack := [.deleteRows schema filter candidates] } }
  | advanced
      {running : Running}
      {store : Store}
      {stack : List Task}
      (underWay : state.running = some running)
      (step :
        Advanced catalog realLiteral state.session state.store running.stack store stack) :
      Turn catalog realLiteral state surroundings .advance
        { state with
          store := store
          running := some { running with stack := stack } }
  | finished
      {running : Running}
      (underWay : state.running = some running)
      (done : running.stack = []) :
      Turn catalog realLiteral state surroundings .advance
        (state.finished surroundings state.store)

section Turns

variable
  {catalog : Catalog}
  {realLiteral : UInt64 → Except Error Literal}
  {state next : State}
  {surroundings : Surroundings}

theorem State.accepts_idle (accepts : state.accepts = true) : state.running = none :=
  Option.isNone_iff_eq_none.mp ((Bool.and_eq_true _ _).mp accepts).1

theorem delete_ok
    {table : String}
    {prepared : Except Error Delete}
    {reader : Reader}
    {store : Store}
    {stack : List Task}
    (outcome : delete catalog reader table prepared store = .ok stack) :
    ∃ schema access filter candidates,
      catalog.get table = some schema ∧
        collectCandidates reader (store table) access = .ok candidates ∧
        stack = [.deleteRows schema filter candidates] := by
  unfold delete openTable at outcome
  cases got : catalog.get table with
  | none =>
      rw [got] at outcome
      cases outcome
  | some schema =>
      rw [got] at outcome
      cases own : reader.snapshot.ownTx with
      | none =>
          rw [own] at outcome
          cases outcome
      | some txId =>
          rw [own] at outcome
          cases prepared with
          | error error => cases outcome
          | ok delete =>
              cases collected :
                  collectCandidates reader (store table) delete.access with
              | error failure =>
                  simp only [collected] at outcome
                  cases outcome
              | ok candidates =>
                  simp only [collected] at outcome
                  exact ⟨schema, delete.access, delete.filter, candidates, rfl, collected,
                    (Except.ok.inj outcome).symm⟩

/-- Every step is one of these. -/
theorem Sound.turn
    (sound : Sound catalog state)
    {action : Action}
    (stepped : state.step catalog realLiteral (action, surroundings) = some next) :
    Turn catalog realLiteral state surroundings action next := by
  have settled {outcome : Except Failure Store}
      (idle : state.running = none)
      (ok :
        ∀ store, outcome = .ok store →
          Turn catalog realLiteral state surroundings action
            (state.finished surroundings store)) :
      Turn catalog realLiteral state surroundings action
        (state.settled surroundings outcome) := by
    cases outcome with
    | error failure => exact .failed (.inl ⟨idle, rfl⟩)
    | ok store => exact ok store rfl
  cases action with
  | begin =>
      obtain ⟨enabled, same⟩ := Option.ite_none_right_eq_some.mp stepped
      obtain rfl := Option.some.inj same
      have idle := Option.isNone_iff_eq_none.mp enabled
      exact .controlled idle (.beginTransaction sound.calm (sound.idle idle))
  | commit =>
      obtain ⟨enabled, same⟩ := Option.ite_none_right_eq_some.mp stepped
      obtain rfl := Option.some.inj same
      have idle := Option.isNone_iff_eq_none.mp enabled
      exact .controlled idle (.commitTransaction sound.calm (sound.idle idle) surroundings)
  | rollback =>
      obtain ⟨enabled, same⟩ := Option.ite_none_right_eq_some.mp stepped
      obtain rfl := Option.some.inj same
      have idle := Option.isNone_iff_eq_none.mp enabled
      exact .controlled idle
        (.rollbackTransaction sound.calm (sound.idle idle) surroundings)
  | insert table rows =>
      obtain ⟨accepts, same⟩ := Option.ite_none_right_eq_some.mp stepped
      obtain rfl := Option.some.inj same
      have idle := State.accepts_idle accepts
      exact settled idle fun store outcome => .inserted idle outcome
  | update table prepared =>
      obtain ⟨accepts, same⟩ := Option.ite_none_right_eq_some.mp stepped
      obtain rfl := Option.some.inj same
      have idle := State.accepts_idle accepts
      exact settled idle fun store outcome => .updated idle outcome
  | delete table prepared =>
      obtain ⟨accepts, same⟩ := Option.ite_none_right_eq_some.mp stepped
      have idle := State.accepts_idle accepts
      cases outcome : delete catalog state.reader table prepared state.store with
      | error failure =>
          rw [outcome] at same
          obtain rfl := Option.some.inj same
          exact .failed (.inl ⟨idle, rfl⟩)
      | ok stack =>
          rw [outcome] at same
          obtain rfl := Option.some.inj same
          obtain ⟨schema, access, filter, candidates, got, collected, rfl⟩ :=
            delete_ok outcome
          exact .started idle got collected
  | advance =>
      cases underWay : state.running with
      | none =>
          simp only [State.step, underWay] at stepped
          cases stepped
      | some running =>
          have own : state.reader.snapshot.ownTx = some (writingTx state.session) :=
            Calm.writing_ownTx state.session
          simp only [State.step, underWay, own] at stepped
          by_cases done : running.stack = []
          · rw [if_pos (List.isEmpty_iff.mpr done)] at stepped
            obtain rfl := Option.some.inj stepped
            exact .finished underWay done
          · rw [if_neg (mt List.isEmpty_iff.mp done)] at stepped
            cases outcome :
                advance catalog realLiteral state.reader (writingTx state.session)
                  state.store running.stack with
            | error failure =>
                rw [outcome] at stepped
                obtain rfl := Option.some.inj stepped
                exact .failed (.inr ⟨running, underWay, rfl⟩)
            | ok after =>
                rw [outcome] at stepped
                obtain rfl := Option.some.inj stepped
                exact .advanced underWay (advance_cases done outcome)

/-! ## The invariant and the views -/

/-- The views of the next state are what was committed, or the connection's work. -/
structure Follows (state : State) (worked : Store) (next : State) : Prop where
  committed :
    next.committed = state.committed ∨
      next.committed = Store.view worked (writingReader state.session)
  own :
    next.own = state.committed ∨
      next.own = Store.view worked (writingReader state.session)

theorem Consistent.later
    {bound later : Nat}
    {store : Store}
    (consistent : Consistent catalog bound store)
    (below : bound ≤ later) :
    Consistent catalog later store where
  stored := consistent.stored
  stamped table row listed :=
    have stamps := consistent.stamped table row listed
    ⟨Nat.lt_of_lt_of_le stamps.1 below, Nat.lt_of_lt_of_le stamps.2 below⟩

/-- Rowids that stay taken leave the trees whole. -/
theorem Consistent.gaps
    {bound : Nat}
    {store : Store}
    (consistent : Consistent catalog bound store)
    (gaps : String → Nat) :
    Consistent catalog bound fun table =>
      { store table with nextRowid := (store table).nextRowid + gaps table } where
  stored schema listed :=
    have stored := consistent.stored schema listed
    ⟨stored.rowids,
      fun row here => Nat.lt_of_lt_of_le (stored.bounded row here) (Nat.le_add_right _ _),
      stored.indexed⟩
  stamped table := consistent.stamped table

theorem Sound.controlled
    {session : Session}
    (sound : Sound catalog state)
    (idle : state.running = none)
    (moved : Controlled state.session session) :
    Sound catalog { state with session := session } ∧
      Follows state state.store { state with session := session } := by
  constructor
  · exact {
      calm := moved.calm
      consistent := sound.consistent.later moved.nextTxId
      idle := fun _ => moved.idle
      running := by
        intro running underWay
        rw [idle] at underWay
        cases underWay }
  · have derived := moved.derived state.store sound.consistent.stamped
    exact ⟨derived.committed, derived.own⟩

/-- A failure goes back to what is committed. -/
theorem Sound.failed
    {saved : Store}
    (sound : Sound catalog state)
    (surroundings : Surroundings)
    (back :
      state.running = none ∧ saved = state.store ∨
        ∃ running, state.running = some running ∧ saved = running.saved) :
    Sound catalog (state.failed surroundings saved) ∧
      (state.failed surroundings saved).committed = state.committed ∧
      (state.failed surroundings saved).own = state.committed := by
  have kept :
      Consistent catalog state.session.tx.nextTxId saved ∧
        Store.view saved (committedReader state.session) = state.committed := by
    rcases back with ⟨-, rfl⟩ | ⟨running, underWay, rfl⟩
    · exact ⟨sound.consistent, rfl⟩
    · exact (sound.running running underWay).2.imp_right And.left
  obtain ⟨calm, later, ended, views⟩ := sound.calm.abandon surroundings
  obtain ⟨committed, own⟩ := views saved kept.1.stamped
  refine ⟨?_, committed.trans kept.2, own.trans kept.2⟩
  exact {
    calm := calm
    consistent := (kept.1.gaps surroundings.gaps).later later
    idle := fun _ _ => ended
    running := nofun }

theorem writingTx_lt
    {session : Session}
    (calm : Calm session) :
    writingTx session < session.ensureWriteTx.tx.nextTxId :=
  (calm.ensureWriteTx.own _ (Calm.ownTx_ensureWriteTx session)).2.1

/-- A statement that has done its work ends, or stays open with its transaction. -/
theorem Sound.finished
    {store : Store}
    (sound : Sound catalog state)
    (surroundings : Surroundings)
    (worked : Worked catalog state.session state.store store) :
    Sound catalog (state.finished surroundings store) ∧
      Follows state store (state.finished surroundings store) := by
  obtain ⟨calm, later, -, ended, views⟩ := sound.calm.settle surroundings
  have consistent :
      Consistent catalog state.session.ensureWriteTx.tx.nextTxId store :=
    worked.consistent (writingTx_lt sound.calm)
      (sound.consistent.later (nextTxId_ensureWriteTx _))
  have derived := views store consistent.stamped
  constructor
  · exact {
      calm := calm
      consistent := consistent.later later
      idle := fun _ => ended
      running := nofun }
  · exact ⟨derived.committed.imp_left fun same => same.trans worked.committed,
      derived.own.imp_left fun same => same.trans worked.committed⟩

/-- A `DELETE` takes its id and its candidates and has changed nothing yet. -/
theorem Sound.started
    {stack : List Task}
    (sound : Sound catalog state)
    (pending :
      Pending catalog (committedReader state.session) (writingTx state.session)
        state.store stack) :
    let next : State := {
      session := state.session.ensureWriteTx
      store := state.store
      running := some { saved := state.store, stack := stack } }
    Sound catalog next ∧ next.committed = state.committed ∧ next.own = state.own := by
  intro next
  have own : writingTx state.session.ensureWriteTx = writingTx state.session := by
    rw [writingTx, Calm.ownTx_ensureWriteTx]
    rfl
  have same :=
    sound.calm.views_same sound.calm.ensureWriteTx (Calm.clog_ensureWriteTx _) own
  have sees :
      ∀ record : Record,
        (committedReader state.session.ensureWriteTx).sees record =
          (committedReader state.session).sees record := by
    intro record
    refine Bool.eq_iff_iff.mpr ?_
    rw [sound.calm.committed_sees, sound.calm.ensureWriteTx.committed_sees,
      Calm.clog_ensureWriteTx]
  have consistent :=
    sound.consistent.later (nextTxId_ensureWriteTx state.session)
  refine ⟨?_, same state.store⟩
  exact {
    calm := sound.calm.ensureWriteTx
    consistent := consistent
    idle := by rintro ⟨⟩
    running := by
      intro running underWay
      obtain rfl := Option.some.inj underWay
      refine ⟨⟨_, Calm.ownTx_ensureWriteTx _⟩, consistent, rfl, ?_⟩
      intro task here
      obtain ⟨listed, writable, references⟩ := pending task here
      refine ⟨listed, fun candidate member => ?_, references⟩
      obtain ⟨current, present, txMin, values, unseen⟩ := writable candidate member
      refine ⟨current, present, txMin, values, ?_⟩
      change (committedReader state.session.ensureWriteTx).sees
          { current with txMax := writingTx state.session.ensureWriteTx } =
        (committedReader state.session.ensureWriteTx).sees current
      rw [sees, sees, own]
      exact unseen }

/-- The candidates of a top-level `DELETE` can be written. -/
theorem Sound.pending_started
    {table : String}
    {schema : Schema}
    {filter : Row → Except Error Bool}
    {access : AccessPath}
    {candidates : List (Nat × Record)}
    (sound : Sound catalog state)
    (got : catalog.get table = some schema)
    (collected :
      collectCandidates state.reader (state.store table) access = .ok candidates) :
    Pending catalog (committedReader state.session) (writingTx state.session)
      state.store [.deleteRows schema filter candidates] := by
  obtain ⟨listed, rfl⟩ := Catalog.get_name got
  refine List.forall_mem_singleton.mpr ⟨listed, fun candidate member => ?_,
    List.nil_subset _⟩
  obtain ⟨present, seen⟩ :=
    (collectCandidates_spec (sound.consistent.stored _ listed) collected).1
      candidate member
  exact sound.calm.writer.writable present seen

/-- A step of a running `DELETE` changes what its own transaction sees. -/
theorem Sound.advanced
    {running : Running}
    {store : Store}
    {stack : List Task}
    (sound : Sound catalog state)
    (underWay : state.running = some running)
    (worked : Worked catalog state.session state.store store)
    (pending :
      Pending catalog (committedReader state.session) (writingTx state.session)
        store stack) :
    let next : State := {
      state with
      store := store
      running := some { running with stack := stack } }
    Sound catalog next ∧ next.committed = state.committed ∧
      next.own = Store.view store (writingReader state.session) := by
  intro next
  obtain ⟨⟨id, current⟩, saved, back, -⟩ := sound.running running underWay
  have below : writingTx state.session < state.session.tx.nextTxId := by
    rw [writingTx, current]
    exact (sound.calm.own id current).2.1
  refine ⟨?_, worked.committed, rfl⟩
  exact {
    calm := sound.calm
    consistent := worked.consistent below sound.consistent
    idle := by rintro ⟨⟩
    running := by
      intro other same
      obtain rfl := Option.some.inj same
      exact ⟨⟨id, current⟩, saved, back.trans worked.committed.symm, pending⟩ }

theorem Sound.initial (catalog : Catalog) (nextTxId : Nat) :
    Sound catalog (initial nextTxId) where
  calm := .fresh nextTxId
  consistent := ⟨fun _ _ => .empty, nofun⟩
  idle _ _ := rfl
  running := nofun

end Turns

end PrehniteDB.Constraints
