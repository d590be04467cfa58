import PrehniteDB.UniqueValues

namespace PrehniteDB.Constraints

open ConnectionCalls (Session)
open ReadPaths (Reader)
open TransitionRun (Harmable HarmlessRun Run replay run_of_replay)

/-!
# Duplicates along a run

In every run whose statements write truthful values, no two rows a transaction
sees share a value in a unique column, and the next such statement is rejected
for a duplicate exactly when its rows would hold one.
-/

/-! ## What a statement writes -/

/-- The table an `INSERT` or `UPDATE` writes and its changes, up to a row that fails another check. -/
def writes (catalog : Catalog) (state : State) :
    Action → Option (Schema × List Change)
  | .insert table rows =>
      (catalog.get table).map fun schema =>
        (schema, admitted (insertChange catalog schema state.store) rows)
  | .update table prepared =>
      match catalog.get table, prepared with
      | some schema, .ok update =>
          match collectCandidates state.reader (state.store schema.name) update.access with
          | .ok candidates =>
              some (schema,
                admitted (updateChange catalog schema state.reader update state.store)
                  candidates)
          | .error _ => none
      | _, _ => none
  | _ => none

/-- What an `INSERT` or `UPDATE` answers. -/
def answer (catalog : Catalog) (state : State) :
    Action → Option (Except Failure Store)
  | .insert table rows =>
      some (insert catalog state.reader table rows state.store)
  | .update table prepared =>
      some (update catalog state.reader table prepared state.store)
  | _ => none

/-- Rejected for a duplicate in the index. -/
def Rejected
    (catalog : Catalog)
    (state : State)
    (action : Action)
    (index table : String) : Prop :=
  answer catalog state action = some (.error (.duplicateKey index table))

/-- A statement is rejected for exactly the duplicates its rows would hold. -/
structure Enforced (catalog : Catalog) (state : State) (action : Action) : Prop where
  rejected :
    ∀ schema changes,
      writes catalog state action = some (schema, changes) →
      ¬ Distinct schema (produced (state.own schema.name) changes) →
      ∃ index, Rejected catalog state action index schema.name
  duplicate :
    ∀ name table,
      Rejected catalog state action name table →
      ∃ schema changes,
        writes catalog state action = some (schema, changes) ∧ schema.name = table ∧
          ∃ index ∈ schema.indexes, index.name = name ∧
            ∃ position, index.columns = [position] ∧
              ¬ DistinctAt position (produced (state.own schema.name) changes)

/-- No two rows of a view share a value in a unique column. -/
def Unique (catalog : Catalog) (view : View) : Prop :=
  ∀ schema ∈ catalog.tables, Distinct schema ((view schema.name).map Prod.snd)

/-- The values the statement writes are truthful. -/
def Met (catalog : Catalog) (state : State) (action : Action) : Prop :=
  ∀ schema changes,
    writes catalog state action = some (schema, changes) →
    Truthful schema (state.store schema.name).Holds (state.own schema.name) changes

/-! ## Where the changes come from -/

theorem replacedRowids_insert
    {catalog : Catalog}
    {schema : Schema}
    {store : Store}
    (rows : List (Except Error Row)) :
    replacedRowids (admitted (insertChange catalog schema store) rows) = [] := by
  refine List.filterMap_eq_nil_iff.mpr fun change listed => ?_
  obtain ⟨_, -, admission⟩ := mem_admitted listed
  rw [(insertChange_old admission).1]
  rfl

theorem replacedRowids_update
    {catalog : Catalog}
    {schema : Schema}
    {reader : Reader}
    {update : Update}
    {store : Store}
    (candidates : List (Nat × Record)) :
    (replacedRowids
        (admitted (updateChange catalog schema reader update store) candidates)).Sublist
      (candidates.map Prod.fst) := by
  induction candidates with
  | nil => exact .slnil
  | cons candidate rest inductionHypothesis =>
      unfold admitted
      cases admission : updateChange catalog schema reader update store candidate with
      | error failure => exact List.nil_sublist _
      | ok found =>
          cases found with
          | none => exact inductionHypothesis.cons _
          | some change =>
              have first : change.old.map Prod.fst = some candidate.1 := by
                rw [(updateChange_old admission).1]
                rfl
              simp only [replacedRowids, List.filterMap_cons, first, List.map_cons]
              exact inductionHypothesis.cons_cons _

section Statements

variable
  {catalog : Catalog}
  {state : State}
  {action : Action}
  {schema : Schema}
  {changes : List Change}

theorem rowids_contents
    {reader : Reader}
    {trees : Trees}
    (stored : Stored schema trees) :
    ((trees.contents reader).map Prod.fst).Nodup := by
  unfold Trees.contents
  rw [List.map_map]
  exact stored.rowids.sublist (List.filter_sublist.map _)

theorem holds_contents
    {reader : Reader}
    {trees : Trees} :
    ∀ row ∈ trees.contents reader, ∀ position,
      trees.Holds position (column row.2 position) := by
  rintro ⟨rowid, values⟩ listed position
  obtain ⟨record, here, -, rfl⟩ := mem_contents.mp listed
  exact ⟨_, here, rfl⟩

theorem drawn_insert
    {reader : Reader}
    {store : Store}
    (stored : Stored schema (store schema.name))
    (rows : List (Except Error Row)) :
    Drawn (Store.view store reader schema.name)
      (admitted (insertChange catalog schema store) rows) := by
  refine ⟨rowids_contents stored, fun change here candidate old => ?_, ?_⟩
  · obtain ⟨_, -, admission⟩ := mem_admitted here
    rw [(insertChange_old admission).1] at old
    cases old
  · rw [replacedRowids_insert]
    exact List.nodup_nil

theorem drawn_update
    {reader : Reader}
    {store : Store}
    {update : Update}
    {candidates : List (Nat × Record)}
    (stored : Stored schema (store schema.name))
    (collected :
      collectCandidates reader (store schema.name) update.access = .ok candidates) :
    Drawn (Store.view store reader schema.name)
      (admitted (updateChange catalog schema reader update store) candidates) := by
  obtain ⟨visible, once⟩ := collectCandidates_spec stored collected
  refine ⟨rowids_contents stored, fun change here candidate old => ?_,
    once.sublist (replacedRowids_update candidates)⟩
  obtain ⟨row, member, admission⟩ := mem_admitted here
  obtain rfl : row = candidate :=
    Option.some.inj ((updateChange_old admission).1.symm.trans old)
  obtain ⟨present, seen⟩ := visible row member
  exact mem_contents.mpr ⟨row.2, present, seen, rfl⟩

/-- What a statement is about to write, and how it goes. -/
theorem writes_spec
    (sound : Sound catalog state)
    (found : writes catalog state action = some (schema, changes)) :
    schema ∈ catalog.tables ∧
      Drawn (state.own schema.name) changes ∧
      (∀ change ∈ changes, ∀ candidate ∈ change.old,
        Writable (committedReader state.session) (writingTx state.session)
          (state.store schema.name) candidate) ∧
      ∃ failure,
        answer catalog state action =
          some (writeAdmitted schema (writingTx state.session) changes failure
            state.store) ∧
        ∀ index table, failure ≠ some (.duplicateKey index table) := by
  cases action with
  | insert table rows =>
      obtain ⟨_, got, same⟩ := Option.map_eq_some_iff.mp found
      obtain ⟨rfl, rfl⟩ := Prod.mk.inj same
      have listed := (Catalog.get_name got).1
      have stored := sound.consistent.stored _ listed
      exact ⟨listed, drawn_insert stored rows, writable_inserts rows, _,
        congrArg some (insert_eq got rows),
        admissionFailure_plain (fun _ _ => insertChange_plain) rows⟩
  | update table prepared =>
      simp only [writes] at found
      cases got : catalog.get table with
      | none =>
          simp only [got] at found
          cases found
      | some table =>
          cases prepared with
          | error error =>
              simp only [got] at found
              cases found
          | ok update =>
              simp only [got] at found
              cases collected :
                  collectCandidates state.reader (state.store table.name)
                    update.access with
              | error failure =>
                  rw [collected] at found
                  cases found
              | ok candidates =>
                  rw [collected] at found
                  obtain ⟨rfl, rfl⟩ := Prod.mk.inj (Option.some.inj found)
                  obtain ⟨listed, rfl⟩ := Catalog.get_name got
                  have stored := sound.consistent.stored _ listed
                  exact ⟨listed, drawn_update stored collected,
                    writable_updates sound.calm stored collected, _,
                    congrArg some (update_eq got collected),
                    admissionFailure_plain (fun _ _ => updateChange_plain) candidates⟩
  | begin | commit | rollback | delete | advance => cases found

theorem collectCandidates_error
    {reader : Reader}
    {trees : Trees}
    {access : AccessPath}
    {failure : Failure}
    (failed : collectCandidates reader trees access = .error failure) :
    ∃ error, failure = .other error := by
  have walk :
      ∀ (entries : List (List UInt8 × Nat)) (seen : List Nat),
        indexCandidates reader trees seen entries = .error failure →
        ∃ error, failure = .other error := by
    intro entries
    induction entries with
    | nil => exact nofun
    | cons entry rest inductionHypothesis =>
        intro seen failed
        unfold indexCandidates at failed
        split at failed
        · exact inductionHypothesis seen failed
        · cases found : trees.search entry.2 with
          | none =>
              simp only [found] at failed
              exact ⟨_, (Except.error.inj failed).symm⟩
          | some record =>
              simp only [found] at failed
              cases later : indexCandidates reader trees (entry.2 :: seen) rest with
              | error reason =>
                  rw [later] at failed
                  obtain rfl : reason = failure := Except.error.inj failed
                  exact inductionHypothesis _ later
              | ok others =>
                  rw [later] at failed
                  cases failed
  cases access with
  | fullScan => cases failed
  | indexScan index lower upper => exact walk _ _ failed

theorem Rejected.writes
    {name table : String}
    (rejected : Rejected catalog state action name table) :
    ∃ schema changes, Constraints.writes catalog state action = some (schema, changes) := by
  cases action with
  | insert target rows =>
      cases got : catalog.get target with
      | none =>
          simp [Rejected, answer, insert, openTable, got] at rejected
      | some schema => exact ⟨schema, _, by simp only [Constraints.writes, got]; rfl⟩
  | update target prepared =>
      have own : state.reader.snapshot.ownTx = some (writingTx state.session) :=
        Calm.writing_ownTx state.session
      cases got : catalog.get target with
      | none =>
          simp [Rejected, answer, update, openTable, got] at rejected
      | some schema =>
          obtain ⟨-, rfl⟩ := Catalog.get_name got
          cases prepared with
          | error error =>
              simp [Rejected, answer, update, openTable, got, own] at rejected
          | ok update =>
              cases collected :
                  collectCandidates state.reader (state.store schema.name)
                    update.access with
              | error failure =>
                  obtain ⟨_, rfl⟩ := collectCandidates_error collected
                  simp [Rejected, answer, Constraints.update, openTable, got, own,
                    collected] at rejected
              | ok candidates =>
                  exact ⟨schema, _, by simp only [Constraints.writes, got, collected]; rfl⟩
  | begin | commit | rollback | delete | advance => cases rejected

theorem Truthful.distinct
    (truthful :
      Truthful schema (state.store schema.name).Holds (state.own schema.name) changes)
    (drawn : Drawn (state.own schema.name) changes)
    (unique : Unique catalog state.own)
    (listed : schema ∈ catalog.tables)
    (accepted : ¬ Refused schema.indexes (state.store schema.name).Holds changes) :
    Distinct schema (produced (state.own schema.name) changes) :=
  fun position here =>
    drawn.distinct (unique schema listed position here) fun _ _ _ split =>
      truthful.settles drawn listed holds_contents accepted here split

theorem enforced_of_met
    (sound : Sound catalog state)
    (unique : Unique catalog state.own)
    (met : Met catalog state action) :
    Enforced catalog state action := by
  constructor
  · intro schema changes found clash
    obtain ⟨listed, drawn, writable, failure, answered, -⟩ := writes_spec sound found
    have truthful := met schema changes found
    have distinct := truthful.distinct drawn unique listed
    rcases writeAdmitted_cases sound.calm listed (sound.consistent.stored _ listed)
        writable failure with
      ⟨index, -, -, outcome⟩ | ⟨accepted, -⟩ | ⟨-, next, -, edited⟩
    · exact ⟨index.name, answered.trans (congrArg some outcome)⟩
    · exact absurd (distinct accepted) clash
    · exact absurd (distinct edited.accepted) clash
  · intro name table rejected
    obtain ⟨schema, changes, found⟩ := rejected.writes
    obtain ⟨listed, drawn, writable, failure, answered, plain⟩ := writes_spec sound found
    have outcome :
        writeAdmitted schema (writingTx state.session) changes failure state.store =
          .error (.duplicateKey name table) :=
      Option.some.inj (answered.symm.trans rejected)
    rcases writeAdmitted_cases sound.calm listed (sound.consistent.stored _ listed)
        writable failure with
      ⟨index, here, refused, failed⟩ | ⟨-, reason, same, failed⟩ | ⟨-, next, done, -⟩
    · rw [failed] at outcome
      obtain ⟨rfl, rfl⟩ := Failure.duplicateKey.inj (Except.error.inj outcome)
      exact ⟨schema, changes, found, rfl, index, here, rfl,
        (met schema changes found).clash listed here refused⟩
    · rw [failed] at outcome
      exact absurd (same.trans (congrArg some (Except.error.inj outcome))) (plain _ _)
    · rw [done] at outcome
      cases outcome

end Statements

/-! ## What the transaction sees afterwards -/

section Views

variable
  {catalog : Catalog}
  {realLiteral : UInt64 → Except Error Literal}
  {session : Session}
  {schema : Schema}
  {changes : List Change}
  {store next : Store}

/-- A table with distinct rows again leaves the view without duplicates. -/
theorem Unique.update
    {view : View}
    (unique : Unique catalog view)
    (listed : schema ∈ catalog.tables)
    {rows : Contents}
    (distinct : Distinct schema (rows.map Prod.snd)) :
    Unique catalog (Function.update view schema.name rows) := by
  intro other member
  by_cases same : other.name = schema.name
  · obtain rfl : other = schema :=
      List.inj_on_of_nodup_map catalog.named member listed same
    rw [Function.update_self]
    exact distinct
  · rw [Function.update_of_ne same]
    exact unique other member

theorem column_set
    (values : Row)
    (position other : Nat) :
    column (values.set position .null) other = .null ∨
      column (values.set position .null) other = column values other := by
  unfold column
  by_cases same : other = position
  · left
    subst same
    by_cases inside : other < values.length
    · simp [List.getD, inside]
    · simp [List.getD, Nat.le_of_not_lt inside]
  · right
    simp [List.getD, List.getElem?_set_ne (Ne.symm same)]

/-- A nested `UPDATE` to NULL leaves every row its value or none. -/
theorem settles_setNull
    {reference : Reference}
    {literal : Literal}
    {candidates : List (Nat × Record)}
    {own : Contents}
    {before : List Change}
    {change : Change}
    (listed :
      change ∈ admitted
        (updateChange catalog schema (writingReader session) (setNull reference literal)
          store) candidates)
    (position : Nat) :
    Settles own before change position := by
  obtain ⟨candidate, -, admission⟩ := mem_admitted listed
  obtain ⟨old, admission⟩ := updateChange_old admission
  obtain ⟨-, assigned, -⟩ := admitUpdate_ok admission
  have new : candidate.2.values.set reference.childIdx .null = change.new :=
    Except.ok.inj assigned
  rw [Settles, ← new]
  exact (column_set _ _ _).imp_right fun same => .inl ⟨candidate, old, same⟩

theorem Advanced.unique
    {stack later : List Task}
    (advanced : Advanced catalog realLiteral session store stack next later)
    (calm : Calm session)
    (consistent : Consistent catalog session.tx.nextTxId store)
    (pending :
      Pending catalog (committedReader session) (writingTx session) store stack)
    (unique : Unique catalog (Store.view store (writingReader session))) :
    Unique catalog (Store.view next (writingReader session)) := by
  cases advanced with
  | exhausted => exact unique
  | skipped => exact unique
  | entered => exact unique
  | @deleted schema candidate rest =>
      obtain ⟨top, -⟩ := List.forall_mem_cons.mp pending
      have listed : schema ∈ catalog.tables := top.1
      have writable :
          Writable (committedReader session) (writingTx session) (store schema.name)
            candidate :=
        List.forall_mem_singleton.mp top.2.1
      rw [deleted_own calm (consistent.stored schema listed) writable]
      exact unique.update listed fun position here =>
        (unique _ listed position here).sublist (List.filter_sublist.map _)
  | acted action =>
      cases action with
      | unreferenced => exact unique
      | cascaded => exact unique
      | nulled onDelete literalOf updated =>
          obtain ⟨child, _, candidates, -, same, collected, -, edited⟩ :=
            update_ok calm consistent updated
          obtain rfl := Except.ok.inj same
          obtain ⟨rows, view, values⟩ := edited.own
          rw [view]
          refine unique.update edited.listed fun position here => ?_
          rw [values]
          refine Drawn.distinct
            (drawn_update (consistent.stored _ edited.listed) collected)
            (unique _ edited.listed position here) fun before change after split => ?_
          have member :
              change ∈ admitted
                (updateChange catalog child (writingReader session) (setNull _ _) store)
                candidates :=
            split ▸ List.mem_append_right _ List.mem_cons_self
          exact settles_setNull member position

end Views

/-! ## Runs -/

section Runs

variable
  {catalog : Catalog}
  {realLiteral : UInt64 → Except Error Literal}
  {state next : State}
  {action : Action}
  {surroundings : Surroundings}

/-- Neither what is committed nor what the connection sees holds a duplicate. -/
def Undoubled (catalog : Catalog) (state : State) : Prop :=
  Unique catalog state.committed ∧ Unique catalog state.own

theorem Follows.undoubled
    {worked : Store}
    (follows : Follows state worked next)
    (committed : Unique catalog state.committed)
    (own : Unique catalog (Store.view worked (writingReader state.session))) :
    Undoubled catalog next := by
  constructor
  · rcases follows.committed with same | same <;> rw [same] <;> assumption
  · rcases follows.own with same | same <;> rw [same] <;> assumption

/-- A statement that is through has left distinct rows. -/
theorem Unique.edited
    {store : Store}
    (sound : Sound catalog state)
    (unique : Unique catalog state.own)
    (met : Met catalog state action)
    {schema : Schema}
    {changes : List Change}
    (found : writes catalog state action = some (schema, changes))
    (edited : Edited catalog state.session schema changes state.store store) :
    Unique catalog (Store.view store (writingReader state.session)) := by
  obtain ⟨listed, drawn, -⟩ := writes_spec sound found
  obtain ⟨rows, view, values⟩ := edited.own
  rw [view]
  refine unique.update listed ?_
  rw [values]
  exact (met schema changes found).distinct drawn unique listed edited.accepted

theorem Turn.undoubled
    (turn : Turn catalog realLiteral state surroundings action next)
    (sound : Sound catalog state)
    (undoubled : Undoubled catalog state)
    (met : Met catalog state action) :
    Sound catalog next ∧ Undoubled catalog next := by
  obtain ⟨committed, own⟩ := undoubled
  cases turn with
  | controlled idle moved =>
      obtain ⟨after, follows⟩ := sound.controlled idle moved
      exact ⟨after, follows.undoubled committed own⟩
  | failed back =>
      obtain ⟨after, sameCommitted, sameOwn⟩ := sound.failed surroundings back
      exact ⟨after, sameCommitted ▸ committed, sameOwn ▸ committed⟩
  | inserted idle outcome =>
      obtain ⟨schema, got, -, edited⟩ := insert_ok sound.calm sound.consistent outcome
      obtain ⟨after, follows⟩ :=
        sound.finished surroundings (.of_edited sound.consistent.stored edited)
      refine ⟨after, follows.undoubled committed (own.edited sound met ?_ edited)⟩
      simp only [writes, got, Option.map_some]
  | updated idle outcome =>
      obtain ⟨schema, update, candidates, got, rfl, collected, -, edited⟩ :=
        update_ok sound.calm sound.consistent outcome
      obtain ⟨after, follows⟩ :=
        sound.finished surroundings (.of_edited sound.consistent.stored edited)
      refine ⟨after, follows.undoubled committed (own.edited sound met ?_ edited)⟩
      have collectedHere :
          collectCandidates state.reader (state.store schema.name) update.access =
            .ok candidates :=
        collected
      simp only [writes, got, collectedHere]
      rfl
  | started idle got collected =>
      obtain ⟨after, sameCommitted, sameOwn⟩ := sound.started (sound.pending_started got collected)
      exact ⟨after, sameCommitted ▸ committed, sameOwn ▸ own⟩
  | advanced underWay step =>
      have pending := (sound.running _ underWay).2.2.2
      obtain ⟨worked, later⟩ := step.worked sound.calm sound.consistent pending
      obtain ⟨after, sameCommitted, sameOwn⟩ := sound.advanced underWay worked later
      refine ⟨after, sameCommitted ▸ committed, sameOwn ▸ ?_⟩
      exact step.unique sound.calm sound.consistent pending own
  | finished underWay done =>
      obtain ⟨after, follows⟩ :=
        sound.finished surroundings (.refl sound.consistent.stored)
      exact ⟨after, follows.undoubled committed own⟩

end Runs

/-! ## A freed value -/

instance (trees : Trees) (position : Nat) (value : Value) :
    Decidable (trees.Holds position value) :=
  inferInstanceAs (Decidable (∃ _ ∈ trees.rows, _))

/-- A statement that writes one row. -/
theorem met_single
    {catalog : Catalog}
    {state : State}
    {action : Action}
    {schema : Schema}
    {change : Change}
    (found : writes catalog state action = some (schema, [change]))
    (live :
      ∀ position ∈ schema.uniqueColumns,
        (state.store schema.name).Holds position (column change.new position) →
        ∃ values ∈ kept (state.own schema.name) [change],
          column values position = column change.new position)
    (agree :
      ∀ position ∈ schema.uniqueColumns,
        ∀ values ∈ (state.own schema.name).map Prod.snd,
          Agree (column values position) (column change.new position)) :
    Met catalog state action := by
  intro other changes here
  obtain ⟨rfl, rfl⟩ := Prod.mk.inj (Option.some.inj (found.symm.trans here))
  have alone {before after : List Change} {only : Change}
      (split : [change] = before ++ only :: after) :
      before = [] ∧ only = change ∧ after = [] := by
    cases before with
    | nil =>
        obtain ⟨rfl, rfl⟩ := List.cons.inj split
        exact ⟨rfl, rfl, rfl⟩
    | cons first rest => simp at split
  constructor
  · intro before only after split position unique checked held
    obtain ⟨rfl, rfl, rfl⟩ := alone split
    obtain ⟨values, member, same⟩ := live position unique held
    exact ⟨values, List.mem_append_left _ member, same⟩
  · intro before only after split position unique values listed
    obtain ⟨rfl, rfl, rfl⟩ := alone split
    exact agree position unique values (by simpa using listed)

theorem met_of_writes_none
    {catalog : Catalog}
    {state : State}
    {action : Action}
    (nothing : writes catalog state action = none) :
    Met catalog state action := by
  intro schema changes found
  rw [nothing] at found
  cases found

/-- `CREATE TABLE users (id INT PRIMARY KEY)`. -/
def users : Catalog where
  tables := [{
    name := "users"
    columns := [{ name := "id", notNull := true, foreignKey := none }]
    indexes := [{ name := "_pk_users", columns := [0], unique := true }] }]
  created := fun _ => 0
  named := by decide
  indexed := by decide
  single := by
    intro schema listed index here _
    obtain rfl := List.mem_singleton.mp listed
    obtain rfl := List.mem_singleton.mp here
    exact ⟨0, rfl⟩
  older := by
    intro schema listed column here key foreign
    obtain rfl := List.mem_singleton.mp listed
    obtain rfl := List.mem_singleton.mp here
    cases foreign
  resolved := by
    intro schema listed column here key foreign
    obtain rfl := List.mem_singleton.mp listed
    obtain rfl := List.mem_singleton.mp here
    cases foreign

def unread (_ : UInt64) : Except Error Literal :=
  .error (.parse "no REAL is printed here")

def quiet (action : Action) : Action × Surroundings :=
  (action, { recorded := fun _ => .default, gaps := fun _ => 0 })

def insertId (number : Int64) : Action :=
  .insert "users" [.ok [.int number]]

def deleteAll : Action :=
  .delete "users" (.ok { access := .fullScan, filter := fun _ => .ok true })

/-- The user 1 is inserted and deleted again. -/
def insertAndDelete : List (Action × Surroundings) :=
  [insertId 1, deleteAll, .advance, .advance, .advance, .advance].map quiet

end PrehniteDB.Constraints
