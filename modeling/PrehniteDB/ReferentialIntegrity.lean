import PrehniteDB.DeleteActions

namespace PrehniteDB.Constraints

open ConnectionCalls (Session)
open ReadPaths (Reader)
open TransitionRun (Harmable HarmlessRun Run replay run_of_replay)

/-!
# Foreign keys along a run

In every run whose statements meet no version left over on its own, neither what
is committed nor what the connection sees holds an orphan, and a parent row is
refused its `DELETE` or the change of a referenced value exactly when a child row
that is seen holds that value.
-/

/-- The updated rows, for a top-level `UPDATE`. -/
def Alters
    (catalog : Catalog)
    (state : State)
    (table : String)
    (prepared : Except Error Update)
    (schema : Schema)
    (old new : Row) : Prop :=
  catalog.get table = some schema ∧
    ∃ update, prepared = .ok update ∧
      Revises state.reader (state.store schema.name) update old new

/-- An `UPDATE` that changes what a child row references. -/
def Orphans
    (catalog : Catalog)
    (state : State)
    (table : String)
    (prepared : Except Error Update) : Prop :=
  ∃ schema old new,
    Alters catalog state table prepared schema old new ∧
      ∃ reference ∈ catalog.childrenReferencing schema,
        (column old reference.parentIdx).equal (column new reference.parentIdx) = false ∧
          Referenced state.own reference (column old reference.parentIdx)

/-- No statement meets a version that tells it something untrue. -/
def Upright
    (catalog : Catalog)
    (realLiteral : UInt64 → Except Error Literal)
    (state : State) : Action → Prop
  | .insert table rows =>
      ∀ schema ∈ catalog.get table, ∀ evaluated ∈ rows, ∀ values ∈ evaluated.toOption,
        Sponsored catalog state.store state.own schema none values
  | .update table prepared =>
      ∀ schema old new, Alters catalog state table prepared schema old new →
        Sponsored catalog state.store state.own schema (some old) new ∧
          (parentChanged schema old new = true →
            ∀ reference ∈ catalog.childrenReferencing schema,
              Faithful state.store state.own reference (column old reference.parentIdx) ∧
                (Referenced state.own reference (column old reference.parentIdx) →
                  (column old reference.parentIdx).equal
                    (column new reference.parentIdx) = false))
  | .advance =>
      ∀ running ∈ state.running, ∀ schema candidate reference references rest,
        running.stack = .actions schema candidate (reference :: references) :: rest →
        Honest catalog realLiteral state.reader state.store reference
          (column candidate.2.values reference.parentIdx)
  | _ => True

/-- A parent row is kept from going exactly when a child row that is seen holds its value. -/
structure Protected
    (catalog : Catalog)
    (realLiteral : UInt64 → Except Error Literal)
    (state : State)
    (action : Action) : Prop where
  /-- An `UPDATE` that is refused for a child row changes what a child row references. -/
  refused :
    ∀ table prepared parent child childColumn,
      action = .update table prepared →
      answer catalog state action = some (.error (.cannotModify parent child childColumn)) →
      Orphans catalog state table prepared
  /-- One that does is refused. -/
  orphans :
    ∀ table prepared,
      action = .update table prepared →
      Orphans catalog state table prepared →
      ∃ failure, answer catalog state action = some (.error failure)
  /-- Acting on a RESTRICT fails exactly for a child row that holds the value. -/
  restricted :
    ∀ running schema candidate reference references rest,
      action = .advance →
      state.running = some running →
      running.stack = .actions schema candidate (reference :: references) :: rest →
      reference.onDelete = .restrict →
      (advance catalog realLiteral state.reader (writingTx state.session) state.store
            running.stack =
          .error (.cannotDelete schema.name reference.child.name reference.column.name) ↔
        Referenced state.own reference (column candidate.2.values reference.parentIdx))

/-! ## What is refused -/

theorem admissionFailure_some
    {Item : Type}
    {admission : Item → Except Failure (Option Change)}
    {items : List Item}
    {failure : Failure}
    (failed : admissionFailure admission items = some failure) :
    ∃ item ∈ items, admission item = .error failure := by
  induction items with
  | nil => cases failed
  | cons item rest inductionHypothesis =>
      unfold admissionFailure at failed
      cases outcome : admission item with
      | error reason =>
          rw [outcome] at failed
          obtain rfl := Option.some.inj failed
          exact ⟨item, List.mem_cons_self, outcome⟩
      | ok found =>
          rw [outcome] at failed
          obtain ⟨other, later, found⟩ := inductionHypothesis failed
          exact ⟨other, List.mem_cons_of_mem _ later, found⟩

section Refusals

variable
  {catalog : Catalog}
  {realLiteral : UInt64 → Except Error Literal}
  {state : State}
  {schema : Schema}
  {store : Store}

/-- A row refused for its children is one whose children have been probed. -/
theorem admitUpdate_cannotModify
    {reader : Reader}
    {update : Update}
    {record : Record}
    {parent child childColumn : String}
    (failed :
      admitUpdate catalog schema reader update store record =
        .error (.cannotModify parent child childColumn)) :
    ∃ new,
      update.filter record.values = .ok true ∧
        assign record.values update.assignments record.values = .ok new ∧
        parentChanged schema record.values new = true ∧
        checkNoChildReferences store schema record.values
            (catalog.childrenReferencing schema) =
          .error (.cannotModify parent child childColumn) := by
  simp only [admitUpdate, bind_error_iff, mapError_ok_iff] at failed
  rcases failed with failed | ⟨selected, filtered, failed⟩
  · obtain ⟨_, ⟨⟩, _⟩ := mapError_error failed
  split at failed
  case isFalse => cases failed
  case isTrue here =>
    subst here
    simp only [bind_error_iff, mapError_ok_iff] at failed
    rcases failed with failed | ⟨_, -, failed | ⟨new, assigned, failed | ⟨_, -, failed |
      ⟨_, -, failed⟩⟩⟩⟩
    · obtain ⟨_, ⟨⟩, _⟩ := mapError_error failed
    · obtain ⟨_, ⟨⟩, _⟩ := mapError_error failed
    · obtain ⟨_, ⟨⟩, _⟩ := checkNotNull_error failed
    · rcases checkForeignKeys_error failed with ⟨_, same⟩ | ⟨_, _, _, same⟩ <;> cases same
    · split at failed
      case isFalse => cases failed
      case isTrue changed =>
        rcases bind_error_iff.mp failed with failed | ⟨_, -, failed⟩
        · exact ⟨new, filtered, assigned, changed, failed⟩
        · cases failed

theorem answer_update
    {table : String}
    {update : Update}
    {candidates : List (Nat × Record)}
    (got : catalog.get table = some schema)
    (collected :
      collectCandidates state.reader (state.store schema.name) update.access =
        .ok candidates) :
    answer catalog state (.update table (.ok update)) =
      some (writeAdmitted schema (writingTx state.session)
        (admitted (updateChange catalog schema state.reader update state.store)
          candidates)
        (admissionFailure
          (updateChange catalog schema state.reader update state.store) candidates)
        state.store) := by
  obtain ⟨-, rfl⟩ := Catalog.get_name got
  exact congrArg some (update_eq got collected)

theorem refused_of_upright
    {table : String}
    {prepared : Except Error Update}
    {parent child childColumn : String}
    (sound : Sound catalog state)
    (upright : Upright catalog realLiteral state (.update table prepared))
    (answered :
      answer catalog state (.update table prepared) =
        some (.error (.cannotModify parent child childColumn))) :
    Orphans catalog state table prepared := by
  have own : state.reader.snapshot.ownTx = some (writingTx state.session) :=
    Calm.writing_ownTx state.session
  cases got : catalog.get table with
  | none => simp [answer, update, openTable, got] at answered
  | some schema =>
      obtain ⟨listed, rfl⟩ := Catalog.get_name got
      cases prepared with
      | error error => simp [answer, update, openTable, got, own] at answered
      | ok update =>
          cases collected :
              collectCandidates state.reader (state.store schema.name) update.access with
          | error failure =>
              obtain ⟨_, rfl⟩ := collectCandidates_error collected
              simp [answer, Constraints.update, openTable, got, own, collected] at answered
          | ok candidates =>
              rw [answer_update got collected] at answered
              have failed := Option.some.inj answered
              have stored := sound.consistent.stored schema listed
              rcases writeAdmitted_cases sound.calm listed stored
                  (writable_updates sound.calm stored collected)
                  (admissionFailure
                    (updateChange catalog schema state.reader update state.store)
                    candidates) with
                ⟨index, -, -, outcome⟩ | ⟨-, reason, same, outcome⟩ | ⟨-, next, outcome, -⟩
              · cases outcome.symm.trans failed
              · obtain rfl := Except.error.inj (outcome.symm.trans failed)
                obtain ⟨candidate, here, admission⟩ := admissionFailure_some same
                have turned :
                    admitUpdate catalog schema state.reader update state.store
                        candidate.2 =
                      .error (.cannotModify parent child childColumn) := by
                  unfold updateChange at admission
                  cases outcome :
                      admitUpdate catalog schema state.reader update state.store
                        candidate.2 with
                  | error reason =>
                      rw [outcome] at admission
                      exact congrArg _ (Except.error.inj admission)
                  | ok found =>
                      rw [outcome] at admission
                      cases admission
                obtain ⟨new, selected, assigned, changed, probed⟩ :=
                  admitUpdate_cannotModify turned
                have alters :
                    Alters catalog state schema.name (.ok update) schema
                      candidate.2.values new :=
                  ⟨got, update, rfl, candidates, collected, candidate, here, rfl,
                    selected, assigned⟩
                rcases checkNoChildReferences_cases state.store schema candidate.2.values
                    (catalog.childrenReferencing schema) with
                  ⟨-, passed⟩ | ⟨reference, foreign, hit, -⟩
                · cases passed.symm.trans probed
                · obtain ⟨faithful, alone⟩ :=
                    (upright schema _ new alters).2 changed reference foreign
                  have held :=
                    (faithful.scan_iff (sound.consistent.stored _
                      (mem_childrenReferencing.mp foreign).1)).mp hit
                  exact ⟨schema, _, new, alters, reference, foreign, alone held, held⟩
              · cases outcome.symm.trans failed

theorem orphans_refused
    {table : String}
    {prepared : Except Error Update}
    (sound : Sound catalog state)
    (upright : Upright catalog realLiteral state (.update table prepared))
    (orphans : Orphans catalog state table prepared) :
    ∃ failure, answer catalog state (.update table prepared) = some (.error failure) := by
  obtain ⟨schema, old, new, alters, reference, foreign, different, held⟩ := orphans
  obtain ⟨got, update, rfl, candidates, collected, candidate, here, rfl, selected,
    assigned⟩ := alters
  obtain ⟨listed, -⟩ := Catalog.get_name got
  have changed : parentChanged schema candidate.2.values new = true := by
    by_contra unchanged
    have same :=
      equal_of_unchanged listed foreign (Bool.eq_false_iff.mpr unchanged)
    exact Bool.false_ne_true (different.symm.trans same)
  obtain ⟨faithful, -⟩ :=
    (upright schema _ new ⟨got, update, rfl, candidates, collected, candidate, here, rfl,
      selected, assigned⟩).2 changed reference foreign
  have hit :=
    (faithful.scan_iff
      (sound.consistent.stored _ (mem_childrenReferencing.mp foreign).1)).mpr held
  have stored := sound.consistent.stored schema listed
  rw [answer_update got collected]
  rcases writeAdmitted_cases sound.calm listed stored
      (writable_updates sound.calm stored collected)
      (admissionFailure (updateChange catalog schema state.reader update state.store)
        candidates) with
    ⟨index, -, -, outcome⟩ | ⟨-, reason, -, outcome⟩ | ⟨passed, next, -, -⟩
  · exact ⟨_, congrArg some outcome⟩
  · exact ⟨_, congrArg some outcome⟩
  · -- the candidate would have been admitted past its child row
    obtain ⟨found, admission, -⟩ := admitted_of_none passed here
    cases found with
    | none =>
        exact nomatch (filter_of_updateChange_none admission).symm.trans selected
    | some change =>
        obtain ⟨-, admission⟩ := updateChange_old admission
        obtain ⟨-, assignedHere, -, unreferenced⟩ := admitUpdate_ok admission
        obtain rfl : change.new = new := Except.ok.inj (assignedHere.symm.trans assigned)
        rcases checkNoChildReferences_cases state.store schema candidate.2.values
            (catalog.childrenReferencing schema) with
          ⟨free, -⟩ | ⟨_, -, -, failed⟩
        · exact absurd ((free reference foreign).symm.trans hit) Bool.false_ne_true
        · exact nomatch failed.symm.trans (unreferenced changed)

/-- A `DELETE` is refused exactly where a visible child restricts it. -/
theorem restricted_iff
    {running : Running}
    {candidate : Nat × Record}
    {reference : Reference}
    {references : List Reference}
    {rest : List Task}
    (sound : Sound catalog state)
    (upright : Upright catalog realLiteral state .advance)
    (underWay : state.running = some running)
    (shape : running.stack = .actions schema candidate (reference :: references) :: rest)
    (action : reference.onDelete = .restrict) :
    advance catalog realLiteral state.reader (writingTx state.session) state.store
          running.stack =
        .error (.cannotDelete schema.name reference.child.name reference.column.name) ↔
      Referenced state.own reference (column candidate.2.values reference.parentIdx) := by
  have honest := upright running underWay schema candidate reference references rest shape
  have pending := (sound.running running underWay).2.2.2
  rw [shape] at pending
  have foreign := (pending _ List.mem_cons_self).2.2 List.mem_cons_self
  have child := (mem_childrenReferencing.mp foreign).1
  have probe :
      scanChildForFkValue state.store reference
          (column candidate.2.values reference.parentIdx) = true ↔
        Referenced state.own reference (column candidate.2.values reference.parentIdx) :=
    (honest.probed (.inl action)).scan_iff (sound.consistent.stored _ child)
  rw [shape, ← probe]
  simp only [advance, applyParentDeleteAction, action]
  cases scanChildForFkValue state.store reference
      (column candidate.2.values reference.parentIdx) with
  | false => exact ⟨by rintro ⟨⟩, by rintro ⟨⟩⟩
  | true => exact ⟨fun _ => rfl, fun _ => rfl⟩

theorem Protected.of_upright
    {action : Action}
    (sound : Sound catalog state)
    (upright : Upright catalog realLiteral state action) :
    Protected catalog realLiteral state action where
  refused _ _ _ _ _ here answered := by
    subst here
    exact refused_of_upright sound upright answered
  orphans _ _ here found := by
    subst here
    exact orphans_refused sound upright found
  restricted _ _ _ _ _ _ here underWay shape restrict := by
    subst here
    exact restricted_iff sound upright underWay shape restrict

end Refusals

/-! ## Runs -/

/-- The invariant of a run. -/
structure Intact (catalog : Catalog) (state : State) : Prop where
  committed : Referential catalog state.committed
  own : Referential catalog state.own
  running :
    ∀ running, state.running = some running →
      Guarding catalog state.own running.stack

section Runs

variable
  {catalog : Catalog}
  {realLiteral : UInt64 → Except Error Literal}
  {state next : State}
  {action : Action}
  {surroundings : Surroundings}

theorem Follows.intact
    {worked : Store}
    (follows : Follows state worked next)
    (idle : next.running = none)
    (committed : Referential catalog state.committed)
    (own : Referential catalog (Store.view worked (writingReader state.session))) :
    Intact catalog next where
  committed := by rcases follows.committed with same | same <;> rw [same] <;> assumption
  own := by rcases follows.own with same | same <;> rw [same] <;> assumption
  running running underWay := nomatch idle.symm.trans underWay

theorem Turn.intact
    (turn : Turn catalog realLiteral state surroundings action next)
    (sound : Sound catalog state)
    (intact : Intact catalog state)
    (upright : Upright catalog realLiteral state action) :
    Sound catalog next ∧ Intact catalog next := by
  obtain ⟨committed, own, guarded⟩ := intact
  cases turn with
  | controlled idle moved =>
      obtain ⟨after, follows⟩ := sound.controlled idle moved
      exact ⟨after, follows.intact idle committed own⟩
  | failed back =>
      obtain ⟨after, sameCommitted, sameOwn⟩ := sound.failed surroundings back
      exact ⟨after, sameCommitted ▸ committed, sameOwn ▸ committed, nofun⟩
  | inserted idle outcome =>
      obtain ⟨schema, got, -, edited⟩ := insert_ok sound.calm sound.consistent outcome
      obtain ⟨after, follows⟩ :=
        sound.finished surroundings (.of_edited sound.consistent.stored edited)
      refine ⟨after, follows.intact rfl committed ?_⟩
      refine Referential.inserted own sound.consistent edited ?_
      rintro _ here values rfl
      exact upright schema got _ here values rfl
  | updated idle outcome =>
      obtain ⟨schema, update, candidates, got, rfl, collected, -, edited⟩ :=
        update_ok sound.calm sound.consistent outcome
      obtain ⟨after, follows⟩ :=
        sound.finished surroundings (.of_edited sound.consistent.stored edited)
      refine ⟨after, follows.intact rfl committed ?_⟩
      refine Referential.updated own sound.consistent collected edited ?_ ?_
      · exact fun old new revises => (upright schema old new ⟨got, update, rfl, revises⟩).1
      · intro old new revises changed reference foreign
        exact ((upright schema old new ⟨got, update, rfl, revises⟩).2 changed reference
          foreign).1.agree
  | started idle got collected =>
      obtain ⟨after, sameCommitted, sameOwn⟩ :=
        sound.started (sound.pending_started got collected)
      refine ⟨after, sameCommitted ▸ committed, sameOwn ▸ own, fun running underWay => ?_⟩
      obtain rfl := Option.some.inj underWay
      rw [sameOwn]
      exact ⟨own, List.pairwise_singleton _ _, trivial, trivial⟩
  | advanced underWay step =>
      have pending := (sound.running _ underWay).2.2.2
      obtain ⟨worked, later⟩ := step.worked sound.calm sound.consistent pending
      obtain ⟨after, sameCommitted, sameOwn⟩ := sound.advanced underWay worked later
      have guarding :=
        step.guarding sound.calm sound.consistent pending
          (fun schema candidate reference references rest shape =>
            upright _ underWay schema candidate reference references rest shape)
          (guarded _ underWay)
      refine ⟨after, sameCommitted ▸ committed, sameOwn ▸ guarding.referential,
        fun running underWay => ?_⟩
      obtain rfl := Option.some.inj underWay
      rw [sameOwn]
      exact guarding
  | finished underWay done =>
      obtain ⟨after, follows⟩ :=
        sound.finished surroundings (.refl sound.consistent.stored)
      exact ⟨after, follows.intact rfl committed own⟩

end Runs

/-! ## A parent row that comes and goes -/

/-- `children (pid INT REFERENCES parents (id))`. -/
def children : Schema where
  name := "children"
  columns := [{
    name := "pid"
    notNull := false
    foreignKey := some { table := "parents", column := "id", onDelete := .restrict } }]
  indexes := []

/-- `parents (id INT PRIMARY KEY)`. -/
def parents : Schema where
  name := "parents"
  columns := [{ name := "id", notNull := true, foreignKey := none }]
  indexes := [{ name := "_pk_parents", columns := [0], unique := true }]

def families : Catalog where
  tables := [children, parents]
  created := fun name => if name = "children" then 1 else 0
  named := by decide
  indexed := by decide
  single := by
    intro schema listed index here _
    rcases List.mem_pair.mp listed with rfl | rfl
    · cases here
    · obtain rfl := List.mem_singleton.mp here
      exact ⟨0, rfl⟩
  older := by
    intro schema listed column here key foreign
    rcases List.mem_pair.mp listed with rfl | rfl
    · obtain rfl := List.mem_singleton.mp here
      obtain rfl := Option.some.inj foreign
      decide
    · obtain rfl := List.mem_singleton.mp here
      cases foreign
  resolved := by
    intro schema listed column here key foreign
    rcases List.mem_pair.mp listed with rfl | rfl
    · obtain rfl := List.mem_singleton.mp here
      obtain rfl := Option.some.inj foreign
      exact ⟨parents, List.mem_cons_of_mem _ List.mem_cons_self, rfl, 0, rfl, rfl⟩
    · obtain rfl := List.mem_singleton.mp here
      cases foreign

def insertRow (table : String) (number : Int64) : Action :=
  .insert table [.ok [.int number]]

def deleteParents : Action :=
  .delete "parents" (.ok { access := .fullScan, filter := fun _ => .ok true })

/-- A parent is inserted and deleted, then a child of it is inserted. -/
def orphanRun : List (Action × Surroundings) :=
  [insertRow "parents" 1, deleteParents, .advance, .advance, .advance, .advance, .advance,
    insertRow "children" 1].map quiet

instance
    (catalog : Catalog)
    (store : Store)
    (view : View)
    (child : Schema)
    (oldValues : Option Row)
    (values : Row) :
    Decidable (Sponsored catalog store view child oldValues values) :=
  inferInstanceAs (Decidable (∀ _ ∈ _, _))

instance (view : View) (reference : Reference) (value : Value) :
    Decidable (Referenced view reference value) :=
  inferInstanceAs (Decidable (∃ _ ∈ _, _))

instance
    (store : Store)
    (view : View)
    (reference : Reference)
    (value : Value) :
    Decidable (Faithful store view reference value) :=
  decidable_of_iff
    ((∀ row ∈ (store reference.child.name).rows,
        column row.2.values reference.childIdx = value ∨
          (column row.2.values reference.childIdx).equal value = true →
        Referenced view reference value) ∧
      ∀ row ∈ view reference.child.name, Agree (column row.2 reference.childIdx) value)
    ⟨fun both => ⟨both.1, both.2⟩, fun faithful => ⟨faithful.live, faithful.agree⟩⟩

theorem upright_insertRow
    {state : State}
    {table : String}
    {number : Int64}
    (sponsored :
      ∀ schema ∈ families.get table,
        Sponsored families state.store state.own schema none [.int number]) :
    Upright families unread state (insertRow table number) := by
  intro schema got evaluated here values same
  obtain rfl := List.mem_singleton.mp here
  obtain rfl := Option.some.inj same
  exact sponsored schema got

theorem upright_deleteRows
    {state : State}
    {saved : Store}
    {schema : Schema}
    {filter : Row → Except Error Bool}
    {candidates : List (Nat × Record)}
    {rest : List Task}
    (underWay :
      state.running =
        some { saved := saved, stack := .deleteRows schema filter candidates :: rest }) :
    Upright families unread state .advance := by
  intro running here other candidate reference references below shape
  obtain rfl := Option.some.inj (underWay.symm.trans here)
  cases shape

/-- The foreign key of `children`. -/
def parentOf : Reference where
  child := children
  childIdx := 0
  column := {
    name := "pid"
    notNull := false
    foreignKey := some { table := "parents", column := "id", onDelete := .restrict } }
  onDelete := .restrict
  parentIdx := 0

theorem upright_parentOf
    {state : State}
    {saved : Store}
    {candidate : Nat × Record}
    {rest : List Task}
    (underWay :
      state.running =
        some { saved := saved, stack := .actions parents candidate [parentOf] :: rest })
    (faithful :
      Faithful state.store state.own parentOf (column candidate.2.values 0)) :
    Upright families unread state .advance := by
  intro running here schema other reference references below shape
  obtain rfl := Option.some.inj (underWay.symm.trans here)
  obtain ⟨same, -⟩ := List.cons.inj shape
  obtain ⟨rfl, rfl, only⟩ := Task.actions.inj same
  obtain ⟨rfl, -⟩ := List.cons.inj only
  exact ⟨fun _ => faithful, fun acting => absurd rfl acting, nofun⟩

end PrehniteDB.Constraints
