import Mathlib.Data.Finset.Option
import PrehniteDB.TransitionRun

namespace PrehniteDB.SchemaWriteBack

open TransitionRun

/-!
# Schemas written back over DDL

Statements of several connections on one table.  Each reads the whole schema
at its start, changes trees, puts its schema back or removes it, and commits.
Row statements hold the table lock shared and the two short phases of
`CREATE INDEX` hold it exclusively; `DROP TABLE`, `DROP INDEX` and `ANALYZE`
hold nothing.  `CREATE INDEX` is three statements of this kind in a row.

Of the schema only its root pages are kept, and of a tree only its root page.
-/

/-- One index of the schema; `serial` tells two creations apart and is not in the code. -/
structure Index where
  name : String
  root : UInt32
  isBuilding : Bool
  serial : Nat
  deriving Repr, DecidableEq

/-- The trees of a table. -/
structure Schema where
  root : UInt32
  indexes : List Index
  deriving Repr, DecidableEq

/-- A tree of the schema: the table's own under `none`, an index's under its serial. -/
abbrev Tree := Option Nat × UInt32

def Index.tree (index : Index) : Tree := (some index.serial, index.root)

def Schema.trees (schema : Schema) : List Tree :=
  (none, schema.root) :: schema.indexes.map Index.tree

def Schema.hasIndex (schema : Schema) (name : String) : Bool :=
  schema.indexes.any fun index => index.name = name

/-- What a statement does to the trees. -/
inductive Kind where
  /-- `INSERT`, `UPDATE` or `DELETE`. -/
  | rows
  | analyze
  | dropTable
  | dropIndex (name : String)
  /-- Phase 1 of `CREATE INDEX`. -/
  | createIndex (name : String)
  /-- Phase 3 of `CREATE INDEX`. -/
  | finalize (name : String)
  deriving Repr, DecidableEq

/-- A side of the table lock. -/
inductive Access where
  | shared
  | exclusive
  deriving Repr, DecidableEq

/-- The side of the table lock a statement holds from its read to its commit. -/
def Kind.access : Kind → Option Access
  | .rows => some .shared
  | .createIndex _ | .finalize _ => some .exclusive
  | .analyze | .dropTable | .dropIndex _ => none

/-- Whether a statement gets past its first look at the schema. -/
def Kind.applies (schema : Schema) : Kind → Bool
  | .dropIndex name | .finalize name => schema.hasIndex name
  | .createIndex name => !schema.hasIndex name
  | .rows | .analyze | .dropTable => true

/-- Whether a client statement starts with this step; phase 3 follows phase 2. -/
def Kind.starts : Kind → Bool
  | .finalize _ => false
  | _ => true

/-- A statement and the schema it has read. -/
structure Statement where
  kind : Kind
  schema : Schema
  /-- The index whose tree phase 1 has allocated. -/
  created : Option Index
  deriving Repr, DecidableEq

namespace Statement

/-- The trees a statement frees. -/
def removes (statement : Statement) : List Tree :=
  match statement.kind with
  | .dropTable => statement.schema.trees
  | .dropIndex name =>
      (statement.schema.indexes.filter fun index =>
        index.name = name).map Index.tree
  | _ => []

/-- What a statement leaves in the catalog; `none` removes the table. -/
def finalSchema (statement : Statement) : Option Schema :=
  let schema := statement.schema
  match statement.kind with
  | .rows | .analyze => some schema
  | .dropTable => none
  | .dropIndex name =>
      some { schema with
        indexes := schema.indexes.filter fun index => index.name ≠ name }
  | .createIndex _ =>
      some { schema with indexes := schema.indexes ++ statement.created.toList }
  | .finalize name =>
      some { schema with
        indexes := schema.indexes.map fun index =>
          if index.name = name then { index with isBuilding := false }
          else index }

end Statement

/-- Where a connection stands in its statement. -/
inductive Phase where
  | idle
  /-- The schema has been read. -/
  | running (statement : Statement)
  /-- The trees have been changed. -/
  | changed (statement : Statement)
  /-- The catalog has been written, the pager commit is still to come. -/
  | staged (statement : Statement)
  /-- Between phases 1 and 2 of `CREATE INDEX`. -/
  | built (name : String)
  | populating (name : String)
  | populated (name : String)
  deriving Repr, DecidableEq

/-- Who holds the lock of the table. -/
structure TableLock where
  readers : Finset Nat
  writer : Option Nat
  deriving DecidableEq

namespace TableLock

/-- Take a side of the lock, if it is free. -/
def acquire
    (lock : TableLock)
    (connection : Nat) : Option Access → Option TableLock
  | none => some lock
  | some .shared =>
      if lock.writer = none then
        some { lock with readers := insert connection lock.readers }
      else none
  | some .exclusive =>
      if lock.writer = none ∧ lock.readers = ∅ then
        some { lock with writer := some connection }
      else none

def release (lock : TableLock) (connection : Nat) : TableLock where
  readers := lock.readers.erase connection
  writer := if lock.writer = some connection then none else lock.writer

end TableLock

/-- The audit record of a run; indexes go by their serials. -/
structure Trail where
  /-- Taken out of the catalog by a drop. -/
  gone : Finset Nat
  /-- Removed by a drop that has committed. -/
  dropped : Finset Nat
  /-- Added by a `CREATE INDEX` whose phase 1 has committed. -/
  added : Finset Nat
  tableDropped : Bool

/-- The catalog entry, the pages and the connections. -/
structure State where
  catalog : Option Schema
  allocated : Finset UInt32
  lock : TableLock
  phase : Nat → Phase
  serials : Nat
  trail : Trail

/-- A table that has just been created. -/
def initial : State where
  catalog := some { root := 1, indexes := [] }
  allocated := {1}
  lock := { readers := ∅, writer := none }
  phase := fun _ => .idle
  serials := 0
  trail := { gone := ∅, dropped := ∅, added := ∅, tableDropped := false }

/-- What a connection does next. -/
inductive Action where
  | begin (connection : Nat) (kind : Kind)
  /-- Write rows, free trees, or allocate a new tree at `root`. -/
  | change (connection : Nat) (root : UInt32)
  | put (connection : Nat)
  | commit (connection : Nat)
  | populate (connection : Nat)
  | populated (connection : Nat)
  | finalize (connection : Nat)
  /-- A statement that fails before it changes a tree. -/
  | abandon (connection : Nat)
  deriving Repr, DecidableEq

namespace State

def setPhase (state : State) (connection : Nat) (phase : Phase) : State :=
  { state with phase := Function.update state.phase connection phase }

def release (state : State) (connection : Nat) : State :=
  { state with lock := state.lock.release connection }

/-- Take the lock and read the schema. -/
def read (state : State) (connection : Nat) (kind : Kind) : Option State :=
  (state.lock.acquire connection kind.access).bind fun lock =>
    state.catalog.bind fun schema =>
      if kind.applies schema then
        some { state.setPhase connection
            (.running { kind := kind, schema := schema, created := none }) with
          lock := lock }
      else none

/-- The tree work of one statement. -/
def change
    (state : State)
    (connection : Nat)
    (root : UInt32)
    (statement : Statement) : Option State :=
  match statement.kind with
  | .createIndex name =>
      if root ∈ state.allocated then none
      else
        let index := {
          name := name
          root := root
          isBuilding := true
          serial := state.serials }
        some { state.setPhase connection
            (.changed { statement with created := some index }) with
          allocated := insert root state.allocated
          serials := state.serials + 1 }
  | _ =>
      some { state.setPhase connection (.changed statement) with
        allocated := state.allocated.filter fun page =>
          page ∉ statement.removes.map Prod.snd }

/-- The serials a drop takes out of the catalog; a dropped table takes all with it. -/
def removedBy (state : State) (statement : Statement) : Finset Nat :=
  match statement.kind with
  | .dropTable => Finset.range state.serials
  | _ => (statement.removes.filterMap Prod.fst).toFinset

/-- `Catalog::put` or `Catalog::remove`. -/
def put (state : State) (connection : Nat) (statement : Statement) : State :=
  { state.setPhase connection (.staged statement) with
    catalog := statement.finalSchema
    trail := { state.trail with
      gone := state.trail.gone ∪ state.removedBy statement } }

/-- The pager commit and the release of the lock. -/
def commit (state : State) (connection : Nat) (statement : Statement) : State :=
  let next :=
    match statement.kind with
    | .createIndex name => .built name
    | _ => .idle
  { (state.setPhase connection next).release connection with
    trail := { state.trail with
      dropped :=
        state.trail.dropped ∪ (statement.removes.filterMap Prod.fst).toFinset
      added :=
        state.trail.added ∪ statement.created.toFinset.image Index.serial
      tableDropped :=
        state.trail.tableDropped || decide (statement.kind = .dropTable) } }

/-- One step, `none` when it is not enabled. -/
def step (state : State) : Action → Option State
  | .begin connection kind =>
      if state.phase connection = .idle ∧ kind.starts then
        state.read connection kind
      else none
  | .change connection root =>
      match state.phase connection with
      | .running statement => state.change connection root statement
      | _ => none
  | .put connection =>
      match state.phase connection with
      | .changed statement => some (state.put connection statement)
      | _ => none
  | .commit connection =>
      match state.phase connection with
      | .staged statement => some (state.commit connection statement)
      | _ => none
  | .populate connection =>
      match state.phase connection with
      | .built name =>
          (state.lock.acquire connection (some .shared)).map fun lock =>
            { state.setPhase connection (.populating name) with lock := lock }
      | _ => none
  | .populated connection =>
      match state.phase connection with
      | .populating name =>
          some ((state.setPhase connection (.populated name)).release connection)
      | _ => none
  | .finalize connection =>
      match state.phase connection with
      | .populated name => state.read connection (.finalize name)
      | _ => none
  | .abandon connection =>
      match state.phase connection with
      | .running _ =>
          some ((state.setPhase connection .idle).release connection)
      | .populated _ => some (state.setPhase connection .idle)
      | _ => none

/-- The trees the catalog lists. -/
def listed (state : State) : List Tree :=
  (state.catalog.map Schema.trees).getD []

/-- A drop that has freed this tree has yet to put its schema. -/
def Removing (state : State) (id : Option Nat) : Prop :=
  ∃ connection statement,
    state.phase connection = .changed statement ∧
      id ∈ statement.removes.map Prod.fst

/--
The catalog keeps to the DDL that has committed: it lists nothing that was
removed, everything that was added until a drop takes it out, and no tree that
was freed, but for one whose own drop is still under way.
-/
structure Kept (state : State) : Prop where
  removed :
    ∀ serial ∈ state.trail.dropped,
      some serial ∉ state.listed.map Prod.fst
  tableRemoved :
    state.trail.tableDropped = true → state.catalog = none
  added :
    ∀ serial ∈ state.trail.added,
      serial ∉ state.trail.gone →
      some serial ∈ state.listed.map Prod.fst
  freed :
    ∀ tree ∈ state.listed,
      tree.2 ∈ state.allocated ∨ state.Removing tree.1

/--
A put writes a schema back over the same trees it was read with, and a drop
frees trees that are still listed and that no other drop has freed.
-/
def Met (state : State) : Action → Prop
  | .change connection _ =>
      ∀ statement,
        state.phase connection = .running statement →
        ∀ tree ∈ statement.removes,
          tree ∈ state.listed ∧ ¬ state.Removing tree.1
  | .put connection =>
      ∀ statement,
        state.phase connection = .changed statement →
        statement.kind ≠ .dropTable →
        state.catalog.map Schema.trees = some statement.schema.trees
  | _ => True

/-- The possible outcomes of one enabled step. -/
inductive Effect (state : State) : Action → State → Prop where
  | read
      {connection : Nat}
      {action : Action}
      {kind : Kind}
      {schema : Schema}
      {lock : TableLock}
      (ready :
        state.phase connection = .idle ∨
          ∃ name, state.phase connection = .populated name) :
      Effect state action
        { state.setPhase connection
            (.running { kind := kind, schema := schema, created := none }) with
          lock := lock }
  | allocate
      {connection : Nat}
      {root : UInt32}
      {statement : Statement}
      {index : Index}
      {name : String}
      (running : state.phase connection = .running statement)
      (kind : statement.kind = .createIndex name)
      (fresh : root ∉ state.allocated)
      (tree : index.tree = (some state.serials, root)) :
      Effect state (.change connection root)
        { state.setPhase connection
            (.changed { statement with created := some index }) with
          allocated := insert root state.allocated
          serials := state.serials + 1 }
  | free
      {connection : Nat}
      {root : UInt32}
      {statement : Statement}
      (running : state.phase connection = .running statement)
      (kind : ∀ name, statement.kind ≠ .createIndex name) :
      Effect state (.change connection root)
        { state.setPhase connection (.changed statement) with
          allocated := state.allocated.filter fun page =>
            page ∉ statement.removes.map Prod.snd }
  | put
      {connection : Nat}
      {statement : Statement}
      (changed : state.phase connection = .changed statement) :
      Effect state (.put connection) (state.put connection statement)
  | commit
      {connection : Nat}
      {statement : Statement}
      (staged : state.phase connection = .staged statement) :
      Effect state (.commit connection) (state.commit connection statement)
  | between
      {connection : Nat}
      {action : Action}
      {phase : Phase}
      {lock : TableLock}
      (left :
        ∀ statement,
          state.phase connection ≠ .changed statement ∧
            state.phase connection ≠ .staged statement)
      (entered :
        ∀ statement,
          phase ≠ .running statement ∧
            phase ≠ .changed statement ∧
            phase ≠ .staged statement) :
      Effect state action
        { state.setPhase connection phase with lock := lock }

theorem read_effect
    {state next : State}
    {connection : Nat}
    {action : Action}
    {kind : Kind}
    (ready :
      state.phase connection = .idle ∨
        ∃ name, state.phase connection = .populated name)
    (stepped : state.read connection kind = some next) :
    Effect state action next := by
  obtain ⟨lock, _, stepped⟩ := Option.bind_eq_some_iff.mp stepped
  obtain ⟨schema, _, stepped⟩ := Option.bind_eq_some_iff.mp stepped
  split at stepped
  case isTrue =>
    obtain rfl := Option.some.inj stepped
    exact .read ready
  case isFalse => cases stepped

/-- What an enabled step does. -/
theorem step_effect
    {state next : State}
    {action : Action}
    (stepped : state.step action = some next) :
    Effect state action next := by
  cases action with
  | begin connection kind =>
      simp only [step] at stepped
      split at stepped
      case isTrue enabled => exact read_effect (.inl enabled.1) stepped
      case isFalse => cases stepped
  | change connection root =>
      simp only [step] at stepped
      split at stepped
      · next statement running =>
        unfold change at stepped
        split at stepped
        · next name kind =>
          split at stepped
          case isTrue => cases stepped
          case isFalse fresh =>
            obtain rfl := Option.some.inj stepped
            exact .allocate running kind fresh rfl
        · next kind =>
          obtain rfl := Option.some.inj stepped
          exact .free running kind
      · cases stepped
  | put connection =>
      simp only [step] at stepped
      split at stepped
      · next statement changed =>
        obtain rfl := Option.some.inj stepped
        exact .put changed
      · cases stepped
  | commit connection =>
      simp only [step] at stepped
      split at stepped
      · next statement staged =>
        obtain rfl := Option.some.inj stepped
        exact .commit staged
      · cases stepped
  | populate connection =>
      simp only [step] at stepped
      split at stepped
      · next name built =>
        obtain ⟨lock, _, rfl⟩ := Option.map_eq_some_iff.mp stepped
        exact .between (by simp [built]) (by simp)
      · cases stepped
  | populated connection =>
      simp only [step] at stepped
      split at stepped
      · next name populating =>
        obtain rfl := Option.some.inj stepped
        exact .between (by simp [populating]) (by simp)
      · cases stepped
  | finalize connection =>
      simp only [step] at stepped
      split at stepped
      · next name populated =>
        exact read_effect (.inr ⟨name, populated⟩) stepped
      · cases stepped
  | abandon connection =>
      simp only [step] at stepped
      split at stepped
      · next statement running =>
        obtain rfl := Option.some.inj stepped
        exact .between (by simp [running]) (by simp)
      · next name populated =>
        obtain rfl := Option.some.inj stepped
        exact .between (by simp [populated]) (by simp)
      · cases stepped

end State

/-! ## What a put leaves listed -/

namespace Statement

/-- Trees of one schema with one identity are one tree. -/
theorem index_unique
    {indexes : List Index}
    (ids : ((indexes.map Index.tree).map Prod.fst).Nodup)
    {first second : Index}
    (firstListed : first ∈ indexes)
    (secondListed : second ∈ indexes)
    (same : first.serial = second.serial) :
    first = second := by
  rw [List.map_map] at ids
  exact List.inj_on_of_nodup_map ids firstListed secondListed
    (congrArg some same)

variable {statement : Statement} {final : Schema}

theorem removes_createIndex
    {name : String}
    (kind : statement.kind = .createIndex name) :
    statement.removes = [] := by
  unfold removes
  rw [kind]

theorem kept_of_removes_nil
    (nothing : statement.removes = []) :
    (statement.schema.trees.filter fun tree =>
      tree.1 ∉ statement.removes.map Prod.fst) = statement.schema.trees := by
  rw [nothing]
  exact List.filter_eq_self.mpr (by simp)

/-- A put writes back the trees it was read with, less its own and with its new one. -/
theorem finalSchema_trees
    (ids : (statement.schema.trees.map Prod.fst).Nodup)
    (creates :
      ∀ index, statement.created = some index →
        ∃ name, statement.kind = .createIndex name)
    (written : statement.finalSchema = some final) :
    final.trees =
      (statement.schema.trees.filter fun tree =>
        tree.1 ∉ statement.removes.map Prod.fst) ++
          statement.created.toList.map Index.tree := by
  have uncreated
      (other : ∀ name, statement.kind ≠ .createIndex name) :
      statement.created = none := by
    cases created : statement.created with
    | none => rfl
    | some index =>
        obtain ⟨name, kind⟩ := creates index created
        exact absurd kind (other name)
  cases kind : statement.kind with
  | rows | analyze =>
      simp only [finalSchema, kind, Option.some.injEq] at written
      rw [kept_of_removes_nil (by unfold removes; rw [kind]),
        uncreated (by simp [kind]), written]
      simp
  | dropTable =>
      simp [finalSchema, kind] at written
  | createIndex name =>
      simp only [finalSchema, kind, Option.some.injEq] at written
      rw [kept_of_removes_nil (removes_createIndex kind), ← written]
      simp [Schema.trees]
  | finalize name =>
      simp only [finalSchema, kind, Option.some.injEq] at written
      rw [kept_of_removes_nil (by unfold removes; rw [kind]),
        uncreated (by simp [kind]), ← written]
      simp only [Schema.trees, List.map_map, Option.toList_none,
        List.map_nil, List.append_nil, List.cons.injEq, true_and]
      refine List.map_congr_left fun index _ => ?_
      simp only [Function.comp_apply]
      split
      · rfl
      · rfl
  | dropIndex name =>
      simp only [finalSchema, kind, Option.some.injEq] at written
      have distinct := (List.nodup_cons.mp ids).2
      rw [uncreated (by simp [kind]), ← written]
      simp only [Schema.trees, removes, kind, Option.toList_none,
        List.map_nil, List.append_nil, List.filter_cons]
      rw [if_pos (by simp [Index.tree])]
      congr 1
      rw [List.filter_map]
      refine congrArg (List.map Index.tree) (List.filter_congr ?_)
      intro index listed
      simp only [Function.comp_apply, decide_eq_decide]
      rw [not_iff_not]
      constructor
      · intro named
        exact List.mem_map_of_mem (List.mem_map_of_mem
          (List.mem_filter.mpr ⟨listed, by simpa using named⟩))
      · intro removed
        obtain ⟨_, treeListed, same⟩ := List.mem_map.mp removed
        obtain ⟨other, found, rfl⟩ := List.mem_map.mp treeListed
        obtain ⟨otherListed, named⟩ := List.mem_filter.mp found
        have together : index = other :=
          index_unique distinct listed otherListed
            (Option.some.inj same.symm)
        rw [together]
        simpa using named

end Statement

namespace State

variable {state next : State}

/-- A new index whose tree is allocated and whose schema is not yet put. -/
def Pending (state : State) (connection : Nat) (index : Index) : Prop :=
  ∃ statement,
    state.phase connection = .changed statement ∧
      statement.created = some index

/-- A tree of the catalog that no drop has freed. -/
def Live (state : State) (tree : Tree) : Prop :=
  tree ∈ state.listed ∧ ¬ state.Removing tree.1

/-! ## The trees of the catalog -/

/-- The catalog's trees are one each, and those no drop has freed own their pages. -/
structure Planted (state : State) : Prop where
  ids : (state.listed.map Prod.fst).Nodup
  bounded :
    ∀ serial, some serial ∈ state.listed.map Prod.fst →
      serial < state.serials
  live : ∀ tree, state.Live tree → tree.2 ∈ state.allocated
  apart :
    ∀ tree other,
      state.Live tree → state.Live other →
      tree.2 = other.2 → tree = other
  unstarted :
    ∀ connection statement,
      state.phase connection = .running statement →
      statement.created = none
  creates :
    ∀ connection statement index,
      state.phase connection = .changed statement →
      statement.created = some index →
      ∃ name, statement.kind = .createIndex name
  removals :
    ∀ serial, state.Removing (some serial) → serial < state.serials
  pending :
    ∀ connection index, state.Pending connection index →
      index.root ∈ state.allocated ∧
        index.serial < state.serials ∧
        some index.serial ∉ state.listed.map Prod.fst ∧
        ∀ tree, state.Live tree → tree.2 ≠ index.root
  unique :
    ∀ connection other first second,
      state.Pending connection first → state.Pending other second →
      connection ≠ other →
      first.serial ≠ second.serial ∧ first.root ≠ second.root

theorem phase_cases
    {phases : Nat → Phase}
    {connection other : Nat}
    {entered found : Phase}
    (here : Function.update phases connection entered other = found) :
    (other = connection ∧ entered = found) ∨
      (other ≠ connection ∧ phases other = found) := by
  by_cases same : other = connection
  · subst same
    rw [Function.update_self] at here
    exact .inl ⟨rfl, here⟩
  · rw [Function.update_of_ne same] at here
    exact .inr ⟨same, here⟩

/-- What a step that only moves between phases without pending work keeps. -/
structure Moved (state next : State) : Prop where
  changed :
    ∀ connection statement,
      next.phase connection = .changed statement ↔
        state.phase connection = .changed statement
  running :
    ∀ connection statement,
      next.phase connection = .running statement →
      statement.created = none ∨
        state.phase connection = .running statement

namespace Moved

theorem removing
    (moved : Moved state next)
    (id : Option Nat) :
    next.Removing id ↔ state.Removing id := by
  simp only [Removing, moved.changed]

theorem pending
    (moved : Moved state next)
    (connection : Nat)
    (index : Index) :
    next.Pending connection index ↔ state.Pending connection index := by
  simp only [Pending, moved.changed]

theorem live
    (moved : Moved state next)
    (catalog : next.catalog = state.catalog)
    (tree : Tree) :
    next.Live tree ↔ state.Live tree := by
  simp only [Live, listed, moved.removing, catalog]

/-- Into and out of phases with no pending work. -/
theorem setPhase
    {connection : Nat}
    {phase : Phase}
    (left :
      ∀ statement, state.phase connection ≠ .changed statement)
    (entered : ∀ statement, phase ≠ .changed statement)
    (running :
      ∀ statement, phase = .running statement → statement.created = none) :
    Moved state (state.setPhase connection phase) where
  changed := by
    intro other statement
    constructor
    · intro here
      rcases phase_cases here with ⟨-, same⟩ | ⟨-, there⟩
      · exact absurd same (entered statement)
      · exact there
    · intro there
      have different : other ≠ connection := by
        rintro rfl
        exact left statement there
      exact (Function.update_of_ne different _ _).trans there
  running := by
    intro other statement here
    rcases phase_cases here with ⟨-, same⟩ | ⟨-, there⟩
    · exact .inl (running statement same)
    · exact .inr there

end Moved

namespace Planted

theorem initial : Planted initial where
  ids := by decide
  bounded := by
    intro serial listed
    simp [State.listed, SchemaWriteBack.initial, Schema.trees] at listed
  live := by
    rintro tree ⟨listed, -⟩
    obtain rfl : tree = (none, 1) := by
      simpa [State.listed, SchemaWriteBack.initial, Schema.trees] using listed
    decide
  apart := by
    rintro tree other ⟨treeListed, -⟩ ⟨otherListed, -⟩ -
    have first : tree = (none, 1) := by
      simpa [State.listed, SchemaWriteBack.initial, Schema.trees] using treeListed
    have second : other = (none, 1) := by
      simpa [State.listed, SchemaWriteBack.initial, Schema.trees] using otherListed
    exact first.trans second.symm
  unstarted := nofun
  creates := nofun
  removals := by
    rintro serial ⟨_, _, changed, -⟩
    cases changed
  pending := by
    rintro connection index ⟨_, changed, -⟩
    cases changed
  unique := by
    rintro connection other first second ⟨_, changed, -⟩
    cases changed

theorem moved
    (planted : Planted state)
    (moved : Moved state next)
    (catalog : next.catalog = state.catalog)
    (allocated : next.allocated = state.allocated)
    (serials : next.serials = state.serials) :
    Planted next where
  ids := by
    simpa only [listed, catalog] using planted.ids
  bounded := by
    simpa only [listed, catalog, serials] using planted.bounded
  live := by
    simpa only [moved.live catalog, allocated] using planted.live
  apart := by
    simpa only [moved.live catalog] using planted.apart
  unstarted := by
    intro connection statement here
    rcases moved.running connection statement here with created | there
    · exact created
    · exact planted.unstarted connection statement there
  creates := by
    simpa only [moved.changed] using planted.creates
  removals := by
    simpa only [moved.removing, serials] using planted.removals
  pending := by
    simpa only [moved.pending, moved.live catalog, listed, catalog,
      allocated, serials] using planted.pending
  unique := by
    simpa only [moved.pending] using planted.unique

end Planted

/-- A running statement has changed its trees. -/
structure Entered
    (state next : State)
    (connection : Nat)
    (statement : Statement) : Prop where
  before : ∃ earlier, state.phase connection = .running earlier
  changed :
    ∀ other found,
      next.phase other = .changed found ↔
        (other = connection ∧ found = statement) ∨
          state.phase other = .changed found
  running :
    ∀ other found,
      next.phase other = .running found →
      state.phase other = .running found

namespace Entered

variable {connection : Nat} {statement : Statement}

theorem setPhase
    {earlier : Statement}
    (running : state.phase connection = .running earlier) :
    Entered state (state.setPhase connection (.changed statement))
      connection statement where
  before := ⟨earlier, running⟩
  changed := by
    intro other found
    constructor
    · intro here
      rcases phase_cases here with ⟨same, entered⟩ | ⟨-, there⟩
      · exact .inl ⟨same, (Phase.changed.inj entered).symm⟩
      · exact .inr there
    · intro either
      rcases either with ⟨rfl, rfl⟩ | there
      · exact Function.update_self _ _ _
      · have different : other ≠ connection := by
          rintro rfl
          simp [running] at there
        exact (Function.update_of_ne different _ _).trans there
  running := by
    intro other found here
    rcases phase_cases here with ⟨-, entered⟩ | ⟨-, there⟩
    · cases entered
    · exact there

variable (entered : Entered state next connection statement)

include entered in
theorem removing (id : Option Nat) :
    next.Removing id ↔
      id ∈ statement.removes.map Prod.fst ∨ state.Removing id := by
  constructor
  · rintro ⟨other, found, here, removed⟩
    rcases (entered.changed other found).mp here with ⟨-, rfl⟩ | there
    · exact .inl removed
    · exact .inr ⟨other, found, there, removed⟩
  · rintro (removed | ⟨other, found, there, removed⟩)
    · exact ⟨connection, statement,
        (entered.changed _ _).mpr (.inl ⟨rfl, rfl⟩), removed⟩
    · exact ⟨other, found, (entered.changed _ _).mpr (.inr there), removed⟩

include entered in
theorem pending (other : Nat) (index : Index) :
    next.Pending other index ↔
      (other = connection ∧ statement.created = some index) ∨
        state.Pending other index := by
  constructor
  · rintro ⟨found, here, created⟩
    rcases (entered.changed other found).mp here with ⟨same, rfl⟩ | there
    · exact .inl ⟨same, created⟩
    · exact .inr ⟨found, there, created⟩
  · rintro (⟨rfl, created⟩ | ⟨found, there, created⟩)
    · exact ⟨statement, (entered.changed _ _).mpr (.inl ⟨rfl, rfl⟩), created⟩
    · exact ⟨found, (entered.changed _ _).mpr (.inr there), created⟩

include entered in
theorem live
    (catalog : next.catalog = state.catalog)
    (tree : Tree) :
    next.Live tree ↔
      state.Live tree ∧ tree.1 ∉ statement.removes.map Prod.fst := by
  simp only [Live, listed, catalog, entered.removing, not_or]
  constructor
  · rintro ⟨listed, kept, live⟩
    exact ⟨⟨listed, live⟩, kept⟩
  · rintro ⟨⟨listed, live⟩, kept⟩
    exact ⟨listed, kept, live⟩

end Entered

namespace Planted

variable {connection : Nat} {root : UInt32} {statement : Statement}

/-- A new tree takes a page no tree owns and a serial no index has. -/
theorem allocate
    {index : Index}
    {name : String}
    (planted : Planted state)
    (running : state.phase connection = .running statement)
    (kind : statement.kind = .createIndex name)
    (fresh : root ∉ state.allocated)
    (tree : index.tree = (some state.serials, root)) :
    Planted
      { state.setPhase connection
          (.changed { statement with created := some index }) with
        allocated := insert root state.allocated
        serials := state.serials + 1 } := by
  have serial : index.serial = state.serials :=
    Option.some.inj (congrArg Prod.fst tree)
  have rooted : index.root = root := congrArg Prod.snd tree
  have nothing :
      Statement.removes { statement with created := some index } = [] :=
    Statement.removes_createIndex kind
  generalize after :
    ({ state.setPhase connection
        (.changed { statement with created := some index }) with
      allocated := insert root state.allocated
      serials := state.serials + 1 } : State) = next
  have catalog : next.catalog = state.catalog := by rw [← after]; rfl
  have serials : next.serials = state.serials + 1 := by rw [← after]
  have allocated : next.allocated = insert root state.allocated := by
    rw [← after]
  have entered :
      Entered state next connection { statement with created := some index } := by
    have base :
        Entered state
          (state.setPhase connection
            (.changed { statement with created := some index }))
          connection { statement with created := some index } :=
      .setPhase running
    rw [← after]
    exact { base with }
  have live (tree : Tree) : next.Live tree ↔ state.Live tree := by
    rw [entered.live catalog, nothing]
    simp
  have removing (id : Option Nat) : next.Removing id ↔ state.Removing id := by
    rw [entered.removing, nothing]
    simp
  have listed : next.listed = state.listed := by
    simp only [State.listed, catalog]
  have apart (other : Tree) (alive : state.Live other) : other.2 ≠ index.root := by
    rw [rooted]
    intro same
    exact fresh (same ▸ planted.live other alive)
  refine {
    ids := by rw [listed]; exact planted.ids
    bounded := ?_
    live := ?_
    apart := ?_
    unstarted := fun other found here =>
      planted.unstarted other found (entered.running other found here)
    creates := ?_
    removals := ?_
    pending := ?_
    unique := ?_ }
  · intro found here
    rw [listed] at here
    rw [serials]
    exact Nat.lt_succ_of_lt (planted.bounded found here)
  · intro other alive
    rw [allocated]
    exact Finset.mem_insert_of_mem (planted.live other ((live other).mp alive))
  · intro first second firstLive secondLive
    exact planted.apart first second ((live first).mp firstLive)
      ((live second).mp secondLive)
  · intro other found created here isCreated
    rcases (entered.changed other found).mp here with ⟨-, rfl⟩ | there
    · exact ⟨name, kind⟩
    · exact planted.creates other found created there isCreated
  · intro found here
    rw [serials]
    exact Nat.lt_succ_of_lt (planted.removals found ((removing _).mp here))
  · intro other found here
    simp only [live, listed, allocated, serials]
    rcases (entered.pending other found).mp here with ⟨-, created⟩ | there
    · obtain rfl : index = found := Option.some.inj created
      refine ⟨?_, ?_, ?_, apart⟩
      · rw [rooted]
        exact Finset.mem_insert_self _ _
      · rw [serial]
        exact Nat.lt_succ_self _
      · rw [serial]
        intro here
        exact Nat.lt_irrefl _ (planted.bounded _ here)
    · obtain ⟨owned, below, unlisted, distinct⟩ := planted.pending other found there
      exact ⟨Finset.mem_insert_of_mem owned, Nat.lt_succ_of_lt below, unlisted, distinct⟩
  · have older {other : Nat} {found : Index} (there : state.Pending other found) :
        found.serial ≠ index.serial ∧ found.root ≠ index.root := by
      obtain ⟨owned, below, -, -⟩ := planted.pending other found there
      rw [serial, rooted]
      exact ⟨Nat.ne_of_lt below, fun same => fresh (same ▸ owned)⟩
    intro first second firstIndex secondIndex firstHere secondHere different
    rcases (entered.pending _ _).mp firstHere with ⟨firstSame, firstNew⟩ | firstOld
    · obtain rfl : index = firstIndex := Option.some.inj firstNew
      rcases (entered.pending _ _).mp secondHere with ⟨secondSame, -⟩ | secondOld
      · exact absurd (firstSame.trans secondSame.symm) different
      · exact ⟨(older secondOld).1.symm, (older secondOld).2.symm⟩
    · rcases (entered.pending _ _).mp secondHere with ⟨-, secondNew⟩ | secondOld
      · obtain rfl : index = secondIndex := Option.some.inj secondNew
        exact older firstOld
      · exact planted.unique _ _ _ _ firstOld secondOld different

theorem free
    (planted : Planted state)
    (running : state.phase connection = .running statement)
    (kind : ∀ name, statement.kind ≠ .createIndex name)
    (met : ∀ tree ∈ statement.removes, state.Live tree) :
    Planted
      { state.setPhase connection (.changed statement) with
        allocated := state.allocated.filter fun page =>
          page ∉ statement.removes.map Prod.snd } := by
  generalize after :
    ({ state.setPhase connection (.changed statement) with
      allocated := state.allocated.filter fun page =>
        page ∉ statement.removes.map Prod.snd } : State) = next
  have catalog : next.catalog = state.catalog := by rw [← after]; rfl
  have serials : next.serials = state.serials := by rw [← after]; rfl
  have allocated (page : UInt32) :
      page ∈ next.allocated ↔
        page ∈ state.allocated ∧ page ∉ statement.removes.map Prod.snd := by
    rw [← after]
    simp only [Finset.mem_filter]
  have entered : Entered state next connection statement := by
    have base :
        Entered state (state.setPhase connection (.changed statement))
          connection statement :=
      .setPhase running
    rw [← after]
    exact { base with }
  have uncreated := planted.unstarted connection statement running
  have pending (other : Nat) (index : Index) :
      next.Pending other index ↔ state.Pending other index := by
    rw [entered.pending, uncreated]
    simp
  have listed : next.listed = state.listed := by
    simp only [State.listed, catalog]
  have spared (page : UInt32)
      (distinct : ∀ tree ∈ statement.removes, tree.2 ≠ page) :
      page ∉ statement.removes.map Prod.snd := by
    intro freed
    obtain ⟨tree, removed, same⟩ := List.mem_map.mp freed
    exact distinct tree removed same
  refine {
    ids := by rw [listed]; exact planted.ids
    bounded := by rw [listed, serials]; exact planted.bounded
    live := ?_
    apart := ?_
    unstarted := fun other found here =>
      planted.unstarted other found (entered.running other found here)
    creates := ?_
    removals := ?_
    pending := ?_
    unique := ?_ }
  · intro tree alive
    obtain ⟨before, unremoved⟩ := (entered.live catalog tree).mp alive
    refine (allocated tree.2).mpr ⟨planted.live tree before, spared tree.2 ?_⟩
    intro other removed same
    obtain rfl := planted.apart other tree (met other removed) before same
    exact unremoved (List.mem_map_of_mem removed)
  · intro first second firstLive secondLive
    exact planted.apart first second
      ((entered.live catalog first).mp firstLive).1
      ((entered.live catalog second).mp secondLive).1
  · intro other found created here isCreated
    rcases (entered.changed other found).mp here with ⟨-, rfl⟩ | there
    · rw [uncreated] at isCreated
      cases isCreated
    · exact planted.creates other found created there isCreated
  · intro serial here
    rw [serials]
    rcases (entered.removing _).mp here with removed | there
    · obtain ⟨tree, removed, same⟩ := List.mem_map.mp removed
      refine planted.bounded serial ?_
      rw [← same]
      exact List.mem_map_of_mem (met tree removed).1
    · exact planted.removals serial there
  · intro other index here
    obtain ⟨owned, below, unlisted, distinct⟩ :=
      planted.pending other index ((pending other index).mp here)
    rw [listed, serials]
    refine ⟨(allocated _).mpr ⟨owned, spared _ fun tree removed =>
      distinct tree (met tree removed)⟩, below, unlisted, ?_⟩
    intro tree alive
    exact distinct tree ((entered.live catalog tree).mp alive).1
  · intro first second firstIndex secondIndex firstHere secondHere different
    exact planted.unique first second firstIndex secondIndex
      ((pending _ _).mp firstHere) ((pending _ _).mp secondHere) different

theorem put_listed
    (planted : Planted state)
    (changed : state.phase connection = .changed statement)
    (kind : statement.kind ≠ .dropTable)
    (met : state.catalog.map Schema.trees = some statement.schema.trees) :
    (state.put connection statement).listed =
      (state.listed.filter fun tree =>
        tree.1 ∉ statement.removes.map Prod.fst) ++
          statement.created.toList.map Index.tree := by
  have same : state.listed = statement.schema.trees := by
    simp only [listed, met, Option.getD_some]
  cases written : statement.finalSchema with
  | none =>
      unfold Statement.finalSchema at written
      split at written
      · cases written
      · cases written
      · exact absurd ‹_› kind
      · cases written
      · cases written
      · cases written
  | some final =>
      have trees := Statement.finalSchema_trees
        (same ▸ planted.ids)
        (fun index created => planted.creates connection statement index changed created)
        written
      have listed : (state.put connection statement).listed = final.trees := by
        simp only [State.listed, put, written, Option.map_some, Option.getD_some]
      rw [listed, trees, same]

theorem put_listed_dropTable
    (kind : statement.kind = .dropTable) :
    (state.put connection statement).listed = [] := by
  simp [listed, put, Statement.finalSchema, kind]

theorem put_listing
    (planted : Planted state)
    (changed : state.phase connection = .changed statement)
    (met :
      statement.kind ≠ .dropTable →
      state.catalog.map Schema.trees = some statement.schema.trees)
    {tree : Tree}
    (listed : tree ∈ (state.put connection statement).listed) :
    (tree ∈ state.listed ∧ tree.1 ∉ statement.removes.map Prod.fst) ∨
      ∃ index, statement.created = some index ∧ index.tree = tree := by
  by_cases kind : statement.kind = .dropTable
  · rw [put_listed_dropTable kind] at listed
    cases listed
  · rw [planted.put_listed changed kind (met kind)] at listed
    rcases List.mem_append.mp listed with old | new
    · exact .inl (by simpa using List.mem_filter.mp old)
    · obtain ⟨index, created, rfl⟩ := List.mem_map.mp new
      exact .inr ⟨index, Option.mem_toList.mp created, rfl⟩

theorem put_ids
    (planted : Planted state)
    (changed : state.phase connection = .changed statement)
    (met :
      statement.kind ≠ .dropTable →
      state.catalog.map Schema.trees = some statement.schema.trees) :
    ((state.put connection statement).listed.map Prod.fst).Nodup := by
  by_cases kind : statement.kind = .dropTable
  · rw [put_listed_dropTable kind]
    exact List.nodup_nil
  · rw [planted.put_listed changed kind (met kind), List.map_append]
    have kept :
        ((state.listed.filter fun tree =>
          tree.1 ∉ statement.removes.map Prod.fst).map Prod.fst).Nodup :=
      planted.ids.sublist (List.filter_sublist.map Prod.fst)
    cases created : statement.created with
    | none => simpa using kept
    | some index =>
        obtain ⟨-, -, unlisted, -⟩ :=
          planted.pending connection index ⟨statement, changed, created⟩
        refine List.nodup_append.mpr ⟨kept, by simp, ?_⟩
        intro first old second new same
        obtain ⟨tree, found, rfl⟩ := List.mem_map.mp old
        obtain rfl : some index.serial = second := by
          simpa [Index.tree, eq_comm] using new
        exact unlisted (same ▸ List.mem_map_of_mem (List.mem_filter.mp found).1)

theorem put_changed
    {other : Nat}
    {found : Statement} :
    (state.put connection statement).phase other = .changed found ↔
      other ≠ connection ∧ state.phase other = .changed found := by
  constructor
  · intro here
    rcases phase_cases here with ⟨-, entered⟩ | there
    · cases entered
    · exact there
  · rintro ⟨different, there⟩
    exact (Function.update_of_ne different _ _).trans there

theorem put_pending
    {other : Nat}
    {index : Index} :
    (state.put connection statement).Pending other index ↔
      other ≠ connection ∧ state.Pending other index := by
  simp only [Pending, put_changed]
  constructor
  · rintro ⟨found, ⟨different, there⟩, created⟩
    exact ⟨different, found, there, created⟩
  · rintro ⟨different, found, there, created⟩
    exact ⟨found, ⟨different, there⟩, created⟩

theorem removing_of_put
    {id : Option Nat}
    (here : (state.put connection statement).Removing id) :
    state.Removing id := by
  obtain ⟨other, found, changed, removed⟩ := here
  exact ⟨other, found, (put_changed.mp changed).2, removed⟩

theorem removing_put
    {id : Option Nat}
    (changed : state.phase connection = .changed statement)
    (removing : state.Removing id)
    (other : id ∉ statement.removes.map Prod.fst) :
    (state.put connection statement).Removing id := by
  obtain ⟨remover, found, there, removed⟩ := removing
  refine ⟨remover, found, put_changed.mpr ⟨?_, there⟩, removed⟩
  rintro rfl
  obtain rfl : statement = found := Phase.changed.inj (changed.symm.trans there)
  exact other removed

theorem put_live
    (planted : Planted state)
    (changed : state.phase connection = .changed statement)
    (met :
      statement.kind ≠ .dropTable →
      state.catalog.map Schema.trees = some statement.schema.trees)
    {tree : Tree}
    (alive : (state.put connection statement).Live tree) :
    state.Live tree ∨
      ∃ index, state.Pending connection index ∧ index.tree = tree := by
  rcases planted.put_listing changed met alive.1 with ⟨listed, kept⟩ | ⟨index, created, same⟩
  · exact .inl ⟨listed, fun removing => alive.2 (removing_put changed removing kept)⟩
  · exact .inr ⟨index, ⟨statement, changed, created⟩, same⟩

theorem put
    (planted : Planted state)
    (changed : state.phase connection = .changed statement)
    (met :
      statement.kind ≠ .dropTable →
      state.catalog.map Schema.trees = some statement.schema.trees) :
    Planted (state.put connection statement) where
  ids := planted.put_ids changed met
  bounded := by
    intro serial listed
    obtain ⟨tree, here, same⟩ := List.mem_map.mp listed
    rcases planted.put_listing changed met here with ⟨old, -⟩ | ⟨index, created, rfl⟩
    · exact planted.bounded serial (same ▸ List.mem_map_of_mem old)
    · obtain rfl : index.serial = serial := Option.some.inj same
      exact (planted.pending connection index ⟨statement, changed, created⟩).2.1
  live := by
    intro tree alive
    rcases planted.put_live changed met alive with old | ⟨index, pending, rfl⟩
    · exact planted.live tree old
    · exact (planted.pending connection index pending).1
  apart := by
    intro first second firstLive secondLive same
    rcases planted.put_live changed met firstLive with firstOld | ⟨index, pending, rfl⟩
    · rcases planted.put_live changed met secondLive with secondOld | ⟨index, pending, rfl⟩
      · exact planted.apart first second firstOld secondOld same
      · exact absurd same
          ((planted.pending connection index pending).2.2.2 first firstOld)
    · rcases planted.put_live changed met secondLive with secondOld | ⟨other, found, rfl⟩
      · exact absurd same.symm
          ((planted.pending connection index pending).2.2.2 second secondOld)
      · obtain ⟨_, here, created⟩ := pending
        obtain ⟨_, there, alsoCreated⟩ := found
        obtain rfl := Phase.changed.inj (here.symm.trans there)
        rw [Option.some.inj (created.symm.trans alsoCreated)]
  unstarted := by
    intro other found here
    rcases phase_cases here with ⟨-, entered⟩ | ⟨-, there⟩
    · cases entered
    · exact planted.unstarted other found there
  creates other found index here :=
    planted.creates other found index (put_changed.mp here).2
  removals serial here :=
    planted.removals serial (removing_of_put here)
  pending := by
    intro other index here
    obtain ⟨different, before⟩ := put_pending.mp here
    obtain ⟨owned, below, unlisted, distinct⟩ := planted.pending other index before
    refine ⟨owned, below, ?_, ?_⟩
    · intro listed
      obtain ⟨tree, found, same⟩ := List.mem_map.mp listed
      rcases planted.put_listing changed met found with ⟨old, -⟩ | ⟨added, created, rfl⟩
      · exact unlisted (same ▸ List.mem_map_of_mem old)
      · exact (planted.unique other connection index added before
          ⟨statement, changed, created⟩ different).1 (Option.some.inj same).symm
    · intro tree alive
      rcases planted.put_live changed met alive with old | ⟨added, pending, rfl⟩
      · exact distinct tree old
      · exact (planted.unique other connection index added before pending different).2.symm
  unique first second firstIndex secondIndex firstHere secondHere :=
    planted.unique first second firstIndex secondIndex
      (put_pending.mp firstHere).2 (put_pending.mp secondHere).2

end Planted

/-! ## The trail -/

/-- The audit record agrees with the catalog and with the statements under way. -/
structure Recorded (state : State) : Prop where
  unlisted :
    ∀ serial ∈ state.trail.gone,
      some serial ∉ state.listed.map Prod.fst
  goneBounded :
    ∀ serial ∈ state.trail.gone, serial < state.serials
  dropped :
    ∀ serial ∈ state.trail.dropped, serial ∈ state.trail.gone
  added :
    ∀ serial ∈ state.trail.added,
      serial ∉ state.trail.gone →
      some serial ∈ state.listed.map Prod.fst
  pendingGone :
    ∀ connection index,
      state.Pending connection index →
      index.serial ∈ state.trail.gone →
      state.catalog = none
  stagedGone :
    ∀ connection statement serial,
      state.phase connection = .staged statement →
      some serial ∈ statement.removes.map Prod.fst →
      serial ∈ state.trail.gone
  stagedAdded :
    ∀ connection statement index,
      state.phase connection = .staged statement →
      statement.created = some index →
      index.serial ∉ state.trail.gone →
      some index.serial ∈ state.listed.map Prod.fst
  stagedTable :
    ∀ connection statement,
      state.phase connection = .staged statement →
      statement.kind = .dropTable →
      state.catalog = none
  tableDropped :
    state.trail.tableDropped = true → state.catalog = none

theorem mem_serials
    {trees : List Tree}
    {serial : Nat} :
    serial ∈ (trees.filterMap Prod.fst).toFinset ↔
      some serial ∈ trees.map Prod.fst := by
  simp [List.mem_filterMap]

namespace Recorded

variable {connection : Nat} {statement : Statement}

theorem initial : Recorded initial where
  unlisted := nofun
  goneBounded := nofun
  dropped := nofun
  added := nofun
  pendingGone := by
    rintro other index ⟨_, changed, -⟩
    cases changed
  stagedGone := nofun
  stagedAdded := nofun
  stagedTable := nofun
  tableDropped := nofun

/-- A step that neither puts nor commits. -/
theorem quiet
    (recorded : Recorded state)
    (catalog : next.catalog = state.catalog)
    (trail : next.trail = state.trail)
    (serials : state.serials ≤ next.serials)
    (pending :
      ∀ other index,
        next.Pending other index →
        state.Pending other index ∨ index.serial = state.serials)
    (staged :
      ∀ other found,
        next.phase other = .staged found →
        state.phase other = .staged found) :
    Recorded next where
  unlisted := by
    simpa only [listed, catalog, trail] using recorded.unlisted
  goneBounded := by
    intro serial gone
    rw [trail] at gone
    exact Nat.lt_of_lt_of_le (recorded.goneBounded serial gone) serials
  dropped := by
    simpa only [trail] using recorded.dropped
  added := by
    simpa only [listed, catalog, trail] using recorded.added
  pendingGone := by
    intro other index here gone
    rw [trail] at gone
    rw [catalog]
    rcases pending other index here with before | fresh
    · exact recorded.pendingGone other index before gone
    · exact absurd (recorded.goneBounded _ gone) (by rw [fresh]; exact Nat.lt_irrefl _)
  stagedGone := by
    intro other found serial here
    rw [trail]
    exact recorded.stagedGone other found serial (staged other found here)
  stagedAdded := by
    intro other found index here
    simp only [listed, catalog, trail]
    exact recorded.stagedAdded other found index (staged other found here)
  stagedTable := by
    intro other found here
    rw [catalog]
    exact recorded.stagedTable other found (staged other found here)
  tableDropped := by
    rw [trail, catalog]
    exact recorded.tableDropped

theorem commit
    (recorded : Recorded state)
    (staged : state.phase connection = .staged statement)
    (moved : Moved state (state.commit connection statement))
    (others :
      ∀ other found,
        (state.commit connection statement).phase other = .staged found →
        state.phase other = .staged found) :
    Recorded (state.commit connection statement) where
  unlisted := recorded.unlisted
  goneBounded := recorded.goneBounded
  dropped := by
    intro serial dropped
    rcases Finset.mem_union.mp dropped with before | removed
    · exact recorded.dropped serial before
    · exact recorded.stagedGone connection statement serial staged
        (mem_serials.mp removed)
  added := by
    intro serial added unremoved
    rcases Finset.mem_union.mp added with before | new
    · exact recorded.added serial before unremoved
    · obtain ⟨index, created, rfl⟩ := Finset.mem_image.mp new
      exact recorded.stagedAdded connection statement index staged
        (Option.mem_toFinset.mp created) unremoved
  pendingGone other index here :=
    recorded.pendingGone other index ((moved.pending other index).mp here)
  stagedGone other found serial here :=
    recorded.stagedGone other found serial (others other found here)
  stagedAdded other found index here :=
    recorded.stagedAdded other found index (others other found here)
  stagedTable other found here :=
    recorded.stagedTable other found (others other found here)
  tableDropped := by
    intro dropped
    rcases (Bool.or_eq_true _ _).mp dropped with before | now
    · exact recorded.tableDropped before
    · exact recorded.stagedTable connection statement staged (of_decide_eq_true now)

end Recorded

theorem put_catalog_dropTable
    {connection : Nat}
    {statement : Statement}
    (kind : statement.kind = .dropTable) :
    (state.put connection statement).catalog = none := by
  simp [put, Statement.finalSchema, kind]

theorem put_catalog_none
    {connection : Nat}
    {statement : Statement}
    (met :
      statement.kind ≠ .dropTable →
      state.catalog.map Schema.trees = some statement.schema.trees)
    (absent : state.catalog = none) :
    (state.put connection statement).catalog = none := by
  by_cases kind : statement.kind = .dropTable
  · exact put_catalog_dropTable kind
  · have present := met kind
    simp [absent] at present

theorem removedBy_of_kind
    {statement : Statement}
    (kind : statement.kind ≠ .dropTable) :
    state.removedBy statement = (statement.removes.filterMap Prod.fst).toFinset := by
  unfold removedBy
  split
  · exact absurd ‹_› kind
  · rfl

theorem removedBy_dropTable
    {statement : Statement}
    (kind : statement.kind = .dropTable) :
    state.removedBy statement = Finset.range state.serials := by
  simp only [removedBy, kind]

/-- A statement frees trees of the schema it has read. -/
theorem removes_subset
    {statement : Statement}
    {tree : Tree}
    (removed : tree ∈ statement.removes) :
    tree ∈ statement.schema.trees := by
  unfold Statement.removes at removed
  split at removed
  · exact removed
  · obtain ⟨index, found, rfl⟩ := List.mem_map.mp removed
    exact List.mem_cons_of_mem _
      (List.mem_map_of_mem (List.mem_filter.mp found).1)
  · cases removed

namespace Recorded

variable {connection : Nat} {statement : Statement}

theorem mem_removedBy
    (planted : Planted state)
    (changed : state.phase connection = .changed statement)
    {serial : Nat}
    (removed : some serial ∈ statement.removes.map Prod.fst) :
    serial ∈ state.removedBy statement := by
  by_cases kind : statement.kind = .dropTable
  · rw [removedBy_dropTable kind, Finset.mem_range]
    exact planted.removals serial ⟨connection, statement, changed, removed⟩
  · rw [removedBy_of_kind kind]
    exact mem_serials.mpr removed

theorem listed_put
    (planted : Planted state)
    (changed : state.phase connection = .changed statement)
    (met :
      statement.kind ≠ .dropTable →
      state.catalog.map Schema.trees = some statement.schema.trees)
    {serial : Nat}
    (listed : some serial ∈ state.listed.map Prod.fst)
    (kept : serial ∉ state.removedBy statement) :
    some serial ∈ (state.put connection statement).listed.map Prod.fst := by
  by_cases kind : statement.kind = .dropTable
  · rw [removedBy_dropTable kind, Finset.mem_range] at kept
    exact absurd (planted.bounded serial listed) kept
  · obtain ⟨tree, here, same⟩ := List.mem_map.mp listed
    rw [planted.put_listed changed kind (met kind), ← same]
    refine List.mem_map_of_mem
      (List.mem_append_left _ (List.mem_filter.mpr ⟨here, ?_⟩))
    rw [removedBy_of_kind kind] at kept
    rw [same]
    simpa only [decide_eq_true_eq] using fun removed => kept (mem_serials.mpr removed)

/-- An index being created is in no drop's reach. -/
theorem removedBy_pending
    (planted : Planted state)
    (kind : statement.kind ≠ .dropTable)
    (met : state.catalog.map Schema.trees = some statement.schema.trees)
    {other : Nat}
    {index : Index}
    (pending : state.Pending other index) :
    index.serial ∉ state.removedBy statement := by
  rw [removedBy_of_kind kind, mem_serials]
  intro removed
  obtain ⟨tree, freed, same⟩ := List.mem_map.mp removed
  refine (planted.pending other index pending).2.2.1 ?_
  simp only [State.listed, met, Option.getD_some, ← same]
  exact List.mem_map_of_mem (removes_subset freed)

theorem put
    (recorded : Recorded state)
    (planted : Planted state)
    (changed : state.phase connection = .changed statement)
    (met :
      statement.kind ≠ .dropTable →
      state.catalog.map Schema.trees = some statement.schema.trees) :
    Recorded (state.put connection statement) := by
  have creates {index : Index} (created : statement.created = some index) :
      statement.kind ≠ .dropTable := by
    obtain ⟨name, kind⟩ := planted.creates connection statement index changed created
    rw [kind]
    exact nofun
  have pendingGone {other : Nat} {index : Index}
      (pending : state.Pending other index)
      (kind : statement.kind ≠ .dropTable)
      (gone : index.serial ∈ (state.put connection statement).trail.gone) : False := by
    rcases Finset.mem_union.mp gone with before | now
    · have absent := recorded.pendingGone other index pending before
      have present := met kind
      simp [absent] at present
    · exact removedBy_pending planted kind (met kind) pending now
  have kept {serial : Nat}
      (unremoved : serial ∉ (state.put connection statement).trail.gone) :
      serial ∉ state.trail.gone ∧ serial ∉ state.removedBy statement :=
    not_or.mp fun either => unremoved (Finset.mem_union.mpr either)
  refine {
    unlisted := ?_
    goneBounded := ?_
    dropped := fun serial dropped =>
      Finset.mem_union_left _ (recorded.dropped serial dropped)
    added := ?_
    pendingGone := ?_
    stagedGone := ?_
    stagedAdded := ?_
    stagedTable := ?_
    tableDropped := fun dropped =>
      put_catalog_none met (recorded.tableDropped dropped) }
  · intro serial gone listed
    obtain ⟨tree, here, same⟩ := List.mem_map.mp listed
    rcases planted.put_listing changed met here with ⟨old, unremoved⟩ | ⟨index, created, rfl⟩
    · rcases Finset.mem_union.mp gone with before | now
      · exact recorded.unlisted serial before (same ▸ List.mem_map_of_mem old)
      · by_cases kind : statement.kind = .dropTable
        · rw [Planted.put_listed_dropTable kind] at here
          cases here
        · rw [removedBy_of_kind kind, mem_serials] at now
          exact unremoved (same ▸ now)
    · obtain rfl : index.serial = serial := Option.some.inj same
      exact pendingGone ⟨statement, changed, created⟩ (creates created) gone
  · intro serial gone
    rcases Finset.mem_union.mp gone with before | now
    · exact recorded.goneBounded serial before
    · by_cases kind : statement.kind = .dropTable
      · rw [removedBy_dropTable kind] at now
        exact Finset.mem_range.mp now
      · rw [removedBy_of_kind kind, mem_serials] at now
        exact planted.removals serial ⟨connection, statement, changed, now⟩
  · intro serial added unremoved
    exact listed_put planted changed met
      (recorded.added serial added (kept unremoved).1) (kept unremoved).2
  · intro other index here gone
    by_cases kind : statement.kind = .dropTable
    · exact put_catalog_dropTable kind
    · exact (pendingGone (Planted.put_pending.mp here).2 kind gone).elim
  · intro other found serial here removed
    rcases phase_cases here with ⟨-, entered⟩ | ⟨-, there⟩
    · obtain rfl := Phase.staged.inj entered
      exact Finset.mem_union_right _ (mem_removedBy planted changed removed)
    · exact Finset.mem_union_left _
        (recorded.stagedGone other found serial there removed)
  · intro other found index here created unremoved
    rcases phase_cases here with ⟨-, entered⟩ | ⟨-, there⟩
    · obtain rfl := Phase.staged.inj entered
      rw [planted.put_listed changed (creates created) (met (creates created)), created]
      simp [Index.tree]
    · exact listed_put planted changed met
        (recorded.stagedAdded other found index there created (kept unremoved).1)
        (kept unremoved).2
  · intro other found here kind
    rcases phase_cases here with ⟨-, entered⟩ | ⟨-, there⟩
    · obtain rfl := Phase.staged.inj entered
      exact put_catalog_dropTable kind
    · exact put_catalog_none met (recorded.stagedTable other found there kind)

end Recorded

/-- The invariant of a run that meets the condition. -/
structure Sound (state : State) : Prop where
  planted : Planted state
  recorded : Recorded state

theorem Sound.initial : Sound initial :=
  ⟨Planted.initial, Recorded.initial⟩

/-- The invariant gives what the catalog has to keep to. -/
theorem Sound.kept (sound : Sound state) : state.Kept where
  removed serial dropped :=
    sound.recorded.unlisted serial (sound.recorded.dropped serial dropped)
  tableRemoved := sound.recorded.tableDropped
  added := sound.recorded.added
  freed := by
    intro tree listed
    by_cases removing : state.Removing tree.1
    · exact .inr removing
    · exact .inl (sound.planted.live tree ⟨listed, removing⟩)

/-- A phase change without pending work and without a commit. -/
theorem Sound.setPhase
    {connection : Nat}
    {phase : Phase}
    {lock : TableLock}
    (sound : Sound state)
    (left : ∀ statement, state.phase connection ≠ .changed statement)
    (entered :
      ∀ statement, phase ≠ .changed statement ∧ phase ≠ .staged statement)
    (running :
      ∀ statement, phase = .running statement → statement.created = none) :
    Sound { state.setPhase connection phase with lock := lock } := by
  have base : Moved state (state.setPhase connection phase) :=
    .setPhase left (fun statement => (entered statement).1) running
  have moved : Moved state { state.setPhase connection phase with lock := lock } :=
    { base with }
  refine ⟨sound.planted.moved moved rfl rfl rfl,
    sound.recorded.quiet rfl rfl (Nat.le_refl _) ?_ ?_⟩
  · intro other index here
    exact .inl ((moved.pending other index).mp here)
  · intro other found here
    rcases phase_cases here with ⟨-, same⟩ | ⟨-, there⟩
    · exact absurd same (entered found).2
    · exact there

theorem staged_of_changed
    {connection other : Nat}
    {statement found : Statement}
    (here : (state.setPhase connection (.changed statement)).phase other = .staged found) :
    state.phase other = .staged found := by
  rcases phase_cases here with ⟨-, same⟩ | ⟨-, there⟩
  · cases same
  · exact there

/-- Every step that meets the condition keeps the invariant. -/
theorem Sound.step
    {action : Action}
    (sound : Sound state)
    (met : state.Met action)
    (stepped : state.step action = some next) :
    Sound next := by
  cases step_effect stepped with
  | read ready =>
      refine sound.setPhase ?_ (by simp) ?_
      · intro statement here
        rcases ready with idle | ⟨name, populated⟩
        · simp [idle] at here
        · simp [populated] at here
      · rintro statement same
        rw [← Phase.running.inj same]
  | between left entered =>
      refine sound.setPhase (fun statement => (left statement).1)
        (fun statement => (entered statement).2) ?_
      intro statement same
      exact absurd same (entered statement).1
  | allocate running kind fresh tree =>
      refine ⟨sound.planted.allocate running kind fresh tree,
        sound.recorded.quiet rfl rfl (Nat.le_succ _) ?_ fun _ _ => staged_of_changed⟩
      intro other found here
      obtain ⟨statement, changed, created⟩ := here
      rcases phase_cases changed with ⟨-, same⟩ | ⟨-, there⟩
      · rw [← Phase.changed.inj same] at created
        rw [← Option.some.inj created]
        exact .inr (Option.some.inj (congrArg Prod.fst tree))
      · exact .inl ⟨statement, there, created⟩
  | free running kind =>
      have uncreated := sound.planted.unstarted _ _ running
      refine ⟨sound.planted.free running kind fun tree removed =>
          met _ running tree removed,
        sound.recorded.quiet rfl rfl (Nat.le_refl _) ?_ fun _ _ => staged_of_changed⟩
      intro other found here
      obtain ⟨statement, changed, created⟩ := here
      rcases phase_cases changed with ⟨-, same⟩ | ⟨-, there⟩
      · rw [← Phase.changed.inj same, uncreated] at created
        cases created
      · exact .inl ⟨statement, there, created⟩
  | put changed =>
      exact ⟨sound.planted.put changed (met _ changed),
        sound.recorded.put sound.planted changed (met _ changed)⟩
  | @commit connection statement staged =>
      have entered (found : Statement) :
          (match statement.kind with
            | .createIndex name => Phase.built name
            | _ => .idle) ≠ .changed found ∧
          (match statement.kind with
            | .createIndex name => Phase.built name
            | _ => .idle) ≠ .staged found ∧
          (match statement.kind with
            | .createIndex name => Phase.built name
            | _ => .idle) ≠ .running found := by
        split <;> simp
      have base :
          Moved state
            (state.setPhase connection
              (match statement.kind with
                | .createIndex name => .built name
                | _ => .idle)) :=
        .setPhase (by simp [staged]) (fun found => (entered found).1)
          (fun found same => absurd same (entered found).2.2)
      have moved : Moved state (state.commit connection statement) :=
        { base with }
      refine ⟨sound.planted.moved moved rfl rfl rfl,
        sound.recorded.commit staged moved ?_⟩
      intro other found here
      rcases phase_cases here with ⟨-, same⟩ | ⟨-, there⟩
      · exact absurd same (entered found).2.1
      · exact there

end State

open State

/-- No statement has freed trees and not yet put its schema. -/
def Settled (state : State) : Prop :=
  ∀ connection statement, state.phase connection ≠ .changed statement

/-- Whose step it is. -/
def Action.connection : Action → Nat
  | .begin connection _ | .change connection _ | .put connection | .commit connection
  | .populate connection | .populated connection | .finalize connection
  | .abandon connection => connection

theorem read_phase
    {state next : State}
    {connection other : Nat}
    {kind : Kind}
    (foreign : other ≠ connection)
    (stepped : state.read connection kind = some next) :
    next.phase other = state.phase other := by
  obtain ⟨lock, _, stepped⟩ := Option.bind_eq_some_iff.mp stepped
  obtain ⟨schema, _, stepped⟩ := Option.bind_eq_some_iff.mp stepped
  split at stepped
  · obtain rfl := Option.some.inj stepped
    exact Function.update_of_ne foreign ..
  · cases stepped

/-- A step moves the connection it is of and no other. -/
theorem step_phase
    {state next : State}
    {action : Action}
    {other : Nat}
    (foreign : other ≠ action.connection)
    (stepped : state.step action = some next) :
    next.phase other = state.phase other := by
  cases action with
  | begin connection kind =>
      simp only [step] at stepped
      split at stepped
      · exact read_phase foreign stepped
      · cases stepped
  | change connection root =>
      simp only [step, change] at stepped
      split at stepped
      case h_2 => cases stepped
      case h_1 =>
        split at stepped
        case h_1 =>
          split at stepped
          · cases stepped
          · obtain rfl := Option.some.inj stepped
            exact Function.update_of_ne foreign ..
        case h_2 =>
          obtain rfl := Option.some.inj stepped
          exact Function.update_of_ne foreign ..
  | finalize connection =>
      simp only [step] at stepped
      split at stepped
      · exact read_phase foreign stepped
      · cases stepped
  | populate connection =>
      simp only [step] at stepped
      split at stepped
      · obtain ⟨lock, -, rfl⟩ := Option.map_eq_some_iff.mp stepped
        exact Function.update_of_ne foreign ..
      · cases stepped
  | put | commit | populated =>
      simp only [step] at stepped
      split at stepped
      · obtain rfl := Option.some.inj stepped
        exact Function.update_of_ne foreign ..
      · cases stepped
  | abandon connection =>
      simp only [step] at stepped
      split at stepped
      · obtain rfl := Option.some.inj stepped
        exact Function.update_of_ne foreign ..
      · obtain rfl := Option.some.inj stepped
        exact Function.update_of_ne foreign ..
      · cases stepped

theorem run_phase
    {met : State → Action → Prop}
    {actions : List Action}
    {state final : State}
    {other : Nat}
    (run : Run step met state actions final)
    (foreign : ∀ action ∈ actions, other ≠ action.connection) :
    final.phase other = state.phase other := by
  induction run with
  | nil => rfl
  | snoc _ _ last inductionHypothesis =>
      rw [step_phase (foreign _ (List.mem_append_right _ List.mem_cons_self)) last]
      exact inductionHypothesis fun action member => foreign action (List.mem_append_left _ member)

/-- The connection has no freed trees to put. -/
def Phase.rests : Phase → Bool
  | .changed _ => false
  | _ => true

/-- Where every connection of a run rests, no drop is under way. -/
theorem settled_of_run
    {met : State → Action → Prop}
    {actions : List Action}
    {state : State}
    (run : Run step met initial actions state)
    (rests : ∀ action ∈ actions, (state.phase action.connection).rests = true) :
    Settled state := by
  intro connection statement changed
  by_cases named : ∃ action ∈ actions, connection = action.connection
  · obtain ⟨action, member, rfl⟩ := named
    have rest := rests action member
    rw [changed] at rest
    cases rest
  · have idle := run_phase run fun action member same => named ⟨action, member, same⟩
    rw [changed] at idle
    cases idle

/-- With no other drop under way a statement may free the trees it has read. -/
theorem met_change_of_settled
    {state : State}
    {connection : Nat}
    {root : UInt32}
    {statement : Statement}
    (running : state.phase connection = .running statement)
    (settled : Settled state)
    (listed : ∀ tree ∈ statement.removes, tree ∈ state.listed) :
    state.Met (.change connection root) := by
  intro found here tree removed
  obtain rfl := Phase.running.inj (running.symm.trans here)
  refine ⟨listed tree removed, ?_⟩
  rintro ⟨other, changing, changed, -⟩
  exact settled other changing changed

theorem met_change_of_nil
    {state : State}
    {connection : Nat}
    {root : UInt32}
    {statement : Statement}
    (running : state.phase connection = .running statement)
    (nothing : statement.removes = []) :
    state.Met (.change connection root) := by
  intro found here tree removed
  obtain rfl := Phase.running.inj (running.symm.trans here)
  rw [nothing] at removed
  cases removed

theorem met_put_of_trees
    {state : State}
    {connection : Nat}
    {statement : Statement}
    (changed : state.phase connection = .changed statement)
    (same : state.catalog.map Schema.trees = some statement.schema.trees) :
    state.Met (.put connection) := by
  intro found here _
  obtain rfl := Phase.changed.inj (changed.symm.trans here)
  exact same

/-- An `INSERT` and an `ANALYZE` put the same trees back; then the table is dropped. -/
def insertBesideAnalyze : List Action :=
  [.begin 1 .rows, .begin 2 .analyze, .change 1 0, .put 1, .change 2 0,
    .put 2, .commit 2, .commit 1, .begin 3 .dropTable, .change 3 0, .put 3,
    .commit 3]

/-- An `INSERT` that has read its schema when another connection drops the table. -/
def insertOverDrop : List Action :=
  [.begin 1 .rows, .begin 2 .dropTable, .change 2 0, .put 2, .commit 2,
    .change 1 0, .put 1, .commit 1]

end PrehniteDB.SchemaWriteBack
