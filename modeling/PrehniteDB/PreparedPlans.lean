import Mathlib.Algebra.Group.Nat.Defs
import Mathlib.Logic.Function.Basic
import PrehniteDB.Error
import PrehniteDB.TransitionRun

namespace PrehniteDB.PreparedPlans

open TransitionRun

/-!
# Cached plans and the schema version

`prepare` plans a statement from the catalog and only then samples the schema
version it stamps the plan with; a DDL statement writes its catalog entry and
only then bumps the version.  The connections take these steps in any order,
and none of them holds a lock from one step to the next.

A schema is kept as far as its trees go.  The planner is a parameter: a
function of the statement and the catalog, which names only roots it finds there.
-/

/-- The root page of a tree; `serial` tells two trees on one page apart and is not in the code. -/
structure Root where
  page : UInt32
  serial : Nat
  deriving Repr, DecidableEq

structure Index where
  name : String
  columns : List Nat
  root : Root
  isBuilding : Bool
  deriving Repr, DecidableEq

/-- The trees of a table. -/
structure Schema where
  root : Root
  indexes : List Index
  deriving Repr, DecidableEq

abbrev Catalog := String → Option Schema

def Schema.roots (schema : Schema) : List Root :=
  schema.root :: schema.indexes.map Index.root

/-- The roots of a catalog entry. -/
def rootsOf (entry : Option Schema) : List Root :=
  (entry.map Schema.roots).getD []

/-- The catalog lists a root in the entry of some table. -/
def Catalog.Lists (catalog : Catalog) (root : Root) : Prop :=
  ∃ table, root ∈ rootsOf (catalog table)

/-- `planner::plan`, and the roots a plan names. -/
structure Planner (Query Plan : Type) where
  plan : Query → Catalog → Except Error Plan
  roots : Plan → List Root
  drawn :
    ∀ {query catalog planned},
      plan query catalog = .ok planned →
      ∀ root ∈ roots planned, catalog.Lists root

/-! ## DDL statements -/

/-- `CREATE INDEX` is two statements of this kind, its first and its last phase. -/
inductive Ddl where
  | createTable (name : String) (indexes : List (String × List Nat))
  | dropTable (name : String)
  | createIndex (name table : String) (columns : List Nat)
  | finalizeIndex (name table : String)
  /-- The table is the one `table_with_index` finds. -/
  | dropIndex (name table : String)
  | analyze (table : String)
  deriving Repr, DecidableEq

/-- What a DDL statement does to one catalog entry. -/
structure Change where
  table : String
  /-- The entry it has read. -/
  found : Option Schema
  /-- The entry it leaves; `none` removes the table. -/
  after : Option Schema
  deriving Repr, DecidableEq

/-- The roots a change takes out of its entry. -/
def Change.removed (change : Change) : List Root :=
  (rootsOf change.found).filter fun root => root ∉ rootsOf change.after

/-- The roots a change brings into its entry. -/
def Change.created (change : Change) : List Root :=
  (rootsOf change.after).filter fun root => root ∉ rootsOf change.found

/-- The unique indexes of a new table, one tree each. -/
def builtIndexes
    (pages : List UInt32)
    (serial : Nat) : List (String × List Nat) → List Index
  | [] => []
  | (name, columns) :: rest =>
      { name := name
        columns := columns
        root := { page := pages.headD 0, serial := serial }
        isBuilding := false } :: builtIndexes pages.tail (serial + 1) rest

/-- The trees a DDL statement allocates. -/
def Ddl.allocates : Ddl → Nat
  | .createTable _ indexes => indexes.length + 1
  | .createIndex .. => 1
  | _ => 0

/-- What a DDL statement makes of the catalog it reads, `none` when a check refuses it. -/
def Ddl.change
    (catalog : Catalog)
    (pages : List UInt32)
    (serial : Nat) : Ddl → Option Change
  | .createTable name indexes =>
      match catalog name with
      | some _ => none
      | none =>
          some {
            table := name
            found := none
            after := some {
              root := { page := pages.headD 0, serial := serial }
              indexes := builtIndexes pages.tail (serial + 1) indexes } }
  | .dropTable name =>
      (catalog name).map fun schema =>
        { table := name, found := some schema, after := none }
  | .createIndex name table columns =>
      (catalog table).bind fun schema =>
        if schema.indexes.any fun index => index.name = name then none
        else
          let index := {
            name := name
            columns := columns
            root := { page := pages.headD 0, serial := serial }
            isBuilding := true }
          some {
            table := table
            found := some schema
            after := some { schema with indexes := schema.indexes ++ [index] } }
  | .finalizeIndex name table =>
      (catalog table).bind fun schema =>
        if schema.indexes.any fun index => index.name = name then
          some {
            table := table
            found := some schema
            after := some { schema with
              indexes := schema.indexes.map fun index =>
                if index.name = name then { index with isBuilding := false }
                else index } }
        else none
  | .dropIndex name table =>
      (catalog table).bind fun schema =>
        if schema.indexes.any fun index => index.name = name then
          some {
            table := table
            found := some schema
            after := some { schema with
              indexes := schema.indexes.filter fun index => index.name ≠ name } }
        else none
  | .analyze table =>
      (catalog table).map fun schema =>
        { table := table, found := some schema, after := some schema }

/-! ## The connections -/

/-- How far a DDL statement has got. -/
inductive Stage where
  | read
  | put
  | bumped
  deriving Repr, DecidableEq

/-- Where a connection stands. -/
inductive Activity (Query Plan : Type) where
  | idle
  /-- Planned, the version still to be sampled; `read` is the catalog the planner saw. -/
  | preparing (query : Query) (plan : Plan) (read : Catalog)
  | altering (stage : Stage) (change : Change)

/-- A cache entry; the statement it came from is not in the code. -/
structure CachedPlan (Query Plan : Type) where
  schemaVersion : Nat
  plan : Plan
  query : Query

/-- The catalog, its version and the connections. -/
structure State (Query Plan : Type) where
  catalog : Catalog
  schemaVersion : Nat
  activity : Nat → Activity Query Plan
  preparedStatements : Nat → Nat → Option (CachedPlan Query Plan)
  nextHandle : Nat → Nat
  serials : Nat
  /-- The roots a completed DDL statement has dropped. -/
  dropped : List Root

/-- The catalog of a database file: no root in two entries, no serial yet to be given out. -/
structure Stored where
  catalog : Catalog
  serials : Nat
  bounded : ∀ {root}, catalog.Lists root → root.serial < serials
  apart :
    ∀ {left right root},
      root ∈ rootsOf (catalog left) →
      root ∈ rootsOf (catalog right) →
      left = right

/-- A server that has just opened its file. -/
def opened (Query Plan : Type) (stored : Stored) : State Query Plan where
  catalog := stored.catalog
  schemaVersion := 1
  activity := fun _ => .idle
  preparedStatements := fun _ _ => none
  nextHandle := fun _ => 1
  serials := stored.serials
  dropped := []

/-- What a connection does next. -/
inductive Action (Query : Type) where
  /-- The planner of `prepare` reads the catalog. -/
  | plan (connection : Nat) (query : Query)
  /-- `prepare` samples the version and stores the plan. -/
  | sample (connection : Nat)
  | takeFreshPreparedPlan (connection handle : Nat)
  | deallocate (connection handle : Nat)
  /-- A DDL statement reads the catalog and allocates its trees on these pages. -/
  | read (connection : Nat) (ddl : Ddl) (pages : List UInt32)
  | put (connection : Nat)
  | bump (connection : Nat)
  | commit (connection : Nat)
  /-- A DDL statement fails before it writes its entry. -/
  | abandon (connection : Nat)
  /-- The pager commit fails; `restored` is the catalog the rollback leaves. -/
  | fail (connection : Nat) (restored : Catalog)

namespace State

variable {Query Plan : Type}

def setActivity
    (state : State Query Plan)
    (connection : Nat)
    (activity : Activity Query Plan) : State Query Plan :=
  { state with activity := Function.update state.activity connection activity }

def setPrepared
    (state : State Query Plan)
    (connection handle : Nat)
    (entry : Option (CachedPlan Query Plan)) : State Query Plan :=
  { state with
    preparedStatements :=
      Function.update state.preparedStatements connection
        (Function.update (state.preparedStatements connection) handle entry) }

/-- The first half of `prepare`: a plan, or an error and nothing changed. -/
def plan
    (planner : Planner Query Plan)
    (state : State Query Plan)
    (connection : Nat)
    (query : Query) : State Query Plan :=
  match planner.plan query state.catalog with
  | .ok planned => state.setActivity connection (.preparing query planned state.catalog)
  | .error _ => state

/-- The second half of `prepare`, once a handle is left. -/
def sample
    (state : State Query Plan)
    (connection : Nat)
    (query : Query)
    (planned : Plan) : State Query Plan :=
  let handle := state.nextHandle connection
  if handle + 1 < 2 ^ 64 then
    { (state.setPrepared connection handle
        (some {
          schemaVersion := state.schemaVersion
          plan := planned
          query := query })).setActivity connection .idle with
      nextHandle := Function.update state.nextHandle connection (handle + 1) }
  else state.setActivity connection .idle

/-- `Database::take_fresh_prepared_plan`; a stale entry is dropped. -/
def takeFreshPreparedPlan
    (state : State Query Plan)
    (connection handle : Nat) : Except Error Plan × State Query Plan :=
  let live := state.schemaVersion
  match state.preparedStatements connection handle with
  | none =>
      (.error (.exec s!"no prepared statement with handle {handle}"), state)
  | some cached =>
      if cached.schemaVersion ≠ live then
        (.error (.exec
          s!"prepared statement {handle} is stale (schema changed); re-prepare"),
          state.setPrepared connection handle none)
      else (.ok cached.plan, state)

/-- `Catalog::put` or `Catalog::remove`. -/
def put
    (state : State Query Plan)
    (connection : Nat)
    (change : Change) : State Query Plan :=
  { state.setActivity connection (.altering .put change) with
    catalog := Function.update state.catalog change.table change.after }

/-- `bump_schema_version`. -/
def bumpSchemaVersion (state : State Query Plan) : State Query Plan :=
  { state with schemaVersion := state.schemaVersion + 1 }

/-- One step, `none` when it is not enabled. -/
def step
    (planner : Planner Query Plan)
    (state : State Query Plan) : Action Query → Option (State Query Plan)
  | .plan connection query =>
      match state.activity connection with
      | .idle => some (state.plan planner connection query)
      | _ => none
  | .sample connection =>
      match state.activity connection with
      | .preparing query planned _ => some (state.sample connection query planned)
      | _ => none
  | .takeFreshPreparedPlan connection handle =>
      match state.activity connection with
      | .idle => some (state.takeFreshPreparedPlan connection handle).2
      | _ => none
  | .deallocate connection handle =>
      match state.activity connection with
      | .idle => some (state.setPrepared connection handle none)
      | _ => none
  | .read connection ddl pages =>
      match state.activity connection with
      | .idle =>
          (ddl.change state.catalog pages state.serials).map fun change =>
            { state.setActivity connection (.altering .read change) with
              serials := state.serials + ddl.allocates }
      | _ => none
  | .put connection =>
      match state.activity connection with
      | .altering .read change => some (state.put connection change)
      | _ => none
  | .bump connection =>
      match state.activity connection with
      | .altering .put change =>
          some (state.bumpSchemaVersion.setActivity connection (.altering .bumped change))
      | _ => none
  | .commit connection =>
      match state.activity connection with
      | .altering .bumped change =>
          some { state.setActivity connection .idle with
            dropped := state.dropped ++ change.removed }
      | _ => none
  | .abandon connection =>
      match state.activity connection with
      | .altering .read _ => some (state.setActivity connection .idle)
      | _ => none
  | .fail connection restored =>
      match state.activity connection with
      | .altering .bumped _ =>
          some { state.setActivity connection .idle with catalog := restored }
      | _ => none

/-- A DDL statement has written its entry and has yet to bump the version. -/
def Unbumped (state : State Query Plan) : Prop :=
  ∃ connection change, state.activity connection = .altering .put change

/-- Some cached plan carries the live version. -/
def HoldsFresh (state : State Query Plan) : Prop :=
  ∃ connection handle cached,
    state.preparedStatements connection handle = some cached ∧
      cached.schemaVersion = state.schemaVersion

/--
The order of steps under which the version tells.  `prepare` samples it while
the catalog is the one it planned from, or one whose bump is still to come; a
plan is taken while no bump is due; a DDL statement writes the entry it has
read; and one that fails takes back its own change, before a plan was cached.
-/
def Ordered (state : State Query Plan) : Action Query → Prop
  | .sample connection =>
      ∀ query planned read,
        state.activity connection = .preparing query planned read →
        read = state.catalog ∨ state.Unbumped
  | .takeFreshPreparedPlan _ _ => ¬ state.Unbumped
  | .put connection =>
      ∀ change,
        state.activity connection = .altering .read change →
        state.catalog change.table = change.found
  | .fail connection restored =>
      ∀ change,
        state.activity connection = .altering .bumped change →
        state.catalog change.table = change.after ∧
          restored = Function.update state.catalog change.table change.found ∧
          (state.HoldsFresh → state.Unbumped)
  | _ => True

/-- A plan is what the planner makes of the catalog now, and names no dropped root. -/
def Valid
    (planner : Planner Query Plan)
    (state : State Query Plan)
    (query : Query)
    (planned : Plan) : Prop :=
  planner.plan query state.catalog = .ok planned ∧
    ∀ root ∈ planner.roots planned, root ∉ state.dropped

end State

end PrehniteDB.PreparedPlans
