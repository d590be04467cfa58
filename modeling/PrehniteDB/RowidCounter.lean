import PrehniteDB.TransactionState
import PrehniteDB.TransitionRun

namespace PrehniteDB.RowidCounter

open TransitionRun

/-!
# Rowids of one table

`INSERT`, `UPDATE`, `DELETE` and `ANALYZE` of several connections on one table,
step by step.  Rowids come from a counter shared by the process; the schema in
the catalog carries a copy of it, which seeds the counter after a restart.
Every statement writes back a whole schema that it read at its start.
-/

/-- The fields of `Schema` that row statements change. -/
structure Schema where
  nextRowid : Nat
  rowCount : Nat
  mutationsSinceAnalyze : Nat
  deriving Repr, DecidableEq

/-- `CREATE TABLE`. -/
def Schema.created : Schema where
  nextRowid := 1
  rowCount := 0
  mutationsSinceAnalyze := 0

/-- `u64::saturating_add`. -/
def saturatingAdd (first second : Nat) : Nat :=
  min (first + second) (2 ^ 64 - 1)

/-- The shared counter; `none` until the process asks for it first. -/
abbrev Counter := Option Nat

/-- The counter raised to the floor of a schema. -/
def Counter.raised (counter : Counter) (schemaNextRowid : Nat) : Nat :=
  max (counter.getD schemaNextRowid) schemaNextRowid

/-- The reserved rowid and the counter behind it. -/
def reserveRowid (counter : Counter) (schemaNextRowid : Nat) : Nat × Counter :=
  (counter.raised schemaNextRowid, some (counter.raised schemaNextRowid + 1))

def currentNextRowid (counter : Counter) (schemaNextRowid : Nat) : Nat × Counter :=
  (counter.raised schemaNextRowid, some (counter.raised schemaNextRowid))

inductive Kind where
  | insert
  | update
  | delete
  | analyze
  deriving Repr, DecidableEq

/-- Where a statement stands within the row it works on. -/
inductive Stage where
  | ready
  /-- An `UPDATE` has stamped the old version. -/
  | tombstoned
  | reserved (rowid : Nat)
  /-- The shared counter has been read back into the local schema. -/
  | counted
  deriving Repr, DecidableEq

/-- A statement that has not put its schema back. -/
structure Statement where
  kind : Kind
  txId : Nat
  schema : Schema
  stage : Stage
  changed : Nat
  /-- The rowids it has stored rows under. -/
  wrote : List Nat
  deriving Repr, DecidableEq

/-- The schema the statement puts into the catalog. -/
def Statement.finalSchema (statement : Statement) : Schema :=
  match statement.kind with
  | .insert =>
      { statement.schema with
        rowCount := statement.schema.rowCount + statement.changed
        mutationsSinceAnalyze :=
          saturatingAdd statement.schema.mutationsSinceAnalyze statement.changed }
  | .update =>
      { statement.schema with
        mutationsSinceAnalyze :=
          saturatingAdd statement.schema.mutationsSinceAnalyze statement.changed }
  | .delete =>
      { statement.schema with
        rowCount := statement.schema.rowCount - statement.changed
        mutationsSinceAnalyze :=
          saturatingAdd statement.schema.mutationsSinceAnalyze statement.changed }
  | .analyze => { statement.schema with mutationsSinceAnalyze := 0 }

@[simp]
theorem Statement.finalSchema_nextRowid (statement : Statement) :
    statement.finalSchema.nextRowid = statement.schema.nextRowid := by
  unfold finalSchema
  split <;> rfl

/-- A statement may put its schema now. -/
def Statement.puts (statement : Statement) : Bool :=
  match statement.kind with
  | .insert => statement.stage = .counted
  | .update => statement.stage = .counted
  | .delete => statement.stage = .ready && decide (0 < statement.changed)
  | .analyze => statement.stage = .ready

inductive Connection where
  | idle
  | running (statement : Statement)
  /-- The schema is in the catalog, the pager commit is still to come. -/
  | staged
  deriving Repr, DecidableEq

def Connection.statement? : Connection → Option Statement
  | .running statement => some statement
  | _ => none

structure State (Values : Type) where
  rows : Nat → Option (RowRecord Values)
  /-- The schema every connection reads through the shared pool. -/
  catalog : Schema
  /-- The schema on disk. -/
  committed : Schema
  counter : Counter
  connections : Nat → Connection

variable {Values : Type}

/-- A table that has just been created. -/
def initial : State Values where
  rows := fun _ => none
  catalog := .created
  committed := .created
  counter := none
  connections := fun _ => .idle

inductive Action (Values : Type) where
  | begin (connection : Nat) (kind : Kind) (txId : Nat)
  | tombstone (connection rowid : Nat)
  | reserve (connection : Nat)
  | write (connection : Nat) (values : Values)
  | readCounter (connection : Nat)
  | put (connection : Nat)
  | commit (connection : Nat)
  /-- Close the database and open it again. -/
  | reopen

namespace State

def setConnection
    (state : State Values)
    (connection : Nat)
    (phase : Connection) : State Values :=
  { state with connections := Function.update state.connections connection phase }

/-- The statement a connection runs. -/
def statement? (state : State Values) (connection : Nat) : Option Statement :=
  (state.connections connection).statement?

/-- Stamp one visible version; an `UPDATE` goes on with its new version. -/
def tombstone
    (state : State Values)
    (connection rowid : Nat)
    (statement : Statement) : Option (State Values) :=
  (state.rows rowid).bind fun record =>
    let stamped : State Values :=
      { state with
        rows := Function.update state.rows rowid
          (some { record with txMax := statement.txId }) }
    match statement.kind, statement.stage with
    | .update, .ready =>
        some (stamped.setConnection connection
          (.running { statement with stage := .tombstoned }))
    | .delete, .ready =>
        some (stamped.setConnection connection
          (.running { statement with changed := statement.changed + 1 }))
    | _, _ => none

/-- Reserve the rowid of the next new version. -/
def reserve
    (state : State Values)
    (connection : Nat)
    (statement : Statement) : Option (State Values) :=
  if (statement.kind = .insert ∧ statement.stage = .ready) ∨
      (statement.kind = .update ∧ statement.stage = .tombstoned) then
    let (rowid, counter) := reserveRowid state.counter statement.schema.nextRowid
    some { state.setConnection connection
        (.running { statement with stage := .reserved rowid }) with
      counter := counter }
  else none

/-- Store the new version under the reserved rowid. -/
def write
    (state : State Values)
    (connection : Nat)
    (statement : Statement)
    (values : Values) : Option (State Values) :=
  match statement.stage with
  | .reserved rowid =>
      some { state.setConnection connection
          (.running { statement with
            stage := .ready
            changed := statement.changed + 1
            wrote := rowid :: statement.wrote }) with
        rows := Function.update state.rows rowid
          (some { txMin := statement.txId, txMax := 0, values := values }) }
  | _ => none

/-- The tail of `INSERT` and `UPDATE`: read the counter into the local schema. -/
def readCounter
    (state : State Values)
    (connection : Nat)
    (statement : Statement) : Option (State Values) :=
  if (statement.kind = .insert ∨ statement.kind = .update) ∧ statement.stage = .ready then
    let (nextRowid, counter) := currentNextRowid state.counter statement.schema.nextRowid
    some { state.setConnection connection
        (.running { statement with
          stage := .counted
          schema := { statement.schema with nextRowid := nextRowid } }) with
      counter := counter }
  else none

/-- `catalog.put`. -/
def put
    (state : State Values)
    (connection : Nat)
    (statement : Statement) : Option (State Values) :=
  if statement.puts then
    some { state.setConnection connection .staged with catalog := statement.finalSchema }
  else none

/-- One step, `none` when it is not enabled. -/
def step (state : State Values) : Action Values → Option (State Values)
  | .begin connection kind txId =>
      if state.connections connection = .idle then
        some (state.setConnection connection (.running {
          kind := kind
          txId := txId
          schema := state.catalog
          stage := .ready
          changed := 0
          wrote := [] }))
      else none
  | .tombstone connection rowid =>
      (state.statement? connection).bind (state.tombstone connection rowid)
  | .reserve connection => (state.statement? connection).bind (state.reserve connection)
  | .write connection values =>
      (state.statement? connection).bind fun statement =>
        state.write connection statement values
  | .readCounter connection =>
      (state.statement? connection).bind (state.readCounter connection)
  | .put connection => (state.statement? connection).bind (state.put connection)
  | .commit connection =>
      match state.connections connection with
      | .staged =>
          some { state.setConnection connection .idle with committed := state.catalog }
      | .running statement =>
          -- A `DELETE` that found no row stages nothing.
          if statement.kind = .delete ∧ statement.stage = .ready ∧ statement.changed = 0 then
            some (state.setConnection connection .idle)
          else none
      | .idle => none
  | .reopen => some { state with
      catalog := state.committed
      counter := none
      connections := fun _ => .idle }

/-- A database is closed only after every statement has finished. -/
def Orderly (state : State Values) : Action Values → Prop
  | .reopen => ∀ connection, state.connections connection = .idle
  | _ => True

/--
A schema that goes back into the catalog does not take its counter back: what was put since
the statement has read the shared counter, or at a `DELETE` or `ANALYZE` the schema, has no
higher one.
-/
def Advances (state : State Values) : Action Values → Prop
  | .put connection =>
      ∀ statement ∈ state.statement? connection,
        state.catalog.nextRowid ≤ statement.schema.nextRowid
  | _ => True

instance (state : State Values) (action : Action Values) : Decidable (state.Advances action) :=
  match action with
  | .put connection =>
      inferInstanceAs (Decidable (∀ statement ∈ state.statement? connection, _))
  | .begin .. | .tombstone .. | .reserve _ | .write .. | .readCounter _ | .commit _ | .reopen =>
      inferInstanceAs (Decidable True)

def Advancing (state : State Values) (action : Action Values) : Prop :=
  state.Orderly action ∧ state.Advances action

section Connections

variable
  {state : State Values}
  {connection other : Nat}
  {phase : Connection}

@[simp]
theorem setConnection_self :
    (state.setConnection connection phase).connections connection = phase :=
  Function.update_self _ _ _

theorem setConnection_other (different : other ≠ connection) :
    (state.setConnection connection phase).connections other = state.connections other :=
  Function.update_of_ne different _ _

theorem statement_of_running
    {statement : Statement}
    (running : state.connections connection = .running statement) :
    state.statement? connection = some statement := by
  rw [statement?, running]
  rfl

theorem statement_setConnection
    {statement : Statement}
    (found : (state.setConnection connection phase).statement? other = some statement) :
    (other = connection ∧ phase.statement? = some statement) ∨
      (other ≠ connection ∧ state.statement? other = some statement) := by
  unfold statement? at found
  by_cases here : other = connection
  · subst here
    rw [setConnection_self] at found
    exact .inl ⟨rfl, found⟩
  · rw [setConnection_other here] at found
    exact .inr ⟨here, found⟩

end Connections

/-- The possible outcomes of one enabled step. -/
inductive Effect (state : State Values) : Action Values → State Values → Prop where
  | begin
      {connection txId : Nat}
      {kind : Kind}
      (idle : state.connections connection = .idle) :
      Effect state (.begin connection kind txId)
        (state.setConnection connection (.running {
          kind := kind
          txId := txId
          schema := state.catalog
          stage := .ready
          changed := 0
          wrote := [] }))
  | tombstone
      {connection rowid : Nat}
      {statement later : Statement}
      {record : RowRecord Values}
      (running : state.statement? connection = some statement)
      (found : state.rows rowid = some record)
      (kind : later.kind = statement.kind)
      (schema : later.schema = statement.schema)
      (wrote : later.wrote = statement.wrote)
      (stage : later.stage = .ready ∨ later.stage = .tombstoned) :
      Effect state (.tombstone connection rowid)
        { state.setConnection connection (.running later) with
          rows := Function.update state.rows rowid
            (some { record with txMax := statement.txId }) }
  | reserve
      {connection : Nat}
      {statement : Statement}
      (running : state.statement? connection = some statement)
      (kind : statement.kind = .insert ∨ statement.kind = .update) :
      Effect state (.reserve connection)
        { state.setConnection connection
            (.running { statement with
              stage := .reserved (state.counter.raised statement.schema.nextRowid) }) with
          counter := some (state.counter.raised statement.schema.nextRowid + 1) }
  | write
      {connection rowid : Nat}
      {statement : Statement}
      {values : Values}
      (running : state.statement? connection = some statement)
      (stage : statement.stage = .reserved rowid) :
      Effect state (.write connection values)
        { state.setConnection connection
            (.running { statement with
              stage := .ready
              changed := statement.changed + 1
              wrote := rowid :: statement.wrote }) with
          rows := Function.update state.rows rowid
            (some { txMin := statement.txId, txMax := 0, values := values }) }
  | readCounter
      {connection : Nat}
      {statement : Statement}
      (running : state.statement? connection = some statement)
      (kind : statement.kind = .insert ∨ statement.kind = .update) :
      Effect state (.readCounter connection)
        { state.setConnection connection
            (.running { statement with
              stage := .counted
              schema := { statement.schema with
                nextRowid := state.counter.raised statement.schema.nextRowid } }) with
          counter := some (state.counter.raised statement.schema.nextRowid) }
  | put
      {connection : Nat}
      {statement : Statement}
      (running : state.statement? connection = some statement)
      (puts : statement.puts = true) :
      Effect state (.put connection)
        { state.setConnection connection .staged with catalog := statement.finalSchema }
  | commit
      {connection : Nat}
      (staged : state.connections connection = .staged) :
      Effect state (.commit connection)
        { state.setConnection connection .idle with committed := state.catalog }
  | unchanged
      {connection : Nat}
      {statement : Statement}
      (running : state.connections connection = .running statement)
      (kind : statement.kind = .delete) :
      Effect state (.commit connection) (state.setConnection connection .idle)
  | reopen :
      Effect state .reopen
        { state with
          catalog := state.committed
          counter := none
          connections := fun _ => .idle }

/-- What an enabled step does. -/
theorem step_effect
    {state next : State Values}
    {action : Action Values}
    (stepped : state.step action = some next) :
    Effect state action next := by
  cases action with
  | begin connection kind txId =>
      simp only [step] at stepped
      split at stepped
      case isTrue idle =>
        obtain rfl := Option.some.inj stepped
        exact .begin idle
      case isFalse => cases stepped
  | tombstone connection rowid =>
      obtain ⟨statement, running, stamped⟩ := Option.bind_eq_some_iff.mp stepped
      obtain ⟨record, found, moved⟩ := Option.bind_eq_some_iff.mp stamped
      dsimp only at moved
      split at moved
      · obtain rfl := Option.some.inj moved
        exact .tombstone running found rfl rfl rfl (.inr rfl)
      · next stage =>
        obtain rfl := Option.some.inj moved
        exact .tombstone running found rfl rfl rfl (.inl stage)
      · cases moved
  | reserve connection =>
      obtain ⟨statement, running, moved⟩ := Option.bind_eq_some_iff.mp stepped
      unfold reserve at moved
      split at moved
      case isTrue enabled =>
        obtain rfl := Option.some.inj moved
        have kind : statement.kind = .insert ∨ statement.kind = .update :=
          enabled.imp And.left And.left
        exact .reserve running kind
      case isFalse => cases moved
  | write connection values =>
      obtain ⟨statement, running, moved⟩ := Option.bind_eq_some_iff.mp stepped
      unfold write at moved
      split at moved
      · next stage =>
        obtain rfl := Option.some.inj moved
        exact .write running stage
      · cases moved
  | readCounter connection =>
      obtain ⟨statement, running, moved⟩ := Option.bind_eq_some_iff.mp stepped
      unfold readCounter at moved
      split at moved
      case isTrue enabled =>
        obtain rfl := Option.some.inj moved
        exact .readCounter running enabled.1
      case isFalse => cases moved
  | put connection =>
      obtain ⟨statement, running, moved⟩ := Option.bind_eq_some_iff.mp stepped
      unfold put at moved
      split at moved
      case isTrue puts =>
        obtain rfl := Option.some.inj moved
        exact .put running puts
      case isFalse => cases moved
  | commit connection =>
      simp only [step] at stepped
      split at stepped
      · next staged =>
        obtain rfl := Option.some.inj stepped
        exact .commit staged
      · next statement running =>
        split at stepped
        case isTrue enabled =>
          obtain rfl := Option.some.inj stepped
          exact .unchanged running enabled.1
        case isFalse => cases stepped
      · cases stepped
  | reopen =>
      obtain rfl := Option.some.inj stepped
      exact .reopen

/-- What every running statement satisfies. -/
structure Valid (state : State Values) (statement : Statement) : Prop where
  seeded : state.counter = none → statement.schema.nextRowid = state.catalog.nextRowid
  reserved :
    ∀ rowid,
      statement.stage = .reserved rowid →
        state.rows rowid = none ∧ ∃ value, state.counter = some value ∧ rowid < value
  counted :
    statement.stage = .counted →
      state.counter ≠ none ∧ ∀ rowid ∈ statement.wrote, rowid < statement.schema.nextRowid
  writer :
    (∃ rowid, statement.stage = .reserved rowid) ∨ statement.wrote ≠ [] →
      statement.kind = .insert ∨ statement.kind = .update
  wrote : ∀ rowid ∈ statement.wrote, state.rows rowid ≠ none

/-- Rows are kept, the counter only climbs, and a schema put before its first use changes nothing. -/
theorem Valid.mono
    {state next : State Values}
    {statement : Statement}
    (valid : state.Valid statement)
    (kept : ∀ rowid, state.rows rowid ≠ none → next.rows rowid ≠ none)
    (vacant :
      ∀ rowid,
        statement.stage = .reserved rowid →
          state.rows rowid = none → next.rows rowid = none)
    (climbs :
      ∀ value,
        state.counter = some value → ∃ later, next.counter = some later ∧ value ≤ later)
    (seed :
      next.counter = none →
        state.counter = none ∧ next.catalog.nextRowid = state.catalog.nextRowid) :
    next.Valid statement where
  seeded := by
    intro fresh
    obtain ⟨earlier, same⟩ := seed fresh
    exact (valid.seeded earlier).trans same.symm
  reserved := by
    intro rowid stage
    obtain ⟨free, value, counter, below⟩ := valid.reserved rowid stage
    obtain ⟨later, counterLater, climbed⟩ := climbs value counter
    exact ⟨vacant rowid stage free, later, counterLater, Nat.lt_of_lt_of_le below climbed⟩
  counted := by
    intro stage
    obtain ⟨used, bound⟩ := valid.counted stage
    refine ⟨fun fresh => ?_, bound⟩
    exact used (seed fresh).1
  writer := valid.writer
  wrote := fun rowid member => kept rowid (valid.wrote rowid member)

/-- The invariant of every run. -/
structure Sound (state : State Values) : Prop where
  statements :
    ∀ connection statement,
      state.statement? connection = some statement → state.Valid statement
  stored :
    ∀ rowid,
      state.rows rowid ≠ none → rowid < state.counter.getD state.catalog.nextRowid
  distinct :
    ∀ first second firstStatement secondStatement rowid,
      state.statement? first = some firstStatement →
        state.statement? second = some secondStatement →
          firstStatement.stage = .reserved rowid →
            secondStatement.stage = .reserved rowid →
              first = second
  covered :
    ∀ rowid,
      state.rows rowid ≠ none →
        rowid < state.catalog.nextRowid ∨
          ∃ connection statement,
            state.statement? connection = some statement ∧ rowid ∈ statement.wrote
  committed :
    state.committed = state.catalog ∨
      ∃ connection, state.connections connection = .staged

/-- What the shared counter answers lies above every stored rowid and under every later answer. -/
theorem Sound.raised
    {state : State Values}
    {connection : Nat}
    {statement : Statement}
    (sound : state.Sound)
    (running : state.statement? connection = some statement) :
    (∀ rowid,
        state.rows rowid ≠ none →
          rowid < state.counter.raised statement.schema.nextRowid) ∧
      ∀ value,
        state.counter = some value →
          value ≤ state.counter.raised statement.schema.nextRowid := by
  have valid := sound.statements connection statement running
  unfold Counter.raised
  cases counter : state.counter with
  | none =>
      refine ⟨fun rowid stored => ?_, nofun⟩
      have below := sound.stored rowid stored
      rw [counter, Option.getD_none, ← valid.seeded counter] at below
      exact Nat.lt_of_lt_of_le below (Nat.le_max_right _ _)
  | some value =>
      refine ⟨fun rowid stored => ?_, fun later same => ?_⟩
      · have below := sound.stored rowid stored
        rw [counter, Option.getD_some] at below
        exact Nat.lt_of_lt_of_le below (Nat.le_max_left _ _)
      · obtain rfl := Option.some.inj same
        exact Nat.le_max_left _ _

namespace Sound

variable
  {state next : State Values}
  {connection : Nat}
  {statement later : Statement}

theorem initial : Sound (initial : State Values) where
  statements := nofun
  stored := fun _ stored => absurd rfl stored
  distinct := nofun
  covered := fun _ stored => absurd rfl stored
  committed := .inl rfl

/--
One connection moves on with its statement: rows may be added or stamped, the
counter may climb, the catalog and the other connections stay.
-/
theorem advance
    {rows : Nat → Option (RowRecord Values)}
    {counter : Counter}
    (sound : state.Sound)
    (unstaged : state.connections connection ≠ .staged)
    (wrote :
      ∀ found,
        state.statement? connection = some found →
          ∀ rowid ∈ found.wrote, rowid ∈ later.wrote)
    (kept : ∀ rowid, state.rows rowid ≠ none → rows rowid ≠ none)
    (added :
      ∀ rowid, rows rowid ≠ none → state.rows rowid ≠ none ∨ rowid ∈ later.wrote)
    (climbs :
      ∀ value, state.counter = some value → ∃ later, counter = some later ∧ value ≤ later)
    (stored : ∀ rowid, rows rowid ≠ none → rowid < counter.getD state.catalog.nextRowid)
    (valid :
      Valid { state.setConnection connection (.running later) with
        rows := rows
        counter := counter } later)
    (others :
      ∀ other otherStatement rowid,
        other ≠ connection →
          state.statement? other = some otherStatement →
            otherStatement.stage = .reserved rowid →
              rows rowid = none ∧ later.stage ≠ .reserved rowid) :
    Sound { state.setConnection connection (.running later) with
      rows := rows
      counter := counter } := by
  refine
    { statements := ?_
      stored := stored
      distinct := ?_
      covered := ?_
      committed := ?_ }
  · intro other found foundRunning
    rcases statement_setConnection foundRunning with ⟨rfl, same⟩ | ⟨different, earlier⟩
    · obtain rfl := Option.some.inj same
      exact valid
    · apply (sound.statements other found earlier).mono
      · exact kept
      · exact fun rowid stage _ => (others other found rowid different earlier stage).1
      · exact climbs
      · intro freshCounter
        refine ⟨?_, rfl⟩
        cases used : state.counter with
        | none => rfl
        | some value =>
            obtain ⟨_, counted, _⟩ := climbs value used
            cases freshCounter.symm.trans counted
  · intro first second firstStatement secondStatement rowid firstRunning secondRunning
      firstStage secondStage
    rcases statement_setConnection firstRunning with ⟨rfl, firstSame⟩ | ⟨firstOther, firstOld⟩
    · rcases statement_setConnection secondRunning with ⟨rfl, _⟩ | ⟨secondOther, secondOld⟩
      · rfl
      · obtain rfl := Option.some.inj firstSame
        exact absurd firstStage
          (others second secondStatement rowid secondOther secondOld secondStage).2
    · rcases statement_setConnection secondRunning with
        ⟨rfl, secondSame⟩ | ⟨secondOther, secondOld⟩
      · obtain rfl := Option.some.inj secondSame
        exact absurd secondStage
          (others first firstStatement rowid firstOther firstOld firstStage).2
      · exact sound.distinct first second firstStatement secondStatement rowid firstOld
          secondOld firstStage secondStage
  · intro rowid present
    have own :
        statement? { state.setConnection connection (.running later) with
          rows := rows
          counter := counter } connection = some later :=
      statement_of_running (Function.update_self _ _ _)
    rcases added rowid present with old | new
    · rcases sound.covered rowid old with below | ⟨other, found, foundRunning, member⟩
      · exact .inl below
      · right
        by_cases here : other = connection
        · subst here
          exact ⟨other, later, own, wrote found foundRunning rowid member⟩
        · refine ⟨other, found, ?_, member⟩
          have same : (state.setConnection connection (.running later)).connections other =
              state.connections other := setConnection_other here
          exact (congrArg Connection.statement? same).trans foundRunning
    · exact .inr ⟨connection, later, own, new⟩
  · rcases sound.committed with same | ⟨other, staged⟩
    · exact .inl same
    · refine .inr ⟨other, ?_⟩
      have different : other ≠ connection := by
        rintro rfl
        exact unstaged staged
      exact (Function.update_of_ne different _ _).trans staged

theorem unstaged_of_running (running : state.statement? connection = some statement) :
    state.connections connection ≠ .staged := by
  intro staged
  rw [statement?, staged] at running
  cases running

theorem begin
    {txId : Nat}
    {kind : Kind}
    (sound : state.Sound)
    (idle : state.connections connection = .idle) :
    Sound (state.setConnection connection (.running {
      kind := kind
      txId := txId
      schema := state.catalog
      stage := .ready
      changed := 0
      wrote := [] })) := by
  apply sound.advance
  · rw [idle]
    nofun
  · intro found running
    rw [statement?, idle] at running
    cases running
  · exact fun _ present => present
  · exact fun _ present => .inl present
  · exact fun value counter => ⟨value, counter, Nat.le_refl value⟩
  · exact sound.stored
  · exact {
      seeded := fun _ => rfl
      reserved := nofun
      counted := nofun
      writer := fun writes => by
        rcases writes with ⟨_, stage⟩ | nonempty
        · cases stage
        · exact absurd rfl nonempty
      wrote := nofun }
  · intro other found rowid _ running stage
    exact ⟨((sound.statements other found running).reserved rowid stage).1, nofun⟩

theorem tombstone
    {rowid : Nat}
    {record : RowRecord Values}
    (sound : state.Sound)
    (running : state.statement? connection = some statement)
    (found : state.rows rowid = some record)
    (kind : later.kind = statement.kind)
    (schema : later.schema = statement.schema)
    (wrote : later.wrote = statement.wrote)
    (stage : later.stage = .ready ∨ later.stage = .tombstoned) :
    Sound { state.setConnection connection (.running later) with
      rows := Function.update state.rows rowid
        (some { record with txMax := statement.txId }) } := by
  have valid := sound.statements connection statement running
  have same :
      ∀ other,
        Function.update state.rows rowid (some { record with txMax := statement.txId }) other =
            none ↔
          state.rows other = none := by
    intro other
    by_cases here : other = rowid
    · subst here
      rw [Function.update_self, found]
      exact ⟨nofun, nofun⟩
    · rw [Function.update_of_ne here]
  apply sound.advance
  · exact unstaged_of_running running
  · intro earlier foundRunning other member
    obtain rfl := Option.some.inj (running.symm.trans foundRunning)
    rw [wrote]
    exact member
  · exact fun other => mt (same other).mp
  · exact fun other present => .inl (mt (same other).mpr present)
  · exact fun value counter => ⟨value, counter, Nat.le_refl value⟩
  · exact fun other present => sound.stored other (mt (same other).mpr present)
  · exact {
      seeded := fun fresh => by
        rw [schema]
        exact valid.seeded fresh
      reserved := fun other reserved => by
        rcases stage with ready | tombstoned
        · cases ready.symm.trans reserved
        · cases tombstoned.symm.trans reserved
      counted := fun counted => by
        rcases stage with ready | tombstoned
        · cases ready.symm.trans counted
        · cases tombstoned.symm.trans counted
      writer := fun writes => by
        rw [kind]
        apply valid.writer
        rcases writes with ⟨_, reserved⟩ | nonempty
        · rcases stage with ready | tombstoned
          · cases ready.symm.trans reserved
          · cases tombstoned.symm.trans reserved
        · exact .inr (by rwa [← wrote])
      wrote := fun other member => by
        rw [wrote] at member
        exact mt (same other).mp (valid.wrote other member) }
  · intro other found rowid _ foundRunning reserved
    refine ⟨(same rowid).mpr ((sound.statements other found foundRunning).reserved rowid
      reserved).1, fun own => ?_⟩
    rcases stage with ready | tombstoned
    · cases ready.symm.trans own
    · cases tombstoned.symm.trans own

theorem reserve
    (sound : state.Sound)
    (running : state.statement? connection = some statement)
    (kind : statement.kind = .insert ∨ statement.kind = .update) :
    Sound { state.setConnection connection
        (.running { statement with
          stage := .reserved (state.counter.raised statement.schema.nextRowid) }) with
      counter := some (state.counter.raised statement.schema.nextRowid + 1) } := by
  have valid := sound.statements connection statement running
  obtain ⟨above, climbs⟩ := sound.raised running
  apply sound.advance
  · exact unstaged_of_running running
  · intro earlier foundRunning other member
    obtain rfl := Option.some.inj (running.symm.trans foundRunning)
    exact member
  · exact fun _ present => present
  · exact fun _ present => .inl present
  · exact fun value counter => ⟨_, rfl, Nat.le_succ_of_le (climbs value counter)⟩
  · exact fun rowid present => Nat.lt_succ_of_lt (above rowid present)
  · exact {
      seeded := nofun
      reserved := fun rowid stage => by
        obtain rfl := Stage.reserved.inj stage
        refine ⟨?_, _, rfl, Nat.lt_succ_self _⟩
        by_contra present
        exact Nat.lt_irrefl _ (above _ present)
      counted := nofun
      writer := fun _ => kind
      wrote := valid.wrote }
  · intro other found rowid _ foundRunning stage
    obtain ⟨vacant, value, counter, below⟩ :=
      (sound.statements other found foundRunning).reserved rowid stage
    refine ⟨vacant, fun own => ?_⟩
    obtain rfl := Stage.reserved.inj own
    exact Nat.lt_irrefl _ (Nat.lt_of_lt_of_le below (climbs value counter))

theorem write
    {rowid : Nat}
    {record : RowRecord Values}
    (sound : state.Sound)
    (running : state.statement? connection = some statement)
    (stage : statement.stage = .reserved rowid) :
    Sound { state.setConnection connection
        (.running { statement with
          stage := .ready
          changed := statement.changed + 1
          wrote := rowid :: statement.wrote }) with
      rows := Function.update state.rows rowid (some record) } := by
  have valid := sound.statements connection statement running
  obtain ⟨vacant, value, counter, below⟩ := valid.reserved rowid stage
  have kept :
      ∀ other,
        state.rows other ≠ none → Function.update state.rows rowid (some record) other ≠ none := by
    intro other present
    have different : other ≠ rowid := by
      rintro rfl
      exact present vacant
    rwa [Function.update_of_ne different]
  apply sound.advance
  · exact unstaged_of_running running
  · intro earlier foundRunning other member
    obtain rfl := Option.some.inj (running.symm.trans foundRunning)
    exact List.mem_cons_of_mem rowid member
  · exact kept
  · intro other present
    by_cases here : other = rowid
    · subst here
      exact .inr List.mem_cons_self
    · rw [Function.update_of_ne here] at present
      exact .inl present
  · exact fun value counter => ⟨value, counter, Nat.le_refl value⟩
  · intro other present
    by_cases here : other = rowid
    · subst here
      show other < state.counter.getD state.catalog.nextRowid
      rw [counter]
      exact below
    · rw [Function.update_of_ne here] at present
      exact sound.stored other present
  · exact {
      seeded := fun fresh => by cases counter.symm.trans fresh
      reserved := nofun
      counted := nofun
      writer := fun _ => valid.writer (.inl ⟨rowid, stage⟩)
      wrote := fun other member => by
        rcases List.mem_cons.mp member with rfl | member
        · show Function.update state.rows other (some record) other ≠ none
          rw [Function.update_self]
          nofun
        · exact kept other (valid.wrote other member) }
  · intro other found rowidOther different foundRunning reserved
    refine ⟨?_, nofun⟩
    have apart : rowidOther ≠ rowid := by
      rintro rfl
      exact different (sound.distinct other connection found statement rowidOther
        foundRunning running reserved stage)
    rw [Function.update_of_ne apart]
    exact ((sound.statements other found foundRunning).reserved rowidOther reserved).1

theorem readCounter
    (sound : state.Sound)
    (running : state.statement? connection = some statement)
    (kind : statement.kind = .insert ∨ statement.kind = .update) :
    Sound { state.setConnection connection
        (.running { statement with
          stage := .counted
          schema := { statement.schema with
            nextRowid := state.counter.raised statement.schema.nextRowid } }) with
      counter := some (state.counter.raised statement.schema.nextRowid) } := by
  have valid := sound.statements connection statement running
  obtain ⟨above, climbs⟩ := sound.raised running
  apply sound.advance
  · exact unstaged_of_running running
  · intro earlier foundRunning other member
    obtain rfl := Option.some.inj (running.symm.trans foundRunning)
    exact member
  · exact fun _ present => present
  · exact fun _ present => .inl present
  · exact fun value counter => ⟨_, rfl, climbs value counter⟩
  · exact above
  · exact {
      seeded := nofun
      reserved := nofun
      counted := fun _ => ⟨nofun, fun rowid member => above rowid (valid.wrote rowid member)⟩
      writer := fun _ => kind
      wrote := valid.wrote }
  · intro other found rowid _ foundRunning stage
    exact ⟨((sound.statements other found foundRunning).reserved rowid stage).1, nofun⟩

/-- Rows below the old counter lie below the new one, or are still owed a put. -/
theorem put
    (sound : state.Sound)
    (running : state.statement? connection = some statement)
    (puts : statement.puts = true)
    (advances : state.Advances (.put connection)) :
    Sound { state.setConnection connection .staged with catalog := statement.finalSchema } := by
  have valid := sound.statements connection statement running
  have earlier :
      ∀ {other found},
        statement? { state.setConnection connection .staged with
            catalog := statement.finalSchema } other = some found →
          other ≠ connection ∧ state.statement? other = some found := by
    intro other found foundRunning
    rcases statement_setConnection foundRunning with ⟨_, none⟩ | old
    · cases none
    · exact old
  have counted : statement.wrote ≠ [] → statement.stage = .counted := by
    intro wrote
    unfold Statement.puts at puts
    rcases valid.writer (.inr wrote) with kind | kind
    · rw [kind] at puts
      exact of_decide_eq_true puts
    · rw [kind] at puts
      exact of_decide_eq_true puts
  have seed :
      state.counter = none → statement.schema.nextRowid = state.catalog.nextRowid := valid.seeded
  refine
    { statements := ?_
      stored := ?_
      distinct := ?_
      covered := ?_
      committed := .inr ⟨connection, setConnection_self⟩ }
  · intro other found foundRunning
    obtain ⟨_, old⟩ := earlier foundRunning
    apply (sound.statements other found old).mono
    · exact fun _ present => present
    · exact fun _ _ vacant => vacant
    · exact fun value counter => ⟨value, counter, Nat.le_refl value⟩
    · intro fresh
      exact ⟨fresh, (Statement.finalSchema_nextRowid statement).trans (seed fresh)⟩
  · intro rowid present
    have below := sound.stored rowid present
    show rowid < state.counter.getD statement.finalSchema.nextRowid
    cases counter : state.counter with
    | none =>
        rw [counter] at below
        rw [Statement.finalSchema_nextRowid, seed counter]
        exact below
    | some value =>
        rw [counter] at below
        exact below
  · intro first second firstStatement secondStatement rowid firstRunning secondRunning
    exact sound.distinct first second firstStatement secondStatement rowid
      (earlier firstRunning).2 (earlier secondRunning).2
  · intro rowid present
    rw [show ({ state.setConnection connection .staged with
      catalog := statement.finalSchema } : State Values).catalog.nextRowid =
        statement.schema.nextRowid from Statement.finalSchema_nextRowid statement]
    rcases sound.covered rowid present with below | ⟨other, pending, pendingRunning, member⟩
    · exact .inl (Nat.lt_of_lt_of_le below (advances statement running))
    · by_cases here : other = connection
      · -- Its own rows lie below the counter it has read.
        subst here
        obtain rfl := Option.some.inj (running.symm.trans pendingRunning)
        exact .inl ((valid.counted (counted (List.ne_nil_of_mem member))).2 rowid member)
      · refine .inr ⟨other, pending, ?_, member⟩
        have same : (state.setConnection connection .staged).connections other =
            state.connections other := setConnection_other here
        exact (congrArg Connection.statement? same).trans pendingRunning

theorem finish
    {committed : Schema}
    (sound : state.Sound)
    (silent :
      ∀ found, state.statement? connection = some found → found.wrote = [])
    (persisted :
      committed = state.catalog ∨
        committed = state.committed ∧ state.connections connection ≠ .staged) :
    Sound { state.setConnection connection .idle with committed := committed } := by
  have earlier :
      ∀ {other found},
        statement? { state.setConnection connection .idle with committed := committed } other =
            some found →
          state.statement? other = some found := by
    intro other found foundRunning
    rcases statement_setConnection foundRunning with ⟨_, none⟩ | ⟨_, old⟩
    · cases none
    · exact old
  refine
    { statements := ?_
      stored := sound.stored
      distinct := fun first second firstStatement secondStatement rowid firstRunning
          secondRunning =>
        sound.distinct first second firstStatement secondStatement rowid
          (earlier firstRunning) (earlier secondRunning)
      covered := ?_
      committed := ?_ }
  · intro other found foundRunning
    have valid := sound.statements other found (earlier foundRunning)
    exact {
      seeded := valid.seeded
      reserved := valid.reserved
      counted := valid.counted
      writer := valid.writer
      wrote := valid.wrote }
  · intro rowid present
    rcases sound.covered rowid present with below | ⟨other, found, foundRunning, member⟩
    · exact .inl below
    · have different : other ≠ connection := by
        rintro rfl
        rw [silent found foundRunning] at member
        cases member
      refine .inr ⟨other, found, ?_, member⟩
      have same : (state.setConnection connection .idle).connections other =
          state.connections other := setConnection_other different
      exact (congrArg Connection.statement? same).trans foundRunning
  · rcases persisted with same | ⟨same, unstaged⟩
    · exact .inl same
    · rcases sound.committed with before | ⟨other, staged⟩
      · exact .inl (same.trans before)
      · have different : other ≠ connection := by
          rintro rfl
          exact unstaged staged
        exact .inr ⟨other, (setConnection_other different).trans staged⟩

/-- With every connection idle the catalog on disk covers every row. -/
theorem quiet
    (sound : state.Sound)
    (idle : ∀ connection, state.connections connection = .idle) :
    state.committed = state.catalog ∧
      ∀ rowid, state.rows rowid ≠ none → rowid < state.committed.nextRowid := by
  have same : state.committed = state.catalog := by
    rcases sound.committed with same | ⟨connection, staged⟩
    · exact same
    · cases (idle connection).symm.trans staged
  refine ⟨same, fun rowid present => ?_⟩
  rw [same]
  rcases sound.covered rowid present with below | ⟨connection, statement, running, _⟩
  · exact below
  · rw [statement?, idle connection] at running
    cases running

theorem reopen
    (sound : state.Sound)
    (idle : ∀ connection, state.connections connection = .idle) :
    Sound { state with
      catalog := state.committed
      counter := none
      connections := fun _ => .idle } where
  statements := nofun
  stored := (sound.quiet idle).2
  distinct := nofun
  covered := fun rowid present => .inl ((sound.quiet idle).2 rowid present)
  committed := .inl rfl

/-- Every step keeps the counters ahead of the rowids. -/
theorem step
    {action : Action Values}
    (sound : state.Sound)
    (advancing : state.Advancing action)
    (stepped : state.step action = some next) :
    next.Sound := by
  cases step_effect stepped with
  | begin idle => exact sound.begin idle
  | tombstone running found kind schema wrote stage =>
      exact sound.tombstone running found kind schema wrote stage
  | reserve running kind => exact sound.reserve running kind
  | write running stage => exact sound.write running stage
  | readCounter running kind => exact sound.readCounter running kind
  | put running puts => exact sound.put running puts advancing.2
  | commit staged =>
      apply sound.finish
      · intro found running
        rw [statement?, staged] at running
        cases running
      · exact .inl rfl
  | unchanged running kind =>
      have found := statement_of_running running
      have valid := sound.statements _ _ found
      apply sound.finish
      · intro other otherRunning
        obtain rfl := Option.some.inj (found.symm.trans otherRunning)
        by_contra wrote
        rcases valid.writer (.inr wrote) with insert | update
        · cases kind.symm.trans insert
        · cases kind.symm.trans update
      · exact .inr ⟨rfl, unstaged_of_running found⟩
  | reopen => exact sound.reopen advancing.1

end Sound

theorem orderly_of_open
    {allowed : State Values → Action Values → Prop}
    {state next : State Values}
    {actions : List (Action Values)}
    (run : Run step allowed state actions next)
    (opened : Action.reopen ∉ actions) :
    Run step (fun state action => state.Orderly action ∧ allowed state action) state actions
      next := by
  induction run with
  | nil => exact .nil _
  | @snoc _ _ earlier action _ permitted stepped inductionHypothesis =>
      obtain ⟨before, last⟩ := not_or.mp (mt List.mem_append.mpr opened)
      refine (inductionHypothesis before).snoc ⟨?_, permitted⟩ stepped
      cases action with
      | reopen => exact absurd (List.mem_singleton_self _) last
      | _ => trivial

/-- Two `INSERT`s, each between the steps of the other, and a `DELETE` of the first row. -/
def twoInserts : List (Action Unit) :=
  [.begin 0 .insert 1, .begin 1 .insert 2, .reserve 0, .reserve 1, .write 1 (), .readCounter 1,
    .write 0 (), .put 1, .readCounter 0, .commit 1, .put 0, .begin 1 .delete 3, .commit 0,
    .tombstone 1 1, .put 1, .commit 1]

/-- A `DELETE` reads the schema before an `INSERT` and puts it back after. -/
def staleDelete : List (Action Unit) :=
  [.begin 0 .insert 1, .reserve 0, .write 0 (), .readCounter 0, .put 0, .commit 0,
    .begin 1 .delete 2,
    .begin 0 .insert 3, .reserve 0, .write 0 (), .readCounter 0, .put 0, .commit 0,
    .tombstone 1 1, .put 1, .commit 1]

end State

end PrehniteDB.RowidCounter
