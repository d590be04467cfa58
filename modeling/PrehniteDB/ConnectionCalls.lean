import PrehniteDB.TransactionState
import PrehniteDB.TransitionRun

namespace PrehniteDB.ConnectionCalls

open TransitionRun

/-!
# The calls of a connection

Every public call of `Database` as far as it touches the transaction bookkeeping:
the id a connection writes under, the state of its explicit transaction and the
coordinator it shares.  What the planner, the executor, the pager and the commit
log answer is an input of the call.
-/

/-- Where a connection stands with respect to an explicit transaction. -/
inductive TxnState where
  | none
  | opened
  | aborted
  deriving DecidableEq

/-- Plans, as far as the bookkeeping tells them apart. -/
inductive Plan where
  | createTable
  | dropTable
  | createIndex
  | dropIndex
  | insert
  | select
  | update
  | delete
  | vacuum
  | analyze
  | explain (analyze : Bool)
  deriving DecidableEq

/-- `plan_writes`: everything but a `SELECT` takes the reservation path. -/
def Plan.writes (plan : Plan) : Bool :=
  decide (plan ≠ .select)

/-- The plans that answer rows. -/
def Plan.rows : Plan → Bool
  | .select | .explain _ => true
  | _ => false

/-- The plans that `Database` runs without the executor. -/
def Plan.intercepted : Plan → Bool
  | .vacuum | .createIndex => true
  | _ => false

/-- A parsed statement; any but the transaction controls is planned and bound. -/
inductive Statement where
  | begin
  | commit
  | rollback
  | other (planned : Except Error Plan)

/-- What an executed plan answers. -/
inductive Execution where
  | ack (message : String)
  | rows

/-- One connection. -/
structure Database where
  txn : TxnState
  currentTx : Option Nat
  transactionSnapshot : Option Snapshot
  preparedStatements : Nat → Option Plan
  nextHandle : Nat

/-- A connection just opened. -/
def Database.fresh : Database where
  txn := .none
  currentTx := none
  transactionSnapshot := none
  preparedStatements := fun _ => none
  nextHandle := 1

/-- What the parts outside the bookkeeping answer in one call. -/
structure Answers where
  /-- The executor, or `VACUUM` and `CREATE INDEX` for their plans. -/
  executed : Except Error String
  /-- The SSI entries once the statement has recorded its reads and writes. -/
  recorded : Nat → SsiTxState
  /-- `Pager::commit`. -/
  physical : Except Error Unit
  /-- The append to the commit log. -/
  logged : Except Error Unit

/-- One connection and the coordinator it shares with the others. -/
structure Session where
  db : Database
  tx : TxState

/-- What the executor answers for a plan. -/
def Answers.execute (answers : Answers) (plan : Plan) : Except Error Execution :=
  match answers.executed with
  | .error reason => .error reason
  | .ok message => .ok (if plan.rows then .rows else .ack message)

/-- `commit_write` and `rollback_write`: a failed append leaves the coordinator as it was. -/
def resolveLogged
    (tx : TxState)
    (logged : Except Error Unit)
    (id : Nat)
    (outcome : Status) : Except Error Unit × TxState :=
  match logged with
  | .ok () => (.ok (), tx.resolve id outcome)
  | .error reason => (.error reason, tx)

namespace Session

/-- Reserve an id unless the connection already has one. -/
def ensureWriteTx (session : Session) : Session :=
  match session.db.currentTx with
  | some _ => session
  | none =>
      { db := { session.db with currentTx := some session.tx.beginWrite.1 }
        tx := session.tx.beginWrite.2 }

/-- The statement's reads and writes change entries of the SSI map, not its keys. -/
def record (session : Session) (recorded : Nat → SsiTxState) : Session :=
  { session with tx := { session.tx with ssi := { session.tx.ssi with entry := recorded } } }

/-- Take the connection's id and roll it back; the caller may drop the result. -/
def rollbackTx (session : Session) (logged : Except Error Unit) : Except Error Unit × Session :=
  match session.db.currentTx with
  | none => (.ok (), session)
  | some id =>
      ((resolveLogged session.tx logged id .rolledBack).1,
        { db := { session.db with currentTx := none }
          tx := (resolveLogged session.tx logged id .rolledBack).2 })

/-- Take the connection's id and commit it, or roll it back when it is a pivot. -/
def commitTx (session : Session) (logged : Except Error Unit) : Except Error Unit × Session :=
  match session.db.currentTx with
  | none => (.ok (), session)
  | some id =>
      match session.tx.ssiCheckCommit id with
      | .error reason => (.error reason, (session.rollbackTx logged).2)
      | .ok () =>
          ((resolveLogged session.tx logged id .committed).1,
            { db := { session.db with currentTx := none }
              tx := (resolveLogged session.tx logged id .committed).2 })

/-- A statement has succeeded. -/
def settle (session : Session) (writes : Bool) (answers : Answers) :
    Except Error Unit × Session :=
  match if writes then answers.physical else .ok () with
  | .error reason => (.error reason, session)
  | .ok () =>
      if session.db.txn = .none ∧ writes = true then session.commitTx answers.logged
      else (.ok (), session)

/-- A statement has failed: an open transaction is aborted and its id rolled back. -/
def abandon (session : Session) (answers : Answers) : Session :=
  let db := { session.db with
    txn := if session.db.txn = .opened then .aborted else session.db.txn }
  (rollbackTx { session with db := db } answers.logged).2

/-- The id and the SSI entries a plan runs under. -/
def running (session : Session) (plan : Plan) (answers : Answers) : Session :=
  (if plan.writes then session.ensureWriteTx else session).record answers.recorded

/-- Run a plan and end its autocommit transaction. -/
def runPlan (session : Session) (plan : Plan) (answers : Answers) :
    Except Error Execution × Session :=
  match answers.execute plan with
  | .ok result =>
      match (session.running plan answers).settle plan.writes answers with
      | (.ok (), done) => (.ok result, done)
      | (.error reason, done) => (.error reason, done)
  | .error reason => (.error reason, (session.running plan answers).abandon answers)

/-- Only an acknowledged plan is committed here. -/
def runPlanStreaming (session : Session) (plan : Plan) (answers : Answers) :
    Except Error Execution × Session :=
  match answers.execute plan with
  | .ok .rows => (.ok .rows, session.running plan answers)
  | .ok (.ack message) =>
      match (session.running plan answers).settle plan.writes answers with
      | (.ok (), done) => (.ok (.ack message), done)
      | (.error reason, done) => (.error reason, done)
  | .error reason => (.error reason, (session.running plan answers).abandon answers)

/-- `BEGIN`, refused inside a transaction. -/
def beginTransaction (session : Session) : Except Error Execution × Session :=
  if session.db.txn ≠ .none then (.error (.exec "a transaction is already open"), session)
  else
    let id := session.tx.beginWrite.1
    let tx := session.tx.beginWrite.2
    (.ok (.ack "transaction started"),
      { db := { session.db with
          txn := .opened
          currentTx := some id
          transactionSnapshot := some (tx.snapshot (some id)) }
        tx := tx })

/-- The connection leaves its explicit transaction. -/
def closed (session : Session) : Session :=
  { session with db := { session.db with txn := .none, transactionSnapshot := none } }

def commitTransaction (session : Session) (answers : Answers) :
    Except Error Execution × Session :=
  match session.db.txn with
  | .none => (.error (.exec "COMMIT without an open transaction"), session)
  | .opened =>
      match session.closed.commitTx answers.logged with
      | (.ok (), done) => (.ok (.ack "transaction committed"), done)
      | (.error reason, done) => (.error reason, done)
  | .aborted =>
      match session.closed.rollbackTx answers.logged with
      | (.ok (), done) =>
          (.ok (.ack "transaction was aborted and has been rolled back"), done)
      | (.error reason, done) => (.error reason, done)

def rollbackTransaction (session : Session) (answers : Answers) :
    Except Error Execution × Session :=
  if session.db.txn = .none then
    (.error (.exec "ROLLBACK without an open transaction"), session)
  else
    match session.closed.rollbackTx answers.logged with
    | (.ok (), done) => (.ok (.ack "transaction rolled back"), done)
    | (.error reason, done) => (.error reason, done)

def abortTransaction (session : Session) (answers : Answers) : Session :=
  if session.db.txn ≠ .none then (session.closed.rollbackTx answers.logged).2
  else session

/-- The refusal while a failed transaction awaits its `ROLLBACK`. -/
def refused : Error :=
  .exec "transaction is aborted — ROLLBACK to recover"

/-- The part `execute_with_params` and `execute_streaming` share. -/
def dispatch
    (run : Session → Plan → Answers → Except Error Execution × Session)
    (session : Session)
    (statement : Except Error Statement)
    (answers : Answers) : Except Error Execution × Session :=
  match statement with
  | .error reason => (.error reason, session)
  | .ok .begin => session.beginTransaction
  | .ok .commit => session.commitTransaction answers
  | .ok .rollback => session.rollbackTransaction answers
  | .ok (.other planned) =>
      if session.db.txn = .aborted then (.error refused, session)
      else
        match planned with
        | .error reason => (.error reason, session)
        | .ok .vacuum =>
            if session.db.txn = .opened then
              (.error (.exec "VACUUM cannot run inside a transaction"), session)
            else (answers.executed.map .ack, session)
        | .ok .createIndex =>
            if session.db.txn = .opened then
              (.error (.exec "CREATE INDEX cannot run inside a transaction"), session)
            else (answers.executed.map .ack, session)
        | .ok plan => run session plan answers

/-- `execute` is this call without parameters. -/
def executeWithParams (session : Session) (statement : Except Error Statement)
    (answers : Answers) : Except Error Execution × Session :=
  session.dispatch runPlan statement answers

def executeStreaming (session : Session) (statement : Except Error Statement)
    (answers : Answers) : Except Error Execution × Session :=
  session.dispatch runPlanStreaming statement answers

/-- Cache a plan under the next handle. -/
def prepare (session : Session) (statement : Except Error Statement) :
    Except Error Nat × Session :=
  match statement with
  | .error reason => (.error reason, session)
  | .ok (.other (.error reason)) => (.error reason, session)
  | .ok (.other (.ok .vacuum)) =>
      (.error (.exec "VACUUM cannot be prepared; use execute()"), session)
  | .ok (.other (.ok .createIndex)) =>
      (.error (.exec "CREATE INDEX cannot be prepared; use execute()"), session)
  | .ok (.other (.ok plan)) =>
      (.ok session.db.nextHandle,
        { session with
          db := { session.db with
            nextHandle := session.db.nextHandle + 1
            preparedStatements :=
              Function.update session.db.preparedStatements session.db.nextHandle (some plan) } })
  | .ok _ =>
      (.error (.exec "transaction-control statements cannot be prepared; use execute()"), session)

/-- A plan whose schema has moved on is dropped from the cache. -/
def takeFreshPreparedPlan (session : Session) (handle : Nat) (stale : Bool) :
    Except Error Plan × Session :=
  match session.db.preparedStatements handle with
  | none => (.error (.exec s!"no prepared statement with handle {handle}"), session)
  | some plan =>
      if stale then
        (.error (.exec s!"prepared statement {handle} is stale (schema changed); re-prepare"),
          { session with
            db := { session.db with
              preparedStatements :=
                Function.update session.db.preparedStatements handle none } })
      else (.ok plan, session)

/-- The part the two calls for prepared statements share; `bound` is what binding answers. -/
def dispatchPrepared
    (run : Session → Plan → Answers → Except Error Execution × Session)
    (session : Session)
    (handle : Nat)
    (stale : Bool)
    (bound : Except Error Unit)
    (answers : Answers) : Except Error Execution × Session :=
  if session.db.txn = .aborted then (.error refused, session)
  else
    match session.takeFreshPreparedPlan handle stale with
    | (.error reason, taken) => (.error reason, taken)
    | (.ok plan, taken) =>
        match bound with
        | .error reason => (.error reason, taken)
        | .ok () => run taken plan answers

def executePrepared (session : Session) (handle : Nat) (stale : Bool) (bound : Except Error Unit)
    (answers : Answers) : Except Error Execution × Session :=
  session.dispatchPrepared runPlan handle stale bound answers

/-- The cached plan is never a `VACUUM`, so the check for one never fires. -/
def executePreparedStreaming (session : Session) (handle : Nat) (stale : Bool)
    (bound : Except Error Unit) (answers : Answers) : Except Error Execution × Session :=
  session.dispatchPrepared runPlanStreaming handle stale bound answers

def deallocatePrepared (session : Session) (handle : Nat) : Bool × Session :=
  ((session.db.preparedStatements handle).isSome,
    { session with
      db := { session.db with
        preparedStatements := Function.update session.db.preparedStatements handle none } })

/-- Pull the next row of a stream; a fault aborts an open transaction. -/
def streamNext (session : Session) (pulled : Except Error Bool) : Except Error Bool × Session :=
  match pulled with
  | .ok more => (.ok more, session)
  | .error reason =>
      (.error reason,
        { session with
          db := { session.db with
            txn := if session.db.txn = .opened then .aborted else session.db.txn } })

end Session

/-! ## The coordinator and its connections -/

/-- What a client calls. -/
inductive Call where
  | executeWithParams (statement : Except Error Statement) (answers : Answers)
  | executeStreaming (statement : Except Error Statement) (answers : Answers)
  | prepare (statement : Except Error Statement)
  | executePrepared
      (handle : Nat) (stale : Bool) (bound : Except Error Unit) (answers : Answers)
  | executePreparedStreaming
      (handle : Nat) (stale : Bool) (bound : Except Error Unit) (answers : Answers)
  | deallocatePrepared (handle : Nat)
  | streamNext (pulled : Except Error Bool)
  | abortTransaction (answers : Answers)

/-- What a call leaves of the connection and the coordinator. -/
def Session.call (session : Session) : Call → Session
  | .executeWithParams statement answers => (session.executeWithParams statement answers).2
  | .executeStreaming statement answers => (session.executeStreaming statement answers).2
  | .prepare statement => (session.prepare statement).2
  | .executePrepared handle stale bound answers =>
      (session.executePrepared handle stale bound answers).2
  | .executePreparedStreaming handle stale bound answers =>
      (session.executePreparedStreaming handle stale bound answers).2
  | .deallocatePrepared handle => (session.deallocatePrepared handle).2
  | .streamNext pulled => (session.streamNext pulled).2
  | .abortTransaction answers => session.abortTransaction answers

/-- The shared transaction state and the connections. -/
structure State where
  tx : TxState
  databases : Nat → Database

structure Action where
  who : Nat
  call : Call

namespace State

/-- A coordinator just opened, every connection idle. -/
def opened (persistedNextTxId : Nat) (clog : Clog) : State where
  tx := .new persistedNextTxId clog
  databases := fun _ => .fresh

/-- One connection with the coordinator. -/
def session (state : State) (who : Nat) : Session where
  db := state.databases who
  tx := state.tx

def setSession (state : State) (who : Nat) (session : Session) : State where
  tx := session.tx
  databases := Function.update state.databases who session.db

/-- One call of one connection; a call is always possible. -/
def step (state : State) (action : Action) : Option State :=
  some (state.setSession action.who ((state.session action.who).call action.call))

/-- The id belongs to a connection inside an explicit transaction. -/
def Active (state : State) (id : Nat) : Prop :=
  ∃ who, (state.databases who).txn ≠ .none ∧ (state.databases who).currentTx = some id

/-- The bookkeeping holds exactly the ids of the explicit transactions. -/
structure Balanced (state : State) : Prop where
  idle : ∀ who, (state.databases who).txn = .none → (state.databases who).currentTx = none
  inFlight : ∀ id, id ∈ state.tx.inFlight ↔ state.Active id
  slots : ∀ id, id ∈ state.tx.ssi.keys ↔ state.Active id
  oldest :
    IsLeast {id | state.Active id} state.tx.oldestActiveTxId ∨
      ((∀ id, ¬ state.Active id) ∧ state.tx.oldestActiveTxId = state.tx.nextTxId)

end State

/-! ## Where a reservation is released -/

/-- Outside an explicit transaction a plan that reserved an id also ends it: it is not
streamed as rows, and neither its page commit nor its log record fails. -/
def runReleases (streaming : Bool) (db : Database) (plan : Plan) (answers : Answers) : Prop :=
  match answers.executed with
  | .error _ => (plan.writes = true ∨ db.currentTx ≠ none) → answers.logged = .ok ()
  | .ok _ =>
      plan.writes = true → db.txn = .none →
        ¬ (streaming = true ∧ plan.rows = true) ∧
          answers.physical = .ok () ∧ answers.logged = .ok ()

/-- The record that ends the connection's transaction is appended. -/
def endReleases (db : Database) (answers : Answers) : Prop :=
  db.currentTx ≠ none → answers.logged = .ok ()

def statementReleases (streaming : Bool) (db : Database) (answers : Answers) :
    Except Error Statement → Prop
  | .ok .commit | .ok .rollback => endReleases db answers
  | .ok (.other (.ok plan)) =>
      db.txn ≠ .aborted → plan.intercepted = false → runReleases streaming db plan answers
  | _ => True

def preparedReleases (streaming : Bool) (db : Database) (handle : Nat) (answers : Answers) :
    Prop :=
  ∀ plan, db.txn ≠ .aborted → db.preparedStatements handle = some plan →
    runReleases streaming db plan answers

/-- The condition on one call, in the state before it. -/
def Releases (state : State) (action : Action) : Prop :=
  let db := state.databases action.who
  match action.call with
  | .executeWithParams statement answers => statementReleases false db answers statement
  | .executeStreaming statement answers => statementReleases true db answers statement
  | .executePrepared handle _ _ answers => preparedReleases false db handle answers
  | .executePreparedStreaming handle _ _ answers => preparedReleases true db handle answers
  | .abortTransaction answers => endReleases db answers
  | _ => True

/-! ## One connection among the others -/

/-- The ids in flight are the connection's own and those of the others. -/
structure Holds (others : Set Nat) (session : Session) : Prop where
  inFlight : ∀ id, id ∈ session.tx.inFlight ↔ session.db.currentTx = some id ∨ id ∈ others
  slots : session.tx.ssi.keys = session.tx.inFlight
  assigned : ∀ id ∈ session.tx.inFlight, id < session.tx.nextTxId
  apart : ∀ id, session.db.currentTx = some id → id ∉ others

/-- Outside an explicit transaction the connection has no id. -/
def Idle (db : Database) : Prop :=
  db.txn = .none → db.currentTx = none

namespace Holds

variable {others : Set Nat} {session : Session}

/-- Only the id of the connection counts. -/
theorem withDb
    (holds : Holds others session)
    {db : Database}
    (same : db.currentTx = session.db.currentTx) :
    Holds others { session with db := db } where
  inFlight := by
    intro id
    rw [same]
    exact holds.inFlight id
  slots := holds.slots
  assigned := holds.assigned
  apart := by
    intro id current
    exact holds.apart id (same ▸ current)

theorem record
    (holds : Holds others session)
    (recorded : Nat → SsiTxState) :
    Holds others (session.record recorded) :=
  { holds with }

theorem next_notMem (holds : Holds others session) : session.tx.nextTxId ∉ others := by
  intro taken
  have below := holds.assigned _ ((holds.inFlight _).mpr (.inr taken))
  exact Nat.lt_irrefl _ below

/-- A reservation for a connection that has no id. -/
theorem reserve
    (holds : Holds others session)
    (without : session.db.currentTx = none)
    {db : Database}
    (current : db.currentTx = some session.tx.beginWrite.1) :
    Holds others { db := db, tx := session.tx.beginWrite.2 } where
  inFlight := by
    intro id
    change id ∈ insert session.tx.nextTxId session.tx.inFlight ↔ db.currentTx = some id ∨ _
    rw [Finset.mem_insert, holds.inFlight id, without, current]
    constructor
    · rintro (rfl | none | other)
      · exact .inl rfl
      · cases none
      · exact .inr other
    · rintro (own | other)
      · exact .inl (Option.some.inj own).symm
      · exact .inr (.inr other)
  slots := congrArg (insert session.tx.nextTxId) holds.slots
  assigned := by
    intro id member
    rcases Finset.mem_insert.mp member with rfl | earlier
    · exact Nat.lt_succ_self _
    · exact Nat.lt_succ_of_lt (holds.assigned id earlier)
  apart := by
    intro id own
    obtain rfl : session.tx.nextTxId = id := Option.some.inj (current.symm.trans own)
    exact holds.next_notMem

theorem ensureWriteTx (holds : Holds others session) : Holds others session.ensureWriteTx := by
  unfold Session.ensureWriteTx
  cases current : session.db.currentTx with
  | some id => exact holds
  | none => exact holds.reserve current rfl

/-- An appended outcome gives the connection's id back. -/
theorem release
    (holds : Holds others session)
    {id : Nat}
    (current : session.db.currentTx = some id)
    (outcome : Status) :
    Holds others {
      db := { session.db with currentTx := none }
      tx := session.tx.resolve id outcome } where
  inFlight := by
    intro other
    change other ∈ session.tx.inFlight.erase id ↔ none = some other ∨ _
    rw [Finset.mem_erase, holds.inFlight other, current]
    constructor
    · rintro ⟨different, own | foreign⟩
      · exact absurd (Option.some.inj own).symm different
      · exact .inr foreign
    · rintro (none | foreign)
      · cases none
      · refine ⟨?_, .inr foreign⟩
        rintro rfl
        exact holds.apart other current foreign
  slots := congrArg (Finset.erase · id) holds.slots
  assigned := fun other member => holds.assigned other (Finset.mem_of_mem_erase member)
  apart := by rintro other ⟨⟩

theorem rollbackTx
    (holds : Holds others session)
    {logged : Except Error Unit}
    (appended : session.db.currentTx ≠ none → logged = .ok ()) :
    Holds others (session.rollbackTx logged).2 := by
  unfold Session.rollbackTx
  cases current : session.db.currentTx with
  | none => exact holds
  | some id =>
      obtain rfl := appended (by rw [current]; exact Option.some_ne_none id)
      exact holds.release current .rolledBack

theorem commitTx
    (holds : Holds others session)
    {logged : Except Error Unit}
    (appended : session.db.currentTx ≠ none → logged = .ok ()) :
    Holds others (session.commitTx logged).2 := by
  unfold Session.commitTx
  cases current : session.db.currentTx with
  | none => exact holds
  | some id =>
      cases check : session.tx.ssiCheckCommit id with
      | error reason =>
          simp only [check]
          exact holds.rollbackTx appended
      | ok _ =>
          obtain rfl := appended (by rw [current]; exact Option.some_ne_none id)
          simp only [check]
          exact holds.release current .committed

theorem running
    (holds : Holds others session)
    (plan : Plan)
    (answers : Answers) :
    Holds others (session.running plan answers) := by
  unfold Session.running
  split_ifs with writes
  · exact holds.ensureWriteTx.record _
  · exact holds.record _

end Holds

namespace Session

variable {session : Session}

/-- Whatever the log answers, a rollback takes the connection's id. -/
theorem rollbackTx_currentTx (logged : Except Error Unit) :
    (session.rollbackTx logged).2.db.currentTx = none := by
  unfold rollbackTx
  cases current : session.db.currentTx with
  | none => exact current
  | some id => rfl

theorem commitTx_currentTx (logged : Except Error Unit) :
    (session.commitTx logged).2.db.currentTx = none := by
  unfold commitTx
  cases current : session.db.currentTx with
  | none => exact current
  | some id =>
      cases check : session.tx.ssiCheckCommit id with
      | error reason =>
          simp only [check]
          exact rollbackTx_currentTx logged
      | ok _ => simp only [check]

@[simp]
theorem ensureWriteTx_txn : session.ensureWriteTx.db.txn = session.db.txn := by
  unfold ensureWriteTx
  cases session.db.currentTx <;> rfl

@[simp]
theorem running_txn (plan : Plan) (answers : Answers) :
    (session.running plan answers).db.txn = session.db.txn := by
  unfold running
  split_ifs <;> simp [record]

/-- A plan that does not write leaves the id alone. -/
theorem running_currentTx
    {plan : Plan}
    (reads : plan.writes = false)
    (answers : Answers) :
    (session.running plan answers).db.currentTx = session.db.currentTx := by
  simp [running, reads, record]

end Session

/-- A connection between two calls. -/
structure Quiet (others : Set Nat) (session : Session) : Prop where
  holds : Holds others session
  idle : Idle session.db

namespace Quiet

variable {others : Set Nat} {session : Session}

/-- Once its id is taken back a connection is quiet. -/
theorem ofEnded
    (holds : Holds others session)
    (ended : session.db.currentTx = none) :
    Quiet others session where
  holds := holds
  idle := fun _ => ended

theorem abandon
    (quiet : Quiet others session)
    {plan : Plan}
    {answers : Answers}
    (appended : (plan.writes = true ∨ session.db.currentTx ≠ none) → answers.logged = .ok ()) :
    Quiet others ((session.running plan answers).abandon answers) := by
  let running := session.running plan answers
  let db : Database := { running.db with
    txn := if running.db.txn = .opened then .aborted else running.db.txn }
  have marked : Holds others { running with db := db } :=
    (quiet.holds.running plan answers).withDb rfl
  refine .ofEnded (marked.rollbackTx ?_) (Session.rollbackTx_currentTx _)
  intro current
  apply appended
  by_cases writes : plan.writes = true
  · exact .inl writes
  · right
    rw [Bool.not_eq_true] at writes
    change (session.running plan answers).db.currentTx ≠ none at current
    rwa [Session.running_currentTx writes] at current

/-- A statement that keeps its id runs inside an explicit transaction. -/
theorem running
    (quiet : Quiet others session)
    {plan : Plan}
    (answers : Answers)
    (inside : plan.writes = true → session.db.txn ≠ .none) :
    Quiet others (session.running plan answers) where
  holds := quiet.holds.running plan answers
  idle := by
    intro outside
    rw [Session.running_txn] at outside
    by_cases writes : plan.writes = true
    · exact absurd outside (inside writes)
    · rw [Bool.not_eq_true] at writes
      rw [Session.running_currentTx writes]
      exact quiet.idle outside

theorem settle
    (quiet : Quiet others session)
    {plan : Plan}
    {answers : Answers}
    (released :
      plan.writes = true → session.db.txn = .none →
        answers.physical = .ok () ∧ answers.logged = .ok ()) :
    Quiet others ((session.running plan answers).settle plan.writes answers).2 := by
  by_cases ends : session.db.txn = .none ∧ plan.writes = true
  · obtain ⟨outside, writes⟩ := ends
    obtain ⟨physical, logged⟩ := released writes outside
    have settled :
        (session.running plan answers).settle plan.writes answers =
          (session.running plan answers).commitTx answers.logged := by
      simp only [Session.settle, writes, physical, Session.running_txn, outside, if_true,
        and_self]
    rw [settled]
    exact .ofEnded ((quiet.holds.running plan answers).commitTx fun _ => logged)
      (Session.commitTx_currentTx _)
  · have kept : ((session.running plan answers).settle plan.writes answers).2 =
        session.running plan answers := by
      unfold Session.settle
      rw [Session.running_txn]
      cases if plan.writes = true then answers.physical else .ok () with
      | error reason => rfl
      | ok _ => simp only [if_neg ends]
    rw [kept]
    exact quiet.running answers fun writes outside => ends ⟨outside, writes⟩

theorem runPlan
    (quiet : Quiet others session)
    {plan : Plan}
    {answers : Answers}
    (released : runReleases false session.db plan answers) :
    Quiet others (session.runPlan plan answers).2 := by
  unfold runReleases at released
  unfold Session.runPlan Answers.execute
  cases executed : answers.executed with
  | error reason =>
      rw [executed] at released
      exact quiet.abandon released
  | ok message =>
      rw [executed] at released
      have settled := quiet.settle fun writes outside => (released writes outside).2
      generalize (session.running plan answers).settle plan.writes answers = result at settled
      obtain ⟨_ | _, done⟩ := result <;> exact settled

theorem runPlanStreaming
    (quiet : Quiet others session)
    {plan : Plan}
    {answers : Answers}
    (released : runReleases true session.db plan answers) :
    Quiet others (session.runPlanStreaming plan answers).2 := by
  unfold runReleases at released
  unfold Session.runPlanStreaming Answers.execute
  cases executed : answers.executed with
  | error reason =>
      rw [executed] at released
      exact quiet.abandon released
  | ok message =>
      rw [executed] at released
      by_cases rows : plan.rows = true
      · simp only [rows, if_true]
        refine quiet.running answers fun writes outside => ?_
        exact (released writes outside).1 ⟨rfl, rows⟩
      · simp only [rows, if_false, Bool.false_eq_true]
        have settled := quiet.settle fun writes outside => (released writes outside).2
        generalize (session.running plan answers).settle plan.writes answers = result at settled
        obtain ⟨_ | _, done⟩ := result <;> exact settled

theorem beginTransaction (quiet : Quiet others session) :
    Quiet others session.beginTransaction.2 := by
  unfold Session.beginTransaction
  split_ifs with inside
  · exact quiet
  · exact ⟨quiet.holds.reserve (quiet.idle (not_not.mp inside)) rfl, nofun⟩

theorem closed (quiet : Quiet others session) : Holds others session.closed :=
  quiet.holds.withDb rfl

theorem closed_rollback
    (quiet : Quiet others session)
    {answers : Answers}
    (released : endReleases session.db answers) :
    Quiet others (session.closed.rollbackTx answers.logged).2 :=
  .ofEnded (quiet.closed.rollbackTx released) (Session.rollbackTx_currentTx _)

theorem closed_commit
    (quiet : Quiet others session)
    {answers : Answers}
    (released : endReleases session.db answers) :
    Quiet others (session.closed.commitTx answers.logged).2 :=
  .ofEnded (quiet.closed.commitTx released) (Session.commitTx_currentTx _)

theorem commitTransaction
    (quiet : Quiet others session)
    {answers : Answers}
    (released : endReleases session.db answers) :
    Quiet others (session.commitTransaction answers).2 := by
  unfold Session.commitTransaction
  cases session.db.txn with
  | none => exact quiet
  | opened =>
      have done := quiet.closed_commit released
      generalize session.closed.commitTx answers.logged = result at done
      obtain ⟨_ | _, after⟩ := result <;> exact done
  | aborted =>
      have done := quiet.closed_rollback released
      generalize session.closed.rollbackTx answers.logged = result at done
      obtain ⟨_ | _, after⟩ := result <;> exact done

theorem rollbackTransaction
    (quiet : Quiet others session)
    {answers : Answers}
    (released : endReleases session.db answers) :
    Quiet others (session.rollbackTransaction answers).2 := by
  unfold Session.rollbackTransaction
  split_ifs
  · exact quiet
  · have done := quiet.closed_rollback released
    generalize session.closed.rollbackTx answers.logged = result at done
    obtain ⟨_ | _, after⟩ := result <;> exact done

theorem abortTransaction
    (quiet : Quiet others session)
    {answers : Answers}
    (released : endReleases session.db answers) :
    Quiet others (session.abortTransaction answers) := by
  unfold Session.abortTransaction
  split_ifs
  · exact quiet.closed_rollback released
  · exact quiet

/-- Both forms of a statement, by what they do with a plan. -/
theorem dispatch
    (quiet : Quiet others session)
    {run : Session → Plan → Answers → Except Error Execution × Session}
    {streaming : Bool}
    {answers : Answers}
    (runs : ∀ plan, runReleases streaming session.db plan answers →
      Quiet others (run session plan answers).2)
    {statement : Except Error Statement}
    (released : statementReleases streaming session.db answers statement) :
    Quiet others (session.dispatch run statement answers).2 := by
  unfold Session.dispatch
  rcases statement with reason | (_ | _ | _ | planned)
  · exact quiet
  · exact quiet.beginTransaction
  · exact quiet.commitTransaction released
  · exact quiet.rollbackTransaction released
  · by_cases awaiting : session.db.txn = .aborted
    · simp only [awaiting, if_true]
      exact quiet
    · simp only [awaiting, if_false]
      rcases planned with reason | plan
      · exact quiet
      · cases plan with
        | vacuum =>
            dsimp only
            split_ifs <;> exact quiet
        | createIndex =>
            dsimp only
            split_ifs <;> exact quiet
        | _ => exact runs _ (released awaiting rfl)

theorem prepare
    (quiet : Quiet others session)
    (statement : Except Error Statement) :
    Quiet others (session.prepare statement).2 := by
  unfold Session.prepare
  rcases statement with reason | (_ | _ | _ | (reason | plan))
  · exact quiet
  · exact quiet
  · exact quiet
  · exact quiet
  · exact quiet
  · cases plan with
    | vacuum => exact quiet
    | createIndex => exact quiet
    | _ => exact ⟨quiet.holds.withDb rfl, quiet.idle⟩

theorem takeFreshPreparedPlan
    (quiet : Quiet others session)
    (handle : Nat)
    (stale : Bool) :
    Quiet others (session.takeFreshPreparedPlan handle stale).2 := by
  unfold Session.takeFreshPreparedPlan
  cases session.db.preparedStatements handle with
  | none => exact quiet
  | some plan =>
      dsimp only
      split_ifs
      · exact ⟨quiet.holds.withDb rfl, quiet.idle⟩
      · exact quiet

theorem dispatchPrepared
    (quiet : Quiet others session)
    {run : Session → Plan → Answers → Except Error Execution × Session}
    {streaming : Bool}
    {answers : Answers}
    (runs : ∀ plan, runReleases streaming session.db plan answers →
      Quiet others (run session plan answers).2)
    {handle : Nat}
    (released : preparedReleases streaming session.db handle answers)
    (stale : Bool)
    (bound : Except Error Unit) :
    Quiet others (session.dispatchPrepared run handle stale bound answers).2 := by
  unfold Session.dispatchPrepared
  by_cases awaiting : session.db.txn = .aborted
  · simp only [awaiting, if_true]
    exact quiet
  · simp only [awaiting, if_false]
    have taken := quiet.takeFreshPreparedPlan handle stale
    unfold Session.takeFreshPreparedPlan at taken ⊢
    cases cached : session.db.preparedStatements handle with
    | none => exact quiet
    | some plan =>
        rw [cached] at taken
        cases stale with
        | true => exact taken
        | false =>
            rcases bound with reason | _
            · exact quiet
            · exact runs plan (released plan awaiting cached)

theorem call
    {state : State}
    {action : Action}
    (quiet : Quiet others (state.session action.who))
    (released : Releases state action) :
    Quiet others ((state.session action.who).call action.call) := by
  obtain ⟨who, call⟩ := action
  cases call with
  | executeWithParams statement answers =>
      exact quiet.dispatch (fun _ => quiet.runPlan) released
  | executeStreaming statement answers =>
      exact quiet.dispatch (fun _ => quiet.runPlanStreaming) released
  | prepare statement => exact quiet.prepare statement
  | executePrepared handle stale bound answers =>
      exact quiet.dispatchPrepared (fun _ => quiet.runPlan) released stale bound
  | executePreparedStreaming handle stale bound answers =>
      exact quiet.dispatchPrepared (fun _ => quiet.runPlanStreaming) released stale bound
  | deallocatePrepared handle => exact ⟨quiet.holds.withDb rfl, quiet.idle⟩
  | streamNext pulled =>
      cases pulled with
      | ok more => exact quiet
      | error reason =>
          refine ⟨quiet.holds.withDb rfl, ?_⟩
          intro outside
          apply quiet.idle
          change (if (state.session who).db.txn = .opened then TxnState.aborted else _) = _
            at outside
          split_ifs at outside with inside
          exact outside
  | abortTransaction answers => exact quiet.abortTransaction released

end Quiet

/-! ## Every connection -/

/-- The ids the other connections have. -/
def State.others (state : State) (who : Nat) : Set Nat :=
  {id | ∃ other, other ≠ who ∧ (state.databases other).currentTx = some id}

/-- Every id in flight has one owner, and only explicit transactions own one. -/
structure Accounted (state : State) : Prop where
  inFlight : ∀ id, id ∈ state.tx.inFlight ↔
    ∃ who, (state.databases who).currentTx = some id
  unique : ∀ {who other id}, (state.databases who).currentTx = some id →
    (state.databases other).currentTx = some id → who = other
  slots : state.tx.ssi.keys = state.tx.inFlight
  assigned : ∀ id ∈ state.tx.inFlight, id < state.tx.nextTxId
  idle : ∀ who, Idle (state.databases who)

namespace Accounted

theorem opened (persistedNextTxId : Nat) (clog : Clog) :
    Accounted (.opened persistedNextTxId clog) where
  inFlight := by
    intro id
    constructor
    · intro member
      cases Finset.notMem_empty id member
    · rintro ⟨_, ⟨⟩⟩
  unique := by rintro _ _ _ ⟨⟩
  slots := rfl
  assigned := fun id member => absurd member (Finset.notMem_empty id)
  idle := fun _ _ => rfl

variable {state : State}

/-- What the invariant says of one connection. -/
theorem quiet
    (accounted : Accounted state)
    (who : Nat) :
    Quiet (state.others who) (state.session who) where
  holds := {
    inFlight := by
      intro id
      rw [State.session, accounted.inFlight]
      constructor
      · rintro ⟨owner, current⟩
        by_cases same : owner = who
        · exact .inl (same ▸ current)
        · exact .inr ⟨owner, same, current⟩
      · rintro (current | ⟨owner, _, current⟩)
        · exact ⟨who, current⟩
        · exact ⟨owner, current⟩
    slots := accounted.slots
    assigned := accounted.assigned
    apart := by
      rintro id own ⟨owner, different, current⟩
      exact different (accounted.unique current own) }
  idle := accounted.idle who

/-- A connection that is quiet after its call keeps the invariant. -/
theorem setSession
    (accounted : Accounted state)
    {who : Nat}
    {session : Session}
    (quiet : Quiet (state.others who) session) :
    Accounted (state.setSession who session) where
  inFlight := by
    intro id
    change id ∈ session.tx.inFlight ↔ _
    rw [quiet.holds.inFlight id]
    constructor
    · rintro (own | ⟨owner, different, current⟩)
      · exact ⟨who, by simpa [State.setSession] using own⟩
      · exact ⟨owner, by simpa [State.setSession, different] using current⟩
    · rintro ⟨owner, current⟩
      by_cases same : owner = who
      · subst same
        exact .inl (by simpa [State.setSession] using current)
      · exact .inr ⟨owner, same, by simpa [State.setSession, same] using current⟩
  unique := by
    intro first second id mine theirs
    by_cases firstHere : first = who <;> by_cases secondHere : second = who
    · exact firstHere.trans secondHere.symm
    · subst firstHere
      refine absurd ?_ (quiet.holds.apart id (by simpa [State.setSession] using mine))
      exact ⟨second, secondHere, by simpa [State.setSession, secondHere] using theirs⟩
    · subst secondHere
      refine absurd ?_ (quiet.holds.apart id (by simpa [State.setSession] using theirs))
      exact ⟨first, firstHere, by simpa [State.setSession, firstHere] using mine⟩
    · exact accounted.unique (by simpa [State.setSession, firstHere] using mine)
        (by simpa [State.setSession, secondHere] using theirs)
  slots := quiet.holds.slots
  assigned := quiet.holds.assigned
  idle := by
    intro other
    by_cases same : other = who
    · subst same
      simpa [State.setSession] using quiet.idle
    · simpa [State.setSession, same] using accounted.idle other

/-- Every call keeps the books of the connection balanced. -/
theorem step
    (accounted : Accounted state)
    {next : State}
    {action : Action}
    (released : Releases state action)
    (moved : state.step action = some next) :
    Accounted next := by
  obtain rfl := Option.some.inj moved
  exact accounted.setSession ((accounted.quiet action.who).call released)

theorem active_iff (accounted : Accounted state) (id : Nat) :
    state.Active id ↔ id ∈ state.tx.inFlight := by
  rw [accounted.inFlight]
  constructor
  · rintro ⟨who, _, current⟩
    exact ⟨who, current⟩
  · rintro ⟨who, current⟩
    refine ⟨who, ?_, current⟩
    intro outside
    rw [accounted.idle who outside] at current
    cases current

theorem balanced (accounted : Accounted state) : state.Balanced where
  idle := accounted.idle
  inFlight := fun id => (accounted.active_iff id).symm
  slots := by
    intro id
    rw [accounted.slots]
    exact (accounted.active_iff id).symm
  oldest := by
    simp only [accounted.active_iff]
    unfold TxState.oldestActiveTxId
    cases smallest : state.tx.inFlight.min with
    | top =>
        right
        refine ⟨?_, rfl⟩
        simp [Finset.min_eq_top.mp smallest]
    | coe least =>
        left
        exact ⟨Finset.mem_of_min smallest, fun id member => Finset.min_le_of_eq member smallest⟩

end Accounted

/-- While every reservation made outside an explicit transaction is released in its call
and every record appended, the bookkeeping names exactly the open transactions. -/
theorem bookkeeping_never_leaks
    {persistedNextTxId : Nat}
    {clog : Clog}
    {actions : List Action}
    {state : State}
    (run : Run State.step Releases (.opened persistedNextTxId clog) actions state) :
    state.Balanced :=
  (run.invariant Accounted (fun accounted released moved => accounted.step released moved)
    (.opened persistedNextTxId clog)).balanced

/-- A call in which nothing fails. -/
def fair : Answers where
  executed := .ok "1 row"
  recorded := fun _ => .default
  physical := .ok ()
  logged := .ok ()

/-- A statement that is streamed to its client. -/
def streamed (who : Nat) (statement : Statement) : Action where
  who := who
  call := .executeStreaming (.ok statement) fair

/-- One connection explains inside its transaction, another writes outside of one. -/
def explainedInside : List Action :=
  [streamed 0 .begin, streamed 0 (.other (.ok (.explain false))),
    streamed 1 (.other (.ok .insert))]

/-- An `EXPLAIN` inside a transaction leaks nothing. -/
theorem explained_inside_balanced :
    ∃ state : State,
      Run State.step Releases (.opened 1 .fresh) explainedInside state ∧ state.Balanced := by
  obtain ⟨state, run⟩ :
      ∃ state : State, Run State.step Releases (.opened 1 .fresh) explainedInside state := by
    refine ⟨_, (((Run.nil (State.opened 1 .fresh)).snoc ?_ rfl).snoc ?_ rfl).snoc ?_ rfl⟩
    · trivial
    · exact fun _ _ _ outside => nomatch outside
    · exact fun _ _ _ _ => ⟨nofun, rfl, rfl⟩
  exact ⟨state, run, bookkeeping_never_leaks run⟩

/-- An `EXPLAIN` outside a transaction, then a transaction that commits. -/
def explainedOutside : List Action :=
  [streamed 0 (.other (.ok (.explain false))), streamed 0 .begin, streamed 0 .commit]

/-- The id reserved for a streamed `EXPLAIN` stays in flight with no transaction open. -/
theorem streamed_explain_leaks :
    ∃ state : State,
      Run State.step unrestricted (.opened 1 .fresh) explainedOutside state ∧
        (∀ id, ¬ state.Active id) ∧ state.tx.oldestActiveTxId = 1 ∧ state.tx.nextTxId = 3 ∧
        ¬ state.Balanced := by
  obtain ⟨state, run, databases, inFlight, next⟩ :
      ∃ state : State,
        Run State.step unrestricted (.opened 1 .fresh) explainedOutside state ∧
          (∀ who, (state.databases who).txn = .none) ∧
          state.tx.inFlight = {1} ∧ state.tx.nextTxId = 3 := by
    refine ⟨_, (((Run.nil (State.opened 1 .fresh)).snoc trivial rfl).snoc trivial rfl).snoc
      trivial rfl, ?_, ?_, rfl⟩
    · intro who
      by_cases first : who = 0
      · subst first
        rfl
      · simp [State.setSession, State.opened, Database.fresh, first, streamed]
    · decide
  have nobody : ∀ id, ¬ state.Active id := fun id ⟨who, inside, _⟩ => inside (databases who)
  refine ⟨state, run, nobody, ?_, next, ?_⟩
  · rw [TxState.oldestActiveTxId, inFlight, Finset.min_singleton]
    rfl
  · intro balanced
    exact nobody 1 ((balanced.inFlight 1).mp (by simp [inFlight]))

end PrehniteDB.ConnectionCalls
