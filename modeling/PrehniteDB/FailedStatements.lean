import PrehniteDB.PageProvenance
import PrehniteDB.PoolBooks
import PrehniteDB.ConnectionCalls

namespace PrehniteDB.FailedStatements

open TransitionRun ConnectionCalls

/-!
# Statements that fail

One connection runs statements on its pager.  The executor may fail at any point of
a statement, the page commit at any of its writes, and the commit log at its
append.  `CREATE INDEX` and `VACUUM` run outside `run_plan`, under no id, and what
they have staged when they fail is not rolled back.  The ledgers name the images a statement has staged, those that committed
statements have left, the ids whose statements have failed, and the ids with a
commit record in the log's file.
-/

/-! ## The replacement of the file -/

/-- The pages of a file in order. -/
def images (source : DbFile) : List (UInt32 × Page) :=
  (List.range source.length).map fun no => (UInt32.ofNat no, source.pages (UInt32.ofNat no))

/-- `set_len`: the pages from `length` on are gone. -/
def setLen (file : DbFile) (length : Nat) : DbFile where
  pages := fun no => if no.toNat < length then file.pages no else zeroPage
  length := length
  beyond := fun _ past => if_neg (Nat.not_lt.mpr past)

/-- The writes of `replace_with`: every page of the other file goes through the log. -/
def replaceWrites (source : DbFile) : List DiskWrite :=
  (images source).map (fun write => .record write.1 write.2) ++
    .marker :: ((images source).map (fun write => .page write.1 write.2) ++ [.truncate])

/-- `replace_with` up to its `count`-th write. -/
def replaceStopped (state : PagerState) (source : DbFile) (count : Nat) : PagerState :=
  let media := Media.performAll ((replaceWrites source).take count)
    { file := state.file, wal := state.wal.discard }
  { state with
    pool := state.pool.clear
    walIndex := []
    file := media.file
    wal := media.wal }

/-- `replace_with`; `metadata` is what the header of the other file says. -/
def replaceWith (state : PagerState) (source : DbFile) (metadata : Meta) : PagerState :=
  let written := replaceStopped state source (replaceWrites source).length
  { written with
    file := setLen written.file source.length
    metadata := metadata
    allocatedPages := ∅
    dirtyPages := ∅
    pendingFreelist := [] }

theorem lastWrite_images
    (source : DbFile)
    {no : UInt32}
    (inside : no.toNat < source.length)
    (fits : source.length ≤ UInt32.size) :
    WriteLog.lastWrite no (images source) = some (source.pages no) := by
  unfold images
  generalize source.length = length at inside fits
  induction length with
  | zero => exact absurd inside (Nat.not_lt_zero _)
  | succ length inductionHypothesis =>
      rw [List.range_succ, List.map_append, List.map_singleton, WriteLog.lastWrite_snoc]
      split_ifs with same
      · rw [same]
      · refine inductionHypothesis ?_ (Nat.le_of_succ_le fits)
        have different : no.toNat ≠ length := by
          rintro rfl
          exact same UInt32.ofNat_toNat
        omega

/-- The other file is the pager's own, and nothing is staged. -/
theorem replaceWith_spec
    {state : PagerState}
    (unsealed : state.wal.Unsealed)
    {source : DbFile}
    {metadata : Meta}
    (fits : source.length ≤ UInt32.size)
    (header : decodeHeader (source.pages 0) = .ok metadata) :
    (replaceWith state source metadata).Opened ∧
      (replaceWith state source metadata).file.pages = source.pages := by
  obtain ⟨file, -, -⟩ := @PagerState.performAll_records (images source)
    { file := state.file, wal := state.wal.discard } unsealed.discard
  have written : (replaceStopped state source (replaceWrites source).length).file =
      state.file.writeAll (images source) := by
    simp only [replaceStopped, List.take_length]
    rw [replaceWrites, Media.performAll_append, Media.performAll, Media.performAll_append,
      PagerState.performAll_pages]
    simp only [Media.performAll, DiskWrite.perform, file]
  have pages : (replaceWith state source metadata).file.pages = source.pages := by
    funext no
    simp only [replaceWith, setLen, written]
    split_ifs with inside
    · rw [DbFile.writeAll_pages, WriteLog.replay_apply, lastWrite_images source inside fits]
      rfl
    · exact (source.beyond no (Nat.not_lt.mp inside)).symm
  have emptied : (replaceStopped state source (replaceWrites source).length).wal = .fresh := by
    simp only [replaceStopped, List.take_length]
    rw [replaceWrites, Media.performAll_append, Media.performAll, Media.performAll_append]
    rfl
  refine ⟨?_, pages⟩
  exact {
    pager := by
      simp only [replaceWith, Pager.fresh, emptied]
      rfl
    pool := ⟨fun _ => BufferPool.indexed_new _, fun present => absurd rfl present⟩
    onlyHeader := fun _ _ => rfl
    nonempty := by
      intro empty
      have zero : source.pages 0 = zeroPage := source.beyond 0 (Nat.le_of_eq empty)
      have refused : ∀ metadata, decodeHeader zeroPage ≠ .ok metadata := by
        have magic : (List.range 8).map (zeroPage.slice HDR_MAGIC) ≠ MAGIC := by decide
        intro metadata
        simp only [decodeHeader, if_pos magic, ne_eq, reduceCtorEq, not_false_eq_true]
      exact refused metadata (zero ▸ header)
    header := by
      rw [pages]
      exact header }

/-! ## Statements -/

structure State where
  cluster : Cluster
  session : Session
  /-- The plan the executor is running, or `CREATE INDEX` or `VACUUM`. -/
  running : Option Plan
  /-- The images the running statement has staged. -/
  written : PageImages
  /-- The images of the opened file, of the page commits since and of the files `VACUUM` made. -/
  settled : PageImages
  /-- Under which a statement has failed in the executor or later. -/
  failed : List Nat
  /-- With a commit record in the file of the log. -/
  logFile : Finset Nat

inductive Action where
  | begin
  /-- `COMMIT`; `reached` says whether a failing append leaves its record in the file. -/
  | commit (answers : Answers) (reached : Bool)
  | rollback (dropOrder drainOrder : List UInt32) (answers : Answers)
  /-- A planned statement enters `run_plan`. -/
  | start (plan : Plan)
  /-- A pager operation of the executor. -/
  | page (action : PagerAction)
  /-- The executor returns an error. -/
  | fail (dropOrder drainOrder : List UInt32) (answers : Answers)
  /-- The executor succeeds; `fault` is the number of writes after which the commit fails. -/
  | finish (order : List UInt32) (fault : Option Nat) (answers : Answers) (reached : Bool)
  /-- The commit at the end of a phase of `CREATE INDEX`. -/
  | phase (order : List UInt32) (fault : Option Nat)
  /-- `VACUUM` adopts the compact file it has made, or stops after a number of writes. -/
  | replace (source : DbFile) (fault : Option Nat)
  /-- `CREATE INDEX` or `VACUUM` returns, with an error or not. -/
  | returns

/-- The snapshot a statement runs under. -/
def snapshotForStatement (session : Session) : Snapshot :=
  match session.db.transactionSnapshot with
  | some base => { base with ownTx := session.db.currentTx }
  | none => session.tx.snapshot session.db.currentTx

/-- The id whose commit record `commitTx` appends. -/
def commitRecord (session : Session) : Option Nat :=
  session.db.currentTx.filter fun id =>
    match session.tx.ssiCheckCommit id with
    | .ok () => true
    | .error _ => false

/-- Whether the append leaves its record in the file. -/
def appended (answers : Answers) (reached : Bool) : Bool :=
  match answers.logged with
  | .ok () => true
  | .error _ => reached

/-- The commit records in the file once `commitTx` has run. -/
def logged
    (logFile : Finset Nat)
    (session : Session)
    (answers : Answers)
    (reached : Bool) : Finset Nat :=
  match commitRecord session with
  | some id => if appended answers reached then insert id logFile else logFile
  | none => logFile

/-- A commit whose writes stop after `count` of them; the rest of the pager stays as it is. -/
def commitFails (cluster : Cluster) (order : List UInt32) (count : Nat) : Option Cluster :=
  let state := cluster.view 0
  if PagerState.Enumerates order (state.dirtyPages.erase 0) ∧
      count < (state.commitWrites order).length then
    let media := state.media.performAll ((state.commitWrites order).take count)
    some (cluster.set 0
      { state with
        dirtyPages := state.dirtyPages.erase 0
        file := media.file
        wal := media.wal }
      (cluster.ledgers 0))
  else none

/-- The pager operations of a `SELECT`. -/
def Reads : PagerAction → Bool
  | .readPage _ | .release _ => true
  | _ => false

/-- The plans that stage pages; `VACUUM` stages none but those of a file of its own. -/
def stages (plan : Plan) : Bool :=
  plan.writes && decide (plan ≠ .vacuum)

/-- The failure of the physical write a fault stands for. -/
def ioFault : Error :=
  .io "write failed"

namespace State

/-- A file just opened by its only connection. -/
def opened
    (pager : PagerState)
    (persistedNextTxId : Nat)
    (clog : Clog)
    (logFile : Finset Nat) : State where
  cluster := .opened pager (fun _ => ∅) []
  session := { db := .fresh, tx := .new persistedNextTxId clog }
  running := none
  written := ∅
  settled := {write | write.2 = pager.file.pages write.1}
  failed := []
  logFile := logFile

/-- The id of the connection joins the ids of failed statements. -/
def fails (state : State) : List Nat :=
  state.session.db.currentTx.toList ++ state.failed

/-- Reserve an id and note it in the header, unless the connection has one. -/
def reserve (state : State) : Option State :=
  match state.session.db.currentTx with
  | some _ => some state
  | none =>
      (state.cluster.step
          (0, .setNextTxId (UInt64.ofNat (state.session.tx.nextTxId + 1)))).map fun cluster =>
        { state with cluster := cluster, session := state.session.ensureWriteTx }

/-- The end of a statement whose executor has succeeded; `physical` is what its commit answered. -/
def settle
    (state : State)
    (cluster : Cluster)
    (plan : Plan)
    (physical : Except Error Unit)
    (answers : Answers)
    (reached : Bool) : State :=
  let recorded := state.session.record answers.recorded
  let outcome := recorded.settle plan.writes { answers with physical := physical }
  { state with
    cluster := cluster
    session := outcome.2
    running := none
    written := ∅
    settled :=
      match physical with
      | .ok () => state.settled ∪ state.written
      | .error _ => state.settled
    failed :=
      match outcome.1 with
      | .ok () => state.failed
      | .error _ => state.fails
    logFile :=
      match physical with
      | .ok () =>
          if recorded.db.txn = .none ∧ plan.writes = true then
            logged state.logFile recorded answers reached
          else state.logFile
      | .error _ => state.logFile }

/-- One step, `none` when the connection is not there. -/
def step (state : State) : Action → Option State
  | .begin =>
      match state.running with
      | some _ => none
      | none =>
          if state.session.db.txn ≠ .none then some state
          else
            (state.cluster.step
                (0, .setNextTxId (UInt64.ofNat (state.session.tx.nextTxId + 1)))).map
              fun cluster =>
                { state with cluster := cluster, session := state.session.beginTransaction.2 }
  | .commit answers reached =>
      match state.running with
      | some _ => none
      | none =>
          some { state with
            session := (state.session.commitTransaction answers).2
            logFile :=
              if state.session.db.txn = .opened then
                logged state.logFile state.session answers reached
              else state.logFile }
  | .rollback dropOrder drainOrder answers =>
      match state.running with
      | some _ => none
      | none =>
          if state.session.db.txn = .none then some state
          else
            (state.cluster.step (0, .rollback dropOrder drainOrder)).map fun cluster =>
              { state with
                cluster := cluster
                session := (state.session.rollbackTransaction answers).2 }
  | .start plan =>
      match state.running with
      | some _ => none
      | none =>
          if state.session.db.txn = .aborted then none
          else if plan.intercepted then
            if state.session.db.txn = .none then some { state with running := some plan }
            else none
          else if plan.writes then
            state.reserve.map fun reserved => { reserved with running := some plan }
          else some { state with running := some plan }
  | .page action =>
      match state.running with
      | none => none
      | some plan =>
          if Cluster.Executes action ∧ (stages plan = true ∨ Reads action = true) then
            (state.cluster.step (0, action)).map fun cluster =>
              { state with
                cluster := cluster
                written := Cluster.stagedToo state.written cluster }
          else none
  | .fail dropOrder drainOrder answers =>
      match state.running with
      | none => none
      | some plan =>
          if plan.intercepted then none
          else
            (state.cluster.step (0, .rollback dropOrder drainOrder)).map fun cluster =>
              { state with
                cluster := cluster
                session := (state.session.record answers.recorded).abandon answers
                running := none
                written := ∅
                failed := state.fails }
  | .finish order fault answers reached =>
      match state.running with
      | none => none
      | some plan =>
          if plan.intercepted then none
          else if plan.writes then
            match fault with
            | some count =>
                (commitFails state.cluster order count).map fun cluster =>
                  state.settle cluster plan (.error ioFault) answers reached
            | none =>
                (state.cluster.step (0, .commit order)).map fun cluster =>
                  state.settle cluster plan ((state.cluster.view 0).commit order).1 answers
                    reached
          else some (state.settle state.cluster plan (.ok ()) answers reached)
  | .phase order fault =>
      if state.running = some .createIndex then
        match fault with
        | some count =>
            (commitFails state.cluster order count).map fun cluster =>
              { state with cluster := cluster, running := none, written := ∅ }
        | none =>
            (state.cluster.step (0, .commit order)).map fun cluster =>
              match ((state.cluster.view 0).commit order).1 with
              | .ok () =>
                  { state with
                    cluster := cluster
                    written := ∅
                    settled := state.settled ∪ state.written }
              | .error _ => { state with cluster := cluster, running := none, written := ∅ }
      else none
  | .replace source fault =>
      if state.running = some .vacuum ∧ source.length ≤ UInt32.size then
        match decodeHeader (source.pages 0) with
        | .error _ => none
        | .ok metadata =>
            match fault with
            | some count =>
                some { state with
                  cluster := state.cluster.set 0
                    (replaceStopped (state.cluster.view 0) source count)
                    (state.cluster.ledgers 0)
                  running := none
                  written := ∅ }
            | none =>
                some { state with
                  cluster :=
                    .opened (replaceWith (state.cluster.view 0) source metadata) (fun _ => ∅) []
                  settled := state.settled ∪ {write | write.2 = source.pages write.1} }
      else none
  | .returns =>
      match state.running with
      | none => none
      | some plan =>
          if plan.intercepted then some { state with running := none, written := ∅ }
          else none

/-- No write of a page commit or of a replacement fails, an append that fails leaves no
record in the file, and what returns without a rollback has nothing staged. -/
def Faultless (state : State) : Action → Prop
  | .finish _ fault answers reached =>
      fault = none ∧ (answers.logged = .ok () ∨ reached = false)
  | .phase _ fault => fault = none
  | .replace _ fault => fault = none
  | .returns => (state.cluster.pagers 0).dirtyPages = ∅
  | _ => True

instance (answers : Answers) : Decidable (answers.logged = .ok ()) :=
  match answers.logged with
  | .ok () => isTrue rfl
  | .error _ => isFalse nofun

instance (state : State) (action : Action) : Decidable (Faultless state action) := by
  cases action <;> unfold Faultless <;> infer_instance

/-- What a failed statement must not leave. -/
structure Traceless (state : State) : Prop where
  /-- No snapshot sees a row the statement has created. -/
  invisible : ∀ id ∈ state.failed, ∀ txMax,
    (snapshotForStatement state.session).visible state.session.tx.clog id txMax = false
  /-- Every snapshot sees a row the statement has deleted as if it had not. -/
  undeleted : ∀ id ∈ state.failed, ∀ txMin,
    (snapshotForStatement state.session).visible state.session.tx.clog txMin id =
      (snapshotForStatement state.session).visible state.session.tx.clog txMin 0
  /-- A reopened log does not know the statement as committed. -/
  unrecorded : ∀ id ∈ state.failed, id ∉ state.logFile
  /-- The file holds no image of a statement that did not commit its pages. -/
  persisted : ∀ no, no ≠ 0 → (no, state.cluster.shared.file.pages no) ∈ state.settled
  /-- A statement reads such images or its own. -/
  reads : ∀ no frame, no ≠ 0 → ((state.cluster.view 0).readPage no).1 = .ok frame →
    (no, frame.page) ∈ state.settled ∨ (no, frame.page) ∈ state.written
  /-- A commit, and recovery after a crash in it, apply the statement's own pages or none. -/
  commits : ∀ order count,
    PagerState.Enumerates order ((state.cluster.pagers 0).dirtyPages.erase 0) →
      state.cluster.CommitsOwn state.written order count

end State

/-! ## The ids of failed statements -/

/-- No reader takes the id for a committed one, now or after a reopen. -/
def Uncommitted (logFile : Finset Nat) (clog : Clog) (id : Nat) : Prop :=
  clog.status id ≠ some .committed ∧ id ∉ logFile

/-- Failed ids and those not yet assigned are uncommitted, and so is the connection's. -/
structure Ids (failed : List Nat) (logFile : Finset Nat) (session : Session) : Prop where
  positive : 0 < session.tx.nextTxId
  current : ∀ id, session.db.currentTx = some id →
    0 < id ∧ id < session.tx.nextTxId ∧ id ∉ failed ∧ Uncommitted logFile session.tx.clog id
  failed : ∀ id ∈ failed,
    0 < id ∧ id < session.tx.nextTxId ∧ Uncommitted logFile session.tx.clog id
  future : ∀ id, session.tx.nextTxId ≤ id → Uncommitted logFile session.tx.clog id

/-- Another id's outcome changes nothing. -/
theorem Uncommitted.append_other
    {logFile : Finset Nat}
    {clog : Clog}
    {id other : Nat}
    (uncommitted : Uncommitted logFile clog id)
    (different : id ≠ other)
    (outcome : Status) :
    Uncommitted logFile (clog.append other outcome) id := by
  refine ⟨?_, uncommitted.2⟩
  rw [Clog.status_append_other different]
  exact uncommitted.1

/-- A rollback record of an id above the floor leaves it uncommitted. -/
theorem Uncommitted.rollBack
    {logFile : Finset Nat}
    {clog : Clog}
    {id : Nat}
    (uncommitted : Uncommitted logFile clog id)
    (other : Nat) :
    Uncommitted logFile (clog.append other .rolledBack) id := by
  by_cases same : id = other
  · subst same
    have aboveFloor : clog.minTxId ≤ id := by
      by_contra below
      exact uncommitted.1 (if_pos (Nat.lt_of_not_le below))
    refine ⟨?_, uncommitted.2⟩
    rw [Clog.status_append_self aboveFloor]
    decide
  · exact uncommitted.append_other same .rolledBack

theorem Uncommitted.insert_other
    {logFile : Finset Nat}
    {clog : Clog}
    {id other : Nat}
    (uncommitted : Uncommitted logFile clog id)
    (different : id ≠ other) :
    Uncommitted (insert other logFile) clog id :=
  ⟨uncommitted.1, by simpa [different] using uncommitted.2⟩

namespace Ids

variable {failed : List Nat} {logFile : Finset Nat} {session : Session}

theorem record
    (ids : Ids failed logFile session)
    (recorded : Nat → SsiTxState) :
    Ids failed logFile (session.record recorded) :=
  { ids with }

/-- Only the id and the coordinator count. -/
theorem withDb
    (ids : Ids failed logFile session)
    {db : ConnectionCalls.Database}
    (same : db.currentTx = session.db.currentTx) :
    Ids failed logFile { session with db := db } where
  positive := ids.positive
  current id here := ids.current id (same ▸ here)
  failed := ids.failed
  future := ids.future

/-- A reservation takes an id nobody has used. -/
theorem reserve
    (ids : Ids failed logFile session)
    {db : ConnectionCalls.Database}
    (current : db.currentTx = some session.tx.beginWrite.1) :
    Ids failed logFile { db := db, tx := session.tx.beginWrite.2 } where
  positive := Nat.succ_pos _
  current := by
    intro id here
    obtain rfl : session.tx.nextTxId = id := Option.some.inj (current.symm.trans here)
    refine ⟨ids.positive, Nat.lt_succ_self _, ?_, ids.future _ (Nat.le_refl _)⟩
    intro listed
    exact Nat.lt_irrefl _ (ids.failed _ listed).2.1
  failed := by
    intro id listed
    obtain ⟨positive, assigned, uncommitted⟩ := ids.failed id listed
    exact ⟨positive, Nat.lt_succ_of_lt assigned, uncommitted⟩
  future id later := ids.future id (Nat.le_of_succ_le later)

theorem ensureWriteTx (ids : Ids failed logFile session) :
    Ids failed logFile session.ensureWriteTx := by
  unfold Session.ensureWriteTx
  cases current : session.db.currentTx with
  | some id => exact ids
  | none => exact ids.reserve rfl

/-- The connection's id joins the failed ones. -/
theorem fail
    (ids : Ids failed logFile session) :
    ∀ id ∈ session.db.currentTx.toList ++ failed,
      0 < id ∧ id < session.tx.nextTxId ∧ Uncommitted logFile session.tx.clog id := by
  intro id listed
  rcases List.mem_append.mp listed with own | earlier
  · obtain ⟨positive, assigned, -, uncommitted⟩ := ids.current id (Option.mem_toList.mp own)
    exact ⟨positive, assigned, uncommitted⟩
  · exact ids.failed id earlier

/-- A rollback takes the id; it stays uncommitted whatever the append answers. -/
theorem rollbackTx
    (ids : Ids failed logFile session)
    (answer : Except Error Unit) :
    Ids (session.db.currentTx.toList ++ failed) logFile (session.rollbackTx answer).2 := by
  unfold Session.rollbackTx
  cases current : session.db.currentTx with
  | none =>
      refine ⟨ids.positive, ?_, ids.failed, ids.future⟩
      intro id here
      rw [current] at here
      cases here
  | some id =>
      have listed := ids.fail
      rw [current] at listed
      cases answer with
      | error reason =>
          exact ⟨ids.positive, by rintro _ ⟨⟩, listed, ids.future⟩
      | ok _ =>
          refine ⟨ids.positive, by rintro _ ⟨⟩, ?_, ?_⟩
          · intro other member
            obtain ⟨positive, assigned, uncommitted⟩ := listed other member
            exact ⟨positive, assigned, uncommitted.rollBack id⟩
          · intro other later
            exact (ids.future other later).rollBack id

/-- Forgetting that the id has failed. -/
theorem rollbackTx_unlisted
    (ids : Ids failed logFile session)
    (answer : Except Error Unit) :
    Ids failed logFile (session.rollbackTx answer).2 := by
  have later := ids.rollbackTx answer
  refine ⟨later.positive, ?_, ?_, later.future⟩
  · intro id here
    rw [Session.rollbackTx_currentTx] at here
    cases here
  · exact fun id listed => later.failed id (List.mem_append_right _ listed)

theorem commitTx_refused
    {id : Nat}
    {reason : Error}
    {answers : Answers}
    (current : session.db.currentTx = some id)
    (refused : session.tx.ssiCheckCommit id = .error reason)
    (reached : Bool) :
    session.commitTx answers.logged = (.error reason, (session.rollbackTx answers.logged).2) ∧
      logged logFile session answers reached = logFile := by
  have unrecorded : commitRecord session = none := by
    rw [commitRecord, current, Option.filter_eq_none_iff]
    intro found same
    obtain rfl := Option.some.inj same
    simp only [refused, Bool.false_eq_true, not_false_eq_true]
  constructor
  · simp only [Session.commitTx, current, refused]
  · simp only [logged, unrecorded]

theorem commitTx_allowed
    {id : Nat}
    {answers : Answers}
    (current : session.db.currentTx = some id)
    (allowed : session.tx.ssiCheckCommit id = .ok ())
    (reached : Bool) :
    session.commitTx answers.logged =
        ((resolveLogged session.tx answers.logged id .committed).1,
          { db := { session.db with currentTx := none }
            tx := (resolveLogged session.tx answers.logged id .committed).2 }) ∧
      logged logFile session answers reached =
        if appended answers reached then insert id logFile else logFile := by
  have recorded : commitRecord session = some id := by
    rw [commitRecord, current, Option.filter_some, allowed]
    rfl
  constructor
  · simp only [Session.commitTx, current, allowed]
  · simp only [logged, recorded]

/-- The end of a transaction leaves every other id as it was. -/
theorem commitTx
    (ids : Ids failed logFile session)
    (answers : Answers)
    (reached : Bool) :
    Ids failed (logged logFile session answers reached)
      (session.commitTx answers.logged).2 := by
  cases current : session.db.currentTx with
  | none =>
      simp only [Session.commitTx, logged, commitRecord, current, Option.filter_none]
      exact ids
  | some id =>
      obtain ⟨-, assigned, unlisted, -⟩ := ids.current id current
      cases check : session.tx.ssiCheckCommit id with
      | error reason =>
          obtain ⟨result, same⟩ := @commitTx_refused logFile session id reason answers current check reached
          rw [result, same]
          exact ids.rollbackTx_unlisted answers.logged
      | ok _ =>
          obtain ⟨result, same⟩ := @commitTx_allowed logFile session id answers current check reached
          rw [result, same]
          have others : ∀ {clog : Clog},
              (clog = session.tx.clog ∨ clog = session.tx.clog.append id .committed) →
              ∀ {other}, other ≠ id → Uncommitted logFile session.tx.clog other →
                Uncommitted (if appended answers reached then insert id logFile else logFile)
                  clog other := by
            intro clog which other different uncommitted
            have inLog : Uncommitted logFile clog other := by
              rcases which with rfl | rfl
              · exact uncommitted
              · exact uncommitted.append_other different .committed
            split_ifs
            · exact inLog.insert_other different
            · exact inLog
          have which :
              (resolveLogged session.tx answers.logged id .committed).2.clog =
                  session.tx.clog ∨
                (resolveLogged session.tx answers.logged id .committed).2.clog =
                  session.tx.clog.append id .committed := by
            unfold resolveLogged
            cases answers.logged with
            | ok _ => exact .inr rfl
            | error reason => exact .inl rfl
          have next :
              (resolveLogged session.tx answers.logged id .committed).2.nextTxId =
                session.tx.nextTxId := by
            unfold resolveLogged
            cases answers.logged <;> rfl
          refine ⟨?_, by rintro _ ⟨⟩, ?_, ?_⟩
          · rw [next]
            exact ids.positive
          · intro other listed
            obtain ⟨positive, below, uncommitted⟩ := ids.failed other listed
            rw [next]
            refine ⟨positive, below, others which ?_ uncommitted⟩
            rintro rfl
            exact unlisted listed
          · intro other later
            rw [next] at later
            refine others which ?_ (ids.future other later)
            rintro rfl
            exact absurd assigned (Nat.not_lt.mpr later)

theorem commitTx_failed
    (ids : Ids failed logFile session)
    {answers : Answers}
    {reached : Bool}
    {reason : Error}
    (lost : answers.logged = .ok () ∨ reached = false)
    (failing : (session.commitTx answers.logged).1 = .error reason) :
    Ids (session.db.currentTx.toList ++ failed) (logged logFile session answers reached)
      (session.commitTx answers.logged).2 := by
  cases current : session.db.currentTx with
  | none =>
      simp only [Session.commitTx, current] at failing
      cases failing
  | some id =>
      cases check : session.tx.ssiCheckCommit id with
      | error reason =>
          obtain ⟨result, same⟩ := @commitTx_refused logFile session id reason answers current check reached
          rw [result, same, ← current]
          exact ids.rollbackTx answers.logged
      | ok _ =>
          obtain ⟨result, same⟩ := @commitTx_allowed logFile session id answers current check reached
          rw [result] at failing ⊢
          rw [same, ← current]
          cases record : answers.logged with
          | ok _ =>
              rw [record] at failing
              cases failing
          | error why =>
              have unreached : appended answers reached = false := by
                rcases lost with ok | unreached
                · rw [record] at ok
                  cases ok
                · simp only [appended, record, unreached]
              rw [unreached]
              exact ⟨ids.positive, by rintro _ ⟨⟩, ids.fail, ids.future⟩

end Ids

/-! ## Runs -/

structure Sound (state : State) : Prop where
  sourced : state.cluster.Sourced state.settled state.written
  /-- Nothing is staged but by a running plan that stages pages. -/
  unstaged : (∀ plan, state.running = some plan → stages plan = false) →
    (state.cluster.ledgers 0).staged = fun _ => none
  ids : Ids state.failed state.logFile state.session

theorem reads_ledger
    {cluster next : Cluster}
    {action : PagerAction}
    (reads : Reads action = true)
    (taken : cluster.step (0, action) = some next) :
    next.ledgers 0 = cluster.ledgers 0 := by
  cases action with
  | readPage no =>
      simp only [Cluster.step] at taken
      split at taken <;> obtain rfl := Option.some.inj taken <;> simp [Cluster.set]
  | release id =>
      obtain rfl := Option.some.inj taken
      simp [Cluster.set]
  | _ => cases reads

namespace Sound

variable {state next : State}

/-- A pager just opened, or just replaced, has staged nothing. -/
theorem sourced_opened
    {pager : PagerState}
    (spec : pager.Opened)
    {settled : PageImages}
    (file : ∀ no, (no, pager.file.pages no) ∈ settled) :
    (Cluster.opened pager (fun _ => ∅) []).Sourced settled ∅ := by
  refine ⟨Cluster.soloImages_opened spec _ _, ⟨?_, ?_, ?_⟩, fun no _ => file no, nofun⟩
  · intro no image nonzero present
    rw [show (Cluster.opened pager (fun _ => ∅) []).shared.pool.resident no = none
      from spec.onlyHeader no nonzero] at present
    cases present
  · intro no image nonzero present
    rw [show (Cluster.opened pager (fun _ => ∅) []).shared.pool.resident no = none
      from spec.onlyHeader no nonzero] at present
    cases present
  · intro no image _ inLog
    rw [show ((Cluster.opened pager (fun _ => ∅) []).pagers 0).spilled no = none by
      simp [Cluster.opened, spec.pager]; rfl] at inLog
    cases inLog

theorem opened
    {disk : Disk}
    {capacity persistedNextTxId : Nat}
    {pager : PagerState}
    {clog : Clog}
    {logFile : Finset Nat}
    (opened : Pager.openWithPool disk (.withCapacity capacity) = .ok pager)
    (unassigned : ∀ id, max persistedNextTxId 1 ≤ id → Uncommitted logFile clog id) :
    Sound (.opened pager persistedNextTxId clog logFile) := by
  refine ⟨sourced_opened (PagerState.openWithPool_spec opened) fun _ => rfl, fun _ => rfl,
    ⟨?_, nofun, nofun, unassigned⟩⟩
  exact Nat.lt_of_lt_of_le Nat.one_pos (Nat.le_max_right _ _)

/-- The ids once the executor has succeeded and the pages are committed. -/
theorem settle_ids
    (sound : Sound state)
    (cluster : Cluster)
    (plan : Plan)
    {answers : Answers}
    {reached : Bool}
    (lost : answers.logged = .ok () ∨ reached = false) :
    Ids (state.settle cluster plan (.ok ()) answers reached).failed
      (state.settle cluster plan (.ok ()) answers reached).logFile
      (state.settle cluster plan (.ok ()) answers reached).session := by
  have recorded := sound.ids.record answers.recorded
  have answered : ∀ writes : Bool,
      (if writes = true then (Except.ok () : Except Error Unit) else .ok ()) = .ok () := by
    intro writes
    split <;> rfl
  by_cases ends :
      (state.session.record answers.recorded).db.txn = .none ∧ plan.writes = true
  · have settled :
        (state.session.record answers.recorded).settle plan.writes
            { answers with physical := .ok () } =
          (state.session.record answers.recorded).commitTx answers.logged := by
      simp only [Session.settle, answered, if_pos ends]
    simp only [State.settle, settled, if_pos ends]
    cases outcome : ((state.session.record answers.recorded).commitTx answers.logged).1 with
    | ok _ => exact recorded.commitTx answers reached
    | error reason => exact recorded.commitTx_failed lost outcome
  · have settled :
        (state.session.record answers.recorded).settle plan.writes
            { answers with physical := .ok () } =
          (.ok (), state.session.record answers.recorded) := by
      simp only [Session.settle, answered, if_neg ends]
    simp only [State.settle, settled, if_neg ends]
    exact recorded

theorem begin
    (sound : Sound state)
    (moved : state.step .begin = some next) :
    Sound next := by
  simp only [State.step] at moved
  split at moved
  · cases moved
  · split_ifs at moved with inside
    · obtain rfl := Option.some.inj moved
      exact sound
    · obtain ⟨cluster, taken, rfl⟩ := Option.map_eq_some_iff.mp moved
      obtain ⟨sourced, ledger⟩ := sound.sourced.setNextTxId taken
      refine ⟨sourced, fun idle => ?_, ?_⟩
      · rw [ledger]
        exact sound.unstaged idle
      · simp only [Session.beginTransaction, if_neg inside]
        exact sound.ids.reserve rfl

theorem commit
    (sound : Sound state)
    {answers : Answers}
    {reached : Bool}
    (moved : state.step (.commit answers reached) = some next) :
    Sound next := by
  simp only [State.step] at moved
  split at moved
  · cases moved
  · obtain rfl := Option.some.inj moved
    refine ⟨sound.sourced, sound.unstaged, ?_⟩
    have closed : Ids state.failed state.logFile state.session.closed :=
      sound.ids.withDb rfl
    unfold Session.commitTransaction
    cases txn : state.session.db.txn with
    | none =>
        simp only [reduceCtorEq, if_false]
        exact sound.ids
    | opened =>
        simp only [if_true]
        have done := closed.commitTx answers reached
        have same : logged state.logFile state.session.closed answers reached =
            logged state.logFile state.session answers reached := rfl
        rw [same] at done
        generalize state.session.closed.commitTx answers.logged = outcome at done
        obtain ⟨_ | _, after⟩ := outcome <;> exact done
    | aborted =>
        simp only [reduceCtorEq, if_false]
        have done := closed.rollbackTx_unlisted answers.logged
        generalize state.session.closed.rollbackTx answers.logged = outcome at done
        obtain ⟨_ | _, after⟩ := outcome <;> exact done

theorem rollback
    (sound : Sound state)
    {dropOrder drainOrder : List UInt32}
    {answers : Answers}
    (moved : state.step (.rollback dropOrder drainOrder answers) = some next) :
    Sound next := by
  simp only [State.step] at moved
  split at moved
  · cases moved
  · split_ifs at moved with outside
    · obtain rfl := Option.some.inj moved
      exact sound
    · obtain ⟨cluster, taken, rfl⟩ := Option.map_eq_some_iff.mp moved
      obtain ⟨sourced, unstaged⟩ := sound.sourced.rollback taken
      refine ⟨sourced.mono (Set.empty_subset _), fun _ => unstaged, ?_⟩
      have closed : Ids state.failed state.logFile state.session.closed :=
        sound.ids.withDb rfl
      have done := closed.rollbackTx_unlisted answers.logged
      simp only [Session.rollbackTransaction, if_neg outside]
      generalize state.session.closed.rollbackTx answers.logged = outcome at done
      obtain ⟨_ | _, after⟩ := outcome <;> exact done

theorem start
    (sound : Sound state)
    {plan : Plan}
    (moved : state.step (.start plan) = some next) :
    Sound next := by
  simp only [State.step] at moved
  cases running : state.running with
  | some other =>
      rw [running] at moved
      cases moved
  | none =>
      have idle := sound.unstaged (by rw [running]; nofun)
      rw [running] at moved
      simp only at moved
      split_ifs at moved with refused intercepted outside writes
      · obtain rfl := Option.some.inj moved
        exact ⟨sound.sourced, fun _ => idle, sound.ids⟩
      · obtain ⟨reserved, result, rfl⟩ := Option.map_eq_some_iff.mp moved
        unfold State.reserve at result
        split at result
        · obtain rfl := Option.some.inj result
          exact ⟨sound.sourced, fun _ => idle, sound.ids⟩
        · obtain ⟨cluster, taken, rfl⟩ := Option.map_eq_some_iff.mp result
          obtain ⟨sourced, ledger⟩ := sound.sourced.setNextTxId taken
          refine ⟨sourced, fun _ => ?_, sound.ids.ensureWriteTx⟩
          rw [ledger]
          exact idle
      · obtain rfl := Option.some.inj moved
        exact ⟨sound.sourced, fun _ => idle, sound.ids⟩

theorem page
    (sound : Sound state)
    {action : PagerAction}
    (moved : state.step (.page action) = some next) :
    Sound next := by
  simp only [State.step] at moved
  cases running : state.running with
  | none =>
      rw [running] at moved
      cases moved
  | some plan =>
      rw [running] at moved
      simp only at moved
      split_ifs at moved with allowed
      obtain ⟨cluster, taken, rfl⟩ := Option.map_eq_some_iff.mp moved
      refine ⟨sound.sourced.execute allowed.1 taken, fun idle => ?_, sound.ids⟩
      have reading := idle plan rfl
      have reads : Reads action = true := by
        rcases allowed.2 with writes | reads
        · rw [reading] at writes
          cases writes
        · exact reads
      rw [reads_ledger reads taken]
      apply sound.unstaged
      intro other same
      obtain rfl := Option.some.inj (running.symm.trans same)
      exact reading

/-- The executor's failure drops every image the statement has staged. -/
theorem fail
    (sound : Sound state)
    {dropOrder drainOrder : List UInt32}
    {answers : Answers}
    (moved : state.step (.fail dropOrder drainOrder answers) = some next) :
    Sound next := by
  simp only [State.step] at moved
  split at moved
  · cases moved
  · split_ifs at moved
    obtain ⟨cluster, taken, rfl⟩ := Option.map_eq_some_iff.mp moved
    obtain ⟨sourced, unstaged⟩ := sound.sourced.rollback taken
    refine ⟨sourced, fun _ => unstaged, ?_⟩
    let recorded := state.session.record answers.recorded
    have marked : Ids state.failed state.logFile { recorded with
        db := { recorded.db with
          txn := if recorded.db.txn = .opened then .aborted else recorded.db.txn } } :=
      (sound.ids.record answers.recorded).withDb rfl
    exact marked.rollbackTx answers.logged

theorem finish
    (sound : Sound state)
    {order : List UInt32}
    {fault : Option Nat}
    {answers : Answers}
    {reached : Bool}
    (faultless : State.Faultless state (.finish order fault answers reached))
    (moved : state.step (.finish order fault answers reached) = some next) :
    Sound next := by
  obtain ⟨rfl, lost⟩ := faultless
  simp only [State.step] at moved
  cases running : state.running with
  | none =>
      rw [running] at moved
      cases moved
  | some plan =>
      rw [running] at moved
      simp only at moved
      split_ifs at moved with intercepted writes
      · obtain ⟨cluster, taken, rfl⟩ := Option.map_eq_some_iff.mp moved
        obtain ⟨physical, sourced, unstaged⟩ := sound.sourced.commit taken
        rw [physical]
        exact ⟨sourced, fun _ => unstaged, sound.settle_ids cluster plan lost⟩
      · obtain rfl := Option.some.inj moved
        have unstaged := sound.unstaged fun other same => by
          obtain rfl := Option.some.inj (running.symm.trans same)
          rw [stages, Bool.eq_false_iff.mpr writes, Bool.false_and]
        exact ⟨sound.sourced.done unstaged, fun _ => unstaged,
          sound.settle_ids state.cluster plan lost⟩

/-- Without a dirty page nothing is staged. -/
theorem clean
    (sound : Sound state)
    (none : (state.cluster.pagers 0).dirtyPages = ∅) :
    (state.cluster.ledgers 0).staged = fun _ => Option.none := by
  funext no
  by_contra staged
  have dirty := sound.sourced.solo.images.dirty.mpr staged
  rw [none] at dirty
  exact Finset.notMem_empty no dirty

/-- A phase of `CREATE INDEX` commits its own pages. -/
theorem phase
    (sound : Sound state)
    {order : List UInt32}
    {fault : Option Nat}
    (faultless : State.Faultless state (.phase order fault))
    (moved : state.step (.phase order fault) = some next) :
    Sound next := by
  obtain rfl : fault = none := faultless
  simp only [State.step] at moved
  split_ifs at moved with running
  obtain ⟨cluster, taken, rfl⟩ := Option.map_eq_some_iff.mp moved
  obtain ⟨physical, sourced, unstaged⟩ := sound.sourced.commit taken
  rw [physical]
  exact ⟨sourced, fun _ => unstaged, sound.ids⟩

/-- The file `VACUUM` adopts takes the place of everything the pager knew. -/
theorem replace
    (sound : Sound state)
    {source : DbFile}
    {fault : Option Nat}
    (faultless : State.Faultless state (.replace source fault))
    (moved : state.step (.replace source fault) = some next) :
    Sound next := by
  obtain rfl : fault = none := faultless
  simp only [State.step] at moved
  split_ifs at moved with allowed
  cases header : decodeHeader (source.pages 0) with
  | error reason =>
      rw [header] at moved
      cases moved
  | ok metadata =>
      rw [header] at moved
      obtain rfl := Option.some.inj moved
      have unsealed := (sound.sourced.solo.images.coherent 0).pager.wal
      obtain ⟨spec, pages⟩ := replaceWith_spec unsealed allowed.2 header
      refine ⟨(sourced_opened spec fun no => ?_).mono (Set.empty_subset _), fun _ => rfl,
        sound.ids⟩
      rw [pages]
      exact .inr rfl

/-- Nothing is rolled back, and nothing was staged. -/
theorem returns
    (sound : Sound state)
    (faultless : State.Faultless state .returns)
    (moved : state.step .returns = some next) :
    Sound next := by
  have unstaged := sound.clean faultless
  simp only [State.step] at moved
  split at moved
  · cases moved
  · split_ifs at moved
    obtain rfl := Option.some.inj moved
    refine ⟨⟨sound.sourced.solo, ?_, sound.sourced.file, ?_⟩, fun _ => unstaged, sound.ids⟩
    · exact Cluster.Sourced.cleared sound.sourced.solo.images unstaged
        sound.sourced.solo.others rfl sound.sourced.held.clean
    · intro no image staging
      rw [unstaged] at staging
      cases staging

/-- Every step keeps failed transactions without a trace. -/
theorem step
    (sound : Sound state)
    {action : Action}
    (faultless : State.Faultless state action)
    (moved : state.step action = some next) :
    Sound next := by
  cases action with
  | begin => exact sound.begin moved
  | commit answers reached => exact sound.commit moved
  | rollback dropOrder drainOrder answers => exact sound.rollback moved
  | start plan => exact sound.start moved
  | page action => exact sound.page moved
  | fail dropOrder drainOrder answers => exact sound.fail moved
  | finish order fault answers reached => exact sound.finish faultless moved
  | phase order fault => exact sound.phase faultless moved
  | replace source fault => exact sound.replace faultless moved
  | returns => exact sound.returns faultless moved

theorem snapshot_ownTx (session : Session) :
    (snapshotForStatement session).ownTx = session.db.currentTx := by
  unfold snapshotForStatement
  cases session.db.transactionSnapshot <;> rfl

/-- The id of a failed statement is neither the connection's own nor committed. -/
theorem unseen
    (sound : Sound state)
    {id : Nat}
    (failed : id ∈ state.failed) :
    id ≠ 0 ∧ some id ≠ (snapshotForStatement state.session).ownTx ∧
      ¬ (snapshotForStatement state.session).Sees state.session.tx.clog id := by
  obtain ⟨positive, -, uncommitted⟩ := sound.ids.failed id failed
  refine ⟨Nat.ne_of_gt positive, ?_, fun sees => uncommitted.1 sees.1⟩
  rw [snapshot_ownTx]
  intro own
  exact (sound.ids.current id own.symm).2.2.1 failed

theorem traceless (sound : Sound state) : state.Traceless where
  invisible := by
    intro id failed txMax
    obtain ⟨nonzero, foreign, unseen⟩ := sound.unseen failed
    rw [Bool.eq_false_iff, ne_eq, Snapshot.visible_iff, Snapshot.created_iff]
    rintro ⟨own | zero | sees, -⟩
    · exact foreign own
    · exact nonzero zero
    · exact unseen sees
  undeleted := by
    intro id failed txMin
    obtain ⟨nonzero, foreign, unseen⟩ := sound.unseen failed
    rw [Bool.eq_iff_iff, Snapshot.visible_iff, Snapshot.visible_iff]
    simp only [nonzero, foreign, unseen, ne_eq, not_false_eq_true, and_self, or_true, true_or]
  unrecorded := fun id failed => (sound.ids.failed id failed).2.2.2
  persisted := sound.sourced.file
  reads := fun _ _ nonzero read => sound.sourced.reads nonzero read
  commits := fun _ count enumerates => sound.sourced.commitsOwn enumerates count

end Sound

/-- As long as no write of a page commit fails, no failing append leaves its record in the
log's file and no `CREATE INDEX` fails with pages staged, failed statements leave nothing,
wherever the executor has failed. -/
theorem failed_statements_leave_no_trace
    {disk : Disk}
    {capacity persistedNextTxId : Nat}
    {pager : PagerState}
    {clog : Clog}
    {logFile : Finset Nat}
    {actions : List Action}
    {state : State}
    (opened : Pager.openWithPool disk (.withCapacity capacity) = .ok pager)
    (unassigned : ∀ id, max persistedNextTxId 1 ≤ id → Uncommitted logFile clog id)
    (run : Run State.step State.Faultless (.opened pager persistedNextTxId clog logFile)
      actions state) :
    state.Traceless :=
  (run.invariant Sound (fun sound faultless moved => sound.step faultless moved)
    (Sound.opened opened unassigned)).traceless

/-- A write fails in the executor; a `CREATE INDEX` reuses its page and fails once its first
phase is committed; the next write commits. -/
def failedThenWritten : List Action :=
  [.start .insert, .page .allocPage, .page (.writePage 1 (filled 0xAA)), .fail [1] [1] fair,
    .start .createIndex, .page .allocPage, .page (.writePage 1 (filled 0xCC)),
    .phase [1] none, .page (.readPage 1), .returns,
    .start .insert, .page .allocPage, .page (.writePage 2 (filled 0xBB)),
    .finish [2] none fair false]

theorem uncommitted_fresh (id : Nat) : Uncommitted ∅ .fresh id :=
  ⟨by rw [Clog.status_fresh]; nofun, Finset.notMem_empty id⟩

/-- A failed statement, then one that writes. -/
theorem failed_then_written_traceless :
    ∃ pager state,
      Pager.openWithPool { file := .empty, logs := [] } (.withCapacity 4) = .ok pager ∧
        Run State.step State.Faultless (.opened pager 1 .fresh ∅) failedThenWritten state ∧
        state.failed = [1] ∧ state.Traceless := by
  have evaluated :
      ((createdWith 4).bind fun pager =>
        (replay State.step State.Faultless (.opened pager 1 .fresh ∅) failedThenWritten).map
          fun state => state.failed) = some [1] := by
    decide +kernel
  obtain ⟨pager, created, replayed⟩ := Option.bind_eq_some_iff.mp evaluated
  obtain ⟨state, result, failed⟩ := Option.map_eq_some_iff.mp replayed
  have opened := openWithPool_of_createdWith created
  have run := run_of_replay result
  exact ⟨pager, state, opened, run, failed,
    failed_statements_leave_no_trace opened (fun id _ => uncommitted_fresh id) run⟩

/-- The first append of a commit fails; the next statement writes nothing and commits. -/
def commitFailed : List Action :=
  [.start .insert, .page .allocPage, .page (.writePage 1 (filled 0xAA)),
    .finish [1] (some 0) fair false, .start .insert, .finish [1] none fair false]

/-- The page of the failed statement is in the file and its row is visible. -/
theorem failed_commit_is_persisted :
    ∃ pager state,
      Pager.openWithPool { file := .empty, logs := [] } (.withCapacity 4) = .ok pager ∧
        Run State.step unrestricted (.opened pager 1 .fresh ∅) commitFailed state ∧
        state.failed = [1] ∧
        (snapshotForStatement state.session).visible state.session.tx.clog 1 0 = true ∧
        (state.cluster.shared.file.pages 1).slice 0 0 = 0xAA ∧
        ¬ state.Traceless := by
  have evaluated :
      ((createdWith 4).bind fun pager =>
        (replay State.step unrestricted (.opened pager 1 .fresh ∅) commitFailed).map
          fun state =>
            (state.failed,
              (snapshotForStatement state.session).visible state.session.tx.clog 1 0,
              (state.cluster.shared.file.pages 1).slice 0 0)) = some ([1], true, 0xAA) := by
    decide +kernel
  obtain ⟨pager, created, replayed⟩ := Option.bind_eq_some_iff.mp evaluated
  obtain ⟨state, result, values⟩ := Option.map_eq_some_iff.mp replayed
  simp only [Prod.mk.injEq] at values
  obtain ⟨failed, visible, byte⟩ := values
  refine ⟨pager, state, openWithPool_of_createdWith created, run_of_replay result, failed,
    visible, byte, fun traceless => ?_⟩
  have hidden := traceless.invisible 1 (by rw [failed]; exact List.mem_singleton_self 1) 0
  rw [visible] at hidden
  cases hidden

/-- The second phase of a `CREATE INDEX` changes a page of the first and meets an error. -/
def indexStopped : List Action :=
  [.start .createIndex, .page .allocPage, .page (.writePage 1 (filled 0xAA)), .phase [1] none,
    .page (.writePage 1 (filled 0xBB))]

/-- No write fails, and the page of the failed `CREATE INDEX` is written by the next commit. -/
theorem failed_index_is_persisted :
    ∃ pager stopped failed state,
      Pager.openWithPool { file := .empty, logs := [] } (.withCapacity 4) = .ok pager ∧
        Run State.step unrestricted (.opened pager 1 .fresh ∅) indexStopped stopped ∧
        stopped.step .returns = some failed ∧
        ¬ failed.Traceless ∧
        Run State.step unrestricted failed [.start .insert, .finish [1] none fair false] state ∧
        (state.cluster.shared.file.pages 1).slice 0 0 = 0xBB := by
  have evaluated :
      ((createdWith 4).bind fun pager =>
        (replay State.step unrestricted (.opened pager 1 .fresh ∅) indexStopped).bind
          fun stopped => (stopped.step .returns).bind
            fun failed => (replay State.step unrestricted failed
              [.start .insert, .finish [1] none fair false]).map
              fun state =>
                let disk := (failed.cluster.view 0).crashAfter [1] 5
                (((failed.cluster.ledgers 0).staged 1).isSome,
                  decide (PagerState.Enumerates [1]
                    ((failed.cluster.pagers 0).dirtyPages.erase 0)),
                  (failed.cluster.shared.file.pages 1).slice 0 0,
                  ((recoverLogs disk.logs disk.file).pages 1).slice 0 0,
                  (state.cluster.shared.file.pages 1).slice 0 0)) =
        some (true, true, 0xAA, 0xBB, 0xBB) := by
    decide +kernel
  obtain ⟨pager, created, replayed⟩ := Option.bind_eq_some_iff.mp evaluated
  obtain ⟨stopped, prefixed, rest⟩ := Option.bind_eq_some_iff.mp replayed
  obtain ⟨failed, returned, rest⟩ := Option.bind_eq_some_iff.mp rest
  obtain ⟨state, result, values⟩ := Option.map_eq_some_iff.mp rest
  simp only [Prod.mk.injEq, decide_eq_true_eq] at values
  obtain ⟨staged, enumerates, before, after, byte⟩ := values
  refine ⟨pager, stopped, failed, state, openWithPool_of_createdWith created,
    run_of_replay prefixed, returned, fun traceless => ?_, run_of_replay result, byte⟩
  have written : failed.written = ∅ := by
    simp only [State.step] at returned
    split at returned
    · cases returned
    · split_ifs at returned
      obtain rfl := Option.some.inj returned
      rfl
  rcases traceless.commits [1] 5 enumerates with same | own
  · rw [same 1 (by decide), before] at after
    cases after
  · have listed := (own 1 (by decide)).2 (Option.isSome_iff_ne_none.mp staged)
    rw [written] at listed
    exact listed

end PrehniteDB.FailedStatements
