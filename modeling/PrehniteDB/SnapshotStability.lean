import PrehniteDB.OutstandingAppends

namespace PrehniteDB.SnapshotStability

open TransitionRun

/-!
# Snapshots of a running coordinator

`TxState` over the group-commit log.  `commit_write` and `rollback_write` append
their record first and remove the id from the in-flight set under another lock
later, so between the two the log already knows an outcome that a new snapshot
still counts as in flight.
-/

structure State where
  log : GroupCommit.State
  nextTxId : Nat
  inFlight : Finset Nat
  ssi : SsiMap
  /-- The transaction that the `commit_write` or `rollback_write` of a thread resolves. -/
  calls : Nat → Option UInt64
  /-- Every snapshot captured so far. -/
  snapshots : List Snapshot

inductive Action where
  | beginWrite
  | snapshot (ownTx : Option Nat)
  /-- The call of `commit_write` or `rollback_write`: its record joins the queue. -/
  | resolve (thread : Nat) (txId : UInt64) (outcome : Status)
  | check (thread : Nat)
  | wake (thread : Nat)
  | write (thread : Nat) (result : Except Error Unit)
  | publish (thread : Nat)
  /-- The rest of the call, once the append has answered. -/
  | finish (thread : Nat)

namespace State

/-- The coordinator over a log that holds these records. -/
def opened (persistedNextTxId : Nat) (floor : UInt64) (records : List ClogFile.Record) : State where
  log := .opened floor records
  nextTxId := max persistedNextTxId 1
  inFlight := ∅
  ssi := .empty
  calls := fun _ => none
  snapshots := []

/-- What the locks of `TxState` protect, and the published log. -/
def tx (state : State) : TxState where
  nextTxId := state.nextTxId
  inFlight := state.inFlight
  clog := state.log.clog
  ssi := state.ssi

/-- One step of the log alone. -/
def logStep (state : State) (action : GroupCommit.Action) : Option State :=
  (state.log.step action).map fun log => { state with log := log }

/-- One step, `none` when it is not enabled. -/
def step (state : State) : Action → Option State
  | .beginWrite =>
      let tx := state.tx.beginWrite.2
      some { state with nextTxId := tx.nextTxId, inFlight := tx.inFlight, ssi := tx.ssi }
  | .snapshot ownTx =>
      some { state with snapshots := state.tx.snapshot ownTx :: state.snapshots }
  | .resolve thread txId outcome =>
      if state.calls thread = none then
        (state.log.step (.append thread { txId := txId, status := outcome })).map fun log =>
          { state with
            log := log
            calls := Function.update state.calls thread (some txId) }
      else none
  | .check thread => state.logStep (.check thread)
  | .wake thread => state.logStep (.wake thread)
  | .write thread result => state.logStep (.write thread result)
  | .publish thread => state.logStep (.publish thread)
  | .finish thread =>
      match state.calls thread, state.log.threads thread with
      | some txId, .returned _ (.ok ()) =>
          some { state with
            inFlight := state.inFlight.erase txId.toNat
            ssi := state.ssi.remove txId.toNat
            calls := Function.update state.calls thread none }
      -- A failed append leaves the id in flight.
      | some _, .returned _ (.error _) =>
          some { state with calls := Function.update state.calls thread none }
      | _, _ => none

/-- Only an id in flight is resolved, by one call at a time. -/
def Owned (state : State) : Action → Prop
  | .resolve _ txId _ =>
      txId.toNat ∈ state.inFlight ∧ ∀ thread, state.calls thread ≠ some txId
  | _ => True

/-- The possible outcomes of one enabled step. -/
inductive Effect (state : State) : Action → State → Prop where
  | beginWrite :
      Effect state .beginWrite { state with
        nextTxId := state.nextTxId + 1
        inFlight := insert state.nextTxId state.inFlight
        ssi := state.ssi.insert state.nextTxId }
  | snapshot (ownTx : Option Nat) :
      Effect state (.snapshot ownTx)
        { state with snapshots := state.tx.snapshot ownTx :: state.snapshots }
  | resolve
      {thread : Nat}
      {txId : UInt64}
      {outcome : Status}
      {log : GroupCommit.State}
      (vacant : state.calls thread = none)
      (appended : state.log.step (.append thread { txId := txId, status := outcome }) = some log) :
      Effect state (.resolve thread txId outcome) { state with
        log := log
        calls := Function.update state.calls thread (some txId) }
  | log
      {action : Action}
      {logAction : GroupCommit.Action}
      {log : GroupCommit.State}
      (notAppend : ∀ thread record, logAction ≠ .append thread record)
      (stepped : state.log.step logAction = some log) :
      Effect state action { state with log := log }
  | finished
      {thread : Nat}
      {txId : UInt64}
      {entry : GroupCommit.Entry}
      (calling : state.calls thread = some txId)
      (returned : state.log.threads thread = .returned entry (.ok ())) :
      Effect state (.finish thread) { state with
        inFlight := state.inFlight.erase txId.toNat
        ssi := state.ssi.remove txId.toNat
        calls := Function.update state.calls thread none }
  | failed
      {thread : Nat}
      {txId : UInt64}
      {entry : GroupCommit.Entry}
      {error : Error}
      (calling : state.calls thread = some txId)
      (returned : state.log.threads thread = .returned entry (.error error)) :
      Effect state (.finish thread)
        { state with calls := Function.update state.calls thread none }

theorem logStep_effect
    {state next : State}
    {action : Action}
    {logAction : GroupCommit.Action}
    (notAppend : ∀ thread record, logAction ≠ .append thread record)
    (stepped : state.logStep logAction = some next) :
    Effect state action next := by
  obtain ⟨log, taken, rfl⟩ := Option.map_eq_some_iff.mp stepped
  exact .log notAppend taken

/-- What an enabled step does. -/
theorem step_effect
    {state next : State}
    {action : Action}
    (stepped : state.step action = some next) :
    Effect state action next := by
  cases action with
  | beginWrite =>
      obtain rfl := Option.some.inj stepped
      exact .beginWrite
  | snapshot ownTx =>
      obtain rfl := Option.some.inj stepped
      exact .snapshot ownTx
  | resolve thread txId outcome =>
      simp only [step] at stepped
      split at stepped
      case isTrue vacant =>
        obtain ⟨log, appended, rfl⟩ := Option.map_eq_some_iff.mp stepped
        exact .resolve vacant appended
      case isFalse => cases stepped
  | check thread => exact logStep_effect (by rintro _ _ ⟨⟩) stepped
  | wake thread => exact logStep_effect (by rintro _ _ ⟨⟩) stepped
  | write thread result => exact logStep_effect (by rintro _ _ ⟨⟩) stepped
  | publish thread => exact logStep_effect (by rintro _ _ ⟨⟩) stepped
  | finish thread =>
      simp only [step] at stepped
      split at stepped
      case h_1 txId entry calling returned =>
        obtain rfl := Option.some.inj stepped
        exact .finished calling returned
      case h_2 txId entry error calling returned =>
        obtain rfl := Option.some.inj stepped
        exact .failed calling returned
      case h_3 => cases stepped

/-- The calls of the log are those of `commit_write` and `rollback_write`. -/
structure Sound (state : State) : Prop where
  queued : state.log.Queued
  awaited : state.log.Awaited
  calling :
    ∀ thread entry,
      (state.log.threads thread).call = some entry →
        state.calls thread = some entry.record.txId
  active : ∀ thread txId, state.calls thread = some txId → txId.toNat ∈ state.inFlight
  alone :
    ∀ first second txId,
      state.calls first = some txId → state.calls second = some txId → first = second

namespace Sound

variable {state next : State}

theorem opened
    (persistedNextTxId : Nat)
    (floor : UInt64)
    (records : List ClogFile.Record) :
    (State.opened persistedNextTxId floor records).Sound where
  queued := .opened floor records
  awaited := .opened floor records
  calling := nofun
  active := nofun
  alone := nofun

theorem calls_kept
    {logAction : GroupCommit.Action}
    {log : GroupCommit.State}
    (queued : state.log.Queued)
    (notAppend : ∀ thread record, logAction ≠ .append thread record)
    (stepped : state.log.step logAction = some log)
    {thread : Nat}
    {entry : GroupCommit.Entry}
    (called : (log.threads thread).call = some entry) :
    (state.log.threads thread).call = some entry := by
  have elsewhere :
      ∀ {mover : Nat} {phase : GroupCommit.Phase},
        log.threads = Function.update state.log.threads mover phase →
          (∀ own, phase.call = some own → (state.log.threads mover).call = some own) →
            (state.log.threads thread).call = some entry := by
    intro mover phase threads kept
    rw [threads] at called
    by_cases here : thread = mover
    · subst here
      rw [Function.update_self] at called
      exact kept entry called
    · rwa [Function.update_of_ne here] at called
  cases GroupCommit.State.step_effect stepped with
  | append _ => exact absurd rfl (notAppend _ _)
  | covered _ _ => exact elsewhere rfl nofun
  | park phase =>
      refine elsewhere rfl fun own same => ?_
      rw [phase]
      exact same
  | drain phase _ =>
      refine elsewhere rfl fun own same => ?_
      rw [phase]
      exact same
  | wake phase =>
      refine elsewhere rfl fun own same => ?_
      rw [phase]
      exact same
  | skip phase =>
      refine elsewhere rfl fun own same => ?_
      rw [phase]
      exact same
  | write phase =>
      refine elsewhere rfl fun own same => ?_
      rw [phase]
      exact same
  | publish phase => exact (queued.publish_threads phase thread).2 entry called

theorem resolve
    {thread : Nat}
    {txId : UInt64}
    {outcome : Status}
    {log : GroupCommit.State}
    (sound : state.Sound)
    (owned : state.Owned (.resolve thread txId outcome))
    (vacant : state.calls thread = none)
    (appended : state.log.step (.append thread { txId := txId, status := outcome }) = some log) :
    Sound { state with
      log := log
      calls := Function.update state.calls thread (some txId) } := by
  have enqueued : log = state.log.enqueue thread { txId := txId, status := outcome } := by
    cases GroupCommit.State.step_effect appended with
    | append _ => rfl
  have split :
      ∀ other called,
        Function.update state.calls thread (some txId) other = some called →
          (other = thread ∧ called = txId) ∨
            (other ≠ thread ∧ state.calls other = some called) := by
    intro other called calling
    by_cases here : other = thread
    · subst here
      rw [Function.update_self] at calling
      exact .inl ⟨rfl, (Option.some.inj calling).symm⟩
    · exact .inr ⟨here, by rwa [Function.update_of_ne here] at calling⟩
  refine
    { queued := sound.queued.step appended
      awaited := sound.awaited.step sound.queued appended
      calling := ?_
      active := ?_
      alone := ?_ }
  · intro other entry called
    change (log.threads other).call = some entry at called
    rw [enqueued, GroupCommit.State.threads_enqueue] at called
    change Function.update state.calls thread (some txId) other = _
    by_cases here : other = thread
    · subst here
      rw [Function.update_self] at called ⊢
      obtain rfl := Option.some.inj called
      rfl
    · rw [Function.update_of_ne here] at called ⊢
      exact sound.calling other entry called
  · intro other called calling
    rcases split other called calling with ⟨_, rfl⟩ | ⟨_, before⟩
    · exact owned.1
    · exact sound.active other called before
  · intro first second called firstCalls secondCalls
    rcases split first called firstCalls with ⟨rfl, rfl⟩ | ⟨_, firstBefore⟩ <;>
      rcases split second _ secondCalls with ⟨rfl, same⟩ | ⟨_, secondBefore⟩
    · rfl
    · exact absurd secondBefore (owned.2 second)
    · exact absurd (same ▸ firstBefore) (owned.2 first)
    · exact sound.alone first second called firstBefore secondBefore

/-- A call of `commit_write` or `rollback_write` returns. -/
theorem finish
    {thread : Nat}
    {inFlight : Finset Nat}
    {ssi : SsiMap}
    (sound : state.Sound)
    (returned : (state.log.threads thread).call = none)
    (kept :
      ∀ other txId,
        other ≠ thread → state.calls other = some txId → txId.toNat ∈ inFlight) :
    Sound { state with
      inFlight := inFlight
      ssi := ssi
      calls := Function.update state.calls thread none } := by
  have elsewhere :
      ∀ other txId,
        Function.update state.calls thread none other = some txId →
          other ≠ thread ∧ state.calls other = some txId := by
    intro other txId calling
    by_cases here : other = thread
    · subst here
      rw [Function.update_self] at calling
      cases calling
    · exact ⟨here, by rwa [Function.update_of_ne here] at calling⟩
  refine
    { queued := sound.queued
      awaited := sound.awaited
      calling := ?_
      active := fun other txId calling =>
        kept other txId (elsewhere other txId calling).1 (elsewhere other txId calling).2
      alone := fun first second txId firstCalls secondCalls =>
        sound.alone first second txId (elsewhere first txId firstCalls).2
          (elsewhere second txId secondCalls).2 }
  intro other entry called
  have here : other ≠ thread := by
    rintro rfl
    rw [returned] at called
    cases called
  change Function.update state.calls thread none other = _
  rw [Function.update_of_ne here]
  exact sound.calling other entry called

theorem step
    {action : Action}
    (sound : state.Sound)
    (owned : state.Owned action)
    (stepped : state.step action = some next) :
    next.Sound := by
  cases step_effect stepped with
  | beginWrite =>
      exact { sound with
        active := fun thread txId calling =>
          Finset.mem_insert_of_mem (sound.active thread txId calling) }
  | snapshot ownTx => exact { sound with }
  | resolve vacant appended => exact sound.resolve owned vacant appended
  | log notAppend logStepped =>
      exact { sound with
        queued := sound.queued.step logStepped
        awaited := sound.awaited.step sound.queued logStepped
        calling := fun thread entry called =>
          sound.calling thread entry (calls_kept sound.queued notAppend logStepped called) }
  | @finished thread txId entry calling returned =>
      refine sound.finish (by rw [returned]; rfl) fun other called foreign running => ?_
      refine Finset.mem_erase.mpr ⟨fun same => ?_, sound.active other called running⟩
      obtain rfl := UInt64.toNat.inj same
      exact foreign (sound.alone other thread called running calling)
  | failed calling returned =>
      exact sound.finish (by rw [returned]; rfl)
        fun other called _ running => sound.active other called running

/-- Only ids in flight get an outcome. -/
theorem status_kept
    {action : Action}
    {txId : Nat}
    (sound : state.Sound)
    (stepped : state.step action = some next)
    (resolved : txId ∉ state.inFlight) :
    next.log.clog.status txId = state.log.clog.status txId := by
  have published :
      ∀ {logAction : GroupCommit.Action} {log : GroupCommit.State},
        state.log.step logAction = some log →
          log.clog.status txId = state.log.clog.status txId := by
    intro logAction log logStepped
    cases GroupCommit.State.step_effect logStepped with
    | @publish thread snapshotLsn own batch result phase =>
        cases result with
        | error _ => rfl
        | ok _ =>
            -- Every record of the batch belongs to a call, and that call to an id in flight.
            have unnamed :
                ∀ record ∈ batch.map GroupCommit.Entry.record, record.txId.toNat ≠ txId := by
              rintro record member rfl
              obtain ⟨entry, inBatch, rfl⟩ := List.mem_map.mp member
              obtain ⟨caller, called⟩ :=
                sound.awaited.called entry
                  (.inr ⟨thread, batch, snapshotLsn,
                    congrArg GroupCommit.Phase.lead phase, inBatch⟩)
              exact resolved (sound.active caller _ (sound.calling caller entry called))
            change (state.log.clog.insertAll _).status txId = _
            unfold Clog.status
            rw [Clog.insertAll_minTxId, Clog.insertAll_map_other unnamed]
    | _ => rfl
  cases step_effect stepped with
  | resolve _ appended => exact published appended
  | log _ logStepped => exact published logStepped
  | _ => rfl

end Sound

/-- Every id the snapshot counts as finished has left the in-flight set for good. -/
structure Settled (snapshot : Snapshot) (state : State) : Prop where
  next : snapshot.nextTx ≤ state.nextTxId
  past : ∀ txId, snapshot.Past txId → txId ∉ state.inFlight

theorem settled_captured (state : State) (ownTx : Option Nat) :
    Settled (state.tx.snapshot ownTx) state where
  next := Nat.le_refl _
  past := fun _ past => past.2

theorem Settled.step
    {state next : State}
    {snapshot : Snapshot}
    {action : Action}
    (settled : Settled snapshot state)
    (stepped : state.step action = some next) :
    Settled snapshot next := by
  cases step_effect stepped with
  | beginWrite =>
      refine ⟨Nat.le_succ_of_le settled.next, fun txId past active => ?_⟩
      rcases Finset.mem_insert.mp active with rfl | active
      · exact absurd past.1 (Nat.not_lt.mpr settled.next)
      · exact settled.past txId past active
  | finished _ _ =>
      exact ⟨settled.next, fun txId past active =>
        settled.past txId past (Finset.mem_of_mem_erase active)⟩
  | snapshot _ => exact ⟨settled.next, settled.past⟩
  | resolve _ _ => exact ⟨settled.next, settled.past⟩
  | log _ _ => exact ⟨settled.next, settled.past⟩
  | failed _ _ => exact ⟨settled.next, settled.past⟩

end State

/-- Visibility asks the log only about ids the snapshot counts as finished. -/
theorem visible_of_past
    {snapshot : Snapshot}
    {clog later : Clog}
    (same : ∀ txId, snapshot.Past txId → later.status txId = clog.status txId)
    (txMin txMax : Nat) :
    snapshot.visible later txMin txMax = snapshot.visible clog txMin txMax := by
  have sees : ∀ txId, snapshot.Sees later txId ↔ snapshot.Sees clog txId := by
    intro txId
    unfold Snapshot.Sees
    exact and_congr_left fun past => by rw [same txId past]
  rw [Bool.eq_iff_iff, Snapshot.visible_iff, Snapshot.visible_iff, Snapshot.created_iff,
    Snapshot.created_iff, sees, sees]

open State

/-- In a run whose calls resolve ids in flight, no snapshot changes an answer. -/
theorem snapshots_stable
    {persistedNextTxId : Nat}
    {floor : UInt64}
    {records : List ClogFile.Record}
    {actions later : List Action}
    {state final : State}
    {snapshot : Snapshot}
    (run : Run step Owned (.opened persistedNextTxId floor records) actions state)
    (captured : snapshot ∈ state.snapshots)
    (rest : Run step Owned state later final)
    (txMin txMax : Nat) :
    snapshot.visible final.log.clog txMin txMax = snapshot.visible state.log.clog txMin txMax := by
  have reached :
      state.Sound ∧ ∀ captured ∈ state.snapshots, Settled captured state := by
    refine run.invariant
      (fun state => state.Sound ∧ ∀ captured ∈ state.snapshots, Settled captured state) ?_
      ⟨.opened persistedNextTxId floor records, nofun⟩
    rintro state next action ⟨sound, settled⟩ owned stepped
    refine ⟨sound.step owned stepped, fun captured member => ?_⟩
    cases step_effect stepped with
    | snapshot ownTx =>
        rcases List.mem_cons.mp member with rfl | earlier
        · exact (settled_captured state ownTx).step stepped
        · exact (settled captured earlier).step stepped
    | _ => exact (settled captured member).step stepped
  have stable :
      final.Sound ∧ Settled snapshot final ∧
        ∀ txId, snapshot.Past txId → final.log.clog.status txId = state.log.clog.status txId := by
    refine rest.invariant
      (fun later => later.Sound ∧ Settled snapshot later ∧
        ∀ txId, snapshot.Past txId → later.log.clog.status txId = state.log.clog.status txId) ?_
      ⟨reached.1, reached.2 snapshot captured, fun _ _ => rfl⟩
    rintro middle next action ⟨sound, settled, same⟩ owned stepped
    refine ⟨sound.step owned stepped, settled.step stepped, fun txId past => ?_⟩
    rw [sound.status_kept stepped (settled.past txId past), same txId past]
  exact visible_of_past stable.2.2 txMin txMax

/-- A snapshot taken between the record of a commit and its removal from the in-flight set. -/
def capturedBetween : List Action :=
  [.beginWrite, .resolve 0 1 .committed, .check 0, .write 0 (.ok ()), .publish 0, .snapshot none]

/-- A snapshot between the publication of an outcome and its end. -/
theorem captured_between_stable :
    ∃ state final,
      Run step Owned (.opened 1 0 []) capturedBetween state ∧
        Run step Owned state [.finish 0] final ∧
        state.log.clog.isCommitted 1 = true ∧ 1 ∉ final.inFlight ∧
        ∃ snapshot ∈ state.snapshots,
          snapshot.visible state.log.clog 1 0 = false ∧
            snapshot.visible final.log.clog 1 0 = snapshot.visible state.log.clog 1 0 := by
  have run : Run step Owned (State.opened 1 0 []) capturedBetween _ :=
    ((((((Run.nil (State.opened 1 0 [])).snoc trivial rfl).snoc ⟨by decide, nofun⟩ rfl).snoc
      trivial rfl).snoc trivial rfl).snoc trivial rfl).snoc trivial rfl
  obtain ⟨state, run, committed, ⟨snapshot, captured, hidden⟩, final, finished, removed⟩ :
      ∃ state,
        Run step Owned (.opened 1 0 []) capturedBetween state ∧
          state.log.clog.isCommitted 1 = true ∧
          (∃ snapshot ∈ state.snapshots, snapshot.visible state.log.clog 1 0 = false) ∧
          ∃ final, state.step (.finish 0) = some final ∧ 1 ∉ final.inFlight :=
    ⟨_, run, by decide, ⟨_, List.mem_singleton_self _, by decide⟩, _, rfl, by decide⟩
  have rest : Run step Owned state [.finish 0] final := (Run.nil state).snoc trivial finished
  exact ⟨state, final, run, rest, committed, removed, snapshot, captured, hidden,
    snapshots_stable run captured rest 1 0⟩

end PrehniteDB.SnapshotStability
