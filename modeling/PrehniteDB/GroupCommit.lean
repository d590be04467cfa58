import PrehniteDB.ClogFile

namespace PrehniteDB.GroupCommit

open TransitionRun ClogFile

/-!
# Group commit of the commit log

Threads enqueue one record each and then run the loop of `flush_until`: the
first one to find no flush in progress becomes the leader, drains the queue,
writes and fsyncs it outside the state mutex, and publishes the result under
it.  Every step below is one critical section of the state mutex, or the write
between two of them.
-/

/-- A queued record and the ticket its caller waits for; only the record is written. -/
structure Entry where
  lsn : Nat
  record : Record
  deriving Repr, DecidableEq

/-- A call of `write_and_fsync` that reached the file, and its answer. -/
structure Flush where
  batch : List Entry
  result : Except Error Unit

/-- Where a thread stands in `append`. -/
inductive Phase where
  | idle
  /-- At the head of the loop. -/
  | waiting (entry : Entry)
  /-- On the condition variable. -/
  | parked (entry : Entry)
  /-- Outside the mutex, about to write its batch. -/
  | leading (entry : Entry) (batch : List Entry) (snapshotLsn : Nat)
  /-- The write has answered and is not published yet. -/
  | flushed
      (entry : Entry)
      (batch : List Entry)
      (snapshotLsn : Nat)
      (result : Except Error Unit)
  | returned (entry : Entry) (result : Except Error Unit)

namespace Phase

/-- The record of a call that has not returned. -/
def call : Phase → Option Entry
  | .idle => none
  | .waiting entry => some entry
  | .parked entry => some entry
  | .leading entry _ _ => some entry
  | .flushed entry _ _ _ => some entry
  | .returned _ _ => none

/-- The batch and the watermark of a leader. -/
def lead : Phase → Option (List Entry × Nat)
  | .leading _ batch snapshotLsn => some (batch, snapshotLsn)
  | .flushed _ batch snapshotLsn _ => some (batch, snapshotLsn)
  | _ => none

/-- `notify_all` sends a parked thread back to the head of the loop. -/
def notified : Phase → Phase
  | .parked entry => .waiting entry
  | phase => phase

@[simp]
theorem call_notified (phase : Phase) : phase.notified.call = phase.call := by
  cases phase <;> rfl

@[simp]
theorem lead_notified (phase : Phase) : phase.notified.lead = phase.lead := by
  cases phase <;> rfl

end Phase

/-- `ClogState`, the flushes that reached the file, and the threads. -/
structure State where
  clog : Clog
  pending : List Entry
  nextLsn : Nat
  durableLsn : Nat
  flushing : Bool
  flushes : List Flush
  threads : Nat → Phase

/-- A freshly opened log over the records of its file. -/
def State.opened (floor : UInt64) (records : List Record) : State where
  clog := ClogStore.opened floor records
  pending := []
  nextLsn := 0
  durableLsn := 0
  flushing := false
  flushes := [{ batch := records.map fun record => { lsn := 0, record }, result := .ok () }]
  threads := fun _ => .idle

inductive Action where
  /-- `record_commit` or `record_rollback`: enqueue the record. -/
  | append (thread : Nat) (record : Record)
  /-- One pass over the tests at the head of the loop. -/
  | check (thread : Nat)
  /-- A parked thread wakes without a notification. -/
  | wake (thread : Nat)
  /-- `write_and_fsync`; an empty batch never reaches the file. -/
  | write (thread : Nat) (result : Except Error Unit)
  | publish (thread : Nat)

def Action.recordCommit (thread : Nat) (txId : UInt64) : Action :=
  .append thread { txId, status := .committed }

def Action.recordRollback (thread : Nat) (txId : UInt64) : Action :=
  .append thread { txId, status := .rolledBack }

namespace State

def setThread (state : State) (thread : Nat) (phase : Phase) : State :=
  { state with threads := Function.update state.threads thread phase }

/-- The first stage of `append`: claim a ticket and enqueue. -/
def enqueue (state : State) (thread : Nat) (record : Record) : State :=
  let entry : Entry := { lsn := state.nextLsn + 1, record }
  { state.setThread thread (.waiting entry) with
    nextLsn := state.nextLsn + 1
    pending := state.pending ++ [entry] }

/-- Take the leader slot and drain the queue. -/
def drain (state : State) (thread : Nat) (entry : Entry) : State :=
  { state.setThread thread (.leading entry state.pending state.nextLsn) with
    flushing := true
    pending := [] }

/-- Publish the result of a flush and wake everybody. -/
def publish
    (state : State)
    (thread : Nat)
    (entry : Entry)
    (batch : List Entry)
    (snapshotLsn : Nat)
    (result : Except Error Unit) : State :=
  let published : State :=
    match result with
    | .ok () =>
        { state with
          clog := state.clog.insertAll (batch.map Entry.record)
          durableLsn := snapshotLsn }
    | .error _ => state
  { published with
    flushing := false
    threads :=
      Function.update (fun other => (state.threads other).notified) thread
        (.returned entry result) }

/-- One step, `none` when it is not enabled. -/
def step (state : State) : Action → Option State
  | .append thread record =>
      match state.threads thread with
      | .idle => some (state.enqueue thread record)
      | .returned _ _ => some (state.enqueue thread record)
      | _ => none
  | .check thread =>
      match state.threads thread with
      | .waiting entry =>
          if entry.lsn ≤ state.durableLsn then
            some (state.setThread thread (.returned entry (.ok ())))
          else if state.flushing then some (state.setThread thread (.parked entry))
          else some (state.drain thread entry)
      | _ => none
  | .wake thread =>
      match state.threads thread with
      | .parked entry => some (state.setThread thread (.waiting entry))
      | _ => none
  | .write thread result =>
      match state.threads thread with
      | .leading entry batch snapshotLsn =>
          if batch.isEmpty then
            some (state.setThread thread (.flushed entry batch snapshotLsn (.ok ())))
          else
            some { state.setThread thread (.flushed entry batch snapshotLsn result) with
              flushes := { batch, result } :: state.flushes }
      | _ => none
  | .publish thread =>
      match state.threads thread with
      | .flushed entry batch snapshotLsn result =>
          some (state.publish thread entry batch snapshotLsn result)
      | _ => none

/-- The record was written and fsynced. -/
def Durable (state : State) (entry : Entry) : Prop :=
  ∃ flush ∈ state.flushes, flush.result = .ok () ∧ entry ∈ flush.batch

/-- The record was drained into a batch whose write failed. -/
def Lost (state : State) (entry : Entry) : Prop :=
  ∃ flush ∈ state.flushes, flush.result ≠ .ok () ∧ entry ∈ flush.batch

/-- Some outcome of the file is the record of this id. -/
def Fsynced (state : State) (txId : Nat) (status : Status) : Prop :=
  ∃ entry, state.Durable entry ∧ entry.record.txId.toNat = txId ∧ entry.record.status = status

/--
A leader publishes a watermark only when no call it covers has lost its record
to a failed batch, and none recorded another outcome for an id of the batch.
-/
def Accounted (state : State) : Action → Prop
  | .publish thread =>
      ∀ own batch snapshotLsn,
        state.threads thread = .flushed own batch snapshotLsn (.ok ()) →
          ∀ other entry,
            (state.threads other).call = some entry →
              entry.lsn ≤ snapshotLsn →
                ¬state.Lost entry ∧
                  ∀ peer ∈ batch,
                    peer.record.txId = entry.record.txId →
                      peer.record.status = entry.record.status
  | _ => True

@[simp]
theorem setThread_self
    (state : State)
    (thread : Nat)
    (phase : Phase) :
    (state.setThread thread phase).threads thread = phase :=
  Function.update_self _ _ _

theorem setThread_other
    {state : State}
    {thread other : Nat}
    {phase : Phase}
    (different : other ≠ thread) :
    (state.setThread thread phase).threads other = state.threads other :=
  Function.update_of_ne different _ _

/-- The possible outcomes of one enabled step. -/
inductive Effect (state : State) : Action → State → Prop where
  | append
      {thread : Nat}
      {record : Record}
      (unleading : (state.threads thread).lead = none) :
      Effect state (.append thread record) (state.enqueue thread record)
  /-- An earlier flush has covered the ticket. -/
  | covered
      {thread : Nat}
      {entry : Entry}
      (phase : state.threads thread = .waiting entry)
      (durable : entry.lsn ≤ state.durableLsn) :
      Effect state (.check thread) (state.setThread thread (.returned entry (.ok ())))
  | park
      {thread : Nat}
      {entry : Entry}
      (phase : state.threads thread = .waiting entry) :
      Effect state (.check thread) (state.setThread thread (.parked entry))
  | drain
      {thread : Nat}
      {entry : Entry}
      (phase : state.threads thread = .waiting entry)
      (slot : state.flushing = false) :
      Effect state (.check thread) (state.drain thread entry)
  | wake
      {thread : Nat}
      {entry : Entry}
      (phase : state.threads thread = .parked entry) :
      Effect state (.wake thread) (state.setThread thread (.waiting entry))
  | skip
      {thread snapshotLsn : Nat}
      {entry : Entry}
      {result : Except Error Unit}
      (phase : state.threads thread = .leading entry [] snapshotLsn) :
      Effect state (.write thread result)
        (state.setThread thread (.flushed entry [] snapshotLsn (.ok ())))
  | write
      {thread snapshotLsn : Nat}
      {entry : Entry}
      {batch : List Entry}
      {result : Except Error Unit}
      (phase : state.threads thread = .leading entry batch snapshotLsn) :
      Effect state (.write thread result)
        { state.setThread thread (.flushed entry batch snapshotLsn result) with
          flushes := { batch, result } :: state.flushes }
  | publish
      {thread snapshotLsn : Nat}
      {entry : Entry}
      {batch : List Entry}
      {result : Except Error Unit}
      (phase : state.threads thread = .flushed entry batch snapshotLsn result) :
      Effect state (.publish thread) (state.publish thread entry batch snapshotLsn result)

/-- What an enabled step does. -/
theorem step_effect
    {state next : State}
    {action : Action}
    (stepped : state.step action = some next) :
    Effect state action next := by
  cases action with
  | append thread record =>
      simp only [step] at stepped
      cases phase : state.threads thread with
      | idle =>
          rw [phase] at stepped
          obtain rfl := Option.some.inj stepped
          exact .append (by rw [phase]; rfl)
      | returned entry result =>
          rw [phase] at stepped
          obtain rfl := Option.some.inj stepped
          exact .append (by rw [phase]; rfl)
      | _ =>
          rw [phase] at stepped
          cases stepped
  | check thread =>
      simp only [step] at stepped
      cases phase : state.threads thread with
      | waiting entry =>
          rw [phase] at stepped
          dsimp only at stepped
          split at stepped
          case isTrue durable =>
            obtain rfl := Option.some.inj stepped
            exact .covered phase durable
          case isFalse =>
            split at stepped
            case isTrue =>
              obtain rfl := Option.some.inj stepped
              exact .park phase
            case isFalse slot =>
              obtain rfl := Option.some.inj stepped
              exact .drain phase (Bool.eq_false_iff.mpr slot)
      | _ =>
          rw [phase] at stepped
          cases stepped
  | wake thread =>
      simp only [step] at stepped
      cases phase : state.threads thread with
      | parked entry =>
          rw [phase] at stepped
          obtain rfl := Option.some.inj stepped
          exact .wake phase
      | _ =>
          rw [phase] at stepped
          cases stepped
  | write thread result =>
      simp only [step] at stepped
      cases phase : state.threads thread with
      | leading entry batch snapshotLsn =>
          rw [phase] at stepped
          dsimp only at stepped
          split at stepped
          case isTrue empty =>
            obtain rfl := List.isEmpty_iff.mp empty
            obtain rfl := Option.some.inj stepped
            exact .skip phase
          case isFalse =>
            obtain rfl := Option.some.inj stepped
            exact .write phase
      | _ =>
          rw [phase] at stepped
          cases stepped
  | publish thread =>
      simp only [step] at stepped
      cases phase : state.threads thread with
      | flushed entry batch snapshotLsn result =>
          rw [phase] at stepped
          obtain rfl := Option.some.inj stepped
          exact .publish phase
      | _ =>
          rw [phase] at stepped
          cases stepped

/-- Where the entries are: queued, in the leader's hands, or in a flush. -/
structure Queued (state : State) : Prop where
  flushing :
    ∀ thread lead, (state.threads thread).lead = some lead → state.flushing = true
  exclusive :
    ∀ first second firstLead secondLead,
      (state.threads first).lead = some firstLead →
        (state.threads second).lead = some secondLead →
          first = second
  pending : ∀ entry ∈ state.pending, state.durableLsn < entry.lsn ∧ entry.lsn ≤ state.nextLsn
  watermark :
    ∀ thread batch snapshotLsn,
      (state.threads thread).lead = some (batch, snapshotLsn) →
        state.durableLsn ≤ snapshotLsn ∧ snapshotLsn ≤ state.nextLsn ∧
          (∀ entry ∈ batch, entry.lsn ≤ snapshotLsn) ∧
          ∀ entry ∈ state.pending, snapshotLsn < entry.lsn
  call : ∀ thread entry, (state.threads thread).call = some entry → entry.lsn ≤ state.nextLsn
  own :
    ∀ thread entry batch snapshotLsn,
      (state.threads thread).call = some entry →
        (state.threads thread).lead = some (batch, snapshotLsn) →
          entry.lsn ≤ snapshotLsn
  durable : state.durableLsn ≤ state.nextLsn
  placed :
    ∀ thread entry,
      (state.threads thread).call = some entry →
        entry ∈ state.pending ∨
          (∃ leader own batch snapshotLsn,
            state.threads leader = .leading own batch snapshotLsn ∧ entry ∈ batch) ∨
          ∃ flush ∈ state.flushes, entry ∈ flush.batch
  published :
    ∀ entry,
      state.Durable entry →
        entry.lsn ≤ state.durableLsn ∨
          ∃ leader own batch snapshotLsn,
            state.threads leader = .flushed own batch snapshotLsn (.ok ()) ∧ entry ∈ batch
  logged :
    ∀ leader own batch snapshotLsn,
      state.threads leader = .flushed own batch snapshotLsn (.ok ()) →
        ∀ entry ∈ batch, state.Durable entry

namespace Queued

variable
  {state next : State}
  {thread : Nat}
  {entry : Entry}

theorem opened
    (floor : UInt64)
    (records : List Record) :
    (State.opened floor records).Queued where
  flushing := nofun
  exclusive := nofun
  pending := nofun
  watermark := nofun
  call := nofun
  own := nofun
  durable := Nat.le_refl 0
  placed := nofun
  published := by
    rintro entry ⟨flush, member, _, inBatch⟩
    obtain rfl := List.mem_singleton.mp member
    obtain ⟨record, _, rfl⟩ := List.mem_map.mp inBatch
    exact .inl (Nat.le_refl 0)
  logged := nofun

/-- Threads that lead keep their phase, and no call appears. -/
theorem rephase
    (queued : state.Queued)
    {threads : Nat → Phase}
    (leaders :
      ∀ thread,
        threads thread = state.threads thread ∨
          ((threads thread).lead = none ∧ (state.threads thread).lead = none))
    (calls :
      ∀ thread entry,
        (threads thread).call = some entry → (state.threads thread).call = some entry) :
    Queued { state with threads := threads } := by
  have leading :
      ∀ thread lead,
        (threads thread).lead = some lead → (state.threads thread).lead = some lead := by
    intro thread lead leads
    rcases leaders thread with same | ⟨none, _⟩
    · rwa [← same]
    · rw [none] at leads
      cases leads
  have kept :
      ∀ thread lead,
        (state.threads thread).lead = some lead → threads thread = state.threads thread := by
    intro thread lead leads
    rcases leaders thread with same | ⟨_, none⟩
    · exact same
    · rw [none] at leads
      cases leads
  refine
    { flushing := fun thread lead leads => queued.flushing thread lead (leading thread lead leads)
      exclusive := fun first second firstLead secondLead firstLeads secondLeads =>
        queued.exclusive first second firstLead secondLead
          (leading first firstLead firstLeads) (leading second secondLead secondLeads)
      pending := queued.pending
      watermark := fun thread batch snapshotLsn leads =>
        queued.watermark thread batch snapshotLsn (leading thread _ leads)
      call := fun thread entry called => queued.call thread entry (calls thread entry called)
      own := fun thread entry batch snapshotLsn called leads =>
        queued.own thread entry batch snapshotLsn (calls thread entry called)
          (leading thread _ leads)
      durable := queued.durable
      placed := ?_
      published := ?_
      logged := ?_ }
  · intro thread entry called
    rcases queued.placed thread entry (calls thread entry called) with
      waiting | ⟨leader, own, batch, snapshotLsn, phase, member⟩ | flushed
    · exact .inl waiting
    · have same := kept leader (batch, snapshotLsn) (congrArg Phase.lead phase)
      exact .inr (.inl ⟨leader, own, batch, snapshotLsn, same.trans phase, member⟩)
    · exact .inr (.inr flushed)
  · intro entry durable
    rcases queued.published entry durable with
      covered | ⟨leader, own, batch, snapshotLsn, phase, member⟩
    · exact .inl covered
    · have same := kept leader (batch, snapshotLsn) (congrArg Phase.lead phase)
      exact .inr ⟨leader, own, batch, snapshotLsn, same.trans phase, member⟩
  · intro leader own batch snapshotLsn phase
    have leads := leading leader (batch, snapshotLsn) (congrArg Phase.lead phase)
    exact queued.logged leader own batch snapshotLsn ((kept leader _ leads).symm.trans phase)

theorem setThread
    (queued : state.Queued)
    {phase : Phase}
    (before : (state.threads thread).lead = none)
    (after : phase.lead = none)
    (calls :
      ∀ entry, phase.call = some entry → (state.threads thread).call = some entry) :
    (state.setThread thread phase).Queued := by
  apply queued.rephase
  · intro other
    by_cases here : other = thread
    · subst here
      exact .inr ⟨by rw [Function.update_self]; exact after, before⟩
    · exact .inl (Function.update_of_ne here _ _)
  · intro other entry called
    by_cases here : other = thread
    · subst here
      rw [Function.update_self] at called
      exact calls entry called
    · rwa [Function.update_of_ne here] at called

theorem append
    {record : Record}
    (queued : state.Queued)
    (unleading : (state.threads thread).lead = none) :
    (state.enqueue thread record).Queued := by
  have leads :
      ∀ other lead,
        ((state.enqueue thread record).threads other).lead = some lead →
          other ≠ thread ∧ (state.threads other).lead = some lead := by
    intro other lead leading
    by_cases here : other = thread
    · subst here
      rw [show (state.enqueue other record).threads other =
        .waiting { lsn := state.nextLsn + 1, record } from Function.update_self _ _ _] at leading
      cases leading
    · exact ⟨here, by rwa [show (state.enqueue thread record).threads other =
        state.threads other from Function.update_of_ne here _ _] at leading⟩
  have keeps :
      ∀ other lead,
        (state.threads other).lead = some lead →
          (state.enqueue thread record).threads other = state.threads other := by
    intro other lead leading
    apply Function.update_of_ne
    rintro rfl
    rw [unleading] at leading
    cases leading
  refine
    { flushing := fun other lead leading => queued.flushing other lead (leads other lead leading).2
      exclusive := fun first second firstLead secondLead firstLeads secondLeads =>
        queued.exclusive first second firstLead secondLead
          (leads first _ firstLeads).2 (leads second _ secondLeads).2
      pending := ?_
      watermark := ?_
      call := ?_
      own := ?_
      durable := Nat.le_succ_of_le queued.durable
      placed := ?_
      published := ?_
      logged := ?_ }
  · intro entry member
    rcases List.mem_append.mp member with earlier | new
    · have bounds := queued.pending entry earlier
      exact ⟨bounds.1, Nat.le_succ_of_le bounds.2⟩
    · obtain rfl := List.mem_singleton.mp new
      exact ⟨Nat.lt_succ_of_le queued.durable, Nat.le_refl _⟩
  · intro other batch snapshotLsn leading
    obtain ⟨ordered, bound, inBatch, behind⟩ :=
      queued.watermark other batch snapshotLsn (leads other _ leading).2
    refine ⟨ordered, Nat.le_succ_of_le bound, inBatch, fun entry member => ?_⟩
    rcases List.mem_append.mp member with earlier | new
    · exact behind entry earlier
    · obtain rfl := List.mem_singleton.mp new
      exact Nat.lt_succ_of_le bound
  · intro other entry called
    by_cases here : other = thread
    · subst here
      obtain rfl : ({ lsn := state.nextLsn + 1, record } : Entry) = entry := by
        simpa [enqueue, State.setThread, Phase.call] using called
      exact Nat.le_refl _
    · have before : (state.threads other).call = some entry := by
        simpa [enqueue, State.setThread, here] using called
      exact Nat.le_succ_of_le (queued.call other entry before)
  · intro other entry batch snapshotLsn called leading
    obtain ⟨here, leading⟩ := leads other _ leading
    have before : (state.threads other).call = some entry := by
      simpa [enqueue, State.setThread, here] using called
    exact queued.own other entry batch snapshotLsn before leading
  · intro other entry called
    by_cases here : other = thread
    · subst here
      obtain rfl : ({ lsn := state.nextLsn + 1, record } : Entry) = entry := by
        simpa [enqueue, State.setThread, Phase.call] using called
      exact .inl (List.mem_append_right _ (List.mem_singleton_self _))
    · have before : (state.threads other).call = some entry := by
        simpa [enqueue, State.setThread, here] using called
      rcases queued.placed other entry before with
        waiting | ⟨leader, own, batch, snapshotLsn, phase, member⟩ | flushed
      · exact .inl (List.mem_append_left _ waiting)
      · have same := keeps leader (batch, snapshotLsn) (congrArg Phase.lead phase)
        exact .inr (.inl ⟨leader, own, batch, snapshotLsn, same.trans phase, member⟩)
      · exact .inr (.inr flushed)
  · intro entry durable
    rcases queued.published entry durable with
      covered | ⟨leader, own, batch, snapshotLsn, phase, member⟩
    · exact .inl covered
    · have same := keeps leader (batch, snapshotLsn) (congrArg Phase.lead phase)
      exact .inr ⟨leader, own, batch, snapshotLsn, same.trans phase, member⟩
  · intro leader own batch snapshotLsn phase
    have leading := leads leader (batch, snapshotLsn) (congrArg Phase.lead phase)
    exact queued.logged leader own batch snapshotLsn
      ((keeps leader _ leading.2).symm.trans phase)

/-- The slot is free, so nobody leads. -/
theorem unled
    (queued : state.Queued)
    (slot : state.flushing = false)
    (other : Nat) :
    (state.threads other).lead = none := by
  cases leading : (state.threads other).lead with
  | none => rfl
  | some lead =>
      have taken := queued.flushing other lead leading
      rw [slot] at taken
      cases taken

theorem drain
    (queued : state.Queued)
    (phase : state.threads thread = .waiting entry)
    (slot : state.flushing = false) :
    (state.drain thread entry).Queued := by
  have leads :
      ∀ other lead,
        ((state.drain thread entry).threads other).lead = some lead →
          other = thread ∧ lead = (state.pending, state.nextLsn) := by
    intro other lead leading
    by_cases here : other = thread
    · subst here
      rw [show (state.drain other entry).threads other =
        .leading entry state.pending state.nextLsn from Function.update_self _ _ _] at leading
      exact ⟨rfl, (Option.some.inj leading).symm⟩
    · rw [show (state.drain thread entry).threads other = state.threads other from
        Function.update_of_ne here _ _, queued.unled slot other] at leading
      cases leading
  have calls :
      ∀ other called,
        ((state.drain thread entry).threads other).call = some called →
          (state.threads other).call = some called := by
    intro other called calling
    by_cases here : other = thread
    · subst here
      rw [phase]
      simpa [State.drain, State.setThread, Phase.call] using calling
    · simpa [State.drain, State.setThread, here] using calling
  refine
    { flushing := fun _ _ _ => rfl
      exclusive := fun first second _ _ firstLeads secondLeads =>
        (leads first _ firstLeads).1.trans (leads second _ secondLeads).1.symm
      pending := nofun
      watermark := ?_
      call := fun other called calling => queued.call other called (calls other called calling)
      own := ?_
      durable := queued.durable
      placed := ?_
      published := ?_
      logged := ?_ }
  · intro other batch snapshotLsn leading
    obtain ⟨_, same⟩ := leads other _ leading
    obtain ⟨rfl, rfl⟩ := Prod.mk.inj same
    exact ⟨queued.durable, Nat.le_refl _,
      fun member inBatch => (queued.pending member inBatch).2, nofun⟩
  · intro other called batch snapshotLsn calling leading
    obtain ⟨_, same⟩ := leads other _ leading
    obtain ⟨_, rfl⟩ := Prod.mk.inj same
    exact queued.call other called (calls other called calling)
  · intro other called calling
    rcases queued.placed other called (calls other called calling) with
      waiting | ⟨leader, own, batch, snapshotLsn, leading, member⟩ | flushed
    · exact .inr (.inl ⟨thread, entry, state.pending, state.nextLsn,
        Function.update_self _ _ _, waiting⟩)
    · have none := queued.unled slot leader
      rw [leading] at none
      cases none
    · exact .inr (.inr flushed)
  · intro called durable
    rcases queued.published called durable with
      covered | ⟨leader, own, batch, snapshotLsn, leading, member⟩
    · exact .inl covered
    · have none := queued.unled slot leader
      rw [leading] at none
      cases none
  · intro leader own batch snapshotLsn leading
    obtain ⟨rfl, _⟩ := leads leader (batch, snapshotLsn) (congrArg Phase.lead leading)
    rw [show (state.drain leader entry).threads leader =
      .leading entry state.pending state.nextLsn from Function.update_self _ _ _] at leading
    cases leading

/-- The leader's write answers; an empty batch adds no flush. -/
theorem wrote
    {own : Entry}
    {batch : List Entry}
    {snapshotLsn : Nat}
    {result : Except Error Unit}
    {flushes : List Flush}
    (queued : state.Queued)
    (phase : state.threads thread = .leading own batch snapshotLsn)
    (earlier : ∀ flush ∈ state.flushes, flush ∈ flushes)
    (added : ∀ flush ∈ flushes, flush ∈ state.flushes ∨ flush = { batch, result })
    (logged : ∀ entry ∈ batch, { batch, result } ∈ flushes) :
    Queued { state.setThread thread (.flushed own batch snapshotLsn result) with
      flushes := flushes } := by
  have leads :
      ∀ other lead,
        ((state.setThread thread (.flushed own batch snapshotLsn result)).threads other).lead =
            some lead →
          (state.threads other).lead = some lead := by
    intro other lead leading
    by_cases here : other = thread
    · subst here
      rw [setThread_self] at leading
      rw [phase]
      exact leading
    · rwa [setThread_other here] at leading
  have calls :
      ∀ other called,
        ((state.setThread thread (.flushed own batch snapshotLsn result)).threads other).call =
            some called →
          (state.threads other).call = some called := by
    intro other called calling
    by_cases here : other = thread
    · subst here
      rw [setThread_self] at calling
      rw [phase]
      exact calling
    · rwa [setThread_other here] at calling
  have alone :
      ∀ other lead, (state.threads other).lead = some lead → other = thread :=
    fun other lead leading =>
      queued.exclusive other thread lead (batch, snapshotLsn) leading
        (congrArg Phase.lead phase)
  refine
    { flushing := fun other lead leading =>
        queued.flushing other lead (leads other lead leading)
      exclusive := fun first second firstLead secondLead firstLeads secondLeads =>
        queued.exclusive first second firstLead secondLead
          (leads first _ firstLeads) (leads second _ secondLeads)
      pending := queued.pending
      watermark := fun other otherBatch otherLsn leading =>
        queued.watermark other otherBatch otherLsn (leads other _ leading)
      call := fun other called calling => queued.call other called (calls other called calling)
      own := fun other called otherBatch otherLsn calling leading =>
        queued.own other called otherBatch otherLsn (calls other called calling)
          (leads other _ leading)
      durable := queued.durable
      placed := ?_
      published := ?_
      logged := ?_ }
  · intro other called calling
    rcases queued.placed other called (calls other called calling) with
      waiting | ⟨leader, other, drained, lsn, leading, member⟩ | ⟨flush, member, inBatch⟩
    · exact .inl waiting
    · obtain rfl := alone leader (drained, lsn) (congrArg Phase.lead leading)
      obtain ⟨_, rfl, _⟩ := Phase.leading.inj (phase.symm.trans leading)
      exact .inr (.inr ⟨{ batch, result }, logged called member, member⟩)
    · exact .inr (.inr ⟨flush, earlier flush member, inBatch⟩)
  · rintro called ⟨flush, member, succeeded, inBatch⟩
    rcases added flush member with old | rfl
    · rcases queued.published called ⟨flush, old, succeeded, inBatch⟩ with
        covered | ⟨leader, other, drained, lsn, leading, _⟩
      · exact .inl covered
      · obtain rfl := alone leader (drained, lsn) (congrArg Phase.lead leading)
        rw [phase] at leading
        cases leading
    · obtain rfl : result = .ok () := succeeded
      exact .inr ⟨thread, own, batch, snapshotLsn, setThread_self _ _ _, inBatch⟩
  · intro leader other drained lsn leading called member
    obtain rfl := alone leader (drained, lsn) (leads leader _ (congrArg Phase.lead leading))
    obtain ⟨_, rfl, _, rfl⟩ := Phase.flushed.inj ((setThread_self _ _ _).symm.trans leading)
    exact ⟨_, logged called member, rfl, member⟩

theorem publish_threads
    {own : Entry}
    {batch : List Entry}
    {snapshotLsn : Nat}
    {result : Except Error Unit}
    (queued : state.Queued)
    (phase : state.threads thread = .flushed own batch snapshotLsn result)
    (other : Nat) :
    ((state.publish thread own batch snapshotLsn result).threads other).lead = none ∧
      ∀ called,
        ((state.publish thread own batch snapshotLsn result).threads other).call =
            some called →
          (state.threads other).call = some called := by
  have threads :
      (state.publish thread own batch snapshotLsn result).threads =
        Function.update (fun other => (state.threads other).notified) thread
          (.returned own result) := rfl
  rw [threads]
  by_cases here : other = thread
  · subst here
    rw [Function.update_self]
    exact ⟨rfl, nofun⟩
  · rw [Function.update_of_ne here, Phase.lead_notified]
    refine ⟨?_, fun called calling => by rwa [Phase.call_notified] at calling⟩
    cases leading : (state.threads other).lead with
    | none => rfl
    | some lead =>
        exact absurd
          (queued.exclusive other thread lead (batch, snapshotLsn) leading
            (congrArg Phase.lead phase)) here

theorem publish
    {own : Entry}
    {batch : List Entry}
    {snapshotLsn : Nat}
    {result : Except Error Unit}
    (queued : state.Queued)
    (phase : state.threads thread = .flushed own batch snapshotLsn result) :
    (state.publish thread own batch snapshotLsn result).Queued := by
  have threads := queued.publish_threads phase
  obtain ⟨ordered, bound, inBatch, behind⟩ :=
    queued.watermark thread batch snapshotLsn (congrArg Phase.lead phase)
  have unled :
      ∀ {other lead},
        ((state.publish thread own batch snapshotLsn result).threads other).lead =
            some lead →
          False := by
    intro other lead leading
    rw [(threads other).1] at leading
    cases leading
  have flushes : (state.publish thread own batch snapshotLsn result).flushes = state.flushes := by
    cases result <;> rfl
  have pending : (state.publish thread own batch snapshotLsn result).pending = state.pending := by
    cases result <;> rfl
  have nextLsn : (state.publish thread own batch snapshotLsn result).nextLsn = state.nextLsn := by
    cases result <;> rfl
  refine
    { flushing := fun _ _ leading => (unled leading).elim
      exclusive := fun _ _ _ _ leading _ => (unled leading).elim
      pending := ?_
      watermark := fun _ _ _ leading => (unled leading).elim
      call := ?_
      own := fun _ _ _ _ _ leading => (unled leading).elim
      durable := ?_
      placed := ?_
      published := ?_
      logged := fun _ _ _ _ leading => (unled (congrArg Phase.lead leading)).elim }
  · intro entry member
    rw [pending] at member
    rw [nextLsn]
    refine ⟨?_, (queued.pending entry member).2⟩
    cases result with
    | ok _ => exact behind entry member
    | error _ => exact (queued.pending entry member).1
  · intro other entry calling
    rw [nextLsn]
    exact queued.call other entry ((threads other).2 entry calling)
  · rw [nextLsn]
    cases result with
    | ok _ => exact bound
    | error _ => exact queued.durable
  · intro other entry calling
    rw [pending, flushes]
    rcases queued.placed other entry ((threads other).2 entry calling) with
      waiting | ⟨leader, other, drained, lsn, leading, _⟩ | flushed
    · exact .inl waiting
    · obtain rfl :=
        queued.exclusive leader thread (drained, lsn) (batch, snapshotLsn)
          (congrArg Phase.lead leading) (congrArg Phase.lead phase)
      rw [phase] at leading
      cases leading
    · exact .inr (.inr flushed)
  · rintro entry ⟨flush, member, succeeded, inFlush⟩
    rw [flushes] at member
    have durable := queued.published entry ⟨flush, member, succeeded, inFlush⟩
    left
    cases result with
    | ok _ =>
        rcases durable with covered | ⟨leader, other, drained, lsn, leading, drainedMember⟩
        · exact Nat.le_trans covered ordered
        · obtain rfl :=
            queued.exclusive leader thread (drained, lsn) (batch, snapshotLsn)
              (congrArg Phase.lead leading) (congrArg Phase.lead phase)
          obtain ⟨_, rfl, _⟩ := Phase.flushed.inj (phase.symm.trans leading)
          exact inBatch entry drainedMember
    | error _ =>
        rcases durable with covered | ⟨leader, other, drained, lsn, leading, _⟩
        · exact covered
        · obtain rfl :=
            queued.exclusive leader thread (drained, lsn) (batch, snapshotLsn)
              (congrArg Phase.lead leading) (congrArg Phase.lead phase)
          rw [phase] at leading
          cases leading

theorem step
    {action : Action}
    (queued : state.Queued)
    (stepped : state.step action = some next) :
    next.Queued := by
  cases step_effect stepped with
  | append unleading => exact queued.append unleading
  | covered phase _ =>
      apply queued.setThread
      · rw [phase]
        rfl
      · rfl
      · nofun
  | park phase =>
      apply queued.setThread
      · rw [phase]
        rfl
      · rfl
      · intro entry calling
        rw [phase]
        exact calling
  | drain phase slot => exact queued.drain phase slot
  | wake phase =>
      apply queued.setThread
      · rw [phase]
        rfl
      · rfl
      · intro entry calling
        rw [phase]
        exact calling
  | skip phase =>
      exact queued.wrote phase (fun _ member => member) (fun _ member => .inl member) nofun
  | write phase =>
      apply queued.wrote phase
      · exact fun flush member => List.mem_cons_of_mem _ member
      · intro flush member
        exact (List.mem_cons.mp member).symm
      · exact fun _ _ => List.mem_cons_self
  | publish phase => exact queued.publish phase

end Queued

/-! ## What the map and the answers say -/

/-- The map holds fsynced records only. -/
def MapFsynced (state : State) : Prop :=
  ∀ txId status, state.clog.map txId = some status → state.Fsynced txId status

/-- A call under the published watermark has its record on disk and in the map. -/
def Acknowledgeable (state : State) : Prop :=
  ∀ thread entry,
    (state.threads thread).call = some entry →
      entry.lsn ≤ state.durableLsn →
        state.Durable entry ∧
          state.clog.map entry.record.txId.toNat = some entry.record.status

theorem insertAll_map_cases
    {clog : Clog}
    {batch : List Record}
    {txId : Nat}
    {status : Status}
    (found : (clog.insertAll batch).map txId = some status) :
    clog.map txId = some status ∨
      ∃ record ∈ batch, record.txId.toNat = txId ∧ record.status = status := by
  induction batch generalizing clog with
  | nil => exact .inl found
  | cons record rest inductionHypothesis =>
      rcases inductionHypothesis found with before | ⟨later, member, named⟩
      · by_cases here : txId = record.txId.toNat
        · subst here
          have value := Function.update_self (β := fun _ => Option Status)
            record.txId.toNat (some record.status) clog.map
          exact .inr ⟨record, List.mem_cons_self, rfl,
            Option.some.inj (value.symm.trans before)⟩
        · exact .inl ((Function.update_of_ne here _ _).symm.trans before)
      · exact .inr ⟨later, List.mem_cons_of_mem record member, named⟩

theorem insertAll_map_agree
    {clog : Clog}
    {batch : List Record}
    {txId : Nat}
    {status : Status}
    (agree : ∀ record ∈ batch, record.txId.toNat = txId → record.status = status)
    (named :
      clog.map txId = some status ∨ ∃ record ∈ batch, record.txId.toNat = txId) :
    (clog.insertAll batch).map txId = some status := by
  induction batch generalizing clog with
  | nil =>
      rcases named with before | ⟨_, member, _⟩
      · exact before
      · cases member
  | cons record rest inductionHypothesis =>
      apply inductionHypothesis fun later member =>
        agree later (List.mem_cons_of_mem record member)
      by_cases here : txId = record.txId.toNat
      · subst here
        left
        rw [← agree record List.mem_cons_self rfl]
        exact Function.update_self _ _ _
      · rcases named with before | ⟨later, member, same⟩
        · exact .inl ((Function.update_of_ne here _ _).trans before)
        · rcases List.mem_cons.mp member with rfl | member
          · exact absurd same.symm here
          · exact .inr ⟨later, member, same⟩

variable
  {state next : State}
  {action : Action}

theorem flushes_kept
    (stepped : state.step action = some next)
    {flush : Flush}
    (member : flush ∈ state.flushes) :
    flush ∈ next.flushes := by
  cases step_effect stepped with
  | write _ => exact List.mem_cons_of_mem _ member
  | @publish _ _ _ _ result _ => cases result <;> exact member
  | _ => exact member

/-- A durable record stays durable. -/
theorem Durable.step
    {entry : Entry}
    (durable : state.Durable entry)
    (stepped : state.step action = some next) :
    next.Durable entry := by
  obtain ⟨flush, member, succeeded, inBatch⟩ := durable
  exact ⟨flush, flushes_kept stepped member, succeeded, inBatch⟩

theorem MapFsynced.opened
    (floor : UInt64)
    (records : List Record) :
    (State.opened floor records).MapFsynced := by
  intro txId status found
  rcases insertAll_map_cases found with absent | ⟨record, member, named, outcome⟩
  · cases absent
  · refine ⟨{ lsn := 0, record }, ?_, named, outcome⟩
    exact ⟨_, List.mem_singleton_self _, rfl, List.mem_map.mpr ⟨record, member, rfl⟩⟩

/-- The map keeps to fsynced records. -/
theorem MapFsynced.step
    (queued : state.Queued)
    (fsynced : state.MapFsynced)
    (stepped : state.step action = some next) :
    next.MapFsynced := by
  have kept :
      ∀ txId status, state.clog.map txId = some status → next.Fsynced txId status := by
    intro txId status found
    obtain ⟨entry, durable, named, outcome⟩ := fsynced txId status found
    exact ⟨entry, durable.step stepped, named, outcome⟩
  cases step_effect stepped with
  | @publish thread _ _ batch result phase =>
      cases result with
      | error _ => exact kept
      | ok _ =>
          intro txId status found
          rcases insertAll_map_cases found with before | ⟨record, member, named, outcome⟩
          · exact kept txId status before
          · obtain ⟨entry, inBatch, rfl⟩ := List.mem_map.mp member
            have durable := queued.logged _ _ _ _ phase entry inBatch
            exact ⟨entry, durable.step stepped, named, outcome⟩
  | _ => exact kept

theorem Acknowledgeable.opened
    (floor : UInt64)
    (records : List Record) :
    (State.opened floor records).Acknowledgeable :=
  nofun

theorem publish_acknowledges
    {thread snapshotLsn : Nat}
    {own : Entry}
    {batch : List Entry}
    (queued : state.Queued)
    (acknowledgeable : state.Acknowledgeable)
    (phase : state.threads thread = .flushed own batch snapshotLsn (.ok ()))
    (accounted : state.Accounted (.publish thread))
    {other : Nat}
    {entry : Entry}
    (calling : (state.threads other).call = some entry)
    (covered : entry.lsn ≤ snapshotLsn) :
    state.Durable entry ∧
      (state.clog.insertAll (batch.map Entry.record)).map entry.record.txId.toNat =
        some entry.record.status := by
  obtain ⟨kept, agree⟩ := accounted own batch snapshotLsn phase other entry calling covered
  have durable : state.Durable entry := by
    rcases queued.placed other entry calling with
      waiting | ⟨leader, owner, drained, lsn, leading, _⟩ | ⟨flush, member, inBatch⟩
    · have behind :=
        (queued.watermark thread batch snapshotLsn (congrArg Phase.lead phase)).2.2.2
      exact absurd covered (Nat.not_le.mpr (behind entry waiting))
    · obtain rfl :=
        queued.exclusive leader thread (drained, lsn) (batch, snapshotLsn)
          (congrArg Phase.lead leading) (congrArg Phase.lead phase)
      rw [phase] at leading
      cases leading
    · by_contra notDurable
      refine kept ⟨flush, member, fun succeeded => ?_, inBatch⟩
      exact notDurable ⟨flush, member, succeeded, inBatch⟩
  refine ⟨durable, insertAll_map_agree ?_ ?_⟩
  · intro record member same
    obtain ⟨peer, inBatch, rfl⟩ := List.mem_map.mp member
    exact agree peer inBatch (UInt64.toNat.inj same)
  · rcases queued.published entry durable with
      earlier | ⟨leader, owner, drained, lsn, leading, inBatch⟩
    · exact .inl (acknowledgeable other entry calling earlier).2
    · obtain rfl :=
        queued.exclusive leader thread (drained, lsn) (batch, snapshotLsn)
          (congrArg Phase.lead leading) (congrArg Phase.lead phase)
      obtain ⟨_, rfl, _⟩ := Phase.flushed.inj (phase.symm.trans leading)
      exact .inr ⟨entry.record, List.mem_map_of_mem inBatch, rfl⟩

/-- Every accounted step keeps what may be acknowledged. -/
theorem Acknowledgeable.step
    (queued : state.Queued)
    (acknowledgeable : state.Acknowledgeable)
    (accounted : state.Accounted action)
    (stepped : state.step action = some next) :
    next.Acknowledgeable := by
  -- Every step but a new call and a publication leaves watermark and map alone.
  have still :
      (∀ thread entry,
          (next.threads thread).call = some entry →
            (state.threads thread).call = some entry) →
        next.durableLsn = state.durableLsn →
        next.clog = state.clog →
        next.Acknowledgeable := by
    intro calls watermark map thread entry calling covered
    rw [watermark] at covered
    obtain ⟨durable, found⟩ := acknowledgeable thread entry (calls thread entry calling) covered
    exact ⟨durable.step stepped, by rw [map]; exact found⟩
  have rephased :
      ∀ {thread : Nat} {phase : Phase},
        (∀ entry, phase.call = some entry → (state.threads thread).call = some entry) →
          ∀ other entry,
            ((state.setThread thread phase).threads other).call = some entry →
              (state.threads other).call = some entry := by
    intro thread phase calls other entry calling
    by_cases here : other = thread
    · subst here
      rw [setThread_self] at calling
      exact calls entry calling
    · rwa [setThread_other here] at calling
  cases step_effect stepped with
  | @append thread record _ =>
      intro other entry calling covered
      by_cases here : other = thread
      · subst here
        obtain rfl : ({ lsn := state.nextLsn + 1, record } : Entry) = entry := by
          simpa [enqueue, setThread, Phase.call] using calling
        have behind : state.nextLsn + 1 ≤ state.durableLsn := covered
        have bound := queued.durable
        omega
      · have before : (state.threads other).call = some entry := by
          simpa [enqueue, setThread, here] using calling
        exact acknowledgeable other entry before covered
  | covered phase _ => exact still (rephased nofun) rfl rfl
  | park phase =>
      refine still (rephased fun entry calling => ?_) rfl rfl
      rw [phase]
      exact calling
  | drain phase _ =>
      refine still (rephased fun entry calling => ?_) rfl rfl
      rw [phase]
      exact calling
  | wake phase =>
      refine still (rephased fun entry calling => ?_) rfl rfl
      rw [phase]
      exact calling
  | skip phase =>
      refine still (rephased fun entry calling => ?_) rfl rfl
      rw [phase]
      exact calling
  | write phase =>
      refine still (rephased fun entry calling => ?_) rfl rfl
      rw [phase]
      exact calling
  | @publish thread snapshotLsn own batch result phase =>
      have threads := queued.publish_threads phase
      cases result with
      | error _ => exact still (fun other => (threads other).2) rfl rfl
      | ok _ =>
          intro other entry calling covered
          have before := (threads other).2 entry calling
          exact publish_acknowledges queued acknowledgeable phase accounted before covered

theorem returned_durable
    {thread : Nat}
    {entry : Entry}
    (queued : state.Queued)
    (acknowledgeable : state.Acknowledgeable)
    (accounted : state.Accounted action)
    (stepped : state.step action = some next)
    (returned : next.threads thread = .returned entry (.ok ()))
    (running : state.threads thread ≠ next.threads thread) :
    next.Durable entry ∧
      next.clog.map entry.record.txId.toNat = some entry.record.status := by
  have elsewhere :
      ∀ {other : Nat} {phase : Phase},
        next.threads = Function.update state.threads other phase →
          phase ≠ .returned entry (.ok ()) →
          False := by
    intro other phase threads notReturned
    by_cases here : thread = other
    · subst here
      rw [threads, Function.update_self] at returned
      exact notReturned returned
    · rw [threads, Function.update_of_ne here] at running
      exact running rfl
  cases step_effect stepped with
  | append _ => exact (elsewhere rfl nofun).elim
  | park _ => exact (elsewhere rfl nofun).elim
  | drain _ _ => exact (elsewhere rfl nofun).elim
  | wake _ => exact (elsewhere rfl nofun).elim
  | skip _ => exact (elsewhere rfl nofun).elim
  | write _ => exact (elsewhere rfl nofun).elim
  | @covered caller own phase durable =>
      by_cases here : thread = caller
      · subst here
        rw [setThread_self] at returned
        obtain ⟨rfl, _⟩ := Phase.returned.inj returned
        exact acknowledgeable thread own (by rw [phase]; rfl) durable
      · rw [setThread_other here] at running
        exact (running rfl).elim
  | @publish leader snapshotLsn own batch result phase =>
      have threads :
          (state.publish leader own batch snapshotLsn result).threads =
            Function.update (fun other => (state.threads other).notified) leader
              (.returned own result) := rfl
      rw [threads] at returned running
      by_cases here : thread = leader
      · subst here
        rw [Function.update_self] at returned
        obtain ⟨rfl, rfl⟩ := Phase.returned.inj returned
        have calling : (state.threads thread).call = some own := by rw [phase]; rfl
        have covered :=
          queued.own thread own batch snapshotLsn calling (congrArg Phase.lead phase)
        exact publish_acknowledges queued acknowledgeable phase accounted calling covered
      · rw [Function.update_of_ne here] at returned running
        cases before : state.threads thread with
        | parked _ =>
            rw [before] at returned
            cases returned
        | _ =>
            rw [before] at running
            exact (running rfl).elim

/--
The map never holds a record that was not fsynced.  In a run whose leaders publish
no watermark over a record that a failed batch has swallowed, every call that
returns `Ok` has its own record in the file and in the map.
-/
theorem acknowledged_records_are_durable
    (floor : UInt64)
    (records : List Record)
    (actions : List Action)
    (state : State) :
    (Run step unrestricted (.opened floor records) actions state → state.MapFsynced) ∧
      (Run step Accounted (.opened floor records) actions state →
        ∀ action next thread entry,
          state.Accounted action →
            state.step action = some next →
              next.threads thread = .returned entry (.ok ()) →
                state.threads thread ≠ next.threads thread →
                  next.Durable entry ∧
                    next.clog.map entry.record.txId.toNat = some entry.record.status) := by
  constructor
  · intro run
    have both : state.Queued ∧ state.MapFsynced := by
      refine run.invariant (fun state => state.Queued ∧ state.MapFsynced) ?_
        ⟨.opened floor records, .opened floor records⟩
      rintro state next action ⟨queued, fsynced⟩ _ stepped
      exact ⟨queued.step stepped, fsynced.step queued stepped⟩
    exact both.2
  · intro run action next thread entry accounted stepped returned running
    have both : state.Queued ∧ state.Acknowledgeable := by
      refine run.invariant (fun state => state.Queued ∧ state.Acknowledgeable) ?_
        ⟨.opened floor records, .opened floor records⟩
      rintro state next action ⟨queued, acknowledgeable⟩ accounted stepped
      exact ⟨queued.step stepped, acknowledgeable.step queued accounted stepped⟩
    exact returned_durable both.1 both.2 accounted stepped returned running

/-- Two commits in one batch: the thread of the first leads, the other is parked meanwhile. -/
def batchedCommits : List Action :=
  [.recordCommit 0 5, .recordCommit 1 6, .check 0, .check 1, .write 0 (.ok ()), .publish 0]

/-- The follower finds its record covered and returns without a write of its own. -/
theorem follower_commit_durable :
    ∃ state next entry,
      Run step Accounted (State.opened 0 []) batchedCommits state ∧
        state.step (.check 1) = some next ∧
        next.threads 1 = .returned entry (.ok ()) ∧
        next.Durable entry ∧
        next.clog.map 6 = some .committed := by
  have reached :
      ∃ state,
        Run step Accounted (State.opened 0 []) batchedCommits state ∧
          ∃ next entry,
            state.step (.check 1) = some next ∧
              next.threads 1 = .returned entry (.ok ()) ∧
              state.threads 1 ≠ next.threads 1 ∧
              entry.record = { txId := 6, status := .committed } := by
    refine ⟨_, .cons trivial rfl (.cons trivial rfl (.cons trivial rfl (.cons trivial rfl
      (.cons trivial rfl (.cons ?_ rfl (.nil _)))))), _, _, rfl, rfl, nofun, rfl⟩
    intro own batch snapshotLsn phase other entry calling _
    obtain ⟨_, rfl, _⟩ := Phase.flushed.inj phase
    refine ⟨?_, ?_⟩
    -- The one batch that is written was written well.
    · rintro ⟨flush, member, failed, _⟩
      rcases List.mem_cons.mp member with rfl | member
      · exact failed rfl
      · obtain rfl := List.mem_singleton.mp member
        exact failed rfl
    · match other with
      | 0 =>
          obtain rfl := Option.some.inj calling
          simp [enqueue, opened]
      | 1 =>
          obtain rfl := Option.some.inj calling
          simp [enqueue, opened]
      | _ + 2 => cases calling
  obtain ⟨state, run, next, entry, stepped, returned, running, record⟩ := reached
  have durable :=
    (acknowledged_records_are_durable 0 [] batchedCommits state).2 run (.check 1) next 1 entry
      trivial stepped returned running
  refine ⟨state, next, entry, run, stepped, returned, durable.1, ?_⟩
  simpa [record] using durable.2

/-- The leader's write fails; its follower then leads an empty batch. -/
def swallowed : List Action :=
  [.recordCommit 0 5, .recordCommit 1 6, .check 0, .write 0 (.error (.io "disk full")),
    .publish 0, .check 1, .write 1 (.ok ())]

/-- The follower's commit returns `Ok` with its record nowhere. -/
theorem follower_of_failed_batch_acknowledged :
    ∃ state next entry,
      Run step unrestricted (State.opened 0 []) swallowed state ∧
        state.step (.publish 1) = some next ∧
        next.threads 1 = .returned entry (.ok ()) ∧
        state.threads 1 ≠ next.threads 1 ∧
        ¬next.Durable entry ∧
        next.clog.map 6 = none := by
  have run : Run step unrestricted (State.opened 0 []) swallowed _ :=
    (((((((Run.nil (State.opened 0 [])).snoc trivial rfl).snoc trivial rfl).snoc
      trivial rfl).snoc trivial rfl).snoc trivial rfl).snoc trivial rfl).snoc trivial rfl
  refine ⟨_, _, _, run, rfl, rfl, nofun, ?_, rfl⟩
  rintro ⟨flush, member, succeeded, inBatch⟩
  rcases List.mem_cons.mp member with rfl | member
  · cases succeeded
  · obtain rfl := List.mem_singleton.mp member
    cases inBatch

end State

end PrehniteDB.GroupCommit
