import PrehniteDB.OutstandingAppends

namespace PrehniteDB.ClogRewriting

open TransitionRun ClogFile

/-!
# Truncation of a commit log in use

`truncate_below` beside the group commit, without I/O failures.  It takes the
flush slot of the leaders, writes the records it keeps under a temporary name,
renames that file over the log and only then changes the map.  Between the write
or the rename and its publication the file is ahead of the map.
-/

/-- Where a thread stands in `truncate_below`. -/
inductive Rewrite where
  | idle
  /-- At the head of the loop that waits for the flush slot. -/
  | entering (floor : UInt64)
  | parked (floor : UInt64)
  /-- In the slot, with the records to keep. -/
  | holding (floor : UInt64) (kept : List Record)
  /-- The new image is complete under its temporary name. -/
  | written (floor : UInt64) (kept : List Record)
  /-- The new image is the log. -/
  | swapped (floor : UInt64) (kept : List Record)
  | returned

namespace Rewrite

/-- The floor and the kept records of the thread in the slot. -/
def slot : Rewrite → Option (UInt64 × List Record)
  | .holding floor kept => some (floor, kept)
  | .written floor kept => some (floor, kept)
  | .swapped floor kept => some (floor, kept)
  | _ => none

def notified : Rewrite → Rewrite
  | .parked floor => .entering floor
  | rewrite => rewrite

@[simp]
theorem slot_notified (rewrite : Rewrite) : rewrite.notified.slot = rewrite.slot := by
  cases rewrite <;> rfl

end Rewrite

structure State where
  log : GroupCommit.State
  /-- The bytes under the log's own name. -/
  file : List UInt8
  /-- The bytes under the temporary name. -/
  tmp : Option (List UInt8)
  rewrites : Nat → Rewrite
  /-- Every record that was in the file at first or that some call enqueued. -/
  appended : List Record
  /-- Every record that was in the file at first or whose call has returned. -/
  acknowledged : List Record

inductive Action where
  | append (thread : Nat) (record : Record)
  | check (thread : Nat)
  | wake (thread : Nat)
  | write (thread : Nat)
  | publish (thread : Nat)
  | truncateBelow (thread : Nat) (floor : UInt64)
  /-- One pass over the test of the slot; `kept` is the order the map is iterated in. -/
  | enter (thread : Nat) (kept : List Record)
  | wakeRewrite (thread : Nat)
  | writeImage (thread : Nat)
  | swap (thread : Nat)
  | publishRewrite (thread : Nat)

namespace State

/-- A log just opened over a file of whole records. -/
def opened (floor : UInt64) (records : List Record) : State where
  log := .opened floor records
  file := writeHeader floor ++ encodeBatch records
  tmp := none
  rewrites := fun _ => .idle
  appended := records
  acknowledged := records

def setRewrite (state : State) (thread : Nat) (rewrite : Rewrite) : State :=
  { state with rewrites := Function.update state.rewrites thread rewrite }

/-- The log has moved on; a call of this thread that returned is acknowledged. -/
def moved (state : State) (thread : Nat) (log : GroupCommit.State) : State :=
  { state with
    log := log
    acknowledged :=
      match log.threads thread with
      | .returned entry (.ok ()) => entry.record :: state.acknowledged
      | _ => state.acknowledged }

/-- Leave the slot and wake everybody. -/
def release (state : State) (thread : Nat) (clog : Clog) : State :=
  { state with
    log := { state.log with
      clog := clog
      flushing := false
      threads := fun other => (state.log.threads other).notified }
    rewrites :=
      Function.update (fun other => (state.rewrites other).notified) thread .returned }

/-- One step, `none` when it is not enabled. -/
def step (state : State) : Action → Option State
  | .append thread record =>
      (state.log.step (.append thread record)).map fun log =>
        { state with log := log, appended := record :: state.appended }
  | .check thread => (state.log.step (.check thread)).map (state.moved thread)
  | .wake thread =>
      (state.log.step (.wake thread)).map fun log => { state with log := log }
  | .write thread =>
      match state.log.threads thread with
      | .leading _ batch _ =>
          (state.log.step (.write thread (.ok ()))).map fun log =>
            { state with
              log := log
              file := state.file ++ encodeBatch (batch.map GroupCommit.Entry.record) }
      | _ => none
  | .publish thread =>
      (state.log.step (.publish thread)).map fun log =>
        { state.moved thread log with
          rewrites := fun other => (state.rewrites other).notified }
  | .truncateBelow thread floor =>
      match state.rewrites thread with
      | .idle | .returned =>
          if floor = 0 then some (state.setRewrite thread .returned)
          else some (state.setRewrite thread (.entering floor))
      | _ => none
  | .enter thread kept =>
      match state.rewrites thread with
      | .entering floor =>
          if state.log.flushing then some (state.setRewrite thread (.parked floor))
          else if floor.toNat ≤ state.log.clog.minTxId then
            -- The floor does not advance.
            some (state.release thread state.log.clog)
          else
            some { state.setRewrite thread (.holding floor kept) with
              log := { state.log with flushing := true } }
      | _ => none
  | .wakeRewrite thread =>
      match state.rewrites thread with
      | .parked floor => some (state.setRewrite thread (.entering floor))
      | _ => none
  | .writeImage thread =>
      match state.rewrites thread with
      | .holding floor kept =>
          some { state.setRewrite thread (.written floor kept) with
            tmp := some (writeHeader floor ++ encodeBatch kept) }
      | _ => none
  | .swap thread =>
      match state.rewrites thread, state.tmp with
      | .written floor kept, some image =>
          some { state.setRewrite thread (.swapped floor kept) with
            file := image
            tmp := none }
      | _, _ => none
  | .publishRewrite thread =>
      match state.rewrites thread with
      | .swapped floor _ =>
          some (state.release thread (state.log.clog.truncateBelow floor.toNat))
      | _ => none

/-- An iteration over the map visits every entry at or above the floor once, in any order. -/
def Iterates (state : State) : Action → Prop
  | .enter thread kept =>
      ∀ floor,
        state.rewrites thread = .entering floor →
          ClogStore.Iterates { clog := state.log.clog, file := state.file }
            (.truncateBelow floor kept)
  | _ => True

/-- Every call has returned. -/
def Quiet (state : State) : Prop :=
  (∀ thread, (state.log.threads thread).call = none) ∧
    ∀ thread, state.rewrites thread = .idle ∨ state.rewrites thread = .returned

@[simp]
theorem setRewrite_self
    (state : State)
    (thread : Nat)
    (rewrite : Rewrite) :
    (state.setRewrite thread rewrite).rewrites thread = rewrite :=
  Function.update_self _ _ _

theorem setRewrite_other
    {state : State}
    {thread other : Nat}
    {rewrite : Rewrite}
    (different : other ≠ thread) :
    (state.setRewrite thread rewrite).rewrites other = state.rewrites other :=
  Function.update_of_ne different _ _

/-- What a step can do. -/
inductive Effect (state : State) : Action → State → Prop where
  | append
      {thread : Nat}
      {record : Record}
      {log : GroupCommit.State}
      (stepped : state.log.step (.append thread record) = some log) :
      Effect state (.append thread record)
        { state with log := log, appended := record :: state.appended }
  | check
      {thread : Nat}
      {log : GroupCommit.State}
      (stepped : state.log.step (.check thread) = some log) :
      Effect state (.check thread) (state.moved thread log)
  | wake
      {thread : Nat}
      {log : GroupCommit.State}
      (stepped : state.log.step (.wake thread) = some log) :
      Effect state (.wake thread) { state with log := log }
  | write
      {thread snapshotLsn : Nat}
      {entry : GroupCommit.Entry}
      {batch : List GroupCommit.Entry}
      {log : GroupCommit.State}
      (phase : state.log.threads thread = .leading entry batch snapshotLsn)
      (stepped : state.log.step (.write thread (.ok ())) = some log) :
      Effect state (.write thread)
        { state with
          log := log
          file := state.file ++ encodeBatch (batch.map GroupCommit.Entry.record) }
  | publish
      {thread : Nat}
      {log : GroupCommit.State}
      (stepped : state.log.step (.publish thread) = some log) :
      Effect state (.publish thread)
        { state.moved thread log with
          rewrites := fun other => (state.rewrites other).notified }
  /-- A call of `truncate_below` moves without the slot. -/
  | outside
      {action : Action}
      {thread : Nat}
      {rewrite : Rewrite}
      (before : (state.rewrites thread).slot = none)
      (after : rewrite.slot = none) :
      Effect state action (state.setRewrite thread rewrite)
  | stays
      {thread : Nat}
      {kept : List Record}
      (free : state.log.flushing = false) :
      Effect state (.enter thread kept) (state.release thread state.log.clog)
  | hold
      {thread : Nat}
      {floor : UInt64}
      {kept : List Record}
      (phase : state.rewrites thread = .entering floor)
      (free : state.log.flushing = false)
      (advances : state.log.clog.minTxId < floor.toNat) :
      Effect state (.enter thread kept)
        { state.setRewrite thread (.holding floor kept) with
          log := { state.log with flushing := true } }
  | writeImage
      {thread : Nat}
      {floor : UInt64}
      {kept : List Record}
      (phase : state.rewrites thread = .holding floor kept) :
      Effect state (.writeImage thread)
        { state.setRewrite thread (.written floor kept) with
          tmp := some (writeHeader floor ++ encodeBatch kept) }
  | swap
      {thread : Nat}
      {floor : UInt64}
      {kept : List Record}
      {image : List UInt8}
      (phase : state.rewrites thread = .written floor kept)
      (stored : state.tmp = some image) :
      Effect state (.swap thread)
        { state.setRewrite thread (.swapped floor kept) with file := image, tmp := none }
  | publishRewrite
      {thread : Nat}
      {floor : UInt64}
      {kept : List Record}
      (phase : state.rewrites thread = .swapped floor kept) :
      Effect state (.publishRewrite thread)
        (state.release thread (state.log.clog.truncateBelow floor.toNat))

theorem step_effect
    {state next : State}
    {action : Action}
    (stepped : state.step action = some next) :
    Effect state action next := by
  cases action with
  | append thread record =>
      obtain ⟨log, logStepped, rfl⟩ := Option.map_eq_some_iff.mp stepped
      exact .append logStepped
  | check thread =>
      obtain ⟨log, logStepped, rfl⟩ := Option.map_eq_some_iff.mp stepped
      exact .check logStepped
  | wake thread =>
      obtain ⟨log, logStepped, rfl⟩ := Option.map_eq_some_iff.mp stepped
      exact .wake logStepped
  | write thread =>
      simp only [step] at stepped
      split at stepped
      case h_1 phase =>
        obtain ⟨log, logStepped, rfl⟩ := Option.map_eq_some_iff.mp stepped
        exact .write phase logStepped
      case h_2 => cases stepped
  | publish thread =>
      obtain ⟨log, logStepped, rfl⟩ := Option.map_eq_some_iff.mp stepped
      exact .publish logStepped
  | truncateBelow thread floor =>
      have called
          (before : (state.rewrites thread).slot = none)
          (stepped :
            (if floor = 0 then some (state.setRewrite thread .returned)
              else some (state.setRewrite thread (.entering floor))) = some next) :
          Effect state (.truncateBelow thread floor) next := by
        split at stepped <;> obtain rfl := Option.some.inj stepped <;> exact .outside before rfl
      simp only [step] at stepped
      split at stepped
      case h_1 phase => exact called (by rw [phase]; rfl) stepped
      case h_2 phase => exact called (by rw [phase]; rfl) stepped
      case h_3 => cases stepped
  | enter thread kept =>
      simp only [step] at stepped
      split at stepped
      case h_2 => cases stepped
      case h_1 floor phase =>
        split at stepped
        case isTrue =>
          obtain rfl := Option.some.inj stepped
          exact .outside (by rw [phase]; rfl) rfl
        case isFalse taken =>
          have free := Bool.eq_false_iff.mpr taken
          split at stepped <;> obtain rfl := Option.some.inj stepped
          case isTrue => exact .stays free
          case isFalse behind => exact .hold phase free (Nat.lt_of_not_le behind)
  | wakeRewrite thread =>
      simp only [step] at stepped
      split at stepped
      case h_1 phase =>
        obtain rfl := Option.some.inj stepped
        exact .outside (by rw [phase]; rfl) rfl
      case h_2 => cases stepped
  | writeImage thread =>
      simp only [step] at stepped
      split at stepped
      case h_1 phase =>
        obtain rfl := Option.some.inj stepped
        exact .writeImage phase
      case h_2 => cases stepped
  | swap thread =>
      simp only [step] at stepped
      split at stepped
      case h_1 phase stored =>
        obtain rfl := Option.some.inj stepped
        exact .swap phase stored
      case h_2 => cases stepped
  | publishRewrite thread =>
      simp only [step] at stepped
      split at stepped
      case h_1 phase =>
        obtain rfl := Option.some.inj stepped
        exact .publishRewrite phase
      case h_2 => cases stepped

/-- The records a rewrite keeps are those of the map from its floor on. -/
def Selected (clog : Clog) (floor : UInt64) (kept : List Record) : Prop :=
  clog.minTxId < floor.toNat ∧
    ClogStore.Iterates { clog := clog, file := [] } (.truncateBelow floor kept)

/-- What the file spells: the map, or the map after the publication that is due. -/
structure Spells (state : State) (written : Clog) : Prop where
  framed : ClogStore.Framed { clog := written, file := state.file }
  leader :
    ∀ thread entry batch snapshotLsn result,
      state.log.threads thread = .flushed entry batch snapshotLsn result →
        written = state.log.clog.insertAll (batch.map GroupCommit.Entry.record)
  rewriter :
    ∀ thread floor kept,
      state.rewrites thread = .swapped floor kept →
        written = state.log.clog.truncateBelow floor.toNat
  still :
    (∀ thread entry batch snapshotLsn result,
        state.log.threads thread ≠ .flushed entry batch snapshotLsn result) →
      (∀ thread floor kept, state.rewrites thread ≠ .swapped floor kept) →
        written = state.log.clog

/-- Leaders and rewriters share one slot, and only its holder puts the file ahead. -/
structure Sound (state : State) : Prop where
  queued : state.log.Queued
  awaited : state.log.Awaited
  held :
    ∀ thread slot,
      (state.rewrites thread).slot = some slot →
        state.log.flushing = true ∧ ∀ leader, (state.log.threads leader).lead = none
  alone :
    ∀ first second firstSlot secondSlot,
      (state.rewrites first).slot = some firstSlot →
        (state.rewrites second).slot = some secondSlot → first = second
  flawless :
    ∀ thread entry batch snapshotLsn result,
      state.log.threads thread = .flushed entry batch snapshotLsn result → result = .ok ()
  selected :
    ∀ thread floor kept,
      (state.rewrites thread).slot = some (floor, kept) → Selected state.log.clog floor kept
  image :
    ∀ thread floor kept,
      state.rewrites thread = .written floor kept →
        state.tmp = some (writeHeader floor ++ encodeBatch kept)
  spelled : ∃ written, Spells state written

namespace Sound

variable {state next : State}

theorem opened
    (floor : UInt64)
    (records : List Record) :
    (State.opened floor records).Sound where
  queued := .opened floor records
  awaited := .opened floor records
  held := nofun
  alone := nofun
  flawless := nofun
  selected := nofun
  image := nofun
  spelled := by
    refine ⟨(State.opened floor records).log.clog, ⟨floor, records, rfl, rfl⟩, nofun, nofun, ?_⟩
    exact fun _ _ => rfl

theorem logMoved
    (sound : state.Sound)
    (queued : next.log.Queued)
    (awaited : next.log.Awaited)
    (clog : next.log.clog = state.log.clog)
    (slot :
      state.log.flushing = true →
        next.log.flushing = true ∧
          ((∀ leader, (state.log.threads leader).lead = none) →
            ∀ leader, (next.log.threads leader).lead = none))
    (flushed :
      ∀ thread entry batch snapshotLsn result,
        next.log.threads thread = .flushed entry batch snapshotLsn result ↔
          state.log.threads thread = .flushed entry batch snapshotLsn result)
    (file : next.file = state.file)
    (tmp : next.tmp = state.tmp)
    (rewrites : next.rewrites = state.rewrites) :
    next.Sound := by
  refine
    { queued := queued
      awaited := awaited
      held := ?_
      alone := by rw [rewrites]; exact sound.alone
      flawless := fun thread entry batch snapshotLsn result phase =>
        sound.flawless thread entry batch snapshotLsn result
          ((flushed thread entry batch snapshotLsn result).mp phase)
      selected := by rw [rewrites, clog]; exact sound.selected
      image := by rw [rewrites, tmp]; exact sound.image
      spelled := ?_ }
  · intro thread holder inSlot
    rw [rewrites] at inSlot
    obtain ⟨taken, unled⟩ := sound.held thread holder inSlot
    exact ⟨(slot taken).1, (slot taken).2 unled⟩
  · obtain ⟨written, spells⟩ := sound.spelled
    refine ⟨written, by rw [file]; exact spells.framed, ?_, ?_, ?_⟩
    · intro thread entry batch snapshotLsn result phase
      rw [clog]
      exact spells.leader thread entry batch snapshotLsn result
        ((flushed thread entry batch snapshotLsn result).mp phase)
    · intro thread floor kept swapped
      rw [rewrites] at swapped
      rw [clog]
      exact spells.rewriter thread floor kept swapped
    · intro noFlush noSwap
      rw [clog]
      refine spells.still (fun thread entry batch snapshotLsn result phase => ?_) fun thread => ?_
      · exact noFlush thread entry batch snapshotLsn result
          ((flushed thread entry batch snapshotLsn result).mpr phase)
      · have noSwap := noSwap thread
        rwa [rewrites] at noSwap

theorem threadMoved
    {thread : Nat}
    {phase : GroupCommit.Phase}
    (sound : state.Sound)
    (queued : next.log.Queued)
    (awaited : next.log.Awaited)
    (clog : next.log.clog = state.log.clog)
    (flushing : next.log.flushing = state.log.flushing)
    (threads : next.log.threads = Function.update state.log.threads thread phase)
    (before : (state.log.threads thread).lead = none)
    (after : phase.lead = none)
    (file : next.file = state.file)
    (tmp : next.tmp = state.tmp)
    (rewrites : next.rewrites = state.rewrites) :
    next.Sound := by
  have unflushed :
      ∀ {phase : GroupCommit.Phase},
        phase.lead = none →
          ∀ entry batch snapshotLsn result, phase ≠ .flushed entry batch snapshotLsn result := by
    rintro _ unled entry batch snapshotLsn result rfl
    cases unled
  refine sound.logMoved queued awaited clog (fun taken => ⟨flushing.trans taken, fun unled => ?_⟩)
    (fun other entry batch snapshotLsn result => ?_) file tmp rewrites
  · intro leader
    rw [threads]
    by_cases here : leader = thread
    · subst here
      rwa [Function.update_self]
    · rw [Function.update_of_ne here]
      exact unled leader
  · rw [threads]
    by_cases here : other = thread
    · subst here
      rw [Function.update_self]
      exact iff_of_false (unflushed after entry batch snapshotLsn result)
        (unflushed before entry batch snapshotLsn result)
    · rw [Function.update_of_ne here]

/-- While a leader has the slot nobody rewrites the file. -/
theorem unslotted
    {leader : Nat}
    {lead : List GroupCommit.Entry × Nat}
    (sound : state.Sound)
    (leads : (state.log.threads leader).lead = some lead)
    (thread : Nat) :
    (state.rewrites thread).slot = none := by
  cases inSlot : (state.rewrites thread).slot with
  | none => rfl
  | some slot =>
      have unled := (sound.held thread slot inSlot).2 leader
      rw [leads] at unled
      cases unled

/-- While the slot is free nobody rewrites the file. -/
theorem vacant
    (sound : state.Sound)
    (slot : state.log.flushing = false)
    (thread : Nat) :
    (state.rewrites thread).slot = none := by
  cases inSlot : (state.rewrites thread).slot with
  | none => rfl
  | some holder =>
      have taken := (sound.held thread holder inSlot).1
      rw [slot] at taken
      cases taken

/-- The file spells the map when no write and no rename waits for its publication. -/
theorem published
    (sound : state.Sound)
    (unled : ∀ leader, (state.log.threads leader).lead = none)
    (unswapped : ∀ thread floor kept, state.rewrites thread ≠ .swapped floor kept) :
    ClogStore.Framed { clog := state.log.clog, file := state.file } := by
  obtain ⟨written, spells⟩ := sound.spelled
  obtain rfl : written = state.log.clog := by
    refine spells.still (fun other entry batch snapshotLsn result flushed => ?_) unswapped
    cases (unled other).symm.trans (congrArg GroupCommit.Phase.lead flushed)
  exact spells.framed

theorem published_of_holder
    {thread : Nat}
    {slot : UInt64 × List Record}
    (sound : state.Sound)
    (inSlot : (state.rewrites thread).slot = some slot)
    (unswapped : ∀ floor kept, state.rewrites thread ≠ .swapped floor kept) :
    ClogStore.Framed { clog := state.log.clog, file := state.file } := by
  refine sound.published (sound.held thread slot inSlot).2 fun other floor kept swapped => ?_
  obtain rfl := sound.alone other thread _ slot (congrArg Rewrite.slot swapped) inSlot
  exact unswapped floor kept swapped

theorem write
    {thread snapshotLsn : Nat}
    {entry : GroupCommit.Entry}
    {batch : List GroupCommit.Entry}
    {log : GroupCommit.State}
    (sound : state.Sound)
    (phase : state.log.threads thread = .leading entry batch snapshotLsn)
    (stepped : state.log.step (.write thread (.ok ())) = some log) :
    Sound { state with
      log := log
      file := state.file ++ encodeBatch (batch.map GroupCommit.Entry.record) } := by
  have result :
      log.clog = state.log.clog ∧
        log.threads =
          Function.update state.log.threads thread (.flushed entry batch snapshotLsn (.ok ())) := by
    cases GroupCommit.State.step_effect stepped with
    | skip leading =>
        obtain ⟨rfl, rfl, rfl⟩ := GroupCommit.Phase.leading.inj (phase.symm.trans leading)
        exact ⟨rfl, rfl⟩
    | write leading =>
        obtain ⟨rfl, rfl, rfl⟩ := GroupCommit.Phase.leading.inj (phase.symm.trans leading)
        exact ⟨rfl, rfl⟩
  obtain ⟨clog, threads⟩ := result
  have leads : (state.log.threads thread).lead = some (batch, snapshotLsn) := by
    rw [phase]
    rfl
  have unslotted := sound.unslotted leads
  have unswapped : ∀ other floor kept, state.rewrites other ≠ .swapped floor kept := by
    intro other floor kept swapped
    have none := unslotted other
    rw [swapped] at none
    cases none
  -- The leader is alone, so every finished write is its own.
  have mine :
      ∀ other own drained lsn result,
        log.threads other = .flushed own drained lsn result →
          other = thread ∧ drained = batch ∧ result = .ok () := by
    intro other own drained lsn result flushed
    rw [threads] at flushed
    by_cases here : other = thread
    · subst here
      rw [Function.update_self] at flushed
      obtain ⟨_, rfl, _, rfl⟩ := GroupCommit.Phase.flushed.inj flushed
      exact ⟨rfl, rfl, rfl⟩
    · rw [Function.update_of_ne here] at flushed
      exact absurd (sound.queued.exclusive other thread _ _
        (congrArg GroupCommit.Phase.lead flushed) leads) here
  obtain ⟨written, spells⟩ := sound.spelled
  obtain rfl : written = state.log.clog := by
    refine spells.still (fun other own drained lsn result flushed => ?_) unswapped
    obtain rfl := sound.queued.exclusive other thread _ _
      (congrArg GroupCommit.Phase.lead flushed) leads
    rw [phase] at flushed
    cases flushed
  refine
    { queued := sound.queued.step stepped
      awaited := sound.awaited.step sound.queued stepped
      held := fun other slot inSlot => ?_
      alone := sound.alone
      flawless := fun other own drained lsn result flushed =>
        (mine other own drained lsn result flushed).2.2
      selected := fun other floor kept inSlot => ?_
      image := sound.image
      spelled := ⟨_, spells.framed.append (batch.map GroupCommit.Entry.record), ?_, ?_, ?_⟩ }
  · exact absurd inSlot (by rw [unslotted other]; exact nofun)
  · exact absurd inSlot (by rw [unslotted other]; exact nofun)
  · intro other own drained lsn result flushed
    obtain ⟨_, rfl, _⟩ := mine other own drained lsn result flushed
    rw [clog]
  · exact fun other floor kept swapped => absurd swapped (unswapped other floor kept)
  · intro noFlush _
    refine absurd ?_ (noFlush thread entry batch snapshotLsn (.ok ()))
    exact threads ▸ Function.update_self _ _ _

theorem publish
    {thread : Nat}
    {log : GroupCommit.State}
    {acknowledged : List Record}
    (sound : state.Sound)
    (stepped : state.log.step (.publish thread) = some log) :
    Sound { state with
      log := log
      rewrites := fun other => (state.rewrites other).notified
      acknowledged := acknowledged } := by
  cases GroupCommit.State.step_effect stepped with
  | @publish _ snapshotLsn entry batch result phase =>
      have leads : (state.log.threads thread).lead = some (batch, snapshotLsn) := by
        rw [phase]
        rfl
      obtain rfl := sound.flawless thread entry batch snapshotLsn result phase
      have unslotted : ∀ other, ((state.rewrites other).notified).slot = none := by
        intro other
        rw [Rewrite.slot_notified, sound.unslotted leads]
      have unflushed :
          ∀ other own drained lsn result,
            (state.log.publish thread entry batch snapshotLsn (.ok ())).threads other ≠
              .flushed own drained lsn result := by
        intro other own drained lsn result flushed
        have unled := (sound.queued.publish_threads phase other).1
        rw [flushed] at unled
        cases unled
      obtain ⟨written, spells⟩ := sound.spelled
      refine
        { queued := sound.queued.step stepped
          awaited := sound.awaited.step sound.queued stepped
          held := fun other slot inSlot => absurd inSlot (by rw [unslotted other]; exact nofun)
          alone := fun other _ slot _ inSlot =>
            absurd inSlot (by rw [unslotted other]; exact nofun)
          flawless := fun other own drained lsn result flushed =>
            absurd flushed (unflushed other own drained lsn result)
          selected := fun other floor kept inSlot =>
            absurd inSlot (by rw [unslotted other]; exact nofun)
          image := fun other floor kept wrote => ?_
          spelled := ⟨written, spells.framed, ?_, ?_, ?_⟩ }
      · cases (unslotted other).symm.trans (congrArg Rewrite.slot wrote)
      · exact fun other own drained lsn result flushed =>
          absurd flushed (unflushed other own drained lsn result)
      · intro other floor kept swapped
        cases (unslotted other).symm.trans (congrArg Rewrite.slot swapped)
      · exact fun _ _ => spells.leader thread entry batch snapshotLsn _ phase

/-- A thread outside the slot moves within `truncate_below`. -/
theorem rewriteMoved
    {thread : Nat}
    {rewrite : Rewrite}
    (sound : state.Sound)
    (before : (state.rewrites thread).slot = none)
    (after : rewrite.slot = none) :
    (state.setRewrite thread rewrite).Sound := by
  have same :
      ∀ other slot,
        ((state.setRewrite thread rewrite).rewrites other).slot = some slot →
          (state.setRewrite thread rewrite).rewrites other = state.rewrites other := by
    intro other slot inSlot
    by_cases here : other = thread
    · subst here
      rw [setRewrite_self, after] at inSlot
      cases inSlot
    · exact setRewrite_other here
  obtain ⟨written, spells⟩ := sound.spelled
  refine
    { queued := sound.queued
      awaited := sound.awaited
      held := fun other slot inSlot =>
        sound.held other slot (by rwa [same other slot inSlot] at inSlot)
      alone := fun first second firstSlot secondSlot firstIn secondIn =>
        sound.alone first second firstSlot secondSlot
          (by rwa [same first firstSlot firstIn] at firstIn)
          (by rwa [same second secondSlot secondIn] at secondIn)
      flawless := sound.flawless
      selected := fun other floor kept inSlot =>
        sound.selected other floor kept (by rwa [same other _ inSlot] at inSlot)
      image := fun other floor kept wrote => sound.image other floor kept ?_
      spelled := ⟨written, spells.framed, spells.leader, ?_, ?_⟩ }
  · rwa [same other (floor, kept) (by rw [wrote]; rfl)] at wrote
  · intro other floor kept swapped
    rw [same other (floor, kept) (by rw [swapped]; rfl)] at swapped
    exact spells.rewriter other floor kept swapped
  · intro noFlush noSwap
    refine spells.still noFlush fun other floor kept swapped => ?_
    have foreign : other ≠ thread := by
      rintro rfl
      rw [swapped] at before
      cases before
    exact noSwap other floor kept ((setRewrite_other foreign).trans swapped)

/-- The slot is left over a file that spells the published map. -/
theorem release
    {thread : Nat}
    {clog : Clog}
    (sound : state.Sound)
    (unled : ∀ leader, (state.log.threads leader).lead = none)
    (others : ∀ other, other ≠ thread → (state.rewrites other).slot = none)
    (framed : ClogStore.Framed { clog := clog, file := state.file }) :
    (state.release thread clog).Sound := by
  have leads :
      ∀ leader, ((state.release thread clog).log.threads leader).lead = none := by
    intro leader
    change ((state.log.threads leader).notified).lead = none
    rw [GroupCommit.Phase.lead_notified, unled]
  have unslotted : ∀ other, ((state.release thread clog).rewrites other).slot = none := by
    intro other
    change Rewrite.slot (Function.update (fun other => (state.rewrites other).notified) thread
      .returned other) = none
    by_cases here : other = thread
    · subst here
      rw [Function.update_self]
      rfl
    · rw [Function.update_of_ne here, Rewrite.slot_notified, others other here]
  have rephased := sound.queued.rephase
    (fun other => .inr ⟨leads other, unled other⟩)
    (fun other entry called => by rwa [← GroupCommit.Phase.call_notified])
  refine
    { queued :=
        { rephased with
          flushing := fun leader lead leading => by rw [leads leader] at leading; cases leading }
      awaited := ?_
      held := fun other slot inSlot => absurd inSlot (by rw [unslotted other]; exact nofun)
      alone := fun other _ slot _ inSlot => absurd inSlot (by rw [unslotted other]; exact nofun)
      flawless := fun other entry batch snapshotLsn result flushed => ?_
      selected := fun other floor kept inSlot =>
        absurd inSlot (by rw [unslotted other]; exact nofun)
      image := fun other floor kept wrote => ?_
      spelled := ⟨clog, framed, fun other entry batch snapshotLsn result flushed => ?_,
        fun other floor kept swapped => ?_, fun _ _ => rfl⟩ }
  · refine sound.awaited.rephase ?_ rfl fun other entry calling _ => ?_
    · rintro entry (member | ⟨leader, batch, snapshotLsn, leading, _⟩)
      · exact .inl member
      · rw [leads leader] at leading
        cases leading
    · change ((state.log.threads other).notified).call = some entry
      rwa [GroupCommit.Phase.call_notified]
  · have none := leads other
    rw [flushed] at none
    cases none
  · have none := unslotted other
    rw [wrote] at none
    cases none
  · have none := leads other
    rw [flushed] at none
    cases none
  · have none := unslotted other
    rw [swapped] at none
    cases none

/-- A free slot is taken for a rewrite. -/
theorem hold
    {thread : Nat}
    {floor : UInt64}
    {kept : List Record}
    (sound : state.Sound)
    (slot : state.log.flushing = false)
    (selected : Selected state.log.clog floor kept) :
    Sound { state.setRewrite thread (.holding floor kept) with
      log := { state.log with flushing := true } } := by
  have unslotted := sound.vacant slot
  have mine :
      ∀ other holder,
        (Function.update state.rewrites thread (.holding floor kept) other).slot = some holder →
          other = thread ∧ holder = (floor, kept) := by
    intro other holder inSlot
    by_cases here : other = thread
    · subst here
      rw [Function.update_self] at inSlot
      exact ⟨rfl, (Option.some.inj inSlot).symm⟩
    · rw [Function.update_of_ne here, unslotted other] at inSlot
      cases inSlot
  have phase :
      ∀ other,
        Function.update state.rewrites thread (.holding floor kept) other =
            .holding floor kept ∨
          (Function.update state.rewrites thread (.holding floor kept) other).slot = none := by
    intro other
    by_cases here : other = thread
    · subst here
      exact .inl (Function.update_self _ _ _)
    · rw [Function.update_of_ne here]
      exact .inr (unslotted other)
  obtain ⟨written, spells⟩ := sound.spelled
  refine
    { queued := { sound.queued with flushing := fun _ _ _ => rfl }
      awaited := { sound.awaited with }
      held := fun _ _ _ => ⟨rfl, sound.queued.unled slot⟩
      alone := fun first second firstSlot secondSlot firstIn secondIn =>
        (mine first firstSlot firstIn).1.trans (mine second secondSlot secondIn).1.symm
      flawless := sound.flawless
      selected := fun other otherFloor otherKept inSlot => ?_
      image := fun other otherFloor otherKept wrote => ?_
      spelled := ⟨written, spells.framed, spells.leader, ?_, fun noFlush _ => ?_⟩ }
  · obtain ⟨rfl, rfl⟩ := Prod.mk.inj (mine other _ inSlot).2
    exact selected
  · rcases phase other with same | none
    · cases same.symm.trans wrote
    · cases none.symm.trans (congrArg Rewrite.slot wrote)
  · intro other otherFloor otherKept swapped
    rcases phase other with same | none
    · cases same.symm.trans swapped
    · cases none.symm.trans (congrArg Rewrite.slot swapped)
  · refine spells.still noFlush fun other otherFloor otherKept swapped => ?_
    cases (unslotted other).symm.trans (congrArg Rewrite.slot swapped)

/-- The thread in the slot goes from one stage to the next. -/
theorem advance
    {thread : Nat}
    {before after : Rewrite}
    {floor : UInt64}
    {kept : List Record}
    {tmp : Option (List UInt8)}
    {file : List UInt8}
    {written : Clog}
    (sound : state.Sound)
    (phase : state.rewrites thread = before)
    (holds : before.slot = some (floor, kept))
    (same : after.slot = before.slot)
    (framed : ClogStore.Framed { clog := written, file := file })
    (image :
      ∀ floor kept,
        after = .written floor kept → tmp = some (writeHeader floor ++ encodeBatch kept))
    (swapped :
      ∀ floor kept,
        after = .swapped floor kept → written = state.log.clog.truncateBelow floor.toNat)
    (still :
      (∀ floor kept, after ≠ .swapped floor kept) → written = state.log.clog) :
    Sound { state.setRewrite thread after with file := file, tmp := tmp } := by
  have mine := sound.held thread (floor, kept) (by rw [phase, holds])
  have slots :
      ∀ other,
        (Function.update state.rewrites thread after other).slot =
          (state.rewrites other).slot := by
    intro other
    by_cases here : other = thread
    · subst here
      rw [Function.update_self, same, phase]
    · rw [Function.update_of_ne here]
  have elsewhere :
      ∀ other slot,
        (Function.update state.rewrites thread after other).slot = some slot →
          Function.update state.rewrites thread after other = after := by
    intro other slot inSlot
    rw [slots other] at inSlot
    obtain rfl := sound.alone other thread slot (floor, kept) inSlot (by rw [phase, holds])
    exact Function.update_self _ _ _
  have unflushed :
      ∀ other entry batch snapshotLsn result,
        state.log.threads other ≠ .flushed entry batch snapshotLsn result := by
    intro other entry batch snapshotLsn result flushed
    cases (mine.2 other).symm.trans (congrArg GroupCommit.Phase.lead flushed)
  refine
    { queued := sound.queued
      awaited := sound.awaited
      held := fun other slot inSlot => sound.held other slot ((slots other).symm.trans inSlot)
      alone := fun first second firstSlot secondSlot firstIn secondIn =>
        sound.alone first second firstSlot secondSlot ((slots first).symm.trans firstIn)
          ((slots second).symm.trans secondIn)
      flawless := sound.flawless
      selected := fun other otherFloor otherKept inSlot =>
        sound.selected other otherFloor otherKept ((slots other).symm.trans inSlot)
      image := fun other otherFloor otherKept wrote => ?_
      spelled := ⟨written, framed, fun other entry batch snapshotLsn result flushed => ?_,
        fun other otherFloor otherKept swap => ?_, fun _ noSwap => still fun floor kept swap => ?_⟩ }
  · exact image otherFloor otherKept
      ((elsewhere other _ (congrArg Rewrite.slot wrote)).symm.trans wrote)
  · exact absurd flushed (unflushed other entry batch snapshotLsn result)
  · exact swapped otherFloor otherKept
      ((elsewhere other _ (congrArg Rewrite.slot swap)).symm.trans swap)
  · exact noSwap thread floor kept ((Function.update_self _ _ _).trans swap)

theorem image_framed
    {thread : Nat}
    {floor : UInt64}
    {kept : List Record}
    (sound : state.Sound)
    (phase : state.rewrites thread = .written floor kept) :
    ClogStore.Framed {
      clog := state.log.clog.truncateBelow floor.toNat
      file := writeHeader floor ++ encodeBatch kept } := by
  have inSlot : (state.rewrites thread).slot = some (floor, kept) := congrArg Rewrite.slot phase
  obtain ⟨advances, iterates⟩ := sound.selected thread floor kept inSlot
  have nonzero : floor ≠ 0 := by
    rintro rfl
    exact Nat.not_lt_zero _ advances
  have published := sound.published_of_holder inSlot (by rw [phase]; exact nofun)
  have framed := published.truncateBelow iterates
  rw [ClogStore.truncateBelow, if_neg nonzero, if_neg (Nat.not_le.mpr advances)] at framed
  exact framed

theorem logStep
    {thread : Nat}
    {record : Record}
    {logAction : GroupCommit.Action}
    (sound : state.Sound)
    (quiet : logAction = .append thread record ∨ logAction = .check thread ∨
      logAction = .wake thread)
    (stepped : state.log.step logAction = some next.log)
    (file : next.file = state.file)
    (tmp : next.tmp = state.tmp)
    (rewrites : next.rewrites = state.rewrites) :
    next.Sound := by
  have queued := sound.queued.step stepped
  have awaited := sound.awaited.step sound.queued stepped
  generalize after : next.log = log at stepped
  cases GroupCommit.State.step_effect stepped with
  | append unleading =>
      exact sound.threadMoved queued awaited (by rw [after]; rfl) (by rw [after]; rfl)
        (by rw [after]; rfl) unleading rfl file tmp rewrites
  | covered phase durable =>
      exact sound.threadMoved queued awaited (by rw [after]; rfl) (by rw [after]; rfl)
        (by rw [after]; rfl) (by rw [phase]; rfl) rfl file tmp rewrites
  | park phase =>
      exact sound.threadMoved queued awaited (by rw [after]; rfl) (by rw [after]; rfl)
        (by rw [after]; rfl) (by rw [phase]; rfl) rfl file tmp rewrites
  | wake phase =>
      exact sound.threadMoved queued awaited (by rw [after]; rfl) (by rw [after]; rfl)
        (by rw [after]; rfl) (by rw [phase]; rfl) rfl file tmp rewrites
  | @drain mover entry phase slot =>
      refine sound.logMoved queued awaited (by rw [after]; rfl) (fun taken => ?_)
        (fun other own batch snapshotLsn result => ?_) file tmp rewrites
      · rw [slot] at taken
        cases taken
      · rw [after, GroupCommit.State.threads_drain]
        by_cases here : other = mover
        · subst here
          rw [Function.update_self, phase]
          exact iff_of_false nofun nofun
        · rw [Function.update_of_ne here]
  | skip _ => rcases quiet with same | same | same <;> cases same
  | write _ => rcases quiet with same | same | same <;> cases same
  | publish _ => rcases quiet with same | same | same <;> cases same

theorem step
    {action : Action}
    (sound : state.Sound)
    (iterates : state.Iterates action)
    (stepped : state.step action = some next) :
    next.Sound := by
  cases step_effect stepped with
  | append logStepped => exact sound.logStep (.inl rfl) logStepped rfl rfl rfl
  | check logStepped =>
      exact @logStep _ _ _ ⟨0, .committed⟩ _ sound (.inr (.inl rfl)) logStepped rfl rfl rfl
  | wake logStepped =>
      exact @logStep _ _ _ ⟨0, .committed⟩ _ sound (.inr (.inr rfl)) logStepped rfl rfl rfl
  | write phase logStepped => exact sound.write phase logStepped
  | publish logStepped => exact sound.publish logStepped
  | outside before after => exact sound.rewriteMoved before after
  | stays free =>
      have unslotted := sound.vacant free
      have unled := sound.queued.unled free
      refine sound.release unled (fun other _ => unslotted other) ?_
      refine sound.published unled fun other otherFloor otherKept swapped => ?_
      cases (unslotted other).symm.trans (congrArg Rewrite.slot swapped)
  | hold phase free advances => exact sound.hold free ⟨advances, iterates _ phase⟩
  | writeImage phase =>
      have framed := sound.published_of_holder (congrArg Rewrite.slot phase)
        (by rw [phase]; exact nofun)
      refine sound.advance phase rfl rfl framed ?_ nofun fun _ => rfl
      rintro otherFloor otherKept same
      obtain ⟨rfl, rfl⟩ := Rewrite.written.inj same
      rfl
  | @swap thread floor kept image phase stored =>
      obtain rfl : writeHeader floor ++ encodeBatch kept = image :=
        Option.some.inj ((sound.image thread floor kept phase).symm.trans stored)
      refine sound.advance phase rfl rfl (sound.image_framed phase) nofun ?_ fun moved => ?_
      · rintro otherFloor otherKept same
        obtain ⟨rfl, rfl⟩ := Rewrite.swapped.inj same
        rfl
      · exact absurd rfl (moved floor kept)
  | @publishRewrite thread floor kept phase =>
      have inSlot : (state.rewrites thread).slot = some (floor, kept) :=
        congrArg Rewrite.slot phase
      obtain ⟨written, spells⟩ := sound.spelled
      obtain rfl := spells.rewriter thread floor kept phase
      refine sound.release (sound.held thread _ inSlot).2 (fun other foreign => ?_) spells.framed
      cases holder : (state.rewrites other).slot with
      | none => rfl
      | some slot => exact absurd (sound.alone other thread slot _ holder inSlot) foreign

end Sound

/-- From the floor on the map has an outcome for the id of the record. -/
def Recorded (clog : Clog) (record : Record) : Prop :=
  clog.minTxId ≤ record.txId.toNat → clog.map record.txId.toNat ≠ none

theorem insertAll_map_present
    {clog : Clog}
    {batch : List Record}
    {txId : Nat}
    (present : clog.map txId ≠ none ∨ ∃ record ∈ batch, record.txId.toNat = txId) :
    (clog.insertAll batch).map txId ≠ none := by
  induction batch generalizing clog with
  | nil =>
      rcases present with before | ⟨_, member, _⟩
      · exact before
      · cases member
  | cons record rest inductionHypothesis =>
      apply inductionHypothesis
      by_cases here : txId = record.txId.toNat
      · subst here
        left
        change Function.update clog.map _ _ _ ≠ none
        rw [Function.update_self]
        exact Option.some_ne_none _
      · rcases present with before | ⟨other, member, named⟩
        · left
          change Function.update clog.map _ _ _ ≠ none
          rwa [Function.update_of_ne here]
        · rcases List.mem_cons.mp member with rfl | later
          · exact absurd named.symm here
          · exact .inr ⟨other, later, named⟩

namespace Recorded

variable {clog : Clog} {record : Record}

theorem insertAll
    (recorded : Recorded clog record)
    (batch : List Record) :
    Recorded (clog.insertAll batch) record := by
  intro above
  rw [Clog.insertAll_minTxId] at above
  exact insertAll_map_present (.inl (recorded above))

theorem of_batch
    {batch : List Record}
    (member : record ∈ batch) :
    Recorded (clog.insertAll batch) record :=
  fun _ => insertAll_map_present (.inr ⟨record, member, rfl⟩)

theorem truncateBelow
    (recorded : Recorded clog record)
    (floor : Nat) :
    Recorded (clog.truncateBelow floor) record := by
  unfold Clog.truncateBelow
  split_ifs with zero stale
  · exact recorded
  · exact recorded
  · intro above
    change floor ≤ record.txId.toNat at above
    change (if floor ≤ record.txId.toNat then clog.map record.txId.toNat else none) ≠ none
    rw [if_pos above]
    exact recorded (by omega)

end Recorded

/-- Nothing that was appended is lost on its way into the map. -/
structure Kept (state : State) : Prop where
  known :
    ∀ txId status,
      state.log.clog.map txId = some status →
        ∃ record ∈ state.appended, record.txId.toNat = txId ∧ record.status = status
  outstanding : ∀ entry, state.log.Outstanding entry → entry.record ∈ state.appended
  placed :
    ∀ thread entry,
      (state.log.threads thread).call = some entry →
        state.log.Outstanding entry ∨ Recorded state.log.clog entry.record
  acknowledged : ∀ record ∈ state.acknowledged, Recorded state.log.clog record

namespace Kept

variable {state next : State}

theorem opened
    (floor : UInt64)
    (records : List Record) :
    (State.opened floor records).Kept where
  known := by
    intro txId status found
    rcases GroupCommit.State.insertAll_map_cases found with absent | found
    · cases absent
    · exact found
  outstanding := by
    rintro entry (member | ⟨leader, batch, snapshotLsn, leads, _⟩)
    · cases member
    · cases leads
  placed := nofun
  acknowledged := fun _ member => Recorded.of_batch member

theorem logMoved
    (kept : state.Kept)
    (clog : next.log.clog = state.log.clog)
    (outstanding :
      ∀ entry,
        next.log.Outstanding entry →
          state.log.Outstanding entry ∨ entry.record ∈ next.appended)
    (calls :
      ∀ thread entry,
        (next.log.threads thread).call = some entry →
          next.log.Outstanding entry ∨
            ((state.log.threads thread).call = some entry ∧ ¬state.log.Outstanding entry))
    (appended : ∀ record ∈ state.appended, record ∈ next.appended)
    (acknowledged :
      ∀ record ∈ next.acknowledged,
        record ∈ state.acknowledged ∨ Recorded state.log.clog record) :
    next.Kept where
  known := by
    intro txId status found
    rw [clog] at found
    obtain ⟨record, member, outcome⟩ := kept.known txId status found
    exact ⟨record, appended record member, outcome⟩
  outstanding := by
    intro entry still
    rcases outstanding entry still with before | new
    · exact appended _ (kept.outstanding entry before)
    · exact new
  placed := by
    intro thread entry called
    rw [clog]
    rcases calls thread entry called with still | ⟨before, gone⟩
    · exact .inl still
    · exact (kept.placed thread entry before).imp (absurd · gone) id
  acknowledged := by
    intro record member
    rw [clog]
    rcases acknowledged record member with before | recorded
    · exact kept.acknowledged record before
    · exact recorded

/-- A truncation changes the map below its floor only. -/
theorem release
    (kept : state.Kept)
    (thread : Nat)
    {clog : Clog}
    (fewer :
      ∀ txId status,
        clog.map txId = some status → state.log.clog.map txId = some status)
    (recorded :
      ∀ record, Recorded state.log.clog record → Recorded clog record) :
    (state.release thread clog).Kept := by
  have outstanding :
      ∀ entry,
        (state.release thread clog).log.Outstanding entry ↔ state.log.Outstanding entry := by
    intro entry
    have leads :
        ∀ leader,
          ((state.release thread clog).log.threads leader).lead =
            (state.log.threads leader).lead :=
      fun leader => GroupCommit.Phase.lead_notified _
    unfold GroupCommit.State.Outstanding
    simp only [leads]
    rfl
  refine
    { known := fun txId status found => kept.known txId status (fewer txId status found)
      outstanding := fun entry still => kept.outstanding entry ((outstanding entry).mp still)
      placed := fun other entry called => ?_
      acknowledged := fun record member => recorded record (kept.acknowledged record member) }
  have before : (state.log.threads other).call = some entry := by
    change ((state.log.threads other).notified).call = some entry at called
    rwa [GroupCommit.Phase.call_notified] at called
  exact (kept.placed other entry before).imp (outstanding entry).mpr (recorded entry.record)

theorem append
    {thread : Nat}
    {record : Record}
    (kept : state.Kept)
    (unleading : (state.log.threads thread).lead = none) :
    Kept { state with
      log := state.log.enqueue thread record
      appended := record :: state.appended } := by
  have outstanding :=
    @GroupCommit.State.outstanding_enqueue state.log thread record unleading
  refine kept.logMoved rfl (fun entry still => ?_) (fun other entry called => ?_)
    (fun _ member => List.mem_cons_of_mem _ member) fun _ member => .inl member
  · rcases (outstanding entry).mp still with before | rfl
    · exact .inl before
    · exact .inr List.mem_cons_self
  · change ((state.log.enqueue thread record).threads other).call = some entry at called
    rw [GroupCommit.State.threads_enqueue] at called
    by_cases here : other = thread
    · subst here
      rw [Function.update_self] at called
      obtain rfl := Option.some.inj called
      exact .inl ((outstanding _).mpr (.inr rfl))
    · rw [Function.update_of_ne here] at called
      by_cases before : state.log.Outstanding entry
      · exact .inl ((outstanding entry).mpr (.inl before))
      · exact .inr ⟨called, before⟩

theorem logStep
    {log : GroupCommit.State}
    (kept : state.Kept)
    (after : next.log = log)
    (clog : log.clog = state.log.clog)
    (outstanding : ∀ entry, log.Outstanding entry ↔ state.log.Outstanding entry)
    (calls :
      ∀ thread entry,
        (log.threads thread).call = some entry →
          (state.log.threads thread).call = some entry)
    (appended : next.appended = state.appended)
    (acknowledged :
      ∀ record ∈ next.acknowledged,
        record ∈ state.acknowledged ∨ Recorded state.log.clog record) :
    next.Kept := by
  subst after
  refine kept.logMoved clog (fun entry still => .inl ((outstanding entry).mp still))
    (fun thread entry called => ?_) (fun record member => by rwa [appended]) acknowledged
  by_cases still : next.log.Outstanding entry
  · exact .inl still
  · exact .inr ⟨calls thread entry called, fun before => still ((outstanding entry).mpr before)⟩

theorem threadMoved
    {thread : Nat}
    {phase : GroupCommit.Phase}
    (kept : state.Kept)
    (after : next.log = state.log.setThread thread phase)
    (leads : phase.lead = (state.log.threads thread).lead)
    (call :
      ∀ entry, phase.call = some entry → (state.log.threads thread).call = some entry)
    (appended : next.appended = state.appended)
    (acknowledged :
      ∀ record ∈ next.acknowledged,
        record ∈ state.acknowledged ∨ Recorded state.log.clog record) :
    next.Kept := by
  refine kept.logStep after rfl (GroupCommit.State.outstanding_congr rfl fun leader => ?_)
    (fun other entry called => ?_) appended acknowledged
  · by_cases here : leader = thread
    · subst here
      rw [GroupCommit.State.setThread_self, leads]
    · rw [GroupCommit.State.setThread_other here]
  · by_cases here : other = thread
    · subst here
      rw [GroupCommit.State.setThread_self] at called
      exact call entry called
    · rwa [GroupCommit.State.setThread_other here] at called

theorem recorded_of_covered
    {thread : Nat}
    {entry : GroupCommit.Entry}
    (kept : state.Kept)
    (sound : state.Sound)
    (called : (state.log.threads thread).call = some entry)
    (durable : entry.lsn ≤ state.log.durableLsn) :
    Recorded state.log.clog entry.record := by
  rcases kept.placed thread entry called with outstanding | recorded
  · exact absurd durable (Nat.not_le.mpr (sound.awaited.ahead entry outstanding))
  · exact recorded

theorem check
    {thread : Nat}
    {log : GroupCommit.State}
    (kept : state.Kept)
    (sound : state.Sound)
    (stepped : state.log.step (.check thread) = some log) :
    (state.moved thread log).Kept := by
  cases GroupCommit.State.step_effect stepped with
  | @covered _ entry phase durable =>
      refine kept.threadMoved rfl (by rw [phase]; rfl) nofun rfl fun record member => ?_
      have recorded := kept.recorded_of_covered sound (by rw [phase]; rfl) durable
      simp only [moved, GroupCommit.State.setThread_self] at member
      rcases List.mem_cons.mp member with rfl | earlier
      · exact .inr recorded
      · exact .inl earlier
  | park phase =>
      refine kept.threadMoved rfl (by rw [phase]; rfl) (fun entry called => ?_) rfl
        fun record member => ?_
      · rw [phase]
        exact called
      · simp only [moved, GroupCommit.State.setThread_self] at member
        exact .inl member
  | @drain _ entry phase slot =>
      have threads := state.log.threads_drain thread entry
      refine kept.logStep rfl rfl
        (GroupCommit.State.outstanding_drain sound.queued slot) (fun other own called => ?_) rfl
        fun record member => ?_
      · change ((state.log.drain thread entry).threads other).call = some own at called
        rw [threads] at called
        by_cases here : other = thread
        · subst here
          rw [Function.update_self] at called
          rw [phase]
          exact called
        · rwa [Function.update_of_ne here] at called
      · simp only [moved, threads, Function.update_self] at member
        exact .inl member

theorem publish
    {thread : Nat}
    {log : GroupCommit.State}
    {rewrites : Nat → Rewrite}
    (kept : state.Kept)
    (sound : state.Sound)
    (stepped : state.log.step (.publish thread) = some log) :
    Kept { state.moved thread log with rewrites := rewrites } := by
  cases GroupCommit.State.step_effect stepped with
  | @publish _ snapshotLsn own batch result phase =>
      obtain rfl := sound.flawless thread own batch snapshotLsn result phase
      have leads : (state.log.threads thread).lead = some (batch, snapshotLsn) := by
        rw [phase]
        rfl
      have drained : ∀ entry ∈ batch, state.log.Outstanding entry :=
        fun entry member => .inr ⟨thread, batch, snapshotLsn, leads, member⟩
      have threads := sound.queued.publish_threads phase
      have placed :
          ∀ other entry,
            (state.log.threads other).call = some entry →
              entry ∈ state.log.pending ∨
                Recorded (state.log.clog.insertAll (batch.map GroupCommit.Entry.record))
                  entry.record := by
        intro other entry called
        rcases kept.placed other entry called with
          (queued | ⟨leader, led, lsn, leading, member⟩) | recorded
        · exact .inl queued
        · obtain rfl := sound.queued.exclusive leader thread _ _ leading leads
          obtain ⟨rfl, _⟩ := Prod.mk.inj (Option.some.inj (leading.symm.trans leads))
          exact .inr (Recorded.of_batch (List.mem_map_of_mem member))
        · exact .inr (recorded.insertAll _)
      refine
        { known := fun txId status found => ?_
          outstanding := ?_
          placed := fun other entry called => ?_
          acknowledged := fun record member => ?_ }
      · rcases GroupCommit.State.insertAll_map_cases found with before | ⟨record, member, outcome⟩
        · exact kept.known txId status before
        · obtain ⟨entry, inBatch, rfl⟩ := List.mem_map.mp member
          exact ⟨entry.record, kept.outstanding entry (drained entry inBatch), outcome⟩
      · rintro entry (member | ⟨leader, led, lsn, leading, _⟩)
        · exact kept.outstanding entry (.inl member)
        · cases (threads leader).1.symm.trans leading
      · rcases placed other entry ((threads other).2 entry called) with queued | recorded
        · exact .inl (.inl queued)
        · exact .inr recorded
      · have returned :
            (state.log.publish thread own batch snapshotLsn (.ok ())).threads thread =
              .returned own (.ok ()) := by
          rw [GroupCommit.State.threads_publish, Function.update_self]
        simp only [moved, returned] at member
        rcases List.mem_cons.mp member with rfl | earlier
        · have called : (state.log.threads thread).call = some own := by
            rw [phase]
            rfl
          rcases placed thread own called with queued | recorded
          · have covered := sound.queued.own thread own batch snapshotLsn called leads
            have behind := (sound.queued.watermark thread batch snapshotLsn leads).2.2.2 own queued
            exact absurd covered (Nat.not_le.mpr behind)
          · exact recorded
        · exact (kept.acknowledged record earlier).insertAll _

/-- The writing leader neither calls nor drains anew. -/
theorem write
    {thread : Nat}
    {log : GroupCommit.State}
    {file : List UInt8}
    (kept : state.Kept)
    (stepped : state.log.step (.write thread (.ok ())) = some log) :
    Kept { state with log := log, file := file } := by
  cases GroupCommit.State.step_effect stepped with
  | skip phase =>
      refine kept.threadMoved rfl (by rw [phase]; rfl) (fun entry called => ?_) rfl
        fun _ member => .inl member
      rw [phase]
      exact called
  | write phase =>
      refine kept.logStep rfl rfl
        (GroupCommit.State.outstanding_congr rfl fun leader => ?_)
        (fun other entry called => ?_) rfl fun _ member => .inl member
      · change ((state.log.setThread thread _).threads leader).lead = _
        by_cases here : leader = thread
        · subst here
          rw [GroupCommit.State.setThread_self, phase]
          rfl
        · rw [GroupCommit.State.setThread_other here]
      · change ((state.log.setThread thread _).threads other).call = _ at called
        by_cases here : other = thread
        · subst here
          rw [GroupCommit.State.setThread_self] at called
          rw [phase]
          exact called
        · rwa [GroupCommit.State.setThread_other here] at called

theorem step
    {action : Action}
    (kept : state.Kept)
    (sound : state.Sound)
    (stepped : state.step action = some next) :
    next.Kept := by
  have still
      {later : State}
      (log : later.log.clog = state.log.clog)
      (pending : later.log.pending = state.log.pending)
      (threads : later.log.threads = state.log.threads)
      (appended : later.appended = state.appended)
      (acknowledged : later.acknowledged = state.acknowledged) : later.Kept := by
    refine kept.logStep rfl log (GroupCommit.State.outstanding_congr pending fun leader => ?_)
      (fun thread entry called => ?_) appended fun record member => ?_
    · rw [threads]
    · rwa [threads] at called
    · exact .inl (acknowledged ▸ member)
  cases step_effect stepped with
  | append logStepped =>
      cases GroupCommit.State.step_effect logStepped with
      | append unleading => exact kept.append unleading
  | check logStepped => exact kept.check sound logStepped
  | wake logStepped =>
      cases GroupCommit.State.step_effect logStepped with
      | wake phase =>
          refine kept.threadMoved rfl (by rw [phase]; rfl) (fun entry called => ?_) rfl
            fun _ member => .inl member
          rw [phase]
          exact called
  | write _ logStepped => exact kept.write logStepped
  | publish logStepped => exact kept.publish sound logStepped
  | outside => exact still rfl rfl rfl rfl rfl
  | stays => exact kept.release _ (fun _ _ found => found) fun _ recorded => recorded
  | hold => exact still rfl rfl rfl rfl rfl
  | writeImage => exact still rfl rfl rfl rfl rfl
  | swap => exact still rfl rfl rfl rfl rfl
  | @publishRewrite thread floor =>
      refine kept.release thread (fun txId status found => ?_)
        fun record recorded => recorded.truncateBelow floor.toNat
      unfold Clog.truncateBelow at found
      split_ifs at found with zero stale
      · exact found
      · exact found
      · dsimp only at found
        split_ifs at found
        exact found

end Kept

theorem Quiet.unled
    {state : State}
    (quiet : state.Quiet)
    (leader : Nat) :
    (state.log.threads leader).lead = none := by
  have returned := quiet.1 leader
  cases phase : state.log.threads leader with
  | leading entry batch snapshotLsn =>
      rw [phase] at returned
      cases returned
  | flushed entry batch snapshotLsn result =>
      rw [phase] at returned
      cases returned
  | _ => rfl

end State

open State

/--
Once every append and every truncation has returned, the file opens to the log in
memory, and from the floor on no acknowledged outcome is missing: its id answers
it, or another outcome that some call has appended for the same id.
-/
theorem truncation_agrees_with_file
    {floor : UInt64}
    {records : List Record}
    {actions : List Action}
    {state : State}
    (run : Run step Iterates (.opened floor records) actions state)
    (quiet : state.Quiet) :
    (∃ store,
        ClogStore.openFile state.file = .ok store ∧
          ∀ txId, store.clog.status txId = state.log.clog.status txId) ∧
      ∀ record ∈ state.acknowledged,
        state.log.clog.minTxId ≤ record.txId.toNat →
          state.log.clog.status record.txId.toNat = some record.status ∨
            ∃ peer ∈ state.appended,
              peer.txId = record.txId ∧ peer.status ≠ record.status ∧
                state.log.clog.status record.txId.toNat = some peer.status := by
  obtain ⟨sound, kept⟩ : state.Sound ∧ state.Kept := by
    refine run.invariant (fun state => state.Sound ∧ state.Kept) ?_
      ⟨.opened floor records, .opened floor records⟩
    rintro state next action ⟨sound, kept⟩ iterates stepped
    exact ⟨sound.step iterates stepped, kept.step sound stepped⟩
  have framed := sound.published quiet.unled fun thread otherFloor order swapped => by
    rcases quiet.2 thread with idle | returned
    · cases idle.symm.trans swapped
    · cases returned.symm.trans swapped
  refine ⟨⟨_, framed.openFile, fun _ => rfl⟩, fun record member above => ?_⟩
  obtain ⟨status, found⟩ :=
    Option.ne_none_iff_exists'.mp (kept.acknowledged record member above)
  obtain ⟨peer, appended, named, rfl⟩ := kept.known _ status found
  have answer : state.log.clog.status record.txId.toNat = some peer.status := by
    rw [Clog.status, if_neg (Nat.not_lt.mpr above), found]
  by_cases same : peer.status = record.status
  · exact .inl (same ▸ answer)
  · exact .inr ⟨peer, appended, UInt64.toNat.inj named, same, answer⟩

/-- A record in the map when the truncation takes the slot. -/
def recordedBeforeRewrite : List Action :=
  [.append 0 ⟨5, .committed⟩, .check 0, .write 0, .publish 0, .truncateBelow 1 3]

/-- A rollback is queued while the truncation holds the slot. -/
def queuedBehindRewrite : List Action :=
  [.append 0 ⟨7, .rolledBack⟩, .check 0, .writeImage 1, .swap 1, .publishRewrite 1, .check 0,
    .write 0, .publish 0]

/-- An outcome that waits behind a rewrite reaches the new file. -/
theorem queued_behind_rewrite_agrees :
    ∃ actions state,
      Run step Iterates (.opened 0 []) actions state ∧
        (∃ store,
          ClogStore.openFile state.file = .ok store ∧
            ∀ txId, store.clog.status txId = state.log.clog.status txId) ∧
        state.log.clog.status 7 = some .rolledBack := by
  have start : Run step Iterates (State.opened 0 []) recordedBeforeRewrite _ :=
    (((((Run.nil (State.opened 0 [])).snoc trivial rfl).snoc trivial rfl).snoc trivial rfl).snoc
      trivial rfl).snoc trivial rfl
  obtain ⟨first, start, phase, map, second, entered, final, rest, quiet, answer⟩ :
      ∃ first,
        Run step Iterates (State.opened 0 []) recordedBeforeRewrite first ∧
          first.rewrites 1 = .entering 3 ∧
          first.log.clog.map = Function.update (fun _ => none) 5 (some .committed) ∧
          ∃ second,
            first.step (.enter 1 [⟨5, .committed⟩]) = some second ∧
              ∃ final,
                Run step Iterates second queuedBehindRewrite final ∧ final.Quiet ∧
                  final.log.clog.status 7 = some .rolledBack := by
    refine ⟨_, start, rfl, rfl, _, rfl, _, ((((((((Run.nil _).snoc trivial rfl).snoc
      trivial rfl).snoc trivial rfl).snoc trivial rfl).snoc trivial rfl).snoc trivial rfl).snoc
      trivial rfl).snoc trivial rfl, ⟨fun thread => ?_, fun thread => ?_⟩, rfl⟩
    · match thread with
      | 0 => rfl
      | _ + 1 => rfl
    · match thread with
      | 0 => exact .inl rfl
      | 1 => exact .inr rfl
      | _ + 2 => exact .inl rfl
  have iterates : State.Iterates first (.enter 1 [⟨5, .committed⟩]) := by
    intro floor entering
    obtain rfl := Rewrite.entering.inj (phase.symm.trans entering)
    refine ⟨List.nodup_singleton _, fun record => ?_⟩
    rw [List.mem_singleton, map]
    constructor
    · rintro rfl
      exact ⟨by decide, rfl⟩
    · rintro ⟨_, found⟩
      by_cases here : record.txId.toNat = 5
      · rw [here, Function.update_self] at found
        obtain ⟨txId, status⟩ := record
        obtain rfl := Option.some.inj found
        obtain rfl : txId = 5 := UInt64.toNat.inj here
        rfl
      · rw [Function.update_of_ne here] at found
        cases found
  have run := (start.snoc iterates entered).append rest
  exact ⟨_, final, run, (truncation_agrees_with_file run quiet).1, answer⟩

end PrehniteDB.ClogRewriting
