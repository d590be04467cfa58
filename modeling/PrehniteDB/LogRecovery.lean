import PrehniteDB.Pager
import PrehniteDB.TransitionRun

namespace PrehniteDB.LogRecovery

open TransitionRun

/-!
# Recovery with several logs

Each pager commits through its own log.  The apply lock covers a commit from its
flush to the header write; the log is emptied after the lock is released.  A
commit counts from its marker on.  A crash leaves the file and every log, and
recovery replays the logs in directory order.
-/

/-- Where a pager stands in `commit`. -/
inductive Phase where
  /-- No commit; an open transaction may have spilled pages to the log. -/
  | idle
  /-- The apply lock is held and no marker is written. -/
  | flushing
  /-- The log is sealed and these page writes have not reached the file. -/
  | applying (rest : List (UInt32 × Page))
  /-- The header is written, the lock released, the log not emptied. -/
  | applied

/-- The log carries a commit marker. -/
def Phase.Sealed : Phase → Prop
  | .applying _ | .applied => True
  | _ => False

structure State where
  file : DbFile
  wals : Nat → Wal
  phases : Nat → Phase
  applyLock : Option Nat
  /-- The image of the latest commit of every page. -/
  latest : UInt32 → Page

inductive Action where
  /-- A spill before the commit, or the flush of a dirty page in it. -/
  | appendPage (who : Nat) (no : UInt32) (image : Page)
  /-- `rollback`. -/
  | discard (who : Nat)
  | lock (who : Nat)
  /-- The flush meets a dirty page that is neither cached nor spilled. -/
  | fail (who : Nat)
  | sealLog (who : Nat)
  /-- `apply` writes its next page. -/
  | applyPage (who : Nat)
  /-- The end of `commit_apply`: the header is written and the lock released. -/
  | writeHeader (who : Nat) (metadata : Meta)
  /-- The log is emptied and `commit` returns. -/
  | reset (who : Nat)

/-- A file just opened. -/
def initial (file : DbFile) : State where
  file := file
  wals := fun _ => .fresh
  phases := fun _ => .idle
  applyLock := none
  latest := file.pages

namespace State

def setWal (state : State) (who : Nat) (wal : Wal) : State :=
  { state with wals := Function.update state.wals who wal }

def setPhase (state : State) (who : Nat) (phase : Phase) : State :=
  { state with phases := Function.update state.phases who phase }

/-- One step, `none` when the pager is not there. -/
def step (state : State) : Action → Option State
  | .appendPage who no image =>
      match state.phases who with
      | .idle | .flushing =>
          some (state.setWal who ((state.wals who).appendPage no image).2)
      | _ => none
  | .discard who =>
      match state.phases who with
      | .idle => some (state.setWal who (state.wals who).discard)
      | _ => none
  | .lock who =>
      match state.phases who, state.applyLock with
      | .idle, none => some { state.setPhase who .flushing with applyLock := some who }
      | _, _ => none
  | .fail who =>
      match state.phases who with
      | .flushing => some { state.setPhase who .idle with applyLock := none }
      | _ => none
  | .sealLog who =>
      match state.phases who with
      | .flushing =>
          let log := (state.wals who).seal
          some { (state.setWal who log).setPhase who (.applying (pageWrites log.file)) with
            latest := WriteLog.replay (pageWrites log.file) state.latest }
      | _ => none
  | .applyPage who =>
      match state.phases who with
      | .applying ((no, image) :: rest) =>
          some { state.setPhase who (.applying rest) with
            file := state.file.writePage no image }
      | _ => none
  | .writeHeader who metadata =>
      match state.phases who with
      | .applying [] =>
          some { state.setPhase who .applied with
            file := state.file.writePage 0 (encodeHeader metadata)
            applyLock := none
            latest := Function.update state.latest 0 (encodeHeader metadata) }
      | _ => none
  | .reset who =>
      match state.phases who with
      | .applied =>
          some ((state.setWal who (state.wals who).reset).setPhase who .idle)
      | _ => none

/-- The file recovery leaves when it meets the logs of `order` one after another. -/
def recovered (state : State) (order : List Nat) : DbFile :=
  recoverLogs (order.map fun who => (state.wals who).file) state.file

/-- After a crash here recovery yields the latest commit of every page, in any directory order. -/
def Recovers (state : State) : Prop :=
  ∀ order : List Nat,
    order.Nodup →
      (∀ who, (state.wals who).file ≠ [] → who ∈ order) →
        ∀ no, (state.recovered order).pages no = state.latest no

/-- The image a step makes the latest of page `no`. -/
def published (state : State) (no : UInt32) : Action → Option Page
  | .sealLog who => WriteLog.lastWrite no (pageWrites (state.wals who).seal.file)
  | .writeHeader _ metadata => if no = 0 then some (encodeHeader metadata) else none
  | _ => none

/-- No sealed log that is not emptied yet holds another image of a page the step publishes. -/
def Separate (state : State) (action : Action) : Prop :=
  ∀ who no image old,
    (state.phases who).Sealed →
      WriteLog.lastWrite no (pageWrites (state.wals who).file) = some old →
        state.published no action = some image →
          old = image

end State

/-! ## Replaying the leftover logs -/

section Replay

variable {logs : List (List WalRecord)} {file : DbFile} {no : UInt32} {image : Page}

theorem recoverLogs_append
    (earlier later : List (List WalRecord))
    (file : DbFile) :
    recoverLogs (earlier ++ later) file = recoverLogs later (recoverLogs earlier file) := by
  induction earlier generalizing file with
  | nil => rfl
  | cons log rest inductionHypothesis => exact inductionHypothesis _

theorem recover_page
    (log : List WalRecord)
    (file : DbFile)
    (no : UInt32) :
    (recoverLogs [log] file).pages no =
      if scan 0 log then (WriteLog.lastWrite no (pageWrites log)).getD (file.pages no)
      else file.pages no := by
  simp only [recoverLogs, Wal.recover]
  split
  · simp only [Wal.apply, DbFile.writeAll_pages, WriteLog.replay_apply]
  · rfl

theorem recoverLogs_agree
    (agree :
      ∀ log ∈ logs,
        scan 0 log = true →
          ∀ other, WriteLog.lastWrite no (pageWrites log) = some other → other = image)
    (found :
      file.pages no = image ∨
        ∃ log ∈ logs, scan 0 log = true ∧ WriteLog.lastWrite no (pageWrites log) ≠ none) :
    (recoverLogs logs file).pages no = image := by
  induction logs generalizing file with
  | nil => exact found.resolve_right nofun
  | cons log rest inductionHypothesis =>
      rw [← List.singleton_append, recoverLogs_append]
      apply inductionHypothesis
      · exact fun other member => agree other (List.mem_cons_of_mem _ member)
      · rw [recover_page]
        cases complete : scan 0 log with
        | false =>
            rcases found with base | ⟨other, member, otherComplete, writes⟩
            · exact .inl base
            · rcases List.mem_cons.mp member with rfl | later
              · rw [complete] at otherComplete
                cases otherComplete
              · exact .inr ⟨other, later, otherComplete, writes⟩
        | true =>
            rw [if_pos rfl]
            cases last : WriteLog.lastWrite no (pageWrites log) with
            | some old => exact .inl (agree log List.mem_cons_self complete old last)
            | none =>
                rcases found with base | ⟨other, member, otherComplete, writes⟩
                · exact .inl base
                · rcases List.mem_cons.mp member with rfl | later
                  · exact absurd last writes
                  · exact .inr ⟨other, later, otherComplete, writes⟩

theorem recoverLogs_last
    {log : List WalRecord}
    (complete : scan 0 log = true)
    (last : WriteLog.lastWrite no (pageWrites log) = some image) :
    (recoverLogs (logs ++ [log]) file).pages no = image := by
  rw [recoverLogs_append, recover_page, complete, if_pos rfl, last]
  rfl

end Replay

/-! ## What every interleaving keeps -/

/-- The pager is inside `commit_apply`. -/
def Phase.Holds : Phase → Prop
  | .flushing | .applying _ => True
  | _ => False

/-- The log of a pager in this phase. -/
def Phase.Fits (wal : Wal) : Phase → Prop
  | .idle | .flushing => wal.Unsealed
  | .applying rest =>
      scan 0 wal.file = true ∧ ∃ done, pageWrites wal.file = done ++ rest
  | .applied => scan 0 wal.file = true

namespace State

/-- The page writes of the commit in progress that have not reached the file. -/
def unapplied (state : State) : List (UInt32 × Page) :=
  match state.applyLock with
  | none => []
  | some who =>
      match state.phases who with
      | .applying rest => rest
      | _ => []

/-- One commit at a time is applied, and the file is behind by what it has left to apply. -/
structure Ordered (state : State) : Prop where
  holder : ∀ who, (state.phases who).Holds → state.applyLock = some who
  fits : ∀ who, (state.phases who).Fits (state.wals who)
  latest : state.latest = WriteLog.replay state.unapplied state.file.pages
  touched : ∃ pagers : Finset Nat, ∀ who, (state.wals who).file ≠ [] → who ∈ pagers

theorem ordered_initial (file : DbFile) : Ordered (initial file) where
  holder := nofun
  fits := fun _ => .ofFresh
  latest := rfl
  touched := ⟨∅, fun _ nonempty => absurd rfl nonempty⟩

section Step

variable {state next : State} {who : Nat} {wal : Wal} {phase : Phase}

/-- The pending writes are those of the lock's holder. -/
theorem unapplied_of_phase
    (ordered : state.Ordered)
    (holds : (state.phases who).Holds) :
    state.unapplied =
      match state.phases who with
      | .applying rest => rest
      | _ => [] := by
  rw [unapplied, ordered.holder who holds]

theorem unapplied_of_holder
    {rest : List (UInt32 × Page)}
    (lock : state.applyLock = some who)
    (applying : state.phases who = .applying rest) :
    state.unapplied = rest := by
  rw [unapplied, lock]
  dsimp only
  rw [applying]

theorem Ordered.move
    (ordered : state.Ordered)
    (wals : next.wals = Function.update state.wals who wal)
    (phases : next.phases = Function.update state.phases who phase)
    (fits : phase.Fits wal)
    (holder : ∀ other, (next.phases other).Holds → next.applyLock = some other)
    (latest : next.latest = WriteLog.replay next.unapplied next.file.pages) :
    next.Ordered where
  holder := holder
  fits := by
    intro other
    rw [wals, phases]
    by_cases own : other = who
    · subst own
      rw [Function.update_self, Function.update_self]
      exact fits
    · rw [Function.update_of_ne own, Function.update_of_ne own]
      exact ordered.fits other
  latest := latest
  touched := by
    obtain ⟨pagers, covers⟩ := ordered.touched
    refine ⟨insert who pagers, fun other nonempty => ?_⟩
    by_cases own : other = who
    · exact own ▸ Finset.mem_insert_self who pagers
    · rw [wals, Function.update_of_ne own] at nonempty
      exact Finset.mem_insert_of_mem (covers other nonempty)

/-- Only the log changed. -/
theorem Ordered.setWal
    (ordered : state.Ordered)
    (fits : (state.phases who).Fits wal) :
    (state.setWal who wal).Ordered :=
  ordered.move rfl (Function.update_eq_self _ _).symm fits ordered.holder ordered.latest

theorem holder_kept
    (ordered : state.Ordered)
    (holds : (state.phases who).Holds)
    (other : Nat)
    (otherHolds : ((Function.update state.phases who phase) other).Holds) :
    state.applyLock = some other := by
  by_cases own : other = who
  · exact own ▸ ordered.holder who holds
  · rw [Function.update_of_ne own] at otherHolds
    exact ordered.holder other otherHolds

/-- The holder of the lock left `commit_apply`, so nobody is inside. -/
theorem holder_released
    (ordered : state.Ordered)
    (holds : (state.phases who).Holds)
    (left : ¬ phase.Holds)
    (other : Nat) :
    ¬ ((Function.update state.phases who phase) other).Holds := by
  intro otherHolds
  by_cases own : other = who
  · subst own
    rw [Function.update_self] at otherHolds
    exact left otherHolds
  · rw [Function.update_of_ne own] at otherHolds
    have first := ordered.holder who holds
    rw [ordered.holder other otherHolds] at first
    exact own (Option.some.inj first)

theorem Ordered.lock
    (ordered : state.Ordered)
    (idle : state.phases who = .idle)
    (free : state.applyLock = none) :
    Ordered { state.setPhase who .flushing with applyLock := some who } := by
  refine ordered.move (Function.update_eq_self _ _).symm rfl ?_ ?_ ?_
  · have fits := ordered.fits who
    rw [idle] at fits
    exact fits
  · intro other holds
    by_cases own : other = who
    · exact own ▸ rfl
    · have before : (state.phases other).Holds := by
        have same := Function.update_of_ne own Phase.flushing state.phases
        exact same ▸ holds
      rw [ordered.holder other before] at free
      cases free
  · have before : state.unapplied = [] := by rw [unapplied, free]
    have after :
        unapplied { state.setPhase who .flushing with applyLock := some who } = [] := by
      simp only [unapplied, setPhase, Function.update_self]
    rw [after, ← before]
    exact ordered.latest

theorem Ordered.fail
    (ordered : state.Ordered)
    (flushing : state.phases who = .flushing) :
    Ordered { state.setPhase who .idle with applyLock := none } := by
  have holds : (state.phases who).Holds := flushing ▸ trivial
  refine ordered.move (Function.update_eq_self _ _).symm rfl ?_ ?_ ?_
  · have fits := ordered.fits who
    rw [flushing] at fits
    exact fits
  · exact fun other inside => absurd inside (holder_released ordered holds id other)
  · have before := unapplied_of_phase ordered holds
    rw [flushing] at before
    have latest := ordered.latest
    rw [before] at latest
    exact latest

theorem Ordered.seal
    (ordered : state.Ordered)
    (flushing : state.phases who = .flushing) :
    Ordered { (state.setWal who (state.wals who).seal).setPhase who
        (.applying (pageWrites (state.wals who).seal.file)) with
      latest := WriteLog.replay (pageWrites (state.wals who).seal.file) state.latest } := by
  have holds : (state.phases who).Holds := flushing ▸ trivial
  have unsealed := ordered.fits who
  rw [flushing] at unsealed
  refine ordered.move rfl rfl ⟨unsealed.scan_seal, [], rfl⟩ ?_ ?_
  · exact fun other inside => holder_kept ordered holds other inside
  · have before := unapplied_of_phase ordered holds
    rw [flushing] at before
    have latest := ordered.latest
    rw [before] at latest
    generalize moved :
      { (state.setWal who (state.wals who).seal).setPhase who
          (.applying (pageWrites (state.wals who).seal.file)) with
        latest := WriteLog.replay (pageWrites (state.wals who).seal.file) state.latest } = next
    have lock : next.applyLock = some who := moved ▸ ordered.holder who holds
    have phase : next.phases who = .applying (pageWrites (state.wals who).seal.file) :=
      moved ▸ Function.update_self _ _ _
    rw [unapplied_of_holder lock phase, ← moved]
    exact congrArg _ latest

theorem Ordered.applyPage
    {no : UInt32}
    {image : Page}
    {rest : List (UInt32 × Page)}
    (ordered : state.Ordered)
    (applying : state.phases who = .applying ((no, image) :: rest)) :
    Ordered { state.setPhase who (.applying rest) with
      file := state.file.writePage no image } := by
  have holds : (state.phases who).Holds := applying ▸ trivial
  have fits := ordered.fits who
  rw [applying] at fits
  obtain ⟨complete, done, split⟩ := fits
  have later : Phase.Fits (state.wals who) (.applying rest) :=
    ⟨complete, done ++ [(no, image)], split.trans (List.append_cons done (no, image) rest)⟩
  refine ordered.move (Function.update_eq_self _ _).symm rfl later ?_ ?_
  · exact fun other inside => holder_kept ordered holds other inside
  · have before := unapplied_of_phase ordered holds
    rw [applying] at before
    have latest := ordered.latest
    rw [before] at latest
    generalize moved :
      { state.setPhase who (.applying rest) with
        file := state.file.writePage no image } = next
    have lock : next.applyLock = some who := moved ▸ ordered.holder who holds
    have phase : next.phases who = .applying rest := moved ▸ Function.update_self _ _ _
    rw [unapplied_of_holder lock phase, ← moved]
    exact latest

theorem Ordered.writeHeader
    (ordered : state.Ordered)
    (applying : state.phases who = .applying [])
    (metadata : Meta) :
    Ordered { state.setPhase who .applied with
      file := state.file.writePage 0 (encodeHeader metadata)
      applyLock := none
      latest := Function.update state.latest 0 (encodeHeader metadata) } := by
  have holds : (state.phases who).Holds := applying ▸ trivial
  have fits := ordered.fits who
  rw [applying] at fits
  refine ordered.move (Function.update_eq_self _ _).symm rfl fits.1 ?_ ?_
  · exact fun other inside => absurd inside (holder_released ordered holds id other)
  · have before := unapplied_of_phase ordered holds
    rw [applying] at before
    have latest := ordered.latest
    rw [before] at latest
    simp only [unapplied, latest]
    rfl

theorem Ordered.reset
    (ordered : state.Ordered)
    (applied : state.phases who = .applied) :
    ((state.setWal who (state.wals who).reset).setPhase who .idle).Ordered := by
  have out : ¬ (state.phases who).Holds := applied ▸ id
  generalize moved :
    (state.setWal who (state.wals who).reset).setPhase who .idle = next
  have idle : next.phases who = .idle := moved ▸ Function.update_self _ _ _
  have kept : ∀ other, other ≠ who → next.phases other = state.phases other :=
    fun other different => moved ▸ Function.update_of_ne different _ _
  have lock : next.applyLock = state.applyLock := moved ▸ rfl
  have wals : next.wals = Function.update state.wals who .fresh := moved ▸ rfl
  have phases : next.phases = Function.update state.phases who .idle := moved ▸ rfl
  refine ordered.move wals phases Wal.Unsealed.ofFresh ?_ ?_
  · intro other inside
    rw [lock]
    apply ordered.holder other
    by_cases own : other = who
    · rw [own, idle] at inside
      exact absurd inside id
    · rwa [kept other own] at inside
  · have same : next.unapplied = state.unapplied := by
      rw [unapplied, lock, unapplied]
      cases state.applyLock with
      | none => rfl
      | some other =>
          dsimp only
          by_cases own : other = who
          · rw [own, idle, applied]
          · rw [kept other own]
    rw [same, ← moved]
    exact ordered.latest

theorem Ordered.step
    {action : Action}
    (ordered : state.Ordered)
    (stepped : state.step action = some next) :
    next.Ordered := by
  cases action with
  | appendPage who no image =>
      have fits := ordered.fits who
      simp only [State.step] at stepped
      split at stepped
      case h_1 idle =>
        obtain rfl := Option.some.inj stepped
        apply ordered.setWal
        rw [idle] at fits ⊢
        exact fits.appendPage no image
      case h_2 flushing =>
        obtain rfl := Option.some.inj stepped
        apply ordered.setWal
        rw [flushing] at fits ⊢
        exact fits.appendPage no image
      case h_3 => cases stepped
  | discard who =>
      have fits := ordered.fits who
      simp only [State.step] at stepped
      split at stepped
      case h_1 idle =>
        obtain rfl := Option.some.inj stepped
        apply ordered.setWal
        rw [idle] at fits ⊢
        exact fits.discard
      case h_2 => cases stepped
  | lock who =>
      simp only [State.step] at stepped
      split at stepped
      case h_1 idle free =>
        obtain rfl := Option.some.inj stepped
        exact ordered.lock idle free
      case h_2 => cases stepped
  | fail who =>
      simp only [State.step] at stepped
      split at stepped
      case h_1 flushing =>
        obtain rfl := Option.some.inj stepped
        exact ordered.fail flushing
      case h_2 => cases stepped
  | sealLog who =>
      simp only [State.step] at stepped
      split at stepped
      case h_1 flushing =>
        obtain rfl := Option.some.inj stepped
        exact ordered.seal flushing
      case h_2 => cases stepped
  | applyPage who =>
      simp only [State.step] at stepped
      split at stepped
      case h_1 no image rest applying =>
        obtain rfl := Option.some.inj stepped
        exact ordered.applyPage applying
      case h_2 => cases stepped
  | writeHeader who metadata =>
      simp only [State.step] at stepped
      split at stepped
      case h_1 applying =>
        obtain rfl := Option.some.inj stepped
        exact ordered.writeHeader applying metadata
      case h_2 => cases stepped
  | reset who =>
      simp only [State.step] at stepped
      split at stepped
      case h_1 applied =>
        obtain rfl := Option.some.inj stepped
        exact ordered.reset applied
      case h_2 => cases stepped

end Step

/-! ## What recovery needs -/

/-- Every sealed log holds the latest image of every page it holds. -/
def Agree (state : State) : Prop :=
  ∀ who no old,
    (state.phases who).Sealed →
      WriteLog.lastWrite no (pageWrites (state.wals who).file) = some old →
        old = state.latest no

section Recovery

variable {state next : State}

theorem sealed_of_scan
    (ordered : state.Ordered)
    {who : Nat}
    (complete : scan 0 (state.wals who).file = true) :
    (state.phases who).Sealed := by
  have fits := ordered.fits who
  cases phase : state.phases who with
  | idle =>
      rw [phase] at fits
      rw [Wal.Unsealed.scan_false fits] at complete
      cases complete
  | flushing =>
      rw [phase] at fits
      rw [Wal.Unsealed.scan_false fits] at complete
      cases complete
  | applying rest => trivial
  | applied => trivial

theorem scan_of_sealed
    (ordered : state.Ordered)
    {who : Nat}
    (complete : (state.phases who).Sealed) :
    scan 0 (state.wals who).file = true := by
  have fits := ordered.fits who
  cases phase : state.phases who with
  | idle =>
      rw [phase] at complete
      exact complete.elim
  | flushing =>
      rw [phase] at complete
      exact complete.elim
  | applying rest =>
      rw [phase] at fits
      exact fits.1
  | applied =>
      rw [phase] at fits
      exact fits

/-- What has not reached the file is in the sealed log of the lock's holder. -/
theorem unapplied_listed
    (ordered : state.Ordered)
    {no : UInt32}
    (pending : WriteLog.lastWrite no state.unapplied ≠ none) :
    ∃ who,
      (state.phases who).Sealed ∧
        WriteLog.lastWrite no (pageWrites (state.wals who).file) ≠ none := by
  unfold unapplied at pending
  split at pending
  · exact absurd rfl pending
  · next who lock =>
      split at pending
      · next rest applying =>
          have fits := ordered.fits who
          rw [applying] at fits
          obtain ⟨_, done, split⟩ := fits
          refine ⟨who, applying ▸ trivial, ?_⟩
          rw [split, WriteLog.lastWrite_append]
          intro absent
          exact pending (Option.or_eq_none_iff.mp absent).1
      · exact absurd rfl pending

theorem recovers_of_agree
    (ordered : state.Ordered)
    (agree : state.Agree) :
    state.Recovers := by
  intro order _ covers no
  apply recoverLogs_agree
  · intro log member complete old last
    obtain ⟨who, _, rfl⟩ := List.mem_map.mp member
    exact agree who no old (sealed_of_scan ordered complete) last
  · rw [ordered.latest, WriteLog.replay_apply]
    cases pending : WriteLog.lastWrite no state.unapplied with
    | none => exact .inl rfl
    | some image =>
        obtain ⟨who, complete, writes⟩ :=
          unapplied_listed ordered (pending ▸ Option.some_ne_none image)
        have scanned := scan_of_sealed ordered complete
        have nonempty : (state.wals who).file ≠ [] := by
          intro empty
          rw [empty] at scanned
          cases scanned
        exact .inr ⟨_, List.mem_map_of_mem (covers who nonempty), scanned, writes⟩

/-- Some directory order replays any given log last. -/
theorem agree_of_recovers
    (ordered : state.Ordered)
    (recovers : state.Recovers) :
    state.Agree := by
  intro who no old complete last
  obtain ⟨pagers, covers⟩ := ordered.touched
  have order := recovers ((pagers.erase who).toList ++ [who]) ?_ ?_ no
  · rw [recovered, List.map_append, List.map_singleton,
      recoverLogs_last (scan_of_sealed ordered complete) last] at order
    exact order
  · rw [List.nodup_append]
    refine ⟨Finset.nodup_toList _, List.nodup_singleton who, ?_⟩
    rintro first firstMember second secondMember rfl
    obtain rfl := List.mem_singleton.mp secondMember
    exact Finset.notMem_erase first pagers (Finset.mem_toList.mp firstMember)
  · intro other nonempty
    by_cases own : other = who
    · rw [own]
      exact List.mem_append_right _ (List.mem_singleton_self who)
    · exact List.mem_append_left _
        (Finset.mem_toList.mpr (Finset.mem_erase.mpr ⟨own, covers other nonempty⟩))

theorem latest_step
    {action : Action}
    (stepped : state.step action = some next)
    (no : UInt32) :
    next.latest no = (state.published no action).getD (state.latest no) := by
  cases action with
  | sealLog who =>
      simp only [State.step] at stepped
      split at stepped <;> cases stepped
      rw [published, ← WriteLog.replay_apply]
  | writeHeader who metadata =>
      simp only [State.step] at stepped
      split at stepped <;> cases stepped
      by_cases header : no = 0
      · subst header
        rfl
      · rw [published, if_neg header]
        exact Function.update_of_ne header (encodeHeader metadata) state.latest
  | appendPage who _ image =>
      simp only [State.step] at stepped
      split at stepped <;> cases stepped <;> rfl
  | discard who =>
      simp only [State.step] at stepped
      split at stepped <;> cases stepped
      rfl
  | lock who =>
      simp only [State.step] at stepped
      split at stepped <;> cases stepped
      rfl
  | fail who =>
      simp only [State.step] at stepped
      split at stepped <;> cases stepped
      rfl
  | applyPage who =>
      simp only [State.step] at stepped
      split at stepped <;> cases stepped
      rfl
  | reset who =>
      simp only [State.step] at stepped
      split at stepped <;> cases stepped
      rfl

theorem sealed_step
    {action : Action}
    (stepped : state.step action = some next)
    {who : Nat}
    (complete : (next.phases who).Sealed) :
    ((state.phases who).Sealed ∧ next.wals who = state.wals who) ∨
      (action = .sealLog who ∧ next.wals who = (state.wals who).seal) := by
  have moved :
      ∀ {mover phase wal},
        next.phases = Function.update state.phases mover phase →
          next.wals = Function.update state.wals mover wal →
            (phase.Sealed → (state.phases mover).Sealed ∧ wal = state.wals mover) →
              (state.phases who).Sealed ∧ next.wals who = state.wals who := by
    intro mover phase wal phases wals own
    rw [phases] at complete
    rw [wals]
    by_cases isMover : who = mover
    · subst isMover
      rw [Function.update_self] at complete ⊢
      exact own complete
    · rw [Function.update_of_ne isMover] at complete ⊢
      exact ⟨complete, rfl⟩
  have still :
      ∀ mover, state.wals = Function.update state.wals mover (state.wals mover) :=
    fun mover => (Function.update_eq_self _ _).symm
  cases action with
  | appendPage mover no image =>
      simp only [State.step] at stepped
      split at stepped
      case h_1 idle =>
        cases stepped
        refine .inl (moved (Function.update_eq_self _ _).symm rfl fun inside => ?_)
        have inside : (state.phases mover).Sealed := inside
        rw [idle] at inside
        exact inside.elim
      case h_2 flushing =>
        cases stepped
        refine .inl (moved (Function.update_eq_self _ _).symm rfl fun inside => ?_)
        have inside : (state.phases mover).Sealed := inside
        rw [flushing] at inside
        exact inside.elim
      case h_3 => cases stepped
  | discard mover =>
      simp only [State.step] at stepped
      split at stepped
      case h_1 idle =>
        cases stepped
        refine .inl (moved (Function.update_eq_self _ _).symm rfl fun inside => ?_)
        have inside : (state.phases mover).Sealed := inside
        rw [idle] at inside
        exact inside.elim
      case h_2 => cases stepped
  | lock mover =>
      simp only [State.step] at stepped
      split at stepped <;> cases stepped
      exact .inl (moved rfl (still mover) False.elim)
  | fail mover =>
      simp only [State.step] at stepped
      split at stepped <;> cases stepped
      exact .inl (moved rfl (still mover) False.elim)
  | sealLog mover =>
      simp only [State.step] at stepped
      split at stepped
      case h_1 =>
        have phases :
            next.phases =
              Function.update state.phases mover
                (.applying (pageWrites (state.wals mover).seal.file)) :=
          congrArg State.phases (Option.some.inj stepped).symm
        have wals :
            next.wals = Function.update state.wals mover (state.wals mover).seal :=
          congrArg State.wals (Option.some.inj stepped).symm
        rw [phases] at complete
        rw [wals]
        by_cases isMover : who = mover
        · subst isMover
          exact .inr ⟨rfl, Function.update_self _ _ _⟩
        · rw [Function.update_of_ne isMover] at complete ⊢
          exact .inl ⟨complete, rfl⟩
      case h_2 => cases stepped
  | applyPage mover =>
      simp only [State.step] at stepped
      split at stepped
      case h_1 applying =>
        cases stepped
        exact .inl (moved rfl (still mover) fun _ => ⟨applying ▸ trivial, rfl⟩)
      case h_2 => cases stepped
  | writeHeader mover metadata =>
      simp only [State.step] at stepped
      split at stepped
      case h_1 applying =>
        cases stepped
        exact .inl (moved rfl (still mover) fun _ => ⟨applying ▸ trivial, rfl⟩)
      case h_2 => cases stepped
  | reset mover =>
      simp only [State.step] at stepped
      split at stepped <;> cases stepped
      exact .inl (moved rfl rfl False.elim)

/-- A step that publishes an image empties no log. -/
theorem sealed_kept
    {action : Action}
    {no : UInt32}
    {image : Page}
    (stepped : state.step action = some next)
    (published : state.published no action = some image)
    {who : Nat}
    (complete : (state.phases who).Sealed) :
    (next.phases who).Sealed ∧ next.wals who = state.wals who := by
  cases action with
  | sealLog mover =>
      simp only [State.step] at stepped
      split at stepped
      case h_1 flushing =>
        have other : who ≠ mover := by
          rintro rfl
          rw [flushing] at complete
          exact complete
        have phases :
            next.phases =
              Function.update state.phases mover
                (.applying (pageWrites (state.wals mover).seal.file)) :=
          congrArg State.phases (Option.some.inj stepped).symm
        have wals :
            next.wals = Function.update state.wals mover (state.wals mover).seal :=
          congrArg State.wals (Option.some.inj stepped).symm
        rw [phases, wals, Function.update_of_ne other, Function.update_of_ne other]
        exact ⟨complete, rfl⟩
      case h_2 => cases stepped
  | writeHeader mover metadata =>
      simp only [State.step] at stepped
      split at stepped
      case h_1 =>
        have phases : next.phases = Function.update state.phases mover .applied :=
          congrArg State.phases (Option.some.inj stepped).symm
        have wals : next.wals = state.wals :=
          (congrArg State.wals (Option.some.inj stepped)).symm
        rw [phases, wals]
        refine ⟨?_, rfl⟩
        by_cases own : who = mover
        · rw [own, Function.update_self]
          trivial
        · rw [Function.update_of_ne own]
          exact complete
      case h_2 => cases stepped
  | appendPage _ _ _ | discard _ | lock _ | fail _ | applyPage _ | reset _ =>
      cases published

/-- A step keeps the sealed logs in agreement exactly when none holds another image. -/
theorem agree_step_iff
    {action : Action}
    (agree : state.Agree)
    (stepped : state.step action = some next) :
    next.Agree ↔ state.Separate action := by
  constructor
  · intro later who no image old complete last published
    obtain ⟨stays, sameWal⟩ := sealed_kept stepped published complete
    have answer := later who no old stays (sameWal ▸ last)
    rw [latest_step stepped, published] at answer
    exact answer
  · intro separate who no old complete last
    rw [latest_step stepped]
    rcases sealed_step stepped complete with ⟨before, sameWal⟩ | ⟨rfl, sealedNow⟩
    · rw [sameWal] at last
      cases published : state.published no action with
      | none => exact agree who no old before last
      | some image => exact separate who no image old before last published
    · rw [sealedNow] at last
      have published : state.published no (.sealLog who) = some old := last
      rw [published]
      rfl

theorem recovers_iff_agree (ordered : state.Ordered) : state.Recovers ↔ state.Agree :=
  ⟨agree_of_recovers ordered, recovers_of_agree ordered⟩

end Recovery

theorem agree_initial (file : DbFile) : Agree (initial file) :=
  fun _ _ _ complete => complete.elim

variable {file : DbFile} {actions : List Action} {state : State}

/--
While no step publishes a page of which a sealed log still holds another image, a
crash recovers the latest commit of every page; and a further step keeps that
exactly when it publishes none either.
-/
theorem recovers_latest_commits
    (run : Run step Separate (initial file) actions state) :
    state.Recovers ∧
      ∀ action next,
        state.step action = some next → (next.Recovers ↔ state.Separate action) := by
  have invariant : state.Ordered ∧ state.Agree :=
    Run.invariant (fun state => state.Ordered ∧ state.Agree)
      (fun both separate stepped =>
        ⟨both.1.step stepped, (agree_step_iff both.2 stepped).mpr separate⟩)
      run ⟨ordered_initial file, agree_initial file⟩
  obtain ⟨ordered, agree⟩ := invariant
  refine ⟨recovers_of_agree ordered agree, fun action next stepped => ?_⟩
  rw [recovers_iff_agree (ordered.step stepped), agree_step_iff agree stepped]

/--
Pager 0 commits page 1 and has not emptied its log when pager 1 commits page 2; both
logs are there at the end.
-/
def coexistingLogs : List Action :=
  [.lock 0, .appendPage 0 1 (filled 0xAA), .sealLog 0, .applyPage 0,
    .writeHeader 0 initialMeta,
    .lock 1, .appendPage 1 2 (filled 0xBB), .sealLog 1, .applyPage 1,
    .writeHeader 1 initialMeta]

/-- It is enough that the sealed logs hold no page that the step publishes. -/
theorem separate_of_apart
    {state : State}
    {action : Action}
    (apart :
      ∀ who,
        (state.phases who).Sealed →
          ∀ write ∈ pageWrites (state.wals who).file,
            state.published write.1 action = none) :
    state.Separate action := by
  intro who no image old complete last published
  have writes : WriteLog.lastWrite no (pageWrites (state.wals who).file) ≠ none := by
    rw [last]
    nofun
  rw [ne_eq, WriteLog.lastWrite_eq_none_iff] at writes
  push Not at writes
  obtain ⟨write, member, rfl⟩ := writes
  rw [apart who complete write member] at published
  cases published

theorem separate_of_unpublished
    {state : State}
    {action : Action}
    (unpublished : ∀ no, state.published no action = none) :
    state.Separate action :=
  separate_of_apart fun _ _ write _ => unpublished write.1

/-- Two sealed logs, on pages 1 and 2, at one crash. -/
theorem coexisting_logs_recover :
    ∃ state,
      Run step Separate (initial .empty) coexistingLogs state ∧
        (state.phases 0).Sealed ∧
        (state.phases 1).Sealed ∧
        state.Recovers ∧
        state.latest 1 = filled 0xAA ∧
        state.latest 2 = filled 0xBB := by
  have quiet :
      ∀ {state : State} {action : Action},
        (∀ no, state.published no action = none) → state.Separate action :=
    separate_of_unpublished
  have reached :
      ∃ state,
        Run step Separate (initial .empty) coexistingLogs state ∧
          (state.phases 0).Sealed ∧
          (state.phases 1).Sealed ∧
          state.latest 1 = filled 0xAA ∧
          state.latest 2 = filled 0xBB := by
    refine ⟨_, .cons (quiet fun _ => rfl) rfl (.cons (quiet fun _ => rfl) rfl
      (.cons (separate_of_apart ?_) rfl (.cons (quiet fun _ => rfl) rfl
      (.cons (separate_of_apart ?_) rfl (.cons (quiet fun _ => rfl) rfl
      (.cons (quiet fun _ => rfl) rfl (.cons (separate_of_apart ?_) rfl
      (.cons (quiet fun _ => rfl) rfl (.cons (separate_of_apart ?_) rfl
      (.nil _)))))))))), trivial, trivial, rfl, rfl⟩
    -- No log is sealed when the first one is; then log 0 holds page 1 alone.
    · intro who complete
      match who with
      | 0 => exact complete.elim
      | _ + 1 => exact complete.elim
    · intro who complete write member
      match who with
      | 0 =>
          obtain rfl := List.mem_singleton.mp member
          rfl
      | _ + 1 => exact complete.elim
    · intro who complete write member
      match who with
      | 0 =>
          obtain rfl := List.mem_singleton.mp member
          rfl
      | 1 => exact complete.elim
      | _ + 2 => exact complete.elim
    · intro who complete write member
      match who with
      | 0 =>
          obtain rfl := List.mem_singleton.mp member
          rfl
      | 1 =>
          obtain rfl := List.mem_singleton.mp member
          rfl
      | _ + 2 => exact complete.elim
  obtain ⟨state, run, first, second, latest⟩ := reached
  exact ⟨state, run, first, second, (recovers_latest_commits run).1, latest⟩

/-- The first pager's log is still there when the second commits the same page. -/
def lateReset : List Action :=
  [.lock 0, .appendPage 0 1 (filled 0xAA), .sealLog 0, .applyPage 0,
    .writeHeader 0 initialMeta,
    .lock 1, .appendPage 1 1 (filled 0xBB), .sealLog 1, .applyPage 1,
    .writeHeader 1 initialMeta, .reset 1]

/-- A crash then replays the older image over the newer one. -/
theorem late_reset_reverts_commit :
    ∃ state,
      Run step unrestricted (initial .empty) lateReset state ∧
        state.phases 1 = .idle ∧
        state.latest 1 = filled 0xBB ∧
        (state.recovered [0]).pages 1 = filled 0xAA ∧
        ¬ state.Recovers := by
  obtain ⟨state, replayed, returned, latest, recovered, covers⟩ :
      ∃ state,
        replay step unrestricted (initial .empty) lateReset = some state ∧
          state.phases 1 = .idle ∧
          state.latest 1 = filled 0xBB ∧
          (state.recovered [0]).pages 1 = filled 0xAA ∧
          ∀ who, (state.wals who).file ≠ [] → who ∈ [0] := by
    refine ⟨_, rfl, rfl, rfl, rfl, fun who nonempty => ?_⟩
    match who with
    | 0 => exact List.mem_singleton_self 0
    | 1 => exact absurd rfl nonempty
    | _ + 2 => exact absurd rfl nonempty
  refine ⟨state, run_of_replay replayed, returned, latest, recovered, fun recovers => ?_⟩
  have same := recovers [0] (List.nodup_singleton 0) covers 1
  rw [recovered, latest] at same
  have byte : (0xAA : UInt8) = 0xBB := congrFun same ⟨0, by decide⟩
  exact absurd byte (by decide)

end State

end PrehniteDB.LogRecovery
