import PrehniteDB.WalBytes
import PrehniteDB.TransitionRun

namespace PrehniteDB.WalHistory

open TransitionRun WalBytes

/-!
# Recovery of one log file

The calls a pager makes on its log, and a crash after any prefix of the bytes they
write.  The ledgers name the images appended and the transaction of the last
marker; they are not part of the log.
-/

structure State where
  wal : WalFile
  /-- The images appended since the last reset or discard. -/
  pages : List (UInt32 × Page)
  /-- The transaction the last marker closed, until the log is reset. -/
  committed : Option (List (UInt32 × Page))

inductive Action where
  | appendPage (no : UInt32) (image : Page)
  | readPageAt (offset : Nat)
  | sealLog
  /-- Copy the log into the database file. -/
  | apply
  | reset
  | discard

/-- The empty log every recovery leaves. -/
def created : State where
  wal := .opened []
  pages := []
  committed := none

namespace State

/-- One call without an I/O error; a sealed transaction is never abandoned. -/
def step (state : State) : Action → Option State
  | .appendPage no image =>
      some { state with
        wal := (state.wal.appendPage no image).2
        pages := state.pages ++ [(no, image)] }
  | .readPageAt offset =>
      match state.wal.readPageAt offset with
      | .ok _ => some state
      | .error _ => none
  | .sealLog =>
      some { state with
        wal := state.wal.seal
        committed := some state.pages }
  | .apply => some state
  | .reset =>
      some {
        wal := state.wal.reset
        pages := []
        committed := none }
  | .discard =>
      match state.committed with
      | none =>
          some { state with
            wal := state.wal.discard
            pages := [] }
      | some _ => none

/-- The bytes the call writes at the cursor. -/
def written (state : State) : Action → List UInt8
  | .appendPage no image => pageRecord no image
  | .sealLog => commitRecord state.wal.records
  | _ => []

/-- The file after the first `cut` bytes of the call's write. -/
def torn (state : State) (action : Action) (cut : Nat) : List UInt8 :=
  writeAt state.wal.file state.wal.cursor ((state.written action).take cut)

/-- A torn marker that stale bytes complete does not pass its checksum. -/
def NoAccident (state : State) (cut : Nat) : Prop :=
  state.wal.cursor + COMMIT_RECORD_LEN ≤ (state.torn .sealLog cut).length →
    commitChecks ((state.torn .sealLog cut).drop (state.wal.cursor + 1)) = false

/-- The log is not sealed again over images appended behind its marker. -/
def SealedOnce (state : State) (action : Action) : Prop :=
  action = .sealLog → ∀ pages, state.committed = some pages → state.pages = pages

/-- Recovery replays the last sealed transaction, or nothing when there is none. -/
def Recovers (state : State) (file : List UInt8) : Prop :=
  ∀ db : DbFile,
    (WalFile.opened file).recover db =
      (state.committed.isSome, WalFile.opened [], db.writeAll (state.committed.getD []))

end State

open State

/-- The files a crash can leave. -/
inductive CrashFile (state : State) : List UInt8 → Prop where
  | between : CrashFile state state.wal.file
  | within
      (action : Action)
      (cut : Nat)
      (inside : cut < (state.written action).length)
      (genuine : action = .sealLog → 0 < cut → state.NoAccident cut) :
      CrashFile state (state.torn action cut)

/-! ## Writes behind and beyond a prefix -/

/-- Bytes written right behind a prefix cover what followed it. -/
theorem writeAt_behind (log stale bytes : List UInt8) :
    writeAt (log ++ stale) log.length bytes = log ++ (bytes ++ stale.drop bytes.length) := by
  have gap : log.length - (log ++ stale).length = 0 := by simp
  rw [writeAt, gap, List.take_left, List.drop_length_add_append, List.replicate_zero,
    List.append_nil, List.append_assoc]

theorem writeAt_created (bytes : List UInt8) : writeAt [] 0 bytes = bytes := by
  simp [writeAt]

theorem writeAt_beyond
    (log stale bytes : List UInt8)
    {offset : Nat}
    (behind : log.length ≤ offset) :
    ∃ rest, writeAt (log ++ stale) offset bytes = log ++ rest := by
  refine ⟨(stale.take (offset - log.length)) ++ List.replicate (offset - (log ++ stale).length) 0 ++
    bytes ++ (log ++ stale).drop (offset + bytes.length), ?_⟩
  rw [writeAt, List.take_append, List.take_of_length_le behind]
  simp only [List.append_assoc]

/-! ## Logs along a history -/

/-- The transaction's records stand in front of whatever abandoned ones have left. -/
def Unsealed (state : State) : Prop :=
  ∃ stale, Tagged stale ∧
    state.wal =
      { file := pageRecords state.pages ++ stale
        cursor := (pageRecords state.pages).length
        records := UInt32.ofNat state.pages.length }

/-- A sealed transaction and its marker. -/
def sealedLog (pages : List (UInt32 × Page)) : List UInt8 :=
  pageRecords pages ++ commitRecord (UInt32.ofNat pages.length)

/-- The file starts with the sealed transaction and the cursor has passed its marker. -/
def Sealed (state : State) (pages : List (UInt32 × Page)) : Prop :=
  (∃ rest, state.wal.file = sealedLog pages ++ rest) ∧
    (sealedLog pages).length ≤ state.wal.cursor

def Sound (state : State) : Prop :=
  match state.committed with
  | none => Unsealed state
  | some pages => Sealed state pages

theorem recover_sealedLog
    (pages : List (UInt32 × Page))
    (rest : List UInt8)
    (db : DbFile) :
    (WalFile.opened (sealedLog pages ++ rest)).recover db =
      (true, WalFile.opened [], db.writeAll pages) := by
  have committed : scan 0 (sealedLog pages ++ rest) = true := by
    rw [sealedLog, List.append_assoc, scan_pageRecords, scan_commitRecord, UInt32.zero_add]
    exact beq_self_eq_true _
  have images : pageWrites (sealedLog pages ++ rest) = pages := by
    rw [sealedLog, List.append_assoc, pageWrites_pageRecords, pageWrites_commitRecord,
      List.append_nil]
  simp only [WalFile.recover, WalFile.apply, WalFile.reset, WalFile.opened, committed, images,
    if_true]

theorem recover_refused
    {file : List UInt8}
    (refused : scan 0 file = false)
    (db : DbFile) :
    (WalFile.opened file).recover db = (false, WalFile.opened [], db) := by
  simp only [WalFile.recover, WalFile.reset, WalFile.opened, refused, Bool.false_eq_true, if_false]

theorem Unsealed.appendPage
    {state : State}
    (log : Unsealed state)
    (no : UInt32)
    (image : Page) :
    Unsealed { state with
      wal := (state.wal.appendPage no image).2
      pages := state.pages ++ [(no, image)] } := by
  obtain ⟨stale, tagged, wal⟩ := log
  refine ⟨stale.drop PAGE_RECORD_LEN, tagged.drop, ?_⟩
  have count : UInt32.ofNat (state.pages ++ [(no, image)]).length =
      UInt32.ofNat state.pages.length + 1 := by
    rw [List.length_append, UInt32.ofNat_add]
    rfl
  simp only [WalFile.appendPage, wal, count]
  simp only [writeAt_behind, pageRecord_length, pageRecords_snoc, List.length_append,
    List.append_assoc]

theorem Unsealed.sealLog
    {state : State}
    (log : Unsealed state) :
    Sealed { state with
      wal := state.wal.seal
      committed := some state.pages } state.pages := by
  obtain ⟨stale, tagged, wal⟩ := log
  constructor
  · refine ⟨stale.drop COMMIT_RECORD_LEN, ?_⟩
    simp only [WalFile.seal, wal, writeAt_behind, commitRecord_length, sealedLog,
      List.append_assoc]
  · simp only [WalFile.seal, wal, sealedLog, List.length_append, commitRecord_length,
      Nat.le_refl]

/-- The abandoned records stay tagged. -/
theorem Unsealed.discard
    {state : State}
    (log : Unsealed state) :
    Unsealed { state with
      wal := state.wal.discard
      pages := [] } := by
  obtain ⟨stale, tagged, wal⟩ := log
  refine ⟨pageRecords state.pages ++ stale, tagged.pageRecords state.pages, ?_⟩
  simp only [WalFile.discard, wal]
  rfl

/-- What is written behind the marker leaves the sealed transaction in place. -/
theorem Sealed.write
    {state : State}
    {pages : List (UInt32 × Page)}
    (log : Sealed state pages)
    (bytes : List UInt8) :
    ∃ rest, writeAt state.wal.file state.wal.cursor bytes = sealedLog pages ++ rest := by
  obtain ⟨⟨rest, file⟩, behind⟩ := log
  rw [file]
  exact writeAt_beyond _ rest bytes behind

theorem Sound.created : Sound created :=
  ⟨[], tagged_nil, rfl⟩

/-- Every step keeps the invariant. -/
theorem Sound.step
    {state next : State}
    {action : Action}
    (sound : Sound state)
    (once : state.SealedOnce action)
    (moved : state.step action = some next) :
    Sound next := by
  unfold Sound at sound
  cases action with
  | appendPage no image =>
      cases moved
      cases committed : state.committed with
      | none =>
          rw [committed] at sound
          simp only [Sound]
          exact sound.appendPage no image
      | some pages =>
          rw [committed] at sound
          simp only [Sound]
          exact ⟨sound.write _, Nat.le_add_right_of_le sound.2⟩
  | readPageAt offset =>
      cases read : state.wal.readPageAt offset with
      | error reason =>
          simp only [State.step, read] at moved
          cases moved
      | ok image =>
          simp only [State.step, read] at moved
          cases moved
          exact sound
  | sealLog =>
      cases moved
      cases committed : state.committed with
      | none =>
          rw [committed] at sound
          exact sound.sealLog
      | some pages =>
          rw [committed] at sound
          have same := once rfl pages committed
          change Sealed _ state.pages
          rw [same]
          exact ⟨sound.write _, Nat.le_add_right_of_le sound.2⟩
  | apply =>
      cases moved
      exact sound
  | reset =>
      cases moved
      exact Sound.created
  | discard =>
      cases committed : state.committed with
      | none =>
          rw [committed] at sound
          simp only [State.step, committed] at moved
          cases moved
          simp only [Sound]
          exact sound.discard
      | some pages =>
          simp only [State.step, committed] at moved
          cases moved

/-- The invariant along a run. -/
theorem sound_of_run
    {actions : List Action}
    {state : State}
    (run : Run step SealedOnce created actions state) :
    Sound state :=
  run.invariant Sound (fun sound once moved => sound.step once moved) Sound.created

/-! ## Crashes -/

theorem Unsealed.torn_appendPage
    {state : State}
    (log : Unsealed state)
    (no : UInt32)
    (image : Page)
    {cut : Nat}
    (inside : cut < PAGE_RECORD_LEN) :
    scan 0 (state.torn (.appendPage no image) cut) = false := by
  obtain ⟨stale, tagged, wal⟩ := log
  have length : ((pageRecord no image).take cut).length = cut := by
    rw [List.length_take, pageRecord_length, Nat.min_eq_left (Nat.le_of_lt inside)]
  have file : state.torn (.appendPage no image) cut =
      pageRecords state.pages ++ ((pageRecord no image).take cut ++ stale.drop cut) := by
    simp only [torn, written, wal, writeAt_behind, length]
  rw [file]
  exact scan_tagged ((tagged.torn no image (Nat.le_of_lt inside)).pageRecords state.pages) 0

/-- A torn marker is short or fails its checksum. -/
theorem Unsealed.torn_sealLog
    {state : State}
    (log : Unsealed state)
    {cut : Nat}
    (inside : cut < COMMIT_RECORD_LEN)
    (genuine : 0 < cut → state.NoAccident cut) :
    scan 0 (state.torn .sealLog cut) = false := by
  obtain ⟨stale, tagged, wal⟩ := log
  have file : state.torn .sealLog cut =
      pageRecords state.pages ++ ((commitRecord state.wal.records).take cut ++ stale.drop cut) := by
    have length : ((commitRecord state.wal.records).take cut).length = cut := by
      rw [List.length_take, commitRecord_length, Nat.min_eq_left (Nat.le_of_lt inside)]
    simp only [torn, written]
    rw [congrArg WalFile.file wal, congrArg WalFile.cursor wal, writeAt_behind, length]
  cases cut with
  | zero =>
      rw [file]
      exact scan_tagged (tagged.pageRecords state.pages) 0
  | succ cut =>
      have genuine := genuine (Nat.succ_pos cut)
      obtain ⟨rest, tag⟩ : ∃ rest,
          (commitRecord state.wal.records).take (cut + 1) ++ stale.drop (cut + 1) =
            REC_COMMIT :: rest := ⟨_, rfl⟩
      rw [tag] at file
      rw [file, scan_pageRecords, scan, if_neg (by decide), if_pos rfl]
      split_ifs with short
      · rfl
      · have behind : (state.torn .sealLog (cut + 1)).drop (state.wal.cursor + 1) = rest := by
          rw [file, congrArg WalFile.cursor wal, List.drop_length_add_append]
          rfl
        have checks : commitChecks rest = false := by
          rw [← behind]
          apply genuine
          rw [file, congrArg WalFile.cursor wal, List.length_append, List.length_cons]
          change (pageRecords state.pages).length + COMMIT_RECORD_LEN ≤ _
          unfold COMMIT_RECORD_LEN at short ⊢
          omega
        rw [checks, Bool.false_and]

/-- Every crash leaves a file that recovers the last sealed transaction. -/
theorem Sound.recovers
    {state : State}
    (sound : Sound state)
    {file : List UInt8}
    (crash : CrashFile state file) :
    state.Recovers file := by
  unfold Sound at sound
  intro db
  cases committed : state.committed with
  | none =>
      rw [committed] at sound
      refine recover_refused ?_ db
      cases crash with
      | between =>
          obtain ⟨stale, tagged, wal⟩ := sound
          rw [wal]
          exact scan_tagged (tagged.pageRecords state.pages) 0
      | within action cut inside genuine =>
          cases action with
          | appendPage no image =>
              exact sound.torn_appendPage no image (by simpa [written] using inside)
          | sealLog => exact sound.torn_sealLog (by simpa [written] using inside) (genuine rfl)
          | _ => exact absurd inside (Nat.not_lt_zero _)
  | some pages =>
      rw [committed] at sound
      obtain ⟨rest, rfl⟩ : ∃ rest, file = sealedLog pages ++ rest := by
        cases crash with
        | between => exact sound.1
        | within action cut inside genuine => exact sound.write _
      exact recover_sealedLog pages rest db

/-- In every history that seals a transaction once, a crash after any byte leaves a log
whose recovery replays the last sealed transaction whole, or nothing. -/
theorem recovers_all_or_nothing
    {actions : List Action}
    {state : State}
    (run : Run step SealedOnce created actions state)
    {file : List UInt8}
    (crash : CrashFile state file) :
    state.Recovers file :=
  (sound_of_run run).recovers crash

/-- A transaction of one blank page, abandoned. -/
def abandoned : List Action :=
  [.appendPage 1 zeroPage, .discard]

/-- The checksum a torn marker takes over from the bytes of a blank page. -/
theorem commitChecks_blank (rest : List UInt8) :
    commitChecks (leBytes 1 ++ (imageBytes zeroPage ++ rest)) = false := by
  have stored : fromLeBytes (imageBytes zeroPage ++ rest) = 0 := by
    have first : (imageBytes zeroPage).take 4 = leBytes 0 := by
      rw [imageBytes, ← List.map_take, List.take_range, Nat.min_eq_left (by decide)]
      decide
    rw [← List.take_append_drop 4 (imageBytes zeroPage), first, List.append_assoc,
      fromLeBytes_leBytes]
  rw [commitChecks, List.take_left' (leBytes_length 1), List.drop_left' (leBytes_length 1), stored]
  decide +kernel

/-- The first byte of a marker over an abandoned record replays nothing. -/
theorem torn_over_abandoned_recovers :
    ∃ state : State,
      Run step SealedOnce created abandoned state ∧
        CrashFile state (state.torn .sealLog 1) ∧
        state.Recovers (state.torn .sealLog 1) := by
  obtain ⟨state, run, wal⟩ :
      ∃ state : State,
        Run step SealedOnce created abandoned state ∧
          state.wal =
            { file := pageRecord 1 zeroPage
              cursor := 0
              records := 0 } := by
    refine ⟨_, ((Run.nil created).snoc nofun rfl).snoc nofun rfl, ?_⟩
    simp only [created, WalFile.opened, WalFile.appendPage, WalFile.discard, writeAt_created]
  have file : state.torn .sealLog 1 = REC_COMMIT :: (pageRecord 1 zeroPage).drop 1 := by
    have whole := writeAt_behind [] (pageRecord 1 zeroPage) [REC_COMMIT]
    rw [List.nil_append, List.nil_append, List.length_nil] at whole
    have marker : (state.written .sealLog).take 1 = [REC_COMMIT] := rfl
    rw [torn, marker, wal, whole]
    exact List.singleton_append
  have crash : CrashFile state (state.torn .sealLog 1) := by
    refine .within .sealLog 1 (by simp [written, COMMIT_RECORD_LEN]) fun _ _ _ => ?_
    rw [file, wal]
    have behind :
        (REC_COMMIT :: (pageRecord 1 zeroPage).drop 1).drop (0 + 1) =
          leBytes 1 ++ (imageBytes zeroPage ++
            leBytes (crc32 [leBytes 1, imageBytes zeroPage])) := by
      simp only [pageRecord, Nat.zero_add, List.drop_succ_cons, List.drop_zero, List.append_assoc]
    rw [behind]
    exact commitChecks_blank _
  exact ⟨state, run, crash, recovers_all_or_nothing run crash⟩

/-- A log sealed again over images appended behind its marker replays the first
transaction alone. -/
theorem sealed_again_loses_later_images :
    ¬ ∀ {actions : List Action} {state : State},
      Run step unrestricted created actions state →
        ∀ {file : List UInt8}, CrashFile state file → state.Recovers file := by
  intro claim
  let image : Page := fun _ => 7
  obtain ⟨first, second, final, moved, appended, resealed⟩ :
      ∃ first second final : State,
        created.step .sealLog = some first ∧
          first.step (.appendPage 1 image) = some second ∧
          second.step .sealLog = some final :=
    ⟨_, _, _, rfl, rfl, rfl⟩
  have run : Run step unrestricted created [.sealLog, .appendPage 1 image, .sealLog] final :=
    (((Run.nil created).snoc trivial moved).snoc trivial appended).snoc trivial resealed
  have earlier : Sealed second [] := by
    have sound := Sound.created.step (fun _ _ none => nomatch none) moved
    have once : first.SealedOnce (.appendPage 1 image) := nofun
    replace sound := sound.step once appended
    cases moved
    cases appended
    exact sound
  have file : ∃ rest, final.wal.file = sealedLog [] ++ rest := by
    cases resealed
    exact earlier.write _
  obtain ⟨rest, file⟩ := file
  have recovered := claim run .between DbFile.empty
  rw [file, recover_sealedLog] at recovered
  have images : final.committed = some [(1, image)] := by
    cases moved
    cases appended
    cases resealed
    rfl
  rw [images] at recovered
  have byte := congrArg (fun outcome => outcome.2.2.pages 1 ⟨0, by decide⟩) recovered
  simp [DbFile.writeAll, DbFile.empty, zeroPage, image] at byte

end PrehniteDB.WalHistory
