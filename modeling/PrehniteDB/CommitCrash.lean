import PrehniteDB.CommitDurability

namespace PrehniteDB

open TransitionRun

/-!
# A crash inside a commit

A commit is a sequence of writes to the log file and to the database file.  A
crash keeps a prefix of them.  The log carries the data pages of the commit, the
header is written to the file beside it.
-/

/-- One write a commit makes. -/
inductive DiskWrite where
  /-- A page record of the log. -/
  | record (no : UInt32) (image : Page)
  /-- The commit marker. -/
  | marker
  /-- A page copied into the database file. -/
  | page (no : UInt32) (image : Page)
  | header (image : Page)
  /-- The log emptied. -/
  | truncate

/-- The files of one pager. -/
structure Media where
  file : DbFile
  wal : Wal

def DiskWrite.perform (media : Media) : DiskWrite → Media
  | .record no image => { media with wal := (media.wal.appendPage no image).2 }
  | .marker => { media with wal := media.wal.seal }
  | .page no image => { media with file := media.file.writePage no image }
  | .header image => { media with file := media.file.writePage 0 image }
  | .truncate => { media with wal := media.wal.reset }

/-- Make writes in order. -/
def Media.performAll : List DiskWrite → Media → Media
  | [], media => media
  | write :: rest, media => performAll rest (write.perform media)

/-- What a crash leaves to the next open. -/
def Media.crashed (media : Media) : Disk where
  file := media.file
  logs := [media.wal.file]

theorem Media.performAll_append
    (first second : List DiskWrite)
    (media : Media) :
    performAll (first ++ second) media = performAll second (performAll first media) := by
  induction first generalizing media with
  | nil => rfl
  | cons write rest inductionHypothesis => exact inductionHypothesis (write.perform media)

/-- The header and the pages it covers. -/
structure Database where
  metadata : Meta
  /-- The pages between the header and the page count. -/
  pages : UInt32 → Page

/-- The database in a file with this header. -/
def DbFile.database (file : DbFile) (metadata : Meta) : Database where
  metadata := metadata
  pages := fun no => if no ≠ 0 ∧ no < metadata.pageCount then file.pages no else zeroPage

/-- `open_with_pool` yields this database. -/
def Disk.Recovers (disk : Disk) (database : Database) : Prop :=
  ∀ capacity,
    ∃ state,
      Pager.openWithPool disk (.withCapacity capacity) = .ok state ∧
        state.file.database state.metadata = database

namespace PagerState

/-- The files of the pager. -/
def media (state : PagerState) : Media where
  file := state.file
  wal := state.wal

/-- Nothing was written since the last commit. -/
def Idle (state : PagerState) : Prop :=
  state.dirtyPages = ∅ ∧ state.walIndex = []

instance (state : PagerState) : Decidable state.Idle :=
  inferInstanceAs (Decidable (_ ∧ _))

/-- The writes of a commit, none when it has nothing to do. -/
def commitWrites (state : PagerState) (order : List UInt32) : List DiskWrite :=
  if state.Idle then []
  else
    (state.flushed order).map (fun write => .record write.1 write.2) ++
      .marker :: ((state.commitLog order).map (fun write => .page write.1 write.2) ++
        [.header (encodeHeader state.metadata), .truncate])

end PagerState

/-! ## Replaying what is left -/

theorem DiskWrite.perform_length
    (write : DiskWrite)
    (media : Media) :
    media.file.length ≤ (write.perform media).file.length := by
  cases write with
  | record no image => exact Nat.le_refl _
  | marker => exact Nat.le_refl _
  | page no image => exact Nat.le_max_left _ _
  | header image => exact Nat.le_max_left _ _
  | truncate => exact Nat.le_refl _

/-- No write shortens the file. -/
theorem Media.performAll_length
    (writes : List DiskWrite)
    (media : Media) :
    media.file.length ≤ (performAll writes media).file.length := by
  induction writes generalizing media with
  | nil => exact Nat.le_refl _
  | cons write rest inductionHypothesis =>
      exact Nat.le_trans (write.perform_length media)
        (inductionHypothesis (write.perform media))

theorem recoverLogs_length
    (logs : List (List WalRecord))
    (file : DbFile) :
    file.length ≤ (recoverLogs logs file).length := by
  induction logs generalizing file with
  | nil => exact Nat.le_refl _
  | cons log rest inductionHypothesis =>
      refine Nat.le_trans ?_ (inductionHypothesis _)
      simp only [Wal.recover]
      split
      · exact DbFile.length_le_writeAll _ _
      · exact Nat.le_refl _

theorem recoverLogs_unsealed
    {log : List WalRecord}
    (unsealed : scan 0 log = false)
    (file : DbFile) :
    recoverLogs [log] file = file := by
  simp only [recoverLogs, Wal.recover, unsealed, Bool.false_eq_true, if_false]

theorem recoverLogs_sealed
    {log : List WalRecord}
    (complete : scan 0 log = true)
    (file : DbFile) :
    recoverLogs [log] file = file.writeAll (pageWrites log) := by
  simp only [recoverLogs, Wal.recover, complete, if_true]
  rfl

/-- Recovery of a file with a page in it is a matter of its header. -/
theorem Disk.recovers_iff
    {disk : Disk}
    {database : Database}
    (nonempty : (recoverLogs disk.logs disk.file).length ≠ 0) :
    disk.Recovers database ↔
      ∃ metadata,
        decodeHeader ((recoverLogs disk.logs disk.file).pages 0) = .ok metadata ∧
          (recoverLogs disk.logs disk.file).database metadata = database := by
  constructor
  · intro recovers
    obtain ⟨state, opened, same⟩ := recovers 1
    unfold Pager.openWithPool at opened
    dsimp only at opened
    rw [if_neg nonempty] at opened
    split at opened
    · cases opened
    · next metadata header =>
        cases opened
        exact ⟨metadata, header, same⟩
  · rintro ⟨metadata, header, same⟩ capacity
    refine ⟨PagerState.reopened (recoverLogs disk.logs disk.file) metadata capacity, ?_, same⟩
    unfold Pager.openWithPool
    dsimp only
    rw [if_neg nonempty, header]
    rfl

/-- Two databases with one header agree on the pages below its count. -/
theorem DbFile.database_eq_iff
    {file other : DbFile}
    {metadata otherMetadata : Meta} :
    file.database metadata = other.database otherMetadata ↔
      metadata = otherMetadata ∧
        ∀ no, no ≠ 0 → no < metadata.pageCount → file.pages no = other.pages no := by
  constructor
  · intro same
    obtain ⟨sameHeader, samePages⟩ := Database.mk.inj same
    subst sameHeader
    refine ⟨rfl, fun no nonzero inside => ?_⟩
    have here := congrFun samePages no
    rwa [if_pos ⟨nonzero, inside⟩, if_pos ⟨nonzero, inside⟩] at here
  · rintro ⟨rfl, samePages⟩
    unfold database
    congr 1
    funext no
    by_cases covered : no ≠ 0 ∧ no < metadata.pageCount
    · rw [if_pos covered, if_pos covered, samePages no covered.1 covered.2]
    · rw [if_neg covered, if_neg covered]

namespace PagerState

section Writes

variable {state next : PagerState} {order : List UInt32}

/-- Appending records keeps the file and leaves the log without a marker. -/
theorem performAll_records
    (records : List (UInt32 × Page))
    {media : Media}
    (unsealed : media.wal.Unsealed) :
    let after := media.performAll (records.map fun write => .record write.1 write.2)
    after.file = media.file ∧ after.wal.Unsealed ∧
      after.wal.appended = media.wal.appended ++ records := by
  induction records generalizing media with
  | nil => exact ⟨rfl, unsealed, (List.append_nil _).symm⟩
  | cons write rest inductionHypothesis =>
      obtain ⟨file, later, appended⟩ :=
        @inductionHypothesis { media with wal := (media.wal.appendPage write.1 write.2).2 }
          (unsealed.appendPage write.1 write.2)
      refine ⟨file, later, appended.trans ?_⟩
      simp only [unsealed.appended_appendPage, List.append_assoc, List.singleton_append]

/-- Copying pages leaves the log alone. -/
theorem performAll_pages
    (pages : List (UInt32 × Page))
    (media : Media) :
    media.performAll (pages.map fun write => .page write.1 write.2) =
      { media with file := media.file.writeAll pages } := by
  induction pages generalizing media with
  | nil => rfl
  | cons write rest inductionHypothesis =>
      exact inductionHypothesis { media with file := media.file.writePage write.1 write.2 }

theorem commitWrites_perform
    (coherent : state.Coherent)
    (busy : ¬state.Idle)
    (committed : Committed state order next) :
    state.media.performAll (state.commitWrites order) = next.media := by
  have unsealed : state.media.wal.Unsealed := coherent.pager.wal
  obtain ⟨file, -, -⟩ := performAll_records (state.flushed order) unsealed
  rw [commitWrites, if_neg busy, Media.performAll_append, Media.performAll, Media.performAll_append, performAll_pages]
  simp only [Media.performAll, DiskWrite.perform]
  unfold media at *
  congr 1
  · rw [committed.file]
    exact congrArg
      (fun before =>
        (before.writeAll (state.commitLog order)).writePage 0 (encodeHeader state.metadata))
      file
  · exact committed.wal.symm

/-- The files a crash after `count` writes of the commit leaves. -/
def crashAfter (state : PagerState) (order : List UInt32) (count : Nat) : Disk :=
  (state.media.performAll ((state.commitWrites order).take count)).crashed

/-- The last header a recovery from that crash writes or finds. -/
def headerAfter (state : PagerState) (order : List UInt32) (count : Nat) : Page :=
  (WriteLog.lastWrite 0 (state.commitLog order)).getD
    (if (state.flushed order).length + (state.commitLog order).length + 1 < count then
      encodeHeader state.metadata
    else state.file.pages 0)

theorem commitWrites_length
    (busy : ¬state.Idle)
    (order : List UInt32) :
    (state.commitWrites order).length =
      (state.flushed order).length + (state.commitLog order).length + 3 := by
  simp only [commitWrites, if_neg busy, List.length_append, List.length_map, List.length_cons,
    List.length_nil]
  omega

/-- Without the marker nothing is replayed. -/
theorem recovered_unsealed
    (coherent : state.Coherent)
    {count : Nat}
    (early : count ≤ (state.flushed order).length)
    (busy : ¬state.Idle) :
    recoverLogs (state.crashAfter order count).logs (state.crashAfter order count).file =
      state.file := by
  have unsealed : state.media.wal.Unsealed := coherent.pager.wal
  have taken :
      (state.commitWrites order).take count =
        ((state.flushed order).take count).map fun write =>
          DiskWrite.record write.1 write.2 := by
    rw [commitWrites, if_neg busy, List.take_append_of_le_length (by rwa [List.length_map]),
      List.map_take]
  obtain ⟨file, later, -⟩ :=
    performAll_records ((state.flushed order).take count) unsealed
  simp only [crashAfter, Media.crashed, taken]
  rw [recoverLogs_unsealed later.scan_false]
  exact file

/-- From the marker to the reset the whole log is replayed over what was applied. -/
theorem recovered_sealed
    (coherent : state.Coherent)
    (busy : ¬state.Idle)
    {count : Nat}
    (late : (state.flushed order).length < count)
    (unfinished : count < (state.commitWrites order).length) :
    ∀ no,
      (recoverLogs (state.crashAfter order count).logs
          (state.crashAfter order count).file).pages no =
        if no = 0 then state.headerAfter order count
        else WriteLog.replay (state.commitLog order) state.file.pages no := by
  have unsealed : state.media.wal.Unsealed := coherent.pager.wal
  obtain ⟨file, later, appended⟩ := performAll_records (state.flushed order) unsealed
  have appended :
      (state.media.performAll ((state.flushed order).map fun write =>
        .record write.1 write.2)).wal.appended = state.commitLog order := appended
  rw [commitWrites_length busy] at unfinished
  obtain ⟨applied, rfl⟩ :
      ∃ applied, count = (state.flushed order).length + (applied + 1) :=
    ⟨count - (state.flushed order).length - 1, by omega⟩
  have taken :
      (state.commitWrites order).take ((state.flushed order).length + (applied + 1)) =
        ((state.flushed order).map fun write => DiskWrite.record write.1 write.2) ++
          .marker :: ((state.commitLog order).map (fun write : UInt32 × Page =>
            DiskWrite.page write.1 write.2) ++
              [DiskWrite.header (encodeHeader state.metadata), .truncate]).take applied := by
    rw [commitWrites, if_neg busy, List.take_append, List.length_map, Nat.add_sub_cancel_left,
      List.take_of_length_le (by rw [List.length_map]; omega), List.take_succ_cons]
  generalize sealedMedia :
    state.media.performAll ((state.flushed order).map fun write =>
      .record write.1 write.2) = logged at file later appended
  -- What is in the file: a prefix of the log, or all of it and the header.
  have written :
      ∃ db,
        state.media.performAll
            ((state.commitWrites order).take
              ((state.flushed order).length + (applied + 1))) =
          { file := db, wal := logged.wal.seal } ∧
        (db.pages =
            WriteLog.replay ((state.commitLog order).take applied) state.file.pages ∧
            applied ≤ (state.commitLog order).length ∨
          db.pages =
            Function.update (WriteLog.replay (state.commitLog order) state.file.pages) 0
              (encodeHeader state.metadata) ∧
            (state.commitLog order).length < applied) := by
    rw [taken, Media.performAll_append, sealedMedia, Media.performAll]
    by_cases partly : applied ≤ (state.commitLog order).length
    · rw [List.take_append_of_le_length (by rwa [List.length_map]), ← List.map_take,
        performAll_pages]
      refine ⟨_, rfl, .inl ⟨?_, partly⟩⟩
      simp only [DiskWrite.perform, DbFile.writeAll_pages, file]
      rfl
    · have all : applied = (state.commitLog order).length + 1 := by omega
      subst all
      rw [List.take_append, List.length_map, Nat.add_sub_cancel_left,
        List.take_of_length_le (by rw [List.length_map]; omega), Media.performAll_append,
        performAll_pages]
      refine ⟨_, rfl, .inr ⟨?_, Nat.lt_succ_self _⟩⟩
      simp only [DiskWrite.perform, DbFile.writePage_pages, DbFile.writeAll_pages, file]
      rfl
  obtain ⟨db, media, contents⟩ := written
  intro no
  simp only [crashAfter, Media.crashed, media]
  rw [recoverLogs_sealed later.scan_seal, later.pageWrites_seal, appended,
    DbFile.writeAll_pages]
  rcases contents with ⟨pages, partly⟩ | ⟨pages, whole⟩
  · rw [pages, WriteLog.replay_after_prefix]
    by_cases header : no = 0
    · subst header
      rw [if_pos rfl, headerAfter, if_neg (by omega), WriteLog.replay_apply]
    · rw [if_neg header]
  · rw [pages, WriteLog.replay_apply]
    by_cases header : no = 0
    · subst header
      rw [if_pos rfl, headerAfter, if_pos (by omega), Function.update_self]
    · rw [if_neg header, Function.update_of_ne header, WriteLog.replay_apply]
      cases WriteLog.lastWrite no (state.commitLog order) <;> rfl

end Writes

end PagerState

namespace Cluster

theorem effect_file
    {cluster next : Cluster}
    {who : Nat}
    {action : PagerAction}
    (effect : Effect cluster who action next) :
    next.shared.file = cluster.shared.file ∨
      ∃ order state,
        PagerState.Committed (cluster.view who) order state ∧
          next.shared.file = state.file := by
  cases effect with
  | still still => exact .inl still.keeps.file
  | fetched fetched => exact .inl (fetched_keeps fetched).2.file
  | staged stages => exact .inl stages.file
  | allocated allocated =>
      obtain ⟨ready, staged, obtained, stages, rfl⟩ := allocated
      refine .inl (stages.file.trans ?_)
      cases obtained with
      | pending listed same => exact same ▸ rfl
      | popped exhausted head nonzero cachedOrSpilled fetched header same =>
          subst same
          exact (fetched_keeps fetched).2.file
      | bumped exhausted empty count header same =>
          subst same
          rfl
  | allocFailed failed =>
      cases failed with
      | unread still => exact .inl still.keeps.file
      | unstaged obtained notPopped still =>
          refine .inl (still.keeps.file.trans ?_)
          cases obtained with
          | pending listed same => exact same ▸ rfl
          | popped exhausted head nonzero cachedOrSpilled fetched header same =>
              subst same
              exact (fetched_keeps fetched).2.file
          | bumped exhausted empty count header same =>
              subst same
              rfl
  | freed stages => exact .inl stages.file
  | idleCommit clean unspilled => exact .inl rfl
  | committed enumerates committed => exact .inr ⟨_, _, committed, rfl⟩
  | vanished enumerates file listed unspilled absent => exact .inl file
  | rolledBack drops drains => exact .inl rfl
  | header pageCount freelistHead => exact .inl rfl

/-- One pager alone on a file whose header can be read. -/
structure SoloDurable (cluster : Cluster) : Prop where
  solo : SoloImages cluster
  nonempty : cluster.shared.file.length ≠ 0
  header : ∃ metadata, decodeHeader (cluster.shared.file.pages 0) = .ok metadata

/-- Every step keeps what a crash would find. -/
theorem SoloDurable.step
    {cluster next : Cluster}
    {action : Nat × PagerAction}
    (durable : SoloDurable cluster)
    (own : Solo cluster action)
    (taken : cluster.step action = some next) :
    SoloDurable next := by
  have effect := step_effect (durable.solo.images.coherent action.1) taken
  have file :
      next.shared.file.length ≠ 0 ∧
        ∃ metadata, decodeHeader (next.shared.file.pages 0) = .ok metadata := by
    rcases effect_file effect with same | ⟨order, state, committed, same⟩
    · rw [same]
      exact ⟨durable.nonempty, durable.header⟩
    · rw [same]
      exact ⟨committed.opens.1, _, committed.opens.2⟩
  exact ⟨durable.solo.step own taken, file.1, file.2⟩

theorem soloDurable_opened
    {state : PagerState}
    (opened : state.Opened)
    (owned : Nat → Finset UInt32)
    (freeList : List (UInt32 × UInt32)) :
    SoloDurable (Cluster.opened state owned freeList) :=
  ⟨soloImages_opened opened owned freeList, opened.nonempty, _, opened.header⟩

end Cluster

namespace PagerState

section Atomicity

variable {state next : PagerState} {order : List UInt32} {count : Nat}

/-- The recovered header is the new one, or the old one over unchanged pages. -/
def OneHeader (state : PagerState) (order : List UInt32) (count : Nat) : Prop :=
  decodeHeader (state.headerAfter order count) = .ok state.metadata ∨
    ∃ metadata,
      decodeHeader (state.headerAfter order count) = .ok metadata ∧
        decodeHeader (state.file.pages 0) = .ok metadata ∧
        ∀ no, no ≠ 0 → no < metadata.pageCount →
          ∀ image ∈ WriteLog.lastWrite no (state.commitLog order),
            image = state.file.pages no

/-- Before the commit the file is what recovery finds. -/
theorem recovers_before_iff
    (coherent : state.Coherent)
    (nonempty : state.file.length ≠ 0)
    (early : count ≤ (state.flushed order).length ∨ state.Idle)
    (database : Database) :
    (state.crashAfter order count).Recovers database ↔
      ∃ metadata,
        decodeHeader (state.file.pages 0) = .ok metadata ∧
          state.file.database metadata = database := by
  have recovered :
      recoverLogs (state.crashAfter order count).logs (state.crashAfter order count).file =
        state.file := by
    by_cases idle : state.Idle
    · simp only [crashAfter, commitWrites, if_pos idle, List.take_nil, Media.performAll,
        Media.crashed]
      exact recoverLogs_unsealed coherent.pager.wal.scan_false state.file
    · exact recovered_unsealed coherent (early.resolve_right idle) idle
  rw [Disk.recovers_iff (recovered ▸ nonempty), recovered]

/-- After the commit the file is what recovery finds. -/
theorem recovers_after_iff
    (committed : Committed state order next)
    (database : Database) :
    next.media.crashed.Recovers database ↔
      next.file.database state.metadata = database := by
  have recovered :
      recoverLogs next.media.crashed.logs next.media.crashed.file = next.file := by
    refine recoverLogs_unsealed ?_ next.file
    simp only [media, committed.wal]
    rfl
  obtain ⟨nonempty, header⟩ := committed.opens
  rw [Disk.recovers_iff (recovered ▸ nonempty), recovered, header, committed.metadata]
  constructor
  · rintro ⟨metadata, same, rfl⟩
    cases same
    rfl
  · rintro rfl
    exact ⟨_, rfl, rfl⟩

theorem committed_pages
    (committed : Committed state order next)
    {no : UInt32}
    (nonzero : no ≠ 0) :
    next.file.pages no =
      (WriteLog.lastWrite no (state.commitLog order)).getD (state.file.pages no) := by
  rw [committed.file, DbFile.writePage_pages, Function.update_of_ne nonzero,
    DbFile.writeAll_pages, WriteLog.replay_apply]

theorem recovers_between_iff
    (coherent : state.Coherent)
    (nonempty : state.file.length ≠ 0)
    (busy : ¬state.Idle)
    (committed : Committed state order next)
    (late : (state.flushed order).length < count)
    (unfinished : count < (state.commitWrites order).length) :
    (∃ database,
        (state.crashAfter order count).Recovers database ∧
          ((state.crashAfter order 0).Recovers database ∨
            next.media.crashed.Recovers database)) ↔
      state.OneHeader order count := by
  have pages := recovered_sealed coherent busy late unfinished
  have long :
      (recoverLogs (state.crashAfter order count).logs
        (state.crashAfter order count).file).length ≠ 0 := by
    have grows : state.file.length ≤
        (recoverLogs (state.crashAfter order count).logs
          (state.crashAfter order count).file).length :=
      Nat.le_trans (Media.performAll_length _ state.media) (recoverLogs_length _ _)
    omega
  simp only [Disk.recovers_iff long, recovers_after_iff committed,
    recovers_before_iff coherent nonempty (.inl (Nat.zero_le _)), pages 0, if_pos]
  constructor
  · rintro ⟨_, ⟨metadata, header, rfl⟩, ⟨old, oldHeader, same⟩ | same⟩
    · obtain ⟨rfl, samePages⟩ := DbFile.database_eq_iff.mp same
      refine .inr ⟨old, header, oldHeader, fun no nonzero inside image last => ?_⟩
      have here := samePages no nonzero inside
      rw [pages no, if_neg nonzero, WriteLog.replay_apply, Option.mem_def.mp last] at here
      exact here.symm
    · obtain ⟨rfl, -⟩ := DbFile.database_eq_iff.mp same
      exact .inl header
  · rintro (header | ⟨metadata, header, oldHeader, unchanged⟩)
    · refine ⟨_, ⟨_, header, rfl⟩, .inr (DbFile.database_eq_iff.mpr ⟨rfl, ?_⟩)⟩
      intro no nonzero _
      rw [committed_pages committed nonzero, pages no, if_neg nonzero,
        WriteLog.replay_apply]
    · refine ⟨_, ⟨_, header, rfl⟩,
        .inl ⟨_, oldHeader, DbFile.database_eq_iff.mpr ⟨rfl, ?_⟩⟩⟩
      intro no nonzero inside
      rw [pages no, if_neg nonzero, WriteLog.replay_apply]
      cases last : WriteLog.lastWrite no (state.commitLog order) with
      | none => rfl
      | some image => exact (unchanged no nonzero inside image last).symm

end Atomicity

end PagerState

/--
A crash after `count` of the writes of a commit recovers to the database before
the commit or to the one after it, exactly when the marker is not yet written, or
the log is reset, or the header that recovery ends with fits one of the two.
-/
theorem commit_crash_atomic_iff
    {disk : Disk}
    {capacity : Nat}
    {state next : PagerState}
    {owned : Nat → Finset UInt32}
    {freeList : List (UInt32 × UInt32)}
    {actions : List (Nat × PagerAction)}
    {cluster : Cluster}
    {order : List UInt32}
    (opened : Pager.openWithPool disk (.withCapacity capacity) = .ok state)
    (run : Run Cluster.step Cluster.Solo (.opened state owned freeList) actions cluster)
    (committed : (cluster.view 0).commit order = (.ok (), next))
    (count : Nat) :
    (∃ database,
        ((cluster.view 0).crashAfter order count).Recovers database ∧
          (((cluster.view 0).crashAfter order 0).Recovers database ∨
            next.media.crashed.Recovers database)) ↔
      count ≤ ((cluster.view 0).flushed order).length ∨
        ((cluster.view 0).commitWrites order).length ≤ count ∨
        (cluster.view 0).OneHeader order count := by
  have durable : Cluster.SoloDurable cluster :=
    Run.invariant Cluster.SoloDurable (fun durable own taken => durable.step own taken) run
      (Cluster.soloDurable_opened (PagerState.openWithPool_spec opened) owned freeList)
  have coherent := durable.solo.images.coherent 0
  have nonempty : (cluster.view 0).file.length ≠ 0 := durable.nonempty
  obtain ⟨old, oldHeader⟩ := durable.header
  have atBefore :
      (count ≤ ((cluster.view 0).flushed order).length ∨ (cluster.view 0).Idle) →
        ∃ database,
          ((cluster.view 0).crashAfter order count).Recovers database ∧
            (((cluster.view 0).crashAfter order 0).Recovers database ∨
              next.media.crashed.Recovers database) := by
    intro early
    refine ⟨(cluster.view 0).file.database old, ?_, .inl ?_⟩
    · exact (PagerState.recovers_before_iff coherent nonempty early _).mpr
        ⟨old, oldHeader, rfl⟩
    · exact (PagerState.recovers_before_iff coherent nonempty (.inl (Nat.zero_le _)) _).mpr
        ⟨old, oldHeader, rfl⟩
  by_cases idle : (cluster.view 0).Idle
  · have nothing : ((cluster.view 0).commitWrites order).length ≤ count := by
      simp only [PagerState.commitWrites, if_pos idle, List.length_nil, Nat.zero_le]
    exact ⟨fun _ => .inr (.inl nothing), fun _ => atBefore (.inr idle)⟩
  · rcases PagerState.commit_spec coherent order with
      ⟨clean, unspilled, -⟩ | ⟨after, result, done⟩ | ⟨error, after, no, result, -⟩
    · exact absurd ⟨clean, unspilled⟩ idle
    · obtain rfl : after = next := (Prod.mk.inj (result.symm.trans committed)).2
      by_cases early : count ≤ ((cluster.view 0).flushed order).length
      · exact ⟨fun _ => .inl early, fun _ => atBefore (.inl early)⟩
      · by_cases finished : ((cluster.view 0).commitWrites order).length ≤ count
        · refine ⟨fun _ => .inr (.inl finished), fun _ => ?_⟩
          have whole :
              (cluster.view 0).crashAfter order count = after.media.crashed := by
            rw [PagerState.crashAfter, List.take_of_length_le finished,
              PagerState.commitWrites_perform coherent idle done]
          have afterRecovers :=
            (PagerState.recovers_after_iff done _).mpr rfl
          exact ⟨_, whole ▸ afterRecovers, .inr afterRecovers⟩
        · rw [PagerState.recovers_between_iff coherent nonempty idle done (by omega)
            (by omega)]
          exact ⟨fun one => .inr (.inr one), fun any =>
            (any.resolve_left early).resolve_left finished⟩
    · cases result.symm.trans committed

/-- A crash while the records are written recovers to the database before the commit. -/
theorem commit_crash_before_marker :
    ∃ state cluster next,
      Pager.openWithPool { file := .empty, logs := [] } (.withCapacity 4) = .ok state ∧
        Run Cluster.step Cluster.Solo (.opened state (fun _ => ∅) [])
          [(0, .allocPage), (0, .writePage 1 (filled 0xAA))] cluster ∧
        (cluster.view 0).commit [1] = (.ok (), next) ∧
        ∃ database,
          ((cluster.view 0).crashAfter [1] 1).Recovers database ∧
            (((cluster.view 0).crashAfter [1] 0).Recovers database ∨
              next.media.crashed.Recovers database) := by
  have evaluated :
      ((createdWith 4).bind fun state =>
        (replay Cluster.step Cluster.Solo (.opened state (fun _ => ∅) [])
          [(0, .allocPage), (0, .writePage 1 (filled 0xAA))]).map fun cluster =>
            (((cluster.view 0).commit [1]).1.toOption,
              ((cluster.view 0).flushed [1]).length)) =
        some (some (), 1) := by
    decide +kernel
  obtain ⟨state, created, replayed⟩ := Option.bind_eq_some_iff.mp evaluated
  obtain ⟨cluster, result, values⟩ := Option.map_eq_some_iff.mp replayed
  simp only [Prod.mk.injEq] at values
  obtain ⟨ok, records⟩ := values
  have opened := openWithPool_of_createdWith created
  have run := run_of_replay result
  cases done : (cluster.view 0).commit [1] with
  | mk answer next =>
      rw [done] at ok
      cases answer with
      | error error => cases ok
      | ok _ =>
          exact ⟨state, cluster, next, opened, run, done,
            (commit_crash_atomic_iff opened run done 1).mpr
              (.inl (Nat.le_of_eq records.symm))⟩

/-- The second transaction rewrites page 1 and allocates page 2. -/
def secondTransaction : List (Nat × PagerAction) :=
  [(0, .allocPage), (0, .writePage 1 (filled 0xAA)), (0, .commit [1]),
    (0, .writePage 1 (filled 0xBB)), (0, .allocPage)]

/-- A crash right after its marker recovers the new page under the old header. -/
theorem commit_crash_mixes_databases :
    ∃ state cluster next,
      Pager.openWithPool { file := .empty, logs := [] } (.withCapacity 4) = .ok state ∧
        Run Cluster.step Cluster.Solo (.opened state (fun _ => ∅) []) secondTransaction
          cluster ∧
        PagerState.Enumerates [1, 2] ((cluster.pagers 0).dirtyPages.erase 0) ∧
        (cluster.view 0).commit [1, 2] = (.ok (), next) ∧
        ¬∃ database,
          ((cluster.view 0).crashAfter [1, 2] 3).Recovers database ∧
            (((cluster.view 0).crashAfter [1, 2] 0).Recovers database ∨
              next.media.crashed.Recovers database) := by
  have evaluated :
      ((createdWith 4).bind fun state =>
        (replay Cluster.step Cluster.Solo (.opened state (fun _ => ∅) [])
          secondTransaction).map fun cluster =>
            (decide ((cluster.pagers 0).dirtyPages = {1, 2} ∧
                ((cluster.view 0).flushed [1, 2]).length = 2 ∧
                cluster.shared.metadata.pageCount = 3),
              (decodeHeader ((cluster.view 0).headerAfter [1, 2] 3)).toOption.map
                Meta.pageCount,
              (WriteLog.lastWrite 1 ((cluster.view 0).commitLog [1, 2])).map
                fun image => image.slice 0 0,
              (cluster.shared.file.pages 1).slice 0 0,
              ((cluster.view 0).commit [1, 2]).1.toOption)) =
        some (true, some 2, some 0xBB, 0xAA, some ()) := by
    decide +kernel
  obtain ⟨state, created, replayed⟩ := Option.bind_eq_some_iff.mp evaluated
  obtain ⟨cluster, result, values⟩ := Option.map_eq_some_iff.mp replayed
  simp only [Prod.mk.injEq, decide_eq_true_eq, Option.map_eq_some_iff] at values
  obtain ⟨⟨dirtyPages, records, pageCount⟩, ⟨found, header, oldCount⟩,
    ⟨image, last, newByte⟩, oldByte, ok⟩ := values
  have opened := openWithPool_of_createdWith created
  have run := run_of_replay result
  have durable : Cluster.SoloDurable cluster :=
    Run.invariant Cluster.SoloDurable (fun durable own taken => durable.step own taken) run
      (Cluster.soloDurable_opened (PagerState.openWithPool_spec opened) _ _)
  have coherent := durable.solo.images.coherent 0
  have enumerates :
      PagerState.Enumerates [1, 2] ((cluster.pagers 0).dirtyPages.erase 0) := by
    rw [dirtyPages]
    decide
  have busy : ¬(cluster.view 0).Idle := by
    intro idle
    have clean : (cluster.pagers 0).dirtyPages = ∅ := idle.1
    rw [dirtyPages] at clean
    exact absurd clean (by decide)
  have decoded :
      decodeHeader ((cluster.view 0).headerAfter [1, 2] 3) = .ok found := by
    cases answer : decodeHeader ((cluster.view 0).headerAfter [1, 2] 3) with
    | error error =>
        rw [answer] at header
        cases header
    | ok metadata =>
        rw [answer] at header
        cases header
        rfl
  rcases PagerState.commit_spec coherent [1, 2] with
    ⟨clean, unspilled, -⟩ | ⟨next, done, committed⟩ | ⟨error, next, no, done, -⟩
  · exact absurd ⟨clean, unspilled⟩ busy
  · refine ⟨state, cluster, next, opened, run, enumerates, done, ?_⟩
    have writes := PagerState.commitWrites_length busy [1, 2]
    rw [PagerState.recovers_between_iff coherent durable.nonempty busy committed
      (by omega) (by omega)]
    rintro (same | ⟨old, sameHeader, -, unchanged⟩)
    · rw [decoded] at same
      cases same
      exact absurd (oldCount.symm.trans pageCount) (by decide)
    · rw [decoded] at sameHeader
      cases sameHeader
      have kept : image = cluster.shared.file.pages 1 :=
        unchanged 1 (by decide) (by rw [oldCount]; decide) image last
      rw [← kept, newByte] at oldByte
      exact absurd oldByte (by decide)
  · rw [done] at ok
    cases ok

end PrehniteDB
