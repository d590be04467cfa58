import PrehniteDB.ConflictTracking

namespace PrehniteDB.Interleaving

/-!
# Every conflict of a tracked run is recorded

`Recorded` is preserved by every tracked step: a scan either sees the other
side's outcome or meets its tombstone, and a write finds the read locks of
every concurrent reader.
-/

variable {Values : Type}

namespace Recorded

variable {state next : State Values}

theorem initial : Recorded (initial : State Values) where
  deleted := by simp [Interleaving.initial]
  unseenDelete := by simp [Interleaving.initial]
  inserted := by simp [Interleaving.initial]
  notPivot := by
    intro txId _ inFlag
    cases inFlag

/-- What is on record stays accounted for. -/
theorem deleted_progress
    (recorded : Recorded state)
    (provenance : Provenance state)
    (progress : Progress state next)
    {reader : Nat}
    {overwrite : Overwrite}
    (member : overwrite ∈ state.trail.overwrites)
    (touched : state.Touched reader overwrite.row)
    (different : reader ≠ overwrite.writer)
    (readerLive : next.Live reader)
    (writerLive : next.Live overwrite.writer) :
    next.Accounted reader overwrite.writer :=
  progress.accounted
    (provenance.toucher touched).2
    (provenance.overwriter member).2
    (recorded.deleted reader overwrite member touched different
      (progress.live _ readerLive) (progress.live _ writerLive))

theorem unseenDelete_progress
    (recorded : Recorded state)
    (provenance : Provenance state)
    (progress : Progress state next)
    {reader : Nat}
    {overwrite : Overwrite}
    (member : overwrite ∈ state.trail.overwrites)
    (read : state.trail.reads reader overwrite.row = true)
    (different : reader ≠ overwrite.writer)
    (writerLive : next.Live overwrite.writer) :
    ¬ next.PastFor reader overwrite.writer := by
  rw [progress.past _ _ (provenance.reader reader overwrite.row read).2]
  exact recorded.unseenDelete reader overwrite member read different
    (progress.live _ writerLive)

theorem inserted_progress
    (recorded : Recorded state)
    (provenance : Provenance state)
    (progress : Progress state next)
    {reader : Nat}
    {row : RowKey}
    {record : RowRecord Values}
    (scanned : state.Scanned reader row)
    (stored : state.rows row = some record)
    (different : reader ≠ record.txMin)
    (readerLive : next.Live reader)
    (writerLive : next.Live record.txMin) :
    next.Accounted reader record.txMin := by
  obtain ⟨tableRoot, access, member, covered⟩ := scanned
  exact progress.accounted
    (provenance.scanner reader tableRoot access member).2
    (provenance.creator row record stored).2
    (recorded.inserted reader row record ⟨tableRoot, access, member, covered⟩
      stored different (progress.live _ readerLive)
      (progress.live _ writerLive))

/-- Flags of a committed transaction are frozen. -/
theorem notPivot_statement
    (recorded : Recorded state)
    (lifecycle : Lifecycle state)
    (statement : Statement state next)
    {txId : Nat}
    (committed : next.tx.clog.status txId = some .committed)
    (inFlag : (next.tx.ssi.entry txId).inConflict = true) :
    (next.tx.ssi.entry txId).outConflict = false := by
  rw [statement.clog] at committed
  have ended := lifecycle.ended_of_status (by simp [committed] :
    state.tx.clog.status txId ≠ none)
  have frozen := statement.ssi.dropped txId (by
    rw [lifecycle.tracked]
    exact ended.2.2)
  rw [frozen] at inFlag ⊢
  exact recorded.notPivot txId committed inFlag

/-- A step that reads and writes no row only has to account for its flags. -/
theorem quiet
    (recorded : Recorded state)
    (provenance : Provenance state)
    (progress : Progress state next)
    (sameRows : next.rows = state.rows)
    (sameIndex : next.index = state.index)
    (sameReads : next.trail.reads = state.trail.reads)
    (sameScans : next.trail.scans = state.trail.scans)
    (sameOverwrites : next.trail.overwrites = state.trail.overwrites)
    (notPivot :
      ∀ txId,
        next.tx.clog.status txId = some .committed →
        (next.tx.ssi.entry txId).inConflict = true →
        (next.tx.ssi.entry txId).outConflict = false) :
    Recorded next where
  deleted := by
    intro reader overwrite member touched different readerLive writerLive
    rw [sameOverwrites] at member
    rw [State.Touched, sameReads, sameScans] at touched
    exact recorded.deleted_progress provenance progress member touched
      different readerLive writerLive
  unseenDelete := by
    intro reader overwrite member read different writerLive
    rw [sameOverwrites] at member
    rw [sameReads] at read
    exact recorded.unseenDelete_progress provenance progress member read
      different writerLive
  inserted := by
    intro reader row record scanned stored different readerLive writerLive
    rw [State.Scanned, sameScans, sameIndex] at scanned
    rw [sameRows] at stored
    exact recorded.inserted_progress provenance progress scanned stored
      different readerLive writerLive
  notPivot := notPivot

theorem begin
    (recorded : Recorded state)
    (provenance : Provenance state)
    (lifecycle : Lifecycle state) :
    Recorded state.begin := by
  refine recorded.quiet provenance (.begin state) rfl rfl rfl rfl rfl ?_
  intro txId committed inFlag
  rw [State.begin_clog] at committed
  have ended := lifecycle.ended_of_status (by simp [committed] :
    state.tx.clog.status txId ≠ none)
  have different : txId ≠ state.tx.nextTxId := Nat.ne_of_lt ended.2.1
  simp only [State.begin_ssi, SsiMap.insert, Function.update_of_ne different]
    at inFlag ⊢
  exact recorded.notPivot txId committed inFlag

theorem resolve
    (recorded : Recorded state)
    (provenance : Provenance state)
    (lifecycle : Lifecycle state)
    {txId : Nat}
    {session : Session Values}
    (running : state.session txId = some session)
    {outcome : Status}
    (passed :
      outcome = .committed → state.tx.ssiCheckCommit txId = .ok ()) :
    Recorded (state.resolve txId outcome) := by
  refine recorded.quiet provenance (.resolve lifecycle running outcome)
    rfl rfl rfl rfl rfl ?_
  intro other committed inFlag
  by_cases same : other = txId
  · subst same
    have above : state.tx.clog.minTxId ≤ other := by simp [lifecycle.floor]
    rw [State.resolve_clog, Clog.status_append_self above,
      Option.some.injEq] at committed
    have check := passed committed
    have present : other ∈ state.tx.ssi.keys := by
      rw [lifecycle.tracked]
      exact lifecycle.active running
    simp only [State.resolve_ssi, SsiMap.remove] at inFlag ⊢
    by_contra outFlag
    simp only [Bool.not_eq_false] at outFlag
    rw [TxState.ssiCheckCommit, if_pos ⟨present, inFlag, outFlag⟩] at check
    cases check
  · rw [State.resolve_clog, Clog.status_append_other same] at committed
    exact recorded.notPivot other committed inFlag

theorem setSession
    (recorded : Recorded state)
    (provenance : Provenance state)
    {txId : Nat}
    {session changed : Session Values}
    (running : state.session txId = some session)
    (sameSnapshot : changed.snapshot = session.snapshot) :
    Recorded (state.setSession txId changed) :=
  recorded.quiet provenance (.setSession state running sameSnapshot)
    rfl rfl rfl rfl rfl recorded.notPivot

/-- An index scan that returns a version tombstoned in flight raises both flags. -/
theorem scanLocks_flagged
    {snapshot : Snapshot}
    {txId : Nat}
    {tableRoot : UInt32}
    {access : AccessPath}
    {row : RowKey}
    {record : RowRecord Values}
    (own : snapshot.ownTx = some txId)
    (present : txId ∈ state.tx.ssi.keys)
    (byIndex : access ≠ .fullScan)
    (covered : access.covers state.index tableRoot row = true)
    (seen : state.sees snapshot row = true)
    (stored : state.rows row = some record)
    (stampPresent : record.txMax ∈ state.tx.ssi.keys)
    (foreign : record.txMax ≠ txId)
    (stamped : record.txMax ≠ 0) :
    ((state.scanLocks snapshot tableRoot access).entry txId).outConflict = true ∧
      ((state.scanLocks snapshot tableRoot access).entry
        record.txMax).inConflict = true := by
  cases access with
  | fullScan => exact (byIndex rfl).elim
  | indexScan indexRoot lower upper =>
      apply scanLocks_row
        (fun map =>
          (map.entry txId).outConflict = true ∧
            (map.entry record.txMax).inConflict = true)
        (fun extended flags =>
          ⟨(extended.grows _).outFlag flags.1,
            (extended.grows _).inFlag flags.2⟩)
        own covered seen
      intro map sameKeys
      have tombstoneBy : state.tombstoneBy row = some record.txMax := by
        simp [State.tombstoneBy, stored, stamped]
      rw [tombstoneBy]
      exact SsiMap.recordRead_flags _ _ (sameKeys ▸ present)
        (sameKeys ▸ stampPresent) foreign

/-- A stamp the scanning snapshot does not see belongs to no past transaction. -/
theorem not_past_of_unseen
    (lifecycle : Lifecycle state)
    {txId writer : Nat}
    {session : Session Values}
    (running : state.session txId = some session)
    (assigned : 0 < writer ∧ writer < state.tx.nextTxId)
    (live : state.Live writer)
    (unseen : ¬ session.snapshot.Sees state.tx.clog writer) :
    ¬ session.snapshot.Past writer := by
  by_cases active : writer ∈ state.tx.inFlight
  · exact lifecycle.activePast txId session.snapshot writer
      (lifecycle.pinned txId session running) active
  · intro past
    obtain ⟨outcome, answer⟩ := Option.isSome_iff_exists.mp
      (lifecycle.resolved writer assigned.1 assigned.2 active)
    cases outcome with
    | committed => exact unseen ⟨answer, past⟩
    | rolledBack => exact live answer

theorem scan
    (recorded : Recorded state)
    (provenance : Provenance state)
    (lifecycle : Lifecycle state)
    (stamped : Stamped state)
    {txId : Nat}
    {tableRoot : UInt32}
    {access : AccessPath}
    {session : Session Values}
    (opened : state.openSession txId = some session)
    (tracked : state.ScanTracked txId tableRoot access) :
    Recorded (state.scan txId session.snapshot tableRoot access) := by
  have running := session_of_openSession opened
  have own := lifecycle.ownTx running
  have pinned := lifecycle.pinned txId session running
  have progress :=
    Provenance.progress_scan state txId session.snapshot tableRoot access
  have present : txId ∈ state.tx.ssi.keys := by
    rw [lifecycle.tracked]
    exact lifecycle.active running
  have oldOrNewRead :
      ∀ reader row,
        (state.scan txId session.snapshot tableRoot access).trail.reads
            reader row = true →
        state.trail.reads reader row = true ∨
          (reader = txId ∧
            state.returned session.snapshot tableRoot access row = true) := by
    intro reader row read
    simpa [State.scan] using read
  constructor
  · intro reader overwrite member touched different readerLive writerLive
    have assigned := provenance.overwriter member
    -- The new access reaches the version and finds the writer's stamp on it.
    have accounted :
        reader = txId →
        access.covers state.index tableRoot overwrite.row = true →
        (access ≠ .fullScan →
          state.sees session.snapshot overwrite.row = true) →
        (state.scan txId session.snapshot tableRoot access).Accounted
          reader overwrite.writer := by
      rintro rfl covered seen
      obtain ⟨record, stored, stamp⟩ :=
        stamped.kept overwrite member writerLive
      rcases (tracked session opened overwrite.row record stored covered).2 with
        zero | mine | dead | past | ⟨byIndex, stampPresent⟩
      · omega
      · exact (different (mine.symm.trans stamp)).elim
      · rw [stamp] at dead
        exact (writerLive dead).elim
      · rw [stamp] at past
        exact .inl ⟨session.snapshot, pinned, past.2⟩
      · have flags := scanLocks_flagged own present byIndex covered
          (seen byIndex) stored stampPresent
          (fun mine => different (mine.symm.trans stamp))
          (by omega)
        rw [stamp] at flags
        exact .inr (.inr flags)
    rcases touched with read | wholeTable
    · rcases oldOrNewRead reader overwrite.row read with old | ⟨new, returned⟩
      · exact recorded.deleted_progress provenance progress member (.inl old)
          different readerLive writerLive
      · obtain ⟨covered, seen⟩ := Bool.and_eq_true_iff.mp returned
        exact accounted new covered fun _ => seen
    · rcases List.mem_cons.mp wholeTable with new | old
      · obtain ⟨sameReader, rest⟩ := Prod.mk.inj new
        obtain ⟨sameRoot, sameAccess⟩ := Prod.mk.inj rest
        refine accounted sameReader ?_ fun byIndex =>
          (byIndex sameAccess.symm).elim
        simp [AccessPath.covers, ← sameAccess, sameRoot]
      · exact recorded.deleted_progress provenance progress member (.inr old)
          different readerLive writerLive
  · intro reader overwrite member read different writerLive
    rcases oldOrNewRead reader overwrite.row read with old | ⟨rfl, returned⟩
    · exact recorded.unseenDelete_progress provenance progress member old
        different writerLive
    · obtain ⟨_, record, stored, visible⟩ := returned_iff.mp returned
      obtain ⟨kept, keptStored, stamp⟩ :=
        stamped.kept overwrite member writerLive
      obtain rfl := Option.some.inj (stored.symm.trans keptStored)
      have assigned := provenance.overwriter member
      rintro ⟨snapshot, taken, past⟩
      obtain rfl := Option.some.inj (pinned.symm.trans taken)
      rcases (Snapshot.visible_iff.mp visible).2 with zero | ⟨_, unseen⟩
      · omega
      · rw [stamp] at unseen
        exact not_past_of_unseen lifecycle running assigned writerLive unseen
          past
  · intro reader row record scanned stored different readerLive writerLive
    obtain ⟨root, path, member, covered⟩ := scanned
    rcases List.mem_cons.mp member with new | old
    · obtain ⟨rfl, rest⟩ := Prod.mk.inj new
      obtain ⟨rfl, rfl⟩ := Prod.mk.inj rest
      rcases (tracked session opened row record stored covered).1 with
        mine | dead | seen
      · exact (different mine.symm).elim
      · exact (writerLive dead).elim
      · exact .inl ⟨session.snapshot, pinned, seen.2⟩
    · exact recorded.inserted_progress provenance progress
        ⟨root, path, old, covered⟩ stored different readerLive writerLive
  · intro other committed inFlag
    exact recorded.notPivot_statement lifecycle
      (.scan state txId session.snapshot tableRoot access) committed inFlag

/-- A transaction that has not rolled back is in the SSI map or has committed. -/
theorem present_or_committed
    (lifecycle : Lifecycle state)
    {txId : Nat}
    (assigned : 0 < txId ∧ txId < state.tx.nextTxId)
    (live : state.Live txId) :
    txId ∈ state.tx.ssi.keys ∨
      state.tx.clog.status txId = some .committed := by
  by_cases active : txId ∈ state.tx.inFlight
  · left
    rw [lifecycle.tracked]
    exact active
  · right
    obtain ⟨outcome, answer⟩ := Option.isSome_iff_exists.mp
      (lifecycle.resolved txId assigned.1 assigned.2 active)
    cases outcome with
    | committed => exact answer
    | rolledBack => exact (live answer).elim

/-- A writer that finds a reader's lock raises both flags. -/
theorem flagged_of_markReaders
    {ssi : SsiMap}
    {reader writer : Nat}
    {covers : ReadLock → Bool}
    {lock : ReadLock}
    (readerPresent : reader ∈ ssi.keys)
    (writerPresent : writer ∈ ssi.keys)
    (different : reader ≠ writer)
    (held : lock ∈ (ssi.entry reader).readSet)
    (covered : covers lock = true) :
    ((ssi.markReaders writer covers).entry reader).outConflict = true ∧
      ((ssi.markReaders writer covers).entry writer).inConflict = true := by
  have found := SsiMap.mem_readers readerPresent different held covered
  exact ⟨SsiMap.markReaders_out found,
    SsiMap.markReaders_in found writerPresent⟩

/-- What a reader of the row holds runs into the tombstone. -/
theorem lock_of_touched
    (provenance : Provenance state)
    {reader : Nat}
    {row : RowKey}
    (touched : state.Touched reader row) :
    ∃ lock ∈ (state.tx.ssi.entry reader).readSet,
      lock.coversWrite row.tableRoot row.rowid = true := by
  rcases touched with read | wholeTable
  · rcases provenance.readLocked reader row read with relation | tuple
    · exact ⟨_, relation, by simp [ReadLock.coversWrite]⟩
    · exact ⟨_, tuple, by simp [ReadLock.coversWrite]⟩
  · exact ⟨_, provenance.scanLocked reader _ _ wholeTable,
      by simp [ReadLock.coversWrite, AccessPath.lock]⟩

theorem writeTombstone
    (recorded : Recorded state)
    (provenance : Provenance state)
    (lifecycle : Lifecycle state)
    {txId : Nat}
    {row : RowKey}
    {session : Session Values}
    {record : RowRecord Values}
    (running : state.session txId = some session)
    (candidate : session.candidates row = some record)
    (tracked :
      ∀ reader,
        state.Touched reader row →
        state.tx.clog.status reader = some .committed →
        state.PastFor txId reader) :
    Recorded (state.writeTombstone txId row record) := by
  have progress := provenance.progress_writeTombstone running candidate
  have active := lifecycle.active running
  have writerPresent : txId ∈ state.tx.ssi.keys := by
    rw [lifecycle.tracked]
    exact active
  constructor
  · intro reader overwrite member touched different readerLive writerLive
    rcases List.mem_cons.mp member with rfl | member
    · replace touched : state.Touched reader row := touched
      have readerAssigned := provenance.toucher touched
      rcases present_or_committed lifecycle readerAssigned
          (progress.live _ readerLive) with readerPresent | committed
      · obtain ⟨lock, held, covered⟩ :=
          lock_of_touched provenance touched
        exact .inr (.inr (flagged_of_markReaders readerPresent writerPresent
          different held covered))
      · exact .inr (.inl (tracked reader touched committed))
    · exact recorded.deleted_progress provenance progress member touched
        different readerLive writerLive
  · intro reader overwrite member read different writerLive
    rcases List.mem_cons.mp member with rfl | member
    · rintro ⟨snapshot, taken, past⟩
      exact lifecycle.activePast reader snapshot txId taken active past
    · exact recorded.unseenDelete_progress provenance progress member read
        different writerLive
  · intro reader other stored scanned present different readerLive writerLive
    by_cases same : other = row
    · subst same
      obtain ⟨_, found, foundPresent, sameCreator⟩ :=
        (provenance.worked txId session running).collected other record candidate
      simp only [State.writeTombstone, Function.update_self,
        Option.some.injEq] at present
      have creator : stored.txMin = found.txMin := by
        rw [← present, sameCreator]
      rw [creator] at different writerLive ⊢
      exact recorded.inserted_progress provenance progress scanned
        foundPresent different readerLive writerLive
    · simp only [State.writeTombstone, Function.update_of_ne same] at present
      exact recorded.inserted_progress provenance progress scanned present
        different readerLive writerLive
  · intro other committed inFlag
    exact recorded.notPivot_statement lifecycle
      (.writeTombstone state txId row record) committed inFlag

/-- A new index key raises both flags when a reader's range covers it. -/
theorem indexInsertRow_flagged
    {ssi : SsiMap}
    {reader writer : Nat}
    {keys : List (UInt32 × List UInt8)}
    {key : UInt32 × List UInt8}
    {lower : List UInt8}
    {upper : Option (List UInt8)}
    (member : key ∈ keys)
    (readerPresent : reader ∈ ssi.keys)
    (writerPresent : writer ∈ ssi.keys)
    (different : reader ≠ writer)
    (held : ReadLock.indexRange key.1 lower upper ∈ (ssi.entry reader).readSet)
    (inRange : inIndexRange lower upper key.2 = true) :
    ((State.indexInsertRow ssi writer keys).entry reader).outConflict = true ∧
      ((State.indexInsertRow ssi writer keys).entry writer).inConflict =
        true := by
  apply SsiMap.foldl_establishes
    (fun _ _ => SsiMap.recordIndexWrite_extends _ _ _)
    (fun map =>
      (map.entry reader).outConflict = true ∧
        (map.entry writer).inConflict = true)
    (fun extended flags =>
      ⟨(extended.grows _).outFlag flags.1, (extended.grows _).inFlag flags.2⟩)
    member
  intro map extended
  exact flagged_of_markReaders
    (by rwa [extended.keys]) (by rwa [extended.keys]) different
    ((extended.grows reader).locks _ held)
    (by simp [ReadLock.coversIndexWrite, inRange])

/-- The entries of another row do not change what a path ranges over. -/
theorem covers_append_other
    {access : AccessPath}
    {index : List IndexEntry}
    {tableRoot : UInt32}
    {row other : RowKey}
    {keys : List (UInt32 × List UInt8)}
    (different : other ≠ row) :
    access.covers (index ++ indexEntries row keys) tableRoot other =
      access.covers index tableRoot other := by
  cases access with
  | fullScan => rfl
  | indexScan indexRoot lower upper =>
      have noNewEntry : (keys.any fun _ => false) = false :=
        List.any_eq_false.mpr (by simp)
      simp [AccessPath.covers, indexEntries, List.any_append, List.any_map,
        Function.comp_def, Ne.symm different, noNewEntry]

theorem flagged_of_newKey
    (provenance : Provenance state)
    {reader txId : Nat}
    {tableRoot indexRoot : UInt32}
    {lower : List UInt8}
    {upper : Option (List UInt8)}
    {row : RowKey}
    {keys : List (UInt32 × List UInt8)}
    (vacant : state.rows row = none)
    (member :
      (reader, tableRoot, AccessPath.indexScan indexRoot lower upper) ∈
        state.trail.scans)
    (covered :
      (AccessPath.indexScan indexRoot lower upper).covers
        (state.index ++ indexEntries row keys) tableRoot row = true)
    (different : reader ≠ txId)
    (readerPresent : reader ∈ state.tx.ssi.keys)
    (writerPresent : txId ∈ state.tx.ssi.keys) :
    ((State.indexInsertRow state.tx.ssi txId keys).entry
        reader).outConflict = true ∧
      ((State.indexInsertRow state.tx.ssi txId keys).entry
        txId).inConflict = true := by
  have held := provenance.scanLocked reader tableRoot _ member
  simp only [AccessPath.covers, Bool.and_eq_true, List.any_eq_true,
    decide_eq_true_eq] at covered
  obtain ⟨_, entry, entryMember, ⟨sameRoot, sameRow⟩, inRange⟩ := covered
  -- The key was vacant, so the entry is one of the new ones.
  rcases List.mem_append.mp entryMember with old | new
  · have occupied := provenance.indexed entry old
    rw [sameRow, vacant] at occupied
    cases occupied
  · obtain ⟨key, keyMember, rfl⟩ := List.mem_map.mp new
    simp only at sameRoot inRange
    rw [AccessPath.lock, ← sameRoot] at held
    exact indexInsertRow_flagged keyMember readerPresent writerPresent different
      held inRange

theorem flagged_of_insert
    (provenance : Provenance state)
    {reader txId : Nat}
    {row : RowKey}
    (wholeTable :
      (reader, row.tableRoot, AccessPath.fullScan) ∈ state.trail.scans)
    (different : reader ≠ txId)
    (readerPresent : reader ∈ state.tx.ssi.keys)
    (writerPresent : txId ∈ state.tx.ssi.keys)
    (values : Values)
    (keys : List (UInt32 × List UInt8)) :
    let ssi := (state.writeVersion txId row values keys).tx.ssi.recordInsert
      (some txId) row.tableRoot
    (ssi.entry reader).outConflict = true ∧
      (ssi.entry txId).inConflict = true := by
  have inserted := indexInsertRow_extends state.tx.ssi txId keys
  have held := provenance.scanLocked reader row.tableRoot _ wholeTable
  exact flagged_of_markReaders
    (by rwa [← inserted.keys] at readerPresent)
    (by rwa [← inserted.keys] at writerPresent)
    different ((inserted.grows reader).locks _ held)
    (by simp [ReadLock.coversInsert, AccessPath.lock])

/-- A version written to a vacant key is accounted for with every earlier scan of its range. -/
theorem vacantWrite
    (recorded : Recorded state)
    (provenance : Provenance state)
    (lifecycle : Lifecycle state)
    (progress : Progress state next)
    (statement : Statement state next)
    {txId : Nat}
    {row : RowKey}
    {session : Session Values}
    {values : Values}
    {keys : List (UInt32 × List UInt8)}
    (running : state.session txId = some session)
    (written :
      next.rows = Function.update state.rows row
        (some { txMin := txId, txMax := 0, values := values }))
    (indexed : next.index = state.index ++ indexEntries row keys)
    (vacant : state.rows row = none)
    (sameReads : next.trail.reads = state.trail.reads)
    (sameScans : next.trail.scans = state.trail.scans)
    (sameOverwrites : next.trail.overwrites = state.trail.overwrites)
    (tracked : state.InsertTracked txId row keys)
    (keysRecorded :
      (State.indexInsertRow state.tx.ssi txId keys).Extends next.tx.ssi)
    (tableRecorded :
      ∀ reader,
        (reader, row.tableRoot, AccessPath.fullScan) ∈ state.trail.scans →
        reader ≠ txId →
        reader ∈ state.tx.ssi.keys →
        next.Live reader →
        next.Accounted reader txId) :
    Recorded next := by
  have writerPresent : txId ∈ state.tx.ssi.keys := by
    rw [lifecycle.tracked]
    exact lifecycle.active running
  have writerAssigned := lifecycle.assigned txId (lifecycle.active running)
  constructor
  · intro reader overwrite member touched different readerLive writerLive
    rw [sameOverwrites] at member
    rw [State.Touched, sameReads, sameScans] at touched
    exact recorded.deleted_progress provenance progress member touched
      different readerLive writerLive
  · intro reader overwrite member read different writerLive
    rw [sameOverwrites] at member
    rw [sameReads] at read
    exact recorded.unseenDelete_progress provenance progress member read
      different writerLive
  · intro reader other record scanned stored different readerLive writerLive
    obtain ⟨tableRoot, access, member, covered⟩ := scanned
    rw [sameScans] at member
    rw [indexed] at covered
    by_cases same : other = row
    · subst same
      simp only [written, Function.update_self, Option.some.injEq] at stored
      rw [← stored] at different ⊢
      have readerAssigned := provenance.scanner reader tableRoot access member
      rcases present_or_committed lifecycle readerAssigned
          (progress.live _ readerLive) with readerPresent | committed
      · cases access with
        | fullScan =>
            rw [← tableRoot_of_covers covered] at member
            exact tableRecorded reader member different readerPresent readerLive
        | indexScan indexRoot lower upper =>
            have flags := flagged_of_newKey provenance vacant member covered
              different readerPresent writerPresent
            exact .inr (.inr
              ⟨(keysRecorded.grows _).outFlag flags.1,
                (keysRecorded.grows _).inFlag flags.2⟩)
      · exact .inr (.inl ((progress.past txId reader writerAssigned.2).mpr
          (tracked reader tableRoot access member covered committed)))
    · rw [covers_append_other same] at covered
      rw [written, Function.update_of_ne same] at stored
      exact recorded.inserted_progress provenance progress
        ⟨tableRoot, access, member, covered⟩ stored different readerLive
        writerLive
  · intro other committed inFlag
    exact recorded.notPivot_statement lifecycle statement committed inFlag

end Recorded

/-- All that a tracked run keeps true. -/
structure Audited (state : State Values) : Prop where
  lifecycle : Lifecycle state
  stamped : Stamped state
  provenance : Provenance state
  recorded : Recorded state

namespace Audited

variable {state next : State Values}

theorem initial : Audited (initial : State Values) where
  lifecycle := .initial
  stamped := .initial
  provenance := .initial
  recorded := .initial

/-- Every tracked step keeps the audit. -/
theorem step
    {action : Action Values}
    (audited : Audited state)
    (tracked : Tracked state action)
    (stepped : Interleaving.step state action = some next) :
    Audited next := by
  obtain ⟨lifecycle, stamped, provenance, recorded⟩ := audited
  have nextLifecycle := lifecycle.step stepped
  have nextStamped := stamped.step lifecycle tracked.undisturbed stepped
  suffices kept : Recorded next from
    ⟨nextLifecycle, nextStamped, provenance.step lifecycle stepped, kept⟩
  cases step_effect stepped with
  | begin => exact recorded.begin provenance lifecycle
  | @read txId tableRoot access session opened =>
      exact recorded.scan provenance lifecycle stamped opened tracked
  | @collect txId tableRoot access session opened =>
      have running := session_of_openSession opened
      exact (recorded.scan provenance lifecycle stamped opened
        tracked).setSession (provenance.scan lifecycle running tableRoot access)
          running rfl
  | letThrough opened _ _ =>
      exact recorded.setSession provenance (session_of_openSession opened) rfl
  | conflict opened =>
      exact recorded.setSession provenance (session_of_openSession opened) rfl
  | tombstone opened checked candidate =>
      have running := session_of_openSession opened
      exact (recorded.writeTombstone provenance lifecycle running candidate
        tracked.2).setSession (provenance.writeTombstone running candidate)
          running rfl
  | @insert txId row values keys session opened vacant =>
      have running := session_of_openSession opened
      have statement := Statement.insert state txId row values keys
      have progress := (provenance.vacantWrite lifecycle running statement rfl
        rfl vacant rfl rfl rfl rfl).1
      refine recorded.vacantWrite provenance lifecycle progress
        statement running rfl rfl vacant rfl rfl rfl tracked
        (SsiMap.recordInsert_extends (some txId) row.tableRoot) ?_
      intro reader wholeTable different readerPresent _
      have writerPresent : txId ∈ state.tx.ssi.keys := by
        rw [lifecycle.tracked]
        exact lifecycle.active running
      exact .inr (.inr (Recorded.flagged_of_insert provenance wholeTable
        different readerPresent writerPresent values keys))
  | @insertVersion txId old row values keys session opened replaced sameTable
      vacant =>
      have running := session_of_openSession opened
      have statement := Statement.writeVersion state txId row values keys
      have progress := (provenance.vacantWrite lifecycle running statement rfl
        rfl vacant rfl rfl rfl rfl).1
      refine recorded.vacantWrite provenance lifecycle progress
        statement running rfl rfl vacant rfl rfl rfl tracked (.refl _) ?_
      -- A reader of the whole table met the tombstone of the old version.
      intro reader wholeTable different readerPresent readerLive
      obtain ⟨overwrite, member, sameRow, sameWriter⟩ :=
        (provenance.worked txId session running).replaced old replaced
      have touched : state.Touched reader overwrite.row := by
        rw [sameRow]
        exact .inr (sameTable ▸ wholeTable)
      have writerLive :
          (state.writeVersion txId row values keys).Live overwrite.writer := by
        rw [State.Live, sameWriter, statement.clog, lifecycle.unresolved txId
          (.inr (.inl (lifecycle.active running)))]
        rintro ⟨⟩
      have accounted := recorded.deleted_progress provenance progress member
        touched (by rwa [sameWriter]) readerLive writerLive
      rwa [sameWriter] at accounted
  | fail opened =>
      exact recorded.setSession provenance (session_of_openSession opened) rfl
  | committed running notPivot =>
      exact recorded.resolve provenance lifecycle running fun _ => notPivot
  | refused running =>
      exact recorded.resolve provenance lifecycle running (by rintro ⟨⟩)
  | rolledBack running =>
      exact recorded.resolve provenance lifecycle running (by rintro ⟨⟩)

/-- The audit holds along every run. -/
theorem reachable
    {actions : List (Action Values)}
    (run : TransitionRun.Run Interleaving.step Tracked Interleaving.initial
      actions state) :
    Audited state :=
  run.invariant Audited (fun audited tracked stepped =>
    audited.step tracked stepped) .initial

end Audited

end PrehniteDB.Interleaving
