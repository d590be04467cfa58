import PrehniteDB.FirstUpdaterWins

namespace PrehniteDB.Interleaving

/-!
# When the SSI map records every conflict

The map marks a read-write conflict only when the later of the two sides
finds the other side's trace: a writer walks the read sets of the
transactions that are still in the map, and an index scan reports the
tombstone it meets.  `Tracked` is the side condition under which one of the
two sides always does, and `Recorded` is the invariant it buys: between any
two transactions that have not rolled back, a reader and a writer of the same
data are either separated in time or carry the two flags.
-/

variable {Values : Type}

/-- `earlier` was past for the snapshot `later` pinned. -/
def State.PastFor (state : State Values) (later earlier : Nat) : Prop :=
  ∃ snapshot ∈ state.trail.snapshotOf later, snapshot.Past earlier

/-- `txId` has run a scan that ranges over `row`. -/
def State.Scanned (state : State Values) (txId : Nat) (row : RowKey) : Prop :=
  ∃ tableRoot access,
    (txId, tableRoot, access) ∈ state.trail.scans ∧
      access.covers state.index tableRoot row = true

/-- `txId` has returned this version, or scanned its whole table. -/
def State.Touched (state : State Values) (txId : Nat) (row : RowKey) : Prop :=
  state.trail.reads txId row = true ∨
    (txId, row.tableRoot, AccessPath.fullScan) ∈ state.trail.scans

/-- The index keys a new version brings along. -/
def indexEntries (row : RowKey) (keys : List (UInt32 × List UInt8)) : List IndexEntry :=
  keys.map fun key => { indexRoot := key.1, encodedKey := key.2, row := row }

/-- The transaction has not rolled back. -/
def State.Live (state : State Values) (txId : Nat) : Prop :=
  state.tx.clog.status txId ≠ some .rolledBack

/--
Every version in the range of the scan was created, and deleted if it was, by
transactions the scan can see, that have rolled back, or that are its own; an
index scan may also meet a tombstone of a transaction still in the SSI map.
-/
def State.ScanTracked
    (state : State Values)
    (txId : Nat)
    (tableRoot : UInt32)
    (access : AccessPath) : Prop :=
  ∀ session ∈ state.openSession txId,
    ∀ row,
      ∀ record ∈ state.rows row,
        access.covers state.index tableRoot row = true →
        (record.txMin = txId ∨
          state.tx.clog.status record.txMin = some .rolledBack ∨
          session.snapshot.Sees state.tx.clog record.txMin) ∧
        (record.txMax = 0 ∨ record.txMax = txId ∨
          state.tx.clog.status record.txMax = some .rolledBack ∨
          session.snapshot.Sees state.tx.clog record.txMax ∨
          (access ≠ .fullScan ∧ record.txMax ∈ state.tx.ssi.keys))

/-- No committed transaction concurrent with `txId` has scanned the range of the new version. -/
def State.InsertTracked
    (state : State Values)
    (txId : Nat)
    (row : RowKey)
    (keys : List (UInt32 × List UInt8)) : Prop :=
  ∀ reader tableRoot access,
    (reader, tableRoot, access) ∈ state.trail.scans →
    access.covers (state.index ++ indexEntries row keys) tableRoot row = true →
    state.tx.clog.status reader = some .committed →
    state.PastFor txId reader

/-- Neither side of a conflict is hidden from the other by a commit or by the order of access. -/
def Tracked (state : State Values) : Action Values → Prop
  | .read txId tableRoot access => state.ScanTracked txId tableRoot access
  | .collect txId tableRoot access => state.ScanTracked txId tableRoot access
  | .check txId row => Undisturbed state (.check txId row)
  | .tombstone txId row =>
      Undisturbed state (.tombstone txId row) ∧
        ∀ reader,
          state.Touched reader row →
          state.tx.clog.status reader = some .committed →
          state.PastFor txId reader
  | .insert txId row _ keys => state.InsertTracked txId row keys
  | .insertVersion txId _ row _ keys => state.InsertTracked txId row keys
  | _ => True

theorem Tracked.undisturbed
    {state : State Values}
    {action : Action Values}
    (tracked : Tracked state action) :
    Undisturbed state action := by
  cases action with
  | check txId row => exact tracked
  | tombstone txId row => exact tracked.1
  | _ => trivial

/-- The two flags a read-write conflict leaves. -/
def State.Flagged (state : State Values) (reader writer : Nat) : Prop :=
  (state.tx.ssi.entry reader).outConflict = true ∧
    (state.tx.ssi.entry writer).inConflict = true

/-- The reader and the writer are separated in time or flagged. -/
def State.Accounted (state : State Values) (reader writer : Nat) : Prop :=
  state.PastFor reader writer ∨
    state.PastFor writer reader ∨
    state.Flagged reader writer

/-- The candidates of a session were read, and the rows it replaced were tombstoned. -/
structure State.Worked
    (state : State Values)
    (txId : Nat)
    (session : Session Values) : Prop where
  collected :
    ∀ row record,
      session.candidates row = some record →
      state.trail.reads txId row = true ∧
        ∃ stored, state.rows row = some stored ∧ stored.txMin = record.txMin
  replaced :
    ∀ row ∈ session.tombstoned,
      ∃ overwrite ∈ state.trail.overwrites,
        overwrite.row = row ∧ overwrite.writer = txId

/-- Where versions and index entries come from, and what a read leaves behind. -/
structure Provenance (state : State Values) : Prop where
  creator :
    ∀ row record,
      state.rows row = some record →
      0 < record.txMin ∧ record.txMin < state.tx.nextTxId
  indexed :
    ∀ entry ∈ state.index, (state.rows entry.row).isSome = true
  scanner :
    ∀ txId tableRoot access,
      (txId, tableRoot, access) ∈ state.trail.scans →
      0 < txId ∧ txId < state.tx.nextTxId
  reader :
    ∀ txId row,
      state.trail.reads txId row = true →
      0 < txId ∧ txId < state.tx.nextTxId
  readCreated :
    ∀ txId row,
      state.trail.reads txId row = true →
      ∃ record,
        state.rows row = some record ∧
          (record.txMin = txId ∨ state.PastFor txId record.txMin)
  readLocked :
    ∀ txId row,
      state.trail.reads txId row = true →
      ReadLock.relation row.tableRoot ∈ (state.tx.ssi.entry txId).readSet ∨
        ReadLock.tuple row.tableRoot row.rowid ∈
          (state.tx.ssi.entry txId).readSet
  scanLocked :
    ∀ txId tableRoot access,
      (txId, tableRoot, access) ∈ state.trail.scans →
      access.lock tableRoot ∈ (state.tx.ssi.entry txId).readSet
  worked :
    ∀ txId session,
      state.session txId = some session →
      state.Worked txId session
  readBeforeWrite :
    ∀ overwrite ∈ state.trail.overwrites,
      state.trail.reads overwrite.writer overwrite.row = true

/-- Every conflict between transactions that have not rolled back is accounted for. -/
structure Recorded (state : State Values) : Prop where
  deleted :
    ∀ reader,
      ∀ overwrite ∈ state.trail.overwrites,
        state.Touched reader overwrite.row →
        reader ≠ overwrite.writer →
        state.Live reader →
        state.Live overwrite.writer →
        state.Accounted reader overwrite.writer
  unseenDelete :
    ∀ reader,
      ∀ overwrite ∈ state.trail.overwrites,
        state.trail.reads reader overwrite.row = true →
        reader ≠ overwrite.writer →
        state.Live overwrite.writer →
        ¬ state.PastFor reader overwrite.writer
  inserted :
    ∀ reader row record,
      state.Scanned reader row →
      state.rows row = some record →
      reader ≠ record.txMin →
      state.Live reader →
      state.Live record.txMin →
      state.Accounted reader record.txMin
  notPivot :
    ∀ txId,
      state.tx.clog.status txId = some .committed →
      (state.tx.ssi.entry txId).inConflict = true →
      (state.tx.ssi.entry txId).outConflict = false

/-- What no step takes back. -/
structure Progress (state next : State Values) : Prop where
  ids : state.tx.nextTxId ≤ next.tx.nextTxId
  past :
    ∀ later earlier,
      later < state.tx.nextTxId →
      (next.PastFor later earlier ↔ state.PastFor later earlier)
  live : ∀ txId, next.Live txId → state.Live txId
  entries :
    ∀ txId,
      txId < state.tx.nextTxId →
      (state.tx.ssi.entry txId).Grows (next.tx.ssi.entry txId)
  rows :
    ∀ row record,
      state.rows row = some record →
      ∃ kept, next.rows row = some kept ∧ kept.txMin = record.txMin
  reads :
    ∀ txId row,
      state.trail.reads txId row = true →
      next.trail.reads txId row = true
  overwrites :
    ∀ overwrite ∈ state.trail.overwrites,
      overwrite ∈ next.trail.overwrites

namespace Progress

variable {state next : State Values}

/-- A statement makes progress when its writes keep creators, reads and overwrites. -/
theorem of_statement
    (statement : Statement state next)
    (rows :
      ∀ row record,
        state.rows row = some record →
        ∃ kept, next.rows row = some kept ∧ kept.txMin = record.txMin)
    (reads :
      ∀ txId row,
        state.trail.reads txId row = true →
        next.trail.reads txId row = true)
    (overwrites :
      ∀ overwrite ∈ state.trail.overwrites,
        overwrite ∈ next.trail.overwrites) :
    Progress state next where
  ids := Nat.le_of_eq statement.nextTxId.symm
  past := by
    intro later earlier _
    simp only [State.PastFor, statement.snapshotOf]
  live := by
    intro txId live
    rwa [State.Live, statement.clog] at live
  entries := fun txId _ => statement.ssi.grows txId
  rows := rows
  reads := reads
  overwrites := overwrites

theorem setSession
    (state : State Values)
    {txId : Nat}
    {session changed : Session Values}
    (running : state.session txId = some session)
    (sameSnapshot : changed.snapshot = session.snapshot) :
    Progress state (state.setSession txId changed) :=
  of_statement ((Statement.refl state).setSession running sameSnapshot)
    (fun _ record stored => ⟨record, stored, rfl⟩)
    (fun _ _ read => read)
    (fun _ member => member)

theorem begin (state : State Values) : Progress state state.begin where
  ids := Nat.le_succ _
  past := by
    intro later earlier assigned
    have different : later ≠ state.tx.nextTxId := Nat.ne_of_lt assigned
    simp only [State.PastFor, State.begin_snapshotOf,
      Function.update_of_ne different]
  live := fun _ live => live
  entries := by
    intro txId assigned
    have different : txId ≠ state.tx.nextTxId := Nat.ne_of_lt assigned
    simp only [State.begin_ssi, SsiMap.insert, Function.update_of_ne different]
    exact .refl _
  rows := fun _ record stored => ⟨record, stored, rfl⟩
  reads := fun _ _ read => read
  overwrites := fun _ member => member

theorem resolve
    (lifecycle : Lifecycle state)
    {txId : Nat}
    {session : Session Values}
    (running : state.session txId = some session)
    (outcome : Status) :
    Progress state (state.resolve txId outcome) where
  ids := Nat.le_refl _
  past := fun _ _ _ => Iff.rfl
  live := by
    intro other live
    by_cases same : other = txId
    · subst same
      rw [State.Live, lifecycle.unresolved other
        (.inr (.inl (lifecycle.active running)))]
      rintro ⟨⟩
    · rwa [State.Live, State.resolve_clog,
        Clog.status_append_other same] at live
  entries := fun _ _ => .refl _
  rows := fun _ record stored => ⟨record, stored, rfl⟩
  reads := fun _ _ read => read
  overwrites := fun _ member => member

theorem flagged
    (progress : Progress state next)
    {reader writer : Nat}
    (readerAssigned : reader < state.tx.nextTxId)
    (writerAssigned : writer < state.tx.nextTxId)
    (flagged : state.Flagged reader writer) :
    next.Flagged reader writer :=
  ⟨(progress.entries reader readerAssigned).outFlag flagged.1,
    (progress.entries writer writerAssigned).inFlag flagged.2⟩

theorem accounted
    (progress : Progress state next)
    {reader writer : Nat}
    (readerAssigned : reader < state.tx.nextTxId)
    (writerAssigned : writer < state.tx.nextTxId)
    (accounted : state.Accounted reader writer) :
    next.Accounted reader writer := by
  rcases accounted with past | past | flagged
  · exact .inl ((progress.past reader writer readerAssigned).mpr past)
  · exact .inr (.inl ((progress.past writer reader writerAssigned).mpr past))
  · exact .inr (.inr (progress.flagged readerAssigned writerAssigned flagged))

theorem worked
    (progress : Progress state next)
    {txId : Nat}
    {session : Session Values}
    (worked : state.Worked txId session) :
    next.Worked txId session where
  collected := by
    intro row record candidate
    obtain ⟨read, stored, present, sameCreator⟩ :=
      worked.collected row record candidate
    obtain ⟨kept, keptPresent, keptCreator⟩ := progress.rows row stored present
    exact ⟨progress.reads txId row read, kept, keptPresent,
      keptCreator.trans sameCreator⟩
  replaced := by
    intro row member
    obtain ⟨overwrite, written, shape⟩ := worked.replaced row member
    exact ⟨overwrite, progress.overwrites overwrite written, shape⟩

end Progress

theorem scanLocks_row
    {state : State Values}
    {snapshot : Snapshot}
    {txId : Nat}
    {tableRoot indexRoot : UInt32}
    {lower : List UInt8}
    {upper : Option (List UInt8)}
    {row : RowKey}
    (property : SsiMap → Prop)
    (kept : ∀ {before after : SsiMap},
      before.Extends after → property before → property after)
    (own : snapshot.ownTx = some txId)
    (covered :
      (AccessPath.indexScan indexRoot lower upper).covers state.index tableRoot
        row = true)
    (seen : state.sees snapshot row = true)
    (established :
      ∀ map : SsiMap,
        map.keys = state.tx.ssi.keys →
        property (map.recordRead (some txId) row.tableRoot row.rowid
          (state.tombstoneBy row))) :
    property (state.scanLocks snapshot tableRoot
      (.indexScan indexRoot lower upper)) := by
  have found : row ∈ state.lookedUp tableRoot (.indexScan indexRoot lower upper) := by
    simp only [State.lookedUp, List.mem_dedup, List.mem_filter, covered, and_true]
    simp only [AccessPath.covers, Bool.and_eq_true, List.any_eq_true,
      decide_eq_true_eq] at covered
    obtain ⟨_, entry, member, ⟨_, sameRow⟩, _⟩ := covered
    exact List.mem_map.mpr ⟨entry, member, sameRow⟩
  apply SsiMap.foldl_establishes (lockReturned_extends state snapshot) property
    kept found
  intro map extended
  rw [State.lockReturned, if_pos seen, own]
  apply established
  rw [extended.keys]
  exact (SsiMap.recordIndexRangeRead_extends _ _ _ _).keys

theorem returned_iff
    {state : State Values}
    {snapshot : Snapshot}
    {tableRoot : UInt32}
    {access : AccessPath}
    {row : RowKey} :
    state.returned snapshot tableRoot access row = true ↔
      access.covers state.index tableRoot row = true ∧
        ∃ record,
          state.rows row = some record ∧
            snapshot.visible state.tx.clog record.txMin record.txMax = true := by
  simp [State.returned, State.sees, Option.any_eq_true]

theorem tableRoot_of_covers
    {access : AccessPath}
    {index : List IndexEntry}
    {tableRoot : UInt32}
    {row : RowKey}
    (covered : access.covers index tableRoot row = true) :
    row.tableRoot = tableRoot := by
  simp only [AccessPath.covers, Bool.and_eq_true, decide_eq_true_eq] at covered
  exact covered.1

namespace Provenance

variable {state next : State Values}

theorem initial : Provenance (initial : State Values) where
  creator := by simp [Interleaving.initial]
  indexed := by simp [Interleaving.initial]
  scanner := by simp [Interleaving.initial]
  reader := by simp [Interleaving.initial]
  readCreated := by simp [Interleaving.initial]
  readLocked := by simp [Interleaving.initial]
  scanLocked := by simp [Interleaving.initial]
  worked := by simp [Interleaving.initial]
  readBeforeWrite := by simp [Interleaving.initial]

theorem overwriter
    (provenance : Provenance state)
    {overwrite : Overwrite}
    (member : overwrite ∈ state.trail.overwrites) :
    0 < overwrite.writer ∧ overwrite.writer < state.tx.nextTxId :=
  provenance.reader _ _ (provenance.readBeforeWrite overwrite member)

theorem toucher
    (provenance : Provenance state)
    {txId : Nat}
    {row : RowKey}
    (touched : state.Touched txId row) :
    0 < txId ∧ txId < state.tx.nextTxId :=
  touched.elim (provenance.reader txId row) (provenance.scanner txId _ _)

theorem readCreated_progress
    (provenance : Provenance state)
    (progress : Progress state next)
    {txId : Nat}
    {row : RowKey}
    (read : state.trail.reads txId row = true) :
    ∃ record,
      next.rows row = some record ∧
        (record.txMin = txId ∨ next.PastFor txId record.txMin) := by
  obtain ⟨record, stored, origin⟩ := provenance.readCreated txId row read
  obtain ⟨kept, present, sameCreator⟩ := progress.rows row record stored
  refine ⟨kept, present, ?_⟩
  rw [sameCreator]
  exact origin.imp_right
    (progress.past txId record.txMin (provenance.reader txId row read).2).mpr

theorem readLocked_progress
    (provenance : Provenance state)
    (progress : Progress state next)
    {txId : Nat}
    {row : RowKey}
    (read : state.trail.reads txId row = true) :
    ReadLock.relation row.tableRoot ∈ (next.tx.ssi.entry txId).readSet ∨
      ReadLock.tuple row.tableRoot row.rowid ∈
        (next.tx.ssi.entry txId).readSet := by
  have grown := progress.entries txId (provenance.reader txId row read).2
  exact (provenance.readLocked txId row read).imp
    (grown.locks _) (grown.locks _)

/-- A step that reads and writes no row keeps the provenance. -/
theorem quiet
    (provenance : Provenance state)
    (progress : Progress state next)
    (sameRows : next.rows = state.rows)
    (sameIndex : next.index = state.index)
    (sameReads : next.trail.reads = state.trail.reads)
    (sameScans : next.trail.scans = state.trail.scans)
    (sameOverwrites : next.trail.overwrites = state.trail.overwrites)
    (worked :
      ∀ txId session,
        next.session txId = some session →
        state.Worked txId session) :
    Provenance next where
  creator := by
    intro row record stored
    rw [sameRows] at stored
    have assigned := provenance.creator row record stored
    exact ⟨assigned.1, Nat.lt_of_lt_of_le assigned.2 progress.ids⟩
  indexed := by
    rw [sameIndex, sameRows]
    exact provenance.indexed
  scanner := by
    intro txId tableRoot access member
    rw [sameScans] at member
    have assigned := provenance.scanner txId tableRoot access member
    exact ⟨assigned.1, Nat.lt_of_lt_of_le assigned.2 progress.ids⟩
  reader := by
    intro txId row read
    rw [sameReads] at read
    have assigned := provenance.reader txId row read
    exact ⟨assigned.1, Nat.lt_of_lt_of_le assigned.2 progress.ids⟩
  readCreated := by
    intro txId row read
    rw [sameReads] at read
    exact provenance.readCreated_progress progress read
  readLocked := by
    intro txId row read
    rw [sameReads] at read
    exact provenance.readLocked_progress progress read
  scanLocked := by
    intro txId tableRoot access member
    rw [sameScans] at member
    have assigned := provenance.scanner txId tableRoot access member
    exact (progress.entries txId assigned.2).locks _
      (provenance.scanLocked txId tableRoot access member)
  worked := fun txId session running =>
    progress.worked (worked txId session running)
  readBeforeWrite := by
    rw [sameOverwrites, sameReads]
    exact provenance.readBeforeWrite

theorem begin (provenance : Provenance state) : Provenance state.begin := by
  refine provenance.quiet (.begin state) rfl rfl rfl rfl rfl ?_
  intro txId session running
  by_cases fresh : txId = state.tx.nextTxId
  · subst fresh
    simp only [State.begin_session, Function.update_self, Option.some.injEq]
      at running
    subst running
    exact ⟨by simp, by simp⟩
  · rw [State.begin_session, Function.update_of_ne fresh] at running
    exact provenance.worked txId session running

theorem resolve
    (provenance : Provenance state)
    (lifecycle : Lifecycle state)
    {txId : Nat}
    {session : Session Values}
    (running : state.session txId = some session)
    (outcome : Status) :
    Provenance (state.resolve txId outcome) := by
  refine provenance.quiet (.resolve lifecycle running outcome)
    rfl rfl rfl rfl rfl ?_
  intro other found stillRunning
  by_cases same : other = txId
  · simp [same] at stillRunning
  · rw [State.resolve_session, Function.update_of_ne same] at stillRunning
    exact provenance.worked other found stillRunning

theorem setSession
    (provenance : Provenance state)
    {txId : Nat}
    {session changed : Session Values}
    (running : state.session txId = some session)
    (sameSnapshot : changed.snapshot = session.snapshot)
    (worked : state.Worked txId changed) :
    Provenance (state.setSession txId changed) := by
  refine provenance.quiet (.setSession state running sameSnapshot)
    rfl rfl rfl rfl rfl ?_
  intro other found stored
  by_cases same : other = txId
  · subst same
    rw [State.setSession_self] at stored
    obtain rfl := Option.some.inj stored
    exact worked
  · rw [State.setSession_other same] at stored
    exact provenance.worked other found stored

theorem progress_scan
    (state : State Values)
    (txId : Nat)
    (snapshot : Snapshot)
    (tableRoot : UInt32)
    (access : AccessPath) :
    Progress state (state.scan txId snapshot tableRoot access) :=
  .of_statement (.scan state txId snapshot tableRoot access)
    (fun _ record stored => ⟨record, stored, rfl⟩)
    (by
      intro reader row read
      simp [State.scan, read])
    (fun _ member => member)

theorem scanLocks_returned
    {snapshot : Snapshot}
    {txId : Nat}
    {tableRoot : UInt32}
    {access : AccessPath}
    {row : RowKey}
    (own : snapshot.ownTx = some txId)
    (present : txId ∈ state.tx.ssi.keys)
    (returned : state.returned snapshot tableRoot access row = true) :
    ReadLock.relation row.tableRoot ∈
        ((state.scanLocks snapshot tableRoot access).entry txId).readSet ∨
      ReadLock.tuple row.tableRoot row.rowid ∈
        ((state.scanLocks snapshot tableRoot access).entry txId).readSet := by
  obtain ⟨covered, seen⟩ := Bool.and_eq_true_iff.mp returned
  cases access with
  | fullScan =>
      left
      rw [tableRoot_of_covers covered, State.scanLocks, own]
      exact SsiMap.recordRelationRead_lock tableRoot present
  | indexScan indexRoot lower upper =>
      right
      apply scanLocks_row
        (fun map =>
          ReadLock.tuple row.tableRoot row.rowid ∈ (map.entry txId).readSet)
        (fun extended held => (extended.grows txId).locks _ held)
        own covered seen
      intro map sameKeys
      exact SsiMap.recordRead_lock _ _ _ (sameKeys ▸ present)

theorem scanLocks_lock
    {snapshot : Snapshot}
    {txId : Nat}
    {tableRoot : UInt32}
    {access : AccessPath}
    (own : snapshot.ownTx = some txId)
    (present : txId ∈ state.tx.ssi.keys) :
    access.lock tableRoot ∈
      ((state.scanLocks snapshot tableRoot access).entry txId).readSet := by
  cases access with
  | fullScan =>
      rw [State.scanLocks, own]
      exact SsiMap.recordRelationRead_lock tableRoot present
  | indexScan indexRoot lower upper =>
      have walked :
          SsiMap.Extends
            (state.tx.ssi.recordIndexRangeRead snapshot.ownTx indexRoot lower
              upper)
            (state.scanLocks snapshot tableRoot
              (.indexScan indexRoot lower upper)) :=
        SsiMap.foldl_extends (lockReturned_extends state snapshot) _
      apply (walked.grows txId).locks
      rw [own]
      exact SsiMap.recordIndexRangeRead_lock indexRoot lower upper present

theorem scan
    (provenance : Provenance state)
    (lifecycle : Lifecycle state)
    {txId : Nat}
    {session : Session Values}
    (running : state.session txId = some session)
    (tableRoot : UInt32)
    (access : AccessPath) :
    Provenance (state.scan txId session.snapshot tableRoot access) := by
  have progress :=
    progress_scan state txId session.snapshot tableRoot access
  have own := lifecycle.ownTx running
  have assigned := lifecycle.assigned txId (lifecycle.active running)
  have present : txId ∈ state.tx.ssi.keys := by
    rw [lifecycle.tracked]
    exact lifecycle.active running
  have oldOrNew :
      ∀ reader row,
        (state.scan txId session.snapshot tableRoot access).trail.reads
            reader row = true →
        state.trail.reads reader row = true ∨
          (reader = txId ∧
            state.returned session.snapshot tableRoot access row = true) := by
    intro reader row read
    simpa [State.scan] using read
  constructor
  · exact provenance.creator
  · exact provenance.indexed
  · intro scanner root path member
    rcases List.mem_cons.mp member with new | old
    · obtain ⟨rfl, _⟩ := Prod.mk.inj new
      exact assigned
    · exact provenance.scanner scanner root path old
  · intro reader row read
    rcases oldOrNew reader row read with old | ⟨rfl, _⟩
    · exact provenance.reader reader row old
    · exact assigned
  · intro reader row read
    rcases oldOrNew reader row read with old | ⟨rfl, returned⟩
    · exact provenance.readCreated_progress progress old
    · obtain ⟨_, record, stored, visible⟩ := returned_iff.mp returned
      refine ⟨record, stored, ?_⟩
      rcases Snapshot.created_iff.mp (Snapshot.visible_iff.mp visible).1 with
        mine | zero | seen
      · rw [own] at mine
        exact .inl (Option.some.inj mine)
      · have positive := (provenance.creator row record stored).1
        omega
      · exact .inr ⟨session.snapshot, lifecycle.pinned reader session running,
          seen.2⟩
  · intro reader row read
    rcases oldOrNew reader row read with old | ⟨rfl, returned⟩
    · exact provenance.readLocked_progress progress old
    · exact scanLocks_returned own present returned
  · intro scanner root path member
    rcases List.mem_cons.mp member with new | old
    · obtain ⟨rfl, rest⟩ := Prod.mk.inj new
      obtain ⟨rfl, rfl⟩ := Prod.mk.inj rest
      exact scanLocks_lock own present
    · have earlier := provenance.scanner scanner root path old
      exact (progress.entries scanner earlier.2).locks _
        (provenance.scanLocked scanner root path old)
  · intro other found stored
    exact progress.worked (provenance.worked other found stored)
  · intro overwrite member
    exact progress.reads _ _ (provenance.readBeforeWrite overwrite member)

/-- The candidates of a scan were returned by it. -/
theorem worked_collected
    {txId : Nat}
    {session : Session Values}
    (provenance : Provenance state)
    (running : state.session txId = some session)
    (tableRoot : UInt32)
    (access : AccessPath) :
    (state.scan txId session.snapshot tableRoot access).Worked txId {
      session with
      candidates := state.collected session.snapshot tableRoot access
      checked := fun _ => false } where
  collected := by
    intro row record candidate
    by_cases returned :
        state.returned session.snapshot tableRoot access row = true
    · simp only [State.collected, if_pos returned] at candidate
      exact ⟨by simp [State.scan, returned], record, candidate, rfl⟩
    · simp [State.collected, if_neg returned] at candidate
  replaced := (provenance.worked txId session running).replaced

/-- Rewriting a collected row keeps its creator. -/
theorem progress_writeTombstone
    (provenance : Provenance state)
    {txId : Nat}
    {row : RowKey}
    {session : Session Values}
    {record : RowRecord Values}
    (running : state.session txId = some session)
    (candidate : session.candidates row = some record) :
    Progress state (state.writeTombstone txId row record) := by
  apply Progress.of_statement (.writeTombstone state txId row record)
  · intro other stored present
    by_cases same : other = row
    · subst same
      obtain ⟨_, found, foundPresent, sameCreator⟩ :=
        (provenance.worked txId session running).collected other record candidate
      obtain rfl := Option.some.inj (present.symm.trans foundPresent)
      exact ⟨{ record with txMax := txId },
        by simp [State.writeTombstone], sameCreator.symm⟩
    · exact ⟨stored, by simpa [State.writeTombstone, same] using present, rfl⟩
  · intro reader other read
    exact read
  · intro overwrite member
    exact List.mem_cons_of_mem _ member

theorem writeTombstone
    (provenance : Provenance state)
    {txId : Nat}
    {row : RowKey}
    {session : Session Values}
    {record : RowRecord Values}
    (running : state.session txId = some session)
    (candidate : session.candidates row = some record) :
    Provenance (state.writeTombstone txId row record) := by
  have progress := provenance.progress_writeTombstone running candidate
  obtain ⟨wasRead, found, foundPresent, sameCreator⟩ :=
    (provenance.worked txId session running).collected row record candidate
  constructor
  · intro other stored present
    by_cases same : other = row
    · subst same
      simp only [State.writeTombstone, Function.update_self,
        Option.some.injEq] at present
      rw [← present]
      have earlier := provenance.creator other found foundPresent
      rw [sameCreator] at earlier
      exact earlier
    · simp only [State.writeTombstone, Function.update_of_ne same] at present
      exact provenance.creator other stored present
  · intro entry member
    by_cases same : entry.row = row
    · simp [State.writeTombstone, same]
    · simpa [State.writeTombstone, same] using provenance.indexed entry member
  · exact provenance.scanner
  · exact provenance.reader
  · intro reader other read
    exact provenance.readCreated_progress progress read
  · intro reader other read
    exact provenance.readLocked_progress progress read
  · intro scanner tableRoot access member
    exact (progress.entries scanner
      (provenance.scanner scanner tableRoot access member).2).locks _
      (provenance.scanLocked scanner tableRoot access member)
  · intro other otherSession otherRunning
    exact progress.worked (provenance.worked other otherSession otherRunning)
  · intro overwrite member
    rcases List.mem_cons.mp member with rfl | member
    · exact wasRead
    · exact provenance.readBeforeWrite overwrite member

theorem worked_tombstoned
    (provenance : Provenance state)
    {txId : Nat}
    {row : RowKey}
    {session : Session Values}
    {record : RowRecord Values}
    (running : state.session txId = some session)
    (candidate : session.candidates row = some record) :
    (state.writeTombstone txId row record).Worked txId {
      session with
      candidates := Function.update session.candidates row none
      tombstoned := row :: session.tombstoned } := by
  have earlier := (provenance.progress_writeTombstone running candidate).worked
    (provenance.worked txId session running)
  constructor
  · intro other stored found
    by_cases same : other = row
    · simp [same] at found
    · simp only [Function.update_of_ne same] at found
      exact earlier.collected other stored found
  · intro other member
    rcases List.mem_cons.mp member with rfl | member
    · exact ⟨_, List.mem_cons_self, rfl, rfl⟩
    · exact earlier.replaced other member

/-- A vacant key gains a version of `txId`; only the SSI map may grow further. -/
theorem vacantWrite
    (provenance : Provenance state)
    (lifecycle : Lifecycle state)
    {txId : Nat}
    {row : RowKey}
    {session : Session Values}
    {values : Values}
    {keys : List (UInt32 × List UInt8)}
    (running : state.session txId = some session)
    (statement : Statement state next)
    (written :
      next.rows = Function.update state.rows row
        (some { txMin := txId, txMax := 0, values := values }))
    (indexed : next.index = state.index ++ indexEntries row keys)
    (vacant : state.rows row = none)
    (sameSession : next.session = state.session)
    (sameReads : next.trail.reads = state.trail.reads)
    (sameScans : next.trail.scans = state.trail.scans)
    (sameOverwrites : next.trail.overwrites = state.trail.overwrites) :
    Progress state next ∧ Provenance next := by
  have assigned := lifecycle.assigned txId (lifecycle.active running)
  have progress : Progress state next := by
    apply Progress.of_statement statement
    · intro other stored present
      have different : other ≠ row := by
        rintro rfl
        rw [vacant] at present
        cases present
      exact ⟨stored, by simpa [written, different] using present, rfl⟩
    · rw [sameReads]
      exact fun _ _ read => read
    · rw [sameOverwrites]
      exact fun _ member => member
  refine ⟨progress, ?_⟩
  constructor
  · intro other stored present
    rw [statement.nextTxId]
    by_cases same : other = row
    · subst same
      simp only [written, Function.update_self, Option.some.injEq] at present
      rw [← present]
      exact assigned
    · rw [written, Function.update_of_ne same] at present
      exact provenance.creator other stored present
  · intro entry member
    rw [indexed] at member
    rcases List.mem_append.mp member with old | new
    · by_cases same : entry.row = row
      · simp [written, same]
      · simpa [written, same] using provenance.indexed entry old
    · obtain ⟨key, _, rfl⟩ := List.mem_map.mp new
      simp [written]
  · rw [sameScans, statement.nextTxId]
    exact provenance.scanner
  · rw [sameReads, statement.nextTxId]
    exact provenance.reader
  · intro reader other read
    rw [sameReads] at read
    exact provenance.readCreated_progress progress read
  · intro reader other read
    rw [sameReads] at read
    exact provenance.readLocked_progress progress read
  · intro scanner tableRoot access member
    rw [sameScans] at member
    exact (progress.entries scanner
      (provenance.scanner scanner tableRoot access member).2).locks _
      (provenance.scanLocked scanner tableRoot access member)
  · intro other otherSession otherRunning
    rw [sameSession] at otherRunning
    exact progress.worked (provenance.worked other otherSession otherRunning)
  · rw [sameOverwrites, sameReads]
    exact provenance.readBeforeWrite

theorem step
    {action : Action Values}
    (provenance : Provenance state)
    (lifecycle : Lifecycle state)
    (stepped : Interleaving.step state action = some next) :
    Provenance next := by
  have unchanged :
      ∀ {txId : Nat} {session changed : Session Values},
        state.openSession txId = some session →
        changed.snapshot = session.snapshot →
        changed.candidates = session.candidates →
        changed.tombstoned = session.tombstoned →
        Provenance (state.setSession txId changed) := by
    intro txId session changed opened sameSnapshot sameCandidates sameTombstoned
    have running := session_of_openSession opened
    have worked := provenance.worked txId session running
    exact provenance.setSession running sameSnapshot
      ⟨by rw [sameCandidates]; exact worked.collected,
        by rw [sameTombstoned]; exact worked.replaced⟩
  cases step_effect stepped with
  | begin => exact provenance.begin
  | @read txId tableRoot access session opened =>
      exact provenance.scan lifecycle (session_of_openSession opened) tableRoot
        access
  | @collect txId tableRoot access session opened =>
      have running := session_of_openSession opened
      exact (provenance.scan lifecycle running tableRoot access).setSession
        running rfl (worked_collected provenance running tableRoot access)
  | letThrough opened _ _ => exact unchanged opened rfl rfl rfl
  | conflict opened => exact unchanged opened rfl rfl rfl
  | tombstone opened _ candidate =>
      have running := session_of_openSession opened
      exact (provenance.writeTombstone running candidate).setSession running rfl
        (provenance.worked_tombstoned running candidate)
  | @insert txId row values keys session opened vacant =>
      exact (provenance.vacantWrite lifecycle (session_of_openSession opened)
        (.insert state txId row values keys) rfl rfl vacant rfl rfl rfl rfl).2
  | @insertVersion txId old row values keys session opened _ _ vacant =>
      exact (provenance.vacantWrite lifecycle (session_of_openSession opened)
        (.writeVersion state txId row values keys) rfl rfl vacant rfl rfl rfl
        rfl).2
  | fail opened => exact unchanged opened rfl rfl rfl
  | committed running _ => exact provenance.resolve lifecycle running _
  | refused running => exact provenance.resolve lifecycle running _
  | rolledBack running => exact provenance.resolve lifecycle running _

end Provenance

end PrehniteDB.Interleaving
