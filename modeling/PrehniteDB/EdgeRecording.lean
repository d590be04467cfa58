import PrehniteDB.SerializableIsolation

namespace PrehniteDB.Interleaving

/-!
# Read-write edges between transactions in flight

A write is checked against the read sets of its peers, whatever came first.  A
read is not checked against the writes of its peers, but for the tombstone an
index scan meets on a version it returns.  `Met` is the side condition under
which the write is checked after the read or carries that tombstone, and then
an edge is recorded whichever side acts first.
-/

variable {Values : Type}

/-- The version lies in what `txId` read: it was returned, or a scan ranges over it. -/
def State.Reached (state : State Values) (txId : Nat) (row : RowKey) : Prop :=
  state.trail.reads txId row = true ∨ state.Scanned txId row

/--
In the range of the scan lies no version a peer in flight created, and no
version it deleted but one that an index scan returns under its tombstone.
-/
def State.ScanMet
    (state : State Values)
    (txId : Nat)
    (tableRoot : UInt32)
    (access : AccessPath) : Prop :=
  ∀ session ∈ state.openSession txId,
    ∀ row,
      ∀ record ∈ state.rows row,
        access.covers state.index tableRoot row = true →
        (record.txMin = txId ∨ record.txMin ∉ state.tx.inFlight) ∧
        ∀ overwrite ∈ state.trail.overwrites,
          overwrite.row = row →
          overwrite.writer = txId ∨
            overwrite.writer ∉ state.tx.inFlight ∨
            (access ≠ .fullScan ∧
              state.sees session.snapshot row = true ∧
              record.txMax = overwrite.writer)

/-- Each side of a conflict between transactions in flight comes to be checked against the other. -/
def Met (state : State Values) : Action Values → Prop
  | .read txId tableRoot access => state.ScanMet txId tableRoot access
  | .collect txId tableRoot access => state.ScanMet txId tableRoot access
  | .tombstone txId row =>
      ∀ reader ∈ state.tx.inFlight,
        reader ≠ txId →
        state.Scanned reader row →
        state.Touched reader row
  | _ => True

/-- Every conflict between two transactions in flight has left its two flags. -/
structure EdgesRecorded (state : State Values) : Prop where
  deleted :
    ∀ reader ∈ state.tx.inFlight,
      ∀ overwrite ∈ state.trail.overwrites,
        overwrite.writer ∈ state.tx.inFlight →
        reader ≠ overwrite.writer →
        state.Reached reader overwrite.row →
        state.Flagged reader overwrite.writer
  inserted :
    ∀ reader ∈ state.tx.inFlight,
      ∀ row record,
        state.rows row = some record →
        record.txMin ∈ state.tx.inFlight →
        reader ≠ record.txMin →
        state.Scanned reader row →
        state.Flagged reader record.txMin

namespace EdgesRecorded

variable {state next : State Values}

theorem initial : EdgesRecorded (initial : State Values) where
  deleted := by simp [Interleaving.initial]
  inserted := by simp [Interleaving.initial]

/-- Whoever has read anything has an id. -/
theorem reached_assigned
    (provenance : Provenance state)
    {txId : Nat}
    {row : RowKey}
    (reached : state.Reached txId row) :
    txId < state.tx.nextTxId := by
  rcases reached with read | ⟨tableRoot, access, member, _⟩
  · exact (provenance.reader txId row read).2
  · exact (provenance.scanner txId tableRoot access member).2

theorem deleted_progress
    (recorded : EdgesRecorded state)
    (provenance : Provenance state)
    (progress : Progress state next)
    {reader : Nat}
    {overwrite : Overwrite}
    (member : overwrite ∈ state.trail.overwrites)
    (reached : state.Reached reader overwrite.row)
    (different : reader ≠ overwrite.writer)
    (readerActive : reader ∈ state.tx.inFlight)
    (writerActive : overwrite.writer ∈ state.tx.inFlight) :
    next.Flagged reader overwrite.writer :=
  progress.flagged (reached_assigned provenance reached)
    (provenance.overwriter member).2
    (recorded.deleted reader readerActive overwrite member writerActive
      different reached)

theorem inserted_progress
    (recorded : EdgesRecorded state)
    (provenance : Provenance state)
    (progress : Progress state next)
    {reader : Nat}
    {row : RowKey}
    {record : RowRecord Values}
    (scanned : state.Scanned reader row)
    (stored : state.rows row = some record)
    (different : reader ≠ record.txMin)
    (readerActive : reader ∈ state.tx.inFlight)
    (writerActive : record.txMin ∈ state.tx.inFlight) :
    next.Flagged reader record.txMin :=
  progress.flagged (reached_assigned provenance (.inr scanned))
    (provenance.creator row record stored).2
    (recorded.inserted reader readerActive row record stored writerActive
      different scanned)

/-- A step that reads and writes no row has no new edge to record. -/
theorem quiet
    (recorded : EdgesRecorded state)
    (provenance : Provenance state)
    (progress : Progress state next)
    (sameRows : next.rows = state.rows)
    (sameIndex : next.index = state.index)
    (sameReads : next.trail.reads = state.trail.reads)
    (sameScans : next.trail.scans = state.trail.scans)
    (sameOverwrites : next.trail.overwrites = state.trail.overwrites)
    (wasActive :
      ∀ txId ∈ next.tx.inFlight,
        txId < state.tx.nextTxId →
        txId ∈ state.tx.inFlight) :
    EdgesRecorded next where
  deleted := by
    intro reader readerActive overwrite member writerActive different reached
    rw [sameOverwrites] at member
    rw [State.Reached, State.Scanned, sameReads, sameScans, sameIndex]
      at reached
    exact recorded.deleted_progress provenance progress member reached different
      (wasActive reader readerActive (reached_assigned provenance reached))
      (wasActive _ writerActive (provenance.overwriter member).2)
  inserted := by
    intro reader readerActive row record stored writerActive different scanned
    rw [sameRows] at stored
    rw [State.Scanned, sameScans, sameIndex] at scanned
    exact recorded.inserted_progress provenance progress scanned stored
      different
      (wasActive reader readerActive
        (reached_assigned provenance (.inr scanned)))
      (wasActive _ writerActive (provenance.creator row record stored).2)

theorem begin
    (recorded : EdgesRecorded state)
    (provenance : Provenance state) :
    EdgesRecorded state.begin := by
  refine recorded.quiet provenance (.begin state) rfl rfl rfl rfl rfl ?_
  intro txId active assigned
  rw [State.begin_inFlight, Finset.mem_insert] at active
  exact active.resolve_left (Nat.ne_of_lt assigned)

theorem resolve
    (recorded : EdgesRecorded state)
    (provenance : Provenance state)
    (lifecycle : Lifecycle state)
    {txId : Nat}
    {session : Session Values}
    (running : state.session txId = some session)
    (outcome : Status) :
    EdgesRecorded (state.resolve txId outcome) := by
  refine recorded.quiet provenance (.resolve lifecycle running outcome)
    rfl rfl rfl rfl rfl ?_
  intro other active _
  rw [State.resolve_inFlight] at active
  exact Finset.mem_of_mem_erase active

theorem setSession
    (recorded : EdgesRecorded state)
    (provenance : Provenance state)
    {txId : Nat}
    {session changed : Session Values}
    (running : state.session txId = some session)
    (sameSnapshot : changed.snapshot = session.snapshot) :
    EdgesRecorded (state.setSession txId changed) :=
  recorded.quiet provenance (.setSession state running sameSnapshot)
    rfl rfl rfl rfl rfl fun _ active _ => active

theorem scan
    (recorded : EdgesRecorded state)
    (provenance : Provenance state)
    (lifecycle : Lifecycle state)
    {txId : Nat}
    {tableRoot : UInt32}
    {access : AccessPath}
    {session : Session Values}
    (opened : state.openSession txId = some session)
    (met : state.ScanMet txId tableRoot access) :
    EdgesRecorded (state.scan txId session.snapshot tableRoot access) := by
  have running := session_of_openSession opened
  have own := lifecycle.ownTx running
  have progress :=
    Provenance.progress_scan state txId session.snapshot tableRoot access
  have scannedBefore :
      ∀ {reader : Nat} {row : RowKey},
        (state.scan txId session.snapshot tableRoot access).Scanned reader row →
        state.Scanned reader row ∨
          (reader = txId ∧
            access.covers state.index tableRoot row = true) := by
    rintro reader row ⟨root, path, member, covered⟩
    rcases List.mem_cons.mp member with new | old
    · obtain ⟨rfl, rest⟩ := Prod.mk.inj new
      obtain ⟨rfl, rfl⟩ := Prod.mk.inj rest
      exact .inr ⟨rfl, covered⟩
    · exact .inl ⟨root, path, old, covered⟩
  have reachedBefore :
      ∀ {reader : Nat} {row : RowKey},
        (state.scan txId session.snapshot tableRoot access).Reached reader row →
        state.Reached reader row ∨
          (reader = txId ∧
            access.covers state.index tableRoot row = true) := by
    rintro reader row (read | scanned)
    · have oldOrNew : state.trail.reads reader row = true ∨
          (reader = txId ∧
            state.returned session.snapshot tableRoot access row = true) := by
        simpa [State.scan] using read
      rcases oldOrNew with old | ⟨new, returned⟩
      · exact .inl (.inl old)
      · exact .inr ⟨new, (Bool.and_eq_true_iff.mp returned).1⟩
    · exact (scannedBefore scanned).imp_left .inr
  constructor
  · intro reader readerActive overwrite member writerActive different reached
    rcases reachedBefore reached with old | ⟨rfl, covered⟩
    · exact recorded.deleted_progress provenance progress member old different
        readerActive writerActive
    · -- The new scan meets the version, and finds the writer's stamp on it.
      obtain ⟨record, stored, _⟩ := provenance.readCreated _ _
        (provenance.readBeforeWrite overwrite member)
      rcases (met session opened overwrite.row record stored covered).2
          overwrite member rfl with mine | ended | ⟨byIndex, seen, stamp⟩
      · exact (different mine.symm).elim
      · exact (ended writerActive).elim
      · have flags := Recorded.scanLocks_flagged own
          (lifecycle.tracked ▸ readerActive) byIndex covered seen stored
          (by rw [lifecycle.tracked, stamp]; exact writerActive)
          (by rw [stamp]; exact different.symm)
          (by rw [stamp]; exact (provenance.overwriter member).1.ne')
        rwa [stamp] at flags
  · intro reader readerActive row record stored writerActive different scanned
    rcases scannedBefore scanned with old | ⟨rfl, covered⟩
    · exact recorded.inserted_progress provenance progress old stored different
        readerActive writerActive
    · rcases (met session opened row record stored covered).1 with mine | ended
      · exact (different mine.symm).elim
      · exact (ended writerActive).elim

theorem writeTombstone
    (recorded : EdgesRecorded state)
    (provenance : Provenance state)
    (lifecycle : Lifecycle state)
    {txId : Nat}
    {row : RowKey}
    {session : Session Values}
    {record : RowRecord Values}
    (running : state.session txId = some session)
    (candidate : session.candidates row = some record)
    (met :
      ∀ reader ∈ state.tx.inFlight,
        reader ≠ txId →
        state.Scanned reader row →
        state.Touched reader row) :
    EdgesRecorded (state.writeTombstone txId row record) := by
  have progress := provenance.progress_writeTombstone running candidate
  constructor
  · intro reader readerActive overwrite member writerActive different reached
    replace reached : state.Reached reader overwrite.row := reached
    rcases List.mem_cons.mp member with rfl | member
    · have touched : state.Touched reader row :=
        reached.elim .inl (met reader readerActive different)
      obtain ⟨lock, held, covered⟩ :=
        Recorded.lock_of_touched provenance touched
      exact Recorded.flagged_of_markReaders (lifecycle.tracked ▸ readerActive)
        (lifecycle.tracked ▸ writerActive) different held covered
    · exact recorded.deleted_progress provenance progress member reached
        different readerActive writerActive
  · intro reader readerActive other stored present writerActive different
      scanned
    by_cases same : other = row
    · subst same
      obtain ⟨_, found, foundPresent, sameCreator⟩ :=
        (provenance.worked txId session running).collected other record candidate
      simp only [State.writeTombstone, Function.update_self,
        Option.some.injEq] at present
      have creator : stored.txMin = found.txMin := by
        rw [← present, sameCreator]
      rw [creator] at different writerActive ⊢
      exact recorded.inserted_progress provenance progress scanned
        foundPresent different readerActive writerActive
    · simp only [State.writeTombstone, Function.update_of_ne same] at present
      exact recorded.inserted_progress provenance progress scanned present
        different readerActive writerActive

theorem vacantWrite
    (recorded : EdgesRecorded state)
    (provenance : Provenance state)
    (lifecycle : Lifecycle state)
    (progress : Progress state next)
    (statement : Statement state next)
    {txId : Nat}
    {row : RowKey}
    {values : Values}
    {keys : List (UInt32 × List UInt8)}
    (written :
      next.rows = Function.update state.rows row
        (some { txMin := txId, txMax := 0, values := values }))
    (indexed : next.index = state.index ++ indexEntries row keys)
    (vacant : state.rows row = none)
    (sameReads : next.trail.reads = state.trail.reads)
    (sameScans : next.trail.scans = state.trail.scans)
    (sameOverwrites : next.trail.overwrites = state.trail.overwrites)
    (keysRecorded :
      (State.indexInsertRow state.tx.ssi txId keys).Extends next.tx.ssi)
    (tableRecorded :
      ∀ reader ∈ state.tx.inFlight,
        (reader, row.tableRoot, AccessPath.fullScan) ∈ state.trail.scans →
        reader ≠ txId →
        next.Flagged reader txId) :
    EdgesRecorded next := by
  have scannedBefore :
      ∀ {reader : Nat} {other : RowKey},
        other ≠ row →
        next.Scanned reader other →
        state.Scanned reader other := by
    rintro reader other different ⟨tableRoot, access, member, covered⟩
    rw [sameScans] at member
    rw [indexed, Recorded.covers_append_other different] at covered
    exact ⟨tableRoot, access, member, covered⟩
  constructor
  · intro reader readerActive overwrite member writerActive different reached
    rw [statement.inFlight] at readerActive writerActive
    rw [sameOverwrites] at member
    -- What was replaced was stored, so it is not the vacant key.
    have other : overwrite.row ≠ row := by
      intro same
      obtain ⟨record, stored, _⟩ := provenance.readCreated _ _
        (provenance.readBeforeWrite overwrite member)
      rw [same, vacant] at stored
      cases stored
    rw [State.Reached, sameReads] at reached
    exact recorded.deleted_progress provenance progress member
      (reached.imp_right (scannedBefore other)) different readerActive
      writerActive
  · intro reader readerActive other record stored writerActive different scanned
    rw [statement.inFlight] at readerActive writerActive
    by_cases same : other = row
    · subst same
      simp only [written, Function.update_self, Option.some.injEq] at stored
      rw [← stored] at different writerActive ⊢
      obtain ⟨tableRoot, access, member, covered⟩ := scanned
      rw [sameScans] at member
      rw [indexed] at covered
      cases access with
      | fullScan =>
          rw [← tableRoot_of_covers covered] at member
          exact tableRecorded reader readerActive member different
      | indexScan indexRoot lower upper =>
          have flags := Recorded.flagged_of_newKey provenance vacant member
            covered different (lifecycle.tracked ▸ readerActive)
            (lifecycle.tracked ▸ writerActive)
          exact ⟨(keysRecorded.grows _).outFlag flags.1,
            (keysRecorded.grows _).inFlag flags.2⟩
    · rw [written, Function.update_of_ne same] at stored
      exact recorded.inserted_progress provenance progress
        (scannedBefore same scanned) stored different readerActive writerActive

/-- Every step keeps the recorded edges. -/
theorem step
    {action : Action Values}
    (recorded : EdgesRecorded state)
    (provenance : Provenance state)
    (lifecycle : Lifecycle state)
    (met : Met state action)
    (stepped : Interleaving.step state action = some next) :
    EdgesRecorded next := by
  cases step_effect stepped with
  | begin => exact recorded.begin provenance
  | read opened => exact recorded.scan provenance lifecycle opened met
  | @collect txId tableRoot access session opened =>
      have running := session_of_openSession opened
      exact (recorded.scan provenance lifecycle opened met).setSession
        (provenance.scan lifecycle running tableRoot access) running rfl
  | letThrough opened _ _ =>
      exact recorded.setSession provenance (session_of_openSession opened) rfl
  | conflict opened =>
      exact recorded.setSession provenance (session_of_openSession opened) rfl
  | tombstone opened _ candidate =>
      have running := session_of_openSession opened
      exact (recorded.writeTombstone provenance lifecycle running candidate
        met).setSession (provenance.writeTombstone running candidate) running
          rfl
  | @insert txId row values keys session opened vacant =>
      have running := session_of_openSession opened
      have statement := Statement.insert state txId row values keys
      have progress := (provenance.vacantWrite lifecycle running statement rfl
        rfl vacant rfl rfl rfl rfl).1
      refine recorded.vacantWrite provenance lifecycle progress statement rfl
        rfl vacant rfl rfl rfl
        (SsiMap.recordInsert_extends (some txId) row.tableRoot) ?_
      intro reader readerActive wholeTable different
      exact Recorded.flagged_of_insert provenance wholeTable different
        (lifecycle.tracked ▸ readerActive)
        (lifecycle.tracked ▸ lifecycle.active running) values keys
  | @insertVersion txId old row values keys session opened replaced sameTable
      vacant =>
      have running := session_of_openSession opened
      have statement := Statement.writeVersion state txId row values keys
      have progress := (provenance.vacantWrite lifecycle running statement rfl
        rfl vacant rfl rfl rfl rfl).1
      refine recorded.vacantWrite provenance lifecycle progress statement rfl
        rfl vacant rfl rfl rfl (.refl _) ?_
      -- A reader of the whole table met the tombstone of the old version.
      intro reader readerActive wholeTable different
      obtain ⟨overwrite, member, sameRow, rfl⟩ :=
        (provenance.worked txId session running).replaced old replaced
      have reached : state.Reached reader overwrite.row := by
        refine .inr ⟨row.tableRoot, .fullScan, wholeTable, ?_⟩
        simp [AccessPath.covers, sameRow, sameTable]
      exact recorded.deleted_progress provenance progress member reached
        different readerActive (lifecycle.active running)
  | fail opened =>
      exact recorded.setSession provenance (session_of_openSession opened) rfl
  | committed running _ =>
      exact recorded.resolve provenance lifecycle running _
  | refused running => exact recorded.resolve provenance lifecycle running _
  | rolledBack running => exact recorded.resolve provenance lifecycle running _

/-- They are kept along every run. -/
theorem reachable
    {actions : List (Action Values)}
    (run : TransitionRun.Run Interleaving.step Met Interleaving.initial actions
      state) :
    Lifecycle state ∧ Provenance state ∧ EdgesRecorded state :=
  run.invariant
    (fun state => Lifecycle state ∧ Provenance state ∧ EdgesRecorded state)
    (fun ⟨lifecycle, provenance, recorded⟩ met stepped =>
      ⟨lifecycle.step stepped, provenance.step lifecycle stepped,
        recorded.step provenance lifecycle met stepped⟩)
    ⟨.initial, .initial, .initial⟩

end EdgesRecorded

namespace State

/-- `reader` has read what `writer` inserted, updated or deleted. -/
def Conflict (state : State Values) (reader writer : Nat) : Prop :=
  ∃ row,
    state.Reached reader row ∧
      (state.Created writer row ∨ state.Deleted writer row)

/-- Between transactions in flight every conflict has left its two flags. -/
def EdgesFlagged (state : State Values) : Prop :=
  ∀ reader ∈ state.tx.inFlight,
    ∀ writer ∈ state.tx.inFlight,
      reader ≠ writer →
      state.Conflict reader writer →
      state.Flagged reader writer

end State

/-- Whichever side acts first, a conflict of a run whose steps are met is flagged. -/
theorem edges_flagged_of_met
    {actions : List (Action Values)}
    {final : State Values}
    (run : TransitionRun.Run step Met initial actions final) :
    final.EdgesFlagged := by
  obtain ⟨lifecycle, provenance, recorded⟩ := EdgesRecorded.reachable run
  rintro reader readerActive writer writerActive different
    ⟨row, reached, created | deleted⟩
  · obtain ⟨record, stored, rfl⟩ := created
    rcases reached with read | scanned
    · obtain ⟨found, present, origin⟩ := provenance.readCreated reader row read
      obtain rfl := Option.some.inj (stored.symm.trans present)
      -- A version of a transaction in flight is returned to nobody else.
      rcases origin with mine | ⟨snapshot, taken, past⟩
      · exact (different mine.symm).elim
      · exact (lifecycle.activePast reader snapshot record.txMin taken
          writerActive past).elim
    · exact recorded.inserted reader readerActive row record stored writerActive
        different scanned
  · obtain ⟨overwrite, member, rfl, rfl⟩ := deleted
    exact recorded.deleted reader readerActive overwrite member writerActive
      different reached

/-- A scan of an empty table and the insert that follows it are met. -/
theorem edges_flagged_scan_then_insert :
    ∃ final : State Nat,
      final.Conflict 1 2 ∧ final.EdgesFlagged ∧ final.Flagged 1 2 := by
  have met :
      (initial : State Nat).begin.begin.ScanMet 1 7 .fullScan := by
    intro session _ row record stored
    cases stored
  have run :
      ∃ final : State Nat,
        (1 ∈ final.tx.inFlight ∧ 2 ∈ final.tx.inFlight) ∧
          final.Conflict 1 2 ∧
          TransitionRun.Run step Met (initial : State Nat)
            [.begin, .begin, .read 1 7 .fullScan, .insert 2 contendedRow 0 []]
            final :=
    ⟨_, by decide,
      ⟨contendedRow, .inr ⟨7, .fullScan, List.mem_cons_self, rfl⟩,
        .inl ⟨_, rfl, rfl⟩⟩,
      .cons trivial rfl
        (.cons trivial rfl
          (.cons met rfl
            (.cons trivial rfl (.nil _))))⟩
  obtain ⟨final, active, conflict, run⟩ := run
  have flagged := edges_flagged_of_met run
  exact ⟨final, conflict, flagged,
    flagged 1 active.1 2 active.2 (by decide) conflict⟩

/-- Transaction 3 deletes the only row; transaction 2 then scans the table. -/
def deleteThenScan : List (Action Nat) :=
  [.begin, .insert 1 contendedRow 0 [], .commit 1, .begin, .begin,
    .collect 3 7 .fullScan, .check 3 contendedRow, .tombstone 3 contendedRow,
    .read 2 7 .fullScan]

/-- A full scan that comes after the delete leaves no flag. -/
theorem delete_then_scan_unflagged :
    ¬ ∀ (actions : List (Action Nat)) (final : State Nat),
      TransitionRun.Run step TransitionRun.unrestricted initial actions final →
      final.EdgesFlagged := by
  intro claim
  have replayed :
      ((TransitionRun.replay step TransitionRun.unrestricted initial
        deleteThenScan).map fun final =>
          (decide (2 ∈ final.tx.inFlight), decide (3 ∈ final.tx.inFlight),
            final.trail.reads 2 contendedRow, final.trail.overwrites,
            (final.tx.ssi.entry 2).outConflict)) =
        some (true, true, true,
          [{ row := contendedRow, previous := 0, writer := 3 }], false) := by
    decide
  obtain ⟨final, reached, observed⟩ := Option.map_eq_some_iff.mp replayed
  simp only [Prod.mk.injEq, decide_eq_true_eq] at observed
  obtain ⟨readerActive, writerActive, read, overwrites, unflagged⟩ := observed
  have conflict : final.Conflict 2 3 :=
    ⟨contendedRow, .inl read,
      .inr ⟨_, overwrites ▸ List.mem_cons_self, rfl, rfl⟩⟩
  have flagged := claim _ final (TransitionRun.run_of_replay reached) 2
    readerActive 3 writerActive (by decide) conflict
  have raised := flagged.1
  rw [unflagged] at raised
  cases raised

end PrehniteDB.Interleaving
