import PrehniteDB.UniqueValues
import PrehniteDB.UniqueWriters

namespace PrehniteDB.UniqueWriters

open Interleaving (IndexEntry Lifecycle Stamped Progress Statement Undisturbed)
open Constraints (Agree Shares)
open TransitionRun

/-!
# What keeps a unique index unique

Two versions with one value are harmless when one of them supersedes the other:
its tombstone is by a transaction that every reader of the other one sees.
`UPDATE` without a probe only ever extends such a line of versions at its end,
and a probed value starts a new one, as long as no peer's entry comes in
between the probe and the insertion.
-/

/-- The same value in every column of the index, and no NULL. -/
def Same (index : Index) (first second : Row) : Prop :=
  ∀ position ∈ index.columns,
    column first position = column second position ∧
      (column first position).isNull = false

theorem Same.symm
    {index : Index}
    {first second : Row}
    (same : Same index first second) :
    Same index second first := by
  intro position member
  obtain ⟨equal, present⟩ := same position member
  exact ⟨equal.symm, equal ▸ present⟩

/-- The tombstone of `first` is by a transaction that whoever sees `second` sees. -/
def Succeeds
    (base : Interleaving.State Row)
    (first second : RowRecord Row) : Prop :=
  first.txMax ≠ 0 ∧
    base.Live first.txMax ∧
    (first.txMax = second.txMin ∨ base.PastFor second.txMin first.txMax)

namespace Writing

/-- The version an `UPDATE` is replacing. -/
def old : Writing → Option (RowKey × Row)
  | .idle => none
  | .replaced row values => some (row, values)
  | .indexing _ _ old _ _ => old

/-- The new version is not in this index yet. -/
def Opens (writing : Writing) (index : Index) : Prop :=
  match writing with
  | .idle => False
  | .replaced _ _ => True
  | .indexing _ _ _ remaining _ => index ∈ remaining

end Writing

/-- The row has been put into the table and not yet into the index. -/
def Pending (state : State) (row : RowKey) (index : Index) : Prop :=
  ∃ txId values old remaining probed,
    state.writing txId = .indexing row values old remaining probed ∧
      index ∈ remaining

/-! ## Facts about the transactions underneath -/

namespace Base

variable {base next : Interleaving.State Row}

theorem pastFor_ended
    (lifecycle : Lifecycle base)
    {later earlier : Nat}
    (past : base.PastFor later earlier) :
    earlier ∉ base.tx.inFlight := by
  obtain ⟨snapshot, taken, before⟩ := past
  intro active
  exact lifecycle.activePast later snapshot earlier taken active before

theorem pastFor_trans
    (lifecycle : Lifecycle base)
    {first second third : Nat}
    (positive : 0 < second)
    (early : 0 < first)
    (past : base.PastFor third second)
    (before : base.PastFor second first) :
    base.PastFor third first := by
  have secondEnded := pastFor_ended lifecycle past
  have firstEnded := pastFor_ended lifecycle before
  obtain ⟨snapshot, taken, seen⟩ := past
  obtain ⟨other, otherTaken, otherSeen⟩ := before
  have secondBelow : second < base.tx.nextTxId :=
    Nat.lt_of_lt_of_le seen.1 (lifecycle.own third snapshot taken).2
  have firstBelow : first < base.tx.nextTxId :=
    Nat.lt_of_lt_of_le otherSeen.1 (lifecycle.own second other otherTaken).2
  have ended :=
    (lifecycle.past_iff third snapshot second taken positive secondBelow secondEnded).mp seen
  have endedBefore :=
    (lifecycle.past_iff second other first otherTaken early firstBelow firstEnded).mp otherSeen
  have interval := lifecycle.interval second positive secondBelow secondEnded
  refine ⟨snapshot, taken, ?_⟩
  exact (lifecycle.past_iff third snapshot first taken early firstBelow firstEnded).mpr
    (by omega)

theorem committed_of_ended
    (lifecycle : Lifecycle base)
    {txId : Nat}
    (positive : 0 < txId)
    (below : txId < base.tx.nextTxId)
    (ended : txId ∉ base.tx.inFlight)
    (live : base.Live txId) :
    base.tx.clog.status txId = some .committed := by
  obtain ⟨outcome, answer⟩ :=
    Option.isSome_iff_exists.mp (lifecycle.resolved txId positive below ended)
  cases outcome with
  | committed => exact answer
  | rolledBack => exact absurd answer live

theorem live_of_active
    (lifecycle : Lifecycle base)
    {txId : Nat}
    (active : txId ∈ base.tx.inFlight) :
    base.Live txId := by
  rw [Interleaving.State.Live, lifecycle.unresolved txId (.inr (.inl active))]
  rintro ⟨⟩

theorem live_of_committed
    {txId : Nat}
    (committed : base.tx.clog.status txId = some .committed) :
    base.Live txId := by
  rw [Interleaving.State.Live, committed]
  rintro ⟨⟩

/-- The creator of a version a transaction may replace: itself, or one it sees. -/
def Seen (base : Interleaving.State Row) (txId creator : Nat) : Prop :=
  creator = txId ∨ (base.PastFor txId creator ∧ base.Live creator)

theorem Seen.live
    (lifecycle : Lifecycle base)
    {txId creator : Nat}
    (active : txId ∈ base.tx.inFlight)
    (seen : Seen base txId creator) :
    base.Live creator := by
  rcases seen with own | ⟨_, live⟩
  · exact own ▸ live_of_active lifecycle active
  · exact live

/-- What no step changes about a transaction that has ended. -/
def Settled (base next : Interleaving.State Row) : Prop :=
  ∀ txId, txId ∉ base.tx.inFlight → base.Live txId → next.Live txId

theorem settled_of_clog
    (same : next.tx.clog = base.tx.clog) :
    Settled base next := by
  intro txId _ live
  rwa [Interleaving.State.Live, same]

theorem settled_resolve
    {txId : Nat}
    {outcome : Status}
    (active : txId ∈ base.tx.inFlight) :
    Settled base (base.resolve txId outcome) := by
  intro other ended live
  have different : other ≠ txId := fun same => ended (same ▸ active)
  rwa [Interleaving.State.Live, Interleaving.State.resolve_clog,
    Clog.status_append_other different]

theorem Seen.mono
    (lifecycle : Lifecycle base)
    (progress : Progress base next)
    (settled : Settled base next)
    {txId creator : Nat}
    (active : txId ∈ base.tx.inFlight)
    (seen : Seen base txId creator) :
    Seen next txId creator := by
  rcases seen with own | ⟨past, live⟩
  · exact Or.inl own
  · exact Or.inr
      ⟨(progress.past txId creator (lifecycle.assigned txId active).2).mpr past,
        settled creator (pastFor_ended lifecycle past) live⟩

/-- Entries may come and go as long as every one names a stored row. -/
theorem provenance_reindex
    (provenance : Interleaving.Provenance base)
    {index : List IndexEntry}
    (stored : ∀ entry ∈ index, (base.rows entry.row).isSome = true) :
    Interleaving.Provenance { base with index := index } where
  creator := provenance.creator
  indexed := stored
  scanner := provenance.scanner
  reader := provenance.reader
  readCreated := provenance.readCreated
  readLocked := provenance.readLocked
  scanLocked := provenance.scanLocked
  worked txId session running :=
    ⟨(provenance.worked txId session running).collected,
      (provenance.worked txId session running).replaced⟩
  readBeforeWrite := provenance.readBeforeWrite

theorem statement_insertEntry (base : Interleaving.State Row) (txId : Nat) (entry : IndexEntry) :
    Statement base (State.insertEntry base txId entry) :=
  { Statement.refl base with
    ssi := SsiMap.recordIndexWrite_extends (some txId) entry.indexRoot entry.encodedKey }

theorem provenance_insertEntry
    (provenance : Interleaving.Provenance base)
    (txId : Nat)
    {entry : IndexEntry}
    (stored : (base.rows entry.row).isSome = true) :
    Interleaving.Provenance (State.insertEntry base txId entry) := by
  have recorded :
      Interleaving.Provenance { base with
        tx := { base.tx with
          ssi := base.tx.ssi.recordIndexWrite (some txId) entry.indexRoot entry.encodedKey } } := by
    refine provenance.quiet ?_ rfl rfl rfl rfl rfl fun other session running =>
      provenance.worked other session running
    exact .of_statement
      { Statement.refl base with
        ssi := SsiMap.recordIndexWrite_extends (some txId) entry.indexRoot entry.encodedKey }
      (fun _ record stored => ⟨record, stored, rfl⟩)
      (fun _ _ read => read)
      (fun _ member => member)
  refine provenance_reindex recorded ?_
  intro listed member
  rcases List.mem_append.mp member with before | new
  · exact provenance.indexed listed before
  · obtain rfl := List.mem_singleton.mp new
    exact stored

end Base

/-! ## The invariant -/

/-- The three invariants of the transactions. -/
structure Founded (base : Interleaving.State Row) : Prop where
  lifecycle : Lifecycle base
  stamped : Stamped base
  provenance : Interleaving.Provenance base

structure Kept (catalog : Catalog) (state : State) : Prop where
  /-- A row that is not on its way into an index is in it. -/
  entered :
    ∀ {row record index},
      state.base.rows row = some record →
      state.base.Live record.txMin →
      index ∈ catalog row.tableRoot →
      index.unique = true →
      ¬ Pending state row index →
      entryOf index record.values row ∈ state.base.index
  written :
    ∀ {txId row values old remaining probed},
      state.writing txId = .indexing row values old remaining probed →
      (∃ record,
        state.base.rows row = some record ∧
          record.txMin = txId ∧ record.values = values) ∧
        (∀ index ∈ remaining, index ∈ catalog row.tableRoot) ∧
        ∀ replaced ∈ old, replaced.1.tableRoot = row.tableRoot ∧ replaced.1 ≠ row
  replaced :
    ∀ {txId old values},
      (state.writing txId).old = some (old, values) →
      ∃ record,
        state.base.rows old = some record ∧
          record.values = values ∧
          record.txMax = txId ∧
          Base.Seen state.base txId record.txMin
  running :
    ∀ {txId},
      state.writing txId ≠ .idle →
      txId ∈ state.base.tx.inFlight
  /-- The version being replaced is the last of its line. -/
  last :
    ∀ {txId old values index row record oldRecord},
      (state.writing txId).old = some (old, values) →
      (state.writing txId).Opens index →
      index ∈ catalog old.tableRoot →
      index.unique = true →
      state.base.rows old = some oldRecord →
      state.base.rows row = some record →
      row ≠ old →
      row.tableRoot = old.tableRoot →
      state.base.Live record.txMin →
      ¬ Pending state row index →
      Same index record.values values →
      Succeeds state.base record oldRecord
  paired :
    ∀ {first second firstRecord secondRecord index},
      first ≠ second →
      first.tableRoot = second.tableRoot →
      state.base.rows first = some firstRecord →
      state.base.rows second = some secondRecord →
      state.base.Live firstRecord.txMin →
      state.base.Live secondRecord.txMin →
      index ∈ catalog first.tableRoot →
      index.unique = true →
      ¬ Pending state first index →
      ¬ Pending state second index →
      Same index firstRecord.values secondRecord.values →
      Succeeds state.base firstRecord secondRecord ∨
        Succeeds state.base secondRecord firstRecord
  agree :
    ∀ {first second firstRecord secondRecord index position},
      first ≠ second →
      first.tableRoot = second.tableRoot →
      state.base.rows first = some firstRecord →
      state.base.rows second = some secondRecord →
      index ∈ catalog first.tableRoot →
      index.unique = true →
      position ∈ index.columns →
      Agree (column firstRecord.values position) (column secondRecord.values position)
  /-- A candidate is a copy of a version its transaction has not tombstoned. -/
  candidates :
    ∀ {txId session row record},
      state.base.session txId = some session →
      session.candidates row = some record →
      record.txMax ≠ txId ∧
        Base.Seen state.base txId record.txMin ∧
        ∃ stored,
          state.base.rows row = some stored ∧
            stored.txMin = record.txMin ∧
            stored.values = record.values
  closed :
    ∀ snapshot ∈ state.readers,
      snapshot.ownTx = none ∧
        snapshot.nextTx ≤ state.base.tx.nextTxId ∧
        ∀ {later earlier},
          snapshot.Past later →
          state.base.PastFor later earlier →
          snapshot.Past earlier

variable {catalog : Catalog} {state next : State}

/-- One connection writes one row at a time, and each row is written by one. -/
theorem Kept.pending_writer
    (kept : Kept catalog state)
    {row : RowKey}
    {record : RowRecord Row}
    {index : Index}
    (stored : state.base.rows row = some record)
    (pending : Pending state row index) :
    ∃ values old remaining probed,
      state.writing record.txMin = .indexing row values old remaining probed ∧
        index ∈ remaining := by
  obtain ⟨txId, values, old, remaining, probed, writing, member⟩ := pending
  obtain ⟨⟨found, present, creator, _⟩, _⟩ := kept.written writing
  obtain rfl := Option.some.inj (stored.symm.trans present)
  exact ⟨values, old, remaining, probed, creator ▸ writing, member⟩

theorem Kept.pending_active
    (kept : Kept catalog state)
    {row : RowKey}
    {record : RowRecord Row}
    {index : Index}
    (stored : state.base.rows row = some record)
    (pending : Pending state row index) :
    record.txMin ∈ state.base.tx.inFlight := by
  obtain ⟨_, _, _, _, writing, _⟩ := kept.pending_writer stored pending
  exact kept.running (by rw [writing]; nofun)

theorem Succeeds.mono
    {base later : Interleaving.State Row}
    {first second : RowRecord Row}
    (succeeds : Succeeds base first second)
    (lifecycle : Lifecycle base)
    (progress : Progress base later)
    (settled : Base.Settled base later)
    (assigned : second.txMin < base.tx.nextTxId)
    (live : later.Live second.txMin) :
    Succeeds later first second := by
  obtain ⟨positive, alive, order⟩ := succeeds
  rcases order with same | past
  · exact ⟨positive, same ▸ live, Or.inl same⟩
  · exact ⟨positive, settled _ (Base.pastFor_ended lifecycle past) alive,
      Or.inr ((progress.past second.txMin first.txMax assigned).mpr past)⟩

/-- What replaces a version is in flight. -/
theorem Kept.replacing_active
    (kept : Kept catalog state)
    {txId : Nat}
    {former : RowKey × Row}
    (replacing : (state.writing txId).old = some former) :
    txId ∈ state.base.tx.inFlight := by
  refine kept.running fun idle => ?_
  rw [idle] at replacing
  cases replacing

theorem Founded.assigned
    {base : Interleaving.State Row}
    (founded : Founded base)
    {row : RowKey}
    {record : RowRecord Row}
    (stored : base.rows row = some record) :
    record.txMin < base.tx.nextTxId :=
  (founded.provenance.creator row record stored).2

/-! ## What the invariant says of a later state -/

section Onward

variable {later : Interleaving.State Row}

theorem Kept.replaced_onward
    (kept : Kept catalog state)
    (founded : Founded state.base)
    (progress : Progress state.base later)
    (settled : Base.Settled state.base later)
    {txId : Nat}
    {old : RowKey}
    {values : Row}
    (replacing : (state.writing txId).old = some (old, values)) :
    ∃ record,
      state.base.rows old = some record ∧
        record.values = values ∧
        record.txMax = txId ∧
        Base.Seen later txId record.txMin := by
  obtain ⟨record, stored, same, stamp, seen⟩ := kept.replaced replacing
  exact ⟨record, stored, same, stamp,
    seen.mono founded.lifecycle progress settled (kept.replacing_active replacing)⟩

/-- The version being replaced stays the last of its line. -/
theorem Kept.last_onward
    (kept : Kept catalog state)
    (founded : Founded state.base)
    (lifecycle : Lifecycle later)
    (progress : Progress state.base later)
    (settled : Base.Settled state.base later)
    {txId : Nat}
    {old row : RowKey}
    {values : Row}
    {index : Index}
    {record oldRecord : RowRecord Row}
    (active : txId ∈ later.tx.inFlight)
    (replacing : (state.writing txId).old = some (old, values))
    (opens : (state.writing txId).Opens index)
    (member : index ∈ catalog old.tableRoot)
    (unique : index.unique = true)
    (oldStored : state.base.rows old = some oldRecord)
    (stored : state.base.rows row = some record)
    (different : row ≠ old)
    (table : row.tableRoot = old.tableRoot)
    (live : later.Live record.txMin)
    (clear : ¬ Pending state row index)
    (same : Same index record.values values) :
    Succeeds later record oldRecord := by
  have succeeds := kept.last replacing opens member unique oldStored stored different table
    (progress.live _ live) clear same
  obtain ⟨found, present, _, _, seen⟩ := kept.replaced_onward founded progress settled replacing
  obtain rfl := Option.some.inj (oldStored.symm.trans present)
  exact succeeds.mono founded.lifecycle progress settled (founded.assigned oldStored)
    (seen.live lifecycle active)

/-- Of two versions of one value, one still supersedes the other. -/
theorem Kept.paired_onward
    (kept : Kept catalog state)
    (founded : Founded state.base)
    (progress : Progress state.base later)
    (settled : Base.Settled state.base later)
    {first second : RowKey}
    {firstRecord secondRecord : RowRecord Row}
    {index : Index}
    (different : first ≠ second)
    (table : first.tableRoot = second.tableRoot)
    (firstStored : state.base.rows first = some firstRecord)
    (secondStored : state.base.rows second = some secondRecord)
    (firstLive : later.Live firstRecord.txMin)
    (secondLive : later.Live secondRecord.txMin)
    (member : index ∈ catalog first.tableRoot)
    (unique : index.unique = true)
    (firstClear : ¬ Pending state first index)
    (secondClear : ¬ Pending state second index)
    (same : Same index firstRecord.values secondRecord.values) :
    Succeeds later firstRecord secondRecord ∨ Succeeds later secondRecord firstRecord := by
  have pair := kept.paired different table firstStored secondStored (progress.live _ firstLive)
    (progress.live _ secondLive) member unique firstClear secondClear same
  rcases pair with forward | backward
  · exact Or.inl (forward.mono founded.lifecycle progress settled
      (founded.assigned secondStored) secondLive)
  · exact Or.inr (backward.mono founded.lifecycle progress settled
      (founded.assigned firstStored) firstLive)

end Onward

/-- A step that leaves the rows alone, and at most moves a row on into an index, keeps it all. -/
theorem Kept.frame
    (kept : Kept catalog state)
    (founded : Founded state.base)
    (lifecycle : Lifecycle next.base)
    (progress : Progress state.base next.base)
    (settled : Base.Settled state.base next.base)
    (sameRows : next.base.rows = state.base.rows)
    (entries :
      ∀ {row record index},
        state.base.rows row = some record →
        next.base.Live record.txMin →
        entryOf index record.values row ∈ state.base.index →
        entryOf index record.values row ∈ next.base.index)
    (pending :
      ∀ {row record index},
        state.base.rows row = some record →
        next.base.Live record.txMin →
        Pending state row index →
        Pending next row index)
    (writing :
      ∀ {txId},
        next.writing txId = .idle ∨ next.writing txId = state.writing txId ∨
          ∃ row values old remaining probed later,
            state.writing txId = .indexing row values old remaining probed ∧
              next.writing txId = .indexing row values old remaining later)
    (running :
      ∀ {txId}, next.writing txId ≠ .idle → txId ∈ next.base.tx.inFlight)
    (candidates :
      ∀ {txId session row record},
        next.base.session txId = some session →
        session.candidates row = some record →
        record.txMax ≠ txId ∧
          Base.Seen next.base txId record.txMin ∧
          ∃ stored,
            next.base.rows row = some stored ∧
              stored.txMin = record.txMin ∧
              stored.values = record.values)
    (closed :
      ∀ snapshot ∈ next.readers,
        snapshot.ownTx = none ∧
          snapshot.nextTx ≤ next.base.tx.nextTxId ∧
          ∀ {later earlier},
            snapshot.Past later →
            next.base.PastFor later earlier →
            snapshot.Past earlier) :
    Kept catalog next := by
  have kind {txId : Nat} {row : RowKey} {values : Row} {old : Option (RowKey × Row)}
      {remaining : List Index} {probed : Bool}
      (now : next.writing txId = .indexing row values old remaining probed) :
      ∃ before, state.writing txId = .indexing row values old remaining before := by
    rcases @writing txId with idle | same | ⟨_, _, _, _, probed, _, earlier, later⟩
    · rw [idle] at now
      cases now
    · exact ⟨probed, same ▸ now⟩
    · rw [now] at later
      cases later
      exact ⟨probed, earlier⟩
  have older {txId : Nat} {old : RowKey × Row}
      (now : (next.writing txId).old = some old) :
      (state.writing txId).old = some old ∧
        ∀ index, (next.writing txId).Opens index → (state.writing txId).Opens index := by
    rcases @writing txId with idle | same | ⟨_, _, _, _, _, _, earlier, later⟩
    · rw [idle] at now
      cases now
    · rw [same] at now ⊢
      exact ⟨now, fun _ opens => opens⟩
    · rw [later] at now ⊢
      rw [earlier]
      exact ⟨now, fun _ opens => opens⟩
  constructor
  case entered =>
    intro row record index stored live member unique clear
    rw [sameRows] at stored
    refine entries stored live (kept.entered stored (progress.live _ live) member unique ?_)
    exact fun before => clear (pending stored live before)
  case written =>
    intro txId row values old remaining probed now
    obtain ⟨before, earlier⟩ := kind now
    rw [sameRows]
    exact kept.written earlier
  case replaced =>
    intro txId old values now
    rw [sameRows]
    exact kept.replaced_onward founded progress settled (older now).1
  case running => exact running
  case last =>
    intro txId old values index row record oldRecord now opens member unique oldStored stored
      different table live clear same
    rw [sameRows] at oldStored stored
    obtain ⟨before, openBefore⟩ := older now
    have active : txId ∈ next.base.tx.inFlight := running fun idle => by
      rw [idle] at now
      cases now
    exact kept.last_onward founded lifecycle progress settled active before
      (openBefore index opens) member unique oldStored stored different table live
      (fun held => clear (pending stored live held)) same
  case paired =>
    intro first second firstRecord secondRecord index different table firstStored secondStored
      firstLive secondLive member unique firstClear secondClear same
    rw [sameRows] at firstStored secondStored
    exact kept.paired_onward founded progress settled different table firstStored secondStored
      firstLive secondLive member unique
      (fun held => firstClear (pending firstStored firstLive held))
      (fun held => secondClear (pending secondStored secondLive held)) same
  case agree =>
    intro first second firstRecord secondRecord index position different table firstStored
      secondStored
    rw [sameRows] at firstStored secondStored
    exact kept.agree different table firstStored secondStored
  case candidates => exact candidates
  case closed => exact closed

end PrehniteDB.UniqueWriters
