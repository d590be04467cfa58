import PrehniteDB.RowWriteSteps

namespace PrehniteDB.UniqueWriters

open Interleaving (IndexEntry Lifecycle Stamped Progress Statement Undisturbed)
open Constraints (Agree Shares)
open TransitionRun

/-!
# Unique columns under concurrent writers

The entry that is inserted supersedes every version of its value, so no
snapshot shows two of them.  Without the condition two inserts of one value
both find the index empty.
-/

variable {catalog : Catalog} {state next : State}

/-! ## The insertion of an entry -/

theorem indexHasValue_of_entry
    {entries : List IndexEntry}
    {index : Index}
    {values held : Row}
    {row : RowKey}
    (same : Same index held values)
    (member : entryOf index held row ∈ entries) :
    indexHasValue entries index.root (encodeIndexValuePrefix values index.columns) = true := by
  have encoded :
      encodeIndexValuePrefix held index.columns =
        encodeIndexValuePrefix values index.columns := by
    refine List.flatMap_congr fun position listed => ?_
    rw [(same position listed).1]
  have listed :
      entryOf index held row ∈ entries.filter fun entry => entry.indexRoot = index.root :=
    List.mem_filter.mpr ⟨member, decide_eq_true rfl⟩
  refine List.any_eq_true.mpr ⟨_, List.mem_map_of_mem listed, ?_⟩
  refine (ReadPaths.inIndexRange_prefixUpperBound _ _).mpr ?_
  exact ⟨rowidKey row.rowid, by rw [entryOf, encodeIndexKey, encoded]⟩

theorem unchanged_of_not_needsProbe
    {index : Index}
    {values : Row}
    {old : Option (RowKey × Row)}
    (unique : index.unique = true)
    (present : ∀ position ∈ index.columns, (column values position).isNull = false)
    (skipped : needsProbe index values old = false) :
    ∃ former,
      old = some former ∧
        ∀ position ∈ index.columns,
          (column values position).equal (column former.2 position) = true := by
  have noNull : (index.columns.any fun position => (column values position).isNull) = false := by
    rw [List.any_eq_false]
    intro position member
    rw [present position member]
    nofun
  cases old with
  | none => simp [needsProbe, PrehniteDB.needsProbe, unique, noNull] at skipped
  | some former =>
      simp only [needsProbe, PrehniteDB.needsProbe, unique, noNull, Bool.not_false,
        Bool.true_and, Option.map_some, Option.any_some, Bool.not_eq_false',
        List.all_eq_true] at skipped
      exact ⟨former, rfl, skipped⟩

/-- The version being replaced is in every index. -/
theorem Kept.old_clear
    (kept : Kept catalog state)
    (founded : Founded state.base)
    {txId : Nat}
    {old : RowKey}
    {values : Row}
    {index : Index}
    (replacing : (state.writing txId).old = some (old, values)) :
    ¬ Pending state old index := by
  intro pending
  obtain ⟨record, stored, _, _, seen⟩ := kept.replaced replacing
  obtain ⟨_, _, _, _, writing, _⟩ := kept.pending_writer stored pending
  rcases seen with own | ⟨past, _⟩
  · rw [own] at writing
    rw [writing] at replacing
    exact ((kept.written writing).2.2 (old, values) replacing).2 rfl
  · exact Base.pastFor_ended founded.lifecycle past (kept.pending_active stored pending)

/-- Once a value may go into the index, every version that has it is superseded by the new row. -/
theorem Kept.superseded
    (kept : Kept catalog state)
    (founded : Founded state.base)
    {txId : Nat}
    {row : RowKey}
    {values : Row}
    {old : Option (RowKey × Row)}
    {index : Index}
    {rest : List Index}
    {probed : Bool}
    (writing : state.writing txId = .indexing row values old (index :: rest) probed)
    (unraced : state.Unraced txId)
    (unique : index.unique = true)
    {other : RowKey}
    {record rowRecord : RowRecord Row}
    (rowStored : state.base.rows row = some rowRecord)
    (stored : state.base.rows other = some record)
    (table : other.tableRoot = row.tableRoot)
    (live : state.base.Live record.txMin)
    (clear : ¬ Pending state other index)
    (same : Same index record.values values) :
    Succeeds state.base record rowRecord := by
  have lifecycle := founded.lifecycle
  obtain ⟨⟨found, foundStored, creator, sameValues⟩, listed, tables⟩ := kept.written writing
  obtain rfl := Option.some.inj (rowStored.symm.trans foundStored)
  have member : index ∈ catalog row.tableRoot := listed index List.mem_cons_self
  have active : txId ∈ state.base.tx.inFlight := kept.running (by rw [writing]; nofun)
  cases needed : needsProbe index values old with
  | true =>
      have entry := kept.entered stored live (table ▸ member) unique clear
      have hit := indexHasValue_of_entry same entry
      rw [unraced _ _ _ _ _ _ writing needed] at hit
      cases hit
  | false =>
      have present : ∀ position ∈ index.columns, (column values position).isNull = false :=
        fun position listed => (same.symm position listed).2
      obtain ⟨⟨former, formerValues⟩, rfl, equal⟩ :=
        unchanged_of_not_needsProbe unique present needed
      have replacing : (state.writing txId).old = some (former, formerValues) := by
        rw [writing]
        rfl
      obtain ⟨oldRecord, oldStored, rfl, stamp, seen⟩ := kept.replaced replacing
      obtain ⟨sameTable, different⟩ := tables _ rfl
      have line : Same index record.values oldRecord.values := by
        intro position listed
        obtain ⟨first, noNull⟩ := same position listed
        have agreed := kept.agree different.symm sameTable.symm rowStored oldStored member unique
          listed
        rw [sameValues] at agreed
        exact ⟨first.trans (agreed.mp (equal position listed)), noNull⟩
      by_cases own : other = former
      · subst own
        obtain rfl := Option.some.inj (stored.symm.trans oldStored)
        have positive := (lifecycle.assigned txId active).1
        exact ⟨by omega, stamp ▸ Base.live_of_active lifecycle active,
          Or.inl (stamp.trans creator.symm)⟩
      · have succeeds := kept.last replacing (by rw [writing]; exact List.mem_cons_self)
          (sameTable ▸ member) unique oldStored stored own (table.trans sameTable.symm) live clear
          line
        obtain ⟨positive, alive, order⟩ := succeeds
        refine ⟨positive, alive, ?_⟩
        rw [creator]
        have oldPositive := (founded.provenance.creator former oldRecord oldStored).1
        rcases seen with mine | ⟨past, _⟩
        · exact mine ▸ order
        · rcases order with direct | before
          · exact Or.inr (direct ▸ past)
          · exact Or.inr (Base.pastFor_trans lifecycle oldPositive
              (Nat.pos_of_ne_zero positive) past before)

/-- Two transactions cannot both extend one line. -/
theorem Kept.extends_alone
    (kept : Kept catalog state)
    (founded : Founded state.base)
    {txId who : Nat}
    (other : who ≠ txId)
    {row former : RowKey}
    {values formerValues : Row}
    {old : Option (RowKey × Row)}
    {index : Index}
    {rest : List Index}
    {probed : Bool}
    (writing : state.writing txId = .indexing row values old (index :: rest) probed)
    (unraced : state.Unraced txId)
    (unique : index.unique = true)
    (replacing : (state.writing who).old = some (former, formerValues))
    (table : former.tableRoot = row.tableRoot)
    (same : Same index formerValues values) :
    False := by
  obtain ⟨⟨rowRecord, rowStored, creator, _⟩, _⟩ := kept.written writing
  obtain ⟨formerRecord, formerStored, sameFormer, stamp, seen⟩ := kept.replaced replacing
  have active := kept.replacing_active replacing
  obtain ⟨_, _, order⟩ :=
    kept.superseded founded writing unraced unique rowStored formerStored table
      (seen.live founded.lifecycle active) (kept.old_clear founded replacing)
      (sameFormer ▸ same)
  rw [stamp, creator] at order
  rcases order with direct | past
  · exact other direct
  · exact Base.pastFor_ended founded.lifecycle past active

/-- The state after the entry of one index. -/
abbrev State.entered
    (state : State)
    (txId : Nat)
    (row : RowKey)
    (values : Row)
    (old : Option (RowKey × Row))
    (index : Index)
    (rest : List Index) : State :=
  { (state.setWriting txId (.indexing row values old rest false)) with
    base := State.insertEntry state.base txId (entryOf index values row) }

section Entered

variable
  {txId : Nat}
  {row : RowKey}
  {values : Row}
  {old : Option (RowKey × Row)}
  {index : Index}
  {rest : List Index}
  {probed : Bool}

/-- Only this row has moved, and only into this index. -/
theorem pending_entered
    (writing : state.writing txId = .indexing row values old (index :: rest) probed)
    {other : RowKey}
    {which : Index}
    (before : Pending state other which)
    (kind : other = row → which = index → which ∈ rest) :
    Pending (state.entered txId row values old index rest) other which := by
  obtain ⟨who, found, replaced, remaining, flag, earlier, member⟩ := before
  by_cases own : who = txId
  · subst own
    rw [writing] at earlier
    cases earlier
    refine ⟨who, values, old, rest, false, Function.update_self .., ?_⟩
    rcases List.mem_cons.mp member with same | later
    · exact kind rfl same
    · exact later
  · exact ⟨who, found, replaced, remaining, flag,
      (Function.update_of_ne own ..).trans earlier, member⟩

theorem clear_of_entered
    (writing : state.writing txId = .indexing row values old (index :: rest) probed)
    {other : RowKey}
    {which : Index}
    (clear : ¬ Pending (state.entered txId row values old index rest) other which) :
    (other = row ∧ which = index) ∨ ¬ Pending state other which := by
  by_cases moved : other = row ∧ which = index
  · exact Or.inl moved
  · exact Or.inr fun before => clear (pending_entered writing before fun first second =>
      absurd ⟨first, second⟩ moved)

theorem replacing_of_entered
    (writing : state.writing txId = .indexing row values old (index :: rest) probed)
    {who : Nat}
    {former : RowKey × Row}
    (replacing :
      ((state.entered txId row values old index rest).writing who).old = some former) :
    (state.writing who).old = some former := by
  by_cases own : who = txId
  · subst own
    have now : (state.entered who row values old index rest).writing who =
        .indexing row values old rest false := Function.update_self ..
    rw [now] at replacing
    rw [writing]
    exact replacing
  · exact (congrArg Writing.old (Function.update_of_ne own ..)).symm.trans replacing

theorem Kept.insertEntry
    (kept : Kept catalog state)
    (founded : Founded state.base)
    (writing : state.writing txId = .indexing row values old (index :: rest) probed)
    (unraced : state.Unraced txId) :
    Kept catalog (state.entered txId row values old index rest) := by
  obtain ⟨⟨rowRecord, rowStored, creator, sameValues⟩, listed, tables⟩ := kept.written writing
  have active : txId ∈ state.base.tx.inFlight := kept.running (by rw [writing]; nofun)
  have now : (state.entered txId row values old index rest).writing txId =
      .indexing row values old rest false := Function.update_self ..
  have elsewhere {who : Nat} (different : who ≠ txId) :
      (state.entered txId row values old index rest).writing who =
        state.writing who := Function.update_of_ne different ..
  have superseded := @Kept.superseded catalog state kept founded txId row values old index rest
    probed writing unraced
  constructor
  case entered =>
    intro other record which stored live member unique clear
    rcases clear_of_entered writing clear with ⟨rfl, rfl⟩ | before
    · obtain rfl := Option.some.inj (rowStored.symm.trans stored)
      rw [sameValues]
      exact List.mem_append_right _ (List.mem_singleton_self _)
    · exact List.mem_append_left _ (kept.entered stored live member unique before)
  case written =>
    intro who other found replaced remaining flag earlier
    by_cases own : who = txId
    · subst own
      rw [now] at earlier
      cases earlier
      exact ⟨⟨rowRecord, rowStored, creator, sameValues⟩,
        fun which member => listed which (List.mem_cons_of_mem _ member), tables⟩
    · exact kept.written ((elsewhere own).symm.trans earlier)
  case replaced =>
    intro who former formerValues replacing
    exact kept.replaced (replacing_of_entered writing replacing)
  case running =>
    intro who busy
    by_cases own : who = txId
    · exact own ▸ active
    · exact kept.running fun rest => busy ((elsewhere own).trans rest)
  case last =>
    intro who former formerValues which other record formerRecord replacing opens member unique
      formerStored stored different table live clear same
    have before := replacing_of_entered writing replacing
    by_cases own : who = txId
    · subst own
      rw [now] at opens
      have openBefore : (state.writing who).Opens which := by
        rw [writing]
        exact List.mem_cons_of_mem _ opens
      refine kept.last before openBefore member unique formerStored stored different table live ?_
        same
      exact fun held => clear (pending_entered writing held fun _ _ => opens)
    · have openBefore : (state.writing who).Opens which := by
        rwa [elsewhere own] at opens
      rcases clear_of_entered writing clear with ⟨rfl, rfl⟩ | clearEarlier
      · obtain rfl := Option.some.inj (rowStored.symm.trans stored)
        exact (kept.extends_alone founded own writing unraced unique before table.symm
          (sameValues ▸ same.symm)).elim
      · exact kept.last before openBefore member unique formerStored stored different table live
          clearEarlier same
  case paired =>
    intro first second firstRecord secondRecord which different table firstStored secondStored
      firstLive secondLive member unique firstClear secondClear same
    rcases clear_of_entered writing firstClear with ⟨rfl, rfl⟩ | firstBefore
    · obtain rfl := Option.some.inj (rowStored.symm.trans firstStored)
      rcases clear_of_entered writing secondClear with ⟨rfl, _⟩ | secondBefore
      · exact absurd rfl different
      · exact Or.inr (superseded unique rowStored secondStored table.symm secondLive
          secondBefore (sameValues ▸ same.symm))
    · rcases clear_of_entered writing secondClear with ⟨rfl, rfl⟩ | secondBefore
      · obtain rfl := Option.some.inj (rowStored.symm.trans secondStored)
        exact Or.inl (superseded unique rowStored firstStored table firstLive firstBefore
          (sameValues ▸ same))
      · exact kept.paired different table firstStored secondStored firstLive secondLive member
          unique firstBefore secondBefore same
  case agree => exact kept.agree
  case candidates => exact kept.candidates
  case closed => exact kept.closed

end Entered

/-! ## The other actions -/

/-- A write that moves on without entering an index keeps everything. -/
theorem Kept.setWriting
    (kept : Kept catalog state)
    (founded : Founded state.base)
    {txId : Nat}
    {row : RowKey}
    {values : Row}
    {old : Option (RowKey × Row)}
    {remaining : List Index}
    {probed : Bool}
    {now : Writing}
    (writing : state.writing txId = .indexing row values old remaining probed)
    (onward :
      (now = .idle ∧ remaining = []) ∨
        ∃ later, now = .indexing row values old remaining later) :
    Kept catalog (state.setWriting txId now) := by
  have active : txId ∈ state.base.tx.inFlight := kept.running (by rw [writing]; nofun)
  refine kept.frame founded founded.lifecycle
    (.of_statement (.refl _) (fun _ record stored => ⟨record, stored, rfl⟩)
      (fun _ _ read => read) (fun _ member => member))
    (Base.settled_of_clog rfl) rfl (fun _ _ entry => entry) ?_ ?_ ?_ kept.candidates kept.closed
  · intro other record index stored _ before
    obtain ⟨who, found, replaced, left, flag, earlier, member⟩ := before
    by_cases own : who = txId
    · subst own
      rw [writing] at earlier
      cases earlier
      rcases onward with ⟨_, rfl⟩ | ⟨later, rfl⟩
      · cases member
      · exact ⟨who, values, old, remaining, later, Function.update_self .., member⟩
    · exact ⟨who, found, replaced, left, flag,
        (Function.update_of_ne own ..).trans earlier, member⟩
  · intro who
    by_cases own : who = txId
    · subst own
      have moved : (state.setWriting who now).writing who = now := Function.update_self ..
      rcases onward with ⟨rfl, _⟩ | ⟨later, rfl⟩
      · exact Or.inl moved
      · exact Or.inr (Or.inr ⟨row, values, old, remaining, probed, later, writing, moved⟩)
    · exact Or.inr (Or.inl (Function.update_of_ne own ..))
  · intro who busy
    by_cases own : who = txId
    · exact own ▸ active
    · exact kept.running fun rest => busy ((Function.update_of_ne own ..).trans rest)

theorem rolledBack_not_live
    {base : Interleaving.State Row}
    (lifecycle : Lifecycle base)
    (txId : Nat) :
    ¬ (base.resolve txId .rolledBack).Live txId := by
  have floor : base.tx.clog.minTxId ≤ txId := by
    rw [lifecycle.floor]
    exact Nat.zero_le txId
  rw [Interleaving.State.Live, Interleaving.State.resolve_clog, Clog.status_append_self floor]
  exact not_not.mpr rfl

/-- Entries of rows nobody can see may go. -/
theorem Kept.forget
    (kept : Kept catalog state)
    {index : List IndexEntry}
    (stay :
      ∀ {row record which},
        state.base.rows row = some record →
        state.base.Live record.txMin →
        entryOf which record.values row ∈ state.base.index →
        entryOf which record.values row ∈ index) :
    Kept catalog { state with base := { state.base with index := index } } where
  entered stored live member unique clear :=
    stay stored live (kept.entered stored live member unique clear)
  written := kept.written
  replaced := kept.replaced
  running := kept.running
  last := kept.last
  paired := kept.paired
  agree := kept.agree
  candidates := kept.candidates
  closed := kept.closed

theorem Founded.resolve
    {base : Interleaving.State Row}
    (founded : Founded base)
    {txId : Nat}
    {session : Interleaving.Session Row}
    (running : base.session txId = some session) :
    Founded (base.resolve txId .rolledBack) where
  lifecycle := founded.lifecycle.resolve running _
  stamped := founded.stamped.resolve founded.lifecycle running _
  provenance := founded.provenance.resolve founded.lifecycle running _

theorem Founded.reindex
    {base : Interleaving.State Row}
    (founded : Founded base)
    {index : List IndexEntry}
    (stored : ∀ entry ∈ index, (base.rows entry.row).isSome = true) :
    Founded { base with index := index } where
  lifecycle := founded.lifecycle.statement { Statement.refl base with }
  stamped := { founded.stamped with }
  provenance := Base.provenance_reindex founded.provenance stored

theorem Founded.insertEntry
    {base : Interleaving.State Row}
    (founded : Founded base)
    (txId : Nat)
    {entry : IndexEntry}
    (stored : (base.rows entry.row).isSome = true) :
    Founded (State.insertEntry base txId entry) where
  lifecycle := founded.lifecycle.statement (Base.statement_insertEntry base txId entry)
  stamped := { founded.stamped with }
  provenance := Base.provenance_insertEntry founded.provenance txId stored

theorem Founded.step
    {base later : Interleaving.State Row}
    (founded : Founded base)
    {action : Interleaving.Action Row}
    (undisturbed : Undisturbed base action)
    (stepped : Interleaving.step base action = some later) :
    Founded later where
  lifecycle := founded.lifecycle.step stepped
  stamped := founded.stamped.step founded.lifecycle undisturbed stepped
  provenance := founded.provenance.step founded.lifecycle stepped

/-- The whole invariant. -/
structure Sound (catalog : Catalog) (state : State) : Prop where
  founded : Founded state.base
  kept : Kept catalog state

theorem Sound.fail
    (sound : Sound catalog state)
    {txId : Nat}
    {session : Interleaving.Session Row}
    (running : state.base.session txId = some session)
    (lost : List RowKey) :
    Sound catalog (state.fail txId lost) := by
  have founded := sound.founded
  have dead := rolledBack_not_live founded.lifecycle txId
  have resolved := sound.kept.resolve founded running .rolledBack (Or.inr dead)
  have ended := founded.resolve running
  refine ⟨ended.reindex ?_, resolved.forget ?_⟩
  · intro entry member
    exact ended.provenance.indexed entry (List.mem_filter.mp member).1
  · intro row record which stored live member
    refine List.mem_filter.mpr ⟨member, ?_⟩
    have foreign : State.creator state.base row ≠ some txId := by
      have created : State.creator state.base row = some record.txMin :=
        congrArg (Option.map RowRecord.txMin) stored
      rw [created]
      intro same
      exact dead (Option.some.inj same ▸ live)
    have kept : decide (State.creator state.base (entryOf which record.values row).row =
        some txId) = false := decide_eq_false foreign
    rw [kept, Bool.and_false]
    rfl

theorem Sound.openReader
    (sound : Sound catalog state) :
    Sound catalog
      { state with readers := state.base.tx.snapshot none :: state.readers } := by
  have lifecycle := sound.founded.lifecycle
  refine ⟨sound.founded, { sound.kept with closed := ?_ }⟩
  intro snapshot member
  rcases List.mem_cons.mp member with rfl | before
  · refine ⟨rfl, Nat.le_refl _, ?_⟩
    intro later earlier _ past
    have ended := Base.pastFor_ended lifecycle past
    obtain ⟨pinned, taken, seen⟩ := past
    exact ⟨Nat.lt_of_lt_of_le seen.1 (lifecycle.own later pinned taken).2, ended⟩
  · exact sound.kept.closed snapshot before

theorem Sound.insert
    (sound : Sound catalog state)
    {txId : Nat}
    {row : RowKey}
    {values : Row}
    {later : Interleaving.State Row}
    (idle : state.writing txId = .idle)
    (plain : state.Plain catalog row values)
    (stepped : Interleaving.step state.base (.insert txId row values []) = some later) :
    Sound catalog
      { (state.setWriting txId (.indexing row values none (catalog row.tableRoot) false)) with
        base := later } := by
  have undisturbed : Undisturbed state.base (.insert txId row values []) := trivial
  refine ⟨sound.founded.step undisturbed stepped, ?_⟩
  cases Interleaving.step_effect stepped with
  | @insert _ _ _ _ session opened vacant =>
      have running := Interleaving.session_of_openSession opened
      exact sound.kept.version sound.founded
        { active := sound.founded.lifecycle.active running
          vacant := vacant
          statement := .insert _ _ _ _ _
          rows := rfl
          session := rfl
          index := List.append_nil _
          trail := rfl
          writing := by rw [idle]; rfl
          unindexed := fun _ _ _ _ _ => by rw [idle]; nofun
          opens := nofun
          table := nofun
          plain := plain }

theorem Sound.insertVersion
    (sound : Sound catalog state)
    {txId : Nat}
    {old row : RowKey}
    {oldValues values : Row}
    {later : Interleaving.State Row}
    (replacing : state.writing txId = .replaced old oldValues)
    (plain : state.Plain catalog row values)
    (stepped :
      Interleaving.step state.base (.insertVersion txId old row values []) = some later) :
    Sound catalog
      { (state.setWriting txId
          (.indexing row values (some (old, oldValues)) (catalog row.tableRoot) false)) with
        base := later } := by
  have undisturbed : Undisturbed state.base (.insertVersion txId old row values []) := trivial
  refine ⟨sound.founded.step undisturbed stepped, ?_⟩
  cases Interleaving.step_effect stepped with
  | @insertVersion _ _ _ _ _ session opened _ sameTable vacant =>
      have running := Interleaving.session_of_openSession opened
      exact sound.kept.version sound.founded
        { active := sound.founded.lifecycle.active running
          vacant := vacant
          statement := .writeVersion _ _ _ _ _
          rows := rfl
          session := rfl
          index := List.append_nil _
          trail := rfl
          writing := by rw [replacing]; rfl
          unindexed := fun _ _ _ _ _ => by rw [replacing]; nofun
          opens := fun _ _ => by rw [replacing]; trivial
          table := by rintro _ ⟨⟩; exact sameTable
          plain := plain }

theorem Sound.replace
    (sound : Sound catalog state)
    {txId : Nat}
    {row : RowKey}
    {record : RowRecord Row}
    {later : Interleaving.State Row}
    (idle : state.writing txId = .idle)
    (copied :
      ((state.base.openSession txId).bind fun session => session.candidates row) = some record)
    (undisturbed : Undisturbed state.base (.tombstone txId row))
    (stepped : Interleaving.step state.base (.tombstone txId row) = some later) :
    Sound catalog
      { (state.setWriting txId (.replaced row record.values)) with base := later } := by
  refine ⟨sound.founded.step undisturbed stepped, ?_⟩
  cases Interleaving.step_effect stepped with
  | @tombstone _ _ session found opened checked candidate =>
      rw [opened, Option.bind_some, candidate] at copied
      cases copied
      exact sound.kept.replace sound.founded opened checked candidate undisturbed idle

theorem Sound.probe
    (sound : Sound catalog state)
    {txId : Nat}
    {lost : List RowKey}
    (probed : state.probe txId lost = some next) :
    Sound catalog next := by
  unfold State.probe at probed
  split at probed
  case h_2 => cases probed
  case h_1 row values old index rest writing =>
    split at probed
    case isFalse => cases probed
    case isTrue =>
      split at probed
      case isTrue =>
        cases probed
        have active : txId ∈ state.base.tx.inFlight :=
          sound.kept.running (by rw [writing]; nofun)
        obtain ⟨session, running⟩ := Option.isSome_iff_exists.mp
          ((sound.founded.lifecycle.open_iff txId).mpr active)
        exact sound.fail running lost
      case isFalse =>
        cases probed
        exact ⟨sound.founded,
          sound.kept.setWriting sound.founded writing (Or.inr ⟨true, rfl⟩)⟩

/-- Every orderly step keeps the invariant. -/
theorem Sound.step
    (sound : Sound catalog state)
    {action : Action}
    (orderly : Orderly catalog state action)
    (stepped : UniqueWriters.step catalog state action = some next) :
    Sound catalog next := by
  cases action with
  | between action =>
      simp only [UniqueWriters.step] at stepped
      cases worked : worker action with
      | none =>
          rw [worked] at stepped
          cases stepped
      | some who =>
          simp only [worked] at stepped
          split at stepped
          case isFalse => cases stepped
          case isTrue resting =>
            obtain ⟨later, inner, rfl⟩ := Option.map_eq_some_iff.mp stepped
            have founded := sound.founded.step orderly inner
            refine ⟨founded, sound.kept.between sound.founded worked ?_ orderly
              founded.lifecycle inner⟩
            rintro txId rfl
            exact of_decide_eq_true resting
  | openReader =>
      obtain rfl := Option.some.inj stepped
      exact sound.openReader
  | closeReader snapshot =>
      obtain rfl := Option.some.inj stepped
      exact ⟨sound.founded, { sound.kept with
        closed := fun other member => sound.kept.closed other (List.mem_of_mem_erase member) }⟩
  | insert txId row values =>
      simp only [UniqueWriters.step] at stepped
      split at stepped
      case isFalse => cases stepped
      case isTrue idle =>
        obtain ⟨later, inner, rfl⟩ := Option.map_eq_some_iff.mp stepped
        exact sound.insert idle orderly inner
  | replace txId row =>
      simp only [UniqueWriters.step] at stepped
      split at stepped
      case h_2 => cases stepped
      case h_1 record idle copied =>
        obtain ⟨later, inner, rfl⟩ := Option.map_eq_some_iff.mp stepped
        exact sound.replace idle copied orderly inner
  | insertVersion txId row values =>
      simp only [UniqueWriters.step] at stepped
      split at stepped
      case h_2 => cases stepped
      case h_1 old oldValues replacing =>
        obtain ⟨later, inner, rfl⟩ := Option.map_eq_some_iff.mp stepped
        exact sound.insertVersion replacing orderly inner
  | probe txId lost => exact sound.probe stepped
  | insertEntry txId =>
      simp only [UniqueWriters.step] at stepped
      split at stepped
      case h_2 => cases stepped
      case h_1 row values old index rest probed writing =>
        split at stepped
        case isFalse => cases stepped
        case isTrue =>
          cases stepped
          obtain ⟨⟨record, stored, _⟩, _⟩ := sound.kept.written writing
          have present : (state.base.rows row).isSome = true := by
            rw [stored]
            rfl
          exact ⟨sound.founded.insertEntry txId present,
            sound.kept.insertEntry sound.founded writing orderly⟩
  | finish txId =>
      simp only [UniqueWriters.step] at stepped
      split at stepped
      case h_2 => cases stepped
      case h_1 row values old probed writing =>
        cases stepped
        exact ⟨sound.founded,
          sound.kept.setWriting sound.founded writing (Or.inl ⟨rfl, rfl⟩)⟩
  | fail txId lost =>
      obtain ⟨session, running, rfl⟩ := Option.map_eq_some_iff.mp stepped
      exact sound.fail running lost

theorem sound_initial (catalog : Catalog) : Sound catalog initial where
  founded := ⟨.initial, .initial, .initial⟩
  kept := {
    entered := nofun
    written := nofun
    replaced := nofun
    running := fun busy => absurd rfl busy
    last := nofun
    paired := nofun
    agree := nofun
    candidates := nofun
    closed := nofun }

/-- The invariant along a run. -/
theorem sound_of_run
    {actions : List Action}
    {final : State}
    (run : Run (step catalog) (Orderly catalog) initial actions final) :
    Sound catalog final :=
  run.invariant (Sound catalog)
    (fun sound orderly stepped => sound.step orderly stepped)
    (sound_initial catalog)

/-! ## What a snapshot shows -/

/-- A snapshot statements read under: a reader's, or one of a transaction between two row writes. -/
def State.Observed (state : State) (snapshot : Snapshot) : Prop :=
  snapshot ∈ state.readers ∨
    ∃ txId session,
      state.base.session txId = some session ∧
        session.aborted = false ∧
        state.writing txId = .idle ∧
        session.snapshot = snapshot

/-- Two rows of one table that a snapshot shows differ in some column of every unique index. -/
def State.UniqueFor (catalog : Catalog) (state : State) (snapshot : Snapshot) : Prop :=
  ∀ first second firstRecord secondRecord index,
    first ≠ second →
    first.tableRoot = second.tableRoot →
    state.base.rows first = some firstRecord →
    state.base.rows second = some secondRecord →
    snapshot.visible state.base.tx.clog firstRecord.txMin firstRecord.txMax = true →
    snapshot.visible state.base.tx.clog secondRecord.txMin secondRecord.txMax = true →
    index ∈ catalog first.tableRoot →
    index.unique = true →
    ∃ position ∈ index.columns,
      ¬ Shares (column firstRecord.values position) (column secondRecord.values position)

/-- Whoever created a version a snapshot shows is live and past, or the owner of the snapshot. -/
theorem Sound.shown
    (sound : Sound catalog state)
    {snapshot : Snapshot}
    (observed : state.Observed snapshot)
    {row : RowKey}
    {record : RowRecord Row}
    (stored : state.base.rows row = some record)
    (created : snapshot.created state.base.tx.clog record.txMin = true) :
    state.base.Live record.txMin ∧ (∀ index, ¬ Pending state row index) ∧
      ∀ {earlier},
        0 < earlier → state.base.PastFor record.txMin earlier → snapshot.Past earlier := by
  have lifecycle := sound.founded.lifecycle
  have creator := sound.founded.provenance.creator row record stored
  rcases Snapshot.created_iff.mp created with own | zero | ⟨committed, past⟩
  · rcases observed with reader | ⟨txId, session, running, _, idle, rfl⟩
    · rw [(sound.kept.closed snapshot reader).1] at own
      cases own
    · rw [lifecycle.ownTx running] at own
      obtain rfl : record.txMin = txId := Option.some.inj own
      have active := lifecycle.active running
      refine ⟨Base.live_of_active lifecycle active, ?_, ?_⟩
      · intro index pending
        obtain ⟨_, _, _, _, writing, _⟩ := sound.kept.pending_writer stored pending
        rw [idle] at writing
        cases writing
      · rintro earlier _ ⟨pinned, taken, seen⟩
        rw [lifecycle.pinned _ session running] at taken
        cases taken
        exact seen
  · omega
  · have resolved : state.base.tx.clog.status record.txMin ≠ none := by
      rw [committed]
      nofun
    have ended := (lifecycle.ended_of_status resolved).2.2
    refine ⟨Base.live_of_committed committed, ?_, ?_⟩
    · exact fun index pending => ended (sound.kept.pending_active stored pending)
    · intro earlier positive before
      rcases observed with reader | ⟨txId, session, running, _, _, rfl⟩
      · exact (sound.kept.closed snapshot reader).2.2 past before
      · have pinned := lifecycle.pinned txId session running
        obtain ⟨other, taken, seen⟩ :=
          Base.pastFor_trans lifecycle creator.1 positive ⟨session.snapshot, pinned, past⟩ before
        rw [pinned] at taken
        cases taken
        exact seen

/-- A snapshot that shows the later version of a line does not show the earlier one. -/
theorem Sound.hidden
    (sound : Sound catalog state)
    {snapshot : Snapshot}
    (observed : state.Observed snapshot)
    {row : RowKey}
    {first second : RowRecord Row}
    (stored : state.base.rows row = some second)
    (shown : snapshot.visible state.base.tx.clog second.txMin second.txMax = true)
    (succeeds : Succeeds state.base first second) :
    snapshot.visible state.base.tx.clog first.txMin first.txMax ≠ true := by
  intro visible
  have lifecycle := sound.founded.lifecycle
  obtain ⟨positive, live, order⟩ := succeeds
  have created := (Snapshot.visible_iff.mp shown).1
  obtain ⟨foreign, unseen⟩ := (Snapshot.visible_iff.mp visible).2.resolve_left positive
  obtain ⟨_, _, earlierPast⟩ := sound.shown observed stored created
  have creator := sound.founded.provenance.creator row second stored
  rcases order with same | before
  · rcases Snapshot.created_iff.mp created with own | zero | sees
    · exact foreign (same ▸ own)
    · omega
    · exact unseen (same ▸ sees)
  · have past := earlierPast (Nat.pos_of_ne_zero positive) before
    have ended := Base.pastFor_ended lifecycle before
    obtain ⟨pinned, taken, seen⟩ := before
    have below := Nat.lt_of_lt_of_le seen.1 (lifecycle.own second.txMin pinned taken).2
    exact unseen
      ⟨Base.committed_of_ended lifecycle (Nat.pos_of_ne_zero positive) below ended live, past⟩

/-- Every table has one unique index, over its first column. -/
def accounts : Catalog :=
  fun _ => [{ root := 9, columns := [0], unique := true }]

def firstAccount : RowKey where
  tableRoot := 7
  rowid := 1

def secondAccount : RowKey where
  tableRoot := 7
  rowid := 2

/-- One `INSERT` from its row to its entry. -/
def insertAccount (txId : Nat) (row : RowKey) (number : Int64) : List Action :=
  [.insert txId row [.int number], .probe txId [], .insertEntry txId, .finish txId]

/-- Two inserts of one number: both probe before either entry is in the index. -/
def racingInserts : List Action :=
  [.between .begin, .between .begin,
    .insert 1 firstAccount [.int 5], .insert 2 secondAccount [.int 5],
    .probe 1 [], .probe 2 [],
    .insertEntry 1, .insertEntry 2, .finish 1, .finish 2,
    .between (.commit 1), .between (.commit 2), .openReader]

end PrehniteDB.UniqueWriters
