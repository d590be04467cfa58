import PrehniteDB.SupersededVersions

namespace PrehniteDB.UniqueWriters

open Interleaving (IndexEntry Lifecycle Stamped Progress Statement Undisturbed)
open Constraints (Agree Shares)
open TransitionRun

/-!
# The steps of a row write

What one step of a connection does to the line of versions of each value: a
tombstone ends a line only where it is open, and a new version waits for its
indexes.
-/

variable {catalog : Catalog} {state next : State}

/-! ## Between two row writes -/

theorem Kept.closed_progress
    (kept : Kept catalog state)
    {later : Interleaving.State Row}
    (progress : Progress state.base later) :
    ∀ snapshot ∈ state.readers,
      snapshot.ownTx = none ∧
        snapshot.nextTx ≤ later.tx.nextTxId ∧
        ∀ {last earlier},
          snapshot.Past last →
          later.PastFor last earlier →
          snapshot.Past earlier := by
  intro snapshot member
  obtain ⟨foreign, bound, closed⟩ := kept.closed snapshot member
  refine ⟨foreign, Nat.le_trans bound progress.ids, ?_⟩
  intro last earlier past before
  exact closed past
    ((progress.past last earlier (Nat.lt_of_lt_of_le past.1 bound)).mp before)

/-- The copies a session holds stay copies while the rows stay. -/
theorem Kept.candidates_progress
    (kept : Kept catalog state)
    (lifecycle : Lifecycle state.base)
    {later : Interleaving.State Row}
    (progress : Progress state.base later)
    (settled : Base.Settled state.base later)
    (sameRows : later.rows = state.base.rows)
    {txId : Nat}
    {session : Interleaving.Session Row}
    {row : RowKey}
    {record : RowRecord Row}
    (running : state.base.session txId = some session)
    (candidate : session.candidates row = some record) :
    record.txMax ≠ txId ∧
      Base.Seen later txId record.txMin ∧
      ∃ stored,
        later.rows row = some stored ∧
          stored.txMin = record.txMin ∧
          stored.values = record.values := by
  obtain ⟨unstamped, seen, stored⟩ := kept.candidates running candidate
  rw [sameRows]
  exact ⟨unstamped,
    seen.mono lifecycle progress settled (lifecycle.active running), stored⟩

/-- What a scan collects is seen and not tombstoned by its own transaction. -/
theorem collected_candidate
    (founded : Founded state.base)
    {txId : Nat}
    {session : Interleaving.Session Row}
    (running : state.base.session txId = some session)
    {tableRoot : UInt32}
    {access : Interleaving.AccessPath}
    {row : RowKey}
    {record : RowRecord Row}
    (candidate : state.base.collected session.snapshot tableRoot access row = some record) :
    record.txMax ≠ txId ∧
      Base.Seen state.base txId record.txMin ∧
      state.base.rows row = some record := by
  have lifecycle := founded.lifecycle
  unfold Interleaving.State.collected at candidate
  split at candidate
  case isFalse => cases candidate
  case isTrue returned =>
    have own : session.snapshot.ownTx = some txId := lifecycle.ownTx running
    have visible :
        session.snapshot.visible state.base.tx.clog record.txMin record.txMax = true := by
      have sees := (Bool.and_eq_true _ _).mp returned |>.2
      simpa only [Interleaving.State.sees, candidate, Option.any_some] using sees
    obtain ⟨created, alive⟩ := Snapshot.visible_iff.mp visible
    have positive := (lifecycle.assigned txId (lifecycle.active running)).1
    refine ⟨?_, ?_, candidate⟩
    · rintro rfl
      rcases alive with zero | ⟨foreign, _⟩
      · omega
      · exact foreign own.symm
    · rcases Snapshot.created_iff.mp created with mine | zero | ⟨committed, past⟩
      · rw [own] at mine
        exact Or.inl (Option.some.inj mine)
      · have creator := (founded.provenance.creator row record candidate).1
        omega
      · exact Or.inr ⟨⟨session.snapshot, lifecycle.pinned txId session running, past⟩,
          Base.live_of_committed committed⟩

/-- A statement that changes no row and no connection's row write. -/
theorem Kept.statement
    (kept : Kept catalog state)
    (founded : Founded state.base)
    {later : Interleaving.State Row}
    (lifecycle : Lifecycle later)
    (statement : Statement state.base later)
    (sameRows : later.rows = state.base.rows)
    (sameIndex : later.index = state.base.index)
    (sameReads : ∀ txId row, state.base.trail.reads txId row = true →
      later.trail.reads txId row = true)
    (sameOverwrites : later.trail.overwrites = state.base.trail.overwrites)
    (candidates :
      ∀ {txId session row record},
        later.session txId = some session →
        session.candidates row = some record →
        record.txMax ≠ txId ∧
          Base.Seen state.base txId record.txMin ∧
          ∃ stored,
            state.base.rows row = some stored ∧
              stored.txMin = record.txMin ∧
              stored.values = record.values) :
    Kept catalog { state with base := later } := by
  have progress : Progress state.base later :=
    .of_statement statement
      (fun row record stored => ⟨record, sameRows ▸ stored, rfl⟩)
      sameReads
      (fun overwrite member => sameOverwrites ▸ member)
  have settled : Base.Settled state.base later := Base.settled_of_clog statement.clog
  refine kept.frame founded lifecycle progress settled sameRows ?_ ?_ (Or.inr (Or.inl rfl)) ?_ ?_
    (kept.closed_progress progress)
  · intro row record index _ _ entry
    exact sameIndex ▸ entry
  · exact fun _ _ pending => pending
  · intro txId busy
    exact statement.inFlight ▸ kept.running busy
  · intro txId session row record running candidate
    obtain ⟨unstamped, seen, stored⟩ := candidates running candidate
    refine ⟨unstamped, ?_, sameRows ▸ stored⟩
    have active : txId ∈ state.base.tx.inFlight := by
      rw [← statement.inFlight]
      exact lifecycle.active running
    exact seen.mono founded.lifecycle progress settled active

theorem Kept.begin
    (kept : Kept catalog state)
    (founded : Founded state.base) :
    Kept catalog { state with base := state.base.begin } := by
  have progress : Progress state.base state.base.begin := .begin state.base
  have settled : Base.Settled state.base state.base.begin := Base.settled_of_clog rfl
  refine kept.frame founded founded.lifecycle.begin progress settled rfl
    (fun _ _ entry => entry) (fun _ _ pending => pending) (Or.inr (Or.inl rfl)) ?_ ?_
    (kept.closed_progress progress)
  · intro txId busy
    exact Finset.mem_insert_of_mem (kept.running busy)
  · intro txId session row record running candidate
    by_cases fresh : txId = state.base.tx.nextTxId
    · subst fresh
      simp only [Interleaving.State.begin_session, Function.update_self,
        Option.some.injEq] at running
      subst running
      cases candidate
    · rw [Interleaving.State.begin_session, Function.update_of_ne fresh] at running
      exact kept.candidates_progress founded.lifecycle progress settled rfl running candidate

/-- A transaction ends, and with it the write it was in, if its rows can no longer be seen. -/
theorem Kept.resolve
    (kept : Kept catalog state)
    (founded : Founded state.base)
    {txId : Nat}
    {session : Interleaving.Session Row}
    (running : state.base.session txId = some session)
    (outcome : Status)
    (clear :
      state.writing txId = .idle ∨ ¬ (state.base.resolve txId outcome).Live txId) :
    Kept catalog { (state.setWriting txId .idle) with
      base := state.base.resolve txId outcome } := by
  have lifecycle := founded.lifecycle
  have active := lifecycle.active running
  have progress := Progress.resolve lifecycle running outcome
  have settled : Base.Settled state.base (state.base.resolve txId outcome) :=
    Base.settled_resolve active
  refine kept.frame founded (lifecycle.resolve running outcome) progress settled rfl
    (fun _ _ entry => entry) ?_ ?_ ?_ ?_ (kept.closed_progress progress)
  · intro row record index stored live pending
    obtain ⟨values, old, remaining, probed, writing, member⟩ :=
      kept.pending_writer stored pending
    have different : record.txMin ≠ txId := by
      rintro rfl
      rcases clear with idle | dead
      · rw [idle] at writing
        cases writing
      · exact dead live
    exact ⟨record.txMin, values, old, remaining, probed,
      (Function.update_of_ne different ..).trans writing, member⟩
  · intro other
    by_cases same : other = txId
    · subst same
      exact Or.inl (Function.update_self ..)
    · exact Or.inr (Or.inl (Function.update_of_ne same ..))
  · intro other busy
    have different : other ≠ txId := by
      rintro rfl
      exact busy (Function.update_self ..)
    refine Finset.mem_erase.mpr ⟨different, kept.running ?_⟩
    exact fun idle => busy ((Function.update_of_ne different ..).trans idle)
  · intro other found row record stillRunning candidate
    have different : other ≠ txId := by
      rintro rfl
      simp at stillRunning
    rw [Interleaving.State.resolve_session, Function.update_of_ne different] at stillRunning
    exact kept.candidates_progress lifecycle progress settled rfl stillRunning candidate

theorem setWriting_idle
    {txId : Nat}
    (idle : state.writing txId = .idle) :
    state.setWriting txId .idle = state := by
  have same : Function.update state.writing txId .idle = state.writing := by
    rw [← idle]
    exact Function.update_eq_self txId state.writing
  rw [State.setWriting, same]

/-! ## A tombstone -/

/-- Only a version without a live tombstone is tombstoned. -/
theorem Kept.overwritable
    (kept : Kept catalog state)
    (founded : Founded state.base)
    {txId : Nat}
    {session : Interleaving.Session Row}
    {row : RowKey}
    {record stored : RowRecord Row}
    (opened : state.base.openSession txId = some session)
    (checked : session.checked row = true)
    (candidate : session.candidates row = some record)
    (undisturbed : Undisturbed state.base (.tombstone txId row))
    (present : state.base.rows row = some stored) :
    stored.txMax = 0 ∨ ¬ state.base.Live stored.txMax := by
  have running := Interleaving.session_of_openSession opened
  rcases undisturbed session opened record candidate stored present with same | dead
  · rw [same]
    rcases founded.stamped.examined txId session row record running checked candidate with
      zero | own | dead
    · exact Or.inl zero
    · exact absurd own (kept.candidates running candidate).1
    · exact Or.inr (not_not.mpr dead)
  · exact Or.inr (not_not.mpr (Clog.isRolledBack_iff.mp dead))

theorem stamped_row
    {rows : RowKey → Option (RowRecord Row)}
    {row other : RowKey}
    {stored found : RowRecord Row}
    {txId : Nat}
    (present : rows row = some stored)
    (after :
      Function.update rows row (some { stored with txMax := txId }) other = some found) :
    ∃ before,
      rows other = some before ∧
        before.txMin = found.txMin ∧
        before.values = found.values ∧
        (other = row → before = stored ∧ found = { stored with txMax := txId }) ∧
        (other ≠ row → before = found) := by
  by_cases same : other = row
  · subst same
    rw [Function.update_self, Option.some.injEq] at after
    subst after
    exact ⟨stored, present, rfl, rfl, fun _ => ⟨rfl, rfl⟩, fun different => absurd rfl different⟩
  · rw [Function.update_of_ne same] at after
    exact ⟨found, after, rfl, rfl, fun equal => absurd equal same, fun _ => rfl⟩

/-- The state after a tombstone, the copy written back being the stored version itself. -/
def stampRow
    (base : Interleaving.State Row)
    (txId : Nat)
    (row : RowKey)
    (record : RowRecord Row)
    (session : Interleaving.Session Row) : Interleaving.State Row :=
  (base.writeTombstone txId row record).setSession txId {
    session with
    candidates := Function.update session.candidates row none
    tombstoned := row :: session.tombstoned }

/-- A copy that is left after a tombstone was one before. -/
theorem candidate_of_stampRow
    {base : Interleaving.State Row}
    {txId who : Nat}
    {row other : RowKey}
    {record copy : RowRecord Row}
    {session found : Interleaving.Session Row}
    (running : base.session txId = some session)
    (foundRunning : (stampRow base txId row record session).session who = some found)
    (copied : found.candidates other = some copy) :
    ∃ earlier, base.session who = some earlier ∧ earlier.candidates other = some copy := by
  by_cases own : who = txId
  · subst own
    rw [stampRow, Interleaving.State.setSession_self, Option.some.injEq] at foundRunning
    subst foundRunning
    by_cases equal : other = row
    · subst equal
      simp at copied
    · exact ⟨session, running, by simpa [Function.update_of_ne equal] using copied⟩
  · rw [stampRow, Interleaving.State.setSession_other own] at foundRunning
    exact ⟨found, foundRunning, copied⟩

/-- A version with a live tombstone is not the one that is stamped. -/
theorem Succeeds.stamped
    {base : Interleaving.State Row}
    {txId : Nat}
    {row left : RowKey}
    {record stored first second firstFound secondFound : RowRecord Row}
    {session : Interleaving.Session Row}
    (free : stored.txMax = 0 ∨ ¬ base.Live stored.txMax)
    (atRow : left = row → first = stored ∧ firstFound = { stored with txMax := txId })
    (elsewhere : left ≠ row → first = firstFound)
    (creator : second.txMin = secondFound.txMin)
    (succeeds : Succeeds base first second) :
    Succeeds (stampRow base txId row record session) firstFound secondFound := by
  obtain ⟨positive, alive, order⟩ := succeeds
  by_cases same : left = row
  · rw [(atRow same).1] at positive alive
    rcases free with zero | dead
    · exact absurd zero positive
    · exact absurd alive dead
  · rw [← elsewhere same]
    exact ⟨positive, alive, creator ▸ order⟩

theorem Kept.stamp
    (kept : Kept catalog state)
    (founded : Founded state.base)
    {txId : Nat}
    {session : Interleaving.Session Row}
    {row : RowKey}
    {record : RowRecord Row}
    (opened : state.base.openSession txId = some session)
    (checked : session.checked row = true)
    (candidate : session.candidates row = some record)
    (undisturbed : Undisturbed state.base (.tombstone txId row)) :
    Kept catalog { state with base := stampRow state.base txId row record session } := by
  have running := Interleaving.session_of_openSession opened
  obtain ⟨_, _, stored, present, sameMin, sameValues⟩ := kept.candidates running candidate
  have written : { record with txMax := txId } = ({ stored with txMax := txId } : RowRecord Row) := by
    rw [← sameMin, ← sameValues]
  have rows : (stampRow state.base txId row record session).rows =
      Function.update state.base.rows row (some { stored with txMax := txId }) :=
    congrArg (fun written => Function.update state.base.rows row (some written)) written
  have free := kept.overwritable founded opened checked candidate undisturbed present
  constructor
  case entered =>
    intro other found index after live member unique clear
    obtain ⟨before, foundBefore, creator, values, _⟩ := stamped_row present (rows ▸ after)
    rw [← values]
    exact kept.entered foundBefore (creator ▸ live) member unique clear
  case written =>
    intro who other values old remaining probed now
    obtain ⟨⟨found, foundBefore, creator, same⟩, rest⟩ := kept.written now
    refine ⟨?_, rest⟩
    rw [rows]
    by_cases equal : other = row
    · subst equal
      obtain rfl := Option.some.inj (present.symm.trans foundBefore)
      exact ⟨_, Function.update_self .., creator, same⟩
    · exact ⟨found, (Function.update_of_ne equal ..).trans foundBefore, creator, same⟩
  case replaced =>
    intro who old values now
    obtain ⟨found, foundBefore, same, stamp, seen⟩ := kept.replaced now
    have different : old ≠ row := by
      rintro rfl
      obtain rfl := Option.some.inj (present.symm.trans foundBefore)
      have active := kept.replacing_active now
      rcases free with zero | dead
      · have positive := (founded.lifecycle.assigned who active).1
        omega
      · exact dead (stamp ▸ Base.live_of_active founded.lifecycle active)
    exact ⟨found, by rw [rows, Function.update_of_ne different]; exact foundBefore,
      same, stamp, seen⟩
  case running => exact kept.running
  case last =>
    intro who old values index other found oldFound now opens member unique oldAfter after
      different table live clear same
    obtain ⟨oldBefore, oldStored, oldCreator, _⟩ := stamped_row present (rows ▸ oldAfter)
    obtain ⟨before, foundBefore, creator, foundValues, atRow, elsewhere⟩ :=
      stamped_row present (rows ▸ after)
    refine .stamped free atRow elsewhere oldCreator ?_
    exact kept.last now opens member unique oldStored foundBefore different table
      (creator ▸ live) clear (foundValues ▸ same)
  case paired =>
    intro first second firstFound secondFound index different table firstAfter secondAfter
      firstLive secondLive member unique firstClear secondClear same
    obtain ⟨firstBefore, firstStored, firstCreator, firstValues, firstAt, firstElse⟩ :=
      stamped_row present (rows ▸ firstAfter)
    obtain ⟨secondBefore, secondStored, secondCreator, secondValues, secondAt, secondElse⟩ :=
      stamped_row present (rows ▸ secondAfter)
    have pair := kept.paired different table firstStored secondStored
      (firstCreator ▸ firstLive) (secondCreator ▸ secondLive) member unique firstClear
      secondClear (by rw [firstValues, secondValues]; exact same)
    rcases pair with forward | backward
    · exact Or.inl (forward.stamped free firstAt firstElse secondCreator)
    · exact Or.inr (backward.stamped free secondAt secondElse firstCreator)
  case agree =>
    intro first second firstFound secondFound index position different table firstAfter
      secondAfter member unique listed
    obtain ⟨firstBefore, firstStored, _, firstValues, _⟩ :=
      stamped_row present (rows ▸ firstAfter)
    obtain ⟨secondBefore, secondStored, _, secondValues, _⟩ :=
      stamped_row present (rows ▸ secondAfter)
    rw [← firstValues, ← secondValues]
    exact kept.agree different table firstStored secondStored member unique listed
  case candidates =>
    intro who found other copy foundRunning copied
    obtain ⟨earlier, earlierRunning, copiedBefore⟩ :=
      candidate_of_stampRow running foundRunning copied
    obtain ⟨unstamped, seen, held, heldPresent, heldMin, heldValues⟩ :=
      kept.candidates earlierRunning copiedBefore
    refine ⟨unstamped, seen, ?_⟩
    rw [rows]
    by_cases equal : other = row
    · subst equal
      obtain rfl := Option.some.inj (present.symm.trans heldPresent)
      exact ⟨_, Function.update_self .., heldMin, heldValues⟩
    · exact ⟨held, (Function.update_of_ne equal ..).trans heldPresent, heldMin, heldValues⟩
  case closed => exact kept.closed

/-! ## The condition -/

/-- Wherever `==` and the bytes of the index differ, the new row has neither value. -/
def State.Plain (state : State) (catalog : Catalog) (row : RowKey) (values : Row) : Prop :=
  ∀ other record index position,
    other.tableRoot = row.tableRoot →
    state.base.rows other = some record →
    index ∈ catalog row.tableRoot →
    index.unique = true →
    position ∈ index.columns →
    Agree (column values position) (column record.values position)

/-- The value is still not in the index when its entry is inserted. -/
def State.Unraced (state : State) (txId : Nat) : Prop :=
  ∀ row values old index rest probed,
    state.writing txId = .indexing row values old (index :: rest) probed →
    needsProbe index values old = true →
    indexHasValue state.base.index index.root
      (encodeIndexValuePrefix values index.columns) = false

/--
No peer puts a value into a unique index between a probe for it and the
insertion that follows, no tombstone replaces a committed or a newer one, and
no column mixes values that are `==` under different bytes.
-/
def Orderly (catalog : Catalog) (state : State) : Action → Prop
  | .between action => Undisturbed state.base action
  | .replace txId row => Undisturbed state.base (.tombstone txId row)
  | .insert _ row values => state.Plain catalog row values
  | .insertVersion _ row values => state.Plain catalog row values
  | .insertEntry txId => state.Unraced txId
  | _ => True

/-! ## One lemma for each action -/

theorem Kept.between
    (kept : Kept catalog state)
    (founded : Founded state.base)
    {action : Interleaving.Action Row}
    {who : Option Nat}
    {later : Interleaving.State Row}
    (worked : worker action = some who)
    (resting : ∀ txId ∈ who, state.writing txId = .idle)
    (undisturbed : Undisturbed state.base action)
    (lifecycle : Lifecycle later)
    (stepped : Interleaving.step state.base action = some later) :
    Kept catalog { state with base := later } := by
  have unchanged :
      ∀ {txId : Nat} {session changed : Interleaving.Session Row},
        state.base.session txId = some session →
        ∀ {other found row record},
          (state.base.setSession txId changed).session other = some found →
          found.candidates row = some record →
          changed.candidates = session.candidates →
          record.txMax ≠ other ∧
            Base.Seen state.base other record.txMin ∧
            ∃ stored,
              state.base.rows row = some stored ∧
                stored.txMin = record.txMin ∧
                stored.values = record.values := by
    intro txId session changed running other found row record foundRunning candidate same
    by_cases own : other = txId
    · subst own
      rw [Interleaving.State.setSession_self, Option.some.injEq] at foundRunning
      subst foundRunning
      exact kept.candidates running (same ▸ candidate)
    · rw [Interleaving.State.setSession_other own] at foundRunning
      exact kept.candidates foundRunning candidate
  cases Interleaving.step_effect stepped with
  | begin => exact kept.begin founded
  | read opened =>
      refine kept.statement founded lifecycle (.scan _ _ _ _ _) rfl rfl ?_ rfl ?_
      · intro txId row read
        simp only [Interleaving.State.scan, read, Bool.true_or]
      · exact fun running candidate => kept.candidates running candidate
  | @collect txId tableRoot access session opened =>
      have running := Interleaving.session_of_openSession opened
      refine kept.statement founded lifecycle
        ((Statement.scan _ _ _ _ _).setSession running rfl) rfl rfl ?_ rfl ?_
      · intro txId row read
        simp only [Interleaving.State.setSession, Interleaving.State.scan, read, Bool.true_or]
      · intro other found row record foundRunning candidate
        by_cases own : other = txId
        · subst own
          rw [Interleaving.State.setSession_self, Option.some.injEq] at foundRunning
          subst foundRunning
          obtain ⟨unstamped, seen, stored⟩ := collected_candidate founded running candidate
          exact ⟨unstamped, seen, record, stored, rfl, rfl⟩
        · rw [Interleaving.State.setSession_other own] at foundRunning
          exact kept.candidates foundRunning candidate
  | letThrough opened _ _ =>
      have running := Interleaving.session_of_openSession opened
      exact kept.statement founded lifecycle ((Statement.refl _).setSession running rfl) rfl rfl
        (fun _ _ read => read) rfl
        fun foundRunning candidate => unchanged running foundRunning candidate rfl
  | conflict opened =>
      have running := Interleaving.session_of_openSession opened
      exact kept.statement founded lifecycle ((Statement.refl _).setSession running rfl) rfl rfl
        (fun _ _ read => read) rfl
        fun foundRunning candidate => unchanged running foundRunning candidate rfl
  | fail opened =>
      have running := Interleaving.session_of_openSession opened
      exact kept.statement founded lifecycle ((Statement.refl _).setSession running rfl) rfl rfl
        (fun _ _ read => read) rfl
        fun foundRunning candidate => unchanged running foundRunning candidate rfl
  | @tombstone txId row session record opened checked candidate =>
      cases worked
      exact kept.stamp founded opened checked candidate undisturbed
  | insert => cases worked
  | insertVersion => cases worked
  | @committed txId session running _ =>
      cases worked
      have idle := resting txId rfl
      have resolved := kept.resolve founded running .committed (Or.inl idle)
      rwa [setWriting_idle idle] at resolved
  | @refused txId session running =>
      cases worked
      have idle := resting txId rfl
      have resolved := kept.resolve founded running .rolledBack (Or.inl idle)
      rwa [setWriting_idle idle] at resolved
  | @rolledBack txId session running =>
      cases worked
      have idle := resting txId rfl
      have resolved := kept.resolve founded running .rolledBack (Or.inl idle)
      rwa [setWriting_idle idle] at resolved

/-- `UPDATE` tombstones the last version of its line. -/
theorem Kept.replace
    (kept : Kept catalog state)
    (founded : Founded state.base)
    {txId : Nat}
    {session : Interleaving.Session Row}
    {row : RowKey}
    {record : RowRecord Row}
    (opened : state.base.openSession txId = some session)
    (checked : session.checked row = true)
    (candidate : session.candidates row = some record)
    (undisturbed : Undisturbed state.base (.tombstone txId row))
    (idle : state.writing txId = .idle) :
    Kept catalog { (state.setWriting txId (.replaced row record.values)) with
      base := stampRow state.base txId row record session } := by
  have running := Interleaving.session_of_openSession opened
  have active := founded.lifecycle.active running
  have stamped := kept.stamp founded opened checked candidate undisturbed
  obtain ⟨_, seen, stored, present, sameMin, sameValues⟩ := kept.candidates running candidate
  have free := kept.overwritable founded opened checked candidate undisturbed present
  have rows : (stampRow state.base txId row record session).rows row =
      some { record with txMax := txId } := Function.update_self ..
  have pending {other : RowKey} {index : Index} :
      Pending
          { (state.setWriting txId (.replaced row record.values)) with
            base := stampRow state.base txId row record session } other index ↔
        Pending state other index := by
    constructor
    · rintro ⟨who, values, old, remaining, probed, writing, member⟩
      have different : who ≠ txId := by
        rintro rfl
        simp [State.setWriting] at writing
      exact ⟨who, values, old, remaining, probed,
        (Function.update_of_ne different ..).symm.trans writing, member⟩
    · rintro ⟨who, values, old, remaining, probed, writing, member⟩
      have different : who ≠ txId := by
        rintro rfl
        rw [idle] at writing
        cases writing
      exact ⟨who, values, old, remaining, probed,
        (Function.update_of_ne different ..).trans writing, member⟩
  constructor
  case entered =>
    intro other found index after live member unique clear
    exact stamped.entered after live member unique (mt pending.mpr clear)
  case written =>
    intro who other values old remaining probed now
    have different : who ≠ txId := by
      rintro rfl
      simp [State.setWriting] at now
    exact stamped.written ((Function.update_of_ne different ..).symm.trans now)
  case replaced =>
    intro who old values now
    by_cases own : who = txId
    · subst own
      simp only [State.setWriting, Function.update_self, Writing.old, Option.some.injEq,
        Prod.mk.injEq] at now
      obtain ⟨rfl, rfl⟩ := now
      exact ⟨_, rows, rfl, rfl, seen⟩
    · exact stamped.replaced
        ((congrArg Writing.old (Function.update_of_ne own ..)).symm.trans now)
  case running =>
    intro who busy
    by_cases own : who = txId
    · exact own ▸ active
    · exact stamped.running fun rest => busy ((Function.update_of_ne own ..).trans rest)
  case last =>
    intro who old values index other found oldFound now opens member unique oldAfter after
      different table live clear same
    by_cases own : who = txId
    -- Before the tombstone this version had no successor.
    · subst own
      simp only [State.setWriting, Function.update_self, Writing.old, Option.some.injEq,
        Prod.mk.injEq] at now
      obtain ⟨rfl, rfl⟩ := now
      have foundBefore : state.base.rows other = some found :=
        (Function.update_of_ne different ..).symm.trans after
      have pair := kept.paired different table foundBefore present live
        (sameMin ▸ seen.live founded.lifecycle active) (table ▸ member) unique
        (mt pending.mpr clear)
        (fun held => by
          obtain ⟨_, _, _, _, writing, _⟩ := kept.pending_writer present held
          rcases seen with mine | ⟨past, _⟩
          · rw [sameMin, mine, idle] at writing
            cases writing
          · exact Base.pastFor_ended founded.lifecycle past
              (sameMin ▸ kept.pending_active present held))
        (sameValues ▸ same)
      obtain rfl := Option.some.inj (rows.symm.trans oldAfter)
      rcases pair with forward | ⟨positive, alive, _⟩
      · obtain ⟨positive, alive, order⟩ := forward
        exact ⟨positive, alive, sameMin ▸ order⟩
      · rcases free with zero | dead
        · exact absurd zero positive
        · exact absurd alive dead
    · have before := (congrArg Writing.old (Function.update_of_ne own ..)).symm.trans now
      have opensBefore : (state.writing who).Opens index := by
        have same : (state.setWriting txId (.replaced row record.values)).writing who =
            state.writing who := Function.update_of_ne own ..
        exact same ▸ opens
      exact stamped.last before opensBefore member unique oldAfter after different table live
        (mt pending.mpr clear) same
  case paired =>
    intro first second firstFound secondFound index different table firstAfter secondAfter
      firstLive secondLive member unique firstClear secondClear same
    exact stamped.paired different table firstAfter secondAfter firstLive secondLive member
      unique (mt pending.mpr firstClear) (mt pending.mpr secondClear) same
  case agree => exact stamped.agree
  case candidates => exact stamped.candidates
  case closed => exact stamped.closed

theorem agree_comm
    {first second : Value}
    (agree : Agree first second) :
    Agree second first := by
  unfold Agree
  rw [Constraints.Value.equal_comm]
  exact Iff.trans agree eq_comm

/-- A transaction puts a new row into the table, its indexes still to come. -/
structure Enters
    (catalog : Catalog)
    (state : State)
    (txId : Nat)
    (row : RowKey)
    (values : Row)
    (old : Option (RowKey × Row))
    (later : Interleaving.State Row) : Prop where
  active : txId ∈ state.base.tx.inFlight
  vacant : state.base.rows row = none
  statement : Statement state.base later
  rows :
    later.rows = Function.update state.base.rows row
      (some { txMin := txId, txMax := 0, values := values })
  session : later.session = state.base.session
  index : later.index = state.base.index
  trail : later.trail = state.base.trail
  writing : (state.writing txId).old = old
  unindexed :
    ∀ row values old remaining probed,
      state.writing txId ≠ .indexing row values old remaining probed
  opens : old.isSome → ∀ index, (state.writing txId).Opens index
  table : ∀ replaced ∈ old, replaced.1.tableRoot = row.tableRoot
  plain : state.Plain catalog row values

/-- The state after it. -/
abbrev State.entering
    (state : State)
    (catalog : Catalog)
    (txId : Nat)
    (row : RowKey)
    (values : Row)
    (old : Option (RowKey × Row))
    (later : Interleaving.State Row) : State :=
  { (state.setWriting txId (.indexing row values old (catalog row.tableRoot) false)) with
    base := later }

namespace Enters

variable
  {txId : Nat}
  {row : RowKey}
  {values : Row}
  {old : Option (RowKey × Row)}
  {later : Interleaving.State Row}

theorem apart
    (enters : Enters catalog state txId row values old later)
    {other : RowKey}
    {record : RowRecord Row}
    (stored : state.base.rows other = some record) :
    other ≠ row := by
  rintro rfl
  rw [enters.vacant] at stored
  cases stored

theorem keeps
    (enters : Enters catalog state txId row values old later)
    {other : RowKey}
    {record : RowRecord Row}
    (stored : state.base.rows other = some record) :
    later.rows other = some record := by
  rw [enters.rows, Function.update_of_ne (enters.apart stored)]
  exact stored

/-- A stored version is the new one or an older one. -/
theorem known
    (enters : Enters catalog state txId row values old later)
    {other : RowKey}
    {record : RowRecord Row}
    (stored : later.rows other = some record) :
    (other = row ∧ record = { txMin := txId, txMax := 0, values := values }) ∨
      (other ≠ row ∧ state.base.rows other = some record) := by
  rw [enters.rows] at stored
  by_cases same : other = row
  · subst same
    rw [Function.update_self, Option.some.injEq] at stored
    exact Or.inl ⟨rfl, stored.symm⟩
  · rw [Function.update_of_ne same] at stored
    exact Or.inr ⟨same, stored⟩

theorem progress (enters : Enters catalog state txId row values old later) :
    Progress state.base later :=
  .of_statement enters.statement
    (fun _ record stored => ⟨record, enters.keeps stored, rfl⟩)
    (fun _ _ read => enters.trail ▸ read)
    (fun _ member => enters.trail ▸ member)

theorem settled (enters : Enters catalog state txId row values old later) :
    Base.Settled state.base later :=
  Base.settled_of_clog enters.statement.clog

/-- The new version waits for every index. -/
theorem fresh
    (later : Interleaving.State Row)
    {index : Index}
    (member : index ∈ catalog row.tableRoot) :
    Pending (state.entering catalog txId row values old later) row index :=
  ⟨txId, values, old, catalog row.tableRoot, false, Function.update_self .., member⟩

theorem pending
    (enters : Enters catalog state txId row values old later)
    {other : RowKey}
    {index : Index}
    (before : Pending state other index) :
    Pending (state.entering catalog txId row values old later) other index := by
  obtain ⟨who, found, replaced, remaining, probed, now, member⟩ := before
  have different : who ≠ txId := by
    rintro rfl
    exact enters.unindexed _ _ _ _ _ now
  exact ⟨who, found, replaced, remaining, probed,
    (Function.update_of_ne different ..).trans now, member⟩

/-- No write replaces another version than before. -/
theorem replacing
    (enters : Enters catalog state txId row values old later)
    {who : Nat}
    {former : RowKey × Row}
    (now : ((state.entering catalog txId row values old later).writing who).old = some former) :
    (state.writing who).old = some former ∧
      ∀ index,
        ((state.entering catalog txId row values old later).writing who).Opens index →
        (state.writing who).Opens index := by
  by_cases own : who = txId
  · subst own
    simp only [State.setWriting, Function.update_self, Writing.old] at now
    exact ⟨enters.writing.trans now, fun index _ => enters.opens (now ▸ rfl) index⟩
  · have unmoved :
        (state.entering catalog txId row values old later).writing who = state.writing who :=
      Function.update_of_ne own ..
    exact ⟨(congrArg Writing.old unmoved).symm.trans now, fun index opens => unmoved ▸ opens⟩

end Enters

/-- A new row in the table is pending in every index. -/
theorem Kept.version
    (kept : Kept catalog state)
    (founded : Founded state.base)
    {txId : Nat}
    {row : RowKey}
    {values : Row}
    {old : Option (RowKey × Row)}
    {later : Interleaving.State Row}
    (enters : Enters catalog state txId row values old later) :
    Kept catalog (state.entering catalog txId row values old later) := by
  have lifecycle := founded.lifecycle
  have progress := enters.progress
  have settled := enters.settled
  constructor
  case entered =>
    intro other record index stored live member unique clear
    rcases enters.known stored with ⟨rfl, _⟩ | ⟨_, before⟩
    · exact absurd (Enters.fresh later member) clear
    · rw [enters.index]
      exact kept.entered before (progress.live _ live) member unique (mt enters.pending clear)
  case written =>
    intro who other found replaced remaining probed now
    by_cases own : who = txId
    · subst own
      simp only [State.setWriting, Function.update_self, Writing.indexing.injEq] at now
      obtain ⟨rfl, rfl, rfl, rfl, rfl⟩ := now
      refine ⟨⟨_, by rw [enters.rows, Function.update_self], rfl, rfl⟩,
        fun _ member => member, ?_⟩
      intro former member
      obtain ⟨record, stored, _⟩ := kept.replaced (enters.writing.trans member)
      exact ⟨enters.table former member, enters.apart stored⟩
    · obtain ⟨⟨record, stored, facts⟩, rest⟩ :=
        kept.written ((Function.update_of_ne own ..).symm.trans now)
      exact ⟨⟨record, enters.keeps stored, facts⟩, rest⟩
  case replaced =>
    intro who former formerValues now
    obtain ⟨record, stored, facts⟩ :=
      kept.replaced_onward founded progress settled (enters.replacing now).1
    exact ⟨record, enters.keeps stored, facts⟩
  case running =>
    intro who busy
    rw [enters.statement.inFlight]
    by_cases own : who = txId
    · exact own ▸ enters.active
    · exact kept.running fun rest => busy ((Function.update_of_ne own ..).trans rest)
  case last =>
    intro who former formerValues index other record formerRecord now opens member unique
      formerStored stored different sameTable live clear same
    obtain ⟨before, openBefore⟩ := enters.replacing now
    obtain ⟨found, foundStored, _⟩ := kept.replaced before
    rcases enters.known formerStored with ⟨equal, _⟩ | ⟨_, formerBefore⟩
    · exact absurd equal (enters.apart foundStored)
    rcases enters.known stored with ⟨rfl, _⟩ | ⟨_, storedBefore⟩
    · exact absurd (Enters.fresh later (sameTable ▸ member)) clear
    · exact kept.last_onward founded (lifecycle.statement enters.statement) progress settled
        (enters.statement.inFlight ▸ kept.replacing_active before) before
        (openBefore index opens) member unique formerBefore storedBefore different sameTable live
        (mt enters.pending clear) same
  case paired =>
    intro first second firstRecord secondRecord index different sameTable firstStored secondStored
      firstLive secondLive member unique firstClear secondClear same
    rcases enters.known firstStored with ⟨rfl, _⟩ | ⟨_, firstBefore⟩
    · exact absurd (Enters.fresh later member) firstClear
    rcases enters.known secondStored with ⟨rfl, _⟩ | ⟨_, secondBefore⟩
    · exact absurd (Enters.fresh later (sameTable ▸ member)) secondClear
    exact kept.paired_onward founded progress settled different sameTable firstBefore secondBefore
      firstLive secondLive member unique (mt enters.pending firstClear)
      (mt enters.pending secondClear) same
  case agree =>
    intro first second firstRecord secondRecord index position different sameTable firstStored
      secondStored member unique listed
    rcases enters.known firstStored with ⟨rfl, rfl⟩ | ⟨_, firstBefore⟩ <;>
      rcases enters.known secondStored with ⟨rfl, rfl⟩ | ⟨_, secondBefore⟩
    · exact absurd rfl different
    · exact enters.plain _ _ index position sameTable.symm secondBefore member unique listed
    · exact agree_comm
        (enters.plain _ _ index position sameTable firstBefore (sameTable ▸ member) unique listed)
    · exact kept.agree different sameTable firstBefore secondBefore member unique listed
  case candidates =>
    intro who session other record running candidate
    have before : state.base.session who = some session := enters.session ▸ running
    obtain ⟨unstamped, seen, stored, present, facts⟩ := kept.candidates before candidate
    exact ⟨unstamped, seen.mono lifecycle progress settled (lifecycle.active before),
      stored, enters.keeps present, facts⟩
  case closed => exact kept.closed_progress progress

end PrehniteDB.UniqueWriters
