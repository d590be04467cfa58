import PrehniteDB.OnlineIndex

namespace PrehniteDB.OnlineIndex

open SchemaWriteBack (Access TableLock)
open TransitionRun

/-!
# What `CREATE INDEX` leaves behind

Once phase 1 has committed, every version of the table has its entry or is
still expected by someone: by the statement that owes the entry, or by the
builder, whose scan has it ahead or among what it has found.
-/

theorem keyOf_rowid
    {columns : List Nat}
    {first second : Version}
    (same : keyOf columns first = keyOf columns second) :
    first.1 = second.1 := by
  have tails := (List.append_inj' same (by simp [rowidKey])).2
  have numbers := bigEndian_injective tails
  simpa using numbers

/-- One version under a rowid. -/
def Keyed (rows : List Version) : Prop :=
  ∀ first ∈ rows, ∀ second ∈ rows, first.1 = second.1 → first = second

theorem Keyed.keyOf
    {columns : List Nat}
    {rows : List Version}
    {first second : Version}
    (keyed : Keyed rows)
    (left : first ∈ rows)
    (right : second ∈ rows)
    (same : keyOf columns first = keyOf columns second) :
    first = second :=
  keyed first left second right (keyOf_rowid same)

theorem Keyed.subset
    {rows fewer : List Version}
    (keyed : Keyed rows)
    (subset : ∀ version ∈ fewer, version ∈ rows) :
    Keyed fewer :=
  fun first left second right same =>
    keyed first (subset first left) second (subset second right) same

/-- Writing a version back under its own rowid changes nothing. -/
theorem State.mem_rewrite
    {state : State}
    {version other : Version}
    (keyed : Keyed state.rows)
    (present : version ∈ state.rows) :
    other ∈ (state.putRow version).rows ↔ other ∈ state.rows := by
  simp only [State.putRow, List.mem_cons, List.mem_filter, decide_eq_true_eq]
  constructor
  · rintro (rfl | ⟨old, _⟩)
    · exact present
    · exact old
  · intro old
    by_cases same : other.1 = version.1
    · exact Or.inl (keyed other old version present same)
    · exact Or.inr ⟨old, same⟩

/-- Putting back the schema that is there changes nothing. -/
theorem State.put_same (state : State) (puts : Bool) : state.put puts state.listing = state := by
  cases puts <;> rfl

/-- Under a new rowid nothing is replaced. -/
theorem State.mem_putRow
    {state : State}
    {version other : Version}
    (fresh : version.1 ∉ state.rows.map Prod.fst) :
    other ∈ (state.putRow version).rows ↔ other = version ∨ other ∈ state.rows := by
  simp only [State.putRow, List.mem_cons, List.mem_filter, decide_eq_true_eq]
  constructor
  · rintro (rfl | ⟨old, _⟩)
    · exact Or.inl rfl
    · exact Or.inr old
  · rintro (rfl | old)
    · exact Or.inl rfl
    · refine Or.inr ⟨old, fun same => fresh ?_⟩
      exact List.mem_map.mpr ⟨other, old, same⟩

/-! ## Who holds the table lock -/

/-- A task that neither holds the lock nor writes. -/
structure Task.Rests (task : Task) : Prop where
  free : task.access = none
  still : ∀ statement, task ≠ .writing statement

/-- The lock and the tasks tell the same. -/
structure Locked (state : State) : Prop where
  shared :
    ∀ connection,
      connection ∈ state.lock.readers ↔ (state.task connection).access = some .shared
  exclusive :
    ∀ connection,
      state.lock.writer = some connection ↔
        (state.task connection).access = some .exclusive
  alone : state.lock.writer ≠ none → state.lock.readers = ∅
  uncascaded : state.lock.writer ≠ none → state.Uncascaded

namespace Locked

variable
  {state : State}
  {connection other : Nat}
  {task : Task}

/-- Beside the holder of the exclusive side everyone rests. -/
theorem rests
    (locked : Locked state)
    (holds : (state.task connection).access = some .exclusive)
    (different : other ≠ connection) :
    (state.task other).Rests := by
  have writer := (locked.exclusive connection).mpr holds
  have taken : state.lock.writer ≠ none := by simp [writer]
  have free : (state.task other).access = none := by
    cases side : (state.task other).access with
    | none => rfl
    | some access =>
        cases access with
        | shared =>
            have reader := (locked.shared other).mpr side
            rw [locked.alone taken] at reader
            cases reader
        | exclusive =>
            have same := writer.symm.trans ((locked.exclusive other).mpr side)
            exact absurd (Option.some.inj same).symm different
  refine ⟨free, fun statement writing => ?_⟩
  have side := locked.uncascaded taken other statement writing
  simp [writing, Task.access, side] at free

theorem setTask
    (connection : Nat)
    (task : Task)
    (locked : Locked state)
    (same : task.access = (state.task connection).access)
    (cascade :
      ∀ statement, task = .writing statement → statement.locked = false →
        ∃ earlier, state.task connection = .writing earlier ∧ earlier.locked = false) :
    Locked (state.setTask connection task) where
  shared := by
    refine (Function.forall_update_iff state.task
      (p := fun who now => who ∈ state.lock.readers ↔ now.access = some .shared)).mpr ?_
    exact ⟨same ▸ locked.shared connection, fun who _ => locked.shared who⟩
  exclusive := by
    refine (Function.forall_update_iff state.task
      (p := fun who now => state.lock.writer = some who ↔ now.access = some .exclusive)).mpr ?_
    exact ⟨same ▸ locked.exclusive connection, fun who _ => locked.exclusive who⟩
  alone := locked.alone
  uncascaded taken := by
    refine (Function.forall_update_iff state.task
      (p := fun _ now => ∀ statement, now = .writing statement → statement.locked = true)).mpr ?_
    refine ⟨fun statement now => ?_, fun who _ => locked.uncascaded taken who⟩
    cases side : statement.locked with
    | true => rfl
    | false =>
        obtain ⟨earlier, writing, unlocked⟩ := cascade statement now side
        exact (Bool.false_ne_true
          (unlocked.symm.trans (locked.uncascaded taken connection earlier writing))).elim

/-- What the lock says about everyone else stays as it is. -/
theorem relock
    {lock : TableLock}
    (locked : Locked state)
    (shared : ∀ who, who ≠ connection →
      (who ∈ lock.readers ↔ who ∈ state.lock.readers))
    (exclusive : ∀ who, who ≠ connection →
      (lock.writer = some who ↔ state.lock.writer = some who))
    (ownShared : connection ∈ lock.readers ↔ task.access = some .shared)
    (ownExclusive : lock.writer = some connection ↔ task.access = some .exclusive)
    (alone : lock.writer ≠ none → lock.readers = ∅)
    (uncascaded : lock.writer ≠ none → (state.setTask connection task).Uncascaded) :
    Locked { state.setTask connection task with lock := lock } where
  shared := by
    refine (Function.forall_update_iff state.task
      (p := fun who now => who ∈ lock.readers ↔ now.access = some .shared)).mpr ?_
    exact ⟨ownShared, fun who different =>
      (shared who different).trans (locked.shared who)⟩
  exclusive := by
    refine (Function.forall_update_iff state.task
      (p := fun who now => lock.writer = some who ↔ now.access = some .exclusive)).mpr ?_
    exact ⟨ownExclusive, fun who different =>
      (exclusive who different).trans (locked.exclusive who)⟩
  alone := alone
  uncascaded := uncascaded

theorem setTask_uncascaded
    (uncascaded : state.Uncascaded)
    (own : ∀ statement, task = .writing statement → statement.locked = true) :
    (state.setTask connection task).Uncascaded := by
  refine (Function.forall_update_iff state.task
    (p := fun _ now => ∀ statement, now = .writing statement → statement.locked = true)).mpr ?_
  exact ⟨own, fun who _ => uncascaded who⟩

/-- Take the lock for a task. -/
theorem enter
    {next : State}
    (locked : Locked state)
    (idle : (state.task connection).access = none)
    (cascade :
      ∀ statement, task = .writing statement → statement.locked = false →
        state.lock.writer = none)
    (uncascaded : task.access = some .exclusive → state.Uncascaded)
    (entered : state.enter connection task = some next) :
    Locked next := by
  obtain ⟨lock, acquired, rfl⟩ := Option.map_eq_some_iff.mp entered
  have reading : connection ∉ state.lock.readers := fun reader => by
    simp [(locked.shared connection).mp reader] at idle
  have holding : state.lock.writer ≠ some connection := fun writer => by
    simp [(locked.exclusive connection).mp writer] at idle
  cases side : task.access with
  | none =>
      rw [side] at acquired
      obtain rfl := Option.some.inj acquired
      refine locked.relock (fun _ _ => Iff.rfl) (fun _ _ => Iff.rfl)
        (by simp [side, reading]) (by simp [side, holding]) locked.alone fun taken => ?_
      refine setTask_uncascaded (locked.uncascaded taken) fun statement writing => ?_
      cases unlocked : statement.locked with
      | true => rfl
      | false => exact absurd (cascade statement writing unlocked) taken
  | some access =>
      cases access with
      | shared =>
          rw [side] at acquired
          simp only [TableLock.acquire] at acquired
          split at acquired
          case isTrue free =>
            obtain rfl := Option.some.inj acquired
            refine locked.relock ?_ (fun _ _ => Iff.rfl)
              (by simp [side]) (by simp [side, holding])
              (fun taken => absurd free taken) (fun taken => absurd free taken)
            intro who different
            simp [different]
          case isFalse => cases acquired
      | exclusive =>
          rw [side] at acquired
          simp only [TableLock.acquire] at acquired
          split at acquired
          case isTrue free =>
            obtain rfl := Option.some.inj acquired
            refine locked.relock (fun _ _ => Iff.rfl) ?_
              (by simp [side, reading]) (by simp [side]) (fun _ => free.2) fun _ => ?_
            · intro who different
              simp [free.1, Ne.symm different]
            · refine setTask_uncascaded (uncascaded side) fun statement writing => ?_
              cases unlocked : statement.locked with
              | true => rfl
              | false => simp [writing, Task.access, unlocked] at side
          case isFalse => cases acquired

/-- Give the lock back. -/
theorem leave
    (connection : Nat)
    (task : Task)
    (locked : Locked state)
    (rests : task.Rests) :
    Locked (state.leave connection task) := by
  refine locked.relock ?_ ?_ ?_ ?_ ?_ ?_
  · intro who different
    simp [TableLock.release, different]
  · intro who different
    by_cases own : state.lock.writer = some connection
    · simp [TableLock.release, own, Ne.symm different]
    · simp [TableLock.release, own]
  · simp [TableLock.release, rests.free]
  · by_cases own : state.lock.writer = some connection
    · simp [TableLock.release, own, rests.free]
    · simp [TableLock.release, own, rests.free]
  · intro taken
    have before : state.lock.writer ≠ none := fun free => taken (by simp [TableLock.release, free])
    simp [TableLock.release, locked.alone before]
  · intro taken
    have before : state.lock.writer ≠ none := fun free => taken (by simp [TableLock.release, free])
    refine setTask_uncascaded (locked.uncascaded before) fun statement writing => ?_
    exact absurd writing (rests.still statement)

/-- The contents of the trees do not matter. -/
theorem congr
    (next : State)
    (locked : Locked state)
    (lock : next.lock = state.lock)
    (task : next.task = state.task) :
    Locked next where
  shared := by
    rw [lock, task]
    exact locked.shared
  exclusive := by
    rw [lock, task]
    exact locked.exclusive
  alone := by
    rw [lock]
    exact locked.alone
  uncascaded := by
    rw [lock, State.Uncascaded, task]
    exact locked.uncascaded

end Locked

/-! ## What a task has in hand -/

/-- The versions a task has read from the table or put into it. -/
def Task.holds : Task → List Version
  | .writing statement => statement.copies ++ statement.created
  | .scanning _ found => found
  | .populating remaining => remaining
  | _ => []

/-- The versions that go when the task fails. -/
def Task.created : Task → List Version
  | .writing statement => statement.created
  | _ => []

/-- The task will insert the entry of the version. -/
def Task.Expects (version : Version) : Task → Prop
  | .writing statement => statement.owed = some version
  | .listed => True
  | .scanning cursor found => version ∈ found ∨ cursor ≤ version.1.toNat
  | .populating remaining => version ∈ remaining
  | _ => False

structure Statement.Fits
    (columns : List Nat)
    (state : State)
    (statement : Statement) : Prop where
  schema : statement.schema = state.listing
  inserted : ∀ version ∈ statement.inserted, version ∈ statement.created
  owed :
    ∀ version,
      statement.owed = some version →
        version ∈ statement.created ∧ statement.schema ≠ .absent
  /-- Who has inserted the entry of a version the statement can take back. -/
  origin :
    ∀ version ∈ statement.created,
      keyOf columns version ∈ state.index →
        version ∈ statement.inserted ∨ version.1 ∈ state.scanned

/-- What a task has decided from the schema, and what it has written, still hold. -/
def Task.Fits (columns : List Nat) (state : State) : Task → Prop
  | .writing statement => statement.Fits columns state
  | .reclaiming schema dead =>
      schema = state.listing ∧
        ∀ version ∈ dead, ∀ other ∈ state.rows, version.1 = other.1 → version = other
  | .scanning _ found => ∀ version ∈ found, version.1 ∈ state.scanned
  | .populating remaining => ∀ version ∈ remaining, version.1 ∈ state.scanned
  | _ => True

/-- The index against the table: nothing stray, and nothing that is forgotten. -/
structure Trees (columns : List Nat) (state : State) : Prop where
  keyed : Keyed state.rows
  rooted : ∀ key ∈ state.index, ∃ version ∈ state.rows, key = keyOf columns version
  unlisted : state.listing = .absent → state.index = ∅
  covered :
    state.listing ≠ .absent →
      ∀ version ∈ state.rows,
        keyOf columns version ∈ state.index ∨
          ∃ connection, (state.task connection).Expects version

structure Working (columns : List Nat) (state : State) : Prop where
  held :
    ∀ connection,
      ∀ version ∈ (state.task connection).holds, version ∈ state.rows
  fits : ∀ connection, (state.task connection).Fits columns state
  /-- Only the scan reads what another statement may still take back. -/
  apart :
    ∀ connection other,
      other ≠ connection →
        ∀ version ∈ (state.task connection).created,
          version ∈ (state.task other).holds → version.1 ∈ state.scanned
  builder :
    ∀ connection other,
      (state.task connection).builds = true →
        (state.task other).builds = true →
          connection = other
  listed :
    ∀ connection, (state.task connection).builds = true → state.listing ≠ .absent

namespace Task

variable {columns : List Nat} {state next : State} {task : Task}

theorem created_holds
    {version : Version}
    (created : version ∈ task.created) :
    version ∈ task.holds := by
  cases task with
  | writing statement => exact List.mem_append_right _ created
  | _ => cases created

theorem Rests.holds (rests : task.Rests) : task.holds = [] := by
  cases task with
  | writing statement => exact absurd rfl (rests.still statement)
  | scanning cursor found => exact nomatch rests.free
  | populating remaining => exact nomatch rests.free
  | _ => rfl

theorem Rests.created (rests : task.Rests) : task.created = [] :=
  List.eq_nil_iff_forall_not_mem.mpr fun _ member =>
    List.not_mem_nil (rests.holds ▸ created_holds member)

theorem Rests.fits (rests : task.Rests) : task.Fits columns state := by
  cases task with
  | writing statement => exact absurd rfl (rests.still statement)
  | scanning cursor found => exact nomatch rests.free
  | populating remaining => exact nomatch rests.free
  | reclaiming schema dead => exact nomatch rests.free
  | _ => trivial

/-- What another connection may do without a task noticing. -/
theorem Fits.frame
    (fits : task.Fits columns state)
    (listing : next.listing = state.listing)
    (scanned : ∀ rowid ∈ state.scanned, rowid ∈ next.scanned)
    (index :
      ∀ version ∈ task.created,
        keyOf columns version ∈ next.index →
          keyOf columns version ∈ state.index ∨ version.1 ∈ next.scanned)
    (rows :
      task.access = some .exclusive → ∀ version ∈ next.rows, version ∈ state.rows) :
    task.Fits columns next := by
  cases task with
  | writing statement =>
      refine ⟨fits.schema.trans listing.symm, fits.inserted, fits.owed, ?_⟩
      intro version created present
      rcases index version created present with before | read
      · exact (fits.origin version created before).imp_right (scanned _)
      · exact Or.inr read
  | reclaiming schema dead =>
      refine ⟨fits.1.trans listing.symm, fun version member other present => ?_⟩
      exact fits.2 version member other (rows rfl other present)
  | scanning cursor found => exact fun version member => scanned _ (fits version member)
  | populating remaining => exact fun version member => scanned _ (fits version member)
  | _ => trivial

end Task

variable
  {columns : List Nat}
  {state next : State}
  {connection : Nat}
  {task : Task}

/-- One connection goes on to another task. -/
theorem Working.advance
    (next : State)
    (task : Task)
    (working : Working columns state)
    (went : next.task = Function.update state.task connection task)
    (scanned : ∀ rowid ∈ state.scanned, rowid ∈ next.scanned)
    (others :
      ∀ other, other ≠ connection →
        (∀ version ∈ (state.task other).holds, version ∈ next.rows) ∧
          (state.task other).Fits columns next ∧
          ((state.task other).builds = true → next.listing ≠ .absent))
    (held : ∀ version ∈ task.holds, version ∈ next.rows)
    (fits : task.Fits columns next)
    (created :
      ∀ version ∈ task.created,
        version ∈ (state.task connection).created ∨ version ∉ state.rows)
    (reads :
      ∀ version ∈ task.holds,
        version ∈ (state.task connection).holds ∨ version ∉ state.rows ∨
          version.1 ∈ next.scanned ∨
          ∀ other, other ≠ connection → version ∉ (state.task other).created)
    (builder :
      task.builds = true →
        next.listing ≠ .absent ∧
          ((state.task connection).builds = true ∨
            ∀ other, other ≠ connection → (state.task other).builds ≠ true)) :
    Working columns next := by
  have own : next.task connection = task := by rw [went, Function.update_self]
  have rest (other : Nat) (different : other ≠ connection) :
      next.task other = state.task other := by
    rw [went, Function.update_of_ne different]
  refine ⟨fun who => ?_, fun who => ?_, fun who other different => ?_,
    fun who other => ?_, fun who => ?_⟩
  · by_cases same : who = connection
    · rw [same, own]
      exact held
    · rw [rest who same]
      exact (others who same).1
  · by_cases same : who = connection
    · rw [same, own]
      exact fits
    · rw [rest who same]
      exact (others who same).2.1
  · intro version made member
    by_cases same : who = connection
    · subst same
      rw [own] at made
      rw [rest other different] at member
      rcases created version made with before | fresh
      · exact scanned _ (working.apart who other different version before member)
      · exact absurd (working.held other version member) fresh
    · rw [rest who same] at made
      by_cases mine : other = connection
      · subst mine
        rw [own] at member
        rcases reads version member with before | fresh | read | foreign
        · exact scanned _ (working.apart who other different version made before)
        · exact absurd (working.held who version (Task.created_holds made)) fresh
        · exact read
        · exact absurd made (foreign who same)
      · rw [rest other mine] at member
        exact scanned _ (working.apart who other different version made member)
  · intro left right
    by_cases same : who = connection
    · by_cases mine : other = connection
      · exact same.trans mine.symm
      · rw [same, own] at left
        rw [rest other mine] at right
        rcases (builder left).2 with before | none
        · exact same.trans (working.builder connection other before right)
        · exact absurd right (none other mine)
    · rw [rest who same] at left
      by_cases mine : other = connection
      · rw [mine, own] at right
        rcases (builder right).2 with before | none
        · exact (working.builder who connection left before).trans mine.symm
        · exact absurd left (none who same)
      · rw [rest other mine] at right
        exact working.builder who other left right
  · intro builds
    by_cases same : who = connection
    · rw [same, own] at builds
      exact (builder builds).1
    · rw [rest who same] at builds
      exact (others who same).2.2 builds

theorem expected_update
    {version : Version}
    {settled : Prop}
    (went : next.task = Function.update state.task connection task)
    (own : (state.task connection).Expects version → settled ∨ task.Expects version)
    (expected : ∃ who, (state.task who).Expects version) :
    settled ∨ ∃ who, (next.task who).Expects version := by
  obtain ⟨who, expects⟩ := expected
  by_cases same : who = connection
  · subst same
    refine (own expects).imp_right fun now => ⟨who, ?_⟩
    rwa [went, Function.update_self]
  · refine Or.inr ⟨who, ?_⟩
    rwa [went, Function.update_of_ne same]

/-- A step that leaves the table and the index alone. -/
theorem Trees.keep
    (trees : Trees columns state)
    (went : next.task = Function.update state.task connection task)
    (rows : next.rows = state.rows)
    (index : next.index = state.index)
    (listing : next.listing = state.listing)
    (expects :
      ∀ version ∈ state.rows, (state.task connection).Expects version →
        task.Expects version) :
    Trees columns next where
  keyed := rows ▸ trees.keyed
  rooted := by
    rw [rows, index]
    exact trees.rooted
  unlisted := by
    rw [listing, index]
    exact trees.unlisted
  covered := by
    rw [listing, rows, index]
    intro present version member
    rcases trees.covered present version member with entered | expected
    · exact Or.inl entered
    · exact expected_update went (fun before => Or.inr (expects version member before)) expected

theorem Working.keep
    (working : Working columns state)
    (went : next.task = Function.update state.task connection task)
    (rows : next.rows = state.rows)
    (index : next.index = state.index)
    (listing : next.listing = state.listing)
    (scanned : next.scanned = state.scanned)
    (holds :
      ∀ version ∈ task.holds,
        version ∈ (state.task connection).holds ∨
          version ∈ state.rows ∧
            ∀ other, other ≠ connection → version ∉ (state.task other).created)
    (created : ∀ version ∈ task.created, version ∈ (state.task connection).created)
    (fits : task.Fits columns state)
    (builds : task.builds = true → (state.task connection).builds = true) :
    Working columns next := by
  have unread : ∀ rowid ∈ state.scanned, rowid ∈ next.scanned := by
    rw [scanned]
    exact fun _ read => read
  have framed {any : Task} (before : any.Fits columns state) : any.Fits columns next :=
    before.frame listing unread (fun _ _ present => Or.inl (index ▸ present))
      (fun _ _ present => rows ▸ present)
  refine working.advance _ _ went unread (fun other _ => ⟨?_, ?_, ?_⟩) ?_ (framed fits)
    (fun version made => Or.inl (created version made)) ?_ ?_
  · rw [rows]
    exact working.held other
  · exact framed (working.fits other)
  · rw [listing]
    exact working.listed other
  · rw [rows]
    intro version member
    rcases holds version member with before | read
    · exact working.held connection version before
    · exact read.1
  · intro version member
    exact (holds version member).imp_right fun read => Or.inr (Or.inr read.2)
  · rw [listing]
    exact fun building =>
      ⟨working.listed connection (builds building), Or.inl (builds building)⟩

structure Sound (columns : List Nat) (state : State) : Prop where
  locked : Locked state
  trees : Trees columns state
  working : Working columns state

/-! ## The writes of a statement -/

/-- The table keeps its versions and so does everything in hand. -/
theorem Sound.rewrite
    (connection : Nat)
    {version : Version}
    (sound : Sound columns state)
    (member : version ∈ (state.task connection).holds) :
    Sound columns (state.putRow version) := by
  have present := sound.working.held connection version member
  have same (other : Version) :
      other ∈ (state.putRow version).rows ↔ other ∈ state.rows :=
    State.mem_rewrite sound.trees.keyed present
  refine ⟨sound.locked.congr _ rfl rfl, ?_, ?_⟩
  · refine ⟨sound.trees.keyed.subset fun other => (same other).mp, ?_,
      sound.trees.unlisted, ?_⟩
    · intro key entered
      obtain ⟨other, old, keyed⟩ := sound.trees.rooted key entered
      exact ⟨other, (same other).mpr old, keyed⟩
    · exact fun listed other old => sound.trees.covered listed other ((same other).mp old)
  · refine ⟨fun who other old => (same other).mpr (sound.working.held who other old),
      fun who => ?_, sound.working.apart, sound.working.builder, sound.working.listed⟩
    exact (sound.working.fits who).frame rfl (fun _ read => read)
      (fun _ _ present => Or.inl present) (fun _ other => (same other).mp)

/-- A statement puts a new version into the table. -/
theorem Sound.insertRow
    {statement : Statement}
    (version : Version)
    (sound : Sound columns state)
    (writing : state.task connection = .writing statement)
    (settled : statement.owed = none)
    (fresh : version.1 ∉ state.rows.map Prod.fst) :
    Sound columns
      ((state.putRow version).setTask connection
        (.writing { statement with
          created := version :: statement.created
          owed := if statement.maintains then some version else none })) := by
  have new : version ∉ state.rows := fun present =>
    fresh (List.mem_map.mpr ⟨version, present, rfl⟩)
  have rows (other : Version) :
      other ∈ (state.putRow version).rows ↔ other = version ∨ other ∈ state.rows :=
    State.mem_putRow fresh
  have fits : statement.Fits columns state := by
    have now := sound.working.fits connection
    rwa [writing] at now
  have held := sound.working.held connection
  rw [writing] at held
  refine ⟨?_, ⟨?_, ?_, sound.trees.unlisted, ?_⟩, ?_⟩
  · refine (sound.locked.congr (state.putRow version) rfl rfl).setTask connection _ ?_ ?_
    · exact (congrArg Task.access writing).symm
    · rintro now ⟨⟩ unlocked
      exact ⟨statement, writing, unlocked⟩
  · intro first left second right same
    rcases (rows first).mp left with rfl | old
    · rcases (rows second).mp right with rfl | older
      · rfl
      · exact absurd (List.mem_map.mpr ⟨second, older, same.symm⟩) fresh
    · rcases (rows second).mp right with rfl | older
      · exact absurd (List.mem_map.mpr ⟨first, old, same⟩) fresh
      · exact sound.trees.keyed first old second older same
  · intro key entered
    obtain ⟨other, old, keyed⟩ := sound.trees.rooted key entered
    exact ⟨other, (rows other).mpr (Or.inr old), keyed⟩
  · intro listed other member
    rcases (rows other).mp member with rfl | old
    · refine Or.inr ⟨connection, ?_⟩
      have known : state.listing ≠ .absent := listed
      simp [State.setTask, Task.Expects, Statement.maintains, fits.schema, known]
    · rcases sound.trees.covered listed other old with entered | expected
      · exact Or.inl entered
      · refine expected_update rfl (fun expects => ?_) expected
        rw [State.putRow, writing] at expects
        exact nomatch settled.symm.trans expects
  · refine sound.working.advance ((state.putRow version).setTask connection _) _
      rfl (fun _ read => read) ?_ ?_ ?_ ?_ ?_ nofun
    · intro other different
      refine ⟨fun older member =>
          (rows older).mpr (Or.inr (sound.working.held other older member)), ?_,
        sound.working.listed other⟩
      refine (sound.working.fits other).frame rfl (fun _ read => read)
        (fun _ _ present => Or.inl present) fun exclusive => ?_
      exact absurd writing
        ((sound.locked.rests exclusive (Ne.symm different)).still statement)
    · intro older member
      refine (rows older).mpr ?_
      rcases List.mem_append.mp member with copied | made
      · exact Or.inr (held older (List.mem_append_left _ copied))
      · rcases List.mem_cons.mp made with rfl | made
        · exact Or.inl rfl
        · exact Or.inr (held older (List.mem_append_right _ made))
    · refine ⟨fits.schema, fun older inserted =>
        List.mem_cons_of_mem _ (fits.inserted older inserted), ?_, ?_⟩
      · intro older owed
        by_cases absent : statement.schema = .absent
        · simp [Statement.maintains, absent] at owed
        · simp only [Statement.maintains, absent, ne_eq, not_false_eq_true, decide_true,
            if_true, Option.some.injEq] at owed
          exact ⟨owed ▸ List.mem_cons_self, absent⟩
      · intro older made present
        rcases List.mem_cons.mp made with rfl | made
        · obtain ⟨other, old, keyed⟩ := sound.trees.rooted _ present
          exact absurd (List.mem_map.mpr ⟨other, old, (keyOf_rowid keyed).symm⟩) fresh
        · exact fits.origin older made present
    · intro older made
      rw [writing]
      rcases List.mem_cons.mp made with rfl | made
      · exact Or.inr new
      · exact Or.inl made
    · intro older member
      rw [writing]
      rcases List.mem_append.mp member with copied | made
      · exact Or.inl (List.mem_append_left _ copied)
      · rcases List.mem_cons.mp made with rfl | made
        · exact Or.inr (Or.inl new)
        · exact Or.inl (List.mem_append_right _ made)

/-- An entry is put in for a version that is in the table. -/
theorem Trees.insert
    {version : Version}
    (trees : Trees columns state)
    (went : next.task = Function.update state.task connection task)
    (rows : next.rows = state.rows)
    (index : next.index = Insert.insert (keyOf columns version) state.index)
    (listing : next.listing = state.listing)
    (present : version ∈ state.rows)
    (listed : state.listing ≠ .absent)
    (expects :
      ∀ other, (state.task connection).Expects other →
        other = version ∨ task.Expects other) :
    Trees columns next where
  keyed := rows ▸ trees.keyed
  rooted := by
    rw [rows, index]
    intro key entered
    rcases Finset.mem_insert.mp entered with rfl | before
    · exact ⟨version, present, rfl⟩
    · exact trees.rooted key before
  unlisted := by
    rw [listing]
    exact fun absent => absurd absent listed
  covered := by
    rw [rows, index]
    intro _ other member
    rcases trees.covered listed other member with entered | expected
    · exact Or.inl (Finset.mem_insert_of_mem entered)
    · refine expected_update went (fun before => ?_) expected
      rcases expects other before with rfl | still
      · exact Or.inl (Finset.mem_insert_self _ _)
      · exact Or.inr still

/-- The entry of a version somebody else has created was scanned, or is an old one. -/
theorem Working.foreign
    {version : Version}
    (working : Working columns state)
    (keyed : Keyed state.rows)
    (holds : version ∈ (state.task connection).holds)
    {other : Nat}
    (different : other ≠ connection) :
    ∀ made ∈ (state.task other).created,
      keyOf columns made ∈ Insert.insert (keyOf columns version) state.index →
        keyOf columns made ∈ state.index ∨ made.1 ∈ state.scanned := by
  intro made created entered
  rcases Finset.mem_insert.mp entered with same | before
  · have present := working.held other made (Task.created_holds created)
    obtain rfl := keyed.keyOf present (working.held connection version holds) same
    exact Or.inr (working.apart other connection (Ne.symm different) made created holds)
  · exact Or.inl before

theorem Sound.insertEntry
    {statement : Statement}
    {version : Version}
    (sound : Sound columns state)
    (writing : state.task connection = .writing statement)
    (owed : statement.owed = some version) :
    Sound columns
      { state.setTask connection
          (.writing { statement with
            inserted := version :: statement.inserted
            owed := none }) with
        index := insert (keyOf columns version) state.index } := by
  have fits : statement.Fits columns state := by
    have now := sound.working.fits connection
    rwa [writing] at now
  obtain ⟨created, maintains⟩ := fits.owed version owed
  have listed : state.listing ≠ .absent := fits.schema ▸ maintains
  have holds : version ∈ (state.task connection).holds := by
    rw [writing]
    exact List.mem_append_right _ created
  refine ⟨?_, ?_, ?_⟩
  · refine (sound.locked.setTask connection
      (.writing { statement with
        inserted := version :: statement.inserted
        owed := none }) ?_ ?_).congr _ rfl rfl
    · exact (congrArg Task.access writing).symm
    · rintro now ⟨⟩ unlocked
      exact ⟨statement, writing, unlocked⟩
  · refine sound.trees.insert rfl rfl rfl rfl
      (sound.working.held connection version holds) listed fun other expects => ?_
    rw [writing] at expects
    exact Or.inl (Option.some.inj (expects.symm.trans owed))
  · refine sound.working.advance _ _ rfl (fun _ read => read) ?_ ?_ ?_ ?_ ?_ nofun
    · intro other different
      refine ⟨sound.working.held other, ?_, sound.working.listed other⟩
      exact (sound.working.fits other).frame rfl (fun _ read => read)
        (sound.working.foreign sound.trees.keyed holds different) (fun _ _ old => old)
    · have held := sound.working.held connection
      rw [writing] at held
      exact held
    · refine ⟨fits.schema, ?_, nofun, ?_⟩
      · intro older inserted
        rcases List.mem_cons.mp inserted with rfl | before
        · exact created
        · exact fits.inserted older before
      · intro made member present
        rcases Finset.mem_insert.mp present with same | before
        · have old := sound.working.held connection made (by
            rw [writing]
            exact List.mem_append_right _ member)
          obtain rfl := sound.trees.keyed.keyOf old
            (sound.working.held connection version holds) same
          exact Or.inl List.mem_cons_self
        · exact (fits.origin made member before).imp_left (List.mem_cons_of_mem _)
    · intro made member
      rw [writing]
      exact Or.inl member
    · intro other member
      rw [writing]
      exact Or.inl member

theorem Sound.fail
    {statement : Statement}
    (sound : Sound columns state)
    (writing : state.task connection = .writing statement)
    (unread : ∀ version ∈ statement.created, version.1 ∉ state.scanned) :
    Sound columns ((state.takeBack columns statement).leave connection .idle) := by
  have fits : statement.Fits columns state := by
    have now := sound.working.fits connection
    rwa [writing] at now
  have mine (version : Version) (created : version ∈ statement.created) :
      version ∈ (state.task connection).created := by
    rw [writing]
    exact created
  have rows (version : Version) :
      version ∈ (state.takeBack columns statement).rows ↔
        version ∈ state.rows ∧ version ∉ statement.created := by
    simp [State.takeBack]
  have index (key : List UInt8) :
      key ∈ (state.takeBack columns statement).index ↔
        key ∈ state.index ∧ key ∉ statement.inserted.map (keyOf columns) := by
    simp [State.takeBack]
  refine ⟨?_, ⟨?_, ?_, ?_, ?_⟩, ?_⟩
  · exact (sound.locked.congr (state.takeBack columns statement) rfl rfl).leave connection _
      ⟨rfl, nofun⟩
  · exact sound.trees.keyed.subset fun version member => ((rows version).mp member).1
  · intro key entered
    obtain ⟨before, kept⟩ := (index key).mp entered
    obtain ⟨version, present, rfl⟩ := sound.trees.rooted key before
    refine ⟨version, (rows version).mpr ⟨present, fun created => ?_⟩, rfl⟩
    rcases fits.origin version created before with inserted | read
    · exact kept (List.mem_map.mpr ⟨version, inserted, rfl⟩)
    · exact unread version created read
  · intro absent
    have empty := sound.trees.unlisted absent
    simp [State.leave, State.setTask, State.takeBack, empty]
  · intro listed version member
    obtain ⟨present, kept⟩ := (rows version).mp member
    rcases sound.trees.covered listed version present with entered | expected
    · refine Or.inl ((index _).mpr ⟨entered, fun gone => ?_⟩)
      obtain ⟨other, inserted, same⟩ := List.mem_map.mp gone
      have created := fits.inserted other inserted
      have old := sound.working.held connection other (Task.created_holds (mine other created))
      obtain rfl := sound.trees.keyed.keyOf old present same
      exact kept created
    · refine expected_update rfl (fun expects => ?_) expected
      simp only [State.takeBack, writing] at expects
      exact absurd (fits.owed version expects).1 kept
  · refine sound.working.advance
      ((state.takeBack columns statement).leave connection .idle) .idle
      rfl (fun _ read => read) ?_ nofun trivial nofun nofun nofun
    intro other different
    refine ⟨fun version member => ?_, ?_, sound.working.listed other⟩
    · refine (rows version).mpr ⟨sound.working.held other version member, fun created => ?_⟩
      exact unread version created
        (sound.working.apart connection other different version (mine version created) member)
    · exact (sound.working.fits other).frame rfl (fun _ read => read)
        (fun _ _ present => Or.inl ((index _).mp present).1)
        (fun _ version member => ((rows version).mp member).1)

/-! ## Under the exclusive side of the lock -/

/-- What the others need when they all rest. -/
theorem Sound.alone
    (sound : Sound columns state)
    (exclusive : (state.task connection).access = some .exclusive)
    (listing : state.listing ≠ .absent → next.listing ≠ .absent) :
    ∀ other, other ≠ connection →
      (∀ version ∈ (state.task other).holds, version ∈ next.rows) ∧
        (state.task other).Fits columns next ∧
          ((state.task other).builds = true → next.listing ≠ .absent) := by
  intro other different
  have rests := sound.locked.rests exclusive different
  refine ⟨fun version member => ?_, rests.fits, fun builds =>
    listing (sound.working.listed other builds)⟩
  rw [rests.holds] at member
  cases member

theorem Sound.removeRow
    {schema : Listing}
    {version : Version}
    {rest : List Version}
    (sound : Sound columns state)
    (reclaiming : state.task connection = .reclaiming schema (version :: rest)) :
    Sound columns
      { state.setTask connection (.reclaiming schema rest) with
        rows := state.rows.filter fun other => other.1 ≠ version.1
        index :=
          if schema ≠ .absent then state.index.erase (keyOf columns version)
          else state.index } := by
  have exclusive : (state.task connection).access = some .exclusive := by
    rw [reclaiming]
    rfl
  have fits := sound.working.fits connection
  rw [reclaiming] at fits
  have kept (other : Version) :
      (other ∈ state.rows.filter fun other => other.1 ≠ version.1) ↔
        other ∈ state.rows ∧ other.1 ≠ version.1 := by
    simp
  refine ⟨?_, ⟨?_, ?_, ?_, ?_⟩, ?_⟩
  · refine (sound.locked.setTask connection
      (.reclaiming schema rest) ?_ nofun).congr _ rfl rfl
    exact exclusive.symm
  · exact sound.trees.keyed.subset fun other member => ((kept other).mp member).1
  · intro key entered
    by_cases absent : schema = .absent
    · have empty := sound.trees.unlisted (fits.1.symm.trans absent)
      simp [empty] at entered
    · simp only [ne_eq, absent, not_false_eq_true, if_true] at entered
      obtain ⟨different, before⟩ := Finset.mem_erase.mp entered
      obtain ⟨other, present, rfl⟩ := sound.trees.rooted key before
      refine ⟨other, (kept other).mpr ⟨present, fun same => different ?_⟩, rfl⟩
      rw [fits.2 version List.mem_cons_self other present same.symm]
  · intro absent
    have empty := sound.trees.unlisted absent
    simp [empty]
  · intro listed other member
    obtain ⟨present, different⟩ := (kept other).mp member
    have maintained : schema ≠ .absent := fits.1 ▸ listed
    rcases sound.trees.covered listed other present with entered | expected
    · refine Or.inl ?_
      simp only [ne_eq, maintained, not_false_eq_true, if_true]
      exact Finset.mem_erase.mpr ⟨fun same => different (keyOf_rowid same), entered⟩
    · refine expected_update rfl (fun expects => ?_) expected
      rw [reclaiming] at expects
      exact expects.elim
  · refine sound.working.advance _ _ rfl (fun _ read => read) (sound.alone exclusive id)
      nofun ?_ nofun nofun nofun
    refine ⟨fits.1, fun older member other present => ?_⟩
    exact fits.2 older (List.mem_cons_of_mem _ member) other ((kept other).mp present).1

/-- Phase 1 lists the index: its scan has every version still ahead. -/
theorem Sound.list
    (sound : Sound columns state)
    (first : state.task connection = .first)
    (absent : state.listing = .absent) :
    Sound columns
      { state.leave connection .listed with
        listing := .building
        index := ∅ } := by
  have exclusive : (state.task connection).access = some .exclusive := by
    rw [first]
    rfl
  refine ⟨(sound.locked.leave connection .listed ⟨rfl, nofun⟩).congr _ rfl rfl,
    ⟨sound.trees.keyed, nofun, nofun, ?_⟩, ?_⟩
  · intro _ version _
    refine Or.inr ⟨connection, ?_⟩
    simp [State.leave, State.setTask, Task.Expects]
  · refine sound.working.advance _ .listed rfl (fun _ read => read)
      (sound.alone exclusive fun _ => nofun) nofun trivial nofun nofun fun _ => ?_
    refine ⟨nofun, Or.inr fun other _ builds => ?_⟩
    exact sound.working.listed other builds absent

/-- Phase 3 marks the index as complete. -/
theorem Sound.finalize
    (sound : Sound columns state)
    (last : state.task connection = .last) :
    Sound columns { state.setTask connection .finalized with listing := .ready } := by
  have exclusive : (state.task connection).access = some .exclusive := by
    rw [last]
    rfl
  have listed : state.listing ≠ .absent :=
    sound.working.listed connection (by rw [last]; rfl)
  refine ⟨(sound.locked.setTask connection .finalized exclusive.symm nofun).congr _ rfl rfl,
    ⟨sound.trees.keyed, sound.trees.rooted, nofun, ?_⟩, ?_⟩
  · intro _ version present
    rcases sound.trees.covered listed version present with entered | expected
    · exact Or.inl entered
    · refine expected_update rfl (fun expects => ?_) expected
      rw [last] at expects
      exact expects.elim
  · refine sound.working.advance _ .finalized rfl (fun _ read => read)
      (sound.alone exclusive fun _ => nofun) nofun trivial nofun nofun fun _ => ?_
    exact ⟨nofun, Or.inl (by rw [last]; rfl)⟩

/-! ## The scan of phase 2 -/

theorem Sound.scanRow
    {cursor : Nat}
    {found : List Version}
    {version : Version}
    (sound : Sound columns state)
    (scanning : state.task connection = .scanning cursor found)
    (present : version ∈ state.rows)
    (lowest :
      ∀ other ∈ state.rows, cursor ≤ other.1.toNat → version.1 ≤ other.1) :
    Sound columns
      { state.setTask connection (.scanning (version.1.toNat + 1) (version :: found)) with
        scanned := version.1 :: state.scanned } := by
  have fits := sound.working.fits connection
  rw [scanning] at fits
  have held := sound.working.held connection
  rw [scanning] at held
  have framed {any : Task} (before : any.Fits columns state) :
      any.Fits columns
        { state.setTask connection (.scanning (version.1.toNat + 1) (version :: found)) with
          scanned := version.1 :: state.scanned } :=
    before.frame rfl (fun _ read => List.mem_cons_of_mem _ read)
      (fun _ _ entered => Or.inl entered) (fun _ _ old => old)
  have builds : (state.task connection).builds = true := by
    rw [scanning]
    rfl
  refine ⟨?_, ⟨sound.trees.keyed, sound.trees.rooted, sound.trees.unlisted, ?_⟩, ?_⟩
  · refine (sound.locked.setTask connection
      (.scanning (version.1.toNat + 1) (version :: found)) ?_ nofun).congr _ rfl rfl
    exact (congrArg Task.access scanning).symm
  · intro listed other old
    rcases sound.trees.covered listed other old with entered | expected
    · exact Or.inl entered
    · refine expected_update rfl (fun expects => Or.inr ?_) expected
      rw [scanning] at expects
      rcases expects with read | ahead
      · exact Or.inl (List.mem_cons_of_mem _ read)
      · by_cases same : version.1 = other.1
        · obtain rfl := sound.trees.keyed version present other old same
          exact Or.inl List.mem_cons_self
        · refine Or.inr (Nat.lt_of_le_of_ne (lowest other old ahead) fun equal => ?_)
          exact same (UInt64.toNat_inj.mp equal)
  · refine sound.working.advance _ _ rfl (fun _ read => List.mem_cons_of_mem _ read) ?_ ?_ ?_
      nofun ?_ fun _ => ⟨sound.working.listed connection builds, Or.inl builds⟩
    · intro other _
      exact ⟨sound.working.held other, framed (sound.working.fits other),
        sound.working.listed other⟩
    · intro other member
      rcases List.mem_cons.mp member with rfl | before
      · exact present
      · exact held other before
    · intro other member
      rcases List.mem_cons.mp member with rfl | before
      · exact List.mem_cons_self
      · exact List.mem_cons_of_mem _ (fits other before)
    · intro other member
      rcases List.mem_cons.mp member with rfl | before
      · exact Or.inr (Or.inr (Or.inl List.mem_cons_self))
      · exact Or.inr (Or.inr (Or.inl (List.mem_cons_of_mem _ (fits other before))))

theorem Sound.populate
    {version : Version}
    {rest : List Version}
    (sound : Sound columns state)
    (populating : state.task connection = .populating (version :: rest)) :
    Sound columns
      { state.setTask connection (.populating rest) with
        index := insert (keyOf columns version) state.index } := by
  have builds : (state.task connection).builds = true := by
    rw [populating]
    rfl
  have listed := sound.working.listed connection builds
  have holds : version ∈ (state.task connection).holds := by
    rw [populating]
    exact List.mem_cons_self
  have fits := sound.working.fits connection
  rw [populating] at fits
  have held := sound.working.held connection
  rw [populating] at held
  refine ⟨?_, ?_, ?_⟩
  · refine (sound.locked.setTask connection (.populating rest) ?_ nofun).congr _ rfl rfl
    exact (congrArg Task.access populating).symm
  · refine sound.trees.insert rfl rfl rfl rfl
      (sound.working.held connection version holds) listed fun other expects => ?_
    rw [populating] at expects
    exact List.mem_cons.mp expects
  · refine sound.working.advance _ _ rfl (fun _ read => read) ?_ ?_ ?_ nofun ?_
      fun _ => ⟨listed, Or.inl builds⟩
    · intro other different
      refine ⟨sound.working.held other, ?_, sound.working.listed other⟩
      exact (sound.working.fits other).frame rfl (fun _ read => read)
        (sound.working.foreign sound.trees.keyed holds different) (fun _ _ old => old)
    · exact fun other member => held other (List.mem_cons_of_mem _ member)
    · exact fun other member => fits other (List.mem_cons_of_mem _ member)
    · intro other member
      rw [populating]
      exact Or.inl (List.mem_cons_of_mem _ member)

/-! ## Every step -/

/-- A task that takes the lock and has nothing in hand. -/
theorem Sound.enter
    (task : Task)
    (sound : Sound columns state)
    (before : state.task connection = .idle ∨ state.task connection = .populated)
    (fits : task.Fits columns state)
    (empty : task.holds = [])
    (builds : task.builds = (state.task connection).builds)
    (cascade :
      ∀ statement, task = .writing statement → statement.locked = false →
        state.lock.writer = none)
    (uncascaded : task.access = some .exclusive → state.Uncascaded)
    (entered : state.enter connection task = some next) :
    Sound columns next := by
  have free : (state.task connection).access = none ∧
      ∀ version, ¬ (state.task connection).Expects version := by
    rcases before with idle | populated
    · rw [idle]
      exact ⟨rfl, fun _ => id⟩
    · rw [populated]
      exact ⟨rfl, fun _ => id⟩
  have locked := sound.locked.enter free.1 cascade uncascaded entered
  obtain ⟨lock, acquired, rfl⟩ := Option.map_eq_some_iff.mp entered
  refine ⟨locked, ?_, ?_⟩
  · exact sound.trees.keep rfl rfl rfl rfl fun version _ expects =>
      absurd expects (free.2 version)
  · refine sound.working.keep rfl rfl rfl rfl rfl ?_ ?_ fits (fun now => builds ▸ now)
    · rw [empty]
      nofun
    · intro version made
      have held := Task.created_holds made
      rw [empty] at held
      cases held

/-- A task that gives the lock back and has nothing left to do. -/
theorem Sound.leave
    (sound : Sound columns state)
    (settled : ∀ version, ¬ (state.task connection).Expects version)
    (rests : task.Rests)
    (builds : task.builds = true → (state.task connection).builds = true) :
    Sound columns (state.leave connection task) := by
  refine ⟨sound.locked.leave connection task rests, ?_, ?_⟩
  · exact sound.trees.keep rfl rfl rfl rfl fun version _ expects =>
      absurd expects (settled version)
  · refine sound.working.keep rfl rfl rfl rfl rfl ?_ ?_ rests.fits builds
    · rw [rests.holds]
      nofun
    · rw [rests.created]
      nofun

theorem Sound.collect
    {statement : Statement}
    {version : Version}
    (sound : Sound columns state)
    (writing : state.task connection = .writing statement)
    (present : version ∈ state.rows)
    (visible : ¬ state.createdElsewhere connection version.1) :
    Sound columns
      (state.setTask connection
        (.writing { statement with copies := version :: statement.copies })) := by
  have fits : statement.Fits columns state := by
    have now := sound.working.fits connection
    rwa [writing] at now
  refine ⟨?_, ?_, ?_⟩
  · refine sound.locked.setTask connection _ (congrArg Task.access writing).symm ?_
    rintro now ⟨⟩ unlocked
    exact ⟨statement, writing, unlocked⟩
  · refine sound.trees.keep rfl rfl rfl rfl fun other _ expects => ?_
    rw [writing] at expects
    exact expects
  · refine sound.working.keep rfl rfl rfl rfl rfl ?_ ?_
      ⟨fits.schema, fits.inserted, fits.owed, fits.origin⟩ nofun
    · intro other member
      rw [writing]
      rcases List.mem_append.mp member with copied | made
      · rcases List.mem_cons.mp copied with rfl | before
        · refine Or.inr ⟨present, fun who different made => visible ?_⟩
          cases doing : state.task who with
          | writing peer =>
              rw [doing] at made
              exact ⟨who, peer, different, doing, List.mem_map.mpr ⟨other, made, rfl⟩⟩
          | _ =>
              rw [doing] at made
              cases made
        · exact Or.inl (List.mem_append_left _ before)
      · exact Or.inl (List.mem_append_right _ made)
    · intro other made
      rw [writing]
      exact made

theorem Sound.scan
    (sound : Sound columns state)
    (listed : state.task connection = .listed)
    (entered : state.enter connection (.scanning 0 []) = some next) :
    Sound columns next := by
  have locked := sound.locked.enter (by rw [listed]; rfl) (by nofun) (by nofun) entered
  obtain ⟨lock, acquired, rfl⟩ := Option.map_eq_some_iff.mp entered
  refine ⟨locked, ?_, ?_⟩
  · exact sound.trees.keep rfl rfl rfl rfl fun version _ _ => Or.inr (Nat.zero_le _)
  · refine sound.working.keep rfl rfl rfl rfl rfl nofun nofun nofun fun _ => ?_
    rw [listed]
    rfl

theorem Sound.scanEnd
    {cursor : Nat}
    {found : List Version}
    (sound : Sound columns state)
    (scanning : state.task connection = .scanning cursor found)
    (passed : ∀ version ∈ state.rows, version.1.toNat < cursor) :
    Sound columns (state.setTask connection (.populating found.reverse)) := by
  have fits := sound.working.fits connection
  rw [scanning] at fits
  refine ⟨?_, ?_, ?_⟩
  · exact sound.locked.setTask connection _ (congrArg Task.access scanning).symm (by nofun)
  · refine sound.trees.keep rfl rfl rfl rfl fun version present expects => ?_
    rw [scanning] at expects
    rcases expects with read | ahead
    · exact List.mem_reverse.mpr read
    · exact absurd (passed version present) (Nat.not_lt.mpr ahead)
  · refine sound.working.keep rfl rfl rfl rfl rfl ?_ nofun ?_ fun _ => ?_
    · intro version member
      rw [scanning]
      exact Or.inl (List.mem_reverse.mp member)
    · exact fun version member => fits version (List.mem_reverse.mp member)
    · rw [scanning]
      rfl

theorem Sound.step_begin
    {locked : Bool}
    (sound : Sound columns state)
    (guarded : Guarded state (.begin connection locked))
    (stepped : step columns state (.begin connection locked) = some next) :
    Sound columns next := by
  cases doing : state.task connection with
  | idle =>
      simp only [OnlineIndex.step, doing] at stepped
      refine sound.enter _ (Or.inl doing) ?_ rfl (by rw [doing]; rfl) ?_ ?_ stepped
      · exact ⟨rfl, by nofun, by nofun, by nofun⟩
      · rintro statement ⟨⟩ unlocked
        exact guarded unlocked
      · intro exclusive
        cases locked <;> cases exclusive
  | _ => simp [OnlineIndex.step, doing] at stepped

theorem Sound.step_collect
    {rowid : UInt64}
    (sound : Sound columns state)
    (guarded : Guarded state (.collect connection rowid))
    (stepped : step columns state (.collect connection rowid) = some next) :
    Sound columns next := by
  cases doing : state.task connection with
  | writing statement =>
      cases found : state.rows.find? fun version => version.1 = rowid with
      | none => simp [OnlineIndex.step, doing, found] at stepped
      | some version =>
          simp only [OnlineIndex.step, doing, found, Option.some.injEq] at stepped
          have named := List.find?_some found
          refine stepped ▸ sound.collect doing (List.mem_of_find?_eq_some found) ?_
          rwa [of_decide_eq_true named]
  | _ => simp [OnlineIndex.step, doing] at stepped

theorem Sound.step_rewrite
    {rowid : UInt64}
    (sound : Sound columns state)
    (stepped : step columns state (.rewrite connection rowid) = some next) :
    Sound columns next := by
  cases doing : state.task connection with
  | writing statement =>
      simp only [OnlineIndex.step, doing] at stepped
      obtain ⟨version, found, rfl⟩ := Option.map_eq_some_iff.mp stepped
      refine sound.rewrite connection ?_
      rw [doing]
      exact List.mem_append_left _ (List.mem_of_find?_eq_some found)
  | _ => simp [OnlineIndex.step, doing] at stepped

theorem Sound.step_insertRow
    {rowid : UInt64}
    {values : Row}
    (sound : Sound columns state)
    (stepped : step columns state (.insertRow connection rowid values) = some next) :
    Sound columns next := by
  cases doing : state.task connection with
  | writing statement =>
      simp only [OnlineIndex.step, doing] at stepped
      split at stepped
      case isTrue enabled =>
        obtain rfl := Option.some.inj stepped
        exact sound.insertRow (rowid, values) doing enabled.1 enabled.2
      case isFalse => cases stepped
  | _ => simp [OnlineIndex.step, doing] at stepped

theorem Sound.step_insertEntry
    (sound : Sound columns state)
    (stepped : step columns state (.insertEntry connection) = some next) :
    Sound columns next := by
  cases doing : state.task connection with
  | writing statement =>
      simp only [OnlineIndex.step, doing] at stepped
      obtain ⟨version, owed, rfl⟩ := Option.map_eq_some_iff.mp stepped
      exact sound.insertEntry doing owed
  | _ => simp [OnlineIndex.step, doing] at stepped

theorem Sound.step_finish
    {puts : Bool}
    (sound : Sound columns state)
    (stepped : step columns state (.finish connection puts) = some next) :
    Sound columns next := by
  cases doing : state.task connection with
  | writing statement =>
      simp only [OnlineIndex.step, doing] at stepped
      split at stepped
      case isTrue settled =>
        obtain rfl := Option.some.inj stepped
        have fits := sound.working.fits connection
        rw [doing] at fits
        rw [fits.schema, State.put_same]
        refine sound.leave (fun version => ?_) ⟨rfl, nofun⟩ nofun
        rw [doing, Task.Expects, settled]
        nofun
      case isFalse => cases stepped
  | _ => simp [OnlineIndex.step, doing] at stepped

theorem Sound.step_fail
    (sound : Sound columns state)
    (guarded : Guarded state (.fail connection))
    (stepped : step columns state (.fail connection) = some next) :
    Sound columns next := by
  cases doing : state.task connection with
  | writing statement =>
      simp only [OnlineIndex.step, doing, Option.some.injEq] at stepped
      exact stepped ▸ sound.fail doing (guarded statement doing)
  | _ => simp [OnlineIndex.step, doing] at stepped

theorem Sound.step_reclaim
    {dead : List UInt64}
    (sound : Sound columns state)
    (guarded : Guarded state (.reclaim connection dead))
    (stepped : step columns state (.reclaim connection dead) = some next) :
    Sound columns next := by
  cases doing : state.task connection with
  | idle =>
      simp only [OnlineIndex.step, doing] at stepped
      refine sound.enter _ (Or.inl doing) ?_ rfl (by rw [doing]; rfl) (by nofun)
        (fun _ => guarded) stepped
      refine ⟨rfl, fun version member other present same => ?_⟩
      exact sound.trees.keyed version (List.mem_filter.mp member).1 other present same
  | _ => simp [OnlineIndex.step, doing] at stepped

theorem Sound.step_removeRow
    (sound : Sound columns state)
    (stepped : step columns state (.removeRow connection) = some next) :
    Sound columns next := by
  cases doing : state.task connection with
  | reclaiming schema dead =>
      cases dead with
      | nil => simp [OnlineIndex.step, doing] at stepped
      | cons version rest =>
          simp only [OnlineIndex.step, doing, Option.some.injEq] at stepped
          exact stepped ▸ sound.removeRow doing
  | _ => simp [OnlineIndex.step, doing] at stepped

theorem Sound.step_reclaimed
    {puts : Bool}
    (sound : Sound columns state)
    (stepped : step columns state (.reclaimed connection puts) = some next) :
    Sound columns next := by
  cases doing : state.task connection with
  | reclaiming schema dead =>
      cases dead with
      | nil =>
          simp only [OnlineIndex.step, doing, Option.some.injEq] at stepped
          have fits := sound.working.fits connection
          rw [doing] at fits
          rw [fits.1, State.put_same] at stepped
          refine stepped ▸ sound.leave (fun version => ?_) ⟨rfl, nofun⟩ nofun
          rw [doing]
          exact id
      | cons version rest => simp [OnlineIndex.step, doing] at stepped
  | _ => simp [OnlineIndex.step, doing] at stepped

theorem Sound.step_lockFirst
    (sound : Sound columns state)
    (guarded : Guarded state (.lockFirst connection))
    (stepped : step columns state (.lockFirst connection) = some next) :
    Sound columns next := by
  cases doing : state.task connection with
  | idle =>
      simp only [OnlineIndex.step, doing] at stepped
      exact sound.enter .first (Or.inl doing) trivial rfl (by rw [doing]; rfl) nofun
        (fun _ => guarded) stepped
  | _ => simp [OnlineIndex.step, doing] at stepped

theorem Sound.step_list
    (sound : Sound columns state)
    (stepped : step columns state (.list connection) = some next) :
    Sound columns next := by
  cases doing : state.task connection with
  | first =>
      simp only [OnlineIndex.step, doing] at stepped
      split at stepped
      case isTrue absent =>
        obtain rfl := Option.some.inj stepped
        exact sound.list doing absent
      case isFalse =>
        obtain rfl := Option.some.inj stepped
        refine sound.leave (fun version => ?_) ⟨rfl, nofun⟩ nofun
        rw [doing]
        exact id
  | _ => simp [OnlineIndex.step, doing] at stepped

theorem Sound.step_scan
    (sound : Sound columns state)
    (stepped : step columns state (.scan connection) = some next) :
    Sound columns next := by
  cases doing : state.task connection with
  | listed =>
      simp only [OnlineIndex.step, doing] at stepped
      exact sound.scan doing stepped
  | _ => simp [OnlineIndex.step, doing] at stepped

theorem Sound.step_scanRow
    {version : Version}
    (sound : Sound columns state)
    (stepped : step columns state (.scanRow connection version) = some next) :
    Sound columns next := by
  cases doing : state.task connection with
  | scanning cursor found =>
      simp only [OnlineIndex.step, doing] at stepped
      split at stepped
      case isTrue enabled =>
        obtain rfl := Option.some.inj stepped
        exact sound.scanRow doing enabled.1 enabled.2.2
      case isFalse => cases stepped
  | _ => simp [OnlineIndex.step, doing] at stepped

theorem Sound.step_scanEnd
    (sound : Sound columns state)
    (stepped : step columns state (.scanEnd connection) = some next) :
    Sound columns next := by
  cases doing : state.task connection with
  | scanning cursor found =>
      simp only [OnlineIndex.step, doing] at stepped
      split at stepped
      case isTrue passed =>
        obtain rfl := Option.some.inj stepped
        exact sound.scanEnd doing passed
      case isFalse => cases stepped
  | _ => simp [OnlineIndex.step, doing] at stepped

theorem Sound.step_populate
    (sound : Sound columns state)
    (stepped : step columns state (.populate connection) = some next) :
    Sound columns next := by
  cases doing : state.task connection with
  | populating remaining =>
      cases remaining with
      | nil => simp [OnlineIndex.step, doing] at stepped
      | cons version rest =>
          simp only [OnlineIndex.step, doing, Option.some.injEq] at stepped
          exact stepped ▸ sound.populate doing
  | _ => simp [OnlineIndex.step, doing] at stepped

theorem Sound.step_populated
    (sound : Sound columns state)
    (stepped : step columns state (.populated connection) = some next) :
    Sound columns next := by
  cases doing : state.task connection with
  | populating remaining =>
      cases remaining with
      | nil =>
          simp only [OnlineIndex.step, doing, Option.some.injEq] at stepped
          refine stepped ▸ sound.leave (fun version => ?_) ⟨rfl, nofun⟩ fun _ => ?_
          · rw [doing]
            exact List.not_mem_nil
          · rw [doing]
            rfl
      | cons version rest => simp [OnlineIndex.step, doing] at stepped
  | _ => simp [OnlineIndex.step, doing] at stepped

theorem Sound.step_lockLast
    (sound : Sound columns state)
    (guarded : Guarded state (.lockLast connection))
    (stepped : step columns state (.lockLast connection) = some next) :
    Sound columns next := by
  cases doing : state.task connection with
  | populated =>
      simp only [OnlineIndex.step, doing] at stepped
      exact sound.enter .last (Or.inr doing) trivial rfl (by rw [doing]; rfl) nofun
        (fun _ => guarded) stepped
  | _ => simp [OnlineIndex.step, doing] at stepped

theorem Sound.step_finalize
    (sound : Sound columns state)
    (stepped : step columns state (.finalize connection) = some next) :
    Sound columns next := by
  cases doing : state.task connection with
  | last =>
      have listed := sound.working.listed connection (by rw [doing]; rfl)
      simp only [OnlineIndex.step, doing, listed, if_false, Option.some.injEq] at stepped
      exact stepped ▸ sound.finalize doing
  | _ => simp [OnlineIndex.step, doing] at stepped

theorem Sound.step_release
    (sound : Sound columns state)
    (stepped : step columns state (.release connection) = some next) :
    Sound columns next := by
  cases doing : state.task connection with
  | finalized =>
      simp only [OnlineIndex.step, doing, Option.some.injEq] at stepped
      refine stepped ▸ sound.leave (fun version => ?_) ⟨rfl, nofun⟩ nofun
      rw [doing]
      exact id
  | _ => simp [OnlineIndex.step, doing] at stepped

/-- Every step that meets the condition keeps the invariant. -/
theorem Sound.step
    {action : Action}
    (sound : Sound columns state)
    (guarded : Guarded state action)
    (stepped : step columns state action = some next) :
    Sound columns next := by
  cases action with
  | begin _ _ => exact sound.step_begin guarded stepped
  | collect _ _ => exact sound.step_collect guarded stepped
  | rewrite _ _ => exact sound.step_rewrite stepped
  | insertRow _ _ _ => exact sound.step_insertRow stepped
  | insertEntry _ => exact sound.step_insertEntry stepped
  | finish _ _ => exact sound.step_finish stepped
  | fail _ => exact sound.step_fail guarded stepped
  | reclaim _ _ => exact sound.step_reclaim guarded stepped
  | removeRow _ => exact sound.step_removeRow stepped
  | reclaimed _ _ => exact sound.step_reclaimed stepped
  | lockFirst _ => exact sound.step_lockFirst guarded stepped
  | list _ => exact sound.step_list stepped
  | scan _ => exact sound.step_scan stepped
  | scanRow _ _ => exact sound.step_scanRow stepped
  | scanEnd _ => exact sound.step_scanEnd stepped
  | populate _ => exact sound.step_populate stepped
  | populated _ => exact sound.step_populated stepped
  | lockLast _ => exact sound.step_lockLast guarded stepped
  | finalize _ => exact sound.step_finalize stepped
  | release _ => exact sound.step_release stepped

theorem sound_initial (columns : List Nat) (table : Table) :
    Sound columns (initial table) where
  locked := {
    shared := fun _ => ⟨nofun, nofun⟩
    exclusive := fun _ => ⟨nofun, nofun⟩
    alone := fun _ => rfl
    uncascaded := nofun }
  trees := {
    keyed := table.keyed
    rooted := nofun
    unlisted := fun _ => rfl
    covered := fun listed => absurd rfl listed }
  working := {
    held := nofun
    fits := fun _ => trivial
    apart := nofun
    builder := nofun
    listed := nofun }

/-- The invariant along a run. -/
theorem sound_of_run
    {table : Table}
    {actions : List Action}
    {final : State}
    (run : Run (step columns) Guarded (initial table) actions final) :
    Sound columns final :=
  run.invariant (Sound columns)
    (fun sound guarded stepped => sound.step guarded stepped)
    (sound_initial columns table)

/-- While phase 3 holds the lock nobody expects an entry any more. -/
theorem Sound.complete
    (sound : Sound columns state)
    (finalized : state.task connection = .finalized) :
    Complete columns state := by
  have builds : (state.task connection).builds = true := by
    rw [finalized]
    rfl
  have exclusive : (state.task connection).access = some .exclusive := by
    rw [finalized]
    rfl
  have listed := sound.working.listed connection builds
  have settled (other : Nat) (version : Version) :
      ¬ (state.task other).Expects version := by
    intro expects
    by_cases same : other = connection
    · rw [same, finalized] at expects
      exact expects
    · have rests := sound.locked.rests exclusive same
      cases doing : state.task other with
      | listed =>
          have building : (state.task other).builds = true := by
            rw [doing]
            rfl
          exact same (sound.working.builder other connection building builds)
      | writing statement => exact rests.still statement doing
      | scanning cursor found =>
          rw [doing] at rests
          exact nomatch rests.free
      | populating remaining =>
          rw [doing] at rests
          exact nomatch rests.free
      | _ =>
          rw [doing] at expects
          exact expects
  refine ⟨fun key => ⟨sound.trees.rooted key, ?_⟩, ?_⟩
  · rintro ⟨version, present, rfl⟩
    rcases sound.trees.covered listed version present with entered | ⟨other, expects⟩
    · exact entered
    · exact absurd expects (settled other version)
  · intro first left second right same
    exact sound.trees.keyed.keyOf left right same

def agesTable : Table where
  rows := [(1, [.int 30])]
  keyed := by
    intro first left second right _
    exact (List.mem_singleton.mp left).trans (List.mem_singleton.mp right).symm

def emptyTable : Table where
  rows := []
  keyed := nofun

end PrehniteDB.OnlineIndex
