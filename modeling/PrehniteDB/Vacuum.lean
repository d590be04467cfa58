import PrehniteDB.DatabaseLifetime

namespace PrehniteDB.Lifetime

open TransitionRun

/-!
# What `VACUUM` preserves

`VACUUM` leaves out rows no snapshot can see, so the running process reads the
database it read before.  The compact file's header starts its ids over at 1:
after the next open every stored row carries an id from the future.
-/

variable {Values Columns : Type}

/-- An index as a reader meets it. -/
structure IndexView where
  name : String
  columns : List Nat
  unique : Bool
  entries : List (List UInt8 × Nat)
  deriving Repr, DecidableEq

/-- A table as a reader meets it. -/
structure TableView (Values Columns : Type) where
  columns : Columns
  primaryKeyColumn : Option Nat
  counters : Counters
  rows : List (Nat × Values)
  indexes : List IndexView

namespace Table

/-- The rows `snapshot` sees. -/
def visibleRows
    (snapshot : Snapshot)
    (clog : Clog)
    (table : Table Values Columns) : List (Nat × RowRecord Values) :=
  table.rows.filter fun row => snapshot.visible clog row.2.txMin row.2.txMax

/-- The table with the rows `snapshot` sees and their index entries. -/
def view
    (snapshot : Snapshot)
    (clog : Clog)
    (table : Table Values Columns) : TableView Values Columns :=
  let rows := table.visibleRows snapshot clog
  let rowids := rows.map Prod.fst
  { columns := table.columns
    primaryKeyColumn := table.primaryKeyColumn
    counters := table.counters
    rows := rows.map fun row => (row.1, row.2.values)
    indexes := table.indexes.map fun index =>
      { name := index.name
        columns := index.columns
        unique := index.unique
        entries := index.entries.filter fun entry => rowids.contains entry.2 } }

end Table

namespace State

/-- Table `name` through a fresh snapshot. -/
def view (state : State Values Columns) (name : String) : Option (TableView Values Columns) :=
  (state.tables name).map (Table.view (state.tx.snapshot none) state.tx.clog)

/-- `VACUUM` changes nothing a client can observe, before or after the next open. -/
structure VacuumPreserves (state : State Values Columns) : Prop where
  running : ∀ name, state.vacuum.view name = state.view name
  reopened : ∀ name, state.vacuum.restart.view name = state.view name
  fresh : state.vacuum.restart.Fresh

end State

/-! ## The running process -/

namespace Table

section Running

variable
  {snapshot : Snapshot}
  {clog : Clog}
  {table : Table Values Columns}

/-- A snapshot that counts every stamp as past sees only rows `VACUUM` copies. -/
theorem copied_of_visible
    {record : RowRecord Values}
    (foreign : snapshot.ownTx = none)
    (past : snapshot.Past record.txMax)
    (visible : snapshot.visible clog record.txMin record.txMax = true) :
    copied clog record = true := by
  obtain ⟨created, alive⟩ := Snapshot.visible_iff.mp visible
  rw [Snapshot.created_iff, foreign] at created
  have insertKept :
      (decide (record.txMin ≠ 0) && clog.isRolledBack record.txMin) = false := by
    rw [Bool.eq_false_iff, ne_eq, Bool.and_eq_true, decide_eq_true_eq]
    rintro ⟨positive, rolledBack⟩
    rcases created with own | zero | seen
    · cases own
    · exact positive zero
    · rw [Clog.isRolledBack_iff, seen.1] at rolledBack
      cases rolledBack
  have deleteOpen :
      (decide (record.txMax ≠ 0) && clog.isCommitted record.txMax) = false := by
    rw [Bool.eq_false_iff, ne_eq, Bool.and_eq_true, decide_eq_true_eq]
    rintro ⟨positive, committed⟩
    have unseen := (alive.resolve_left positive).2
    exact unseen ⟨Clog.isCommitted_iff.mp committed, past⟩
  rw [copied, insertKept, deleteOpen]
  rfl

theorem visibleRows_compact
    (foreign : snapshot.ownTx = none)
    (past : ∀ row ∈ table.rows, snapshot.Past row.2.txMax) :
    (table.compact clog).visibleRows snapshot clog = table.visibleRows snapshot clog := by
  simp only [visibleRows, compact, List.filter_filter]
  apply List.filter_congr
  intro row member
  by_cases visible : snapshot.visible clog row.2.txMin row.2.txMax = true
  · rw [visible, copied_of_visible foreign (past row member) visible]
    rfl
  · rw [Bool.eq_false_iff.mpr visible]
    rfl

/-- Every index entry of a visible row belongs to a copied row. -/
theorem view_compact
    (foreign : snapshot.ownTx = none)
    (past : ∀ row ∈ table.rows, snapshot.Past row.2.txMax) :
    (table.compact clog).view snapshot clog = table.view snapshot clog := by
  have rows :
      (table.compact clog).visibleRows snapshot clog = table.visibleRows snapshot clog :=
    visibleRows_compact foreign past
  have entries :
      ∀ entry : List UInt8 × Nat,
        ((table.visibleRows snapshot clog).map Prod.fst).contains entry.2 = true →
          (((table.rows.filter fun row => copied clog row.2).map Prod.fst).contains
            entry.2) = true := by
    intro entry listed
    obtain ⟨row, visibleMember, same⟩ := List.mem_map.mp (List.contains_iff_mem.mp listed)
    obtain ⟨member, visible⟩ := List.mem_filter.mp visibleMember
    apply List.contains_iff_mem.mpr
    rw [← same]
    exact List.mem_map_of_mem
      (List.mem_filter.mpr ⟨member, copied_of_visible foreign (past row member) visible⟩)
  have indexes :
      ((table.compact clog).view snapshot clog).indexes =
        (table.view snapshot clog).indexes := by
    simp only [view, rows]
    simp only [compact, List.map_map]
    apply List.map_congr_left
    intro index _
    simp only [Function.comp_apply, List.filter_filter, IndexView.mk.injEq, true_and]
    apply List.filter_congr
    intro entry _
    by_cases listed :
        ((table.visibleRows snapshot clog).map Prod.fst).contains entry.2 = true
    · rw [listed, entries entry listed]
      rfl
    · rw [Bool.eq_false_iff.mpr listed]
      rfl
  have rowsView :
      ((table.compact clog).view snapshot clog).rows = (table.view snapshot clog).rows := by
    simp only [view, rows]
  calc
    (table.compact clog).view snapshot clog =
        { table.view snapshot clog with
          rows := ((table.compact clog).view snapshot clog).rows
          indexes := ((table.compact clog).view snapshot clog).indexes } := rfl
    _ = table.view snapshot clog := by rw [rowsView, indexes]

end Running

end Table

namespace State

variable {state next : State Values Columns}

/-- With every id in order and none in flight, the running process sees no difference. -/
theorem Assigned.vacuum_view
    (assigned : state.Assigned)
    (idle : state.tx.inFlight = ∅)
    (name : String) :
    state.vacuum.view name = state.view name := by
  cases found : state.tables name with
  | none => simp [view, State.vacuum, found]
  | some table =>
      have past : ∀ row ∈ table.rows, (state.tx.snapshot none).Past row.2.txMax := by
        intro row member
        refine ⟨(assigned.stamped name table found row member).2, ?_⟩
        show row.2.txMax ∉ state.tx.inFlight
        rw [idle]
        exact Finset.notMem_empty _
      have same :
          (table.compact state.tx.clog).view (state.tx.snapshot none) state.tx.clog =
            table.view (state.tx.snapshot none) state.tx.clog :=
        Table.view_compact rfl past
      simpa [view, State.vacuum, found] using same

/-! ## After the next open -/

/-- `begin_write` starts at 1 and every stored row was stamped by a transaction. -/
structure Numbered (state : State Values Columns) : Prop where
  firstId : 1 ≤ state.tx.nextTxId
  inFlight : ∀ txId ∈ state.tx.inFlight, 1 ≤ txId
  stamped :
    ∀ name table,
      state.tables name = some table → ∀ row ∈ table.rows, 1 ≤ row.2.txMin

namespace Numbered

theorem initial : Numbered (initial : State Values Columns) where
  firstId := Nat.le_refl 1
  inFlight := nofun
  stamped := nofun

theorem commitTable
    {name : String}
    {table : Option (Table Values Columns)}
    (numbered : state.Numbered)
    (stamped : ∀ stored ∈ table, ∀ row ∈ stored.rows, 1 ≤ row.2.txMin) :
    (state.commitTable name table).Numbered :=
  { numbered with
    stamped := by
      intro other stored found
      by_cases here : other = name
      · subst here
        have same : (state.commitTable other table).tables other = table :=
          Function.update_self _ _ _
        exact stamped stored (same.symm.trans found)
      · have same : (state.commitTable name table).tables other = state.tables other :=
          Function.update_of_ne here _ _
        exact numbered.stamped other stored (same.symm.trans found) }

/-- A tombstone leaves the inserting id alone. -/
theorem stampRows
    {txId : Nat}
    {rows : List (Nat × RowRecord Values)}
    (stamped : ∀ row ∈ rows, 1 ≤ row.2.txMin)
    (tombstones : List Nat) :
    ∀ row ∈ tombstones.foldl (Table.stampRow txId) rows, 1 ≤ row.2.txMin := by
  induction tombstones generalizing rows with
  | nil => exact stamped
  | cons rowid rest inductionHypothesis =>
      apply inductionHypothesis
      intro row member
      obtain ⟨stored, storedMember, rfl⟩ := List.mem_map.mp member
      split
      · exact stamped stored storedMember
      · exact stamped stored storedMember

theorem insertRows
    {encode : Values → List Nat → List UInt8}
    {txId : Nat}
    {table : Table Values Columns}
    (positive : 1 ≤ txId)
    (stamped : ∀ row ∈ table.rows, 1 ≤ row.2.txMin)
    (inserts : List (Nat × Values)) :
    ∀ row ∈ (inserts.foldl (Table.insertRow encode txId) table).rows, 1 ≤ row.2.txMin := by
  induction inserts generalizing table with
  | nil => exact stamped
  | cons insert rest inductionHypothesis =>
      apply inductionHypothesis
      intro row member
      rcases mem_storeRow member with rfl | old
      · exact positive
      · exact stamped row old

theorem step
    {encode : Values → List Nat → List UInt8}
    {action : Action Values Columns}
    (numbered : state.Numbered)
    (stepped : state.step encode action = some next) :
    next.Numbered := by
  cases action with
  | beginWrite =>
      obtain rfl := Option.some.inj stepped
      refine { numbered with
        firstId := Nat.le_succ_of_le numbered.firstId
        inFlight := fun txId active => ?_ }
      rcases Finset.mem_insert.mp active with rfl | active
      · exact numbered.firstId
      · exact numbered.inFlight txId active
  | publish txId =>
      simp only [State.step] at stepped
      split at stepped
      case isTrue =>
        obtain rfl := Option.some.inj stepped
        exact { numbered with }
      case isFalse => cases stepped
  | createTable txId name columns primaryKeyColumn indexes =>
      simp only [State.step] at stepped
      split at stepped
      case isTrue =>
        obtain rfl := Option.some.inj stepped
        apply numbered.commitTable
        intro stored found
        obtain rfl := Option.mem_some_iff.mp found
        rintro _ ⟨⟩
      case isFalse => cases stepped
  | dropTable txId name =>
      simp only [State.step] at stepped
      split at stepped
      case isTrue =>
        obtain rfl := Option.some.inj stepped
        exact numbered.commitTable (by rintro _ ⟨⟩)
      case isFalse => cases stepped
  | reindex name indexes =>
      obtain ⟨table, found, rfl⟩ := Option.map_eq_some_iff.mp stepped
      apply numbered.commitTable
      intro stored changed
      obtain rfl := Option.mem_some_iff.mp changed
      exact numbered.stamped name table found
  | write txId name tombstones inserts counters =>
      simp only [State.step] at stepped
      split at stepped
      case isTrue active =>
        obtain ⟨table, found, rfl⟩ := Option.map_eq_some_iff.mp stepped
        apply numbered.commitTable
        intro stored changed
        obtain rfl := Option.mem_some_iff.mp changed
        have tombstoned :
            ∀ row ∈ tombstones.foldl (Table.stampRow txId) table.rows, 1 ≤ row.2.txMin :=
          stampRows (numbered.stamped name table found) tombstones
        have positive := numbered.inFlight txId active
        exact @insertRows _ _ _ _
          { table with rows := tombstones.foldl (Table.stampRow txId) table.rows }
          positive tombstoned inserts
      case isFalse => cases stepped
  | writeNothing =>
      obtain rfl := Option.some.inj stepped
      exact numbered
  | resolve txId outcome =>
      simp only [State.step] at stepped
      split at stepped
      case isTrue =>
        obtain rfl := Option.some.inj stepped
        exact { numbered with
          inFlight := fun other member =>
            numbered.inFlight other (Finset.mem_of_mem_erase member) }
      case isFalse => cases stepped
  | startPass =>
      obtain rfl := Option.some.inj stepped
      exact { numbered with }
  | reclaimTable name =>
      obtain ⟨oldestActive, _, reclaimed⟩ := Option.bind_eq_some_iff.mp stepped
      obtain ⟨table, found, rfl⟩ := Option.map_eq_some_iff.mp reclaimed
      split
      · apply numbered.commitTable
        intro stored changed
        obtain rfl := Option.mem_some_iff.mp changed
        exact fun row member =>
          numbered.stamped name table found row (List.mem_of_mem_filter member)
      · exact numbered
  | truncateClog =>
      obtain ⟨floor, _, rfl⟩ := Option.map_eq_some_iff.mp stepped
      exact { numbered with }
  | vacuum =>
      obtain rfl := Option.some.inj stepped
      refine { numbered with stamped := ?_ }
      intro name table found row member
      obtain ⟨stored, storedFound, rfl⟩ := Option.map_eq_some_iff.mp found
      exact numbered.stamped name stored storedFound row (List.mem_of_mem_filter member)
  | restart =>
      obtain rfl := Option.some.inj stepped
      refine {
        firstId := Nat.le_max_right _ _,
        inFlight := fun _ member => absurd member (Finset.notMem_empty _), stamped := ?_ }
      intro name table found
      obtain ⟨stored, storedFound, rfl⟩ := Option.map_eq_some_iff.mp found
      exact numbered.stamped name stored storedFound

end Numbered

/-- After `VACUUM` and the next open, no snapshot sees a row of any table. -/
theorem Numbered.restart_vacuum_hides
    {name : String}
    {seen : TableView Values Columns}
    (numbered : state.Numbered)
    (found : state.vacuum.restart.view name = some seen) :
    seen.rows = [] := by
  obtain ⟨table, tableFound, rfl⟩ := Option.map_eq_some_iff.mp found
  obtain ⟨compacted, compactFound, rfl⟩ := Option.map_eq_some_iff.mp tableFound
  obtain ⟨stored, storedFound, rfl⟩ := Option.map_eq_some_iff.mp compactFound
  apply List.map_eq_nil_iff.mpr
  apply List.filter_eq_nil_iff.mpr
  intro row member visible
  have positive : 1 ≤ row.2.txMin :=
    numbered.stamped name stored storedFound row (List.mem_of_mem_filter member)
  obtain ⟨created, _⟩ := Snapshot.visible_iff.mp visible
  rcases Snapshot.created_iff.mp created with own | zero | seen
  · cases own
  · exact absurd zero (Nat.ne_of_gt positive)
  · have next : row.2.txMin < 1 := seen.2.1
    exact absurd next (Nat.not_lt.mpr positive)

/-- Until the first `begin_write` the file is empty; from then on id 1 has been held. -/
structure Begun (state : State Values Columns) : Prop where
  first : state.held ≠ [] → 1 ∈ state.held
  unused : state.held = [] → state.Assigned ∧ ∀ name, state.tables name = none

namespace Begun

theorem initial : Begun (initial : State Values Columns) where
  first := fun held => absurd rfl held
  unused := fun _ => ⟨.initial, fun _ => rfl⟩

/-- No transaction is in flight on an unused file. -/
theorem idle
    (begun : state.Begun)
    (unused : state.held = [])
    (txId : Nat) :
    txId ∉ state.tx.inFlight := by
  intro active
  have assigned := (begun.unused unused).1
  have held := (assigned.held txId).mpr (assigned.inFlight txId active)
  rw [unused] at held
  cases held

theorem nextTxId
    (begun : state.Begun)
    (unused : state.held = []) :
    state.tx.nextTxId = 1 := by
  have assigned := (begun.unused unused).1
  by_contra advanced
  have later : 1 < state.tx.nextTxId :=
    Nat.lt_of_le_of_ne assigned.firstId (Ne.symm advanced)
  have held := (assigned.held 1).mpr ⟨Nat.le_refl 1, later⟩
  rw [unused] at held
  cases held

theorem held_step
    {encode : Values → List Nat → List UInt8}
    {action : Action Values Columns}
    (stepped : state.step encode action = some next) :
    (action = .beginWrite ∧ next.held = state.tx.nextTxId :: state.held) ∨
      (action ≠ .beginWrite ∧ next.held = state.held) := by
  cases action with
  | beginWrite =>
      obtain rfl := Option.some.inj stepped
      exact .inl ⟨rfl, rfl⟩
  | publish txId =>
      simp only [State.step] at stepped
      split at stepped <;> cases stepped
      exact .inr ⟨by rintro ⟨⟩, rfl⟩
  | createTable txId name columns primaryKeyColumn indexes =>
      simp only [State.step] at stepped
      split at stepped <;> cases stepped
      exact .inr ⟨by rintro ⟨⟩, rfl⟩
  | dropTable txId name =>
      simp only [State.step] at stepped
      split at stepped <;> cases stepped
      exact .inr ⟨by rintro ⟨⟩, rfl⟩
  | reindex name indexes =>
      obtain ⟨_, _, rfl⟩ := Option.map_eq_some_iff.mp stepped
      exact .inr ⟨by rintro ⟨⟩, rfl⟩
  | write txId name tombstones inserts counters =>
      simp only [State.step] at stepped
      split at stepped
      · obtain ⟨_, _, rfl⟩ := Option.map_eq_some_iff.mp stepped
        exact .inr ⟨by rintro ⟨⟩, rfl⟩
      · cases stepped
  | resolve txId outcome =>
      simp only [State.step] at stepped
      split at stepped <;> cases stepped
      exact .inr ⟨by rintro ⟨⟩, rfl⟩
  | reclaimTable name =>
      obtain ⟨_, _, reclaimed⟩ := Option.bind_eq_some_iff.mp stepped
      obtain ⟨_, _, rfl⟩ := Option.map_eq_some_iff.mp reclaimed
      refine .inr ⟨by rintro ⟨⟩, ?_⟩
      split <;> rfl
  | truncateClog =>
      obtain ⟨_, _, rfl⟩ := Option.map_eq_some_iff.mp stepped
      exact .inr ⟨by rintro ⟨⟩, rfl⟩
  | writeNothing | startPass | vacuum | restart =>
      obtain rfl := Option.some.inj stepped
      exact .inr ⟨by rintro ⟨⟩, rfl⟩

/-- A file without tables gets one only from a transaction. -/
theorem tables_step
    {encode : Values → List Nat → List UInt8}
    {action : Action Values Columns}
    (empty : ∀ name, state.tables name = none)
    (idle : ∀ txId, txId ∉ state.tx.inFlight)
    (stepped : state.step encode action = some next)
    (name : String) :
    next.tables name = none := by
  cases action with
  | createTable txId other columns primaryKeyColumn indexes =>
      rw [State.step, if_neg (fun active => idle txId active.1)] at stepped
      cases stepped
  | dropTable txId other =>
      rw [State.step, if_neg (fun active => idle txId active.1)] at stepped
      cases stepped
  | write txId other tombstones inserts counters =>
      rw [State.step, if_neg (idle txId)] at stepped
      cases stepped
  | publish txId =>
      rw [State.step, if_neg (idle txId)] at stepped
      cases stepped
  | resolve txId outcome =>
      rw [State.step, if_neg (idle txId)] at stepped
      cases stepped
  | reindex other indexes =>
      rw [State.step, empty other] at stepped
      cases stepped
  | reclaimTable other =>
      obtain ⟨_, _, reclaimed⟩ := Option.bind_eq_some_iff.mp stepped
      rw [empty other] at reclaimed
      cases reclaimed
  | truncateClog =>
      obtain ⟨_, _, rfl⟩ := Option.map_eq_some_iff.mp stepped
      exact empty name
  | beginWrite | writeNothing | startPass =>
      obtain rfl := Option.some.inj stepped
      exact empty name
  | vacuum | restart =>
      obtain rfl := Option.some.inj stepped
      exact Option.map_eq_none_iff.mpr (empty name)

theorem step
    {encode : Values → List Nat → List UInt8}
    {action : Action Values Columns}
    (begun : state.Begun)
    (stepped : state.step encode action = some next) :
    next.Begun := by
  rcases held_step stepped with ⟨_, held⟩ | ⟨_, held⟩
  · refine ⟨fun _ => ?_, fun unused => ?_⟩
    · rw [held]
      by_cases unused : state.held = []
      · rw [begun.nextTxId unused]
        exact List.mem_cons_self
      · exact List.mem_cons_of_mem _ (begun.first unused)
    · rw [held] at unused
      cases unused
  · refine ⟨fun used => ?_, fun unused => ?_⟩
    · rw [held] at used ⊢
      exact begun.first used
    · rw [held] at unused
      obtain ⟨assigned, empty⟩ := begun.unused unused
      have current : state.Current action := by
        cases action with
        | restart =>
            rw [Current, begun.nextTxId unused]
            exact assigned.header.1
        | _ => trivial
      exact ⟨assigned.step current stepped,
        tables_step empty (begun.idle unused) stepped⟩

end Begun

variable
  {encode : Values → List Nat → List UInt8}
  {actions : List (Action Values Columns)}

/--
`VACUUM` preserves an idle database exactly while no transaction has ever
begun on the file: otherwise id 1, which was held, is handed out again after
the next open.
-/
theorem vacuum_preserves_iff
    (run : Run (step encode) unrestricted initial actions state)
    (idle : state.tx.inFlight = ∅) :
    state.VacuumPreserves ↔ state.held = [] := by
  have begun : state.Begun :=
    run.invariant Begun (fun begun _ stepped => begun.step stepped) .initial
  constructor
  · intro preserves
    by_contra used
    have first : state.vacuum.restart.tx.beginWrite.1 = 1 := rfl
    exact (preserves.fresh 1 (Nat.le_of_eq first)).1 (begun.first used)
  · intro unused
    obtain ⟨assigned, empty⟩ := begun.unused unused
    have vacuumed : state.vacuum.Assigned := assigned.vacuum
    have current : state.vacuum.tx.nextTxId ≤ state.vacuum.headerNextTxId :=
      Nat.le_of_eq (begun.nextTxId unused)
    refine ⟨assigned.vacuum_view idle, fun name => ?_, (vacuumed.restart current).fresh⟩
    simp [view, State.vacuum, State.restart, empty name]

/--
Whatever ran before, the snapshot taken right after `VACUUM` and an open, with no
transaction begun yet, sees every table empty.
-/
theorem rows_lost_after_vacuum
    {name : String}
    {seen : TableView Values Columns}
    (run : Run (step encode) unrestricted initial actions state)
    (found : state.vacuum.restart.view name = some seen) :
    seen.rows = [] := by
  have numbered : state.Numbered :=
    run.invariant Numbered (fun numbered _ stepped => numbered.step stepped) .initial
  exact numbered.restart_vacuum_hides found

/-- A file that has given out no id. -/
theorem vacuum_preserves_new_file : (initial : State Nat Unit).VacuumPreserves := by
  have run : Run (step fun _ _ => []) unrestricted (initial : State Nat Unit) [] initial :=
    .nil initial
  exact (vacuum_preserves_iff run rfl).mpr rfl

/-- One table with one committed row. -/
def oneCommittedRow : List (Action Nat Unit) :=
  [.beginWrite, .publish 1, .createTable 1 "t" () none [],
    .write 1 "t" [] [(1, 7)] { nextRowid := 2, rowCount := 1, mutationsSinceAnalyze := 1 },
    .resolve 1 .committed]

/-- The row is there before; after `VACUUM` and the open it is not. -/
theorem committed_row_lost :
    ∃ (state : State Nat Unit) (seen : TableView Nat Unit),
      Run (step fun _ _ => []) unrestricted initial oneCommittedRow state ∧
        (state.view "t").map TableView.rows = some [(1, 7)] ∧
        state.vacuum.restart.view "t" = some seen ∧ seen.rows = [] := by
  obtain ⟨state, run, stored, kept⟩ : ∃ state : State Nat Unit,
      Run (step fun _ _ => []) unrestricted initial oneCommittedRow state ∧
        (state.view "t").map TableView.rows = some [(1, 7)] ∧
        (state.vacuum.restart.view "t").isSome :=
    ⟨_, (((((Run.nil initial).snoc trivial rfl).snoc trivial rfl).snoc trivial rfl).snoc
      trivial rfl).snoc trivial rfl, by decide, by decide⟩
  obtain ⟨seen, found⟩ := Option.isSome_iff_exists.mp kept
  exact ⟨state, seen, run, stored, found, rows_lost_after_vacuum run found⟩

/-- `VACUUM` and the next open lose the row and hand out its id again. -/
theorem vacuum_loses_committed_row :
    ∃ state,
      Run (step fun _ _ => []) unrestricted initial oneCommittedRow state ∧
        state.tx.inFlight = ∅ ∧
        (state.view "t").map TableView.rows = some [(1, 7)] ∧
        (state.vacuum.view "t").map TableView.rows = some [(1, 7)] ∧
        (state.vacuum.restart.view "t").map TableView.rows = some [] ∧
        state.vacuum.restart.tx.beginWrite.1 ∈ state.held ∧
        ¬ state.VacuumPreserves := by
  have run : Run (step fun _ _ => []) unrestricted initial oneCommittedRow _ :=
    (((((Run.nil initial).snoc trivial rfl).snoc trivial rfl).snoc trivial rfl).snoc
      trivial rfl).snoc trivial rfl
  refine ⟨_, run, by decide, by decide, by decide, by decide, List.mem_singleton_self 1, ?_⟩
  intro preserves
  have reopened := congrArg (Option.map TableView.rows) (preserves.reopened "t")
  exact absurd reopened (by decide)

end State

end PrehniteDB.Lifetime
