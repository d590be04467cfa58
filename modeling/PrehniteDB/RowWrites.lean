import PrehniteDB.SessionViews
import PrehniteDB.StoredRows

namespace PrehniteDB.Constraints

open ReadPaths (Reader)

/-!
# What a write does to what is seen

A writer stamps rows with its own id: it sees what it has created, no longer what
it has deleted, and leaves what is committed as it was.  `INSERT` and `UPDATE`
share one loop over row changes; the lemmas say when it refuses a value and what
its rows become.
-/

/-- The rows of a table a reader sees. -/
abbrev Contents := List (Nat × Row)

def Trees.contents (reader : Reader) (trees : Trees) : Contents :=
  (trees.rows.filter fun row => reader.sees row.2).map fun row =>
    (row.1, row.2.values)

/-- Every stamp lies below the bound. -/
def Trees.Stamped (trees : Trees) (bound : Nat) : Prop :=
  ∀ row ∈ trees.rows, row.2.txMin < bound ∧ row.2.txMax < bound

theorem contents_congr
    {reader other : Reader}
    {trees : Trees}
    (same : ∀ row ∈ trees.rows, reader.sees row.2 = other.sees row.2) :
    trees.contents reader = trees.contents other := by
  unfold Trees.contents
  rw [List.filter_congr same]

theorem mem_contents
    {reader : Reader}
    {trees : Trees}
    {rowid : Nat}
    {values : Row} :
    (rowid, values) ∈ trees.contents reader ↔
      ∃ record, (rowid, record) ∈ trees.rows ∧
        reader.sees record = true ∧ record.values = values := by
  unfold Trees.contents
  constructor
  · intro listed
    obtain ⟨row, seen, same⟩ := List.mem_map.mp listed
    obtain ⟨here, visible⟩ := List.mem_filter.mp seen
    obtain ⟨rfl, rfl⟩ := Prod.mk.inj same
    exact ⟨row.2, here, visible, rfl⟩
  · rintro ⟨record, here, visible, rfl⟩
    exact List.mem_map.mpr ⟨_, List.mem_filter.mpr ⟨here, visible⟩, rfl⟩

/-- How the two readers take the stamps of the transaction that writes. -/
structure Writer (reader committed : Reader) (txId : Nat) : Prop where
  creates :
    ∀ values : Row,
      reader.sees { txMin := txId, txMax := 0, values := values } = true
  deletes :
    ∀ (txMin : Nat) (values : Row),
      reader.sees { txMin := txMin, txMax := txId, values := values } = false
  hidden :
    ∀ (txMax : Nat) (values : Row),
      committed.sees { txMin := txId, txMax := txMax, values := values } = false
  undeleted :
    ∀ record : Record,
      reader.sees record = true →
      committed.sees { record with txMax := txId } = committed.sees record

/-- The row is there as collected, but for a stamp the committed view does not care about. -/
def Writable
    (committed : Reader)
    (txId : Nat)
    (trees : Trees)
    (candidate : Nat × Record) : Prop :=
  ∃ current : Record,
    (candidate.1, current) ∈ trees.rows ∧
      current.txMin = candidate.2.txMin ∧
      current.values = candidate.2.values ∧
      committed.sees { current with txMax := txId } = committed.sees current

/-- What every write of the transaction keeps. -/
structure Wrote
    (committed : Reader)
    (txId : Nat)
    (before after : Trees) : Prop where
  contents : after.contents committed = before.contents committed
  writable :
    ∀ candidate,
      Writable committed txId before candidate →
      Writable committed txId after candidate
  stamped :
    ∀ bound, txId < bound → before.Stamped bound → after.Stamped bound
  nextRowid : before.nextRowid ≤ after.nextRowid

namespace Wrote

variable {committed : Reader} {txId : Nat} {first second third : Trees}

theorem refl (trees : Trees) : Wrote committed txId trees trees :=
  ⟨rfl, fun _ writable => writable, fun _ _ stamped => stamped, Nat.le_refl _⟩

theorem trans
    (earlier : Wrote committed txId first second)
    (later : Wrote committed txId second third) :
    Wrote committed txId first third where
  contents := later.contents.trans earlier.contents
  writable candidate before :=
    later.writable candidate (earlier.writable candidate before)
  stamped bound below before :=
    later.stamped bound below (earlier.stamped bound below before)
  nextRowid := Nat.le_trans earlier.nextRowid later.nextRowid

end Wrote

section Writes

variable
  {schema : Schema}
  {reader committed : Reader}
  {txId : Nat}
  {trees : Trees}

/-- A candidate that is seen can be written. -/
theorem Writer.writable
    (writer : Writer reader committed txId)
    {candidate : Nat × Record}
    (listed : candidate ∈ trees.rows)
    (seen : reader.sees candidate.2 = true) :
    Writable committed txId trees candidate :=
  ⟨candidate.2, listed, rfl, rfl, writer.undeleted candidate.2 seen⟩

/-- The new version is seen by its writer and by nobody else. -/
theorem Writer.appended
    (writer : Writer reader committed txId)
    {next : Trees}
    {values : Row}
    (rows :
      next.rows =
        trees.rows ++
          [(trees.nextRowid, { txMin := txId, txMax := 0, values := values })])
    (nextRowid : next.nextRowid = trees.nextRowid + 1) :
    Wrote committed txId trees next ∧
      next.contents reader =
        trees.contents reader ++ [(trees.nextRowid, values)] := by
  refine ⟨⟨?_, ?_, ?_, ?_⟩, ?_⟩
  · unfold Trees.contents
    rw [rows, List.filter_append]
    simp [writer.hidden]
  · rintro candidate ⟨current, here, facts⟩
    exact ⟨current, rows ▸ List.mem_append_left _ here, facts⟩
  · intro bound below stamped row listed
    rw [rows] at listed
    rcases List.mem_append.mp listed with old | new
    · exact stamped row old
    · rw [List.mem_singleton.mp new]
      exact ⟨below, Nat.lt_of_le_of_lt (Nat.zero_le _) below⟩
  · rw [nextRowid]
    exact Nat.le_succ _
  · unfold Trees.contents
    rw [rows, List.filter_append, List.map_append]
    simp [writer.creates]

/-- A deleted version is gone for its deleter and for nobody else. -/
theorem Writer.tombstoned
    (writer : Writer reader committed txId)
    (stored : Stored schema trees)
    {candidate : Nat × Record}
    (writable : Writable committed txId trees candidate) :
    Stored schema (tombstone txId candidate trees) ∧
      Wrote committed txId trees (tombstone txId candidate trees) ∧
      (tombstone txId candidate trees).contents reader =
        (trees.contents reader).filter fun row => row.1 ≠ candidate.1 := by
  obtain ⟨current, present, sameMin, sameValues, kept⟩ := writable
  have written :
      ({ txMin := candidate.2.txMin, txMax := txId, values := candidate.2.values } :
        Record) = { current with txMax := txId } := by
    rw [← sameMin, ← sameValues]
  have rows :
      (tombstone txId candidate trees).rows =
        trees.rows.map fun row =>
          if row.1 = candidate.1 then
            (candidate.1, { current with txMax := txId })
          else row := by
    unfold tombstone
    rw [written]
    exact putRow_present present
  have own {row : Nat × Record}
      (listed : row ∈ trees.rows)
      (same : row.1 = candidate.1) :
      row = (candidate.1, current) :=
    stored.row_unique listed present same
  have values (row : Nat × Record) (listed : row ∈ trees.rows) :
      (if row.1 = candidate.1 then
          (candidate.1, { current with txMax := txId })
        else row).1 = row.1 ∧
      (if row.1 = candidate.1 then
          (candidate.1, { current with txMax := txId })
        else row).2.values = row.2.values := by
    split
    case isTrue same =>
      rw [own listed same]
      exact ⟨rfl, rfl⟩
    case isFalse => exact ⟨rfl, rfl⟩
  refine ⟨stored.rewrite present sameValues.symm, ⟨?_, ?_, ?_, Nat.le_refl _⟩, ?_⟩
  · unfold Trees.contents
    rw [rows, List.filter_map, List.map_map]
    have seen (row : Nat × Record) (listed : row ∈ trees.rows) :
        committed.sees
          (if row.1 = candidate.1 then
              (candidate.1, { current with txMax := txId })
            else row).2 = committed.sees row.2 := by
      split
      case isTrue same =>
        rw [own listed same]
        exact kept
      case isFalse => rfl
    refine (congrArg _ (List.filter_congr seen)).trans ?_
    refine List.map_congr_left fun row listed => ?_
    obtain ⟨rowids, contents⟩ := values row (List.mem_of_mem_filter listed)
    exact Prod.ext rowids contents
  · rintro other ⟨found, here, foundMin, foundValues, overwritable⟩
    refine if same : other.1 = candidate.1 then ?_ else ?_
    · obtain rfl : found = current :=
        congrArg Prod.snd (own here same)
      refine ⟨{ found with txMax := txId }, ?_, foundMin, foundValues, rfl⟩
      rw [rows, same]
      exact List.mem_map.mpr ⟨_, present, if_pos rfl⟩
    · refine ⟨found, ?_, foundMin, foundValues, overwritable⟩
      rw [rows]
      exact List.mem_map.mpr ⟨_, here, if_neg same⟩
  · intro bound below stamped row listed
    rw [rows] at listed
    obtain ⟨before, here, rfl⟩ := List.mem_map.mp listed
    split
    case isTrue => exact ⟨(stamped _ present).1, below⟩
    case isFalse => exact stamped before here
  · unfold Trees.contents
    rw [rows, List.filter_map, List.map_map, List.filter_map, List.filter_filter]
    have seen (row : Nat × Record) (listed : row ∈ trees.rows) :
        reader.sees
          (if row.1 = candidate.1 then
              (candidate.1, { current with txMax := txId })
            else row).2 =
        (decide (row.1 ≠ candidate.1) && reader.sees row.2) := by
      split
      case isTrue same =>
        rw [decide_eq_false (not_not.mpr same), Bool.false_and]
        exact writer.deletes current.txMin current.values
      case isFalse different =>
        rw [decide_eq_true different, Bool.true_and]
    refine (congrArg _ (List.filter_congr seen)).trans ?_
    refine List.map_congr_left fun row listed => ?_
    obtain ⟨rowids, contents⟩ := values row (List.mem_of_mem_filter listed)
    exact Prod.ext rowids contents

end Writes

/-! ## The loop over row changes -/

/-- One row written: a candidate that is replaced, or none for an `INSERT`, and its new values. -/
structure Change where
  old : Option (Nat × Record)
  new : Row

namespace Change

def oldValues (change : Change) : Option Row :=
  change.old.map fun candidate => candidate.2.values

end Change

/-- The trees with a change's candidate deleted. -/
def replaced (txId : Nat) (change : Change) (trees : Trees) : Trees :=
  match change.old with
  | none => trees
  | some candidate => tombstone txId candidate trees

/-- The writes of one statement, row after row. -/
def writeAll (schema : Schema) (txId : Nat) :
    List Change → Trees → Except Failure Trees
  | [], trees => .ok trees
  | change :: rest, trees =>
      match writeVersion schema txId change.new change.oldValues
          (replaced txId change trees) with
      | .error failure => .error failure
      | .ok next => writeAll schema txId rest next

/-- Some change writes a value that is held, or that an earlier change has written. -/
def Refused
    (indexes : List Index)
    (held : Nat → Value → Prop)
    (changes : List Change) : Prop :=
  ∃ before change after,
    changes = before ++ change :: after ∧
      Taken indexes
        (fun position value =>
          held position value ∨
            ∃ earlier ∈ before, column earlier.new position = value)
        change.new change.oldValues

/-- The rowids a statement replaces. -/
def replacedRowids (changes : List Change) : List Nat :=
  changes.filterMap fun change => change.old.map Prod.fst

theorem Taken.congr
    {indexes : List Index}
    {held other : Nat → Value → Prop}
    {values : Row}
    {oldValues : Option Row}
    (same : ∀ position value, held position value ↔ other position value) :
    Taken indexes held values oldValues ↔ Taken indexes other values oldValues := by
  simp only [Taken, same]

theorem refused_nil
    {indexes : List Index}
    {held : Nat → Value → Prop} :
    ¬ Refused indexes held [] := by
  rintro ⟨before, change, after, split, -⟩
  simp at split

/-- The first change is refused for what is held, a later one also for what the first has written. -/
theorem refused_cons
    {indexes : List Index}
    {held : Nat → Value → Prop}
    {change : Change}
    {rest : List Change} :
    Refused indexes held (change :: rest) ↔
      Taken indexes held change.new change.oldValues ∨
        Refused indexes
          (fun position value => held position value ∨ column change.new position = value)
          rest := by
  constructor
  · rintro ⟨before, found, after, split, taken⟩
    cases before with
    | nil =>
        obtain ⟨rfl, -⟩ := List.cons.inj split
        exact .inl ((Taken.congr (by simp)).mp taken)
    | cons first earlier =>
        obtain ⟨rfl, later⟩ := List.cons.inj split
        refine .inr ⟨earlier, found, after, later, (Taken.congr fun position value => ?_).mp taken⟩
        simp only [List.mem_cons, exists_eq_or_imp, or_assoc]
  · rintro (taken | ⟨before, found, after, rfl, taken⟩)
    · exact ⟨[], change, rest, rfl, (Taken.congr (by simp)).mp taken⟩
    · refine ⟨change :: before, found, after, rfl,
        (Taken.congr fun position value => ?_).mp taken⟩
      simp only [List.mem_cons, exists_eq_or_imp, or_assoc]

theorem Refused.congr
    {indexes : List Index}
    {held other : Nat → Value → Prop}
    {changes : List Change}
    (same : ∀ position value, held position value ↔ other position value) :
    Refused indexes held changes ↔ Refused indexes other changes := by
  simp only [Refused, same]

theorem mem_replacedRowids
    {changes : List Change}
    {change : Change}
    {candidate : Nat × Record}
    (listed : change ∈ changes)
    (old : change.old = some candidate) :
    candidate.1 ∈ replacedRowids changes :=
  List.mem_filterMap.mpr ⟨change, listed, by rw [old]; rfl⟩

/-- The rows a statement leaves alone. -/
def kept (own : Contents) (changes : List Change) : List Row :=
  (own.filter fun row => row.1 ∉ replacedRowids changes).map Prod.snd

/-- The rows its transaction sees once a statement has written its changes. -/
def produced (own : Contents) (changes : List Change) : List Row :=
  kept own changes ++ changes.map Change.new

theorem mem_kept
    {own : Contents}
    {changes : List Change}
    {values : Row} :
    values ∈ kept own changes ↔
      ∃ rowid, (rowid, values) ∈ own ∧ rowid ∉ replacedRowids changes := by
  unfold kept
  simp only [List.mem_map, List.mem_filter, decide_eq_true_eq]
  constructor
  · rintro ⟨row, here, rfl⟩
    exact ⟨row.1, here⟩
  · rintro ⟨rowid, here⟩
    exact ⟨_, here, rfl⟩

theorem kept_subset
    {own : Contents}
    {changes : List Change} :
    kept own changes ⊆ own.map Prod.snd := by
  intro values listed
  obtain ⟨rowid, here, -⟩ := mem_kept.mp listed
  exact List.mem_map_of_mem here

/-- What one statement's writes leave. -/
structure Written
    (schema : Schema)
    (reader committed : Reader)
    (txId : Nat)
    (changes : List Change)
    (before after : Trees) : Prop where
  stored : Stored schema after
  wrote : Wrote committed txId before after
  /-- The replaced rows are gone, the new ones are there under new rowids. -/
  contents :
    ∃ added : Contents,
      added.map Prod.snd = changes.map Change.new ∧
        (∀ row ∈ added, before.nextRowid ≤ row.1) ∧
        after.contents reader =
          ((before.contents reader).filter fun row =>
            row.1 ∉ replacedRowids changes) ++ added

section Loop

variable
  {schema : Schema}
  {reader committed : Reader}
  {txId : Nat}
  {trees : Trees}

/-- A stamp in place does not change which values the versions hold. -/
theorem holds_tombstone
    (stored : Stored schema trees)
    {candidate : Nat × Record}
    (writable : Writable committed txId trees candidate)
    (position : Nat)
    (value : Value) :
    (tombstone txId candidate trees).Holds position value ↔
      trees.Holds position value := by
  obtain ⟨current, present, -, sameValues, -⟩ := writable
  have rows :
      (tombstone txId candidate trees).rows =
        trees.rows.map fun row =>
          if row.1 = candidate.1 then
            (candidate.1,
              { txMin := candidate.2.txMin, txMax := txId, values := candidate.2.values })
          else row :=
    putRow_present present
  unfold Trees.Holds
  rw [rows]
  constructor
  · rintro ⟨_, listed, held⟩
    obtain ⟨row, here, rfl⟩ := List.mem_map.mp listed
    split at held
    case isTrue => exact ⟨_, present, sameValues ▸ held⟩
    case isFalse => exact ⟨row, here, held⟩
  · rintro ⟨row, here, held⟩
    refine ⟨_, List.mem_map_of_mem here, ?_⟩
    split
    case isTrue same =>
      obtain rfl := stored.row_unique here present same
      exact sameValues ▸ held
    case isFalse => exact held

/-- Deleting the candidate of a change. -/
theorem Writer.replace_spec
    (writer : Writer reader committed txId)
    (stored : Stored schema trees)
    {change : Change}
    (writable :
      ∀ candidate ∈ change.old, Writable committed txId trees candidate) :
    Stored schema (replaced txId change trees) ∧
      Wrote committed txId trees (replaced txId change trees) ∧
      (replaced txId change trees).nextRowid = trees.nextRowid ∧
      (replaced txId change trees).contents reader =
        (trees.contents reader).filter (fun row => row.1 ∉ replacedRowids [change]) ∧
      ∀ position value,
        (replaced txId change trees).Holds position value ↔
          trees.Holds position value := by
  unfold replaced replacedRowids
  cases old : change.old with
  | none =>
      refine ⟨stored, .refl trees, rfl, ?_, fun _ _ => Iff.rfl⟩
      simp [old]
  | some candidate =>
      have here := writable candidate (Option.mem_def.mpr old)
      obtain ⟨kept, wrote, contents⟩ := writer.tombstoned stored here
      refine ⟨kept, wrote, rfl, ?_, holds_tombstone stored here⟩
      rw [contents]
      simp [old]

theorem Writer.writeAll_cases
    (writer : Writer reader committed txId)
    (distinct : (schema.indexes.map Index.name).Nodup)
    (single :
      ∀ index ∈ schema.indexes, index.unique = true →
        ∃ position, index.columns = [position])
    {changes : List Change}
    (stored : Stored schema trees)
    (writable :
      ∀ change ∈ changes, ∀ candidate ∈ change.old,
        Writable committed txId trees candidate) :
    (∃ index ∈ schema.indexes,
        Refused [index] trees.Holds changes ∧
          writeAll schema txId changes trees =
            .error (.duplicateKey index.name schema.name)) ∨
      (¬ Refused schema.indexes trees.Holds changes ∧
        ∃ next,
          writeAll schema txId changes trees = .ok next ∧
            Written schema reader committed txId changes trees next) := by
  induction changes generalizing trees with
  | nil =>
      refine .inr ⟨refused_nil, trees, rfl, stored, .refl trees, [], rfl, nofun, ?_⟩
      simp [replacedRowids]
  | cons change rest inductionHypothesis =>
      obtain ⟨deletedStored, deleted, nextRowid, deletedContents, deletedHolds⟩ :=
        writer.replace_spec stored (writable change List.mem_cons_self)
      have firstTaken (indexes : List Index) :
          Taken indexes (replaced txId change trees).Holds change.new change.oldValues ↔
            Taken indexes trees.Holds change.new change.oldValues :=
        Taken.congr deletedHolds
      rcases deletedStored.writeVersion_cases distinct single txId change.new
          change.oldValues with
        ⟨index, listed, taken, failed⟩ | ⟨free, next, written, nextStored, next_eq, rows⟩
      · refine .inl ⟨index, listed, refused_cons.mpr (.inl ((firstTaken _).mp taken)), ?_⟩
        simp only [writeAll, failed]
      · obtain ⟨appended, nextContents⟩ := writer.appended rows next_eq
        have wrote := deleted.trans appended
        have nextHolds (position : Nat) (value : Value) :
            next.Holds position value ↔
              trees.Holds position value ∨ column change.new position = value := by
          rw [← deletedHolds position value]
          unfold Trees.Holds
          rw [rows]
          simp only [List.mem_append, List.mem_singleton, or_and_right, exists_or,
            exists_eq_left]
        have loop : writeAll schema txId (change :: rest) trees =
            writeAll schema txId rest next := by
          simp only [writeAll, written]
        rw [loop]
        rcases inductionHypothesis nextStored (fun later listed candidate old =>
            wrote.writable candidate
              (writable later (List.mem_cons_of_mem _ listed) candidate old)) with
          ⟨index, listed, refused, failed⟩ | ⟨passed, final, done, after⟩
        · exact .inl ⟨index, listed,
            refused_cons.mpr (.inr ((Refused.congr nextHolds).mp refused)), failed⟩
        · refine .inr ⟨?_, final, done, after.stored, wrote.trans after.wrote, ?_⟩
          · intro either
            rcases refused_cons.mp either with taken | refused
            · exact free ((firstTaken _).mpr taken)
            · exact passed ((Refused.congr nextHolds).mpr refused)
          · obtain ⟨added, addedValues, addedRowids, contents⟩ := after.contents
            refine ⟨(trees.nextRowid, change.new) :: added, ?_, ?_, ?_⟩
            · rw [List.map_cons, addedValues, List.map_cons]
            · intro row listed
              rcases List.mem_cons.mp listed with rfl | later
              · exact Nat.le_refl _
              · exact Nat.le_trans wrote.nextRowid (addedRowids row later)
            · -- a new rowid is none of those a later change replaces
              have fresh : trees.nextRowid ∉ replacedRowids rest := by
                intro listed
                obtain ⟨later, here, replaces⟩ := List.mem_filterMap.mp listed
                obtain ⟨candidate, old, same⟩ := Option.map_eq_some_iff.mp replaces
                obtain ⟨current, present, -⟩ :=
                  writable later (List.mem_cons_of_mem _ here) candidate old
                exact Nat.ne_of_lt (stored.bounded _ present) same
              have together (rowid : Nat) :
                  rowid ∉ replacedRowids (change :: rest) ↔
                    rowid ∉ replacedRowids rest ∧ rowid ∉ replacedRowids [change] := by
                rw [show change :: rest = [change] ++ rest from rfl, replacedRowids,
                  List.filterMap_append, List.mem_append, not_or]
                exact And.comm
              rw [contents, nextContents, deletedContents, nextRowid,
                List.filter_append, List.filter_filter]
              simp only [together, List.filter_cons, fresh, not_false_eq_true,
                decide_true, if_true, List.filter_nil, Bool.decide_and,
                List.append_assoc, List.singleton_append]

end Loop

end PrehniteDB.Constraints
