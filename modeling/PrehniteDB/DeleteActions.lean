import PrehniteDB.ForeignKeys

namespace PrehniteDB.Constraints

open ConnectionCalls (Session)
open ReadPaths (Reader)

/-!
# The foreign keys of a running `DELETE`

A row goes only after everything that references it.  Between the two the rows
still to be dealt with are the candidates of the nested statements on the stack:
`Cleared` says so of every row whose foreign keys are being acted on.
-/

/-! ## What a nested statement selects -/

section Candidates

variable
  {schema : Schema}
  {reader : Reader}
  {trees : Trees}
  {candidates : List (Nat × Record)}

theorem search_row
    (stored : Stored schema trees)
    {row : Nat × Record}
    (here : row ∈ trees.rows) :
    trees.search row.1 = some row.2 := by
  unfold Trees.search
  cases found : trees.rows.find? fun other => other.1 = row.1 with
  | none =>
      have none := List.find?_eq_none.mp found row here
      simp at none
  | some other =>
      have same := List.find?_some found
      simp only [decide_eq_true_eq] at same
      obtain rfl := stored.row_unique (List.mem_of_find?_eq_some found) here same
      rfl

theorem indexCandidates_complete
    (stored : Stored schema trees)
    {entries : List (List UInt8 × Nat)}
    {seen : List Nat}
    (collected : indexCandidates reader trees seen entries = .ok candidates)
    {row : Nat × Record}
    (here : row ∈ trees.rows)
    (visible : reader.sees row.2 = true)
    (unseen : row.1 ∉ seen)
    (listed : ∃ entry ∈ entries, entry.2 = row.1) :
    row ∈ candidates := by
  induction entries generalizing seen candidates with
  | nil =>
      obtain ⟨_, none, -⟩ := listed
      cases none
  | cons entry rest inductionHypothesis =>
      obtain ⟨key, rowid⟩ := entry
      unfold indexCandidates at collected
      split at collected
      case isTrue old =>
        refine inductionHypothesis collected unseen ?_
        obtain ⟨entry, member, same⟩ := listed
        rcases List.mem_cons.mp member with rfl | later
        · exact absurd (same ▸ old) unseen
        · exact ⟨entry, later, same⟩
      case isFalse =>
        cases found : trees.search rowid with
        | none =>
            rw [found] at collected
            cases collected
        | some record =>
            rw [found] at collected
            cases later : indexCandidates reader trees (rowid :: seen) rest with
            | error failure =>
                rw [later] at collected
                cases collected
            | ok others =>
                rw [later] at collected
                have shape :
                    (if reader.sees record then (rowid, record) :: others else others) =
                      candidates :=
                  Except.ok.inj collected
                by_cases same : row.1 = rowid
                · have own : record = row.2 :=
                    Option.some.inj (found.symm.trans (same ▸ search_row stored here))
                  rw [← shape, own, if_pos visible, ← same]
                  exact List.mem_cons_self
                · have member : row ∈ others := by
                    refine inductionHypothesis later ?_ ?_
                    · exact fun old =>
                        (List.mem_cons.mp old).elim same unseen
                    · obtain ⟨entry, member, owner⟩ := listed
                      rcases List.mem_cons.mp member with rfl | later
                      · exact absurd owner.symm same
                      · exact ⟨entry, later, owner⟩
                  rw [← shape]
                  split
                  · exact List.mem_cons_of_mem _ member
                  · exact member

/-- Whatever path is chosen for `column = literal`, it leads to the visible rows with that value. -/
theorem chooseAccess_complete
    (stored : Stored schema trees)
    {position : Nat}
    {indexed : Option Value}
    (collected :
      collectCandidates reader trees (chooseAccess schema position indexed) =
        .ok candidates)
    {row : Nat × Record}
    (here : row ∈ trees.rows)
    (visible : reader.sees row.2 = true)
    (bound : ∀ value ∈ indexed, column row.2.values position = value) :
    row ∈ candidates := by
  have scanned
      (full : collectCandidates reader trees .fullScan = .ok candidates) :
      row ∈ candidates := by
    obtain rfl := Except.ok.inj full
    exact List.mem_filter.mpr ⟨here, visible⟩
  cases indexed with
  | none => exact scanned collected
  | some value =>
      unfold chooseAccess at collected
      simp only at collected
      split at collected
      · exact scanned collected
      · next index found =>
        have first := List.find?_some found
        simp only [decide_eq_true_eq] at first
        have columns : index.columns = position :: index.columns.tail := by
          cases shape : index.columns with
          | nil =>
              rw [shape] at first
              cases first
          | cons head rest =>
              rw [shape] at first
              rw [Option.some.inj first]
              rfl
        refine indexCandidates_complete stored collected here visible (List.not_mem_nil)
          ⟨(encodeIndexKey row.2.values index.columns row.1, row.1), ?_, rfl⟩
        refine List.mem_filter.mpr ⟨?_, ?_⟩
        · exact (stored.indexed index (List.mem_of_find?_eq_some found) _).mpr
            ⟨row, here, rfl⟩
        · rw [ReadPaths.inIndexRange_prefixUpperBound, encodeIndexKey,
            encodeIndexValuePrefix, columns, List.flatMap_cons, bound value rfl,
            List.append_assoc]
          exact List.prefix_append _ _

end Candidates

/-- The text of a `REAL` reads back as a literal that selects the rows with its value. -/
def Readable
    (realLiteral : UInt64 → Except Error Literal)
    (view : View)
    (reference : Reference)
    (value : Value) : Prop :=
  ∀ bits literal, value = .real bits → realLiteral bits = .ok literal →
    ∀ row ∈ view reference.child.name,
      Shares (column row.2 reference.childIdx) value →
      literal.selects (column row.2 reference.childIdx) ≠ .ok false ∧
        ∀ bound ∈ literal.indexed, column row.2 reference.childIdx = bound

theorem Readable.selects
    {realLiteral : UInt64 → Except Error Literal}
    {view : View}
    {reference : Reference}
    {value : Value}
    {literal : Literal}
    (readable : Readable realLiteral view reference value)
    (literalOf : sqlLiteral realLiteral value = .ok literal)
    {row : Nat × Row}
    (here : row ∈ view reference.child.name)
    (shared : Shares (column row.2 reference.childIdx) value) :
    literal.selects (column row.2 reference.childIdx) ≠ .ok false ∧
      ∀ bound ∈ literal.indexed, column row.2 reference.childIdx = bound := by
  cases value with
  | real bits => exact readable bits literal rfl literalOf row here shared
  | null => exact absurd shared.symm (not_shares_null _)
  | int number =>
      obtain ⟨-, same⟩ := shared
      cases held : column row.2 reference.childIdx with
      | int other =>
          rw [held] at same
          obtain rfl : other = number := of_decide_eq_true same
          unfold sqlLiteral at literalOf
          simp only at literalOf
          split at literalOf
          · cases literalOf
          · obtain rfl := Except.ok.inj literalOf
            refine ⟨by simp [selectsEqual], fun bound listed => ?_⟩
            simp only at listed
            split at listed
            · cases listed
            · exact Option.some.inj listed
      | null | real _ | text _ | bool _ =>
          rw [held] at same
          cases same
  | text string =>
      obtain ⟨-, same⟩ := shared
      cases held : column row.2 reference.childIdx with
      | text other =>
          rw [held] at same
          obtain rfl : other = string := of_decide_eq_true same
          obtain rfl := Except.ok.inj literalOf
          exact ⟨by simp [selectsEqual], fun bound listed => Option.some.inj listed⟩
      | null | int _ | real _ | bool _ =>
          rw [held] at same
          cases same
  | bool truth =>
      obtain ⟨-, same⟩ := shared
      cases held : column row.2 reference.childIdx with
      | bool other =>
          rw [held] at same
          obtain rfl : other = truth := of_decide_eq_true same
          obtain rfl := Except.ok.inj literalOf
          exact ⟨by simp [selectsEqual], fun bound listed => Option.some.inj listed⟩
      | null | int _ | real _ | text _ =>
          rw [held] at same
          cases same

theorem Readable.candidate
    {realLiteral : UInt64 → Except Error Literal}
    {reader : Reader}
    {store : Store}
    {reference : Reference}
    {value : Value}
    {literal : Literal}
    {candidates : List (Nat × Record)}
    (readable : Readable realLiteral (Store.view store reader) reference value)
    (literalOf : sqlLiteral realLiteral value = .ok literal)
    (stored : Stored reference.child (store reference.child.name))
    (collected :
      collectCandidates reader (store reference.child.name)
        (chooseAccess reference.child reference.childIdx literal.indexed) =
          .ok candidates)
    {row : Nat × Row}
    (here : row ∈ Store.view store reader reference.child.name)
    (shared : Shares (column row.2 reference.childIdx) value) :
    (∃ candidate ∈ candidates, (candidate.1, candidate.2.values) = row) ∧
      literal.selects (column row.2 reference.childIdx) ≠ .ok false := by
  obtain ⟨selects, bound⟩ := readable.selects literalOf here shared
  obtain ⟨record, listed, visible, values⟩ := mem_contents.mp here
  refine ⟨⟨_, chooseAccess_complete stored collected listed visible ?_, ?_⟩, selects⟩
  · rw [values]
    exact bound
  · rw [values]

/-! ## Rows that are still to be dealt with -/

namespace Task

/-- The task will delete the row, unless it fails. -/
def Covers (task : Task) (table : String) (row : Nat × Row) : Prop :=
  task.schema.name = table ∧
    (∃ candidate ∈ task.candidates, (candidate.1, candidate.2.values) = row) ∧
    match task with
    | .deleteRows _ filter _ => filter row.2 ≠ .ok false
    | .actions _ _ _ => True

end Task

def Covered (stack : List Task) (table : String) (row : Nat × Row) : Prop :=
  ∃ task ∈ stack, task.Covers table row

/-- Who still references a row by a foreign key that has been acted on is dealt with above. -/
def Acquitted
    (catalog : Catalog)
    (view : View)
    (above : List Task) : Task → Prop
  | .deleteRows _ _ _ => True
  | .actions schema candidate references =>
      ∀ reference ∈ catalog.childrenReferencing schema, reference ∉ references →
        ∀ row ∈ view reference.child.name,
          Shares (column row.2 reference.childIdx)
            (column candidate.2.values reference.parentIdx) →
          Covered above reference.child.name row

/-- The tasks of a stack are acquitted, each by those above it. -/
def Cleared (catalog : Catalog) (view : View) : List Task → List Task → Prop
  | _, [] => True
  | above, task :: below =>
      Acquitted catalog view above task ∧ Cleared catalog view (task :: above) below

/-- Nested statements work on tables created later. -/
def Ranked (catalog : Catalog) (stack : List Task) : Prop :=
  (stack.map fun task => catalog.created task.schema.name).Pairwise (· ≥ ·)

section Stacks

variable
  {catalog : Catalog}
  {before after : View}

/--
Whoever holds a value afterwards stands for a row that held it before and that no
task has lost.
-/
theorem Cleared.transfer
    {above other below : List Task}
    (cleared : Cleared catalog before above below)
    (moved :
      ∀ table, ∀ row ∈ after table, ∀ position value,
        Shares (column row.2 position) value →
        ∃ old ∈ before table,
          Shares (column old.2 position) value ∧
            (Covered above table old → Covered other table row) ∧
            ∀ task ∈ below, task.Covers table old → task.Covers table row) :
    Cleared catalog after other below := by
  induction below generalizing above other with
  | nil => trivial
  | cons task below inductionHypothesis =>
      obtain ⟨here, rest⟩ := cleared
      refine ⟨?_, inductionHypothesis rest ?_⟩
      · cases task with
        | deleteRows => trivial
        | actions schema candidate references =>
            intro reference foreign acted row listed shared
            obtain ⟨old, present, held, covered, -⟩ := moved _ row listed _ _ shared
            exact covered (here reference foreign acted old present held)
      · intro table row listed position value shared
        obtain ⟨old, present, held, covered, kept⟩ := moved table row listed position value shared
        refine ⟨old, present, held, ?_, fun later member => kept later (List.mem_cons_of_mem _ member)⟩
        rintro ⟨found, member, covers⟩
        rcases List.mem_cons.mp member with rfl | higher
        · exact ⟨found, List.mem_cons_self, kept found List.mem_cons_self covers⟩
        · obtain ⟨upper, here, covers⟩ := covered ⟨found, higher, covers⟩
          exact ⟨upper, List.mem_cons_of_mem _ here, covers⟩

theorem Cleared.above
    {above other below : List Task}
    (cleared : Cleared catalog before above below)
    (covered : ∀ table row, Covered above table row → Covered other table row) :
    Cleared catalog before other below :=
  cleared.transfer fun table row listed _ _ shared =>
    ⟨row, listed, shared, covered table row, fun _ _ covers => covers⟩

theorem Covered.nil {table : String} {row : Nat × Row} : ¬ Covered [] table row :=
  fun ⟨_, member, _⟩ => nomatch member

/-- No task is about a table created after those of the stack. -/
theorem Ranked.newer
    {task : Task}
    {rest : List Task}
    (ranked : Ranked catalog (task :: rest))
    {table : String}
    (newer : catalog.created task.schema.name < catalog.created table) :
    ∀ other ∈ task :: rest, other.schema.name ≠ table := by
  intro other member same
  have below : catalog.created other.schema.name ≤ catalog.created task.schema.name := by
    rcases List.mem_cons.mp member with rfl | later
    · exact Nat.le_refl _
    · exact (List.pairwise_cons.mp ranked).1 _ (List.mem_map_of_mem later)
  rw [same] at below
  exact Nat.not_lt.mpr below newer

end Stacks

/-! ## `ON DELETE SET NULL` -/

theorem filter_of_updateChange_none
    {catalog : Catalog}
    {schema : Schema}
    {reader : Reader}
    {update : Update}
    {store : Store}
    {candidate : Nat × Record}
    (admission : updateChange catalog schema reader update store candidate = .ok none) :
    update.filter candidate.2.values = .ok false := by
  unfold updateChange at admission
  cases outcome : admitUpdate catalog schema reader update store candidate.2 with
  | error failure =>
      rw [outcome] at admission
      cases admission
  | ok found =>
      rw [outcome] at admission
      obtain rfl := Option.map_eq_none_iff.mp (Except.ok.inj admission)
      simp only [admitUpdate, bind_ok_iff, mapError_ok_iff] at outcome
      obtain ⟨selected, filtered, outcome⟩ := outcome
      cases selected with
      | false => exact filtered
      | true =>
          simp only [if_true, bind_ok_iff] at outcome
          obtain ⟨_, -, _, -, _, -, _, -, outcome⟩ := outcome
          split at outcome
          · obtain ⟨_, -, same⟩ := bind_ok_iff.mp outcome
            cases same
          · cases outcome

section SetNull

variable
  {catalog : Catalog}
  {realLiteral : UInt64 → Except Error Literal}
  {session : Session}
  {store next : Store}
  {reference : Reference}
  {value : Value}
  {literal : Literal}
  {candidates : List (Nat × Record)}

/-- The nested `UPDATE` has gone through. -/
structure Nulled
    (catalog : Catalog)
    (session : Session)
    (reference : Reference)
    (literal : Literal)
    (candidates : List (Nat × Record))
    (store next : Store) : Prop where
  collected :
    collectCandidates (writingReader session) (store reference.child.name)
      (chooseAccess reference.child reference.childIdx literal.indexed) = .ok candidates
  passed :
    admissionFailure
      (updateChange catalog reference.child (writingReader session)
        (setNull reference literal) store) candidates = none
  edited :
    Edited catalog session reference.child
      (admitted
        (updateChange catalog reference.child (writingReader session)
          (setNull reference literal) store) candidates) store next

theorem nulled_of_update
    (calm : Calm session)
    (consistent : Consistent catalog session.tx.nextTxId store)
    (listed : reference.child ∈ catalog.tables)
    (updated :
      update catalog (writingReader session) reference.child.name
        (.ok (setNull reference literal)) store = .ok next) :
    ∃ candidates, Nulled catalog session reference literal candidates store next := by
  obtain ⟨child, nested, candidates, got, same, collected, passed, edited⟩ :=
    update_ok calm consistent updated
  obtain ⟨childListed, name⟩ := Catalog.get_name got
  obtain rfl := Catalog.eq_of_name childListed listed name
  obtain rfl := Except.ok.inj same
  exact ⟨candidates, collected, passed, edited⟩

theorem setNull_change
    {change : Change}
    (written :
      change ∈ admitted
        (updateChange catalog reference.child (writingReader session)
          (setNull reference literal) store) candidates) :
    ∃ candidate ∈ candidates,
      change.old = some candidate ∧
        change.new = candidate.2.values.set reference.childIdx .null := by
  obtain ⟨candidate, here, admission⟩ := mem_admitted written
  obtain ⟨old, admission⟩ := updateChange_old admission
  obtain ⟨-, assigned, -⟩ := admitUpdate_ok admission
  exact ⟨candidate, here, old, (Except.ok.inj assigned).symm⟩

theorem column_set_self (values : Row) (position : Nat) :
    column (values.set position .null) position = .null := by
  unfold column
  by_cases inside : position < values.length
  · simp [List.getD, inside]
  · simp [List.getD, Nat.le_of_not_lt inside]

/-- Every value a row has afterwards some row had before. -/
theorem Nulled.held
    (nulled : Nulled catalog session reference literal candidates store next)
    (consistent : Consistent catalog session.tx.nextTxId store)
    {row : Nat × Row}
    (here : row ∈ Store.view next (writingReader session) reference.child.name)
    {position : Nat}
    (shared : Shares (column row.2 position) value) :
    ∃ old ∈ Store.view store (writingReader session) reference.child.name,
      Shares (column old.2 position) value := by
  obtain ⟨contents, view, values⟩ := nulled.edited.own
  rw [view, Function.update_self] at here
  have member := values ▸ List.mem_map_of_mem here
  rcases List.mem_append.mp member with stays | new
  · obtain ⟨rowid, before, -⟩ := mem_kept.mp stays
    exact ⟨_, before, shared⟩
  · obtain ⟨change, written, same⟩ := List.mem_map.mp new
    obtain ⟨candidate, listed, old, set⟩ := setNull_change written
    rw [← same, set] at shared
    rcases column_set candidate.2.values reference.childIdx position with null | kept
    · exact absurd (null ▸ shared) (not_shares_null _)
    · have stored := consistent.stored _ nulled.edited.listed
      have drawn :
          Drawn (Store.view store (writingReader session) reference.child.name)
            (admitted
              (updateChange catalog reference.child (writingReader session)
                (setNull reference literal) store) candidates) :=
        drawn_update stored nulled.collected
      exact ⟨_, drawn.seen change written candidate old, kept ▸ shared⟩

/-- Nobody references the value any more. -/
theorem Nulled.unreferenced
    (nulled : Nulled catalog session reference literal candidates store next)
    (consistent : Consistent catalog session.tx.nextTxId store)
    (readable :
      Readable realLiteral (Store.view store (writingReader session)) reference value)
    (literalOf : sqlLiteral realLiteral value = .ok literal) :
    ¬ Referenced (Store.view next (writingReader session)) reference value := by
  rintro ⟨row, here, shared⟩
  obtain ⟨contents, view, values⟩ := nulled.edited.own
  rw [view, Function.update_self] at here
  have member := values ▸ List.mem_map_of_mem here
  rcases List.mem_append.mp member with stays | new
  · -- a row that holds the value would have been selected
    obtain ⟨rowid, before, unreplaced⟩ := mem_kept.mp stays
    obtain ⟨⟨candidate, listed, same⟩, selects⟩ :=
      readable.candidate literalOf (consistent.stored _ nulled.edited.listed)
        nulled.collected before shared
    obtain ⟨rfl, valuesOf⟩ := Prod.mk.inj same
    obtain ⟨found, admission, admittedChange⟩ := admitted_of_none nulled.passed listed
    have selected :
        (setNull reference literal).filter candidate.2.values =
          literal.selects (column row.2 reference.childIdx) := by
      rw [valuesOf]
      rfl
    cases found with
    | some change =>
        obtain ⟨old, -⟩ := updateChange_old admission
        exact unreplaced (mem_replacedRowids (admittedChange change rfl) old)
    | none =>
        refine selects ?_
        rw [← selected]
        exact filter_of_updateChange_none admission
  · obtain ⟨change, written, same⟩ := List.mem_map.mp new
    obtain ⟨candidate, -, -, set⟩ := setNull_change written
    rw [← same, set, column_set_self] at shared
    exact not_shares_null _ shared

end SetNull

/-! ## One step of the `DELETE` -/

/-- What acting on a foreign key reads of the versions and of its literals is true. -/
structure Honest
    (catalog : Catalog)
    (realLiteral : UInt64 → Except Error Literal)
    (reader : Reader)
    (store : Store)
    (reference : Reference)
    (value : Value) : Prop where
  probed :
    reference.onDelete = .restrict ∨
        reference.onDelete = .setNull ∧ reference.column.notNull = true →
      Faithful store (Store.view store reader) reference value
  read :
    reference.onDelete ≠ .restrict →
    Readable realLiteral (Store.view store reader) reference value
  nulled :
    reference.onDelete = .setNull →
    ∀ literal, sqlLiteral realLiteral value = .ok literal →
    ∀ old new,
      Revises reader (store reference.child.name) (setNull reference literal) old new →
      parentChanged reference.child old new = true →
      ∀ nested ∈ catalog.childrenReferencing reference.child,
        Faithful store (Store.view store reader) nested (column old nested.parentIdx)

/-- The invariant of a running `DELETE`. -/
structure Guarding (catalog : Catalog) (view : View) (stack : List Task) : Prop where
  referential : Referential catalog view
  ranked : Ranked catalog stack
  cleared : Cleared catalog view [] stack

section Steps

variable
  {catalog : Catalog}
  {realLiteral : UInt64 → Except Error Literal}
  {session : Session}
  {store next : Store}

theorem Nulled.referential
    {reference : Reference}
    {value : Value}
    {literal : Literal}
    {candidates : List (Nat × Record)}
    (nulled : Nulled catalog session reference literal candidates store next)
    (consistent : Consistent catalog session.tx.nextTxId store)
    (referential : Referential catalog (Store.view store (writingReader session)))
    (honest :
      Honest catalog realLiteral (writingReader session) store reference value)
    (action : reference.onDelete = .setNull)
    (literalOf : sqlLiteral realLiteral value = .ok literal) :
    Referential catalog (Store.view next (writingReader session)) := by
  refine referential.updated consistent nulled.collected nulled.edited ?_ ?_
  · rintro old new ⟨_, -, candidate, -, rfl, -, assigned⟩ entry declared key found value changed
    have set : candidate.2.values.set reference.childIdx .null = new :=
      Except.ok.inj assigned
    rw [← set] at value changed
    rcases column_set candidate.2.values reference.childIdx entry.2 with null | kept
    · rw [null] at value
      cases value
    · exact absurd kept (changed _ rfl)
  · intro old new revises changed nested foreign
    exact (honest.nulled action literal literalOf old new revises changed nested
      foreign).agree

/-- Acting on one foreign key leaves nobody behind who still references by it. -/
theorem Acted.guarding
    {schema : Schema}
    {candidate : Nat × Record}
    {reference : Reference}
    {later : List Reference}
    {rest nested : List Task}
    (acted :
      Acted catalog realLiteral session reference
        (column candidate.2.values reference.parentIdx) store next nested)
    (calm : Calm session)
    (consistent : Consistent catalog session.tx.nextTxId store)
    (foreign : reference ∈ catalog.childrenReferencing schema)
    (honest :
      Honest catalog realLiteral (writingReader session) store reference
        (column candidate.2.values reference.parentIdx))
    (guarding :
      Guarding catalog (Store.view store (writingReader session))
        (.actions schema candidate (reference :: later) :: rest)) :
    Guarding catalog (Store.view next (writingReader session))
      (nested ++ .actions schema candidate later :: rest) := by
  obtain ⟨referential, ranked, acquitted, cleared⟩ := guarding
  have child := (mem_childrenReferencing.mp foreign).1
  have newer := Catalog.child_newer foreign
  have same : Ranked catalog (.actions schema candidate later :: rest) := ranked
  have others {other : Reference} (unacted : other ∉ later) (different : other ≠ reference) :
      other ∉ reference :: later :=
    fun member => (List.mem_cons.mp member).elim different unacted
  have covers {table : String} {row : Nat × Row} {above : List Task}
      (covered :
        Covered [.actions schema candidate (reference :: later)] table row) :
      Covered (.actions schema candidate later :: above) table row := by
    obtain ⟨task, member, covers⟩ := covered
    obtain rfl := List.mem_singleton.mp member
    exact ⟨_, List.mem_cons_self, covers⟩
  cases acted with
  | unreferenced probed unheld =>
      refine ⟨referential, same, ?_, cleared.above fun _ _ => covers⟩
      intro other otherForeign unacted row here shared
      by_cases own : other = reference
      · subst own
        have hit := scan_referenced (consistent.stored _ child)
          (honest.probed probed).agree ⟨row, here, shared⟩
        exact absurd (unheld.symm.trans hit) Bool.false_ne_true
      · exact acquitted other otherForeign (others unacted own) row here shared
  | @cascaded literal candidates action literalOf collected =>
      refine ⟨referential, ?_, trivial, ?_, cleared.above fun _ _ => covers⟩
      · refine List.pairwise_cons.mpr ⟨?_, same⟩
        intro rank member
        obtain ⟨task, listed, rfl⟩ := List.mem_map.mp member
        rcases List.mem_cons.mp listed with rfl | lower
        · exact Nat.le_of_lt newer
        · exact Nat.le_trans
            ((List.pairwise_cons.mp ranked).1 _ (List.mem_map_of_mem lower))
            (Nat.le_of_lt newer)
      · intro other otherForeign unacted row here shared
        by_cases own : other = reference
        · subst own
          have read := honest.read (by rw [action]; exact nofun)
          obtain ⟨candidate, selects⟩ :=
            read.candidate literalOf (consistent.stored _ child) collected here shared
          exact ⟨_, List.mem_cons_self, rfl, candidate, selects⟩
        · exact absurd (acquitted other otherForeign (others unacted own) row here shared)
            Covered.nil
  | @nulled literal _ action literalOf updated =>
      obtain ⟨candidates, nulled⟩ := nulled_of_update calm consistent child updated
      have read := honest.read (by rw [action]; exact nofun)
      -- no task is about the table whose rows have new rowids
      have foreignTable := ranked.newer newer
      have moved :
          ∀ table, ∀ row ∈ Store.view next (writingReader session) table,
            ∀ position value, Shares (column row.2 position) value →
              ∃ old ∈ Store.view store (writingReader session) table,
                Shares (column old.2 position) value ∧
                  ∀ task ∈ Task.actions schema candidate (reference :: later) :: rest,
                    task.Covers table old → task.Covers table row := by
        intro table row here position value shared
        by_cases own : table = reference.child.name
        · subst own
          obtain ⟨old, before, held⟩ := nulled.held consistent here shared
          exact ⟨old, before, held, fun task member covers =>
            absurd covers.1 (foreignTable task member)⟩
        · obtain ⟨contents, view, -⟩ := nulled.edited.own
          rw [view, Function.update_of_ne own] at here
          exact ⟨row, here, shared, fun _ _ covers => covers⟩
      refine ⟨nulled.referential consistent referential honest action literalOf, same, ?_, ?_⟩
      · intro other otherForeign unacted row here shared
        by_cases own : other = reference
        · subst own
          exact absurd ⟨row, here, shared⟩ (nulled.unreferenced consistent read literalOf)
        · obtain ⟨old, before, held, -⟩ := moved _ row here _ _ shared
          exact absurd (acquitted other otherForeign (others unacted own) old before held)
            Covered.nil
      · refine cleared.transfer fun table row here position value shared => ?_
        obtain ⟨old, before, held, kept⟩ := moved table row here position value shared
        refine ⟨old, before, held, ?_, fun task member =>
          kept task (List.mem_cons_of_mem _ member)⟩
        rintro ⟨task, member, coversOld⟩
        obtain rfl := List.mem_singleton.mp member
        exact covers ⟨_, List.mem_cons_self, kept _ List.mem_cons_self coversOld⟩

/-- A step of a running `DELETE` leaves no orphan, and leaves the stack in charge of the rest. -/
theorem Advanced.guarding
    {stack later : List Task}
    (advanced : Advanced catalog realLiteral session store stack next later)
    (calm : Calm session)
    (consistent : Consistent catalog session.tx.nextTxId store)
    (pending :
      Pending catalog (committedReader session) (writingTx session) store stack)
    (honest :
      ∀ schema candidate reference references rest,
        stack = .actions schema candidate (reference :: references) :: rest →
        Honest catalog realLiteral (writingReader session) store reference
          (column candidate.2.values reference.parentIdx))
    (guarding : Guarding catalog (Store.view store (writingReader session)) stack) :
    Guarding catalog (Store.view next (writingReader session)) later := by
  obtain ⟨referential, ranked, cleared⟩ := guarding
  cases advanced with
  | exhausted =>
      refine ⟨referential, (List.pairwise_cons.mp ranked).2, cleared.2.above ?_⟩
      rintro table row ⟨task, member, -, ⟨candidate, listed, -⟩, -⟩
      obtain rfl := List.mem_singleton.mp member
      cases listed
  | skipped unselected =>
      refine ⟨referential, ranked, trivial, cleared.2.above ?_⟩
      rintro table row ⟨task, member, name, ⟨candidate, listed, same⟩, selects⟩
      obtain rfl := List.mem_singleton.mp member
      rcases List.mem_cons.mp listed with rfl | later
      · rw [← same] at selects
        exact absurd unselected selects
      · exact ⟨_, List.mem_cons_self, name, ⟨candidate, later, same⟩, selects⟩
  | entered =>
      refine ⟨referential, List.pairwise_cons.mpr ⟨?_, ranked⟩, ?_, trivial, cleared.2.above ?_⟩
      · intro rank member
        rcases List.mem_cons.mp member with rfl | lower
        · exact Nat.le_refl _
        · exact (List.pairwise_cons.mp ranked).1 rank lower
      · exact fun reference foreign unacted => absurd foreign unacted
      · rintro table row ⟨task, member, name, ⟨candidate, listed, same⟩, selects⟩
        obtain rfl := List.mem_singleton.mp member
        rcases List.mem_cons.mp listed with rfl | later
        · exact ⟨_, List.mem_cons_of_mem _ List.mem_cons_self, name,
            ⟨candidate, List.mem_singleton_self _, same⟩, trivial⟩
        · exact ⟨_, List.mem_cons_self, name, ⟨candidate, later, same⟩, selects⟩
  | @deleted schema candidate rest =>
      obtain ⟨top, -⟩ := List.forall_mem_cons.mp pending
      have listed : schema ∈ catalog.tables := top.1
      have writable :
          Writable (committedReader session) (writingTx session) (store schema.name)
            candidate :=
        List.forall_mem_singleton.mp top.2.1
      have stored := consistent.stored schema listed
      rw [deleted_own calm stored writable]
      refine ⟨referential.delete listed ?_, (List.pairwise_cons.mp ranked).2,
        cleared.2.transfer ?_⟩
      · -- everything that referenced the row has been acted on, and no task is above
        intro referenced seen own reference foreign held
        obtain ⟨current, present, -, values, -⟩ := writable
        obtain ⟨record, here, -, same⟩ := mem_contents.mp seen
        obtain rfl : current = record :=
          congrArg Prod.snd (stored.row_unique present here own.symm)
        obtain ⟨row, child, shared⟩ := held
        rw [← same, values] at shared
        exact Covered.nil (cleared.1 reference foreign List.not_mem_nil row child shared)
      · intro table row here position value shared
        by_cases own : table = schema.name
        · subst own
          rw [Function.update_self] at here
          obtain ⟨seen, different⟩ := List.mem_filter.mp here
          refine ⟨row, seen, shared, ?_, fun _ _ covers => covers⟩
          rintro ⟨task, member, -, ⟨found, only, same⟩, -⟩
          obtain rfl := List.mem_singleton.mp member
          obtain rfl := List.mem_singleton.mp only
          exact absurd (congrArg Prod.fst same).symm (of_decide_eq_true different)
        · rw [Function.update_of_ne own] at here
          refine ⟨row, here, shared, ?_, fun _ _ covers => covers⟩
          rintro ⟨task, member, name, -⟩
          obtain rfl := List.mem_singleton.mp member
          exact absurd name.symm own
  | acted action =>
      obtain ⟨top, -⟩ := List.forall_mem_cons.mp pending
      exact action.guarding calm consistent (top.2.2 List.mem_cons_self)
        (honest _ _ _ _ _ rfl) ⟨referential, ranked, cleared⟩

end Steps

end PrehniteDB.Constraints
