import PrehniteDB.UniqueConstraints

namespace PrehniteDB.Constraints

open ConnectionCalls (Session)
open ReadPaths (ForeignKeyTarget Reader)

/-!
# Rows and the rows they reference

When every foreign key of a view finds its parent row, and what a write must
leave alone for that to stay so.  The probes for parents and for children meet
versions nobody sees; `Faithful` says that for one value they tell the truth.
-/

/-- The foreign keys of a child row are NULL, or on a row of the parent in the same view. -/
def Parented
    (catalog : Catalog)
    (view : View)
    (child : Schema)
    (values : Row) : Prop :=
  ∀ entry ∈ child.columns.zipIdx, ∀ key ∈ entry.1.foreignKey,
    (column values entry.2).isNull = false →
    ∃ parent ∈ catalog.tables, parent.name = key.table ∧
      ∃ position, parent.columnIndex key.column = some position ∧
        ∃ referenced ∈ view parent.name,
          (column values entry.2).equal (column referenced.2 position) = true

/-- No row of the view is an orphan. -/
def Referential (catalog : Catalog) (view : View) : Prop :=
  ∀ child ∈ catalog.tables, ∀ row ∈ view child.name, Parented catalog view child row.2

/-- A child row of the view holds the value, which is not NULL. -/
def Referenced (view : View) (reference : Reference) (value : Value) : Prop :=
  ∃ row ∈ view reference.child.name, Shares (column row.2 reference.childIdx) value

theorem realEqual_trans
    {first second third : UInt64}
    (earlier : realEqual first second = true)
    (later : realEqual second third = true) :
    realEqual first third = true := by
  unfold realEqual at *
  simp only [Bool.and_eq_true, Bool.not_eq_true', Bool.or_eq_true, decide_eq_true_eq] at *
  obtain ⟨⟨firstNumber, -⟩, earlier⟩ := earlier
  obtain ⟨⟨-, thirdNumber⟩, later⟩ := later
  refine ⟨⟨firstNumber, thirdNumber⟩, ?_⟩
  rcases earlier with rfl | ⟨firstZero, secondZero⟩
  · exact later
  · rcases later with rfl | ⟨-, thirdZero⟩
    · exact .inr ⟨firstZero, secondZero⟩
    · exact .inr ⟨firstZero, thirdZero⟩

theorem Value.equal_trans
    {first second third : Value}
    (earlier : first.equal second = true)
    (later : second.equal third = true) :
    first.equal third = true := by
  cases first <;> cases second <;>
    first
      | exact later
      | cases earlier
      | (cases third <;>
          first
            | cases later
            | rfl
            | exact realEqual_trans earlier later
            | exact decide_eq_true ((of_decide_eq_true earlier).trans
                (of_decide_eq_true later)))

/-! ## The foreign keys onto a table -/

section References

variable
  {catalog : Catalog}
  {schema parent : Schema}
  {reference : Reference}

theorem Catalog.eq_of_name
    {first second : Schema}
    (firstListed : first ∈ catalog.tables)
    (secondListed : second ∈ catalog.tables)
    (same : first.name = second.name) :
    first = second :=
  List.inj_on_of_nodup_map catalog.named firstListed secondListed same

theorem Catalog.child_newer
    (foreign : reference ∈ catalog.childrenReferencing parent) :
    catalog.created parent.name < catalog.created reference.child.name := by
  obtain ⟨listed, -, declared, key, found, target, -⟩ := mem_childrenReferencing.mp foreign
  exact target ▸ catalog.older _ listed _ (declared_of_zipIdx _ _ declared) key found

theorem Catalog.parent_unique
    (listed : parent ∈ catalog.tables)
    (foreign : reference ∈ catalog.childrenReferencing parent) :
    ∃ index ∈ parent.indexes,
      index.unique = true ∧ index.columns = [reference.parentIdx] := by
  obtain ⟨child, -, declared, key, found, target, -, sought⟩ :=
    mem_childrenReferencing.mp foreign
  obtain ⟨other, otherListed, name, position, located, indexed⟩ :=
    catalog.resolved _ child _ (declared_of_zipIdx _ _ declared) key found
  obtain rfl := Catalog.eq_of_name otherListed listed (name.trans target)
  obtain rfl : position = reference.parentIdx :=
    Option.some.inj (located.symm.trans sought)
  obtain ⟨index, unique⟩ := Option.isSome_iff_exists.mp indexed
  have matched := List.find?_some unique
  simp only [Bool.and_eq_true, decide_eq_true_eq] at matched
  exact ⟨index, List.mem_of_find?_eq_some unique, matched⟩

/-- A foreign key onto a table is one of those the table is asked for. -/
theorem Catalog.mem_children
    (childListed : schema ∈ catalog.tables)
    {entry : Column × Nat}
    {key : ForeignKeyTarget}
    (declared : entry ∈ schema.columns.zipIdx)
    (found : key ∈ entry.1.foreignKey)
    (target : parent.name = key.table)
    {position : Nat}
    (sought : parent.columnIndex key.column = some position) :
    { child := schema
      childIdx := entry.2
      column := entry.1
      onDelete := key.onDelete
      parentIdx := position } ∈ catalog.childrenReferencing parent := by
  refine mem_childrenReferencing.mpr
    ⟨childListed, ?_, declared, key, found, target.symm, rfl, sought⟩
  intro same
  have older :=
    catalog.older schema childListed _ (declared_of_zipIdx _ _ declared) key found
  rw [← target] at older
  exact Nat.ne_of_lt older (congrArg catalog.created same.symm)

end References

/-! ## Writes to one table -/

section Writes

variable
  {catalog : Catalog}
  {schema : Schema}
  {view : View}
  {changes : List Change}
  {rows : Contents}

theorem Parented.update
    (listed : schema ∈ catalog.tables)
    {values : Row}
    (parented : Parented catalog view schema values) :
    Parented catalog (Function.update view schema.name rows) schema values := by
  intro entry declared key found value
  obtain ⟨parent, parentListed, name, position, sought, referenced, seen, same⟩ :=
    parented entry declared key found value
  refine ⟨parent, parentListed, name, position, sought, referenced, ?_, same⟩
  have older := catalog.older schema listed _ (declared_of_zipIdx _ _ declared) key found
  rw [Function.update_of_ne]
  · exact seen
  · intro own
    rw [← name, own] at older
    exact Nat.lt_irrefl _ older

/--
New rows with parents, and referenced values that stay or that nobody holds,
leave no orphan.
-/
theorem Referential.replace
    (referential : Referential catalog view)
    (listed : schema ∈ catalog.tables)
    (drawn : Drawn (view schema.name) changes)
    (values : rows.map Prod.snd = produced (view schema.name) changes)
    (parented : ∀ change ∈ changes, Parented catalog view schema change.new)
    (unheld :
      ∀ change ∈ changes, ∀ candidate ∈ change.old,
        ∀ reference ∈ catalog.childrenReferencing schema,
          (column candidate.2.values reference.parentIdx).equal
              (column change.new reference.parentIdx) = true ∨
            ¬ Referenced view reference
              (column candidate.2.values reference.parentIdx)) :
    Referential catalog (Function.update view schema.name rows) := by
  have produced_mem {new : Row} (here : new ∈ produced (view schema.name) changes) :
      ∃ rowid, (rowid, new) ∈ rows := by
    rw [← values] at here
    obtain ⟨row, member, rfl⟩ := List.mem_map.mp here
    exact ⟨row.1, member⟩
  intro child childListed row here
  by_cases own : child.name = schema.name
  · obtain rfl := Catalog.eq_of_name childListed listed own
    refine Parented.update listed ?_
    rw [Function.update_self] at here
    have member : row.2 ∈ produced (view child.name) changes :=
      values ▸ List.mem_map_of_mem here
    rcases List.mem_append.mp member with stays | new
    · obtain ⟨rowid, before, -⟩ := mem_kept.mp stays
      exact referential child listed (rowid, row.2) before
    · obtain ⟨change, written, same⟩ := List.mem_map.mp new
      exact same ▸ parented change written
  · rw [Function.update_of_ne own] at here
    intro entry declared key found value
    obtain ⟨parent, parentListed, name, position, sought, referenced, seen, same⟩ :=
      referential child childListed row here entry declared key found value
    refine ⟨parent, parentListed, name, position, sought, ?_⟩
    by_cases target : parent.name = schema.name
    · obtain rfl := Catalog.eq_of_name parentListed listed target
      rw [Function.update_self]
      by_cases replaced : referenced.1 ∈ replacedRowids changes
      · obtain ⟨change, written, replaces⟩ := List.mem_filterMap.mp replaced
        obtain ⟨candidate, old, rowid⟩ := Option.map_eq_some_iff.mp replaces
        obtain rfl : (candidate.1, candidate.2.values) = referenced :=
          List.inj_on_of_nodup_map drawn.rowids (drawn.seen change written candidate old)
            seen rowid
        have foreign := Catalog.mem_children childListed declared found name sought
        rcases unheld change written candidate old _ foreign with unchanged | free
        · obtain ⟨newRowid, member⟩ :=
            produced_mem (List.mem_append_right _ (List.mem_map_of_mem written))
          exact ⟨_, member, Value.equal_trans same unchanged⟩
        · exact absurd ⟨row, here, value, same⟩ free
      · obtain ⟨rowid, member⟩ :=
          produced_mem (List.mem_append_left _ (mem_kept.mpr ⟨_, seen, replaced⟩))
        exact ⟨_, member, same⟩
    · rw [Function.update_of_ne target]
      exact ⟨referenced, seen, same⟩

/-- A row nobody references can go. -/
theorem Referential.delete
    (referential : Referential catalog view)
    (listed : schema ∈ catalog.tables)
    {rowid : Nat}
    (unheld :
      ∀ referenced ∈ view schema.name, referenced.1 = rowid →
        ∀ reference ∈ catalog.childrenReferencing schema,
          ¬ Referenced view reference (column referenced.2 reference.parentIdx)) :
    Referential catalog
      (Function.update view schema.name
        ((view schema.name).filter fun row => row.1 ≠ rowid)) := by
  intro child childListed row here
  by_cases own : child.name = schema.name
  · obtain rfl := Catalog.eq_of_name childListed listed own
    rw [Function.update_self] at here
    exact Parented.update listed
      (referential child listed row (List.mem_of_mem_filter here))
  · rw [Function.update_of_ne own] at here
    intro entry declared key found value
    obtain ⟨parent, parentListed, name, position, sought, referenced, seen, same⟩ :=
      referential child childListed row here entry declared key found value
    refine ⟨parent, parentListed, name, position, sought, referenced, ?_, same⟩
    by_cases target : parent.name = schema.name
    · obtain rfl := Catalog.eq_of_name parentListed listed target
      rw [Function.update_self]
      refine List.mem_filter.mpr ⟨seen, decide_eq_true fun gone => ?_⟩
      exact unheld referenced seen gone _
        (Catalog.mem_children childListed declared found name sought)
        ⟨row, here, value, same⟩
    · rw [Function.update_of_ne target]
      exact seen

end Writes

/-! ## The probes -/

/-- What the versions of a child table say about a value is true of the rows that are seen. -/
structure Faithful
    (store : Store)
    (view : View)
    (reference : Reference)
    (value : Value) : Prop where
  live :
    ∀ row ∈ (store reference.child.name).rows,
      column row.2.values reference.childIdx = value ∨
        (column row.2.values reference.childIdx).equal value = true →
      Referenced view reference value
  agree :
    ∀ row ∈ view reference.child.name, Agree (column row.2 reference.childIdx) value

/-- A parent value of a new row that some version holds is on a row that is seen. -/
def Sponsored
    (catalog : Catalog)
    (store : Store)
    (view : View)
    (child : Schema)
    (oldValues : Option Row)
    (values : Row) : Prop :=
  ∀ entry ∈ child.columns.zipIdx, ∀ key ∈ entry.1.foreignKey,
    (column values entry.2).isNull = false →
    (∀ old ∈ oldValues, column values entry.2 ≠ column old entry.2) →
    ∀ parent ∈ catalog.tables, parent.name = key.table →
      ∀ position ∈ parent.columnIndex key.column,
        (store parent.name).Holds position (column values entry.2) →
        ∃ referenced ∈ view parent.name,
          (column values entry.2).equal (column referenced.2 position) = true

section Probes

variable
  {catalog : Catalog}
  {schema : Schema}
  {store : Store}
  {reader : Reader}
  {reference : Reference}
  {value : Value}

theorem scan_hit
    (stored : Stored reference.child (store reference.child.name))
    (hit : scanChildForFkValue store reference value = true) :
    ∃ row ∈ (store reference.child.name).rows,
      column row.2.values reference.childIdx = value ∨
        (column row.2.values reference.childIdx).equal value = true := by
  unfold scanChildForFkValue at hit
  cases found : reference.child.indexes.find? fun index =>
      index.columns = [reference.childIdx] with
  | some index =>
      rw [found] at hit
      have columns := List.find?_some found
      simp only [decide_eq_true_eq] at columns
      obtain ⟨row, here, held⟩ :=
        (stored.indexHasValue_iff (List.mem_of_find?_eq_some found) columns).mp hit
      exact ⟨row, here, .inl held⟩
  | none =>
      rw [found] at hit
      obtain ⟨_, listed, same⟩ := List.any_eq_true.mp hit
      obtain ⟨row, here, rfl⟩ := List.mem_map.mp listed
      exact ⟨row, here, .inr same⟩

/-- A row that is seen and holds the value is hit. -/
theorem scan_referenced
    (stored : Stored reference.child (store reference.child.name))
    (agree :
      ∀ row ∈ Store.view store reader reference.child.name,
        Agree (column row.2 reference.childIdx) value)
    (referenced : Referenced (Store.view store reader) reference value) :
    scanChildForFkValue store reference value = true := by
  obtain ⟨row, seen, -, same⟩ := referenced
  obtain ⟨record, here, -, values⟩ := mem_contents.mp seen
  unfold scanChildForFkValue
  cases found : reference.child.indexes.find? fun index =>
      index.columns = [reference.childIdx] with
  | some index =>
      have columns := List.find?_some found
      simp only [decide_eq_true_eq] at columns
      refine (stored.indexHasValue_iff (List.mem_of_find?_eq_some found) columns).mpr
        ⟨_, here, ?_⟩
      rw [values]
      exact (agree row seen).mp same
  | none =>
      refine List.any_eq_true.mpr ⟨record.values, List.mem_map.mpr ⟨_, here, rfl⟩, ?_⟩
      rw [values]
      exact same

/-- A scan finds a child exactly where a visible row refers to the value. -/
theorem Faithful.scan_iff
    (faithful : Faithful store (Store.view store reader) reference value)
    (stored : Stored reference.child (store reference.child.name)) :
    scanChildForFkValue store reference value = true ↔
      Referenced (Store.view store reader) reference value := by
  refine ⟨fun hit => ?_, scan_referenced stored faithful.agree⟩
  obtain ⟨row, here, held⟩ := scan_hit stored hit
  exact faithful.live row here held

theorem checkForeignKeys_ok
    (stored : ∀ schema ∈ catalog.tables, Stored schema (store schema.name))
    {values : Row}
    {columns : List (Column × Nat)}
    (passed : checkForeignKeys catalog store schema values columns = .ok ()) :
    ∀ entry ∈ columns, ∀ key ∈ entry.1.foreignKey,
      (column values entry.2).isNull = false →
      ∃ parent ∈ catalog.tables, parent.name = key.table ∧
        ∃ position, parent.columnIndex key.column = some position ∧
          (store parent.name).Holds position (column values entry.2) := by
  induction columns with
  | nil => rintro _ ⟨⟩
  | cons first rest inductionHypothesis =>
      obtain ⟨declared, position⟩ := first
      unfold checkForeignKeys at passed
      cases foreign : declared.foreignKey with
      | none =>
          rw [foreign] at passed
          intro entry listed key found
          rcases List.mem_cons.mp listed with rfl | later
          · cases foreign.symm.trans found
          · exact inductionHypothesis passed entry later key found
      | some target =>
          simp only [foreign] at passed
          split at passed
          · next null =>
            intro entry listed key found value
            rcases List.mem_cons.mp listed with rfl | later
            · rw [null] at value
              cases value
            · exact inductionHypothesis passed entry later key found value
          · cases indexed : parentIndex catalog target with
            | error failure =>
                simp only [indexed] at passed
                cases passed
            | ok located =>
                obtain ⟨parent, parentColumn, index⟩ := located
                simp only [indexed] at passed
                split at passed
                · next held =>
                  intro entry listed key found value
                  rcases List.mem_cons.mp listed with rfl | later
                  · obtain rfl : target = key := Option.some.inj (foreign.symm.trans found)
                    obtain ⟨parentListed, name, sought, member, -, columns⟩ :=
                      parentIndex_spec indexed
                    exact ⟨parent, parentListed, name, parentColumn, sought,
                      ((stored parent parentListed).indexHasValue_iff member columns).mp
                        held⟩
                  · exact inductionHypothesis passed entry later key found value
                · cases passed

theorem Parented.of_check
    (stored : ∀ schema ∈ catalog.tables, Stored schema (store schema.name))
    {view : View}
    {oldValues : Option Row}
    {values : Row}
    (passed :
      checkForeignKeys catalog store schema values schema.columns.zipIdx = .ok ())
    (sponsored : Sponsored catalog store view schema oldValues values)
    (before : ∀ old ∈ oldValues, Parented catalog view schema old) :
    Parented catalog view schema values := by
  intro entry declared key found value
  by_cases kept : ∃ old ∈ oldValues, column values entry.2 = column old entry.2
  · obtain ⟨old, here, same⟩ := kept
    rw [same] at value ⊢
    exact before old here entry declared key found value
  · obtain ⟨parent, listed, name, position, sought, held⟩ :=
      checkForeignKeys_ok stored passed entry declared key found value
    refine ⟨parent, listed, name, position, sought, ?_⟩
    exact sponsored entry declared key found value
      (fun old here same => kept ⟨old, here, same⟩) parent listed name position sought held

end Probes

/-! ## `INSERT` and `UPDATE` -/

/-- The rows an `UPDATE` selects, with what it makes of them. -/
def Revises
    (reader : Reader)
    (trees : Trees)
    (update : Update)
    (old new : Row) : Prop :=
  ∃ candidates,
    collectCandidates reader trees update.access = .ok candidates ∧
      ∃ candidate ∈ candidates,
        candidate.2.values = old ∧ update.filter old = .ok true ∧
          assign old update.assignments old = .ok new

section Statements

variable
  {catalog : Catalog}
  {session : Session}
  {schema : Schema}
  {store next : Store}
  {reference : Reference}

theorem checkNoChildReferences_cases
    (store : Store)
    (parent : Schema)
    (values : Row)
    (references : List Reference) :
    ((∀ reference ∈ references,
          scanChildForFkValue store reference (column values reference.parentIdx) =
            false) ∧
        checkNoChildReferences store parent values references = .ok ()) ∨
      ∃ reference ∈ references,
        scanChildForFkValue store reference (column values reference.parentIdx) = true ∧
          checkNoChildReferences store parent values references =
            .error (.cannotModify parent.name reference.child.name
              reference.column.name) := by
  induction references with
  | nil => exact .inl ⟨nofun, rfl⟩
  | cons reference rest inductionHypothesis =>
      unfold checkNoChildReferences
      cases hit :
          scanChildForFkValue store reference (column values reference.parentIdx) with
      | true => exact .inr ⟨reference, List.mem_cons_self, hit, if_pos rfl⟩
      | false =>
          rw [if_neg Bool.false_ne_true]
          rcases inductionHypothesis with ⟨free, passed⟩ | ⟨other, later, held, failed⟩
          · exact .inl ⟨List.forall_mem_cons.mpr ⟨hit, free⟩, passed⟩
          · exact .inr ⟨other, List.mem_cons_of_mem _ later, held, failed⟩

/-- A referenced value that changes is a change the executor notices. -/
theorem equal_of_unchanged
    (listed : schema ∈ catalog.tables)
    (foreign : reference ∈ catalog.childrenReferencing schema)
    {old new : Row}
    (unchanged : parentChanged schema old new = false) :
    (column old reference.parentIdx).equal (column new reference.parentIdx) = true := by
  obtain ⟨index, here, unique, columns⟩ := Catalog.parent_unique listed foreign
  have same := List.any_eq_false.mp unchanged index here
  simpa [unique, columns] using same

theorem Referential.inserted
    {rows : List (Except Error Row)}
    (referential : Referential catalog (Store.view store (writingReader session)))
    (consistent : Consistent catalog session.tx.nextTxId store)
    (edited :
      Edited catalog session schema (admitted (insertChange catalog schema store) rows)
        store next)
    (sponsored :
      ∀ evaluated ∈ rows, ∀ values, evaluated = .ok values →
        Sponsored catalog store (Store.view store (writingReader session)) schema none
          values) :
    Referential catalog (Store.view next (writingReader session)) := by
  obtain ⟨contents, view, values⟩ := edited.own
  rw [view]
  refine referential.replace edited.listed
    (drawn_insert (consistent.stored _ edited.listed) rows) values ?_ ?_
  · intro change written
    obtain ⟨evaluated, here, admission⟩ := mem_admitted written
    obtain ⟨ok, passed⟩ := admitInsert_ok (insertChange_old admission).2
    exact .of_check consistent.stored passed (sponsored evaluated here _ ok) nofun
  · intro change written candidate old
    obtain ⟨_, -, admission⟩ := mem_admitted written
    exact nomatch (insertChange_old admission).1.symm.trans old

/-- The rows an `UPDATE` makes have their parents, and its children keep theirs. -/
theorem Referential.updated
    {update : Update}
    {candidates : List (Nat × Record)}
    (referential : Referential catalog (Store.view store (writingReader session)))
    (consistent : Consistent catalog session.tx.nextTxId store)
    (collected :
      collectCandidates (writingReader session) (store schema.name) update.access =
        .ok candidates)
    (edited :
      Edited catalog session schema
        (admitted (updateChange catalog schema (writingReader session) update store)
          candidates) store next)
    (sponsored :
      ∀ old new, Revises (writingReader session) (store schema.name) update old new →
        Sponsored catalog store (Store.view store (writingReader session)) schema
          (some old) new)
    (agree :
      ∀ old new, Revises (writingReader session) (store schema.name) update old new →
        parentChanged schema old new = true →
        ∀ reference ∈ catalog.childrenReferencing schema,
          ∀ row ∈ Store.view store (writingReader session) reference.child.name,
            Agree (column row.2 reference.childIdx) (column old reference.parentIdx)) :
    Referential catalog (Store.view next (writingReader session)) := by
  have drawn :
      Drawn (Store.view store (writingReader session) schema.name)
        (admitted (updateChange catalog schema (writingReader session) update store)
          candidates) :=
    drawn_update (consistent.stored _ edited.listed) collected
  obtain ⟨contents, view, values⟩ := edited.own
  rw [view]
  have revised {change : Change}
      (written :
        change ∈ admitted
          (updateChange catalog schema (writingReader session) update store)
          candidates) :
      ∃ candidate,
        change.old = some candidate ∧
          Revises (writingReader session) (store schema.name) update
            candidate.2.values change.new ∧
          checkForeignKeys catalog store schema change.new schema.columns.zipIdx =
            .ok () ∧
          (parentChanged schema candidate.2.values change.new = true →
            checkNoChildReferences store schema candidate.2.values
              (catalog.childrenReferencing schema) = .ok ()) := by
    obtain ⟨candidate, here, admission⟩ := mem_admitted written
    obtain ⟨old, admitted⟩ := updateChange_old admission
    obtain ⟨selected, assigned, passed, unreferenced⟩ := admitUpdate_ok admitted
    exact ⟨candidate, old, ⟨candidates, collected, candidate, here, rfl, selected, assigned⟩,
      passed, unreferenced⟩
  refine referential.replace edited.listed drawn values ?_ ?_
  · intro change written
    obtain ⟨candidate, old, revises, passed, -⟩ := revised written
    refine .of_check consistent.stored passed (sponsored _ _ revises) fun before same => ?_
    obtain rfl : candidate.2.values = before := Option.some.inj same
    exact referential schema edited.listed (candidate.1, candidate.2.values)
      (drawn.seen change written candidate old)
  · intro change written candidate old reference foreign
    obtain ⟨found, foundOld, revises, -, unreferenced⟩ := revised written
    obtain rfl : found = candidate := Option.some.inj (foundOld.symm.trans old)
    cases changed : parentChanged schema found.2.values change.new with
    | false => exact .inl (equal_of_unchanged edited.listed foreign changed)
    | true =>
        refine .inr fun referenced => ?_
        have child := (mem_childrenReferencing.mp foreign).1
        have hit := scan_referenced (consistent.stored _ child)
          (agree _ _ revises changed reference foreign) referenced
        rcases checkNoChildReferences_cases store schema found.2.values
            (catalog.childrenReferencing schema) with
          ⟨free, -⟩ | ⟨_, -, -, failed⟩
        · exact Bool.false_ne_true ((free reference foreign).symm.trans hit)
        · exact nomatch failed.symm.trans (unreferenced changed)

end Statements

end PrehniteDB.Constraints
