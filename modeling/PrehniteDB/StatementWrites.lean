import PrehniteDB.RowWrites

namespace PrehniteDB.Constraints

open ReadPaths (ForeignKeyTarget Reader)

/-!
# `INSERT` and `UPDATE` as one loop

Apart from the duplicate check, what a statement checks of a row lies in other
tables, so it can be asked before the first row is written.  A statement is then
the changes it admits, up to the first row it does not, and the loop that writes
them.
-/

/-- The changes of the rows before the first one that is not admitted. -/
def admitted {Item : Type} (admission : Item → Except Failure (Option Change)) :
    List Item → List Change
  | [] => []
  | item :: rest =>
      match admission item with
      | .error _ => []
      | .ok none => admitted admission rest
      | .ok (some change) => change :: admitted admission rest

/-- Why the first row that is not admitted is refused. -/
def admissionFailure {Item : Type} (admission : Item → Except Failure (Option Change)) :
    List Item → Option Failure
  | [] => none
  | item :: rest =>
      match admission item with
      | .error failure => some failure
      | .ok _ => admissionFailure admission rest

/-- The admitted changes are written, then the row that is not admitted fails the statement. -/
def writeAdmitted
    (schema : Schema)
    (txId : Nat)
    (changes : List Change)
    (failure : Option Failure)
    (store : Store) : Except Failure Store :=
  match writeAll schema txId changes (store schema.name) with
  | .error duplicate => .error duplicate
  | .ok trees =>
      match failure with
      | some failure => .error failure
      | none => .ok (Function.update store schema.name trees)

def insertChange
    (catalog : Catalog)
    (schema : Schema)
    (store : Store)
    (evaluated : Except Error Row) : Except Failure (Option Change) :=
  (admitInsert catalog schema store evaluated).map fun new =>
    some { old := none, new := new }

def updateChange
    (catalog : Catalog)
    (schema : Schema)
    (reader : Reader)
    (update : Update)
    (store : Store)
    (candidate : Nat × Record) : Except Failure (Option Change) :=
  (admitUpdate catalog schema reader update store candidate.2).map fun admitted =>
    admitted.map fun new => { old := some candidate, new := new }

theorem mem_admitted
    {Item : Type}
    {admission : Item → Except Failure (Option Change)}
    {items : List Item}
    {change : Change}
    (listed : change ∈ admitted admission items) :
    ∃ item ∈ items, admission item = .ok (some change) := by
  induction items with
  | nil => cases listed
  | cons item rest inductionHypothesis =>
      unfold admitted at listed
      split at listed
      · cases listed
      · obtain ⟨other, later, found⟩ := inductionHypothesis listed
        exact ⟨other, List.mem_cons_of_mem _ later, found⟩
      · next first found =>
        rcases List.mem_cons.mp listed with rfl | later
        · exact ⟨item, List.mem_cons_self, found⟩
        · obtain ⟨other, later, found⟩ := inductionHypothesis later
          exact ⟨other, List.mem_cons_of_mem _ later, found⟩

theorem admitted_of_none
    {Item : Type}
    {admission : Item → Except Failure (Option Change)}
    {items : List Item}
    (passed : admissionFailure admission items = none)
    {item : Item}
    (listed : item ∈ items) :
    ∃ found, admission item = .ok found ∧
      ∀ change ∈ found, change ∈ admitted admission items := by
  induction items with
  | nil => cases listed
  | cons first rest inductionHypothesis =>
      unfold admissionFailure at passed
      unfold admitted
      cases outcome : admission first with
      | error failure =>
          rw [outcome] at passed
          cases passed
      | ok found =>
          rw [outcome] at passed
          rcases List.mem_cons.mp listed with rfl | later
          · refine ⟨found, outcome, fun change here => ?_⟩
            obtain rfl := Option.mem_def.mp here
            exact List.mem_cons_self
          · obtain ⟨change, admitted, members⟩ := inductionHypothesis passed later
            refine ⟨change, admitted, fun change here => ?_⟩
            cases found with
            | none => exact members change here
            | some _ => exact List.mem_cons_of_mem _ (members change here)

/-! ## The checks read other tables -/

/-- Two stores that differ in one table at most. -/
def SameOthers (table : String) (store other : Store) : Prop :=
  ∀ name, name ≠ table → store name = other name

theorem SameOthers.update
    {table : String}
    {store other : Store}
    (same : SameOthers table store other)
    (trees : Trees) :
    SameOthers table (Function.update store table trees) other := by
  intro name different
  rw [Function.update_of_ne different]
  exact same name different

theorem Catalog.get_name
    {catalog : Catalog}
    {name : String}
    {schema : Schema}
    (found : catalog.get name = some schema) :
    schema ∈ catalog.tables ∧ schema.name = name := by
  have named := List.find?_some found
  exact ⟨List.mem_of_find?_eq_some found, by simpa using named⟩

theorem parentIndex_spec
    {catalog : Catalog}
    {key : ForeignKeyTarget}
    {parent : Schema}
    {position : Nat}
    {index : Index}
    (found : parentIndex catalog key = .ok (parent, position, index)) :
    parent ∈ catalog.tables ∧ parent.name = key.table ∧
      parent.columnIndex key.column = some position ∧
      index ∈ parent.indexes ∧ index.unique = true ∧ index.columns = [position] := by
  unfold parentIndex at found
  split at found
  · cases found
  · next schema got =>
    split at found
    · cases found
    · next at_ here =>
      split at found
      · cases found
      · next unique sought =>
        obtain ⟨rfl, rfl, rfl⟩ : schema = parent ∧ at_ = position ∧ unique = index := by
          simpa using found
        obtain ⟨member, name⟩ := Catalog.get_name got
        have matched := List.find?_some sought
        simp only [Bool.and_eq_true, decide_eq_true_eq] at matched
        exact ⟨member, name, here, List.mem_of_find?_eq_some sought, matched.1, matched.2⟩

theorem checkForeignKeys_congr
    {catalog : Catalog}
    {schema : Schema}
    {store other : Store}
    (listed : schema ∈ catalog.tables)
    (same : SameOthers schema.name store other)
    (values : Row)
    {columns : List (Column × Nat)}
    (declared : ∀ entry ∈ columns, entry.1 ∈ schema.columns) :
    checkForeignKeys catalog store schema values columns =
      checkForeignKeys catalog other schema values columns := by
  induction columns with
  | nil => rfl
  | cons entry rest inductionHypothesis =>
      obtain ⟨column, position⟩ := entry
      have later := inductionHypothesis fun entry here =>
        declared entry (List.mem_cons_of_mem _ here)
      unfold checkForeignKeys
      cases foreign : column.foreignKey with
      | none => exact later
      | some key =>
          simp only
          split
          · exact later
          · cases found : parentIndex catalog key with
            | error failure => rfl
            | ok parent =>
                obtain ⟨parent, parentColumn, index⟩ := parent
                obtain ⟨-, name, -⟩ := parentIndex_spec found
                have different : parent.name ≠ schema.name := by
                  intro own
                  have older := catalog.older schema listed column
                    (declared _ List.mem_cons_self) key foreign
                  rw [← name, own] at older
                  exact Nat.lt_irrefl _ older
                simp only [same parent.name different, later]

theorem mem_childrenReferencing
    {catalog : Catalog}
    {parent : Schema}
    {reference : Reference} :
    reference ∈ catalog.childrenReferencing parent ↔
      reference.child ∈ catalog.tables ∧ reference.child.name ≠ parent.name ∧
        (reference.column, reference.childIdx) ∈ reference.child.columns.zipIdx ∧
        ∃ key,
          reference.column.foreignKey = some key ∧ key.table = parent.name ∧
            key.onDelete = reference.onDelete ∧
            parent.columnIndex key.column = some reference.parentIdx := by
  unfold Catalog.childrenReferencing
  simp only [List.mem_flatMap, List.mem_filter, List.mem_filterMap, decide_eq_true_eq]
  constructor
  · rintro ⟨child, ⟨listed, different⟩, ⟨column, position⟩, declared, found⟩
    obtain ⟨key, foreign, found⟩ := Option.bind_eq_some_iff.mp found
    split at found
    case isTrue target =>
      obtain ⟨parentIdx, sought, rfl⟩ := Option.map_eq_some_iff.mp found
      exact ⟨listed, different, declared, key, foreign, target, rfl, sought⟩
    case isFalse => cases found
  · rintro ⟨listed, different, declared, key, foreign, target, action, sought⟩
    refine ⟨reference.child, ⟨listed, different⟩, _, declared, ?_⟩
    simp [foreign, target, sought, action]

theorem scanChildForFkValue_congr
    {store other : Store}
    {reference : Reference}
    (same : store reference.child.name = other reference.child.name)
    (value : Value) :
    scanChildForFkValue store reference value =
      scanChildForFkValue other reference value := by
  simp only [scanChildForFkValue, same]

theorem checkNoChildReferences_congr
    {store other : Store}
    {parent : Schema}
    (same : SameOthers parent.name store other)
    (values : Row)
    {references : List Reference}
    (foreign : ∀ reference ∈ references, reference.child.name ≠ parent.name) :
    checkNoChildReferences store parent values references =
      checkNoChildReferences other parent values references := by
  induction references with
  | nil => rfl
  | cons reference rest inductionHypothesis =>
      have child := same _ (foreign reference List.mem_cons_self)
      simp only [checkNoChildReferences, scanChildForFkValue_congr child,
        inductionHypothesis fun other later => foreign other (List.mem_cons_of_mem _ later)]

section Admission

variable
  {catalog : Catalog}
  {schema : Schema}
  {store other : Store}
  (listed : schema ∈ catalog.tables)
  (same : SameOthers schema.name store other)

theorem declared_of_zipIdx
    (schema : Schema) :
    ∀ entry ∈ schema.columns.zipIdx, entry.1 ∈ schema.columns := by
  intro entry here
  have found := List.mem_zipIdx_iff_getElem?.mp here
  exact List.mem_of_getElem? found

include listed same

theorem admitInsert_congr (evaluated : Except Error Row) :
    admitInsert catalog schema store evaluated =
      admitInsert catalog schema other evaluated := by
  unfold admitInsert
  have foreign (values : Row) :=
    checkForeignKeys_congr listed same values (declared_of_zipIdx schema)
  simp only [foreign]

theorem admitUpdate_congr (reader : Reader) (update : Update) (record : Record) :
    admitUpdate catalog schema reader update store record =
      admitUpdate catalog schema reader update other record := by
  unfold admitUpdate
  have foreign (values : Row) :=
    checkForeignKeys_congr listed same values (declared_of_zipIdx schema)
  have children (values : Row) :
      checkNoChildReferences store schema values (catalog.childrenReferencing schema) =
        checkNoChildReferences other schema values (catalog.childrenReferencing schema) :=
    checkNoChildReferences_congr same values fun reference here =>
      (mem_childrenReferencing.mp here).2.1
  simp only [foreign, children]

end Admission

/-! ## How a row is turned down -/

section Failures

variable
  {catalog : Catalog}
  {schema : Schema}
  {store : Store}
  {values : Row}
  {failure : Failure}

theorem checkNotNull_error
    {columns : List (Column × Nat)}
    (failed : checkNotNull schema values columns = .error failure) :
    ∃ column, failure = .notNull column schema.name := by
  induction columns with
  | nil => cases failed
  | cons entry rest inductionHypothesis =>
      unfold checkNotNull at failed
      split at failed
      · exact ⟨_, (Except.error.inj failed).symm⟩
      · exact inductionHypothesis failed

theorem checkForeignKeys_error
    {columns : List (Column × Nat)}
    (failed : checkForeignKeys catalog store schema values columns = .error failure) :
    (∃ error, failure = .other error) ∨
      ∃ column parent parentColumn,
        failure = .noParent column schema.name parent parentColumn := by
  induction columns with
  | nil => cases failed
  | cons entry rest inductionHypothesis =>
      obtain ⟨column, position⟩ := entry
      unfold checkForeignKeys at failed
      cases foreign : column.foreignKey with
      | none =>
          rw [foreign] at failed
          exact inductionHypothesis failed
      | some key =>
          simp only [foreign] at failed
          split at failed
          · exact inductionHypothesis failed
          · cases found : parentIndex catalog key with
            | error reason =>
                rw [found] at failed
                obtain rfl := Except.error.inj failed
                unfold parentIndex at found
                grind
            | ok parent =>
                rw [found] at failed
                simp only at failed
                split at failed
                · exact inductionHypothesis failed
                · exact .inr ⟨_, _, _, (Except.error.inj failed).symm⟩

theorem checkNoChildReferences_error
    {references : List Reference}
    (failed : checkNoChildReferences store schema values references = .error failure) :
    ∃ child column, failure = .cannotModify schema.name child column := by
  induction references with
  | nil => cases failed
  | cons reference rest inductionHypothesis =>
      unfold checkNoChildReferences at failed
      split at failed
      · exact ⟨_, _, (Except.error.inj failed).symm⟩
      · exact inductionHypothesis failed

theorem bind_ok_iff
    {First Second : Type}
    {first : Except Failure First}
    {next : First → Except Failure Second}
    {result : Second} :
    (first >>= next) = .ok result ↔
      ∃ value, first = .ok value ∧ next value = .ok result := by
  cases first with
  | error failure => simp [bind, Except.bind]
  | ok value => simp [bind, Except.bind]

theorem bind_error_iff
    {First Second : Type}
    {first : Except Failure First}
    {next : First → Except Failure Second}
    {failure : Failure} :
    (first >>= next) = .error failure ↔
      first = .error failure ∨
        ∃ value, first = .ok value ∧ next value = .error failure := by
  cases first with
  | error reason => simp [bind, Except.bind]
  | ok value => simp [bind, Except.bind]

theorem mapError_ok_iff
    {Result : Type}
    {outcome : Except Error Result}
    {value : Result} :
    outcome.mapError Failure.other = .ok value ↔ outcome = .ok value := by
  cases outcome <;> simp [Except.mapError]

theorem mapError_error
    {Result : Type}
    {outcome : Except Error Result}
    (failed : outcome.mapError Failure.other = .error failure) :
    ∃ error, failure = .other error := by
  cases outcome with
  | error error => exact ⟨error, (Except.error.inj failed).symm⟩
  | ok value => cases failed

/-- An admitted row has passed every check. -/
theorem admitInsert_ok
    {evaluated : Except Error Row}
    (admission : admitInsert catalog schema store evaluated = .ok values) :
    evaluated = .ok values ∧
      checkForeignKeys catalog store schema values schema.columns.zipIdx = .ok () := by
  simp only [admitInsert, bind_ok_iff, mapError_ok_iff] at admission
  obtain ⟨found, here, _, -, _, foreign, same⟩ := admission
  obtain rfl := Except.ok.inj same
  exact ⟨here, foreign⟩

/-- A row that is turned down is not turned down as a duplicate. -/
theorem admitInsert_error
    {evaluated : Except Error Row}
    (failed : admitInsert catalog schema store evaluated = .error failure) :
    ∀ index table, failure ≠ .duplicateKey index table := by
  simp only [admitInsert, bind_error_iff] at failed
  rintro index table rfl
  rcases failed with failed | ⟨_, -, failed | ⟨_, -, failed | ⟨_, -, failed⟩⟩⟩
  · obtain ⟨_, same⟩ := mapError_error failed
    cases same
  · obtain ⟨_, same⟩ := checkNotNull_error failed
    cases same
  · rcases checkForeignKeys_error failed with ⟨_, same⟩ | ⟨_, _, _, same⟩ <;> cases same
  · cases failed

theorem admitUpdate_ok
    {reader : Reader}
    {update : Update}
    {record : Record}
    (admission :
      admitUpdate catalog schema reader update store record = .ok (some values)) :
    update.filter record.values = .ok true ∧
      assign record.values update.assignments record.values = .ok values ∧
      checkForeignKeys catalog store schema values schema.columns.zipIdx = .ok () ∧
      (parentChanged schema record.values values = true →
        checkNoChildReferences store schema record.values
          (catalog.childrenReferencing schema) = .ok ()) := by
  simp only [admitUpdate, bind_ok_iff, mapError_ok_iff] at admission
  obtain ⟨selected, filtered, admission⟩ := admission
  split at admission
  · next true_ =>
    simp only [bind_ok_iff, mapError_ok_iff] at admission
    obtain ⟨_, -, new, assigned, _, -, _, foreign, admission⟩ := admission
    split at admission
    · next changed =>
      obtain ⟨_, unreferenced, same⟩ := bind_ok_iff.mp admission
      obtain rfl := Option.some.inj (Except.ok.inj same)
      exact ⟨true_ ▸ filtered, assigned, foreign, fun _ => unreferenced⟩
    · next unchanged =>
      obtain rfl := Option.some.inj (Except.ok.inj admission)
      exact ⟨true_ ▸ filtered, assigned, foreign, fun changed => absurd changed unchanged⟩
  · cases admission

theorem admitUpdate_error
    {reader : Reader}
    {update : Update}
    {record : Record}
    (failed : admitUpdate catalog schema reader update store record = .error failure) :
    ∀ index table, failure ≠ .duplicateKey index table := by
  rintro index table rfl
  simp only [admitUpdate, bind_error_iff] at failed
  rcases failed with failed | ⟨selected, -, failed⟩
  · obtain ⟨_, same⟩ := mapError_error failed
    cases same
  split at failed
  case isFalse => cases failed
  case isTrue =>
    simp only [bind_error_iff] at failed
    rcases failed with failed | ⟨_, -, failed | ⟨_, -, failed | ⟨_, -, failed |
      ⟨_, -, failed⟩⟩⟩⟩
    · obtain ⟨_, same⟩ := mapError_error failed
      cases same
    · obtain ⟨_, same⟩ := mapError_error failed
      cases same
    · obtain ⟨_, same⟩ := checkNotNull_error failed
      cases same
    · rcases checkForeignKeys_error failed with ⟨_, same⟩ | ⟨_, _, _, same⟩ <;> cases same
    · split at failed
      case isFalse => cases failed
      case isTrue =>
        rcases bind_error_iff.mp failed with failed | ⟨_, -, failed⟩
        · obtain ⟨_, _, same⟩ := checkNoChildReferences_error failed
          cases same
        · cases failed

/-- Nor is the statement that fails with it. -/
theorem admissionFailure_plain
    {Item : Type}
    {admission : Item → Except Failure (Option Change)}
    (plain :
      ∀ item failure, admission item = .error failure →
        ∀ index table, failure ≠ .duplicateKey index table)
    (items : List Item)
    (index table : String) :
    admissionFailure admission items ≠ some (.duplicateKey index table) := by
  induction items with
  | nil => exact nofun
  | cons item rest inductionHypothesis =>
      unfold admissionFailure
      cases outcome : admission item with
      | error failure =>
          exact fun same => plain item failure outcome index table (Option.some.inj same)
      | ok _ => exact inductionHypothesis

theorem insertChange_plain
    {evaluated : Except Error Row}
    (failed : insertChange catalog schema store evaluated = .error failure) :
    ∀ index table, failure ≠ .duplicateKey index table := by
  unfold insertChange at failed
  cases outcome : admitInsert catalog schema store evaluated with
  | error reason =>
      rw [outcome] at failed
      obtain rfl := Except.error.inj failed
      exact admitInsert_error outcome
  | ok values =>
      rw [outcome] at failed
      cases failed

theorem updateChange_plain
    {reader : Reader}
    {update : Update}
    {candidate : Nat × Record}
    (failed : updateChange catalog schema reader update store candidate = .error failure) :
    ∀ index table, failure ≠ .duplicateKey index table := by
  unfold updateChange at failed
  cases outcome : admitUpdate catalog schema reader update store candidate.2 with
  | error reason =>
      rw [outcome] at failed
      obtain rfl := Except.error.inj failed
      exact admitUpdate_error outcome
  | ok found =>
      rw [outcome] at failed
      cases failed

end Failures
/-! ## The loops -/

section Loops

variable
  {catalog : Catalog}
  {schema : Schema}
  {txId : Nat}
  {store base : Store}

theorem writeAdmitted_nil
    (failure : Option Failure)
    (store : Store) :
    writeAdmitted schema txId [] failure store =
      match failure with
      | some failure => .error failure
      | none => .ok store := by
  unfold writeAdmitted writeAll
  cases failure with
  | some failure => rfl
  | none => simp only [Function.update_eq_self]

/-- The first change is written, and the rest follow from the trees it leaves. -/
theorem writeAdmitted_cons
    (change : Change)
    (rest : List Change)
    (failure : Option Failure)
    (store : Store) :
    writeAdmitted schema txId (change :: rest) failure store =
      match writeVersion schema txId change.new change.oldValues
          (replaced txId change (store schema.name)) with
      | .error duplicate => .error duplicate
      | .ok trees =>
          writeAdmitted schema txId rest failure
            (Function.update store schema.name trees) := by
  unfold writeAdmitted
  simp only [writeAll]
  cases writeVersion schema txId change.new change.oldValues
      (replaced txId change (store schema.name)) with
  | error duplicate => rfl
  | ok trees => simp only [Function.update_self, Function.update_idem]

theorem insertRows_eq
    (listed : schema ∈ catalog.tables)
    (same : SameOthers schema.name store base)
    (rows : List (Except Error Row)) :
    insertRows catalog schema txId rows store =
      writeAdmitted schema txId
        (admitted (insertChange catalog schema base) rows)
        (admissionFailure (insertChange catalog schema base) rows) store := by
  induction rows generalizing store with
  | nil =>
      rw [admitted, admissionFailure, writeAdmitted_nil]
      rfl
  | cons evaluated rest inductionHypothesis =>
      have admission := admitInsert_congr listed same evaluated
      unfold insertRows
      rw [admission]
      cases outcome : admitInsert catalog schema base evaluated with
      | error failure =>
          simp only [admitted, admissionFailure, insertChange, outcome, Except.map]
          rw [writeAdmitted_nil]
      | ok values =>
          simp only [admitted, admissionFailure, insertChange, outcome, Except.map]
          rw [writeAdmitted_cons]
          simp only [replaced, Change.oldValues, Option.map_none]
          cases writeVersion schema txId values none (store schema.name) with
          | error duplicate => rfl
          | ok trees => exact inductionHypothesis (same.update trees)

theorem updateRows_eq
    (reader : Reader)
    (update : Update)
    (listed : schema ∈ catalog.tables)
    (same : SameOthers schema.name store base)
    (candidates : List (Nat × Record)) :
    updateRows catalog schema reader txId update candidates store =
      writeAdmitted schema txId
        (admitted (updateChange catalog schema reader update base) candidates)
        (admissionFailure (updateChange catalog schema reader update base) candidates)
        store := by
  induction candidates generalizing store with
  | nil =>
      rw [admitted, admissionFailure, writeAdmitted_nil]
      rfl
  | cons candidate rest inductionHypothesis =>
      have admission := admitUpdate_congr listed same reader update candidate.2
      unfold updateRows
      rw [admission]
      cases outcome : admitUpdate catalog schema reader update base candidate.2 with
      | error failure =>
          simp only [admitted, admissionFailure, updateChange, outcome, Except.map]
          rw [writeAdmitted_nil]
      | ok found =>
          cases found with
          | none =>
              simp only [admitted, admissionFailure, updateChange, outcome, Except.map,
                Option.map_none]
              exact inductionHypothesis same
          | some new =>
              simp only [admitted, admissionFailure, updateChange, outcome, Except.map,
                Option.map_some]
              rw [writeAdmitted_cons]
              simp only [replaced, Change.oldValues, Option.map_some]
              cases writeVersion schema txId new (some candidate.2.values)
                  (tombstone txId candidate (store schema.name)) with
              | error duplicate => rfl
              | ok trees => exact inductionHypothesis (same.update trees)

end Loops

/-! ## The candidates of an `UPDATE` -/

theorem search_mem
    {trees : Trees}
    {rowid : Nat}
    {record : Record}
    (found : trees.search rowid = some record) :
    (rowid, record) ∈ trees.rows := by
  obtain ⟨row, sought, rfl⟩ := Option.map_eq_some_iff.mp found
  have matched := List.find?_some sought
  obtain rfl : row.1 = rowid := by simpa using matched
  exact List.mem_of_find?_eq_some sought

theorem indexCandidates_spec
    {reader : Reader}
    {trees : Trees}
    {seen : List Nat}
    {entries : List (List UInt8 × Nat)}
    {candidates : List (Nat × Record)}
    (collected : indexCandidates reader trees seen entries = .ok candidates) :
    (∀ candidate ∈ candidates,
        candidate ∈ trees.rows ∧ reader.sees candidate.2 = true ∧ candidate.1 ∉ seen) ∧
      (candidates.map Prod.fst).Nodup := by
  induction entries generalizing seen candidates with
  | nil =>
      obtain rfl : [] = candidates := Except.ok.inj collected
      exact ⟨nofun, List.nodup_nil⟩
  | cons entry rest inductionHypothesis =>
      obtain ⟨key, rowid⟩ := entry
      unfold indexCandidates at collected
      split at collected
      case isTrue => exact inductionHypothesis collected
      case isFalse unseen =>
        cases found : trees.search rowid with
        | none =>
            rw [found] at collected
            cases collected
        | some record =>
            rw [found] at collected
            cases later : indexCandidates reader trees (rowid :: seen) rest with
            | error failure =>
                rw [later] at collected
                cases collected
            | ok others =>
                obtain ⟨facts, distinct⟩ := inductionHypothesis later
                have others_ok (candidate : Nat × Record) (here : candidate ∈ others) :
                    candidate ∈ trees.rows ∧ reader.sees candidate.2 = true ∧
                      candidate.1 ∉ seen := by
                  obtain ⟨listed, visible, fresh⟩ := facts candidate here
                  exact ⟨listed, visible, fun old => fresh (List.mem_cons_of_mem _ old)⟩
                rw [later] at collected
                have shape := Except.ok.inj collected
                split at shape
                case isTrue visible =>
                  rw [← shape]
                  refine ⟨?_, ?_⟩
                  · intro candidate here
                    rcases List.mem_cons.mp here with rfl | later
                    · exact ⟨search_mem found, visible, unseen⟩
                    · exact others_ok candidate later
                  · refine List.nodup_cons.mpr ⟨?_, distinct⟩
                    intro repeated
                    obtain ⟨candidate, here, rowids⟩ := List.mem_map.mp repeated
                    exact (facts candidate here).2.2 (rowids ▸ List.mem_cons_self)
                case isFalse =>
                  rw [← shape]
                  exact ⟨others_ok, distinct⟩

theorem collectCandidates_spec
    {schema : Schema}
    {reader : Reader}
    {trees : Trees}
    {access : AccessPath}
    {candidates : List (Nat × Record)}
    (stored : Stored schema trees)
    (collected : collectCandidates reader trees access = .ok candidates) :
    (∀ candidate ∈ candidates,
        candidate ∈ trees.rows ∧ reader.sees candidate.2 = true) ∧
      (candidates.map Prod.fst).Nodup := by
  cases access with
  | fullScan =>
      obtain rfl := Except.ok.inj collected
      refine ⟨fun candidate here => List.mem_filter.mp here, ?_⟩
      exact stored.rowids.sublist (List.filter_sublist.map Prod.fst)
  | indexScan index lower upper =>
      obtain ⟨facts, distinct⟩ := indexCandidates_spec collected
      exact ⟨fun candidate here =>
        ⟨(facts candidate here).1, (facts candidate here).2.1⟩, distinct⟩

end PrehniteDB.Constraints
