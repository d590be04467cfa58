import PrehniteDB.Constraints
import PrehniteDB.JoinReads

namespace PrehniteDB.Constraints

open Joins (valueEncoding column_eq)
open ReadPaths (ForeignKeyTarget IndexTree)

/-!
# The checks of a row as they are pulled

A statement probes indexes and related tables through streams.  Over the trees that the
row is checked against, each stream answers what the check answers.
-/

/-- The index tree of a read path holds the keys of the index. -/
structure Keys (table : ReadPaths.Table Value) (trees : Trees) (tree : IndexTree) (index : Index) :
    Prop where
  name : tree.name = index.name
  columns : tree.columns = index.columns
  unique : tree.unique = index.unique
  keys : table.keysOf tree.root = trees.entries index.name

/-- The table of a read path is the one under this schema, as its trees stand. -/
structure Shows (table : ReadPaths.Table Value) (schema : Schema) (trees : Trees) : Prop where
  name : table.name = schema.name
  indexes : List.Forall₂ (Keys table trees) table.indexes schema.indexes
  rows : table.rows.map (fun row => row.2.values) = trees.rows.map fun row => row.2.values

variable
  {table : ReadPaths.Table Value}
  {schema : Schema}
  {trees : Trees}
  {values old : Row}
  {value : Value}

theorem indexHasValue_answers
    {tree : IndexTree}
    {index : Index}
    (keys : Keys table trees tree index)
    (encoded : List UInt8) :
    (ReadPaths.indexHasValue table tree.root encoded).answers =
      .ok [trees.indexHasValue index encoded] := by
  rw [ReadPaths.indexHasValue, keys.keys]
  rfl

theorem needsProbe_iff (tree : IndexTree) :
    (tree.unique = true ∧
        ¬ (tree.columns.any fun position =>
            valueEncoding.isNull (ReadPaths.column valueEncoding values position)) = true ∧
          ¬ (tree.columns.all fun position =>
              valueEncoding.equal (ReadPaths.column valueEncoding values position)
                (ReadPaths.column valueEncoding old position)) = true) ↔
      needsProbe tree.unique tree.columns values (some old) = true := by
  simp only [column_eq]
  simp only [valueEncoding, needsProbe, Option.any_some, Bool.and_eq_true, Bool.not_eq_true',
    Bool.not_eq_true, and_assoc]

/-- The duplicate checks of some indexes, in their order. -/
theorem checkUnique_answers
    (named : table.name = schema.name)
    (next : ReadPaths.Stream Row)
    {treeList : List IndexTree}
    {indexes : List Index}
    (keyed : List.Forall₂ (Keys table trees) treeList indexes) :
    (ReadPaths.checkUnique valueEncoding table old values next treeList).answers =
      (forM indexes (checkUnique schema trees values (some old))).mapError Failure.error >>=
        fun _ => next.answers := by
  induction keyed with
  | nil => rfl
  | @cons tree index treeRest rest keys _ inductionHypothesis =>
      rw [List.forM_cons, ReadPaths.checkUnique, checkUnique, ← keys.unique, ← keys.columns]
      by_cases needed : needsProbe tree.unique tree.columns values (some old) = true
      · rw [if_pos ((needsProbe_iff tree).mpr needed), needed, Bool.true_and,
          PullStream.answers_bind_single (indexHasValue_answers keys _)]
        have encoded :
            (tree.columns.flatMap fun position =>
                valueEncoding.encodeIndexValue
                  (ReadPaths.column valueEncoding values position)) =
              encodeIndexValuePrefix values tree.columns :=
          List.flatMap_congr fun position _ => congrArg encodeIndexValue (column_eq _ _)
        rw [encoded]
        cases trees.indexHasValue index (encodeIndexValuePrefix values tree.columns) with
        | false => exact inductionHypothesis
        | true =>
            rw [keys.name, named]
            rfl
      · rw [if_neg fun both => needed ((needsProbe_iff tree).mp both),
          Bool.not_eq_true _ |>.mp needed]
        exact inductionHypothesis

/-- The first tree over the columns of the first index over them. -/
theorem find_keys
    {treeList : List IndexTree}
    {indexes : List Index}
    (keyed : List.Forall₂ (Keys table trees) treeList indexes)
    (suits : Bool → List Nat → Bool) :
    Option.Rel (Keys table trees)
      (treeList.find? fun tree => suits tree.unique tree.columns)
      (indexes.find? fun index => suits index.unique index.columns) := by
  induction keyed with
  | nil => exact .none
  | @cons tree index treeRest rest keys _ inductionHypothesis =>
      rw [List.find?_cons, List.find?_cons, keys.unique, keys.columns]
      cases suits index.unique index.columns with
      | true => exact .some keys
      | false => exact inductionHypothesis

theorem walkForFkValue_answers
    (tableRoot : UInt32)
    (position : Nat)
    (rows : List (Nat × ReadPaths.Record Value)) :
    (ReadPaths.walkForFkValue valueEncoding tableRoot position value rows).answers =
      .ok [(rows.map fun row => row.2.values).any fun row =>
        (column row position).equal value] := by
  induction rows with
  | nil => rfl
  | cons row rest inductionHypothesis =>
      rw [ReadPaths.walkForFkValue, PullStream.answers, column_eq, List.map_cons, List.any_cons]
      change _ = Except.ok [valueEncoding.equal (column row.2.values position) value || _]
      cases valueEncoding.equal (column row.2.values position) value with
      | true => rfl
      | false => exact inductionHypothesis

/-- The child of a read path is this reference, as its trees stand. -/
structure Refers (store : Store) (child : ReadPaths.Child Value) (reference : Reference) : Prop where
  shows : Shows child.table reference.child (store reference.child.name)
  column : child.column = reference.childIdx
  parentColumn : child.parentColumn = reference.parentIdx
  declared : child.table.columnName child.column = reference.column.name

theorem scanChildForFkValue_answers
    {store : Store}
    {child : ReadPaths.Child Value}
    {reference : Reference}
    (refers : Refers store child reference) :
    (ReadPaths.scanChildForFkValue valueEncoding child value).answers =
      .ok [scanChildForFkValue store reference value] := by
  have found := find_keys refers.shows.indexes fun _ columns =>
    decide (columns = [reference.childIdx])
  simp only [ReadPaths.scanChildForFkValue, scanChildForFkValue, refers.column]
  generalize (child.table.indexes.find? fun tree =>
    decide (tree.columns = [reference.childIdx])) = tree at found ⊢
  generalize (reference.child.indexes.find? fun index =>
    decide (index.columns = [reference.childIdx])) = index at found ⊢
  cases found with
  | none => exact (walkForFkValue_answers _ _ _).trans (by rw [refers.shows.rows]; rfl)
  | some keys => exact indexHasValue_answers keys _

/-- The checks of a row that is taken away from under the references to it. -/
theorem checkNoChildReferences_answers
    {store : Store}
    (named : table.name = schema.name)
    (next : ReadPaths.Stream Row)
    {children : List (ReadPaths.Child Value)}
    {references : List Reference}
    (refer : List.Forall₂ (Refers store) children references) :
    (ReadPaths.checkNoChildReferences valueEncoding table values next children).answers =
      (checkNoChildReferences store schema values references).mapError Failure.error >>=
        fun _ => next.answers := by
  induction refer with
  | nil => rfl
  | @cons child reference childRest rest refers _ inductionHypothesis =>
      rw [ReadPaths.checkNoChildReferences, checkNoChildReferences, column_eq,
        refers.parentColumn,
        PullStream.answers_bind_single (scanChildForFkValue_answers refers)]
      cases scanChildForFkValue store reference (column values reference.parentIdx) with
      | false => exact inductionHypothesis
      | true =>
          rw [if_pos rfl, if_pos rfl, named, refers.declared, refers.shows.name]
          rfl

/-- The foreign keys of a read path are those the columns declare, each with its parent. -/
inductive Declares (catalog : Catalog) (store : Store) (table : ReadPaths.Table Value) :
    List (ReadPaths.ForeignKey Value) → List (Column × Nat) → Prop where
  | nil : Declares catalog store table [] []
  | plain
      {keys : List (ReadPaths.ForeignKey Value)}
      {declared : Column}
      {position : Nat}
      {rest : List (Column × Nat)}
      (none : declared.foreignKey = none)
      (later : Declares catalog store table keys rest) :
      Declares catalog store table keys ((declared, position) :: rest)
  | key
      {key : ReadPaths.ForeignKey Value}
      {keys : List (ReadPaths.ForeignKey Value)}
      {declared : Column}
      {rest : List (Column × Nat)}
      {target : ForeignKeyTarget}
      {parent : Schema}
      (foreign : declared.foreignKey = some target)
      (named : table.columnName key.column = declared.name)
      (found : catalog.get target.table = some parent)
      (position : parent.columnIndex target.column = some key.parentColumn)
      (shows : Shows key.parent parent (store parent.name))
      (parentNamed : key.parent.name = target.table)
      (columnNamed : key.parent.columnName key.parentColumn = target.column)
      (later : Declares catalog store table keys rest) :
      Declares catalog store table (key :: keys) ((declared, key.column) :: rest)

/-- The lookups of a row's foreign keys. -/
theorem checkForeignKeys_answers
    {catalog : Catalog}
    {store : Store}
    (named : table.name = schema.name)
    (next : ReadPaths.Stream Row)
    {keys : List (ReadPaths.ForeignKey Value)}
    {columns : List (Column × Nat)}
    (declares : Declares catalog store table keys columns) :
    (ReadPaths.checkForeignKeys valueEncoding table values next keys).answers =
      (checkForeignKeys catalog store schema values columns).mapError Failure.error >>=
        fun _ => next.answers := by
  induction declares with
  | nil => rfl
  | plain none _ inductionHypothesis =>
      rw [checkForeignKeys, none]
      exact inductionHypothesis
  | @key key keys declared rest target parent foreign columnName found position shows
      parentNamed parentColumn _ inductionHypothesis =>
      have sides := find_keys shows.indexes fun unique columns =>
        unique && decide (columns = [key.parentColumn])
      simp only [ReadPaths.checkForeignKeys, checkForeignKeys, foreign, column_eq]
      change (if (column values key.column).isNull = true then _ else _ :
        ReadPaths.Stream Row).answers = _
      split_ifs with null
      · exact inductionHypothesis
      · simp only [parentIndex, found, position, Schema.uniqueIndex, Bool.decide_and,
          Bool.decide_eq_true]
        generalize (key.parent.indexes.find? fun tree =>
          tree.unique && decide (tree.columns = [key.parentColumn])) = tree at sides ⊢
        generalize (parent.indexes.find? fun index =>
          index.unique && decide (index.columns = [key.parentColumn])) = index at sides ⊢
        cases sides with
        | none =>
            simp only [parentNamed, parentColumn]
            rfl
        | @some tree index keys =>
            refine (PullStream.answers_bind_single (indexHasValue_answers keys _) _).trans ?_
            change (if (store parent.name).indexHasValue index
                (encodeIndexValue (column values key.column)) = true then _ else _ :
              ReadPaths.Stream Row).answers = _
            dsimp only
            cases (store parent.name).indexHasValue index
                (encodeIndexValue (column values key.column)) with
            | true => exact inductionHypothesis
            | false =>
                simp only [columnName, named, parentNamed, parentColumn]
                rfl

end PrehniteDB.Constraints
