import PrehniteDB.JoinAgreement

namespace PrehniteDB.BuildingIndexes

open AccessPaths (AccessPath Index OrderKey Schema Version bestIndex better chooseAccess)
open Joins
open ReadPaths (JoinKind keysHaveValue prefixUpperBound)

/-!
# Reading beside an index that is being built

Between the first and the last phase of `CREATE INDEX` the schema lists an index
whose tree holds entries of some of the table's versions.  Here are the places
that pick an index, each on the schema with such indexes and without them.
-/

/-- The schema without the indexes that are being built. -/
def finished (schema : Schema) : Schema :=
  { schema with indexes := schema.indexes.filter fun index => !index.isBuilding }

/-- A table while indexes are built on it. -/
structure State (schema : Schema) extends AccessPaths.Table schema where
  width : ∀ version ∈ versions, version.values.length = schema.columns.length
  /-- The index at this root is a `UNIQUE` or a `PRIMARY KEY` one. -/
  unique : UInt32 → Bool
  /-- `CREATE INDEX` builds plain indexes. -/
  plain : ∀ index ∈ schema.indexes, index.isBuilding = true → unique index.root = false
  /-- Each index has a tree of its own. -/
  apart : (schema.indexes.map Index.root).Nodup
  /-- What the index holds so far are entries of the table. -/
  partly :
    ∀ index ∈ schema.indexes,
      index.isBuilding = true →
        ∀ key ∈ trees index.root, ∃ version ∈ versions, key = index.key version

namespace State

variable {schema : Schema}

/-- The schema with no index building. -/
def finished (table : State schema) : State (finished schema) where
  versions := table.versions
  trees := table.trees
  keyed := table.keyed
  typed := table.typed
  indexed := fun index listed => table.indexed index (List.mem_filter.mp listed).1
  width := table.width
  unique := table.unique
  plain := fun index listed => table.plain index (List.mem_filter.mp listed).1
  apart := table.apart.sublist (List.filter_sublist.map Index.root)
  partly := fun index listed => table.partly index (List.mem_filter.mp listed).1

/-- The same table with other entries in the indexes that are being built. -/
structure Beside (table other : State schema) : Prop where
  versions : other.versions = table.versions
  trees :
    ∀ index ∈ schema.indexes,
      index.isBuilding = false → other.trees index.root = table.trees index.root

section Filled

variable (table : State schema)

/-- The entries of an unfinished index when it has all of them, or none. -/
def contents (full : Bool) (root : UInt32) : List (List UInt8) :=
  match schema.indexes.find? fun index => index.isBuilding && decide (index.root = root) with
  | some index => if full then table.versions.map index.key else []
  | none => table.trees root

theorem contents_unfinished
    (full : Bool)
    {index : Index}
    (listed : index ∈ schema.indexes)
    (building : index.isBuilding = true) :
    table.contents full index.root = if full then table.versions.map index.key else [] := by
  unfold contents
  cases found : schema.indexes.find? fun other =>
      other.isBuilding && decide (other.root = index.root) with
  | none =>
      have absent := List.find?_eq_none.mp found index listed
      simp [building] at absent
  | some other =>
      have suited := List.find?_some found
      simp only [Bool.and_eq_true, decide_eq_true_eq] at suited
      have same : other = index :=
        List.inj_on_of_nodup_map table.apart (List.mem_of_find?_eq_some found) listed suited.2
      rw [same]

theorem contents_finished
    (full : Bool)
    {index : Index}
    (listed : index ∈ schema.indexes)
    (complete : index.isBuilding = false) :
    table.contents full index.root = table.trees index.root := by
  unfold contents
  rw [List.find?_eq_none.mpr]
  intro other otherListed suited
  simp only [Bool.and_eq_true, decide_eq_true_eq] at suited
  have same : other = index :=
    List.inj_on_of_nodup_map table.apart otherListed listed suited.2
  rw [same, complete] at suited
  cases suited.1

/-- What stands in an unfinished index is the entry of a stored row. -/
theorem contents_partly
    (full : Bool)
    (index : Index)
    (listed : index ∈ schema.indexes)
    (building : index.isBuilding = true)
    (key : List UInt8)
    (entry : key ∈ table.contents full index.root) :
    ∃ version ∈ table.versions, key = index.key version := by
  rw [contents_unfinished table full listed building] at entry
  cases full with
  | false => cases entry
  | true =>
      obtain ⟨version, stored, rfl⟩ := List.mem_map.mp entry
      exact ⟨version, stored, rfl⟩

theorem contents_indexed
    (full : Bool)
    (index : Index)
    (listed : index ∈ schema.indexes)
    (complete : index.isBuilding = false) :
    (table.contents full index.root).Perm (table.versions.map index.key) := by
  rw [contents_finished table full listed complete]
  exact table.indexed index listed complete

/-- The table with all the entries in the unfinished indexes, or none. -/
def filled (full : Bool) : State schema where
  versions := table.versions
  trees := table.contents full
  keyed := table.keyed
  typed := table.typed
  indexed := contents_indexed table full
  width := table.width
  unique := table.unique
  plain := table.plain
  apart := table.apart
  partly := contents_partly table full

end Filled

end State

/-! ## The join steps of a `FROM` -/

variable {Query : Type}

/-- A join and what it reads. -/
structure Join (Query : Type) where
  schema : Schema
  table : State schema
  qualifier : String
  kind : JoinKind
  on : Option (Expr Query)

namespace Join

def finished (join : Join Query) : Join Query :=
  { join with
    schema := BuildingIndexes.finished join.schema
    table := join.table.finished }

/-- The columns of the combined rows. -/
def combined (scope : Scope) (join : Join Query) : Scope :=
  scope ++ join.schema.scope join.qualifier

/-- Semi- and anti-joins hand out left rows alone. -/
def onlyLeft (join : Join Query) : Bool := join.kind = .semi || join.kind = .anti

/-- The columns behind the join. -/
def outScope (scope : Scope) (join : Join Query) : Scope :=
  if join.onlyLeft then scope else join.combined scope

def width (join : Join Query) : Nat := join.schema.columns.length

def rows (join : Join Query) : List Row := innerRows join.table.toTable

/-- The outer column and the index of an index join. -/
def indexJoin (scope : Scope) (join : Join Query) : Option (ColumnRef × UInt32) :=
  if join.onlyLeft then none
  else
    join.on.bind fun on =>
      findIndexJoin on scope.length (join.combined scope) join.schema

/-- The columns of a hash join. -/
def equiJoin (scope : Scope) (join : Join Query) : Option (Nat × Nat) :=
  if join.onlyLeft then none
  else join.on.bind fun on => findEquiJoin on scope.length (join.combined scope)

/--
One step of `build_from`; of `select_vectorised` when columnar.  How the rows
are cut into batches does not show in what comes out.
-/
def step
    (columnar : Bool)
    (hasher : List UInt8 → Nat)
    (scope : Scope)
    (join : Join Query)
    (left : List Row) : Except Error (List Row) :=
  let types := typesOf (join.combined scope)
  match join.indexJoin scope with
  | some (key, root) =>
      indexNestedLoopJoin (join.combined scope) join.on join.kind join.width scope
        join.table.toTable key root left
  | none =>
      match join.equiJoin scope with
      | some (probeCol, buildCol) =>
          if columnar then
            (batchHashJoin (join.combined scope) join.on join.kind join.width types
              probeCol buildCol [left] [join.rows]).map List.flatten
          else
            graceHashJoin (join.combined scope) join.on join.kind join.width hasher
              scope.length probeCol buildCol left join.rows
      | none =>
          if columnar && !join.onlyLeft then
            (batchNestedLoopJoin (join.combined scope) join.on join.kind join.width types
              [left] [join.rows]).map List.flatten
          else
            nestedLoopJoin (join.combined scope) join.on join.kind join.width left join.rows

end Join

/-! ## The rows a step looks at -/

/-- The index of an index join, and the columns of its equality. -/
structure Pick where
  key : ColumnRef
  keyAt : Nat
  inner : Nat
  index : Index

/-- The sides of an equality, the joined one over an index. -/
def pickSides
    (scope : Scope)
    (leftLen : Nat)
    (joined : Schema)
    (left right : Expr Query) : Option Pick := do
  let (key, keyAt, inner) ← equiSides scope leftLen left right
  let index ← joined.indexes.find? fun index => index.columns.head? = some inner
  some { key := key, keyAt := keyAt, inner := inner, index := index }

def Join.pick (scope : Scope) (join : Join Query) : Option Pick :=
  if join.onlyLeft then none
  else
    join.on.bind
      (findEquality (pickSides (join.combined scope) scope.length join.schema))

/-- Whether the step compares the left row with this version of the joined table. -/
def Join.looksAt (scope : Scope) (join : Join Query) (row : Row) (version : Version) : Bool :=
  match join.pick scope with
  | some pick =>
      sameKey pick.keyAt pick.inner row version.values &&
        decide (pick.index.key version ∈ join.table.trees pick.index.root)
  | none =>
      match join.equiJoin scope with
      | some (probeCol, buildCol) => sameKey probeCol buildCol row version.values
      | none => true

/-- The versions the reader sees. -/
def Join.visible (join : Join Query) : List Version :=
  join.table.versions.filter Version.visible

/-- The inner rows the join looks at. -/
def Join.candidates (scope : Scope) (join : Join Query) (row : Row) : List Row :=
  (join.visible.filter (join.looksAt scope row)).map Version.values

/-- The join on the same table with other entries in the unfinished indexes. -/
def Join.over (join : Join Query) (other : State join.schema) : Join Query :=
  { join with table := other }

/-- Whether the step would compare the two rows if every index had all its entries. -/
def Join.meets (scope : Scope) (join : Join Query) (row inner : Row) : Bool :=
  match join.pick scope with
  | some pick => sameKey pick.keyAt pick.inner row inner
  | none =>
      match join.equiJoin scope with
      | some (probeCol, buildCol) => sameKey probeCol buildCol row inner
      | none => true

/-- The step looks no index up, or a finished one. -/
def Join.Unpicked (scope : Scope) (join : Join Query) : Prop :=
  ∀ pick ∈ join.pick scope, pick.index.isBuilding = false

/--
`ON` rejects every pair of rows that meet in the columns of the picked index, or
in those by which the step would go without the unfinished indexes.
-/
def Join.Quiet (scope : Scope) (join : Join Query) (left : List Row) : Prop :=
  ∀ row ∈ left, ∀ inner ∈ join.rows,
    (join.meets scope row inner || join.finished.meets scope row inner) = true →
      passesFilter join.on (join.combined scope) (row ++ inner) = .ok false

/-- What must hold of the rows before a step for the unfinished indexes not to show. -/
def Join.Clear (scope : Scope) (join : Join Query) (left : List Row) : Prop :=
  join.Unpicked scope ∨ join.Quiet scope left

instance (scope : Scope) (join : Join Query) : Decidable (join.Unpicked scope) :=
  inferInstanceAs (Decidable (∀ pick ∈ join.pick scope, _))

instance (scope : Scope) (join : Join Query) (left : List Row) :
    Decidable (join.Quiet scope left) :=
  inferInstanceAs (Decidable (∀ row ∈ left, _))

instance (scope : Scope) (join : Join Query) (left : List Row) :
    Decidable (join.Clear scope left) :=
  inferInstanceAs (Decidable (_ ∨ _))

/-! ## The whole `FROM` -/

/-- `joins_vectorisable`: a join that would look an index up keeps the row operators. -/
def joinsVectorisable : Scope → List (Join Query) → Bool
  | _, [] => true
  | scope, join :: rest =>
      !join.onlyLeft && (scope.all fun column => column.table ≠ join.qualifier) &&
        (join.indexJoin scope).isNone && joinsVectorisable (join.outScope scope) rest

/-- The rows of the joins, over the rows of the base table. -/
def joinRows
    (columnar : Bool)
    (hasher : List UInt8 → Nat) :
    Scope → List (Join Query) → List Row → Except Error (List Row)
  | _, [], rows => .ok rows
  | scope, join :: rest, rows =>
      if scope.any fun column => column.table = join.qualifier then
        .error (.exec
          ("table name or alias '" ++ join.qualifier ++ "' is used twice in FROM"))
      else do
        let next ← join.step columnar hasher scope rows
        joinRows columnar hasher (join.outScope scope) rest next

/-- The rows of a `FROM`; the query may have other reasons to stay with row operators. -/
def fromRows
    (wanted : Bool)
    (hasher : List UInt8 → Nat)
    (scope : Scope)
    (joins : List (Join Query))
    (rows : List Row) : Except Error (List Row) :=
  joinRows (wanted && joinsVectorisable scope joins) hasher scope joins rows

/-- An index is looked for when one table is read alone. -/
def selectAccess
    (schema : Schema)
    (joins : List (Join Query))
    (filter : Option (Expr Query))
    (orderBy : List OrderKey) : AccessPath × Bool :=
  if joins.isEmpty then chooseAccess (some schema) filter orderBy else (.fullScan, false)

/-- The rows a `SELECT` filters. -/
def selectRows
    {schema : Schema}
    (base : State schema)
    (qualifier : String)
    (wanted : Bool)
    (hasher : List UInt8 → Nat)
    (joins : List (Join Query))
    (filter : Option (Expr Query))
    (orderBy : List OrderKey) : Except Error (List Row) := do
  let versions ← base.scan (selectAccess schema joins filter orderBy).1
  fromRows wanted hasher (schema.scope qualifier) joins (versions.map Version.values)

/-- Every step of a run is clear of the unfinished indexes, over rows that a spill file holds. -/
def RunClear
    (columnar : Bool)
    (hasher : List UInt8 → Nat) :
    Scope → List (Join Query) → List Row → Prop
  | _, [], _ => True
  | scope, join :: rest, rows =>
      (∀ row ∈ rows ++ join.rows, Spillable row) ∧ join.Clear scope rows ∧
        ∀ next,
          join.step columnar hasher scope rows = .ok next →
            RunClear columnar hasher (join.outScope scope) rest next

/-- The steps of a query are clear of the unfinished indexes, over the rows of the base table. -/
def SelectClear
    {schema : Schema}
    (base : State schema)
    (qualifier : String)
    (wanted : Bool)
    (hasher : List UInt8 → Nat)
    (joins : List (Join Query)) : Prop :=
  RunClear (wanted && joinsVectorisable (schema.scope qualifier) joins) hasher
    (schema.scope qualifier) joins
    ((base.versions.filter Version.visible).map Version.values)

/-! ## Probes of one key -/

section Probes

variable {schema : Schema} (table : State schema)

/-- Whether the index holds the value. -/
def indexHasValue (index : Index) (encoded : List UInt8) : Bool :=
  keysHaveValue (table.trees index.root) encoded

/-- `scan_child_for_fk_value`. -/
def scanChildForFkValue (childIdx : Nat) (parentValue : Value) : Bool :=
  let index := schema.indexes.find? fun index => index.columns = [childIdx]
  childHasValue (index.map fun index => table.trees index.root)
    (table.versions.map AccessPaths.Version.values) childIdx parentValue

/-- The root in which a foreign key looks for its parent. -/
def parentIndexRoot (parentIdx : Nat) : Option UInt32 :=
  (schema.indexes.find? fun index =>
    table.unique index.root && decide (index.columns = [parentIdx])).map Index.root

/-- The unique index that already holds the values of a row that is written. -/
def duplicateKey (values : List Value) (oldValues : Option (List Value)) : Option Index :=
  schema.indexes.find? fun index =>
    needsProbe (table.unique index.root) index.columns values oldValues &&
      indexHasValue table index (encodeIndexValuePrefix values index.columns)

/--
A child probe goes by no unfinished index, or no version of the child shows the
value to it.
-/
def ProbeClear (childIdx : Nat) (parentValue : Value) : Prop :=
  ∀ index ∈ schema.indexes.find? (fun index => index.columns = [childIdx]),
    index.isBuilding = true →
      ∀ version ∈ table.versions,
        column version.values childIdx ≠ parentValue ∧
          (((finished schema).indexes.any fun index => index.columns = [childIdx]) = true ∨
            (column version.values childIdx).equal parentValue = false)

instance (childIdx : Nat) (parentValue : Value) :
    Decidable (ProbeClear table childIdx parentValue) :=
  inferInstanceAs (Decidable (∀ index ∈ List.find? _ _, _))

end Probes

/-- A foreign key onto the row that is deleted or changed, and the value it refers to. -/
structure Reference where
  schema : Schema
  table : State schema
  child : String
  column : String
  childIdx : Nat
  parentValue : Value

def Reference.finished (reference : Reference) : Reference :=
  { reference with
    schema := BuildingIndexes.finished reference.schema
    table := reference.table.finished }

/-- `check_no_child_references`. -/
def checkNoChildReferences (parent : String) : List Reference → Except Error Unit
  | [] => .ok ()
  | reference :: rest =>
      if scanChildForFkValue reference.table reference.childIdx reference.parentValue then
        .error (.exec
          ("FOREIGN KEY violation: cannot modify '" ++ parent ++ "." ++ reference.column ++
            "' — row is referenced by '" ++ reference.child ++ "." ++ reference.column ++ "'"))
      else checkNoChildReferences parent rest

end PrehniteDB.BuildingIndexes
