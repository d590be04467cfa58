import PrehniteDB.KeyOrder

namespace PrehniteDB.AccessPaths

open ReadPaths (ColumnType prefixUpperBound)

/-!
# The access path of a single table

The conjuncts of a `WHERE` that compare a column with a literal are matched
against the indexes of the table, by the leftmost-prefix rule.
-/

structure Column where
  name : String
  type : ColumnType
  deriving Repr, DecidableEq

structure Index where
  columns : List Nat
  root : UInt32
  /-- `CREATE INDEX` has listed it and not yet filled it. -/
  isBuilding : Bool
  deriving Repr, DecidableEq

/-- What the choice of an access path reads. -/
structure Schema where
  columns : List Column
  indexes : List Index
  deriving Repr, DecidableEq

def Schema.columnIndex (schema : Schema) (name : String) : Option Nat :=
  schema.columns.findIdx? fun column => column.name = name

/-- The scope of the table under its alias or its name. -/
def Schema.scope (schema : Schema) (qualifier : String) : Scope :=
  schema.columns.map fun column =>
    { table := qualifier, name := column.name, type := column.type }

/-- How the rows of a table are found. -/
inductive AccessPath where
  | fullScan
  | indexScan (root : UInt32) (lower : List UInt8) (upper : Option (List UInt8))
  deriving Repr, DecidableEq

/-- One column of an `ORDER BY`. -/
structure OrderKey where
  column : ColumnRef
  descending : Bool
  deriving Repr, DecidableEq

/-! ## Predicates on one column -/

/-- What a predicate asks of its column. -/
inductive PredKind where
  | eq (value : Value)
  /-- `col > value`, or `col >= value` when inclusive. -/
  | lower (value : Value) (inclusive : Bool)
  /-- `col < value`, or `col <= value` when inclusive. -/
  | upper (value : Value) (inclusive : Bool)
  deriving Repr, DecidableEq

/-- A predicate on one column. -/
structure ColumnPredicate where
  column : Nat
  kind : PredKind
  deriving Repr, DecidableEq

/-- `NULL` fits anywhere, and an integer widens into a `REAL` column. -/
def coerce : Value → ColumnType → Except Error Value
  | .null, _ => .ok .null
  | .int number, .int => .ok (.int number)
  | .int number, .real => .ok (.real (realOfInt number))
  | .real bits, .real => .ok (.real bits)
  | .text string, .text => .ok (.text string)
  | .bool truth, .bool => .ok (.bool truth)
  | other, target =>
      .error (.exec
        ("cannot store " ++ other.typeName ++ " in a " ++ ColumnType.display target ++
          " column"))

variable {Query : Type}

/-- The value of a literal, `NULL` aside. -/
def literalValue : Expr Query → Option Value
  | .integer number => some (.int number)
  | .real bits => some (.real bits)
  | .str string => some (.text string)
  | .bool truth => some (.bool truth)
  | _ => none

/-- The comparison read from the other side. -/
def flipOp : ComparisonOp → ComparisonOp
  | .lt => .gt
  | .ltEq => .gtEq
  | .gt => .lt
  | .gtEq => .ltEq
  | other => other

/-- The column, the literal and the comparison, with the column on the left. -/
def orient :
    ComparisonOp → Expr Query → Expr Query → Option (ColumnRef × Value × ComparisonOp)
  | op, .column ref, other => (literalValue other).map fun literal => (ref, literal, op)
  | op, other, .column ref =>
      (literalValue other).map fun literal => (ref, literal, flipOp op)
  | _, _, _ => none

/-- `column op value` as a predicate; `<>` is none. -/
def predKind (value : Value) : ComparisonOp → Option PredKind
  | .eq => some (.eq value)
  | .gt => some (.lower value false)
  | .gtEq => some (.lower value true)
  | .lt => some (.upper value false)
  | .ltEq => some (.upper value true)
  | .notEq => none

/-- The table is not looked at: a reference goes by its column's name alone. -/
def classify (schema : Schema) : Expr Query → Option ColumnPredicate
  | .binary (.comparison op) left right => do
      let (ref, literal, oriented) ← orient op left right
      let column ← schema.columnIndex ref.name
      let type ← (schema.columns[column]?).map Column.type
      let value ← (coerce literal type).toOption
      if value.isNull then none
      else (predKind value oriented).map fun kind => { column := column, kind := kind }
  | _ => none

/-- The top-level `AND` conjuncts. -/
def collectConjuncts : Expr Query → List (Expr Query)
  | .binary (.logic .and) left right => collectConjuncts left ++ collectConjuncts right
  | other => [other]

/-! ## Index scans -/

def findEq (predicates : List ColumnPredicate) (column : Nat) : Option Value :=
  predicates.findSome? fun predicate =>
    match predicate.kind with
    | .eq value => if predicate.column = column then some value else none
    | _ => none

def findLower (predicates : List ColumnPredicate) (column : Nat) : Option (Value × Bool) :=
  predicates.findSome? fun predicate =>
    match predicate.kind with
    | .lower value inclusive =>
        if predicate.column = column then some (value, inclusive) else none
    | _ => none

def findUpper (predicates : List ColumnPredicate) (column : Nat) : Option (Value × Bool) :=
  predicates.findSome? fun predicate =>
    match predicate.kind with
    | .upper value inclusive =>
        if predicate.column = column then some (value, inclusive) else none
    | _ => none

/-- What the predicates say about the leading columns of an index. -/
structure Bounds where
  pins : List Value
  lower : Option (Value × Bool)
  upper : Option (Value × Bool)
  deriving Repr, DecidableEq

/-- Equalities extend the pinned prefix; the first column without one ends it. -/
def bounds (predicates : List ColumnPredicate) : List Nat → Bounds
  | [] => { pins := [], lower := none, upper := none }
  | column :: rest =>
      match findEq predicates column with
      | some value =>
          let later := bounds predicates rest
          { later with pins := value :: later.pins }
      | none =>
          { pins := []
            lower := findLower predicates column
            upper := findUpper predicates column }

/-- A scan of an index, and how good it is. -/
structure IndexPlan where
  pinned : Nat
  hasRange : Bool
  lower : List UInt8
  upper : Option (List UInt8)
  deriving Repr, DecidableEq

def Bounds.hasRange (bounds : Bounds) : Bool :=
  bounds.lower.isSome || bounds.upper.isSome

/-- The encodings of the pinned columns. -/
def Bounds.pinnedPrefix (bounds : Bounds) : List UInt8 :=
  bounds.pins.flatMap encodeIndexValue

def Bounds.lowerKey (bounds : Bounds) : Option (List UInt8) :=
  match bounds.lower with
  | none => some bounds.pinnedPrefix
  | some (value, true) => some (bounds.pinnedPrefix ++ encodeIndexValue value)
  | some (value, false) =>
      (prefixUpperBound (encodeIndexValue value)).map (bounds.pinnedPrefix ++ ·)

/-- The inner `none` is a scan without an upper end. -/
def Bounds.upperKey (bounds : Bounds) : Option (Option (List UInt8)) :=
  match bounds.upper with
  | some (value, true) =>
      (prefixUpperBound (encodeIndexValue value)).map fun bound =>
        some (bounds.pinnedPrefix ++ bound)
  | some (value, false) => some (some (bounds.pinnedPrefix ++ encodeIndexValue value))
  | none =>
      if bounds.pins ≠ [] then some (prefixUpperBound bounds.pinnedPrefix) else some none

/-- The range of keys that the predicates leave of an index. -/
def buildIndexScan (predicates : List ColumnPredicate) (index : Index) : Option IndexPlan :=
  let bounds := bounds predicates index.columns
  if bounds.pins = [] ∧ bounds.hasRange = false then none
  else do
    let lower ← bounds.lowerKey
    let upper ← bounds.upperKey
    some {
      pinned := bounds.pins.length
      hasRange := bounds.hasRange
      lower := lower
      upper := upper }

/-- More pinned columns win, and then a range. -/
def IndexPlan.improves (plan current : IndexPlan) : Bool :=
  decide (current.pinned < plan.pinned) ||
    (decide (current.pinned = plan.pinned) && !current.hasRange && plan.hasRange)

/-- The better of the best so far and the next index; one that is being built is skipped. -/
def better
    (predicates : List ColumnPredicate)
    (best : Option (Index × IndexPlan))
    (index : Index) : Option (Index × IndexPlan) :=
  if index.isBuilding then best
  else
    match buildIndexScan predicates index, best with
    | none, _ => best
    | some plan, none => some (index, plan)
    | some plan, some (_, current) =>
        if plan.improves current then some (index, plan) else best

/-- The index with the best scan, the first of equals. -/
def bestIndex (predicates : List ColumnPredicate) (indexes : List Index) :
    Option (Index × IndexPlan) :=
  indexes.foldl (better predicates) none

/-- Whether the key order of the index is the order asked for. -/
def orderMatches
    (index : Index)
    (pinned : Nat)
    (schema : Schema)
    (orderBy : List OrderKey) : Bool :=
  let effective := index.columns.drop pinned
  decide (orderBy ≠ []) && orderBy.all (fun key => !key.descending) &&
    decide (orderBy.length ≤ effective.length) &&
      (orderBy.zip effective).all fun (key, column) =>
        decide ((schema.columns[column]?).map Column.name = some key.column.name)

/-- The predicates among the conjuncts of a filter. -/
def predicatesOf (schema : Schema) (filter : Expr Query) : List ColumnPredicate :=
  (collectConjuncts filter).filterMap (classify schema)

/-- The access path, and whether it gives the rows in the order asked for. -/
def chooseAccess
    (schema : Option Schema)
    (filter : Option (Expr Query))
    (orderBy : List OrderKey) : AccessPath × Bool :=
  match filter, schema with
  | some filter, some schema =>
      match bestIndex (predicatesOf schema filter) schema.indexes with
      | some (index, plan) =>
          (.indexScan index.root plan.lower plan.upper,
            orderMatches index plan.pinned schema orderBy)
      | none => (.fullScan, false)
  | _, _ => (.fullScan, false)

/-! ## Reading the table -/

/-- A version in the table tree, and whether the snapshot sees it. -/
structure Version where
  rowid : UInt64
  values : List Value
  visible : Bool
  deriving Repr, DecidableEq

/-- The key of a version. -/
def Index.key (index : Index) (version : Version) : List UInt8 :=
  encodeIndexKey version.values index.columns version.rowid.toNat

/-- A table whose finished indexes hold one entry for each of its versions. -/
structure Table (schema : Schema) where
  versions : List Version
  /-- The keys of the index tree at a root, in key order. -/
  trees : UInt32 → List (List UInt8)
  keyed : (versions.map Version.rowid).Nodup
  /-- Values are coerced to the type of their column before they are stored. -/
  typed :
    ∀ version ∈ versions, ∀ position column,
      schema.columns[position]? = some column →
        (PrehniteDB.column version.values position).fits column.type = true
  indexed :
    ∀ index ∈ schema.indexes,
      index.isBuilding = false →
        (trees index.root).Perm (versions.map index.key)

namespace Table

variable {schema : Schema} (table : Table schema)

/-- `BTree::search` on the table tree. -/
def search (rowidKey : List UInt8) : Option Version :=
  table.versions.find? fun version => PrehniteDB.rowidKey version.rowid.toNat = rowidKey

/-- Follow the keys back to their versions, each rowid once. -/
def follow (seen : List (List UInt8)) : List (List UInt8) → Except Error (List Version)
  | [] => .ok []
  | key :: rest =>
      if key.length < 8 then .error (.corruption "index key shorter than a rowid")
      else
        let rowidKey := key.drop (key.length - 8)
        if rowidKey ∈ seen then follow seen rest
        else
          match table.search rowidKey with
          | none => .error (.corruption "index references a row that does not exist")
          | some version =>
              (follow (rowidKey :: seen) rest).map fun later =>
                if version.visible then version :: later else later

/-- `TableScan` and `IndexScan`. -/
def scan : AccessPath → Except Error (List Version)
  | .fullScan => .ok (table.versions.filter Version.visible)
  | .indexScan root lower upper =>
      table.follow [] ((table.trees root).filter (inIndexRange lower upper))

end Table

end PrehniteDB.AccessPaths
