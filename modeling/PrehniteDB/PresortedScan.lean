import PrehniteDB.IndexAccess
import PrehniteDB.RowSorting

namespace PrehniteDB.AccessPaths

open ReadPaths (ColumnType prefixUpperBound)

/-!
# Plans without a sort

The columns an index scan pins are the same in all rows of its range, so the rows
come in the order of the columns behind them.
-/

/-- A table whose trees are in key order. -/
structure OrderedTable (schema : Schema) extends Table schema where
  ordered : ∀ root, (trees root).Pairwise (· ≤ ·)

variable {Query : Type} {schema : Schema}

/-! ## What the planner has checked -/

theorem chooseAccess_presorted
    {filter : Option (Expr Query)}
    {orderBy : List OrderKey}
    {access : AccessPath}
    (chosen : chooseAccess (some schema) filter orderBy = (access, true)) :
    ∃ predicates index plan,
      access = .indexScan index.root plan.lower plan.upper ∧
        index ∈ schema.indexes ∧ index.isBuilding = false ∧
          buildIndexScan predicates index = some plan ∧
            orderMatches index plan.pinned schema orderBy = true := by
  cases filter with
  | none => cases chosen
  | some filter =>
      simp only [chooseAccess] at chosen
      cases best : bestIndex (predicatesOf schema filter) schema.indexes with
      | none => rw [best] at chosen; cases chosen
      | some pair =>
          obtain ⟨index, plan⟩ := pair
          rw [best] at chosen
          obtain ⟨rfl, sorted⟩ := Prod.mk.inj chosen
          obtain ⟨listed, finished, built⟩ := bestIndex_some best
          exact ⟨_, index, plan, rfl, listed, finished, built, sorted⟩

theorem resolve_named
    {qualifier : String}
    {ref : ColumnRef}
    {position other : Nat}
    (resolved : (schema.scope qualifier).resolve ref = .ok position)
    (named : (schema.columns[other]?).map Column.name = some ref.name) :
    position = other := by
  obtain ⟨entry, placed, names⟩ := Scope.resolve_names resolved
  have table : entry.table = qualifier := by
    simp only [Schema.scope, List.getElem?_map, Option.map_eq_some_iff] at placed
    obtain ⟨_, _, rfl⟩ := placed
    rfl
  obtain ⟨column, found, same⟩ := Option.map_eq_some_iff.mp named
  obtain ⟨inside, rfl⟩ := List.getElem?_eq_some_iff.mp found
  have listed : other ∈ (schema.scope qualifier).findIdxs ref.names := by
    refine List.mem_findIdxs_iff_exists_getElem_pos.mpr
      ⟨by simpa [Schema.scope] using inside, ?_⟩
    simp only [ColumnRef.names, table, Bool.and_eq_true] at names
    simp only [ColumnRef.names, Schema.scope, List.getElem_map, Bool.and_eq_true,
      decide_eq_true_eq]
    exact ⟨names.1, same⟩
  rw [Scope.resolve_ok_iff.mp resolved] at listed
  exact (List.mem_singleton.mp listed).symm

theorem orderMatches_keys
    {qualifier : String}
    {effective : List Nat}
    {orderBy : List OrderKey}
    {keys : List (Nat × Bool)}
    (ascending : ∀ key ∈ orderBy, key.descending = false)
    (named :
      ∀ pair ∈ orderBy.zip effective,
        (schema.columns[pair.2]?).map Column.name = some pair.1.column.name)
    (few : orderBy.length ≤ effective.length)
    (resolved : resolveOrderKeys (schema.scope qualifier) orderBy = .ok keys) :
    keys = (effective.take orderBy.length).map fun position => (position, false) := by
  induction orderBy generalizing effective keys with
  | nil =>
      cases resolved
      rfl
  | cons key rest inductionHypothesis =>
      cases effective with
      | nil => exact absurd few (Nat.not_succ_le_zero _)
      | cons position columns =>
          obtain ⟨found, later, head, tail, rfl⟩ := resolveOrderKeys_cons resolved
          have same := resolve_named head (named (key, position) List.mem_cons_self)
          have rests := inductionHypothesis
            (fun other member => ascending other (List.mem_cons_of_mem _ member))
            (fun pair member => named pair (List.mem_cons_of_mem _ member))
            (Nat.le_of_succ_le_succ few) tail
          rw [rests, same, ascending key List.mem_cons_self]
          rfl

/-! ## Keys of one range -/

theorem pins_length_le (predicates : List ColumnPredicate) (columns : List Nat) :
    (bounds predicates columns).pins.length ≤ columns.length := by
  induction columns with
  | nil => exact Nat.le_refl 0
  | cons column rest inductionHypothesis =>
      rw [bounds]
      cases findEq predicates column with
      | none => exact Nat.zero_le _
      | some value => exact Nat.succ_le_succ inductionHypothesis

theorem buildIndexScan_pinned
    {predicates : List ColumnPredicate}
    {index : Index}
    {plan : IndexPlan}
    (built : buildIndexScan predicates index = some plan) :
    plan.pinned = (bounds predicates index.columns).pins.length := by
  simp only [buildIndexScan] at built
  split at built
  case isTrue => cases built
  case isFalse =>
    obtain ⟨_, _, rest⟩ := Option.bind_eq_some_iff.mp built
    obtain ⟨_, _, same⟩ := Option.bind_eq_some_iff.mp rest
    cases same
    rfl

theorem key_of_inRange
    {predicates : List ColumnPredicate}
    {index : Index}
    {plan : IndexPlan}
    {version : Version}
    (built : buildIndexScan predicates index = some plan)
    (inside : inIndexRange plan.lower plan.upper (index.key version) = true) :
    index.key version =
      (bounds predicates index.columns).pinnedPrefix ++
        encodeIndexKey version.values (index.columns.drop plan.pinned) version.rowid.toNat := by
  obtain ⟨lowerEnd, upperEnd⟩ := buildIndexScan_some built
  obtain ⟨lowerTail, ends, _⟩ :=
    Option.map_eq_some_iff.mp ((Bounds.lowerKey_eq _).symm.trans lowerEnd)
  obtain ⟨tail, starts, _⟩ := (Bounds.inIndexRange_iff ends lowerEnd upperEnd).mp inside
  have pinned := buildIndexScan_pinned built
  have parts :
      index.key version =
        (indexTuple version.values (index.columns.take plan.pinned)).flatMap encodeIndexValue ++
          encodeIndexKey version.values (index.columns.drop plan.pinned) version.rowid.toNat := by
    rw [Index.key, encodeIndexKey_eq, encodeIndexKey_eq, ← List.append_assoc,
      ← List.flatMap_append, indexTuple, indexTuple, indexTuple, ← List.map_append,
      List.take_append_drop]
  have sized :
      (indexTuple version.values (index.columns.take plan.pinned)).length =
        (bounds predicates index.columns).pins.length := by
    rw [indexTuple, List.length_map, List.length_take, pinned]
    exact Nat.min_eq_left (pins_length_le _ _)
  have same := parts.symm.trans starts
  rw [(flatMap_encode_append_inj sized same).1] at parts
  exact parts

theorem order_of_keys
    {predicates : List ColumnPredicate}
    {index : Index}
    {plan : IndexPlan}
    {count : Nat}
    {types : List ColumnType}
    {first second : Version}
    (built : buildIndexScan predicates index = some plan)
    (firstInside : inIndexRange plan.lower plan.upper (index.key first) = true)
    (secondInside : inIndexRange plan.lower plan.upper (index.key second) = true)
    (firstTyped :
      List.Forall₂ (fun type value => Value.fits type value = true) types
        (indexTuple first.values ((index.columns.drop plan.pinned).take count)))
    (secondTyped :
      List.Forall₂ (fun type value => Value.fits type value = true) types
        (indexTuple second.values ((index.columns.drop plan.pinned).take count)))
    (below : index.key first ≤ index.key second) :
    orderTuples (indexTuple first.values ((index.columns.drop plan.pinned).take count))
      (indexTuple second.values ((index.columns.drop plan.pinned).take count)) ≠ .gt := by
  have split (version : Version) :
      encodeIndexKey version.values (index.columns.drop plan.pinned) version.rowid.toNat =
        (indexTuple version.values ((index.columns.drop plan.pinned).take count)).flatMap
            encodeIndexValue ++
          encodeIndexKey version.values ((index.columns.drop plan.pinned).drop count)
            version.rowid.toNat := by
    rw [encodeIndexKey_eq, encodeIndexKey_eq, ← List.append_assoc, ← List.flatMap_append,
      indexTuple, indexTuple, indexTuple, ← List.map_append, List.take_append_drop]
  rw [key_of_inRange built firstInside, key_of_inRange built secondInside,
    append_le_append_iff, split first, split second] at below
  have compared := compareKeys_tuples firstTyped secondTyped
    (encodeIndexKey first.values ((index.columns.drop plan.pinned).drop count) first.rowid.toNat)
    (encodeIndexKey second.values ((index.columns.drop plan.pinned).drop count)
      second.rowid.toNat)
  intro above
  rw [above] at compared
  exact absurd (compareKeys_gt_iff.mp compared) (List.not_lt.mpr below)

theorem typed_columns
    {table : Table schema}
    {version : Version}
    (present : version ∈ table.versions)
    {columns : List Nat}
    (inside : ∀ position ∈ columns, position < schema.columns.length) :
    List.Forall₂ (fun type value => Value.fits type value = true)
      (columns.map fun position => ((schema.columns[position]?).map Column.type).getD .int)
      (indexTuple version.values columns) := by
  rw [indexTuple, List.forall₂_map_left_iff, List.forall₂_map_right_iff, List.forall₂_same]
  intro position member
  have found := List.getElem?_eq_getElem (inside position member)
  rw [found]
  exact table.typed version present position _ found

/-! ## The scan -/

theorem follow_keys
    {table : Table schema}
    {index : Index}
    {keys seen : List (List UInt8)}
    {found : List Version}
    (rooted : ∀ key ∈ keys, ∃ version ∈ table.versions, key = index.key version)
    (followed : table.follow seen keys = .ok found) :
    (found.map index.key).Sublist keys ∧ ∀ version ∈ found, version ∈ table.versions := by
  induction keys generalizing seen found with
  | nil =>
      cases followed
      exact ⟨.refl _, nofun⟩
  | cons key rest inductionHypothesis =>
      have later {seen : List (List UInt8)} {found : List Version} :=
        @inductionHypothesis seen found fun key member => rooted key (List.mem_cons_of_mem _ member)
      obtain ⟨owner, present, rfl⟩ := rooted _ List.mem_cons_self
      obtain ⟨long, suffix⟩ := @Table.key_suffix index owner
      rw [Table.follow, if_neg long] at followed
      simp only [suffix, Table.search_some present] at followed
      split at followed
      case isTrue =>
        obtain ⟨keys, stored⟩ := later followed
        exact ⟨keys.cons _, stored⟩
      case isFalse =>
        cases ran : table.follow (rowidKey owner.rowid.toNat :: seen) rest with
        | error error => rw [ran] at followed; cases followed
        | ok others =>
            obtain ⟨keys, stored⟩ := later ran
            rw [ran] at followed
            obtain rfl := Except.ok.inj followed
            cases owner.visible with
            | true => exact ⟨keys.cons_cons _, List.forall_mem_cons.mpr ⟨present, stored⟩⟩
            | false => exact ⟨keys.cons _, stored⟩

/-- The rows of the scan that the predicate accepts. -/
def acceptedRows
    (scope : Scope)
    (filter : Option (Expr Query))
    (versions : List Version) : List (List Value) :=
  (versions.filter fun version =>
    decide (passesFilter filter scope version.values = .ok true)).map Version.values

/--
When the planner reports that no sort is needed, the scan ends without an error
and the sort would leave the rows that the predicate accepts as they are.
-/
theorem presorted_needs_no_sort
    (table : OrderedTable schema)
    {filter : Option (Expr Query)}
    {orderBy : List OrderKey}
    {access : AccessPath}
    (chosen : chooseAccess (some schema) filter orderBy = (access, true)) :
    ∃ versions,
      table.scan access = .ok versions ∧
        ∀ qualifier keys,
          resolveOrderKeys (schema.scope qualifier) orderBy = .ok keys →
            (acceptedRows (schema.scope qualifier) filter versions).Pairwise
                (fun left right => orderRows keys left right ≠ .gt) ∧
              sortRows keys (acceptedRows (schema.scope qualifier) filter versions) =
                acceptedRows (schema.scope qualifier) filter versions := by
  obtain ⟨predicates, index, plan, rfl, listed, finished, built, matched⟩ :=
    chooseAccess_presorted chosen
  have indexed := table.indexed index listed finished
  have rooted : ∀ key ∈ (table.trees index.root).filter (inIndexRange plan.lower plan.upper),
      ∃ version ∈ table.versions, key = index.key version := by
    intro key member
    obtain ⟨version, present, same⟩ :=
      List.mem_map.mp (indexed.mem_iff.mp (List.mem_filter.mp member).1)
    exact ⟨version, present, same.symm⟩
  obtain ⟨versions, followed, _⟩ := Table.follow_ok rooted []
  refine ⟨versions, followed, fun qualifier keys resolved => ?_⟩
  obtain ⟨inOrder, stored⟩ := follow_keys rooted followed
  simp only [orderMatches, Bool.and_eq_true, decide_eq_true_eq, List.all_eq_true,
    Bool.not_eq_true'] at matched
  obtain ⟨⟨⟨_, ascending⟩, few⟩, named⟩ := matched
  obtain rfl := orderMatches_keys ascending named few resolved
  have inside : ∀ position ∈ (index.columns.drop plan.pinned).take orderBy.length,
      position < schema.columns.length := by
    intro position member
    obtain ⟨number, bound, rfl⟩ := List.mem_iff_getElem.mp member
    rw [List.length_take] at bound
    have pair : (orderBy[number], (index.columns.drop plan.pinned)[number]) ∈
        orderBy.zip (index.columns.drop plan.pinned) := by
      refine List.mem_iff_getElem.mpr ⟨number, ?_, List.getElem_zip⟩
      rw [List.length_zip]
      exact bound
    obtain ⟨column, found, _⟩ := Option.map_eq_some_iff.mp (named _ pair)
    rw [List.getElem_take]
    exact (List.getElem?_eq_some_iff.mp found).1
  have byKey : versions.Pairwise fun left right => index.key left ≤ index.key right :=
    List.pairwise_map.mp (((table.ordered index.root).filter _).sublist inOrder)
  have inRange : ∀ version ∈ versions,
      inIndexRange plan.lower plan.upper (index.key version) = true := by
    intro version member
    exact (List.mem_filter.mp (inOrder.subset (List.mem_map_of_mem member))).2
  have sorted : versions.Pairwise fun left right =>
      orderRows
        (((index.columns.drop plan.pinned).take orderBy.length).map fun position =>
          (position, false)) left.values right.values ≠ .gt := by
    refine byKey.imp_of_mem fun {left right} leftMember rightMember below => ?_
    rw [orderRows_ascending]
    exact order_of_keys built (inRange left leftMember) (inRange right rightMember)
      (typed_columns (stored left leftMember) inside)
      (typed_columns (stored right rightMember) inside) below
  have kept :
      (acceptedRows (schema.scope qualifier) filter versions).Pairwise fun left right =>
        orderRows
          (((index.columns.drop plan.pinned).take orderBy.length).map fun position =>
            (position, false)) left right ≠ .gt :=
    List.pairwise_map.mpr (sorted.filter _)
  exact ⟨kept, sortRows_of_sorted kept⟩

/-! ## Two temperatures -/

/-- `degrees > 0.0`. -/
def isWarm : Expr Empty :=
  .binary (.comparison .gt) (.column { table := none, name := "degrees" }) (.real 0)

/-- Five degrees and then one, and their keys in the other order. -/
def cooling : OrderedTable temperatures where
  versions :=
    [{ rowid := 1, values := [.real 0x4014000000000000], visible := true },
      { rowid := 2, values := [.real 0x3FF0000000000000], visible := true }]
  trees := fun _ =>
    [encodeIndexKey [.real 0x3FF0000000000000] [0] 2,
      encodeIndexKey [.real 0x4014000000000000] [0] 1]
  keyed := by decide
  typed := by
    intro version stored position column found
    match position with
    | 0 =>
        cases found
        rcases List.mem_cons.mp stored with rfl | last
        · rfl
        · obtain rfl := List.mem_singleton.mp last
          rfl
    | _ + 1 => cases found
  indexed := by
    intro index listed _
    obtain rfl := List.mem_singleton.mp listed
    exact .swap _ _ []
  ordered := fun _ => List.pairwise_pair.mpr (by decide)

/-- `WHERE degrees > 0.0 ORDER BY degrees` is read off the index. -/
theorem warm_presorted :
    ∃ versions access,
      cooling.scan access = .ok versions ∧
        sortRows [(0, false)]
            (acceptedRows (temperatures.scope "t") (some isWarm) versions) =
          acceptedRows (temperatures.scope "t") (some isWarm) versions := by
  obtain ⟨versions, scanned, sorted⟩ :=
    presorted_needs_no_sort cooling
      (show chooseAccess (some temperatures) (some isWarm)
          [{ column := { table := none, name := "degrees" }, descending := false }] =
        (_, true) from rfl)
  exact ⟨versions, _, scanned, (sorted "t" _ (by decide)).2⟩

end PrehniteDB.AccessPaths
