import PrehniteDB.BuildingIndexes

namespace PrehniteDB.BuildingIndexes

open AccessPaths (AccessPath Index OrderKey Schema Version bestIndex better chooseAccess)
open Joins
open ReadPaths (JoinKind keysHaveValue prefixUpperBound)

/-!
# Answers beside an index that is being built

The access path never takes such an index, and no unique probe does.  A join and
a child probe may, and then see no more than the entries it has so far.
-/

/-! ## The access path -/

theorem bestIndex_finished
    (predicates : List AccessPaths.ColumnPredicate)
    (indexes : List Index) :
    bestIndex predicates (indexes.filter fun index => !index.isBuilding) =
      bestIndex predicates indexes := by
  unfold bestIndex
  rw [List.foldl_filter]
  congr 1
  funext best index
  unfold better
  cases index.isBuilding with
  | true => rfl
  | false => rfl

section Tables

variable {schema : Schema} {Query : Type}

theorem chooseAccess_finished
    (filter : Option (Expr Query))
    (orderBy : List OrderKey) :
    chooseAccess (some (finished schema)) filter orderBy =
      chooseAccess (some schema) filter orderBy := by
  cases filter with
  | none => rfl
  | some filter =>
      have same :
          bestIndex (AccessPaths.predicatesOf (finished schema) filter)
              (finished schema).indexes =
            bestIndex (AccessPaths.predicatesOf schema filter) schema.indexes :=
        bestIndex_finished _ _
      simp only [chooseAccess, same]
      rfl

theorem follow_finished
    (table : State schema)
    (keys seen : List (List UInt8)) :
    table.finished.follow seen keys = table.follow seen keys := by
  induction keys generalizing seen with
  | nil => rfl
  | cons key rest inductionHypothesis =>
      simp only [AccessPaths.Table.follow, inductionHypothesis]
      rfl

theorem scan_finished
    (table : State schema)
    (access : AccessPath) :
    table.finished.scan access = table.scan access := by
  cases access with
  | fullScan => rfl
  | indexScan root lower upper => exact follow_finished table _ _

end Tables

/-! ## Outcomes up to the order of the rows -/

/-- The same rows in some order, or an error from both. -/
def Alike (first second : Except Error (List Row)) : Prop :=
  match first, second with
  | .ok left, .ok right => left.Perm right
  | .error _, .error _ => True
  | _, _ => False

namespace Alike

variable {first second third : Except Error (List Row)}

theorem refl (outcome : Except Error (List Row)) : Alike outcome outcome := by
  cases outcome with
  | error error => trivial
  | ok rows => exact List.Perm.refl rows

theorem symm (alike : Alike first second) : Alike second first := by
  cases first <;> cases second <;> first | exact alike.elim | trivial | exact List.Perm.symm alike

theorem trans (left : Alike first second) (right : Alike second third) : Alike first third := by
  cases first <;> cases second <;> first | exact left.elim | skip
  · cases third <;> first | exact right.elim | trivial
  · cases third <;> first | exact right.elim | exact List.Perm.trans left right

end Alike

section Rows

variable
  {Query : Type}
  {scope : Scope}
  {on : Option (Expr Query)}
  {kind : JoinKind}
  {rightWidth : Nat}
  {left right : List Row}

theorem eachLeft_error
    {given : Row → Except Error (List Row)}
    {row : Row}
    {error : Error}
    (listed : row ∈ left)
    (failed : given row = .error error) :
    ∃ other, eachLeft given left = .error other := by
  induction left with
  | nil => cases listed
  | cons head rest inductionHypothesis =>
      rw [eachLeft]
      cases here : given head with
      | error other => exact ⟨other, rfl⟩
      | ok rows =>
          rcases List.mem_cons.mp listed with rfl | later
          · cases here.symm.trans failed
          · obtain ⟨other, stopped⟩ := inductionHypothesis later
            rw [stopped]
            exact ⟨other, rfl⟩

theorem eachLeft_alike
    {given taken : Row → Except Error (List Row)}
    {others : List Row}
    (same : left.Perm others)
    (each : ∀ row ∈ left, Alike (given row) (taken row)) :
    Alike (eachLeft given left) (eachLeft taken others) := by
  by_cases fails : ∃ row ∈ left, ∃ error, given row = .error error
  · obtain ⟨row, listed, error, failed⟩ := fails
    have alike := each row listed
    rw [failed] at alike
    cases other : taken row with
    | ok rows => rw [other] at alike; exact alike.elim
    | error second =>
        obtain ⟨_, first⟩ := eachLeft_error listed failed
        obtain ⟨_, last⟩ := eachLeft_error (same.mem_iff.mp listed) other
        rw [first, last]
        trivial
  · have succeeds (row : Row) (listed : row ∈ left) :
        ∃ rows, given row = .ok rows := by
      cases ran : given row with
      | ok rows => exact ⟨rows, rfl⟩
      | error error => exact absurd ⟨row, listed, error, ran⟩ fails
    have first : ∀ row ∈ left, given row = .ok ((given row).toOption.getD []) := by
      intro row listed
      obtain ⟨rows, ran⟩ := succeeds row listed
      rw [ran]
      rfl
    have second : ∀ row ∈ others, taken row = .ok ((taken row).toOption.getD []) := by
      intro row listed
      have alike := each row (same.mem_iff.mpr listed)
      rw [first row (same.mem_iff.mpr listed)] at alike
      cases ran : taken row with
      | ok rows => rfl
      | error error => rw [ran] at alike; exact alike.elim
    rw [eachLeft_ok first, eachLeft_ok second]
    refine List.Perm.trans (List.Perm.flatMap_left left fun row listed => ?_)
      (same.flatMap_right _)
    have alike := each row listed
    rw [first row listed, second row (same.mem_iff.mp listed)] at alike
    exact alike

/-- The predicate fails on a candidate of some left row. -/
def Fails
    (scope : Scope)
    (on : Option (Expr Query))
    (candidates : Row → List Row)
    (left : List Row) : Prop :=
  ∃ row ∈ left, ∃ inner ∈ candidates row,
    ∃ error, passesFilter on scope (row ++ inner) = .error error

theorem evaluates_of_not_fails
    {candidates : Row → List Row}
    (succeeds : ¬ Fails scope on candidates left) :
    ∀ row ∈ left, ∀ inner ∈ candidates row,
      ∃ keep, passesFilter on scope (row ++ inner) = .ok keep := by
  intro row rowListed inner innerListed
  cases verdict : passesFilter on scope (row ++ inner) with
  | ok keep => exact ⟨keep, rfl⟩
  | error error =>
      exact absurd ⟨row, rowListed, inner, innerListed, error, verdict⟩ succeeds

theorem pairs_error
    {row inner : Row}
    {error : Error}
    (listed : inner ∈ right)
    (failed : passesFilter on scope (row ++ inner) = .error error) :
    ∃ stopped, pairs scope on row right = .error stopped := by
  induction right with
  | nil => cases listed
  | cons head rest inductionHypothesis =>
      rw [pairs]
      cases verdict : passesFilter on scope (row ++ head) with
      | error other => exact ⟨other, rfl⟩
      | ok keep =>
          rcases List.mem_cons.mp listed with rfl | later
          · cases verdict.symm.trans failed
          · obtain ⟨stopped, ran⟩ := inductionHypothesis later
            exact ⟨stopped, by rw [ran]; rfl⟩

theorem probe_error
    {candidates : Row → List Row}
    (fails : Fails scope on candidates left) :
    ∃ error, probe scope on kind rightWidth candidates left = .error error := by
  obtain ⟨row, rowListed, inner, innerListed, error, failed⟩ := fails
  obtain ⟨stopped, ran⟩ := pairs_error innerListed failed
  have contributed :
      (pairs scope on row (candidates row)).map (padded kind rightWidth row) =
        .error stopped := by
    rw [ran]
    rfl
  exact eachLeft_error rowListed contributed

/-- A probe answers alike with and without the index being built. -/
theorem probe_alike_iff
    {candidates taken : Row → List Row} :
    Alike (probe scope on kind rightWidth candidates left)
        (probe scope on kind rightWidth taken left) ↔
      (Fails scope on candidates left ∧ Fails scope on taken left) ∨
        (¬ Fails scope on candidates left ∧ ¬ Fails scope on taken left ∧
          (left.flatMap fun row =>
            padded kind rightWidth row
              (((candidates row).filter (accepts scope on row)).map (row ++ ·))).Perm
          (left.flatMap fun row =>
            padded kind rightWidth row
              (((taken row).filter (accepts scope on row)).map (row ++ ·)))) := by
  have outcome (looked : Row → List Row) :
      (Fails scope on looked left ∧
        ∃ error, probe scope on kind rightWidth looked left = .error error) ∨
      (¬ Fails scope on looked left ∧
        probe scope on kind rightWidth looked left =
          .ok (left.flatMap fun row =>
            padded kind rightWidth row
              (((looked row).filter (accepts scope on row)).map (row ++ ·)))) := by
    by_cases fails : Fails scope on looked left
    · exact Or.inl ⟨fails, probe_error fails⟩
    · exact Or.inr ⟨fails, probe_ok (evaluates_of_not_fails fails)⟩
  rcases outcome candidates with ⟨first, _, ran⟩ | ⟨first, ran⟩ <;>
    rcases outcome taken with ⟨second, _, other⟩ | ⟨second, other⟩ <;>
    simp [ran, other, first, second, Alike]

/-- The order of the left rows and of the candidates does not show. -/
theorem probe_alike
    {candidates taken : Row → List Row}
    {others : List Row}
    (same : left.Perm others)
    (each : ∀ row ∈ left, (candidates row).Perm (taken row)) :
    Alike (probe scope on kind rightWidth candidates left)
      (probe scope on kind rightWidth taken others) := by
  by_cases fails : Fails scope on candidates left
  · obtain ⟨row, rowListed, inner, innerListed, failure⟩ := fails
    obtain ⟨_, first⟩ :=
      @probe_error _ scope on kind rightWidth left candidates
        ⟨row, rowListed, inner, innerListed, failure⟩
    obtain ⟨_, second⟩ :=
      @probe_error _ scope on kind rightWidth others taken
        ⟨row, same.mem_iff.mp rowListed, inner,
          (each row rowListed).mem_iff.mp innerListed, failure⟩
    rw [first, second]
    trivial
  · have evaluates := evaluates_of_not_fails fails
    have alike : ∀ row ∈ others, ∀ inner ∈ taken row,
        ∃ keep, passesFilter on scope (row ++ inner) = .ok keep :=
      fun row listed inner found =>
        evaluates row (same.mem_iff.mpr listed) inner
          ((each row (same.mem_iff.mpr listed)).mem_iff.mpr found)
    rw [probe_ok evaluates, probe_ok alike]
    refine List.Perm.trans (List.Perm.flatMap_left left fun row listed => ?_)
      (same.flatMap_right _)
    exact padded_perm (((each row listed).filter (accepts scope on row)).map (row ++ ·))

theorem eachPartition_error
    {hasher : List UInt8 → Nat}
    {leftWidth probeCol buildCol : Nat}
    {partitions : List Nat}
    {partition : Nat}
    {error : Error}
    (leftSpilled : Spilled leftWidth left)
    (rightSpilled : Spilled rightWidth right)
    (listed : partition ∈ partitions)
    (failed :
      hashJoin scope on kind rightWidth probeCol buildCol
          (left.filter fun row => partitionFor hasher (column row probeCol) = partition)
          (right.filter fun row => partitionFor hasher (column row buildCol) = partition) =
        .error error) :
    ∃ other,
      graceHashJoin.eachPartition scope on kind rightWidth hasher leftWidth probeCol buildCol
        left right partitions = .error other := by
  induction partitions with
  | nil => cases listed
  | cons head rest inductionHypothesis =>
      rw [graceHashJoin.eachPartition,
        spilledHashJoin_eq (leftSpilled.filter _) (rightSpilled.filter _)]
      rcases List.mem_cons.mp listed with rfl | later
      · rw [failed]
        exact ⟨error, rfl⟩
      · obtain ⟨other, stopped⟩ := inductionHypothesis later
        rw [stopped]
        cases hashJoin scope on kind rightWidth probeCol buildCol _ _ with
        | error first => exact ⟨first, rfl⟩
        | ok rows => exact ⟨other, rfl⟩

theorem graceHashJoin_alike
    {on : Expr Query}
    {leftWidth : Nat}
    (hasher : List UInt8 → Nat)
    (probeCol buildCol : Nat)
    (leftSpilled : Spilled leftWidth left)
    (rightSpilled : Spilled rightWidth right) :
    Alike
      (graceHashJoin scope (some on) kind rightWidth hasher leftWidth probeCol buildCol left
        right)
      (probe scope (some on) kind rightWidth
        (fun row => right.filter (sameKey probeCol buildCol row)) left) := by
  by_cases fails :
      Fails scope (some on) (fun row => right.filter (sameKey probeCol buildCol row)) left
  · obtain ⟨_, second⟩ := @probe_error _ scope (some on) kind rightWidth left _ fails
    obtain ⟨row, rowListed, inner, innerListed, error, failed⟩ := fails
    obtain ⟨listed, met⟩ := List.mem_filter.mp innerListed
    have dealt :
        partitionFor hasher (column inner buildCol) =
          partitionFor hasher (column row probeCol) := by
      rw [(sameKey_iff.mp met).1]
    have together : ∃ stopped,
        hashJoin scope (some on) kind rightWidth probeCol buildCol
          (left.filter fun other => partitionFor hasher (column other probeCol) =
            partitionFor hasher (column row probeCol))
          (right.filter fun other => partitionFor hasher (column other buildCol) =
            partitionFor hasher (column row probeCol)) = .error stopped := by
      rw [hashJoin_eq_probe]
      refine probe_error ⟨row, ?_, inner, ?_, error, failed⟩
      · exact List.mem_filter.mpr ⟨rowListed, decide_eq_true rfl⟩
      · exact List.mem_filter.mpr ⟨List.mem_filter.mpr ⟨listed, decide_eq_true dealt⟩, met⟩
    obtain ⟨stopped, joined⟩ := together
    obtain ⟨_, first⟩ := eachPartition_error leftSpilled rightSpilled
      (List.mem_range.mpr (partitionFor_lt hasher (column row probeCol))) joined
    rw [graceHashJoin, first, second]
    trivial
  · have evaluates := evaluates_of_not_fails fails
    have met : EvaluatesMet scope on probeCol buildCol left right :=
      fun row rowListed inner innerListed same =>
        evaluates row rowListed inner (List.mem_filter.mpr ⟨innerListed, same⟩)
    obtain ⟨rows, ran, same⟩ := graceHashJoin_ok hasher leftSpilled rightSpilled met
    rw [← hashJoin_eq_probe, hashJoin_ok met, ran]
    exact same

/-- How often a pair is handed out: once for each occurrence of its left and its inner row. -/
theorem count_pairs
    {candidates : Row → List Row}
    {row inner : Row}
    (widths : ∀ other ∈ left, other.length = row.length)
    (accepted : accepts scope on row inner = true)
    (present : inner ≠ List.replicate rightWidth .null) :
    (left.flatMap fun other =>
        padded kind rightWidth other
          (((candidates other).filter (accepts scope on other)).map (other ++ ·))).count
        (row ++ inner) =
      left.count row * (candidates row).count inner := by
  induction left with
  | nil => simp
  | cons head rest inductionHypothesis =>
      have later := inductionHypothesis fun other listed =>
        widths other (List.mem_cons_of_mem _ listed)
      have width := widths head List.mem_cons_self
      have unpadded (found : List Row) :
          (padded kind rightWidth head found).count (row ++ inner) =
            found.count (row ++ inner) := by
        unfold padded
        split
        case isTrue padding =>
          have apart : head ++ List.replicate rightWidth .null ≠ row ++ inner := fun same =>
            present (List.append_inj same width).2.symm
          rw [padding.2, List.count_singleton, List.count_nil]
          simp [apart]
        case isFalse => rfl
      rw [List.flatMap_cons, List.count_append, later, unpadded]
      by_cases same : head = row
      · subst same
        have injective : Function.Injective (head ++ · : Row → Row) :=
          List.append_right_injective head
        rw [List.count_cons_self, List.count_map_of_injective _ _ injective,
          List.count_filter accepted]
        ring
      · have absent :
            row ++ inner ∉
              ((candidates head).filter (accepts scope on head)).map (head ++ ·) := by
          intro member
          obtain ⟨other, _, equal⟩ := List.mem_map.mp member
          exact same (List.append_inj equal width).1
        rw [List.count_eq_zero.mpr absent, List.count_cons_of_ne same, Nat.zero_add]

end Rows

theorem find?_filter_of_kept
    {Item : Type}
    {items : List Item}
    {suits keep : Item → Bool}
    {item : Item}
    (found : items.find? suits = some item)
    (kept : keep item = true) :
    (items.filter keep).find? suits = some item := by
  rw [List.find?_filter]
  obtain ⟨suited, before, after, rfl, earlier⟩ := List.find?_eq_some_iff_append.mp found
  refine List.find?_eq_some_iff_append.mpr ⟨by simp [suited, kept], before, after, rfl, ?_⟩
  intro other listed
  have unsuited := earlier other listed
  simp only [Bool.not_eq_true'] at unsuited
  simp [unsuited]

/-! ## The equality that is picked -/

section Equalities

variable {Query Found Other : Type}

theorem findEquality_map
    (serves : Expr Query → Expr Query → Option Found)
    (read : Found → Other)
    (on : Expr Query) :
    findEquality (fun left right => (serves left right).map read) on =
      (findEquality serves on).map read := by
  induction on using findEquality.induct with
  | case1 left right leftHypothesis rightHypothesis =>
      rw [findEquality, findEquality, leftHypothesis, rightHypothesis]
      cases findEquality serves left <;> rfl
  | case2 left right => rfl
  | case3 other notAnd notEq =>
      rw [findEquality, findEquality]
      · rfl
      all_goals assumption

/-- Where one finder serves nothing more than another, what both serve is found by both. -/
theorem findEquality_fewer
    {serves fewer : Expr Query → Expr Query → Option Found}
    {good : Found → Prop}
    (keeps : ∀ left right found, serves left right = some found → good found →
      fewer left right = some found)
    (drops : ∀ left right, serves left right = none → fewer left right = none)
    (on : Expr Query) :
    (∀ found, findEquality serves on = some found → good found →
        findEquality fewer on = some found) ∧
      (findEquality serves on = none → findEquality fewer on = none) := by
  induction on using findEquality.induct with
  | case1 left right leftHypothesis rightHypothesis =>
      simp only [findEquality, Option.or_eq_some_iff, Option.or_eq_none_iff]
      constructor
      · rintro found (inLeft | ⟨nothing, inRight⟩) suits
        · exact Or.inl (leftHypothesis.1 found inLeft suits)
        · exact Or.inr ⟨leftHypothesis.2 nothing, rightHypothesis.1 found inRight suits⟩
      · exact fun both => ⟨leftHypothesis.2 both.1, rightHypothesis.2 both.2⟩
  | case2 left right => exact ⟨keeps left right, drops left right⟩
  | case3 other notAnd notEq =>
      rw [findEquality, findEquality]
      · exact ⟨by rintro _ ⟨⟩, fun _ => rfl⟩
      all_goals assumption

theorem pickSides_index
    (scope : Scope)
    (leftLen : Nat)
    (joined : Schema)
    (left right : Expr Query) :
    equiJoinIndex scope leftLen joined left right =
      (pickSides scope leftLen joined left right).map fun pick => (pick.key, pick.index.root) := by
  unfold equiJoinIndex pickSides
  cases equiSides scope leftLen left right with
  | none => rfl
  | some sides =>
      obtain ⟨key, keyAt, inner⟩ := sides
      simp only [Option.bind_eq_bind, Option.bind_some]
      cases joined.indexes.find? fun index => index.columns.head? = some inner <;> rfl

end Equalities

namespace Join

variable
  {Query : Type}
  {scope : Scope}
  {join : Join Query}
  {left : List Row}

theorem indexJoin_eq (scope : Scope) (join : Join Query) :
    join.indexJoin scope = (join.pick scope).map fun pick => (pick.key, pick.index.root) := by
  unfold indexJoin pick
  cases join.onlyLeft with
  | true => rfl
  | false =>
      cases join.on with
      | none => rfl
      | some on =>
          have same :
              equiJoinIndex (join.combined scope) scope.length join.schema =
                fun (left right : Expr Query) =>
                  (pickSides (join.combined scope) scope.length join.schema left right).map
                    fun pick => (pick.key, pick.index.root) :=
            funext fun left => funext fun right =>
              pickSides_index (join.combined scope) scope.length join.schema left right
          simp only [Bool.false_eq_true, if_false, Option.bind_some, findIndexJoin, same,
            findEquality_map]

/-- What is known of the index that a step picks. -/
structure Picked (scope : Scope) (join : Join Query) (on : Expr Query) (pick : Pick) : Prop where
  both : join.onlyLeft = false
  present : join.on = some on
  keyed : Keyed (join.combined scope) scope.length on pick.keyAt pick.inner
  resolved : (join.combined scope).resolve pick.key = .ok pick.keyAt
  listed : pick.index ∈ join.schema.indexes
  leads : pick.index.columns.head? = some pick.inner

/-- What the picked index stands for. -/
theorem pick_spec
    {pick : Pick}
    (picked : join.pick scope = some pick) :
    ∃ on, Picked scope join on pick := by
  unfold Join.pick at picked
  cases both : join.onlyLeft with
  | true => rw [both] at picked; cases picked
  | false =>
      rw [both] at picked
      simp only [Bool.false_eq_true, if_false] at picked
      obtain ⟨on, present, found⟩ := Option.bind_eq_some_iff.mp picked
      obtain ⟨left, right, served, passes⟩ := findEquality_true found (join.combined scope)
      unfold pickSides at served
      obtain ⟨⟨key, keyAt, inner⟩, sides, further⟩ := Option.bind_eq_some_iff.mp served
      obtain ⟨index, listed, last⟩ := Option.bind_eq_some_iff.mp further
      cases last
      obtain ⟨keyed, resolved⟩ := keyed_of_sides sides passes
      have leads := List.find?_some listed
      simp only [decide_eq_true_eq] at leads
      exact ⟨on, both, present, keyed, resolved, List.mem_of_find?_eq_some listed, leads⟩

/-- The entries of a picked index are those of versions, whether it is finished or not. -/
theorem Picked.rooted
    {on : Expr Query}
    {pick : Pick}
    (picked : Picked scope join on pick) :
    Rooted join.table.toTable pick.index := by
  cases building : pick.index.isBuilding with
  | true => exact join.table.partly pick.index picked.listed building
  | false => exact rooted_of_finished picked.listed building

end Join

/-! ## One step -/

/-- Rows with a value of its type, or `NULL`, for each column of the scope. -/
def Typed (scope : Scope) (rows : List Row) : Prop :=
  ∀ row ∈ rows,
    row.length = scope.length ∧
      ∀ position entry,
        scope[position]? = some entry → (column row position).fits entry.type = true

namespace Join

section Step

variable
  {Query : Type}
  {scope : Scope}
  {join : Join Query}
  {left : List Row}

theorem mem_rows
    {row : Row}
    (listed : row ∈ join.rows) :
    ∃ version ∈ join.table.versions, version.visible = true ∧ version.values = row := by
  obtain ⟨version, member, same⟩ := List.mem_map.mp listed
  obtain ⟨stored, visible⟩ := List.mem_filter.mp member
  exact ⟨version, stored, visible, same⟩

theorem input
    (typed : Typed scope left) :
    Input (join.combined scope) scope.length join.width left join.rows where
  columns := by simp [combined, width, Schema.scope]
  leftWidth := fun row listed => (typed row listed).1
  rightWidth := by
    intro row listed
    obtain ⟨version, stored, _, rfl⟩ := mem_rows listed
    exact join.table.width version stored
  leftTyped := by
    intro row listed position bound entry found
    rw [combined, List.getElem?_append_left bound] at found
    exact (typed row listed).2 position entry found
  rightTyped := by
    intro row listed position entry found
    obtain ⟨version, stored, _, rfl⟩ := mem_rows listed
    rw [combined, List.getElem?_append_right (Nat.le_add_right _ _),
      Nat.add_sub_cancel_left, Schema.scope, List.getElem?_map] at found
    obtain ⟨column, declared, rfl⟩ := Option.map_eq_some_iff.mp found
    exact join.table.typed version stored position column declared

theorem storable
    (typed : Typed scope left) :
    Storable (typesOf (join.combined scope)) join.width [left].flatten [join.rows].flatten := by
  rw [List.flatten_singleton, List.flatten_singleton]
  exact (input typed).storable

theorem equiJoin_some
    {probeCol buildCol : Nat}
    (found : join.equiJoin scope = some (probeCol, buildCol)) :
    ∃ on,
      join.onlyLeft = false ∧ join.on = some on ∧
        findEquiJoin on scope.length (join.combined scope) = some (probeCol, buildCol) := by
  unfold equiJoin at found
  cases both : join.onlyLeft with
  | true => rw [both] at found; cases found
  | false =>
      rw [both] at found
      obtain ⟨on, present, served⟩ := Option.bind_eq_some_iff.mp found
      exact ⟨on, rfl, present, served⟩

theorem not_onlyLeft (both : join.onlyLeft = false) :
    join.kind ≠ .semi ∧ join.kind ≠ .anti := by
  simpa [onlyLeft] using both

theorem candidates_subset
    {row inner : Row}
    (candidate : inner ∈ join.candidates scope row) :
    inner ∈ join.rows := by
  obtain ⟨version, member, rfl⟩ := List.mem_map.mp candidate
  exact List.mem_map.mpr ⟨version, (List.mem_filter.mp member).1, rfl⟩

/-- Whichever operator the step has, it pairs each left row with its candidates. -/
theorem step_alike_probe
    (columnar : Bool)
    (hasher : List UInt8 → Nat)
    (typed : Typed scope left)
    (spillable : ∀ row ∈ left ++ join.rows, Spillable row)
    (both : join.onlyLeft = false) :
    Alike (join.step columnar hasher scope left)
      (probe (join.combined scope) join.on join.kind join.width (join.candidates scope) left) := by
  unfold step candidates looksAt
  rw [indexJoin_eq]
  cases picked : join.pick scope with
  | some pick =>
      obtain ⟨on, spec⟩ := pick_spec picked
      obtain ⟨found, ran, same⟩ :=
        @indexNestedLoopJoin_eq_probe _ (join.combined scope) scope.length join.width join.kind
          left join.schema join.table.toTable join.on pick.index pick.key pick.keyAt pick.inner
          spec.rooted spec.leads spec.resolved spec.keyed.bound
      have taken : (join.combined scope).take scope.length = scope := List.take_left
      rw [taken] at ran
      simp only [Option.map_some, ran]
      refine probe_alike (List.Perm.refl left) fun row _ => (same row).trans ?_
      refine List.Perm.of_eq (congrArg _ (List.filter_congr fun version _ => ?_))
      rw [Bool.eq_iff_iff, decide_eq_true_iff, Bool.and_eq_true_iff, decide_eq_true_iff,
        sameKey_iff]
  | none =>
      cases hashed : join.equiJoin scope with
      | some sides =>
          obtain ⟨probeCol, buildCol⟩ := sides
          obtain ⟨on, _, present, _⟩ := equiJoin_some hashed
          have sought (row : Row) :
              (join.visible.filter fun version =>
                  sameKey probeCol buildCol row version.values).map Version.values =
                join.rows.filter (sameKey probeCol buildCol row) := by
            rw [rows, innerRows, List.filter_map]
            rfl
          simp only [Option.map_none, sought]
          cases columnar with
          | true =>
              simp only [if_true, batchHashJoin_eq (storable typed), List.flatten_singleton,
                hashJoin_eq_probe]
              exact Alike.refl _
          | false =>
              rw [present]
              refine graceHashJoin_alike hasher probeCol buildCol
                (fun row listed => ⟨(typed row listed).1, ?_⟩)
                fun row listed => ⟨(input typed).rightWidth row listed, ?_⟩
              · exact spillable row (List.mem_append_left _ listed)
              · exact spillable row (List.mem_append_right _ listed)
      | none =>
          have all :
              (join.visible.filter fun _ => true).map Version.values = join.rows := by
            rw [List.filter_true]
            rfl
          simp only [Option.map_none, all, both]
          cases columnar with
          | true =>
              simp only [Bool.not_false, Bool.and_self, if_true,
                batchNestedLoopJoin_eq (not_onlyLeft both) (storable typed),
                List.flatten_singleton, nestedLoopJoin_eq_probe (not_onlyLeft both)]
              exact Alike.refl _
          | false =>
              simp only [Bool.false_and, Bool.false_eq_true, if_false,
                nestedLoopJoin_eq_probe (not_onlyLeft both)]
              exact Alike.refl _

theorem eachLeft_mem
    {given : Row → Except Error (List Row)}
    {all : List Row}
    {combined : Row}
    (ran : eachLeft given left = .ok all)
    (member : combined ∈ all) :
    ∃ row ∈ left, ∃ here, given row = .ok here ∧ combined ∈ here := by
  induction left generalizing all with
  | nil => cases ran; cases member
  | cons row rest inductionHypothesis =>
      rw [eachLeft] at ran
      cases first : given row with
      | error error => rw [first] at ran; cases ran
      | ok here =>
          rw [first] at ran
          cases later : eachLeft given rest with
          | error error => rw [later] at ran; cases ran
          | ok others =>
              rw [later] at ran
              cases ran
              rcases List.mem_append.mp member with inFirst | inLater
              · exact ⟨row, List.mem_cons_self, here, first, inFirst⟩
              · obtain ⟨other, listed, found⟩ := inductionHypothesis later inLater
                exact ⟨other, List.mem_cons_of_mem _ listed, found⟩

theorem pairs_mem
    {scope : Scope}
    {on : Option (Expr Query)}
    {row combined : Row}
    {right kept : List Row}
    (ran : pairs scope on row right = .ok kept)
    (member : combined ∈ kept) :
    ∃ inner ∈ right, combined = row ++ inner := by
  have evaluates :
      ∀ inner ∈ right, ∃ keep, passesFilter on scope (row ++ inner) = .ok keep := by
    intro inner listed
    cases verdict : passesFilter on scope (row ++ inner) with
    | ok keep => exact ⟨keep, rfl⟩
    | error error =>
        obtain ⟨stopped, failed⟩ := pairs_error listed verdict
        exact nomatch ran.symm.trans failed
  rw [pairs_ok evaluates] at ran
  cases ran
  obtain ⟨inner, found, rfl⟩ := List.mem_map.mp member
  exact ⟨inner, (List.mem_filter.mp found).1, rfl⟩

theorem nestedLoopRow_onlyLeft
    {row combined : Row}
    {scope : Scope}
    {here : List Row}
    (single : join.onlyLeft = true)
    (ran : nestedLoopRow scope join.on join.kind join.width join.rows row = .ok here)
    (member : combined ∈ here) :
    combined = row := by
  have kinds : join.kind = .semi ∨ join.kind = .anti := by
    simpa [onlyLeft] using single
  rcases kinds with kind | kind
  all_goals
    rw [kind, nestedLoopRow] at ran
    cases found : anyMatch scope join.on row join.rows with
    | error error => rw [found] at ran; cases ran
    | ok matched =>
        rw [found] at ran
        cases matched <;> cases ran <;>
          first | exact List.mem_singleton.mp member | exact absurd member List.not_mem_nil

theorem step_onlyLeft
    (columnar : Bool)
    (hasher : List UInt8 → Nat)
    (single : join.onlyLeft = true) :
    join.step columnar hasher scope left =
      nestedLoopJoin (join.combined scope) join.on join.kind join.width left join.rows := by
  simp [step, indexJoin, equiJoin, single]

/-- The rows a step hands out have values for the columns it adds. -/
theorem step_typed
    {columnar : Bool}
    {hasher : List UInt8 → Nat}
    {next : List Row}
    (typed : Typed scope left)
    (spillable : ∀ row ∈ left ++ join.rows, Spillable row)
    (stepped : join.step columnar hasher scope left = .ok next) :
    Typed (join.outScope scope) next := by
  intro combined member
  cases both : join.onlyLeft with
  | true =>
      rw [step_onlyLeft columnar hasher both] at stepped
      obtain ⟨row, listed, here, ran, found⟩ := eachLeft_mem stepped member
      rw [nestedLoopRow_onlyLeft both ran found, outScope, if_pos both]
      exact typed row listed
  | false =>
      have alike := step_alike_probe columnar hasher typed spillable both
      rw [stepped] at alike
      cases probed : probe (join.combined scope) join.on join.kind join.width
          (join.candidates scope) left with
      | error error => rw [probed] at alike; exact alike.elim
      | ok rows =>
          rw [probed] at alike
          obtain ⟨row, listed, here, ran, found⟩ :=
            eachLeft_mem probed (List.Perm.mem_iff alike |>.mp member)
          have wide : join.outScope scope = join.combined scope := by simp [outScope, both]
          rw [wide]
          cases paired : pairs (join.combined scope) join.on row (join.candidates scope row) with
          | error error => rw [paired] at ran; cases ran
          | ok kept =>
              rw [paired] at ran
              cases ran
              unfold padded at found
              split at found
              case isTrue =>
                obtain rfl := List.mem_singleton.mp found
                exact (input typed).fits_padded listed
              case isFalse =>
                obtain ⟨inner, candidate, rfl⟩ := pairs_mem paired found
                have inRows := candidates_subset candidate
                exact (input typed).fits listed ((input typed).rightWidth inner inRows)
                  ((input typed).rightTyped inner inRows)

/-- The joined rows agree when every accepted pair is looked at in both runs or in neither. -/
theorem perm_kept_iff
    {scope : Scope}
    {on : Option (Expr Query)}
    {kind : JoinKind}
    {rightWidth leftLen : Nat}
    {versions : List Version}
    {looks other : Row → Version → Bool}
    (byValue : ∀ row, ∀ version ∈ versions, ∀ twin ∈ versions,
      version.values = twin.values → other row version = other row twin)
    (widths : ∀ row ∈ left, row.length = leftLen)
    (present : ∀ row ∈ left, ∀ version ∈ versions,
      accepts scope on row version.values = true →
        version.values ≠ List.replicate rightWidth .null) :
    (left.flatMap fun row =>
        padded kind rightWidth row
          ((((versions.filter (looks row)).map Version.values).filter
            (accepts scope on row)).map (row ++ ·))).Perm
      (left.flatMap fun row =>
        padded kind rightWidth row
          ((((versions.filter (other row)).map Version.values).filter
            (accepts scope on row)).map (row ++ ·))) ↔
      ∀ row ∈ left, ∀ version ∈ versions,
        accepts scope on row version.values = true → looks row version = other row version := by
  constructor
  · intro same row rowListed version stored accepted
    have lengths : ∀ head ∈ left, head.length = row.length :=
      fun head listed => (widths head listed).trans (widths row rowListed).symm
    have counts := same.count_eq (row ++ version.values)
    rw [count_pairs lengths accepted (present row rowListed version stored accepted),
      count_pairs lengths accepted (present row rowListed version stored accepted)] at counts
    have held := Nat.eq_of_mul_eq_mul_left (List.count_pos_iff.mpr rowListed) counts
    cases found : other row version with
    | true =>
        rw [KeyedBuckets.count_map_filter_eq_iff.mpr fun twin listed equal =>
          (byValue row twin listed version stored equal).trans found] at held
        exact KeyedBuckets.count_map_filter_eq_iff.mp held version stored rfl
    | false =>
        rw [KeyedBuckets.count_map_filter_eq_zero_iff.mpr fun twin listed equal =>
          (byValue row twin listed version stored equal).trans found] at held
        exact KeyedBuckets.count_map_filter_eq_zero_iff.mp held version stored rfl
  · intro agree
    refine List.Perm.of_eq (List.flatMap_congr fun row listed => ?_)
    rw [List.filter_map, List.filter_map, List.filter_filter, List.filter_filter]
    refine congrArg _ (congrArg _ (congrArg _ (List.filter_congr fun version stored => ?_)))
    cases accepted : accepts scope on row version.values with
    | false => simp [accepted]
    | true => simp [accepted, agree row listed version stored accepted]

theorem pickSides_finished_none
    {leftLen : Nat}
    {schema : Schema}
    {first second : Expr Query}
    (nothing : pickSides scope leftLen schema first second = none) :
    pickSides scope leftLen (BuildingIndexes.finished schema) first second = none := by
  unfold pickSides at nothing ⊢
  cases sides : equiSides scope leftLen first second with
  | none => rfl
  | some found =>
      obtain ⟨key, keyAt, inner⟩ := found
      rw [sides] at nothing
      simp only [Option.bind_eq_bind, Option.bind_some, Option.bind_eq_none_iff] at nothing ⊢
      intro index served
      have listed := List.mem_of_find?_eq_some served
      have leads := List.find?_some served
      cases other : schema.indexes.find? fun index => index.columns.head? = some inner with
      | some pick => exact nomatch nothing pick other
      | none =>
          exact absurd leads
            (List.find?_eq_none.mp other index (List.mem_filter.mp listed).1)

theorem pickSides_finished_some
    {leftLen : Nat}
    {schema : Schema}
    {first second : Expr Query}
    {pick : Pick}
    (served : pickSides scope leftLen schema first second = some pick)
    (complete : pick.index.isBuilding = false) :
    pickSides scope leftLen (BuildingIndexes.finished schema) first second = some pick := by
  unfold pickSides at served ⊢
  obtain ⟨⟨key, keyAt, inner⟩, sides, further⟩ := Option.bind_eq_some_iff.mp served
  obtain ⟨index, found, last⟩ := Option.bind_eq_some_iff.mp further
  cases last
  have stays :
      (BuildingIndexes.finished schema).indexes.find?
          (fun other => other.columns.head? = some inner) =
        some index :=
    find?_filter_of_kept found (by simpa using complete)
  simp only [sides, Option.bind_eq_bind, Option.bind_some, stays]

theorem finished_unpicked
    (unpicked : join.Unpicked scope) :
    join.finished.pick scope = join.pick scope := by
  unfold Unpicked at unpicked
  unfold Join.pick at unpicked ⊢
  change (if join.onlyLeft = true then none else join.on.bind _) = _
  cases both : join.onlyLeft with
  | true => rfl
  | false =>
      rw [both] at unpicked
      cases present : join.on with
      | none => rfl
      | some on =>
          rw [present] at unpicked
          have fewer := @findEquality_fewer _ _
            (pickSides (join.combined scope) scope.length join.schema)
            (pickSides (join.combined scope) scope.length (BuildingIndexes.finished join.schema))
            (fun pick => pick.index.isBuilding = false)
            (fun _ _ _ => pickSides_finished_some)
            (fun _ _ => pickSides_finished_none)
            on
          simp only [Bool.false_eq_true, if_false, Option.bind_some] at unpicked ⊢
          cases picked :
              findEquality (pickSides (join.combined scope) scope.length join.schema) on with
          | none => exact fewer.2 picked
          | some pick => exact fewer.1 pick picked (unpicked pick picked)

theorem looksAt_unpicked
    (unpicked : join.Unpicked scope) :
    join.finished.looksAt scope = join.looksAt scope := by
  funext row version
  unfold looksAt
  rw [finished_unpicked unpicked]
  rfl

/-- With all the entries in the picked index, the rows that meet are those looked at. -/
theorem looksAt_of_entered
    (entered :
      ∀ pick ∈ join.pick scope, ∀ version ∈ join.visible,
        pick.index.key version ∈ join.table.trees pick.index.root)
    (row : Row)
    {version : Version}
    (stored : version ∈ join.visible) :
    join.looksAt scope row version = join.meets scope row version.values := by
  unfold looksAt meets
  cases picked : join.pick scope with
  | none => rfl
  | some pick => simp [entered pick picked version stored]

theorem looksAt_finished
    (row : Row)
    {version : Version}
    (stored : version ∈ join.visible) :
    join.finished.looksAt scope row version =
      join.finished.meets scope row version.values := by
  refine looksAt_of_entered (fun pick picked other member => ?_) row stored
  obtain ⟨on, spec⟩ := pick_spec picked
  obtain ⟨declared, complete⟩ := List.mem_filter.mp spec.listed
  have entries := join.table.indexed pick.index declared (by simpa using complete)
  exact entries.mem_iff.mpr
    (List.mem_map.mpr ⟨other, (List.mem_filter.mp member).1, rfl⟩)

/-- An accepted pair under an equality has an inner row that is no padding. -/
theorem accepted_present
    {pick : Pick}
    (typed : Typed scope left)
    (picked : join.pick scope = some pick)
    {row : Row}
    (rowListed : row ∈ left)
    {version : Version}
    (stored : version ∈ join.visible)
    (accepted : accepts (join.combined scope) join.on row version.values = true) :
    version.values ≠ List.replicate join.width .null := by
  obtain ⟨on, spec⟩ := pick_spec picked
  rw [spec.present] at accepted
  have inner : version.values ∈ join.rows := List.mem_map.mpr ⟨version, stored, rfl⟩
  have present :=
    (spec.keyed.accepted (input typed) rowListed inner (accepts_iff.mp accepted)).1
  intro padding
  rw [padding, column_replicate_null] at present
  exact present rfl

/--
With and without the indexes that are being built, the predicate fails on a pair
the step looks at, or in both cases it never does and the same accepted pairs
are looked at.
-/
def Undisturbed (scope : Scope) (join : Join Query) (left : List Row) : Prop :=
  (Fails (join.combined scope) join.on (join.candidates scope) left ∧
    Fails (join.combined scope) join.on (join.finished.candidates scope) left) ∨
  (¬ Fails (join.combined scope) join.on (join.candidates scope) left ∧
    ¬ Fails (join.combined scope) join.on (join.finished.candidates scope) left ∧
    ∀ row ∈ left, ∀ version ∈ join.visible,
      accepts (join.combined scope) join.on row version.values = true →
        join.looksAt scope row version = join.finished.looksAt scope row version)

theorem undisturbed_unpicked
    (unpicked : join.Unpicked scope) :
    join.Undisturbed scope left := by
  have looks := looksAt_unpicked unpicked
  have same : join.finished.candidates scope = join.candidates scope := by
    funext row
    unfold candidates
    rw [looks]
    rfl
  unfold Undisturbed
  rw [same, looks]
  by_cases fails : Fails (join.combined scope) join.on (join.candidates scope) left
  · exact Or.inl ⟨fails, fails⟩
  · exact Or.inr ⟨fails, fails, fun _ _ _ _ _ => rfl⟩

/-- One step, with the indexes that are being built and without them. -/
theorem step_alike_iff
    (columnar wide : Bool)
    (hasher other : List UInt8 → Nat)
    (typed : Typed scope left)
    (spillable : ∀ row ∈ left ++ join.rows, Spillable row)
    (both : join.onlyLeft = false) :
    Alike (join.step columnar hasher scope left) (join.finished.step wide other scope left) ↔
      join.Undisturbed scope left := by
  have first := step_alike_probe columnar hasher typed spillable both
  have second := @step_alike_probe _ scope join.finished left wide other typed spillable both
  have probes :
      Alike (join.step columnar hasher scope left)
          (join.finished.step wide other scope left) ↔
        Alike
          (probe (join.combined scope) join.on join.kind join.width
            (join.candidates scope) left)
          (probe (join.combined scope) join.on join.kind join.width
            (join.finished.candidates scope) left) :=
    ⟨fun alike => first.symm.trans (alike.trans second),
      fun alike => first.trans (alike.trans second.symm)⟩
  rw [probes]
  cases picked : join.pick scope with
  | none =>
      have unpicked : join.Unpicked scope := by simp [Unpicked, picked]
      have same : join.finished.candidates scope = join.candidates scope := by
        funext row
        unfold candidates
        rw [looksAt_unpicked unpicked]
        rfl
      rw [same]
      exact iff_of_true (Alike.refl _) (undisturbed_unpicked unpicked)
  | some pick =>
      rw [probe_alike_iff]
      refine or_congr Iff.rfl (and_congr_right fun _ => and_congr_right fun _ => ?_)
      refine perm_kept_iff ?_ (fun row listed => (typed row listed).1) ?_
      · intro row version stored twin listed same
        rw [looksAt_finished row stored, looksAt_finished row listed, same]
      · exact fun row rowListed version stored =>
          accepted_present typed picked rowListed stored

/-- The order of the left rows does not show in what a step hands out. -/
theorem step_perm
    {others : List Row}
    (columnar : Bool)
    (hasher : List UInt8 → Nat)
    (typed : Typed scope left)
    (spillable : ∀ row ∈ left ++ join.rows, Spillable row)
    (same : left.Perm others) :
    Alike (join.step columnar hasher scope left) (join.step columnar hasher scope others) := by
  cases both : join.onlyLeft with
  | true =>
      rw [step_onlyLeft columnar hasher both, step_onlyLeft columnar hasher both]
      exact eachLeft_alike same fun row _ => Alike.refl _
  | false =>
      have otherTyped : Typed scope others := fun row listed => typed row (same.mem_iff.mpr listed)
      have otherSpillable : ∀ row ∈ others ++ join.rows, Spillable row := fun row listed =>
        spillable row ((same.append_right join.rows).mem_iff.mpr listed)
      have probes := @probe_alike _ (join.combined scope) join.on join.kind join.width left
        (join.candidates scope) (join.candidates scope) others same
        fun row _ => List.Perm.refl _
      exact (step_alike_probe columnar hasher typed spillable both).trans
        (probes.trans (step_alike_probe columnar hasher otherTyped otherSpillable both).symm)

end Step

/-! ### Every content of the unfinished indexes -/

section Contents

variable
  {Query : Type}
  {scope : Scope}
  {join : Join Query}
  {left : List Row}

theorem rows_over
    {other : State join.schema}
    (beside : join.table.Beside other) :
    (join.over other).rows = join.rows := by
  unfold rows innerRows
  exact congrArg (fun versions => (versions.filter Version.visible).map Version.values)
    beside.versions

theorem clear_over
    {other : State join.schema}
    (beside : join.table.Beside other)
    (clear : join.Clear scope left) :
    (join.over other).Clear scope left := by
  refine clear.imp id fun quiet row rowListed inner innerListed => ?_
  rw [rows_over beside] at innerListed
  exact quiet row rowListed inner innerListed

theorem undisturbed_of_clear
    (clear : join.Clear scope left) :
    join.Undisturbed scope left := by
  rcases clear with unpicked | quiet
  · exact undisturbed_unpicked unpicked
  · have rejected
        {row : Row}
        {version : Version}
        (rowListed : row ∈ left)
        (stored : version ∈ join.visible)
        (looked :
          join.looksAt scope row version = true ∨
            join.finished.looksAt scope row version = true) :
        passesFilter join.on (join.combined scope) (row ++ version.values) = .ok false := by
      refine quiet row rowListed version.values (List.mem_map.mpr ⟨version, stored, rfl⟩) ?_
      rw [Bool.or_eq_true, ← looksAt_finished row stored]
      refine looked.imp_left fun seen => ?_
      unfold looksAt at seen
      unfold meets
      cases picked : join.pick scope with
      | none => rwa [picked] at seen
      | some pick =>
          rw [picked] at seen
          exact (Bool.and_eq_true_iff.mp seen).1
    refine Or.inr ⟨?_, ?_, ?_⟩
    · rintro ⟨row, rowListed, inner, candidate, error, failed⟩
      obtain ⟨version, member, rfl⟩ := List.mem_map.mp candidate
      obtain ⟨stored, seen⟩ := List.mem_filter.mp member
      cases failed.symm.trans (rejected rowListed stored (Or.inl seen))
    · rintro ⟨row, rowListed, inner, candidate, error, failed⟩
      obtain ⟨version, member, rfl⟩ := List.mem_map.mp candidate
      obtain ⟨stored, seen⟩ := List.mem_filter.mp member
      cases failed.symm.trans (rejected rowListed stored (Or.inr seen))
    · intro row rowListed version stored accepted
      have unseen (looked : Bool) (same : looked = true →
          passesFilter join.on (join.combined scope) (row ++ version.values) = .ok false) :
          looked = false := by
        cases looked with
        | false => rfl
        | true => cases (accepts_iff.mp accepted).symm.trans (same rfl)
      rw [unseen _ fun seen => rejected rowListed stored (Or.inl seen),
        unseen _ fun seen => rejected rowListed stored (Or.inr seen)]

end Contents

end Join

namespace State

variable {schema : Schema} (table : State schema)

theorem beside_filled (full : Bool) : table.Beside (table.filled full) where
  versions := rfl
  trees := fun _ listed complete => contents_finished table full listed complete

end State

namespace Join

variable
  {Query : Type}
  {scope : Scope}
  {join : Join Query}
  {left : List Row}

theorem looksAt_emptied
    {pick : Pick}
    (picked : join.pick scope = some pick)
    (building : pick.index.isBuilding = true)
    (row : Row)
    (version : Version) :
    (join.over (join.table.filled false)).looksAt scope row version = false := by
  obtain ⟨on, spec⟩ := pick_spec picked
  have empty : (join.table.filled false).trees pick.index.root = [] :=
    join.table.contents_unfinished false spec.listed building
  have same : (join.over (join.table.filled false)).pick scope = some pick := picked
  unfold looksAt
  rw [same]
  simp only [Join.over, empty, List.not_mem_nil, decide_false, Bool.and_false]

theorem looksAt_filled
    {pick : Pick}
    (picked : join.pick scope = some pick)
    (building : pick.index.isBuilding = true)
    (row : Row)
    {version : Version}
    (stored : version ∈ join.visible) :
    (join.over (join.table.filled true)).looksAt scope row version =
      join.meets scope row version.values := by
  refine @looksAt_of_entered _ scope (join.over (join.table.filled true)) ?_ row version stored
  intro other found version member
  obtain rfl : other = pick := Option.some.inj (Eq.symm found |>.trans picked)
  obtain ⟨on, spec⟩ := pick_spec picked
  have full :
      (join.table.filled true).trees other.index.root =
        join.table.versions.map other.index.key :=
    join.table.contents_unfinished true spec.listed building
  change _ ∈ (join.table.filled true).trees other.index.root
  rw [full]
  exact List.mem_map.mpr ⟨version, (List.mem_filter.mp member).1, rfl⟩

/-- A pair on which the predicate neither fails nor accepts is rejected. -/
theorem rejected
    {row : Row}
    {version : Version}
    {looks : Row → Version → Bool}
    (rowListed : row ∈ left)
    (stored : version ∈ join.visible)
    (looked : looks row version = true)
    (succeeds :
      ¬ Fails (join.combined scope) join.on
        (fun row => (join.visible.filter (looks row)).map Version.values) left)
    (refused :
      passesFilter join.on (join.combined scope) (row ++ version.values) ≠ .ok true) :
    passesFilter join.on (join.combined scope) (row ++ version.values) = .ok false := by
  cases verdict : passesFilter join.on (join.combined scope) (row ++ version.values) with
  | error error =>
      have candidate : version.values ∈ (join.visible.filter (looks row)).map Version.values :=
        List.mem_map.mpr ⟨version, List.mem_filter.mpr ⟨stored, looked⟩, rfl⟩
      exact absurd ⟨row, rowListed, version.values, candidate, error, verdict⟩ succeeds
  | ok keep =>
      cases keep with
      | true => exact absurd verdict refused
      | false => rfl

/-- A step that no content disturbs is disturbed neither by an empty nor by a complete index. -/
theorem clear_of_undisturbed
    (undisturbed :
      ∀ full, (join.over (join.table.filled full)).Undisturbed scope left) :
    join.Clear scope left := by
  by_cases unpicked : join.Unpicked scope
  · exact Or.inl unpicked
  · obtain ⟨pick, picked, building⟩ :
        ∃ pick, join.pick scope = some pick ∧ pick.index.isBuilding = true := by
      simpa [Unpicked] using unpicked
    have emptied := looksAt_emptied picked building
    have without (full : Bool) {row : Row} {version : Version} (stored : version ∈ join.visible) :
        (join.over (join.table.filled full)).finished.looksAt scope row version =
          join.finished.meets scope row version.values :=
      @looksAt_finished _ scope (join.over (join.table.filled full)) row version stored
    -- An empty index shows what the step without it may not hand out.
    have apart : ∀ row ∈ left, ∀ version ∈ join.visible,
        join.finished.meets scope row version.values = true →
          passesFilter join.on (join.combined scope) (row ++ version.values) = .ok false := by
      intro row rowListed version stored met
      rcases undisturbed false with ⟨⟨other, _, inner, candidate, _⟩, _⟩ | ⟨_, succeeds, agree⟩
      · obtain ⟨twin, member, _⟩ := List.mem_map.mp candidate
        cases (emptied other twin).symm.trans (List.mem_filter.mp member).2
      · refine rejected rowListed stored ((without false stored).trans met) succeeds ?_
        intro accepted
        have same := agree row rowListed version stored (accepts_iff.mpr accepted)
        cases (emptied row version).symm.trans (same.trans ((without false stored).trans met))
    -- A complete one shows what the lookup may not hand out.
    have together : ∀ row ∈ left, ∀ version ∈ join.visible,
        join.meets scope row version.values = true →
          passesFilter join.on (join.combined scope) (row ++ version.values) = .ok false := by
      intro row rowListed version stored met
      rcases undisturbed true with
        ⟨_, other, otherListed, inner, candidate, error, failed⟩ | ⟨succeeds, _, agree⟩
      · obtain ⟨twin, member, rfl⟩ := List.mem_map.mp candidate
        obtain ⟨twinStored, seen⟩ := List.mem_filter.mp member
        have quiet := apart other otherListed twin twinStored ((without true twinStored).symm.trans seen)
        cases quiet.symm.trans failed
      · have looked := (looksAt_filled picked building row stored).trans met
        refine rejected rowListed stored looked succeeds ?_
        intro accepted
        have same := agree row rowListed version stored (accepts_iff.mpr accepted)
        have quiet := apart row rowListed version stored
          ((without true stored).symm.trans (same.symm.trans looked))
        cases quiet.symm.trans accepted
    refine Or.inr fun row rowListed inner innerListed met => ?_
    obtain ⟨version, stored, rfl⟩ := List.mem_map.mp innerListed
    rcases Bool.or_eq_true_iff.mp met with here | there
    · exact together row rowListed version stored here
    · exact apart row rowListed version stored there

theorem unpicked_onlyLeft (single : join.onlyLeft = true) : join.Unpicked scope := by
  simp [Unpicked, Join.pick, single]

/-- Whatever the unfinished indexes hold, exactly a step that is clear of them does not show it. -/
theorem step_clear_iff
    (columnar wide : Bool)
    (hasher different : List UInt8 → Nat)
    (typed : Typed scope left)
    (spillable : ∀ row ∈ left ++ join.rows, Spillable row) :
    (∀ other, join.table.Beside other →
        Alike ((join.over other).step columnar hasher scope left)
          ((join.over other).finished.step wide different scope left)) ↔
      join.Clear scope left := by
  cases both : join.onlyLeft with
  | true =>
      refine iff_of_true (fun other _ => ?_) (Or.inl (unpicked_onlyLeft both))
      have first := @step_onlyLeft _ scope (join.over other) left columnar hasher both
      have second := @step_onlyLeft _ scope (join.over other).finished left wide different both
      rw [first, second]
      exact Alike.refl _
  | false =>
      have exactly (other : State join.schema) (beside : join.table.Beside other) :=
        @step_alike_iff _ scope (join.over other) left columnar wide hasher different typed
          (by rwa [rows_over beside]) both
      constructor
      · intro alike
        refine clear_of_undisturbed fun full => ?_
        have beside := join.table.beside_filled full
        exact (exactly _ beside).mp (alike _ beside)
      · intro clear other beside
        exact (exactly other beside).mpr (undisturbed_of_clear (clear_over beside clear))

end Join

/-! ## The run of the joins -/

section Runs

variable {Query : Type}

theorem joinRows_alike
    (columnar wide : Bool)
    (hasher different : List UInt8 → Nat)
    {scope : Scope}
    {joins : List (Join Query)}
    {rows others : List Row}
    (same : rows.Perm others)
    (typed : Typed scope rows)
    (clear : RunClear columnar hasher scope joins rows) :
    Alike (joinRows columnar hasher scope joins rows)
      (joinRows wide different scope (joins.map Join.finished) others) := by
  induction joins generalizing scope rows others with
  | nil => exact same
  | cons join rest inductionHypothesis =>
      obtain ⟨spillable, here, later⟩ := clear
      have alone :=
        (join.step_clear_iff columnar wide hasher different typed spillable).mpr here join.table
          ⟨rfl, fun _ _ _ => rfl⟩
      have stepped : Alike (join.step columnar hasher scope rows)
          (join.finished.step wide different scope others) :=
        alone.trans (join.finished.step_perm wide different typed spillable same)
      rw [List.map_cons, joinRows, joinRows]
      change Alike (ite _ _ _)
        (ite ((scope.any fun column => column.table = join.qualifier) = true) _ _)
      by_cases twice : (scope.any fun column => column.table = join.qualifier) = true
      · rw [if_pos twice, if_pos twice]
        trivial
      · rw [if_neg twice, if_neg twice]
        cases first : join.step columnar hasher scope rows with
        | error error =>
            rw [first] at stepped
            cases second : join.finished.step wide different scope others with
            | error error => trivial
            | ok next => rw [second] at stepped; exact stepped.elim
        | ok next =>
            rw [first] at stepped
            cases second : join.finished.step wide different scope others with
            | error error => rw [second] at stepped; exact stepped.elim
            | ok reference =>
                rw [second] at stepped
                exact inductionHypothesis stepped (join.step_typed typed spillable first)
                  (later next first)

end Runs

/-! ## Probes -/

section Probes

variable {schema : Schema}

theorem indexHasValue_iff
    {table : State schema}
    {index : Index}
    {childIdx : Nat}
    (rooted : Rooted table.toTable index)
    (columns : index.columns = [childIdx])
    (parentValue : Value) :
    indexHasValue table index (encodeIndexValue parentValue) = true ↔
      ∃ version ∈ table.versions,
        column version.values childIdx = parentValue ∧
          index.key version ∈ table.trees index.root := by
  have starts (version : Version) :
      encodeIndexValue parentValue <+: index.key version ↔
        column version.values childIdx = parentValue := by
    rw [Index.key, encodeIndexKey, columns]
    simp only [encodeIndexValuePrefix, List.flatMap_cons, List.flatMap_nil, List.append_nil]
    exact encodeIndexValue_isPrefix_iff
  simp only [indexHasValue, keysHaveValue, List.any_eq_true,
    ReadPaths.inIndexRange_prefixUpperBound]
  constructor
  · rintro ⟨key, entry, inRange⟩
    obtain ⟨version, stored, rfl⟩ := rooted key entry
    exact ⟨version, stored, (starts version).mp inRange, entry⟩
  · rintro ⟨version, _, same, entry⟩
    exact ⟨index.key version, entry, (starts version).mpr same⟩

theorem rooted_listed
    (table : State schema)
    {index : Index}
    (listed : index ∈ schema.indexes) :
    Rooted table.toTable index := by
  cases building : index.isBuilding with
  | true => exact table.partly index listed building
  | false => exact rooted_of_finished listed building

theorem scanChild_found
    {table : State schema}
    {childIdx : Nat}
    {parentValue : Value}
    {index : Index}
    (found : schema.indexes.find? (fun index => index.columns = [childIdx]) = some index) :
    scanChildForFkValue table childIdx parentValue = true ↔
      ∃ version ∈ table.versions,
        column version.values childIdx = parentValue ∧
          index.key version ∈ table.trees index.root := by
  have columns := List.find?_some found
  simp only [decide_eq_true_eq] at columns
  unfold scanChildForFkValue
  rw [found]
  exact indexHasValue_iff (rooted_listed table (List.mem_of_find?_eq_some found)) columns
    parentValue

theorem scanChild_finished_found
    {table : State schema}
    {childIdx : Nat}
    {parentValue : Value}
    {index : Index}
    (found :
      (finished schema).indexes.find? (fun index => index.columns = [childIdx]) = some index) :
    scanChildForFkValue table.finished childIdx parentValue = true ↔
      ∃ version ∈ table.versions, column version.values childIdx = parentValue := by
  rw [scanChild_found found]
  have listed := List.mem_of_find?_eq_some found
  obtain ⟨declared, complete⟩ := List.mem_filter.mp listed
  have entries := table.indexed index declared (by simpa using complete)
  refine exists_congr fun version => and_congr_right fun stored => and_iff_left ?_
  exact entries.mem_iff.mpr (List.mem_map.mpr ⟨version, stored, rfl⟩)

theorem scanChild_unindexed
    {table : State schema}
    {childIdx : Nat}
    {parentValue : Value}
    (nothing : schema.indexes.find? (fun index => index.columns = [childIdx]) = none) :
    scanChildForFkValue table childIdx parentValue = true ↔
      ∃ version ∈ table.versions, (column version.values childIdx).equal parentValue = true := by
  unfold scanChildForFkValue
  rw [nothing]
  simp [childHasValue]

/-- A probe that finds nothing without the unfinished indexes. -/
theorem scanChild_finished_false_iff
    {table : State schema}
    {childIdx : Nat}
    {parentValue : Value}
    (absent :
      ∀ version ∈ table.versions, column version.values childIdx ≠ parentValue) :
    scanChildForFkValue table.finished childIdx parentValue = false ↔
      ∀ version ∈ table.versions,
        ((finished schema).indexes.any fun index => index.columns = [childIdx]) = true ∨
          (column version.values childIdx).equal parentValue = false := by
  rw [← Bool.not_eq_true, ← List.isSome_find?]
  cases found : (finished schema).indexes.find? fun index => index.columns = [childIdx] with
  | some index =>
      rw [scanChild_finished_found found]
      refine iff_of_true ?_ fun _ _ => Or.inl rfl
      rintro ⟨version, stored, same⟩
      exact absent version stored same
  | none =>
      rw [scanChild_unindexed found]
      simp [State.finished]

theorem scanChild_finished_beside
    {table other : State schema}
    (beside : table.Beside other)
    (childIdx : Nat)
    (parentValue : Value) :
    scanChildForFkValue other.finished childIdx parentValue =
      scanChildForFkValue table.finished childIdx parentValue := by
  rw [Bool.eq_iff_iff]
  cases found : (finished schema).indexes.find? fun index => index.columns = [childIdx] with
  | some index => rw [scanChild_finished_found found, scanChild_finished_found found, beside.versions]
  | none =>
      rw [scanChild_unindexed found, scanChild_unindexed found]
      simp only [State.finished, beside.versions]

theorem scanChild_unpicked
    (table : State schema)
    {childIdx : Nat}
    (parentValue : Value)
    (unpicked :
      ∀ index ∈ schema.indexes.find? (fun index => index.columns = [childIdx]),
        index.isBuilding = false) :
    scanChildForFkValue table childIdx parentValue =
      scanChildForFkValue table.finished childIdx parentValue := by
  have same :
      (finished schema).indexes.find? (fun index => index.columns = [childIdx]) =
        schema.indexes.find? fun index => index.columns = [childIdx] := by
    cases found : schema.indexes.find? fun index => index.columns = [childIdx] with
    | some index => exact find?_filter_of_kept found (by simp [unpicked index found])
    | none =>
        refine List.find?_eq_none.mpr fun index listed => ?_
        exact List.find?_eq_none.mp found index (List.mem_filter.mp listed).1
  unfold scanChildForFkValue
  rw [same]
  rfl

/-- Whatever the unfinished indexes hold, exactly a probe that is clear does not show it. -/
theorem scanChild_clear_iff
    (table : State schema)
    (childIdx : Nat)
    (parentValue : Value) :
    (∀ other, table.Beside other →
        scanChildForFkValue other childIdx parentValue =
          scanChildForFkValue other.finished childIdx parentValue) ↔
      ProbeClear table childIdx parentValue := by
  by_cases unpicked :
      ∀ index ∈ schema.indexes.find? (fun index => index.columns = [childIdx]),
        index.isBuilding = false
  · refine iff_of_true (fun other _ => scanChild_unpicked other parentValue unpicked) ?_
    intro index found building
    cases building.symm.trans (unpicked index found)
  · obtain ⟨index, found, building⟩ :
        ∃ index,
          schema.indexes.find? (fun index => index.columns = [childIdx]) = some index ∧
            index.isBuilding = true := by
      simpa using unpicked
    have listed := List.mem_of_find?_eq_some found
    have held (full : Bool) :
        (table.filled full).trees index.root =
          if full then table.versions.map index.key else [] :=
      table.contents_unfinished full listed building
    constructor
    · intro same
      have nothing : scanChildForFkValue table.finished childIdx parentValue = false := by
        rw [← scanChild_finished_beside (table.beside_filled false),
          ← same _ (table.beside_filled false), ← Bool.not_eq_true, scanChild_found found, held]
        simp
      have absent : ∀ version ∈ table.versions, column version.values childIdx ≠ parentValue := by
        intro version stored shown
        have seen : scanChildForFkValue (table.filled true) childIdx parentValue = true := by
          rw [scanChild_found found, held]
          exact ⟨version, stored, shown, List.mem_map.mpr ⟨version, stored, rfl⟩⟩
        rw [same _ (table.beside_filled true),
          scanChild_finished_beside (table.beside_filled true), nothing] at seen
        cases seen
      intro other isOther _ version stored
      exact ⟨absent version stored,
        (scanChild_finished_false_iff absent).mp nothing version stored⟩
    · intro clear other beside
      have shown := clear index found building
      have nothing : scanChildForFkValue other childIdx parentValue = false := by
        rw [← Bool.not_eq_true, scanChild_found found, beside.versions]
        rintro ⟨version, stored, same, _⟩
        exact (shown version stored).1 same
      rw [nothing, scanChild_finished_beside beside]
      exact ((scanChild_finished_false_iff fun version stored => (shown version stored).1).mpr
        fun version stored => (shown version stored).2).symm

theorem checkNoChildReferences_finished
    (parent : String)
    {references : List Reference}
    (clear :
      ∀ reference ∈ references,
        ProbeClear reference.table reference.childIdx reference.parentValue) :
    checkNoChildReferences parent references =
      checkNoChildReferences parent (references.map Reference.finished) := by
  induction references with
  | nil => rfl
  | cons reference rest inductionHypothesis =>
      have later := inductionHypothesis fun other listed =>
        clear other (List.mem_cons_of_mem _ listed)
      have here :=
        (scanChild_clear_iff reference.table reference.childIdx reference.parentValue).mpr
          (clear reference List.mem_cons_self) reference.table ⟨rfl, fun _ _ _ => rfl⟩
      rw [List.map_cons, checkNoChildReferences, checkNoChildReferences, here, later]
      rfl

/-- A search among unique indexes passes by the ones that are being built. -/
theorem find_unique_finished
    (table : State schema)
    (suits : Index → Bool)
    (needsUnique : ∀ index, suits index = true → table.unique index.root = true) :
    (finished schema).indexes.find? suits = schema.indexes.find? suits := by
  unfold finished
  rw [← List.head?_filter, ← List.head?_filter, List.filter_filter]
  refine congrArg List.head? (List.filter_congr fun index listed => ?_)
  cases building : index.isBuilding with
  | false => exact Bool.and_true _
  | true =>
      have plain := table.plain index listed building
      cases suited : suits index with
      | false => rfl
      | true => exact nomatch (needsUnique index suited).symm.trans plain

theorem parentIndexRoot_finished
    (table : State schema)
    (parentIdx : Nat) :
    parentIndexRoot table.finished parentIdx = parentIndexRoot table parentIdx := by
  refine congrArg _ (find_unique_finished table _ fun index suited => ?_)
  exact (Bool.and_eq_true_iff.mp suited).1

theorem duplicateKey_finished
    (table : State schema)
    (values : List Value)
    (oldValues : Option (List Value)) :
    duplicateKey table.finished values oldValues = duplicateKey table values oldValues := by
  refine find_unique_finished table _ fun index suited => ?_
  exact unique_of_needsProbe (Bool.and_eq_true_iff.mp suited).1

end Probes

/-! ## Statements -/

section Statements

variable {schema : Schema} {Query : Type}

theorem selectAccess_finished
    (joins : List (Join Query))
    (filter : Option (Expr Query))
    (orderBy : List OrderKey) :
    selectAccess (finished schema) (joins.map Join.finished) filter orderBy =
      selectAccess schema joins filter orderBy := by
  unfold selectAccess
  rw [List.isEmpty_map, chooseAccess_finished]

theorem fullScan_typed
    (base : State schema)
    (qualifier : String)
    {versions : List Version}
    (stored : ∀ version ∈ versions, version ∈ base.versions) :
    Typed (schema.scope qualifier) (versions.map Version.values) := by
  intro row listed
  obtain ⟨version, member, rfl⟩ := List.mem_map.mp listed
  refine ⟨by rw [base.width version (stored version member), Schema.scope, List.length_map],
    fun position entry found => ?_⟩
  rw [Schema.scope, List.getElem?_map] at found
  obtain ⟨column, declared, rfl⟩ := Option.map_eq_some_iff.mp found
  exact base.typed version (stored version member) position column declared

theorem selectRows_alike
    (base : State schema)
    (qualifier : String)
    (wanted : Bool)
    (hasher different : List UInt8 → Nat)
    {joins : List (Join Query)}
    (filter : Option (Expr Query))
    (orderBy : List OrderKey)
    (clear : SelectClear base qualifier wanted hasher joins) :
    Alike (selectRows base qualifier wanted hasher joins filter orderBy)
      (selectRows base.finished qualifier wanted different (joins.map Join.finished) filter
        orderBy) := by
  unfold selectRows
  rw [selectAccess_finished, scan_finished]
  cases joins with
  | nil =>
      cases base.scan (selectAccess schema ([] : List (Join Query)) filter orderBy).1 with
      | error error => trivial
      | ok versions => exact List.Perm.refl _
  | cons join rest =>
      refine joinRows_alike _ _ hasher different (List.Perm.refl _) ?_ clear
      exact fullScan_typed base qualifier fun version member => (List.mem_filter.mp member).1

end Statements

/-! ## One row and an index without its entry -/

def unfinishedTemperatures : Schema where
  columns := [{ name := "degrees", type := .real }]
  indexes := [{ columns := [0], root := 7, isBuilding := true }]

/-- One row; the index holds its entry or not yet. -/
def halfBuilt (entered : Bool) : State unfinishedTemperatures where
  versions := [{ rowid := 1, values := [.real 0], visible := true }]
  trees := fun _ => if entered then [encodeIndexKey [.real 0] [0] 1] else []
  keyed := List.nodup_singleton _
  typed := (AccessPaths.measured 0).typed
  indexed := by
    intro index listed complete
    obtain rfl := List.mem_singleton.mp listed
    cases complete
  width := by
    intro version stored
    obtain rfl := List.mem_singleton.mp stored
    rfl
  unique := fun _ => false
  plain := fun _ _ _ => rfl
  apart := List.nodup_singleton _
  partly := by
    intro index listed _ key entry
    obtain rfl := List.mem_singleton.mp listed
    cases entered with
    | false => cases entry
    | true => exact ⟨_, List.mem_singleton_self _, List.mem_singleton.mp entry⟩

/-- `… JOIN t ON a.degrees = t.degrees`. -/
def halfBuiltJoin (entered : Bool) : Join Empty where
  schema := unfinishedTemperatures
  table := halfBuilt entered
  qualifier := "t"
  kind := .inner
  on := some sameDegrees

def outerScope : Scope := [{ table := "a", name := "degrees", type := .real }]

theorem outer_typed (bits : UInt64) : Typed outerScope [[.real bits]] := by
  intro row listed
  obtain rfl := List.mem_singleton.mp listed
  refine ⟨rfl, fun position entry found => ?_⟩
  match position with
  | 0 =>
      cases found
      rfl
  | _ + 1 => cases found

end PrehniteDB.BuildingIndexes
