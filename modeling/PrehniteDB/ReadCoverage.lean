import PrehniteDB.ReadStatements
import PrehniteDB.SsiBookkeeping

namespace PrehniteDB.ReadPaths

/-!
# Reads under read locks

Every operator of a scan records its lock before, or in one go with, what it
reads under it, and the operators above it read nothing themselves.  The two
exceptions are the lookups of an index nested-loop join and the probes of the
constraints, which record nothing: they lie under a lock only where the transaction
has the relation lock of their table already.
-/

variable {Value : Type}

/-- Whether a lock covers what was read; a relation lock covers the table's indexes too. -/
def Shields : ReadLock → Extent → Prop
  | .relation root, .version tableRoot _ => root = tableRoot
  | .relation root, .range tableRoot _ _ _ => root = tableRoot
  | .tuple root rowidKey, .version tableRoot rowid =>
      root = tableRoot ∧ rowidKey = rowid
  | .indexRange root lower upper, .range _ indexRoot first last =>
      root = indexRoot ∧
        ∀ key, inIndexRange first last key = true →
          inIndexRange lower upper key = true
  | _, _ => False

namespace Effect

/-- The lock an effect adds to the read set. -/
def lock? : Effect → Option ReadLock
  | .recordRead tableRoot rowid _ => some (.tuple tableRoot rowid)
  | .recordRelationRead tableRoot => some (.relation tableRoot)
  | .recordIndexRangeRead indexRoot lower upper =>
      some (.indexRange indexRoot lower upper)
  | .read _ _ => none

/-- What an effect does to the SSI map. -/
def record (own : Nat) (ssi : SsiMap) : Effect → SsiMap
  | .recordRead tableRoot rowid tombstoneBy =>
      ssi.recordRead (some own) tableRoot rowid tombstoneBy
  | .recordRelationRead tableRoot =>
      ssi.recordRelationRead (some own) tableRoot
  | .recordIndexRangeRead indexRoot lower upper =>
      ssi.recordIndexRangeRead (some own) indexRoot lower upper
  | .read _ _ => ssi

theorem record_extends
    (own : Nat)
    (ssi : SsiMap)
    (effect : Effect) :
    ssi.Extends (effect.record own ssi) := by
  cases effect with
  | recordRead tableRoot rowid peer =>
      exact SsiMap.recordRead_extends (some own) tableRoot rowid peer
  | recordRelationRead tableRoot =>
      exact SsiMap.recordRelationRead_extends (some own) tableRoot
  | recordIndexRangeRead indexRoot lower upper =>
      exact SsiMap.recordIndexRangeRead_extends (some own) indexRoot lower upper
  | read => exact .refl ssi

theorem lock_recorded
    {own : Nat}
    {ssi : SsiMap}
    {effect : Effect}
    {lock : ReadLock}
    (present : own ∈ ssi.keys)
    (taken : effect.lock? = some lock) :
    lock ∈ ((effect.record own ssi).entry own).readSet := by
  cases effect with
  | recordRead =>
      obtain rfl := Option.some.inj taken
      exact SsiMap.recordRead_lock _ _ _ present
  | recordRelationRead =>
      obtain rfl := Option.some.inj taken
      exact SsiMap.recordRelationRead_lock _ present
  | recordIndexRangeRead =>
      obtain rfl := Option.some.inj taken
      exact SsiMap.recordIndexRangeRead_lock _ _ _ present
  | read => cases taken

end Effect

/-- The SSI map once the effects have been recorded. -/
def recorded (own : Nat) (ssi : SsiMap) (effects : List Effect) : SsiMap :=
  effects.foldl (Effect.record own) ssi

/-- A lock in the read set of `own` covers the extent. -/
def Held (ssi : SsiMap) (own : Nat) (extent : Extent) : Prop :=
  ∃ lock ∈ (ssi.entry own).readSet, Shields lock extent

/-- What is read is covered by a lock among the effects, or by a relation lock held before. -/
def locking (held : UInt32 → Prop) : PullStream.Discipline Effect where
  allows performed effect :=
    match effect with
    | .read _ extent =>
        (∃ taken ∈ performed, ∃ lock ∈ taken.lock?, Shields lock extent) ∨
          ∃ root, held root ∧ Shields (.relation root) extent
    | _ => True
  kept := by
    intro performed more effect included allowed
    match effect with
    | .read _ _ =>
        refine allowed.imp_left ?_
        rintro ⟨taken, member, shielding⟩
        exact ⟨taken, included member, shielding⟩
    | .recordRead _ _ _ | .recordRelationRead _ | .recordIndexRangeRead _ _ _ => trivial

/-- The stream reads under locks alone. -/
abbrev Locked {Item : Type} (held : UInt32 → Prop) (stream : Stream Item) : Prop :=
  stream.Guarded (locking held) []

/-- The transaction has the relation lock of this table. -/
def Sheltered (held : UInt32 → Prop) (performed : List Effect) (root : UInt32) : Prop :=
  held root ∨ .recordRelationRead root ∈ performed

theorem Sheltered.allows
    {held : UInt32 → Prop}
    {performed more : List Effect}
    {root : UInt32}
    {via : Via}
    {extent : Extent}
    (sheltered : Sheltered held performed root)
    (shields : Shields (.relation root) extent) :
    (locking held).allows (performed ++ more) (.read via extent) := by
  rcases sheltered with before | taken
  · exact .inr ⟨root, before, shields⟩
  · exact .inl ⟨_, List.mem_append_left _ taken, _, rfl, shields⟩

/-- Every lock among the effects is in the read set afterwards. -/
theorem held_of_taken
    {own : Nat}
    {ssi : SsiMap}
    {effects : List Effect}
    {taken : Effect}
    {lock : ReadLock}
    {extent : Extent}
    (present : own ∈ ssi.keys)
    (member : taken ∈ effects)
    (taking : taken.lock? = some lock)
    (shields : Shields lock extent) :
    Held (recorded own ssi effects) own extent := by
  refine ⟨lock, ?_, shields⟩
  refine SsiMap.foldl_establishes (Effect.record_extends own)
    (fun map => lock ∈ (map.entry own).readSet)
    (fun extended held => (extended.grows own).locks lock held) member ?_
  intro map extended
  exact Effect.lock_recorded (extended.keys ▸ present) taking

section Scans

variable {held : UInt32 → Prop} (reader : Reader) (table : Table Value)

theorem scanRows_guarded
    {past : List Effect}
    (locked : .recordRelationRead table.root ∈ past)
    (rows : List (Nat × Record Value)) :
    (scanRows reader table rows).Guarded (locking held) past := by
  induction rows generalizing past with
  | nil => trivial
  | cons row rest inductionHypothesis =>
      simp only [scanRows]
      split_ifs
      · refine ⟨?_, inductionHypothesis (List.mem_append_left _ locked)⟩
        intro effect member
        obtain rfl := List.mem_singleton.mp member
        exact .inl ⟨_, List.mem_append_left _ locked, _, rfl, rfl⟩
      · exact inductionHypothesis locked

theorem indexRows_locked
    {past : List Effect}
    (seen : List Nat)
    (entries : List (Nat × Option (Record Value))) :
    (indexRows reader table seen entries).Guarded (locking held) past := by
  induction entries generalizing past seen with
  | nil => trivial
  | cons entry rest inductionHypothesis =>
      obtain ⟨rowid, found⟩ := entry
      simp only [indexRows]
      split_ifs
      · exact inductionHypothesis seen
      · cases found with
        | none => trivial
        | some record =>
            simp only
            split_ifs
            · refine ⟨?_, inductionHypothesis _⟩
              intro effect member
              rcases List.mem_pair.mp member with rfl | rfl
              · trivial
              · exact .inl ⟨.recordRead table.root rowid (tombstoneBy record),
                  by simp, _, rfl, rfl, rfl⟩
            · exact inductionHypothesis _

theorem opened_locked
    {Item : Type}
    {rest : Stream Item}
    (access : Interleaving.AccessPath)
    (locked : Locked held rest) :
    Locked held (.work (opened table access) rest) := by
  refine ⟨?_, locked.weaken⟩
  cases access with
  | fullScan => nofun
  | indexScan indexRoot lower upper =>
      intro effect member
      rcases List.mem_pair.mp member with rfl | rfl
      · trivial
      · exact .inl ⟨.recordIndexRangeRead indexRoot lower upper, by simp [opened], _,
          rfl, rfl, fun _ within => within⟩

theorem versions_locked (access : Interleaving.AccessPath) :
    Locked held (versions reader table access) := by
  cases access with
  | fullScan =>
      refine ⟨?_, scanRows_guarded reader table (by simp) _⟩
      intro effect member
      obtain rfl := List.mem_singleton.mp member
      trivial
  | indexScan indexRoot lower upper => exact indexRows_locked reader table [] _

theorem scanOperator_locked (access : Interleaving.AccessPath) :
    Locked held (scanOperator reader table access) :=
  (versions_locked reader table access).bind fun _ _ => trivial

theorem batchScan_locked (access : Interleaving.AccessPath) :
    Locked held (batchScan reader table access) :=
  (scanOperator_locked reader table access).batched _ _

theorem collectCandidates_locked (access : Interleaving.AccessPath) :
    Locked held (collectCandidates reader table access) :=
  opened_locked table access (versions_locked reader table access)

end Scans

/-! ## Lookups and probes under relation locks -/

section Conditions

variable (encoding : Encoding Value) (reader : Reader) (held : UInt32 → Prop)

/--
A join of the row pipeline looks nothing up, or does it in a table whose relation
lock is held, or for no left row.
-/
def StepSheltered (join : Join Value) (left : Stream (Row Value) × Scope) : Prop :=
  join.kind ≠ .semi → join.kind ≠ .anti →
    ∀ keyAt indexRoot,
      (join.on.bind fun on =>
          findIndexJoin left.2.length (left.2 ++ join.table.scope) join.table on.shape) =
        some (keyAt, indexRoot) →
      held join.table.root ∨
        ∀ row, left.1.Emits row → encoding.isNull (column encoding row keyAt) = true

def JoinsSheltered : Stream (Row Value) × Scope → List (Join Value) → Prop
  | _, [] => True
  | left, join :: rest =>
      StepSheltered encoding held join left ∧
        JoinsSheltered (joinStep encoding reader join left) rest

/-- One of the parallel paths is taken; neither looks anything up. -/
def Select.parallel (plan : Select Value) : Bool :=
  plan.parallelShape && (plan.joins.isEmpty || plan.parallelJoin.isSome)

/-- The relation lock is held, or the walk for the candidates has taken it. -/
def Under (access : Interleaving.AccessPath) (table : Table Value) (root : UInt32) : Prop :=
  held root ∨ access = .fullScan ∧ root = table.root

/-- Each table that an `UPDATE` of this row probes is under a relation lock. -/
structure UpdateSheltered
    (plan : Update Value)
    (constraints : Constraints Value)
    (old new : Row Value) : Prop where
  unique :
    ∀ index ∈ constraints.own.indexes,
      index.unique = true →
        (index.columns.any fun position =>
            encoding.isNull (column encoding new position)) = false →
          (index.columns.all fun position =>
              encoding.equal (column encoding new position) (column encoding old position)) =
            false →
            Under held plan.access plan.table constraints.own.root
  parents :
    ∀ key ∈ constraints.foreignKeys,
      encoding.isNull (column encoding new key.column) = false →
        Under held plan.access plan.table key.parent.root
  children :
    parentChanged encoding plan.table old new = true →
      ∀ child ∈ constraints.children, Under held plan.access plan.table child.table.root

/-- The delete action probes the child for the value. -/
def Child.probed (child : Child Value) : Bool :=
  match child.onDelete with
  | .restrict => true
  | .cascade => false
  | .setNull => (child.table.columns[child.column]?).any Column.notNull

/--
The statements that look up and probe nothing outside the relation locks their
transaction held before, or has taken for the walk of the statement itself.
-/
inductive ReadsSheltered : Stream (Row Value) → Prop where
  | select
      (plan : Select Value)
      (joins :
        plan.parallel = false →
          JoinsSheltered encoding reader held
            (scanOperator reader plan.table plan.access, plan.table.scope) plan.joins)
      (subqueries : ∀ stream, plan.Subquery stream → ReadsSheltered stream) :
      ReadsSheltered (plan.select encoding reader)
  | update
      (plan : Update Value)
      (rows :
        ∀ found, (collectCandidates reader plan.table plan.access).Emits found →
          ∀ assigned filtered new,
            passesFilter plan.filter filtered found.2.values = .ok true →
              plan.assign assigned found.2.values = .ok new →
                UpdateSheltered encoding held plan (plan.constraints found.1) found.2.values new)
      (assigned : ∀ stream ∈ plan.prepared, ReadsSheltered stream)
      (filtered :
        ∀ stream ∈ (plan.filter.map Predicate.prepared).getD [], ReadsSheltered stream) :
      ReadsSheltered (update encoding reader plan)
  | delete
      (plan : Delete Value)
      (rows :
        ∀ found, (collectCandidates reader plan.table plan.access).Emits found →
          ∀ filtered,
            passesFilter plan.filter filtered found.2.values = .ok true →
              ∀ child ∈ (plan.constraints found.1).children,
                child.probed = true → Under held plan.access plan.table child.table.root)
      (filtered :
        ∀ stream ∈ (plan.filter.map Predicate.prepared).getD [], ReadsSheltered stream)
      (nested : ∀ child row, ReadsSheltered (plan.nested child row)) :
      ReadsSheltered (delete encoding reader plan)

end Conditions

section Joins

variable {held : UInt32 → Prop} (encoding : Encoding Value) (reader : Reader)

theorem pair_locked
    (join : Join Value)
    (left : Row Value)
    (matched : Bool)
    (rights : List (Row Value)) :
    Locked held (pair encoding join left matched rights) := by
  induction rights generalizing matched with
  | nil =>
      simp only [pair]
      split <;> first | trivial | (split_ifs <;> trivial)
  | cons right rest inductionHypothesis =>
      simp only [pair]
      split
      · trivial
      · exact inductionHypothesis matched
      · split
        · trivial
        · trivial
        · exact inductionHypothesis true

theorem nestedLoopJoin_locked
    (join : Join Value)
    {left right : Stream (Row Value)}
    (leftLocked : Locked held left)
    (rightLocked : Locked held right) :
    Locked held (nestedLoopJoin encoding join left right) :=
  rightLocked.drain fun _ _ => leftLocked.bind fun _ _ => pair_locked _ _ _ _ _

theorem lookupRows_guarded
    {past : List Effect}
    (table : Table Value)
    (sheltered : held table.root)
    (seen : List Nat)
    (entries : List (Nat × Option (Record Value))) :
    (lookupRows reader table seen entries).Guarded (locking held) past := by
  induction entries generalizing past seen with
  | nil => trivial
  | cons entry rest inductionHypothesis =>
      obtain ⟨rowid, found⟩ := entry
      simp only [lookupRows]
      split_ifs
      · exact inductionHypothesis seen
      · cases found with
        | none => trivial
        | some record =>
            simp only
            split_ifs
            · refine ⟨?_, inductionHypothesis _⟩
              intro effect member
              obtain rfl := List.mem_singleton.mp member
              exact .inr ⟨table.root, sheltered, rfl⟩
            · exact inductionHypothesis _

theorem lookup_locked
    (table : Table Value)
    (indexRoot : UInt32)
    (key : Value)
    (sheltered : held table.root ∨ encoding.isNull key = true) :
    Locked held (lookup encoding reader table indexRoot key) := by
  simp only [lookup]
  split_ifs with missing
  · trivial
  · have present := sheltered.resolve_right missing
    refine ⟨?_, lookupRows_guarded reader table present [] _⟩
    intro effect member
    obtain rfl := List.mem_singleton.mp member
    exact .inr ⟨table.root, present, rfl⟩

theorem indexNestedLoopJoin_locked
    (join : Join Value)
    (keyAt : Nat)
    (indexRoot : UInt32)
    {left : Stream (Row Value)}
    (leftLocked : Locked held left)
    (sheltered :
      held join.table.root ∨
        ∀ row, left.Emits row → encoding.isNull (column encoding row keyAt) = true) :
    Locked held (indexNestedLoopJoin encoding reader join keyAt indexRoot left) :=
  leftLocked.bind fun row emits =>
    (lookup_locked encoding reader join.table indexRoot _
      (sheltered.imp_right fun null => null row emits)).drain fun _ _ =>
        pair_locked _ _ _ _ _

theorem graceHashJoin_locked
    (join : Join Value)
    (probeCol buildCol : Nat)
    {left right : Stream (Row Value)}
    (leftLocked : Locked held left)
    (rightLocked : Locked held right) :
    Locked held (graceHashJoin encoding join probeCol buildCol left right) :=
  rightLocked.drain fun _ _ =>
    leftLocked.drain fun _ _ =>
      PullStream.Guarded.bind (PullStream.Guarded.ofList _) fun _ _ =>
        PullStream.Guarded.bind (PullStream.Guarded.ofList _) fun _ _ =>
          pair_locked _ _ _ _ _

theorem joinStep_locked
    (join : Join Value)
    {left : Stream (Row Value) × Scope}
    (leftLocked : Locked held left.1)
    (sheltered : StepSheltered encoding held join left) :
    Locked held (joinStep encoding reader join left).1 := by
  have rightLocked := @scanOperator_locked _ held reader join.table .fullScan
  have nested := nestedLoopJoin_locked encoding join leftLocked rightLocked
  simp only [joinStep]
  split
  · exact nested
  · exact nested
  · next notSemi notAnti =>
    split
    · next found =>
      exact indexNestedLoopJoin_locked encoding reader join _ _ leftLocked
        (sheltered notSemi notAnti _ _ found)
    · split
      · exact graceHashJoin_locked encoding join _ _ leftLocked rightLocked
      · exact nested

theorem buildFrom_locked
    (table : Table Value)
    (access : Interleaving.AccessPath)
    (joins : List (Join Value))
    (sheltered :
      JoinsSheltered encoding reader held (scanOperator reader table access, table.scope) joins) :
    Locked held (buildFrom encoding reader table access joins) := by
  suffices each :
      ∀ left : Stream (Row Value) × Scope,
        Locked held left.1 → JoinsSheltered encoding reader held left joins →
          Locked held (joins.foldl (fun left join => joinStep encoding reader join left) left).1 from
    each _ (scanOperator_locked reader table access) sheltered
  clear sheltered
  induction joins with
  | nil => exact fun _ leftLocked _ => leftLocked
  | cons join rest inductionHypothesis =>
      exact fun left leftLocked sheltered =>
        inductionHypothesis _ (joinStep_locked encoding reader join leftLocked sheltered.1)
          sheltered.2

theorem batchJoinStep_locked
    (join : Join Value)
    {left : Stream (List (Row Value)) × Scope}
    (leftLocked : Locked held left.1) :
    Locked held (batchJoinStep encoding reader join left).1 := by
  have flat : ∀ batch : List (Row Value),
      Locked held (.ofList batch : Stream (Row Value)) := fun _ => .ofList _
  refine PullStream.Guarded.batched ?_ _ _
  exact ((batchScan_locked reader join.table .fullScan).bind fun _ _ => flat _).drain
    fun _ _ => (leftLocked.bind fun _ _ => flat _).bind fun _ _ => pair_locked _ _ _ _ _

theorem buildBatches_locked
    (table : Table Value)
    (access : Interleaving.AccessPath)
    (joins : List (Join Value)) :
    Locked held (buildBatches encoding reader table access joins) :=
  List.foldlRecOn
    (motive := fun left : Stream (List (Row Value)) × Scope => Locked held left.1)
    joins _ (batchScan_locked reader table access)
    fun _ leftLocked join _ =>
      batchJoinStep_locked encoding reader join leftLocked

end Joins

section Operators

variable {held : UInt32 → Prop}

theorem filterRows_locked
    (predicate : Predicate Value)
    (results : List (List (Row Value)))
    {input : Stream (Row Value)}
    (inputLocked : Locked held input)
    (resolved : ∀ row, ∀ stream ∈ predicate.resolve results row, Locked held stream) :
    Locked held (filterRows predicate results input) := by
  refine inputLocked.bind fun row _ => PullStream.Guarded.drainAll ?_ ?_
  · split_ifs
    · exact resolved row
    · nofun
  · intro items
    split <;> trivial

theorem projectRows_locked
    (projection : Projection Value)
    (results : List (List (Row Value)))
    {input : Stream (Row Value)}
    (inputLocked : Locked held input)
    (resolved : ∀ row, ∀ stream ∈ projection.resolve results row, Locked held stream) :
    Locked held (projectRows projection results input) := by
  refine inputLocked.bind fun row _ => PullStream.Guarded.drainAll ?_ ?_
  · split_ifs
    · exact resolved row
    · nofun
  · intro items
    split <;> trivial

theorem sortRows_locked
    (order : List (Row Value) → List (Row Value))
    {input : Stream (Row Value)}
    (inputLocked : Locked held input) :
    Locked held (sortRows order input) :=
  inputLocked.drain fun _ _ => .ofList _

theorem flattened_locked
    {input : Stream (List (Row Value))}
    (inputLocked : Locked held input) :
    Locked held (input.bind .ofList) :=
  inputLocked.bind fun _ _ => .ofList _

theorem filterBatches_locked
    (predicate : Predicate Value)
    (results : List (List (Row Value)))
    {input : Stream (List (Row Value))}
    (inputLocked : Locked held input) :
    Locked held (filterBatches predicate results input) := by
  refine inputLocked.bind fun batch _ => ?_
  split <;> trivial

theorem projectBatches_locked
    (projection : Projection Value)
    (results : List (List (Row Value)))
    {input : Stream (List (Row Value))}
    (inputLocked : Locked held input) :
    Locked held (projectBatches projection results input) := by
  refine inputLocked.bind fun batch _ => ?_
  split <;> trivial

end Operators

namespace Select

variable
  {held : UInt32 → Prop}
  (encoding : Encoding Value)
  (reader : Reader)
  (plan : Select Value)

theorem limited_locked
    {past : List Effect}
    {input : Stream (Row Value)}
    (inputLocked : input.Guarded (locking held) past) :
    (plan.limited input).Guarded (locking held) past := by
  rw [limited]
  split_ifs
  · exact inputLocked.limit _ _
  · exact inputLocked

theorem readAll_allowed
    {performed : List Effect}
    {table : Table Value}
    (locked : .recordRelationRead table.root ∈ performed) :
    ∀ effect ∈ readAll reader table, (locking held).allows performed effect := by
  intro effect member
  obtain ⟨row, _, rfl⟩ := List.mem_map.mp member
  exact .inl ⟨_, locked, _, rfl, rfl⟩

theorem parallelScan_locked (plain : Row Value → Row Value) :
    Locked held (plan.parallelScan reader plain) := by
  refine ⟨?_, plan.limited_locked (.ofList _)⟩
  intro effect member
  rcases List.mem_cons.mp member with rfl | read
  · trivial
  · exact readAll_allowed reader (by simp) effect read

/-- The locks come after the build side has been read, but before anything is returned. -/
theorem parallelHashJoin_locked
    (plain : Row Value → Row Value)
    (join : Join Value)
    (probeCol buildCol : Nat) :
    Locked held (plan.parallelHashJoin encoding reader plain join probeCol
      buildCol) := by
  refine ⟨?_, plan.limited_locked (.ofList _)⟩
  intro effect member
  rcases List.mem_append.mp member with inner | rest
  · exact readAll_allowed reader (by simp) effect inner
  · rcases List.mem_cons.mp rest with rfl | rest
    · trivial
    · rcases List.mem_cons.mp rest with rfl | outer
      · trivial
      · exact readAll_allowed reader (by simp) effect outer

theorem filteredBatches_locked (results : List (List (Row Value))) :
    Locked held (match plan.filter with
      | none =>
          buildBatches encoding reader plan.table plan.access plan.joins
      | some predicate =>
          filterBatches predicate results
            (buildBatches encoding reader plan.table plan.access
              plan.joins)) := by
  have joined : Locked held (buildBatches encoding reader plan.table plan.access plan.joins) :=
    buildBatches_locked encoding reader plan.table plan.access plan.joins
  cases plan.filter with
  | none => exact joined
  | some predicate => exact filterBatches_locked predicate results joined

variable (subqueries : ∀ stream, plan.Subquery stream → Locked held stream)

include subqueries

theorem filterPrepared_locked :
    ∀ stream ∈ plan.filterPrepared, Locked held stream :=
  fun stream member => subqueries stream (.filtered member)

theorem projectionPrepared_locked :
    ∀ stream ∈ plan.projection.prepared, Locked held stream :=
  fun stream member => subqueries stream (.projected member)

theorem filteredRows_locked
    (sheltered :
      JoinsSheltered encoding reader held
        (scanOperator reader plan.table plan.access, plan.table.scope) plan.joins)
    (results : List (List (Row Value))) :
    Locked held (match plan.filter with
      | none =>
          buildFrom encoding reader plan.table plan.access plan.joins
      | some predicate =>
          filterRows predicate results
            (buildFrom encoding reader plan.table plan.access
              plan.joins)) := by
  have joined := buildFrom_locked encoding reader plan.table plan.access plan.joins sheltered
  cases present : plan.filter with
  | none => exact joined
  | some predicate =>
      exact filterRows_locked predicate results joined
        fun row stream member =>
          subqueries stream (.filteredFor present member)

theorem rowPipeline_locked
    (sheltered :
      JoinsSheltered encoding reader held
        (scanOperator reader plan.table plan.access, plan.table.scope) plan.joins) :
    Locked held (plan.rowPipeline encoding reader) := by
  refine opened_locked _ _ ?_
  have filtered := plan.filteredRows_locked encoding reader subqueries sheltered
  cases present : plan.grouping with
  | none =>
      refine PullStream.Guarded.drainAll
        (plan.projectionPrepared_locked subqueries) fun items => ?_
      refine PullStream.Guarded.drainAll
        (plan.filterPrepared_locked subqueries) fun results => ?_
      refine plan.limited_locked (projectRows_locked _ _ ?_
        fun row stream member => subqueries stream (.projectedFor member))
      split
      · exact sortRows_locked _ (filtered results)
      · exact filtered results
  | some grouping =>
      simp only
      split_ifs
      · trivial
      · refine PullStream.Guarded.drainAll
          (plan.filterPrepared_locked subqueries) fun results => ?_
        refine PullStream.Guarded.drainAll
          (fun stream member => subqueries stream (.having present member))
          fun havings => ?_
        exact plan.limited_locked ((filtered results).drain fun _ _ =>
          .ofExcept _)

theorem selectVectorised_locked :
    Locked held (plan.selectVectorised encoding reader) := by
  refine opened_locked _ _ (PullStream.Guarded.drainAll
    (plan.filterPrepared_locked subqueries) fun results => ?_)
  have filtered := @filteredBatches_locked _ held encoding reader plan results
  cases plan.grouping with
  | some grouping =>
      exact plan.limited_locked ((flattened_locked filtered).drain fun _ _ =>
        .ofExcept _)
  | none =>
      refine PullStream.Guarded.drainAll
        (plan.projectionPrepared_locked subqueries) fun items => ?_
      refine plan.limited_locked (flattened_locked
        (projectBatches_locked _ _ ?_))
      cases plan.orderBy with
      | none => exact filtered
      | some order =>
          exact (sortRows_locked order (flattened_locked filtered)).batched _ _

theorem serial_locked
    (sheltered :
      JoinsSheltered encoding reader held
        (scanOperator reader plan.table plan.access, plan.table.scope) plan.joins) :
    Locked held (plan.serial encoding reader) := by
  rw [serial]
  split_ifs
  · exact plan.selectVectorised_locked encoding reader subqueries
  · exact plan.rowPipeline_locked encoding reader subqueries sheltered

theorem select_locked
    (sheltered :
      plan.parallel = false →
        JoinsSheltered encoding reader held
          (scanOperator reader plan.table plan.access, plan.table.scope) plan.joins) :
    Locked held (plan.select encoding reader) := by
  have serial := plan.serial_locked encoding reader subqueries
  rw [select]
  split
  · next plain shape _ =>
    split_ifs with alone
    · exact plan.parallelScan_locked reader _
    · split
      · exact plan.parallelHashJoin_locked encoding reader _ _ _ _
      · next apart => exact serial (sheltered (by simp [parallel, alone, apart]))
  · next shape =>
    refine serial (sheltered ?_)
    have plain : plan.parallelShape = true → plan.projection.plain.isSome = true := by
      intro fits
      simp only [parallelShape, Bool.and_eq_true] at fits
      exact fits.1.1.2
    cases fits : plan.parallelShape with
    | false => simp [parallel, fits]
    | true =>
        obtain ⟨columns, found⟩ := Option.isSome_iff_exists.mp (plain fits)
        exact (shape columns fits found).elim

end Select

section Probes

variable {held : UInt32 → Prop} {past : List Effect}

theorem indexHasValue_guarded
    (table : Table Value)
    (indexRoot : UInt32)
    (encoded : List UInt8)
    (sheltered : Sheltered held past table.root) :
    (indexHasValue table indexRoot encoded).Guarded (locking held) past := by
  refine ⟨?_, trivial⟩
  intro effect member
  obtain rfl := List.mem_singleton.mp member
  exact sheltered.allows rfl

variable (encoding : Encoding Value)

theorem walkForFkValue_guarded
    (tableRoot : UInt32)
    (position : Nat)
    (value : Value)
    (rows : List (Nat × Record Value))
    (sheltered : Sheltered held past tableRoot) :
    (walkForFkValue encoding tableRoot position value rows).Guarded (locking held) past := by
  induction rows generalizing past with
  | nil => trivial
  | cons row rest inductionHypothesis =>
      refine ⟨?_, ?_⟩
      · intro effect member
        obtain rfl := List.mem_singleton.mp member
        exact sheltered.allows rfl
      · split_ifs
        · trivial
        · exact inductionHypothesis (sheltered.imp_right (List.mem_append_left _))

theorem scanChildForFkValue_guarded
    (child : Child Value)
    (value : Value)
    (sheltered : Sheltered held past child.table.root) :
    (scanChildForFkValue encoding child value).Guarded (locking held) past := by
  rw [scanChildForFkValue]
  split
  · exact indexHasValue_guarded _ _ _ sheltered
  · exact walkForFkValue_guarded _ _ _ _ _ sheltered

theorem checkForeignKeys_guarded
    (table : Table Value)
    (values : Row Value)
    {next : Stream (Row Value)}
    (nextGuarded : next.Guarded (locking held) past)
    (keys : List (ForeignKey Value))
    (sheltered :
      ∀ key ∈ keys,
        encoding.isNull (column encoding values key.column) = false →
          Sheltered held past key.parent.root) :
    (checkForeignKeys encoding table values next keys).Guarded (locking held) past := by
  induction keys with
  | nil => exact nextGuarded
  | cons key rest inductionHypothesis =>
      have later := inductionHypothesis fun other member =>
        sheltered other (List.mem_cons_of_mem _ member)
      simp only [checkForeignKeys]
      split_ifs with missing
      · exact later
      · split
        · trivial
        · have here := sheltered key List.mem_cons_self (Bool.eq_false_of_not_eq_true missing)
          refine (indexHasValue_guarded _ _ _ here).bind fun found _ => ?_
          split_ifs
          · exact later
          · trivial

theorem checkNoChildReferences_guarded
    (table : Table Value)
    (values : Row Value)
    {next : Stream (Row Value)}
    (nextGuarded : next.Guarded (locking held) past)
    (children : List (Child Value))
    (sheltered : ∀ child ∈ children, Sheltered held past child.table.root) :
    (checkNoChildReferences encoding table values next children).Guarded (locking held) past := by
  induction children with
  | nil => exact nextGuarded
  | cons child rest inductionHypothesis =>
      have later := inductionHypothesis fun other member =>
        sheltered other (List.mem_cons_of_mem _ member)
      have here := sheltered child List.mem_cons_self
      refine (scanChildForFkValue_guarded encoding child _ here).bind fun found _ => ?_
      split_ifs
      · trivial
      · exact later

theorem checkUnique_guarded
    (table : Table Value)
    (old values : Row Value)
    {next : Stream (Row Value)}
    (nextGuarded : next.Guarded (locking held) past)
    (indexes : List IndexTree)
    (sheltered :
      ∀ index ∈ indexes,
        index.unique = true →
          (index.columns.any fun position =>
              encoding.isNull (column encoding values position)) = false →
            (index.columns.all fun position =>
                encoding.equal (column encoding values position) (column encoding old position)) =
              false →
              Sheltered held past table.root) :
    (checkUnique encoding table old values next indexes).Guarded (locking held) past := by
  induction indexes with
  | nil => exact nextGuarded
  | cons index rest inductionHypothesis =>
      have later := inductionHypothesis fun other member =>
        sheltered other (List.mem_cons_of_mem _ member)
      simp only [checkUnique]
      split_ifs with probed
      · obtain ⟨unique, present, changed⟩ := probed
        have here := sheltered index List.mem_cons_self unique
          (Bool.eq_false_of_not_eq_true present) (Bool.eq_false_of_not_eq_true changed)
        refine (indexHasValue_guarded _ _ _ here).bind fun found _ => ?_
        split_ifs
        · trivial
        · exact later
      · exact later

theorem applyParentDeleteActions_guarded
    {nested : Child Value → Row Value → Stream (Row Value)}
    (nestedLocked : ∀ child row, Locked held (nested child row))
    (table : Table Value)
    (values : Row Value)
    {next : Stream (Row Value)}
    (nextGuarded : next.Guarded (locking held) past)
    (children : List (Child Value))
    (sheltered :
      ∀ child ∈ children, child.probed = true → Sheltered held past child.table.root) :
    (applyParentDeleteActions encoding nested table values next children).Guarded
      (locking held) past := by
  induction children with
  | nil => exact nextGuarded
  | cons child rest inductionHypothesis =>
      have later := inductionHypothesis fun other member =>
        sheltered other (List.mem_cons_of_mem _ member)
      have run := (nestedLocked child values).weaken.drain
        fun (_ : List (Row Value)) _ => later
      have probe (probed : child.probed = true) (error : Error) :
          ((scanChildForFkValue encoding child
            (column encoding values child.parentColumn)).bind fun found =>
              if found then .fail error
              else applyParentDeleteActions encoding nested table values next
                rest).Guarded (locking held) past := by
        refine (scanChildForFkValue_guarded encoding child _
          (sheltered child List.mem_cons_self probed)).bind fun found _ => ?_
        split_ifs
        · trivial
        · exact later
      simp only [applyParentDeleteActions]
      split
      · next action => exact probe (by simp [Child.probed, action]) _
      · exact run
      · next action =>
        split_ifs with required
        · exact probe (by simpa [Child.probed, action] using required) _
        · exact run

end Probes

section Writes

variable {held : UInt32 → Prop} (encoding : Encoding Value) (reader : Reader)

/-- What follows the walk for the candidates runs under the lock that the walk has taken. -/
theorem collected_locked
    {next : List (Nat × Record Value) → Stream (Row Value)}
    (table : Table Value)
    (access : Interleaving.AccessPath)
    (nextGuarded :
      ∀ past items,
        (∀ item ∈ items, (collectCandidates reader table access).Emits item) →
          (∀ root, Under held access table root → Sheltered held past root) →
            (next items).Guarded (locking held) past) :
    Locked held ((collectCandidates reader table access).drain next) := by
  cases access with
  | fullScan =>
      refine ⟨nofun, ?_, ?_⟩
      · intro effect member
        obtain rfl := List.mem_singleton.mp member
        trivial
      · refine (scanRows_guarded reader table (by simp) _).drain fun items emitted => ?_
        refine nextGuarded _ items emitted fun root under => under.imp_right ?_
        rintro ⟨_, rfl⟩
        simp
  | indexScan indexRoot lower upper =>
      refine (collectCandidates_locked reader table _).drain fun items emitted => ?_
      refine nextGuarded _ items emitted fun root under => .inl ?_
      exact under.resolve_right fun walked => nomatch walked.1

theorem updateRow_guarded
    {past : List Effect}
    (plan : Update Value)
    (assigned filtered : List (List (Row Value)))
    (found : Nat × Record Value)
    (sheltered :
      ∀ new,
        passesFilter plan.filter filtered found.2.values = .ok true →
          plan.assign assigned found.2.values = .ok new →
            UpdateSheltered encoding held plan (plan.constraints found.1) found.2.values new)
    (under : ∀ root, Under held plan.access plan.table root → Sheltered held past root) :
    (updateRow encoding reader plan assigned filtered found).Guarded (locking held) past := by
  have finished : (.done : Stream (Row Value)).Guarded (locking held) past := trivial
  simp only [updateRow]
  split
  · trivial
  · trivial
  · next passed =>
    split
    · trivial
    · trivial
    · next new _ made =>
      have row := sheltered new passed made
      have unique := checkUnique_guarded encoding (plan.constraints found.1).own
        found.2.values new finished _
        fun index listed isUnique present changed =>
          under _ (row.unique index listed isUnique present changed)
      split
      · trivial
      · refine checkForeignKeys_guarded encoding _ _ ?_ _
          fun key listed present => under _ (row.parents key listed present)
        split_ifs with changed
        · exact checkNoChildReferences_guarded encoding _ _ unique _
            fun child listed => under _ (row.children changed child listed)
        · exact unique

theorem deleteRow_guarded
    {past : List Effect}
    (plan : Delete Value)
    (nested : ∀ child row, Locked held (plan.nested child row))
    (filtered : List (List (Row Value)))
    (found : Nat × Record Value)
    (sheltered :
      passesFilter plan.filter filtered found.2.values = .ok true →
        ∀ child ∈ (plan.constraints found.1).children,
          child.probed = true → Under held plan.access plan.table child.table.root)
    (under : ∀ root, Under held plan.access plan.table root → Sheltered held past root) :
    (deleteRow encoding reader plan filtered found).Guarded (locking held) past := by
  rw [deleteRow]
  split
  · trivial
  · trivial
  · next passed =>
    split
    · trivial
    · have finished : (.done : Stream (Row Value)).Guarded (locking held) past := trivial
      exact applyParentDeleteActions_guarded encoding nested _ _ finished _
        fun child listed probed => under _ (sheltered passed child listed probed)

theorem ReadsSheltered.locked
    {stream : Stream (Row Value)}
    (sheltered : ReadsSheltered encoding reader held stream) :
    Locked held stream := by
  induction sheltered with
  | select plan joins _ subqueries => exact plan.select_locked encoding reader subqueries joins
  | update plan rows _ _ assigned filtered =>
      refine PullStream.Guarded.drainAll assigned fun assignedRows => ?_
      refine PullStream.Guarded.drainAll filtered fun filteredRows => ?_
      refine collected_locked reader plan.table plan.access fun past items emitted under => ?_
      refine PullStream.Guarded.bind (.ofList _) fun found member => ?_
      have listed := emitted found (PullStream.emits_ofList member)
      exact updateRow_guarded encoding reader plan _ _ found
        (fun new => rows found listed assignedRows filteredRows new) under
  | delete plan rows _ _ filtered nested =>
      refine PullStream.Guarded.drainAll filtered fun filteredRows => ?_
      refine collected_locked reader plan.table plan.access fun past items emitted under => ?_
      refine PullStream.Guarded.bind (.ofList _) fun found member => ?_
      have listed := emitted found (PullStream.emits_ofList member)
      exact deleteRow_guarded encoding reader plan nested _ found
        (rows found listed filteredRows) under

theorem ReadsSheltered.runs
    {stream : Stream (Row Value)}
    (sheltered : ReadsSheltered encoding reader held stream) :
    Runs encoding reader stream := by
  induction sheltered with
  | select plan _ _ subqueries => exact .select plan subqueries
  | update plan _ _ _ assigned filtered => exact .update plan assigned filtered
  | delete plan _ _ _ filtered nested => exact .delete plan filtered nested

end Writes

/-- Everything read is covered by the read set of `own` when the statement stops. -/
def Covered (own : Nat) (ssi : SsiMap) (effects : List Effect) : Prop :=
  ∀ via extent,
    .read via extent ∈ effects →
    Held (recorded own ssi effects) own extent

/-- A relation lock held before is held to the end. -/
theorem held_before
    {own : Nat}
    {ssi : SsiMap}
    {lock : ReadLock}
    {extent : Extent}
    (effects : List Effect)
    (held : lock ∈ (ssi.entry own).readSet)
    (shields : Shields lock extent) :
    Held (recorded own ssi effects) own extent :=
  ⟨lock, ((SsiMap.foldl_extends (Effect.record_extends own) effects).grows own).locks lock held,
    shields⟩

/-! ## Lookups and probes record nothing -/

/-- Nothing but reads. -/
def bare : PullStream.Discipline Effect where
  allows _ effect := ∃ via extent, effect = .read via extent
  kept _ allowed := allowed

section Unrecorded

variable {own : Nat} {ssi : SsiMap} {effects past : List Effect}

/-- Reads without a lock of their own are covered where each is held already. -/
theorem covered_bare_iff
    {Item : Type}
    {stream : Stream Item}
    (guarded : stream.Guarded bare [])
    (performs : stream.Performs effects) :
    Covered own ssi effects ↔
      ∀ via extent, .read via extent ∈ effects → Held ssi own extent := by
  have unchanged : recorded own ssi effects = ssi := by
    have reads := guarded.performed performs
    clear performs guarded
    induction effects with
    | nil => rfl
    | cons effect rest inductionHypothesis =>
        obtain ⟨via, extent, rfl⟩ := reads effect List.mem_cons_self
        exact inductionHypothesis fun other member =>
          reads other (List.mem_cons_of_mem _ member)
  unfold Covered
  rw [unchanged]

theorem lookupRows_bare
    (reader : Reader)
    (table : Table Value)
    (seen : List Nat)
    (entries : List (Nat × Option (Record Value))) :
    (lookupRows reader table seen entries).Guarded bare past := by
  induction entries generalizing past seen with
  | nil => trivial
  | cons entry rest inductionHypothesis =>
      obtain ⟨rowid, found⟩ := entry
      simp only [lookupRows]
      split_ifs
      · exact inductionHypothesis seen
      · cases found with
        | none => trivial
        | some record =>
            simp only
            split_ifs
            · exact ⟨by simp [bare], inductionHypothesis _⟩
            · exact inductionHypothesis _

theorem lookup_bare
    (encoding : Encoding Value)
    (reader : Reader)
    (table : Table Value)
    (indexRoot : UInt32)
    (key : Value) :
    (lookup encoding reader table indexRoot key).Guarded bare [] := by
  simp only [lookup]
  split_ifs
  · trivial
  · exact ⟨by simp [bare], lookupRows_bare reader table [] _⟩

theorem indexHasValue_bare
    (table : Table Value)
    (indexRoot : UInt32)
    (encoded : List UInt8) :
    (indexHasValue table indexRoot encoded).Guarded bare [] :=
  ⟨by simp [bare], trivial⟩

theorem walkForFkValue_bare
    (encoding : Encoding Value)
    (tableRoot : UInt32)
    (position : Nat)
    (value : Value)
    (rows : List (Nat × Record Value)) :
    (walkForFkValue encoding tableRoot position value rows).Guarded bare past := by
  induction rows generalizing past with
  | nil => trivial
  | cons row rest inductionHypothesis =>
      refine ⟨by simp [bare], ?_⟩
      split_ifs
      · trivial
      · exact inductionHypothesis

theorem scanChildForFkValue_bare
    (encoding : Encoding Value)
    (child : Child Value)
    (value : Value) :
    (scanChildForFkValue encoding child value).Guarded bare [] := by
  rw [scanChildForFkValue]
  split
  · exact indexHasValue_bare _ _ _
  · exact walkForFkValue_bare _ _ _ _ _

end Unrecorded

/-- Two tables of one row each, joined on their only column. -/
def joinPlan (indexes : List IndexTree) : Select Nat where
  table := {
    name := "orders"
    root := 2
    columns := [{ name := "customer", type := .int, notNull := false }]
    rows := [(1, { txMin := 0, txMax := 0, values := [5] })]
    leafPages := 1
    indexes := []
  }
  access := .fullScan
  joins := [{
    table := {
      name := "customers"
      root := 3
      columns := [{ name := "id", type := .int, notNull := false }]
      rows := [(1, { txMin := 0, txMax := 0, values := [5] })]
      leafPages := 1
      indexes := indexes
    }
    kind := .inner
    on := some {
      shape := .equal (some 0) (some 1)
      holds := fun row => .ok (row[0]? = row[1]?)
    }
    partitionFor := fun _ => 0
  }]
  filter := none
  projection := {
    star := true
    columnsOnly := false
    prepared := []
    correlated := false
    resolve := fun _ _ => []
    item := fun _ row _ => .ok row
    plain := some id
  }
  grouping := none
  orderBy := none
  presorted := false
  limit := none
  offset := none

theorem joinPlan_subqueries
    {indexes : List IndexTree}
    {stream : Stream (Row Nat)} :
    ¬ (joinPlan indexes).Subquery stream := by
  intro subquery
  cases subquery with
  | projected member => cases member
  | projectedFor member => cases member
  | filtered member => cases member
  | filteredFor present _ => cases present
  | having present _ => cases present

/-- One byte for each value, and zero for `NULL`. -/
def byteEncoding : Encoding Nat where
  null := 0
  isNull value := value = 0
  equal left right := left = right
  encodeIndexValue value := [UInt8.ofNat value]

/-- Transaction 1 of a fresh database. -/
def firstReader : Reader where
  snapshot := { nextTx := 2, inFlight := {1}, ownTx := some 1 }
  clog := .fresh

def firstSsi : SsiMap := SsiMap.empty.insert 1

/-- The index on `customers.id`, with the key of its only row. -/
def customersById : IndexTree where
  name := "_pk_customers"
  root := 4
  columns := [0]
  unique := true
  keys := [([5, 0, 0, 0, 0, 0, 0, 0, 1], 1)]

end PrehniteDB.ReadPaths
