import PrehniteDB.GroupSums

namespace PrehniteDB.GroupedSelect

open KeyedFolds (Together Grouped foldKey foldGroups_cases foldGroups_together)

/-!
# Groups and the order of rows

Each slot of a group sees the rows of its key and no others.  The groups depend on
the order of the rows only where a total leaves the range on the way to a sum that
is inside.
-/

/-! ## All slots of a group -/

theorem updateAll_cons_ok_iff
    {slot : AggregateSlot}
    {slots : List AggregateSlot}
    {state : AggregateState}
    {states : List AggregateState}
    {rows : List (List Value)}
    {finals : List AggregateState} :
    rows.foldlM (updateAll (slot :: slots)) (state :: states) = .ok finals ↔
      ∃ final rest,
        slot.run state rows = .ok final ∧ rows.foldlM (updateAll slots) states = .ok rest ∧
          finals = final :: rest := by
  induction rows generalizing state states with
  | nil =>
      constructor
      · intro same
        cases same
        exact ⟨state, states, rfl, rfl, rfl⟩
      · rintro ⟨final, rest, one, others, rfl⟩
        cases one
        cases others
        rfl
  | cons row later inductionHypothesis =>
      rw [List.foldlM_cons, List.foldlM_cons, AggregateSlot.run_cons, updateAll]
      cases stepped : state.update slot row with
      | error failure =>
          refine iff_of_false nofun ?_
          rintro ⟨_, _, one, _⟩
          cases one
      | ok next =>
          cases moved : updateAll slots states row with
          | error failure =>
              refine iff_of_false nofun ?_
              rintro ⟨_, _, _, others, _⟩
              cases others
          | ok rest => exact inductionHypothesis

/-- A group's pass is the pass of each slot. -/
theorem runAll_ok_iff
    {slots : List AggregateSlot}
    {states finals : List AggregateState}
    {rows : List (List Value)}
    (sized : slots.length = states.length) :
    rows.foldlM (updateAll slots) states = .ok finals ↔
      List.Forall₂ (fun entry final => AggregateSlot.run entry.1 entry.2 rows = .ok final)
        (slots.zip states) finals := by
  induction slots generalizing states finals with
  | nil =>
      cases List.eq_nil_of_length_eq_zero sized.symm
      have still : rows.foldlM (updateAll []) [] = .ok [] := by
        induction rows with
        | nil => rfl
        | cons row later inductionHypothesis => exact inductionHypothesis
      rw [still]
      constructor
      · intro same
        cases same
        exact .nil
      · intro each
        cases each
        rfl
  | cons slot slots inductionHypothesis =>
      cases states with
      | nil => cases sized
      | cons state states =>
          rw [updateAll_cons_ok_iff, List.zip_cons_cons]
          constructor
          · rintro ⟨final, rest, one, others, rfl⟩
            exact .cons one ((inductionHypothesis (Nat.succ.inj sized)).mp others)
          · intro each
            cases each with
            | cons one others =>
                exact ⟨_, _, one, (inductionHypothesis (Nat.succ.inj sized)).mpr others, rfl⟩

/-! ## A prepared query -/

namespace Prepared

variable {scope : Scope} {query : Query} {prepared : Prepared}

theorem made_of_prepare (ready : prepare scope query = .ok prepared) :
    List.Forall₂ (fun slot start => AggregateState.forSlot scope slot = .ok start)
      prepared.slots prepared.template := by
  simp only [prepare, bind, Except.bind] at ready
  split at ready
  · cases ready
  · split at ready
    · cases ready
    · split at ready
      · cases ready
      · split at ready
        · cases ready
        · rename_i template made
          cases ready
          exact List.forall₂_map_left_iff.mpr (KeyedFolds.mapM_ok_iff.mp made)

/-- The slots with their states before the first row. -/
def entries (prepared : Prepared) : List (AggregateSlot × AggregateState) :=
  prepared.slots.zip prepared.template

theorem made_of_entry
    (ready : prepare scope query = .ok prepared)
    {entry : AggregateSlot × AggregateState}
    (listed : entry ∈ prepared.entries) :
    entry.1 ∈ prepared.slots ∧ AggregateState.forSlot scope entry.1 = .ok entry.2 :=
  ⟨(List.of_mem_zip listed).1, List.forall₂_zip (made_of_prepare ready) listed⟩

def rowsOf (prepared : Prepared) (rows : List (List Value)) (key : GroupKey) :
    List (List Value) :=
  rows.filter fun row => prepared.keyOf row = key

/-- The group's states, if all its slots come through. -/
def foldOf (prepared : Prepared) (rows : List (List Value)) (key : GroupKey) :
    Except Error (List AggregateState) :=
  foldKey prepared.template (updateAll prepared.slots) prepared.keyOf rows key

theorem foldOf_ok_iff
    (ready : prepare scope query = .ok prepared)
    {rows : List (List Value)}
    {key : GroupKey}
    {finals : List AggregateState} :
    prepared.foldOf rows key = .ok finals ↔
      List.Forall₂
        (fun entry final =>
          AggregateSlot.run entry.1 entry.2 (prepared.rowsOf rows key) = .ok final)
        prepared.entries finals :=
  runAll_ok_iff (made_of_prepare ready).length_eq

/-- All slots are of the kinds whose values do not depend on rounding. -/
def Exact (scope : Scope) (prepared : Prepared) : Prop :=
  ∀ slot ∈ prepared.slots, slot.Exact scope

def Calm (prepared : Prepared) (rows : List (List Value)) : Prop :=
  ∀ slot ∈ prepared.slots, ∀ key, slot.Calm (prepared.rowsOf rows key)

variable {rows permuted : List (List Value)}

theorem foldOf_alike
    (ready : prepare scope query = .ok prepared)
    (kinds : prepared.Exact scope)
    (typed : ∀ row ∈ rows, Typed scope row)
    (calm : prepared.Calm rows)
    (perm : permuted.Perm rows)
    (key : GroupKey) :
    Together Eq (prepared.foldOf permuted key) (prepared.foldOf rows key) := by
  refine .of_ok_iff fun finals => ?_
  rw [foldOf_ok_iff ready, foldOf_ok_iff ready]
  have each (entry : AggregateSlot × AggregateState) (listed : entry ∈ prepared.entries) :
      Together Eq (AggregateSlot.run entry.1 entry.2 (prepared.rowsOf permuted key))
        (AggregateSlot.run entry.1 entry.2 (prepared.rowsOf rows key)) := by
    obtain ⟨member, made⟩ := made_of_entry ready listed
    exact AggregateSlot.run_alike (kinds _ member) made
      (fun row own => typed row (List.mem_filter.mp own).1) (calm _ member key) (perm.filter _)
  generalize prepared.entries = entries at each
  induction finals generalizing entries with
  | nil =>
      cases entries with
      | nil => exact iff_of_true .nil .nil
      | cons entry later => exact iff_of_false nofun nofun
  | cons final rest inductionHypothesis =>
      cases entries with
      | nil => exact iff_of_false nofun nofun
      | cons entry later =>
          have tails :=
            inductionHypothesis later fun other listed => each other (List.mem_cons_of_mem _ listed)
          rw [List.forall₂_cons, List.forall₂_cons]
          exact and_congr ((each entry List.mem_cons_self).ok_iff final) tails

/-! ## What a pass owes its rows -/

/--
Every group has the aggregates of exactly the rows of its key, and a pass fails
only by a sum, which fails only if it is beyond the range.
-/
structure Faithful (prepared : Prepared) (rows : List (List Value)) : Prop where
  keyed :
    ∀ groups,
      hashPass prepared rows = .ok groups →
        ((finalizeGroups prepared groups).map Group.key).Nodup ∧
        ∀ key,
          key ∈ (finalizeGroups prepared groups).map Group.key ↔
            key ∈ rows.map prepared.keyOf ∨
              prepared.groupCols = [] ∧ rows = [] ∧ key = { values := [] }
  valued :
    ∀ groups,
      hashPass prepared rows = .ok groups →
        ∀ group ∈ finalizeGroups prepared groups,
          List.Forall₂ (fun slot value => slot.Yields (prepared.rowsOf rows group.key) value)
            prepared.slots group.aggregates
  failed :
    ∀ error,
      hashPass prepared rows = .error error →
        ∃ slot ∈ prepared.slots,
          slot.func = .sum ∧
            ∃ key ∈ rows.map prepared.keyOf,
              slot.run (.sumInt 0 false) (prepared.rowsOf rows key) =
                .error AggregateState.overflowed
  summed :
    ∀ slot ∈ prepared.slots,
      slot.func = .sum →
        ∀ key error,
          slot.run (.sumInt 0 false) (prepared.rowsOf rows key) = .error error →
            ¬ Fits (integers (slot.arguments (prepared.rowsOf rows key))).sum

theorem valued_of_fold
    (ready : prepare scope query = .ok prepared)
    (kinds : prepared.Exact scope)
    (typed : ∀ row ∈ rows, Typed scope row)
    {key : GroupKey}
    {states : List AggregateState}
    (folded : prepared.foldOf rows key = .ok states) :
    List.Forall₂ (fun slot value => slot.Yields (prepared.rowsOf rows key) value)
      prepared.slots (states.map AggregateState.finalize) := by
  have ran := (foldOf_ok_iff ready).mp folded
  have made := made_of_prepare ready
  clear folded
  rw [List.forall₂_map_right_iff]
  have own : ∀ row ∈ prepared.rowsOf rows key, Typed scope row := fun row member =>
    typed row (List.mem_filter.mp member).1
  rw [entries] at ran
  generalize prepared.rowsOf rows key = rows at own ran
  unfold Exact at kinds
  generalize prepared.slots = slots at made ran kinds
  generalize prepared.template = template at made ran
  induction made generalizing states with
  | nil =>
      cases ran
      exact .nil
  | @cons slot start slots template first _ inductionHypothesis =>
      cases ran with
      | cons one others =>
          exact .cons
            (AggregateSlot.yields_of_run (kinds slot List.mem_cons_self) first own one)
            (inductionHypothesis
              (fun slot member => kinds slot (List.mem_cons_of_mem _ member)) others)

theorem foldOf_failed
    (ready : prepare scope query = .ok prepared)
    (kinds : prepared.Exact scope)
    {key : GroupKey}
    {error : Error}
    (failed : prepared.foldOf rows key = .error error) :
    ∃ slot ∈ prepared.slots,
      slot.func = .sum ∧
        slot.run (.sumInt 0 false) (prepared.rowsOf rows key) =
          .error AggregateState.overflowed := by
  by_contra fine
  have each :
      ∀ entry ∈ prepared.entries,
        ∃ final, AggregateSlot.run entry.1 entry.2 (prepared.rowsOf rows key) = .ok final := by
    intro entry listed
    obtain ⟨member, made⟩ := made_of_entry ready listed
    rcases AggregateSlot.forSlot_cases (kinds _ member) made with
      ⟨func, start⟩ | ⟨_, _, func, taken, _, _, start⟩ | ⟨func, start⟩ | ⟨func, start⟩
    · exact ⟨_, start ▸ AggregateSlot.run_count func 0⟩
    · have run :=
        @AggregateSlot.run_sum entry.1 (prepared.rowsOf rows key) _ func taken 0 false
      rw [start, run]
      cases reached : checkedSum 0 (integers (entry.1.arguments (prepared.rowsOf rows key))) with
      | some final => exact ⟨_, rfl⟩
      | none =>
          rw [reached] at run
          exact absurd ⟨entry.1, member, func, run⟩ fine
    · exact ⟨_, start ▸ AggregateSlot.run_extreme (Or.inl func) none .lt⟩
    · exact ⟨_, start ▸ AggregateSlot.run_extreme (Or.inr func) none .gt⟩
  obtain ⟨finals, ran⟩ :
      ∃ finals,
        List.Forall₂
          (fun entry final =>
            AggregateSlot.run entry.1 entry.2 (prepared.rowsOf rows key) = .ok final)
          prepared.entries finals := by
    generalize prepared.entries = entries at each
    induction entries with
    | nil => exact ⟨[], .nil⟩
    | cons entry later inductionHypothesis =>
        obtain ⟨final, one⟩ := each entry List.mem_cons_self
        obtain ⟨rest, others⟩ :=
          inductionHypothesis fun other listed => each other (List.mem_cons_of_mem _ listed)
        exact ⟨final :: rest, .cons one others⟩
  rw [(foldOf_ok_iff ready).mpr ran] at failed
  cases failed

theorem groups_nil_iff
    {groups : List (GroupKey × List AggregateState)}
    (grouped :
      Grouped prepared.template (updateAll prepared.slots) prepared.keyOf rows groups) :
    groups = [] ↔ rows = [] := by
  constructor
  · intro none
    subst none
    rw [List.eq_nil_iff_forall_not_mem]
    intro row member
    exact List.not_mem_nil
      ((grouped.listed (prepared.keyOf row)).mpr (List.mem_map_of_mem member))
  · intro none
    subst none
    rw [List.eq_nil_iff_forall_not_mem]
    intro group member
    exact List.not_mem_nil ((grouped.listed group.1).mp (List.mem_map_of_mem member))

theorem mem_finalizeGroups
    {groups : List (GroupKey × List AggregateState)}
    {group : Group}
    (grouped :
      Grouped prepared.template (updateAll prepared.slots) prepared.keyOf rows groups)
    (member : group ∈ finalizeGroups prepared groups) :
    ∃ states,
      prepared.foldOf rows group.key = .ok states ∧
        group.aggregates = states.map AggregateState.finalize := by
  rw [finalizeGroups] at member
  obtain ⟨found, listed, rfl⟩ := List.mem_map.mp member
  by_cases inserted : prepared.groupCols.isEmpty && groups.isEmpty
  · rw [if_pos inserted] at listed
    have none : groups = [] := List.isEmpty_iff.mp (Bool.and_eq_true_iff.mp inserted).2
    rw [List.mem_singleton.mp listed, (groups_nil_iff grouped).mp none]
    exact ⟨prepared.template, rfl, rfl⟩
  · rw [if_neg inserted] at listed
    exact ⟨found.2, grouped.folded found listed, rfl⟩

theorem keys_finalizeGroups
    {groups : List (GroupKey × List AggregateState)}
    (grouped :
      Grouped prepared.template (updateAll prepared.slots) prepared.keyOf rows groups) :
    ((finalizeGroups prepared groups).map Group.key).Nodup ∧
    ∀ key,
      key ∈ (finalizeGroups prepared groups).map Group.key ↔
        key ∈ rows.map prepared.keyOf ∨
          prepared.groupCols = [] ∧ rows = [] ∧ key = { values := [] } := by
  rw [finalizeGroups, List.map_map]
  by_cases inserted : prepared.groupCols.isEmpty && groups.isEmpty
  · rw [if_pos inserted]
    obtain ⟨noColumns, noGroups⟩ := Bool.and_eq_true_iff.mp inserted
    have noRows := (groups_nil_iff grouped).mp (List.isEmpty_iff.mp noGroups)
    refine ⟨List.nodup_singleton _, fun key => ?_⟩
    rw [noRows]
    constructor
    · exact fun member => Or.inr ⟨List.isEmpty_iff.mp noColumns, rfl, List.mem_singleton.mp member⟩
    · rintro (member | ⟨_, _, rfl⟩)
      · cases member
      · exact List.mem_singleton_self _
  · rw [if_neg inserted]
    have same : Group.key ∘ (fun group : GroupKey × List AggregateState =>
        { key := group.1, aggregates := group.2.map AggregateState.finalize }) = Prod.fst := rfl
    rw [same]
    refine ⟨grouped.distinct, fun key => (grouped.listed key).trans ⟨Or.inl, ?_⟩⟩
    rintro (member | ⟨noColumns, noRows, _⟩)
    · exact member
    · refine absurd ?_ inserted
      rw [noColumns, (groups_nil_iff grouped).mpr noRows]
      rfl

theorem summed_of_calm
    (kinds : prepared.Exact scope)
    (calm : prepared.Calm rows)
    (perm : permuted.Perm rows)
    {slot : AggregateSlot}
    (listed : slot ∈ prepared.slots)
    (func : slot.func = .sum)
    {key : GroupKey}
    {error : Error}
    (failed : slot.run (.sumInt 0 false) (prepared.rowsOf permuted key) = .error error) :
    ¬ Fits (integers (slot.arguments (prepared.rowsOf permuted key))).sum := by
  obtain ⟨position, _, taken, _⟩ := (kinds slot listed).2 func
  have numbers :
      (integers (slot.arguments (prepared.rowsOf permuted key))).Perm
        (integers (slot.arguments (prepared.rowsOf rows key))) :=
    integers_perm (slot.arguments_perm (perm.filter _))
  intro fits
  rw [numbers.sum_eq] at fits
  obtain ⟨final, reached⟩ := ((calm slot listed key func).reached_iff numbers).mpr fits
  rw [AggregateSlot.run_sum func taken, reached] at failed
  cases failed

theorem faithful_of_calm
    (ready : prepare scope query = .ok prepared)
    (kinds : prepared.Exact scope)
    (typed : ∀ row ∈ rows, Typed scope row)
    (calm : prepared.Calm rows)
    (perm : permuted.Perm rows) :
    prepared.Faithful permuted := by
  have own : ∀ row ∈ permuted, Typed scope row := fun row member =>
    typed row (perm.mem_iff.mp member)
  have passed {groups : List (GroupKey × List AggregateState)}
      (ran : hashPass prepared permuted = .ok groups) :
      Grouped prepared.template (updateAll prepared.slots) prepared.keyOf permuted groups := by
    rcases @foldGroups_cases _ _ _ _ _ prepared.template (updateAll prepared.slots) prepared.keyOf
      permuted with ⟨found, same, grouped⟩ | ⟨failure, _, _, same, _⟩
    · cases same.symm.trans ran
      exact grouped
    · cases same.symm.trans ran
  constructor
  · exact fun groups ran => keys_finalizeGroups (passed ran)
  · intro groups ran group member
    obtain ⟨states, folded, same⟩ := mem_finalizeGroups (passed ran) member
    rw [same]
    exact valued_of_fold ready kinds own folded
  · intro error ran
    rcases @foldGroups_cases _ _ _ _ _ prepared.template (updateAll prepared.slots) prepared.keyOf
      permuted with ⟨found, same, _⟩ | ⟨failure, row, other, _, member, failed⟩
    · cases same.symm.trans ran
    · obtain ⟨slot, listed, func, run⟩ := foldOf_failed ready kinds failed
      exact ⟨slot, listed, func, _, List.mem_map_of_mem member, run⟩
  · intro slot listed func key error failed
    exact summed_of_calm kinds calm perm listed func failed

end Prepared

/-! ## The whole query -/

/-- The same rows under the same headers. -/
def SameRows (first second : Answer) : Prop :=
  first.columns = second.columns ∧ first.rows.Perm second.rows

/-- Every order of the rows gives the same answer, and each of them a faithful one. -/
def Orderless (scope : Scope) (query : Query) (rows : List (List Value)) : Prop :=
  ∀ permuted : List (List Value),
    permuted.Perm rows →
      Together SameRows (groupedSelect scope query permuted) (groupedSelect scope query rows) ∧
        ∀ prepared, prepare scope query = .ok prepared → prepared.Faithful permuted

variable {scope : Scope} {query : Query} {prepared : Prepared} {rows permuted : List (List Value)}

theorem finalizeGroups_perm
    {groups others : List (GroupKey × List AggregateState)}
    (perm : groups.Perm others) :
    (finalizeGroups prepared groups).Perm (finalizeGroups prepared others) := by
  rw [finalizeGroups, finalizeGroups, perm.isEmpty_eq]
  by_cases inserted : prepared.groupCols.isEmpty && others.isEmpty
  · rw [if_pos inserted, if_pos inserted]
  · rw [if_neg inserted, if_neg inserted]
    exact perm.map _

theorem orderGroups_together
    {orderBy : List AccessPaths.OrderKey}
    {groups others : List Group}
    (perm : groups.Perm others) :
    Together List.Perm (orderGroups scope prepared orderBy groups)
      (orderGroups scope prepared orderBy others) := by
  unfold orderGroups
  by_cases unordered : prepared.groupCols.isEmpty || orderBy.isEmpty
  · rw [if_pos unordered, if_pos unordered]
    exact perm
  · rw [if_neg unordered, if_neg unordered]
    cases orderBy.mapM (groupOrderKey scope prepared) with
    | error error => trivial
    | ok keys =>
        exact ((List.mergeSort_perm groups _).trans perm).trans (List.mergeSort_perm others _).symm

theorem finish_together
    {groups others : List Group}
    (perm : groups.Perm others) :
    Together SameRows (finish scope query prepared groups)
      (finish scope query prepared others) := by
  refine Together.bind (Together.mapM _ perm) fun judged moved judgedPerm => ?_
  refine Together.bind (orderGroups_together (judgedPerm.filterMap id)) ?_
  intro ordered reordered orderedPerm
  refine Together.bind (Together.mapM _ orderedPerm) fun answer other answerPerm => ?_
  exact ⟨rfl, answerPerm⟩

theorem groupedSelect_together
    (kinds : ∀ prepared, prepare scope query = .ok prepared → prepared.Exact scope)
    (typed : ∀ row ∈ rows, Typed scope row)
    (calm : ∀ prepared, prepare scope query = .ok prepared → prepared.Calm rows)
    (perm : permuted.Perm rows) :
    Together SameRows (groupedSelect scope query permuted) (groupedSelect scope query rows) := by
  rw [groupedSelect, groupedSelect]
  cases ready : prepare scope query with
  | error error => trivial
  | ok prepared =>
      have each :=
        Prepared.foldOf_alike ready (kinds prepared ready) typed (calm prepared ready) perm
      have passes : Together List.Perm (hashPass prepared permuted) (hashPass prepared rows) :=
        foldGroups_together perm each
      change Together SameRows ((hashPass prepared permuted).bind _)
        ((hashPass prepared rows).bind _)
      refine passes.bind fun groups others groupsPerm => ?_
      exact finish_together (finalizeGroups_perm groupsPerm)

/-! ## An order that leaves the range -/

/-- The row has an integer that passes the test. -/
def AggregateSlot.chooses (slot : AggregateSlot) (test : Int → Bool) (row : List Value) : Bool :=
  (integers (slot.arguments [row])).any test

theorem integers_chosen
    {slot : AggregateSlot}
    {position : Nat}
    (taken : slot.column = some position)
    (test : Int → Bool) :
    integers (slot.arguments (rows.filter (slot.chooses test))) =
      (integers (slot.arguments rows)).filter test := by
  induction rows with
  | nil =>
      rw [List.filter_nil, AggregateSlot.arguments, taken]
      rfl
  | cons row rest inductionHypothesis =>
      have single : integers (slot.arguments [row]) = [] ∨
          ∃ number, integers (slot.arguments [row]) = [number] := by
        rw [AggregateSlot.integers_arguments taken]
        cases PrehniteDB.column row position with
        | int number => exact Or.inr ⟨_, rfl⟩
        | null | real | text | bool => exact Or.inl rfl
      rw [@AggregateSlot.arguments_cons slot rest row, integers_append, List.filter_append,
        ← inductionHypothesis]
      by_cases chosen : slot.chooses test row = true
      · rw [List.filter_cons_of_pos chosen, AggregateSlot.arguments_cons, integers_append]
        rw [AggregateSlot.chooses] at chosen
        rcases single with none | ⟨number, one⟩
        · rw [none] at chosen
          cases chosen
        · rw [one] at chosen ⊢
          rw [List.filter_cons_of_pos (by simpa using chosen), List.filter_nil]
      · rw [List.filter_cons_of_neg chosen]
        rw [AggregateSlot.chooses] at chosen
        rcases single with none | ⟨number, one⟩
        · rw [none]
          rfl
        · rw [one] at chosen ⊢
          rw [List.filter_cons_of_neg (by simpa using chosen), List.filter_nil, List.nil_append]

theorem Orderless.fits_chosen
    (orderless : Orderless scope query rows)
    (ready : prepare scope query = .ok prepared)
    {slot : AggregateSlot}
    {position : Nat}
    (listed : slot ∈ prepared.slots)
    (func : slot.func = .sum)
    (taken : slot.column = some position)
    (key : GroupKey)
    (fits : Fits (integers (slot.arguments (prepared.rowsOf rows key))).sum)
    (test : Int → Bool) :
    Fits ((integers (slot.arguments (prepared.rowsOf rows key))).filter test).sum := by
  let front := rows.filter (slot.chooses test)
  let later := rows.filter fun row => !slot.chooses test row
  have perm : (front ++ later).Perm rows := List.filter_append_perm _ _
  have group :
      prepared.rowsOf (front ++ later) key =
        (prepared.rowsOf rows key).filter (slot.chooses test) ++ prepared.rowsOf later key := by
    rw [Prepared.rowsOf, List.filter_append, List.filter_comm]
    rfl
  have numbers :=
    integers_perm (slot.arguments_perm (perm.filter fun row => prepared.keyOf row = key))
  have summed := ((orderless _ perm).2 prepared ready).summed slot listed func key
  have split :
      integers (slot.arguments (prepared.rowsOf (front ++ later) key)) =
        (integers (slot.arguments (prepared.rowsOf rows key))).filter test ++
          integers (slot.arguments (prepared.rowsOf later key)) := by
    rw [group, AggregateSlot.arguments_append, integers_append, integers_chosen taken]
  cases reached :
      checkedSum 0 (integers (slot.arguments (prepared.rowsOf (front ++ later) key))) with
  | none =>
      refine absurd ?_ (summed AggregateState.overflowed ?_)
      · rw [Prepared.rowsOf, numbers.sum_eq]
        exact fits
      · rw [AggregateSlot.run_sum func taken, reached]
  | some final =>
      rw [split] at reached
      exact fits_of_reached ⟨final, reached⟩

/--
A grouped query of `COUNT`, `MIN`, `MAX` and `SUM` over `INT` does not depend on
the order of its rows, its aggregates are those of the rows of their group and a
sum fails only beyond the range, exactly if in every group whose sum is inside the
range the positive integers and the negative ones each sum to a value inside.
-/
theorem groupedSelect_orderless_iff
    (typed : ∀ row ∈ rows, Typed scope row)
    (kinds : ∀ prepared, prepare scope query = .ok prepared → prepared.Exact scope) :
    Orderless scope query rows ↔
      ∀ prepared, prepare scope query = .ok prepared → prepared.Calm rows := by
  constructor
  · intro orderless prepared ready slot listed key func
    obtain ⟨position, _, taken, _⟩ := (kinds prepared ready slot listed).2 func
    by_cases fits : Fits (integers (slot.arguments (prepared.rowsOf rows key))).sum
    · have chosen := orderless.fits_chosen ready listed func taken key fits
      have above := chosen fun number => 0 < number
      have below := chosen fun number => number < 0
      rw [sum_above] at above
      rw [sum_below] at below
      exact Or.inl ⟨above, below⟩
    · exact Or.inr fits
  · intro calm permuted perm
    refine ⟨groupedSelect_together kinds typed calm perm, fun prepared ready => ?_⟩
    exact Prepared.faithful_of_calm ready (kinds prepared ready) typed (calm prepared ready) perm

/-! ## Totals of one column -/

def totalScope : Scope := [{ table := "t", name := "a", type := .int }]

def totalQuery : Query where
  items := [.aggregate { func := .sum, arg := .column { table := none, name := "a" } }]
  groupBy := []
  having := none
  orderBy := []

def totalSlot : AggregateSlot := { func := .sum, column := some 0 }

def totalPrepared : Prepared where
  groupCols := []
  registry := [({ func := .sum, arg := .column { table := none, name := "a" } }, totalSlot)]
  template := [.sumInt 0 false]

theorem prepare_total : prepare totalScope totalQuery = .ok totalPrepared := rfl

/-- Numbers of both signs and a `NULL` in one group. -/
theorem groupedSelect_orderless_signs :
    (∀ prepared,
      prepare totalScope totalQuery = .ok prepared →
        prepared.Calm [[.int 3], [.null], [.int (-5)]]) ∧
      Orderless totalScope totalQuery [[.int 3], [.null], [.int (-5)]] := by
  have calm (prepared : Prepared) (ready : prepare totalScope totalQuery = .ok prepared) :
      prepared.Calm [[.int 3], [.null], [.int (-5)]] := by
    obtain rfl : totalPrepared = prepared := Except.ok.inj (prepare_total.symm.trans ready)
    intro slot listed key _
    cases List.mem_singleton.mp listed
    by_cases all : { values := [] } = key
    · subst all
      exact Or.inl (by decide)
    · have none : totalPrepared.rowsOf [[.int 3], [.null], [.int (-5)]] key = [] :=
        List.filter_eq_nil_iff.mpr fun row _ same => all (of_decide_eq_true same)
      rw [none]
      exact Or.inl (by decide)
  refine ⟨calm, (groupedSelect_orderless_iff ?_ ?_).mpr calm⟩
  · intro row member
    have values : row = [.int 3] ∨ row = [.null] ∨ row = [.int (-5)] := by simpa using member
    rcases values with rfl | rfl | rfl <;> exact .cons rfl .nil
  · intro prepared ready
    obtain rfl : totalPrepared = prepared := Except.ok.inj (prepare_total.symm.trans ready)
    intro slot listed
    cases List.mem_singleton.mp listed
    exact ⟨by decide, fun _ => ⟨0, _, rfl, rfl, rfl⟩⟩

/-- The largest `i64` and 1 leave the range before -1 comes. -/
theorem groupedSelect_orderless_counterexample :
    ¬ Orderless totalScope totalQuery [[.int 9223372036854775807], [.int 1], [.int (-1)]] := by
  intro orderless
  have faithful := (orderless _ (List.Perm.refl _)).2 _ prepare_total
  exact faithful.summed totalSlot List.mem_cons_self rfl { values := [] } _ rfl (by decide)

end PrehniteDB.GroupedSelect
