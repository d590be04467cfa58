import Mathlib.Algebra.BigOperators.Group.List.Basic
import Mathlib.Algebra.Order.BigOperators.Group.List
import PrehniteDB.GroupedSelect

namespace PrehniteDB.GroupedSelect

open ReadPaths (ColumnType)

/-!
# What an aggregate is of its rows

The running state of `COUNT`, `MIN`, `MAX` and `SUM` over `INT` is described by
the rows seen so far, without regard to their order.
-/

/-! ## Descriptions -/

/-- The values an aggregate looks at. -/
def AggregateSlot.arguments (slot : AggregateSlot) (rows : List (List Value)) : List Value :=
  match slot.column with
  | none => []
  | some position =>
      (rows.map (PrehniteDB.column · position)).filter fun value => !value.isNull

/-- The rows a `COUNT` counts. -/
def AggregateSlot.counted (slot : AggregateSlot) (rows : List (List Value)) : Nat :=
  match slot.column with
  | none => rows.length
  | some _ => (slot.arguments rows).length

def integers (values : List Value) : List Int :=
  values.filterMap fun
    | .int number => some number.toInt
    | _ => none

/-- Of the values, and none of them is further on the wanted side. -/
def Extreme (want : Ordering) (values : List Value) (value : Value) : Prop :=
  value ∈ values ∧ ∀ other ∈ values, orderValues other value ≠ want

def Best (want : Ordering) (values : List Value) (value : Value) : Prop :=
  if values = [] then value = .null else Extreme want values value

/-- The value of the aggregate over exactly these rows. -/
def AggregateSlot.Yields
    (slot : AggregateSlot)
    (rows : List (List Value))
    (value : Value) : Prop :=
  let arguments := slot.arguments rows
  match slot.func with
  | .count => value = .int (UInt64.ofNat (slot.counted rows)).toInt64
  | .sum =>
      if integers arguments = [] then value = .null
      else ∃ total : Int64, value = .int total ∧ total.toInt = (integers arguments).sum
  | .min => Best .lt arguments value
  | .max => Best .gt arguments value
  | .avg => True

/-- `COUNT`, `MIN`, `MAX`, or `SUM` of an `INT` column. -/
def AggregateSlot.Exact (scope : Scope) (slot : AggregateSlot) : Prop :=
  slot.func ≠ .avg ∧
    (slot.func = .sum →
      ∃ position column,
        slot.column = some position ∧ scope[position]? = some column ∧ column.type = .int)

/-- The row has a value of its type, or none, in every column. -/
def Typed (scope : Scope) (row : List Value) : Prop :=
  List.Forall₂ (fun column value => Value.fits (ScopedColumn.type column) value = true) scope row

theorem Typed.column (scope : Scope) (position : Nat) :
    ∃ type,
      ∀ row, Typed scope row → Value.fits type (PrehniteDB.column row position) = true := by
  obtain ⟨type, fits⟩ := column_fits (scope.map ScopedColumn.type) position
  exact ⟨type, fun row typed => fits row (List.forall₂_map_left_iff.mpr typed)⟩

namespace AggregateSlot

theorem arguments_typed
    (scope : Scope)
    (slot : AggregateSlot) :
    ∃ type, ∀ rows, (∀ row ∈ rows, Typed scope row) →
      ∀ value ∈ slot.arguments rows, Value.fits type value = true := by
  cases taken : slot.column with
  | none =>
      refine ⟨.int, fun rows _ value member => ?_⟩
      rw [arguments, taken] at member
      cases member
  | some position =>
      obtain ⟨type, fits⟩ := Typed.column scope position
      refine ⟨type, fun rows typed value member => ?_⟩
      rw [arguments, taken] at member
      obtain ⟨row, listed, same⟩ := List.mem_map.mp (List.mem_filter.mp member).1
      rw [← same]
      exact fits row (typed row listed)

theorem arguments_append (slot : AggregateSlot) (rows later : List (List Value)) :
    slot.arguments (rows ++ later) = slot.arguments rows ++ slot.arguments later := by
  unfold arguments
  cases slot.column with
  | none => rfl
  | some position => simp only [List.map_append, List.filter_append]

theorem arguments_perm
    (slot : AggregateSlot)
    {rows others : List (List Value)}
    (perm : rows.Perm others) :
    (slot.arguments rows).Perm (slot.arguments others) := by
  unfold arguments
  cases slot.column with
  | none => exact .nil
  | some position => exact (perm.map _).filter _

theorem arguments_null
    {slot : AggregateSlot}
    {position : Nat}
    {row : List Value}
    (taken : slot.column = some position)
    (missing : (PrehniteDB.column row position).isNull = true) :
    slot.arguments [row] = [] := by
  rw [arguments, taken]
  exact List.filter_cons_of_neg (by rw [missing]; decide)

theorem arguments_value
    {slot : AggregateSlot}
    {position : Nat}
    {row : List Value}
    (taken : slot.column = some position)
    (present : (PrehniteDB.column row position).isNull = false) :
    slot.arguments [row] = [PrehniteDB.column row position] := by
  rw [arguments, taken]
  exact List.filter_cons_of_pos (by rw [present]; rfl)

theorem counted_append (slot : AggregateSlot) (rows later : List (List Value)) :
    slot.counted (rows ++ later) = slot.counted rows + slot.counted later := by
  unfold counted
  cases slot.column with
  | none => exact List.length_append
  | some position => simp only [arguments_append, List.length_append]

theorem counted_perm
    (slot : AggregateSlot)
    {rows others : List (List Value)}
    (perm : rows.Perm others) :
    slot.counted rows = slot.counted others := by
  unfold counted
  cases slot.column with
  | none => exact perm.length_eq
  | some position => exact (slot.arguments_perm perm).length_eq

end AggregateSlot

theorem integers_append (values later : List Value) :
    integers (values ++ later) = integers values ++ integers later :=
  List.filterMap_append

theorem integers_perm
    {values others : List Value}
    (perm : values.Perm others) :
    (integers values).Perm (integers others) :=
  perm.filterMap _

/-! ## Extremes -/

section Extremes

variable {type : ColumnType} {want : Ordering} {values others : List Value} {value other : Value}

theorem Extreme.perm (extreme : Extreme want values value) (perm : values.Perm others) :
    Extreme want others value :=
  ⟨perm.mem_iff.mp extreme.1, fun other member => extreme.2 other (perm.mem_iff.mpr member)⟩

theorem Extreme.unique
    (typed : ∀ value ∈ values, Value.fits type value = true)
    (strict : want ≠ .eq)
    (extreme : Extreme want values value)
    (another : Extreme want values other) :
    value = other := by
  have ahead := extreme.2 other another.1
  have behind := another.2 value extreme.1
  refine orderValues_eq (typed value extreme.1) (typed other another.1) ?_
  rw [orderValues_swap value other] at ahead
  cases compared : orderValues value other <;> cases want <;>
    simp_all

/-- A value further on the wanted side takes the place of the best so far. -/
theorem Extreme.replace
    (typed : ∀ seen ∈ values ++ [value], Value.fits type seen = true)
    (strict : want ≠ .eq)
    {best : Value}
    (extreme : Extreme want values best) :
    Extreme want (values ++ [value])
      (if orderValues value best = want then value else best) := by
  have bestFits := typed best (List.mem_append_left _ extreme.1)
  have valueFits := typed value (List.mem_append_right _ (List.mem_singleton_self _))
  by_cases further : orderValues value best = want
  · rw [if_pos further]
    refine ⟨List.mem_append_right _ (List.mem_singleton_self _), fun other member beyond => ?_⟩
    rcases List.mem_append.mp member with old | new
    · exact extreme.2 other old
        (orderValues_trans (typed other member) valueFits bestFits beyond further strict)
    · rw [List.mem_singleton.mp new, orderValues_self] at beyond
      exact strict beyond.symm
  · rw [if_neg further]
    refine ⟨List.mem_append_left _ extreme.1, fun other member => ?_⟩
    rcases List.mem_append.mp member with old | new
    · exact extreme.2 other old
    · rw [List.mem_singleton.mp new]
      exact further

theorem Extreme.single (strict : want ≠ .eq) : Extreme want [value] value :=
  ⟨List.mem_singleton_self _, fun other member => by
    rw [List.mem_singleton.mp member, orderValues_self]
    exact strict.symm⟩

/-- The best of some values, with one held before them. -/
def furthest (want : Ordering) (best : Option Value) (values : List Value) : Option Value :=
  values.foldl
    (fun best value =>
      match best with
      | none => some value
      | some current => some (if orderValues value current = want then value else current))
    best

theorem furthest_some
    (typed : ∀ value ∈ values, Value.fits type value = true)
    (strict : want ≠ .eq)
    (extreme : Extreme want others value)
    (othersTyped : ∀ other ∈ others, Value.fits type other = true) :
    ∃ best,
      furthest want (some value) values = some best ∧ Extreme want (others ++ values) best := by
  induction values generalizing others value with
  | nil => exact ⟨value, rfl, by rwa [List.append_nil]⟩
  | cons first rest inductionHypothesis =>
      have fits : ∀ seen ∈ others ++ [first], Value.fits type seen = true := by
        intro seen member
        rcases List.mem_append.mp member with old | new
        · exact othersTyped seen old
        · exact typed seen (List.mem_singleton.mp new ▸ List.mem_cons_self)
      obtain ⟨best, found, furthest⟩ :=
        inductionHypothesis (fun value member => typed value (List.mem_cons_of_mem _ member))
          (extreme.replace fits strict) fits
      exact ⟨best, found, by rwa [List.append_assoc] at furthest⟩

theorem furthest_none
    (typed : ∀ value ∈ values, Value.fits type value = true)
    (strict : want ≠ .eq)
    (present : values ≠ []) :
    ∃ best, furthest want none values = some best ∧ Extreme want values best := by
  cases values with
  | nil => exact absurd rfl present
  | cons first rest =>
      exact furthest_some (fun value member => typed value (List.mem_cons_of_mem _ member)) strict
        (Extreme.single strict : Extreme want [first] first)
        (fun other member => typed other (List.mem_singleton.mp member ▸ List.mem_cons_self))

theorem furthest_best
    (typed : ∀ value ∈ values, Value.fits type value = true)
    (strict : want ≠ .eq) :
    Best want values ((furthest want none values).getD .null) := by
  by_cases empty : values = []
  · rw [Best, if_pos empty, empty]
    rfl
  · obtain ⟨best, found, extreme⟩ := furthest_none typed strict empty
    rw [Best, if_neg empty, found]
    exact extreme

theorem furthest_perm
    (typed : ∀ value ∈ values, Value.fits type value = true)
    (strict : want ≠ .eq)
    (perm : others.Perm values) :
    furthest want none others = furthest want none values := by
  by_cases empty : values = []
  · subst empty
    rw [List.perm_nil.mp perm]
  · have otherTyped : ∀ value ∈ others, Value.fits type value = true := fun value member =>
      typed value (perm.mem_iff.mp member)
    obtain ⟨best, found, extreme⟩ := furthest_none typed strict empty
    obtain ⟨another, same, furthest⟩ :=
      furthest_none otherTyped strict fun none =>
        empty (List.nil_perm.mp (none ▸ perm : [].Perm values))
    rw [found, same, extreme.unique typed strict (furthest.perm perm)]

end Extremes

/-! ## Checked sums -/

def Fits (number : Int) : Prop := -(2 ^ 63) ≤ number ∧ number < 2 ^ 63

instance (number : Int) : Decidable (Fits number) :=
  inferInstanceAs (Decidable (_ ∧ _))

def checkedSum (total : Int64) (numbers : List Int) : Option Int64 :=
  numbers.foldlM (fun total number => checked (total.toInt + number)) total

def positives (numbers : List Int) : Int := (numbers.map fun number => max number 0).sum

def negatives (numbers : List Int) : Int := (numbers.map fun number => min number 0).sum

/-- No order of the numbers leaves the range on the way, or their sum is beyond it. -/
def Steady (numbers : List Int) : Prop :=
  Fits (positives numbers) ∧ Fits (negatives numbers) ∨ ¬ Fits numbers.sum

theorem checked_some
    {number : Int}
    {total : Int64}
    (moved : checked number = some total) :
    total.toInt = number := by
  unfold checked at moved
  by_cases inside : -(2 ^ 63) ≤ number ∧ number < 2 ^ 63
  · rw [if_pos inside] at moved
    rw [← Option.some.inj moved]
    exact Int64.toInt_ofInt_of_le inside.1 inside.2
  · rw [if_neg inside] at moved
    cases moved

theorem checked_fits {number : Int} (fits : Fits number) : ∃ total, checked number = some total :=
  ⟨_, if_pos fits⟩

theorem fits_toInt (number : Int64) : Fits number.toInt :=
  ⟨number.le_toInt, number.toInt_lt⟩

theorem checkedSum_cons (total : Int64) (number : Int) (rest : List Int) :
    checkedSum total (number :: rest) =
      (checked (total.toInt + number)).bind fun next => checkedSum next rest := by
  rw [checkedSum, List.foldlM_cons]
  rfl

theorem checkedSum_append (total : Int64) (numbers later : List Int) :
    checkedSum total (numbers ++ later) =
      (checkedSum total numbers).bind fun next => checkedSum next later := by
  rw [checkedSum, List.foldlM_append]
  rfl

theorem checkedSum_exact
    {total final : Int64}
    {numbers : List Int}
    (reached : checkedSum total numbers = some final) :
    final.toInt = total.toInt + numbers.sum := by
  induction numbers generalizing total with
  | nil =>
      cases reached
      rw [List.sum_nil, Int.add_zero]
  | cons number rest inductionHypothesis =>
      rw [checkedSum_cons, Option.bind_eq_some_iff] at reached
      obtain ⟨next, moved, later⟩ := reached
      rw [inductionHypothesis later, checked_some moved, List.sum_cons, Int.add_assoc]

theorem positives_nonneg (numbers : List Int) : 0 ≤ positives numbers := by
  refine List.sum_nonneg fun number member => ?_
  obtain ⟨_, _, rfl⟩ := List.mem_map.mp member
  exact Int.le_max_right _ _

theorem negatives_nonpos (numbers : List Int) : negatives numbers ≤ 0 := by
  induction numbers with
  | nil => exact Int.le_refl 0
  | cons number rest inductionHypothesis =>
      have least : min number 0 ≤ 0 := Int.min_le_right _ _
      rw [negatives, List.map_cons, List.sum_cons]
      rw [negatives] at inductionHypothesis
      omega

/-- What is above zero and what is below it bound every total on the way. -/
theorem checkedSum_reached
    {total : Int64}
    {numbers : List Int}
    (above : total.toInt + positives numbers < 2 ^ 63)
    (below : -(2 ^ 63) ≤ total.toInt + negatives numbers) :
    ∃ final, checkedSum total numbers = some final := by
  induction numbers generalizing total with
  | nil => exact ⟨total, rfl⟩
  | cons number rest inductionHypothesis =>
      rw [positives, List.map_cons, List.sum_cons, ← positives] at above
      rw [negatives, List.map_cons, List.sum_cons, ← negatives] at below
      have upper := positives_nonneg rest
      have lower := negatives_nonpos rest
      obtain ⟨next, moved⟩ : ∃ next, checked (total.toInt + number) = some next := by
        have range := fits_toInt total
        exact checked_fits ⟨by have := range.1; omega, by have := range.2; omega⟩
      have place := checked_some moved
      obtain ⟨final, reached⟩ :=
        @inductionHypothesis next (by omega) (by omega)
      exact ⟨final, by rw [checkedSum_cons, moved]; exact reached⟩

theorem Steady.reached_iff
    {numbers others : List Int}
    (steady : Steady numbers)
    (perm : others.Perm numbers) :
    (∃ final, checkedSum 0 others = some final) ↔ Fits numbers.sum := by
  constructor
  · rintro ⟨final, reached⟩
    have exact := checkedSum_exact reached
    rw [Int64.toInt_zero, Int.zero_add, perm.sum_eq] at exact
    exact exact ▸ fits_toInt final
  · intro fits
    rcases steady with ⟨upper, lower⟩ | beyond
    · have high : positives others = positives numbers := (perm.map _).sum_eq
      have low : negatives others = negatives numbers := (perm.map _).sum_eq
      refine checkedSum_reached ?_ ?_
      · rw [high, Int64.toInt_zero, Int.zero_add]
        exact upper.2
      · rw [low, Int64.toInt_zero, Int.zero_add]
        exact lower.1
    · exact absurd fits beyond

theorem sum_above (numbers : List Int) :
    (numbers.filter fun number => 0 < number).sum = positives numbers := by
  induction numbers with
  | nil => rfl
  | cons number rest inductionHypothesis =>
      rw [positives, List.map_cons, List.sum_cons, ← positives, ← inductionHypothesis]
      by_cases above : 0 < number
      · rw [List.filter_cons_of_pos (by simpa using above), List.sum_cons,
          Int.max_eq_left above.le]
      · rw [List.filter_cons_of_neg (by simpa using above),
          Int.max_eq_right (Int.not_lt.mp above), Int.zero_add]

theorem sum_below (numbers : List Int) :
    (numbers.filter fun number => number < 0).sum = negatives numbers := by
  induction numbers with
  | nil => rfl
  | cons number rest inductionHypothesis =>
      rw [negatives, List.map_cons, List.sum_cons, ← negatives, ← inductionHypothesis]
      by_cases below : number < 0
      · rw [List.filter_cons_of_pos (by simpa using below), List.sum_cons,
          Int.min_eq_left below.le]
      · rw [List.filter_cons_of_neg (by simpa using below),
          Int.min_eq_right (Int.not_lt.mp below), Int.zero_add]

/-- What comes first has been a total on the way. -/
theorem fits_of_reached
    {front later : List Int}
    (reached : ∃ final, checkedSum 0 (front ++ later) = some final) :
    Fits front.sum := by
  obtain ⟨final, reached⟩ := reached
  rw [checkedSum_append, Option.bind_eq_some_iff] at reached
  obtain ⟨middle, first, _⟩ := reached
  have exact := checkedSum_exact first
  rw [Int64.toInt_zero, Int.zero_add] at exact
  exact exact ▸ fits_toInt middle

/-! ## One slot -/

namespace AggregateSlot

variable {slot : AggregateSlot} {rows : List (List Value)}

/-- The pass of one slot over some rows. -/
def run
    (slot : AggregateSlot)
    (state : AggregateState)
    (rows : List (List Value)) : Except Error AggregateState :=
  rows.foldlM (fun state row => state.update slot row) state

theorem run_cons (state : AggregateState) (row : List Value) :
    slot.run state (row :: rows) = (state.update slot row).bind fun next => slot.run next rows :=
  List.foldlM_cons

theorem arguments_cons (row : List Value) :
    slot.arguments (row :: rows) = slot.arguments [row] ++ slot.arguments rows :=
  slot.arguments_append [row] rows

theorem run_count
    (func : slot.func = .count)
    (number : UInt64) :
    slot.run (.count number) rows = .ok (.count (number + UInt64.ofNat (slot.counted rows))) := by
  obtain ⟨own, taken⟩ := slot
  cases func
  induction rows generalizing number with
  | nil =>
      have none : counted ⟨.count, taken⟩ [] = 0 := by cases taken <;> rfl
      rw [none]
      exact congrArg (fun number => Except.ok (AggregateState.count number))
        (UInt64.add_zero _).symm
  | cons row rest inductionHypothesis =>
      have step :
          (AggregateState.count number).update ⟨.count, taken⟩ row =
            .ok (.count (number + UInt64.ofNat (counted ⟨.count, taken⟩ [row]))) := by
        cases taken with
        | none => rfl
        | some position =>
            cases missing : (PrehniteDB.column row position).isNull with
            | true =>
                rw [counted, arguments_null rfl missing]
                simp [AggregateState.update, missing]
            | false =>
                rw [counted, arguments_value rfl missing]
                simp [AggregateState.update, missing]
      have split := counted_append ⟨.count, taken⟩ [row] rest
      rw [List.singleton_append] at split
      rw [run_cons, step, split, UInt64.ofNat_add, ← UInt64.add_assoc]
      exact inductionHypothesis _

theorem integers_arguments
    {position : Nat}
    (taken : slot.column = some position)
    (row : List Value) :
    integers (slot.arguments [row]) = integers [PrehniteDB.column row position] := by
  cases missing : (PrehniteDB.column row position).isNull with
  | true =>
      rw [arguments_null taken missing]
      cases value : PrehniteDB.column row position with
      | null => rfl
      | int | real | text | bool => rw [value] at missing; cases missing
  | false => rw [arguments_value taken missing]

theorem run_sum
    {position : Nat}
    (func : slot.func = .sum)
    (taken : slot.column = some position)
    (total : Int64)
    (seen : Bool) :
    slot.run (.sumInt total seen) rows =
      match checkedSum total (integers (slot.arguments rows)) with
      | some final => .ok (.sumInt final (seen || !(integers (slot.arguments rows)).isEmpty))
      | none => .error AggregateState.overflowed := by
  obtain ⟨own, place⟩ := slot
  cases func
  cases taken
  induction rows generalizing total seen with
  | nil => cases seen <;> rfl
  | cons row rest inductionHypothesis =>
      rw [run_cons, arguments_cons, integers_append]
      cases value : PrehniteDB.column row position with
      | int number =>
          have one : integers (arguments ⟨.sum, some position⟩ [row]) = [number.toInt] := by
            rw [integers_arguments rfl, value]
            rfl
          rw [one, List.singleton_append, checkedSum_cons]
          simp only [AggregateState.update, value]
          cases moved : checked (total.toInt + number.toInt) with
          | none => rfl
          | some next =>
              refine (inductionHypothesis next true).trans ?_
              cases seen <;> rfl
      | null | real | text | bool =>
          have none : integers (arguments ⟨.sum, some position⟩ [row]) = [] := by
            rw [integers_arguments rfl, value]
            rfl
          rw [none, List.nil_append]
          simp only [AggregateState.update, value]
          exact inductionHypothesis total seen

theorem run_extreme
    (func : slot.func = .min ∨ slot.func = .max)
    (best : Option Value)
    (want : Ordering) :
    slot.run (.extreme best want) rows =
      .ok (.extreme (furthest want best (slot.arguments rows)) want) := by
  have step (row : List Value) (best : Option Value) :
      (AggregateState.extreme best want).update slot row =
        .ok (.extreme (furthest want best (slot.arguments [row])) want) := by
    obtain ⟨own, taken⟩ := slot
    cases taken with
    | none => rcases func with func | func <;> cases func <;> rfl
    | some position =>
        cases missing : (PrehniteDB.column row position).isNull with
        | true =>
            rw [arguments_null rfl missing]
            rcases func with func | func <;> cases func <;>
              simp [AggregateState.update, missing, furthest]
        | false =>
            rw [arguments_value rfl missing]
            rcases func with func | func <;> cases func <;> cases best <;>
              simp [AggregateState.update, missing, furthest]
            all_goals split <;> rfl
  induction rows generalizing best with
  | nil =>
      have none : slot.arguments [] = [] := by
        rw [arguments]
        cases slot.column <;> rfl
      rw [none]
      rfl
  | cons row rest inductionHypothesis =>
      rw [run_cons, step, @arguments_cons slot rest row]
      refine (inductionHypothesis _).trans ?_
      rw [furthest, furthest, furthest, List.foldl_append]

theorem forSlot_cases
    {scope : Scope}
    {start : AggregateState}
    (exact : slot.Exact scope)
    (made : AggregateState.forSlot scope slot = .ok start) :
    (slot.func = .count ∧ start = .count 0) ∨
    (∃ position column,
      slot.func = .sum ∧ slot.column = some position ∧ scope[position]? = some column ∧
        column.type = .int ∧ start = .sumInt 0 false) ∨
    (slot.func = .min ∧ start = .extreme none .lt) ∨
    (slot.func = .max ∧ start = .extreme none .gt) := by
  obtain ⟨notAvg, ints⟩ := exact
  obtain ⟨func, taken⟩ := slot
  cases func with
  | avg => exact absurd rfl notAvg
  | count => cases made; exact Or.inl ⟨rfl, rfl⟩
  | min => cases made; exact Or.inr (Or.inr (Or.inl ⟨rfl, rfl⟩))
  | max => cases made; exact Or.inr (Or.inr (Or.inr ⟨rfl, rfl⟩))
  | sum =>
      obtain ⟨position, column, rfl, placed, type⟩ := ints rfl
      rw [AggregateState.forSlot] at made
      simp only [Option.bind_some, placed, Option.getD_some, type] at made
      cases made
      exact Or.inr (Or.inl ⟨position, column, rfl, rfl, placed, type, rfl⟩)

/-- A finished pass has the value of the aggregate over its rows. -/
theorem yields_of_run
    {scope : Scope}
    {start final : AggregateState}
    (exact : slot.Exact scope)
    (made : AggregateState.forSlot scope slot = .ok start)
    (typed : ∀ row ∈ rows, Typed scope row)
    (ran : slot.run start rows = .ok final) :
    slot.Yields rows final.finalize := by
  obtain ⟨type, fits⟩ := slot.arguments_typed scope
  rcases forSlot_cases exact made with
    ⟨func, rfl⟩ | ⟨position, column, func, taken, _, _, rfl⟩ | ⟨func, rfl⟩ | ⟨func, rfl⟩
  · rw [run_count func, UInt64.zero_add] at ran
    cases ran
    rw [Yields, func]
    rfl
  · rw [run_sum func taken] at ran
    cases reached : checkedSum 0 (integers (slot.arguments rows)) with
    | none => rw [reached] at ran; cases ran
    | some total =>
        rw [reached] at ran
        cases ran
        have exactly := checkedSum_exact reached
        rw [Int64.toInt_zero, Int.zero_add] at exactly
        rw [Yields, func]
        cases numbers : integers (slot.arguments rows) with
        | nil => exact rfl
        | cons number rest =>
            rw [numbers] at exactly
            exact ⟨total, rfl, exactly⟩
  · rw [run_extreme (Or.inl func)] at ran
    cases ran
    rw [Yields, func]
    exact furthest_best (fits rows typed) (by decide)
  · rw [run_extreme (Or.inr func)] at ran
    cases ran
    rw [Yields, func]
    exact furthest_best (fits rows typed) (by decide)

/-- The `SUM`s of a slot, if it is one, are steady. -/
def Calm (slot : AggregateSlot) (rows : List (List Value)) : Prop :=
  slot.func = .sum → Steady (integers (slot.arguments rows))

theorem run_alike
    {scope : Scope}
    {start : AggregateState}
    {permuted : List (List Value)}
    (exact : slot.Exact scope)
    (made : AggregateState.forSlot scope slot = .ok start)
    (typed : ∀ row ∈ rows, Typed scope row)
    (calm : slot.Calm rows)
    (perm : permuted.Perm rows) :
    KeyedFolds.Together Eq (slot.run start permuted) (slot.run start rows) := by
  obtain ⟨type, fits⟩ := slot.arguments_typed scope
  have values : (slot.arguments permuted).Perm (slot.arguments rows) := slot.arguments_perm perm
  rcases forSlot_cases exact made with
    ⟨func, rfl⟩ | ⟨position, column, func, taken, _, _, rfl⟩ | ⟨func, rfl⟩ | ⟨func, rfl⟩
  · rw [run_count func, run_count func, slot.counted_perm perm]
    exact rfl
  · have numbers : (integers (slot.arguments permuted)).Perm (integers (slot.arguments rows)) :=
      integers_perm values
    have steady := calm func
    have reached := steady.reached_iff numbers
    have back := steady.reached_iff (List.Perm.refl _)
    rw [run_sum func taken, run_sum func taken]
    cases left : checkedSum 0 (integers (slot.arguments permuted)) with
    | none =>
        cases right : checkedSum 0 (integers (slot.arguments rows)) with
        | none => exact trivial
        | some total =>
            obtain ⟨final, found⟩ := reached.mpr (back.mp ⟨total, right⟩)
            rw [left] at found
            cases found
    | some final =>
        obtain ⟨total, right⟩ := back.mpr (reached.mp ⟨final, left⟩)
        rw [right]
        have same : final = total := by
          refine Int64.toInt_inj.mp ?_
          rw [checkedSum_exact left, checkedSum_exact right, numbers.sum_eq]
        rw [same, numbers.isEmpty_eq]
        exact rfl
  · rw [run_extreme (Or.inl func), run_extreme (Or.inl func),
      furthest_perm (fits rows typed) (by decide) values]
    exact rfl
  · rw [run_extreme (Or.inr func), run_extreme (Or.inr func),
      furthest_perm (fits rows typed) (by decide) values]
    exact rfl

end AggregateSlot

end PrehniteDB.GroupedSelect
