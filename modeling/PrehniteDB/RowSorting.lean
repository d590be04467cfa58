import PrehniteDB.AccessPaths
import PrehniteDB.StableSorting
import PrehniteDB.ValueOrder

namespace PrehniteDB

open AccessPaths (OrderKey)
open ReadPaths (ColumnType)

/-!
# Sorting rows

The keys of an `ORDER BY` are positions of the row with their directions.
-/

/-- The comparison of `sort_rows`: the first key that tells the rows apart decides. -/
def orderRows (keys : List (Nat × Bool)) (left right : List Value) : Ordering :=
  match keys with
  | [] => .eq
  | (position, descending) :: rest =>
      let ordering := orderValues (column left position) (column right position)
      let directed := if descending then ordering.swap else ordering
      directed.then (orderRows rest left right)

/-- `sort_rows`; `sort_by` is stable. -/
def sortRows (keys : List (Nat × Bool)) (rows : List (List Value)) : List (List Value) :=
  rows.mergeSort fun left right => decide (orderRows keys left right ≠ .gt)

def resolveOrderKey (scope : Scope) (key : OrderKey) : Except Error (Nat × Bool) := do
  pure (← scope.resolve key.column, key.descending)

def resolveOrderKeys (scope : Scope) (orderBy : List OrderKey) :
    Except Error (List (Nat × Bool)) :=
  orderBy.mapM (resolveOrderKey scope)

theorem resolveOrderKeys_cons
    {scope : Scope}
    {key : OrderKey}
    {rest : List OrderKey}
    {keys : List (Nat × Bool)}
    (resolved : resolveOrderKeys scope (key :: rest) = .ok keys) :
    ∃ position later,
      scope.resolve key.column = .ok position ∧ resolveOrderKeys scope rest = .ok later ∧
        keys = (position, key.descending) :: later := by
  rw [resolveOrderKeys, List.mapM_cons, resolveOrderKey] at resolved
  cases head : scope.resolve key.column with
  | error error => rw [head] at resolved; cases resolved
  | ok position =>
      rw [head] at resolved
      cases tail : List.mapM (resolveOrderKey scope) rest with
      | error error => rw [tail] at resolved; cases resolved
      | ok later =>
          rw [tail] at resolved
          cases resolved
          exact ⟨position, later, rfl, tail, rfl⟩

theorem orderRows_ascending (columns : List Nat) (left right : List Value) :
    orderRows (columns.map fun position => (position, false)) left right =
      orderTuples (indexTuple left columns) (indexTuple right columns) := by
  induction columns with
  | nil => rfl
  | cons position rest inductionHypothesis =>
      rw [indexTuple, indexTuple, List.map_cons, List.map_cons, List.map_cons, orderTuples,
        List.compareLex_cons_cons]
      exact congrArg (orderValues (column left position) (column right position)).then
        inductionHypothesis

theorem sortRows_of_sorted
    {keys : List (Nat × Bool)}
    {rows : List (List Value)}
    (sorted : rows.Pairwise fun left right => orderRows keys left right ≠ .gt) :
    sortRows keys rows = rows :=
  List.mergeSort_of_pairwise (sorted.imp fun below => decide_eq_true below)

/-! ## A total preorder -/

/-- A value of its type, or none, in every column. -/
def TypedRow (types : List ColumnType) (row : List Value) : Prop :=
  List.Forall₂ (fun type value => Value.fits type value = true) types row

theorem orderRows_swap (keys : List (Nat × Bool)) (left right : List Value) :
    orderRows keys right left = (orderRows keys left right).swap := by
  induction keys with
  | nil => rfl
  | cons key rest inductionHypothesis =>
      obtain ⟨position, descending⟩ := key
      simp only [orderRows]
      rw [orderValues_swap (column left position), Ordering.swap_then, inductionHypothesis]
      cases descending <;> rfl

/-- A value in front of a second that is in front of a third. -/
theorem directed_trans
    {type : ColumnType}
    {descending : Bool}
    {first second third : Value}
    (firstFits : Value.fits type first = true)
    (secondFits : Value.fits type second = true)
    (thirdFits : Value.fits type third = true)
    (before :
      (if descending then (orderValues first second).swap else orderValues first second) = .lt)
    (after :
      (if descending then (orderValues second third).swap else orderValues second third) = .lt) :
    (if descending then (orderValues first third).swap else orderValues first third) = .lt := by
  cases descending with
  | false => exact orderValues_trans firstFits secondFits thirdFits before after (by decide)
  | true =>
      have backwards := Ordering.swap_eq_lt.mp before
      have later := Ordering.swap_eq_lt.mp after
      exact Ordering.swap_eq_lt.mpr
        (orderValues_trans firstFits secondFits thirdFits backwards later (by decide))

theorem orderRows_trans
    {types : List ColumnType}
    {first second third : List Value}
    (firstTyped : TypedRow types first)
    (secondTyped : TypedRow types second)
    (thirdTyped : TypedRow types third)
    (keys : List (Nat × Bool))
    (before : orderRows keys first second ≠ .gt)
    (after : orderRows keys second third ≠ .gt) :
    orderRows keys first third ≠ .gt := by
  induction keys with
  | nil => exact before
  | cons key rest inductionHypothesis =>
      obtain ⟨position, descending⟩ := key
      obtain ⟨type, fits⟩ := column_fits types position
      have firstFits := fits first firstTyped
      have secondFits := fits second secondTyped
      have thirdFits := fits third thirdTyped
      simp only [orderRows] at before after ⊢
      have equal {one other : Value} (oneFits : Value.fits type one = true)
          (otherFits : Value.fits type other = true)
          (same :
            (if descending then (orderValues one other).swap else orderValues one other) = .eq) :
          one = other := by
        refine orderValues_eq oneFits otherFits ?_
        cases descending with
        | false => exact same
        | true => exact Ordering.swap_eq_eq.mp same
      cases ahead : (if descending then
          (orderValues (column first position) (column second position)).swap
        else orderValues (column first position) (column second position)) with
      | gt =>
          rw [ahead] at before
          exact absurd rfl before
      | eq =>
          rw [ahead] at before
          rw [equal firstFits secondFits ahead]
          cases behind : (if descending then
              (orderValues (column second position) (column third position)).swap
            else orderValues (column second position) (column third position)) with
          | gt => rw [behind] at after; exact absurd rfl after
          | lt => nofun
          | eq =>
              rw [behind] at after
              exact inductionHypothesis before after
      | lt =>
          cases behind : (if descending then
              (orderValues (column second position) (column third position)).swap
            else orderValues (column second position) (column third position)) with
          | gt => rw [behind] at after; exact absurd rfl after
          | lt =>
              rw [directed_trans firstFits secondFits thirdFits ahead behind]
              nofun
          | eq =>
              rw [← equal secondFits thirdFits behind, ahead]
              nofun

theorem orderRows_preorders (types : List ColumnType) (keys : List (Nat × Bool)) :
    StableSorting.Preorders (TypedRow types)
      fun left right => decide (orderRows keys left right ≠ .gt) where
  trans := by
    intro first second third firstTyped secondTyped thirdTyped before after
    exact decide_eq_true (orderRows_trans firstTyped secondTyped thirdTyped keys
      (of_decide_eq_true before) (of_decide_eq_true after))
  total := by
    intro first second _ _
    rw [orderRows_swap keys first second]
    cases orderRows keys first second <;> rfl

end PrehniteDB
