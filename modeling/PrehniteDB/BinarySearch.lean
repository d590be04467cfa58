import Mathlib.Order.Defs.LinearOrder

namespace PrehniteDB.BinarySearch

/-!
# Binary search over positions

The order of a sought place against a position is told by a probe, which may
fail.  A search for what is not there ends between the positions before it and
those behind it.  The order of the first position need not fit the others; where no
orders fit, a search still ends at a position.
-/

/-- The position found, or the one to insert at. -/
def search (probe : Nat → Option Ordering) (lo hi : Nat) : Option (Except Nat Nat) :=
  if lo < hi then
    match probe ((lo + hi) / 2) with
    | none => none
    | some .lt => search probe ((lo + hi) / 2 + 1) hi
    | some .gt => search probe lo ((lo + hi) / 2)
    | some .eq => some (.ok ((lo + hi) / 2))
  else some (.error lo)
termination_by hi - lo
decreasing_by all_goals omega

theorem search_congr
    {probe other : Nat → Option Ordering}
    {lo hi : Nat}
    (same : ∀ position < hi, probe position = other position) :
    search probe lo hi = search other lo hi := by
  induction width : hi - lo using Nat.strongRecOn generalizing lo hi with
  | _ width inductionHypothesis =>
      by_cases more : lo < hi
      · unfold search
        rw [if_pos more, if_pos more, same _ (by omega)]
        have upper := @inductionHypothesis (hi - ((lo + hi) / 2 + 1)) (by omega)
          ((lo + hi) / 2 + 1) hi same rfl
        have lower := @inductionHypothesis ((lo + hi) / 2 - lo) (by omega) lo ((lo + hi) / 2)
          (fun position below => same position (by omega)) rfl
        rw [upper, lower]
      · unfold search
        rw [if_neg more, if_neg more]

/-- Where a search ends, by the orders of the positions from `first` on. -/
inductive Ends (order : Nat → Ordering) (first size : Nat) : Except Nat Nat → Prop where
  | found
      {position : Nat}
      (inside : position < size)
      (here : order position = .eq) :
      Ends order first size (.ok position)
  | between
      {position : Nat}
      (inside : position ≤ size)
      (before : ∀ other, first ≤ other → other < position → order other = .lt)
      (behind : ∀ other, first ≤ other → position ≤ other → other < size → order other = .gt) :
      Ends order first size (.error position)

variable {probe : Nat → Option Ordering} {order : Nat → Ordering} {first size : Nat}

/-- The positions below `lo` lie before the place, those from `hi` on behind it. -/
theorem search_ends
    (probed : ∀ position < size, probe position = some (order position))
    (ascending : ∀ position other, first ≤ position → position < other → other < size →
      order other ≠ .gt → order position = .lt)
    (free : first ≤ 1 ∨ size ≤ first)
    {lo hi : Nat}
    (within : lo ≤ hi)
    (inside : hi ≤ size)
    (before : ∀ other, first ≤ other → other < lo → order other = .lt)
    (behind : ∀ other, first ≤ other → hi ≤ other → other < size → order other = .gt) :
    ∃ found, search probe lo hi = some found ∧ Ends order first size found := by
  induction width : hi - lo using Nat.strongRecOn generalizing lo hi with
  | _ width inductionHypothesis =>
      unfold search
      by_cases more : lo < hi
      · have middle : (lo + hi) / 2 < hi := by omega
        rw [if_pos more, probed _ (by omega)]
        cases verdict : order ((lo + hi) / 2) with
        | eq => exact ⟨_, rfl, .found (by omega) verdict⟩
        | lt =>
            refine inductionHypothesis (hi - ((lo + hi) / 2 + 1)) (by omega)
              (by omega) inside (fun other past below => ?_) behind rfl
            by_cases here : other = (lo + hi) / 2
            · rw [here]
              exact verdict
            · exact ascending other ((lo + hi) / 2) past (by omega) (by omega) (by simp [verdict])
        | gt =>
            refine inductionHypothesis ((lo + hi) / 2 - lo) (by omega)
              (by omega) (by omega) before (fun other past above within => ?_) rfl
            by_cases here : other = (lo + hi) / 2
            · rw [here]
              exact verdict
            · -- only the first position lies before `first`, and it is the last to be looked at
              by_cases counted : first ≤ (lo + hi) / 2
              · by_contra notBehind
                have smaller := ascending ((lo + hi) / 2) other counted (by omega) within notBehind
                rw [verdict] at smaller
                cases smaller
              · exact behind other past (by omega) within
      · rw [if_neg more]
        obtain rfl : lo = hi := by omega
        exact ⟨_, rfl, .between inside before behind⟩

theorem search_all
    (probed : ∀ position < size, probe position = some (order position))
    (ascending : ∀ position other, first ≤ position → position < other → other < size →
      order other ≠ .gt → order position = .lt)
    (free : first ≤ 1 ∨ size ≤ first) :
    ∃ found, search probe 0 size = some found ∧ Ends order first size found :=
  search_ends probed ascending free (Nat.zero_le size) (Nat.le_refl size)
    (fun _ _ below => absurd below (Nat.not_lt_zero _))
    (fun _ _ above within => absurd within (Nat.not_lt.mpr above))

/-- Orders that do not ascend. -/
theorem search_unordered
    (probed : ∀ position < size, probe position = some (order position)) :
    ∃ found, search probe 0 size = some found ∧ Ends order size size found :=
  search_all probed
    (fun _ _ past before within => absurd past (by omega)) (.inr (Nat.le_refl size))

end PrehniteDB.BinarySearch
