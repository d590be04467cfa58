import Mathlib.Data.List.Basic

/-!
# Runs of machines that are pulled

A machine is asked for one item after another until it has no more or fails.  Two
machines with related states run alike.  Items may be handed out in chunks of a
fixed size, and a failure loses the chunk that is being filled.
-/

namespace PulledRuns

variable {State Other Failure Item : Type}

abbrev Machine (State Failure Item : Type) :=
  State → Except Failure (Option (Item × State))

/-- What a machine hands out before its end or its failure. -/
inductive Runs (next : Machine State Failure Item) :
    State → List Item → Option Failure → Prop where
  | ended
      {state : State}
      (answer : next state = .ok none) :
      Runs next state [] none
  | failed
      {state : State}
      {failure : Failure}
      (answer : next state = .error failure) :
      Runs next state [] (some failure)
  | gave
      {state later : State}
      {item : Item}
      {items : List Item}
      {failure : Option Failure}
      (answer : next state = .ok (some (item, later)))
      (runs : Runs next later items failure) :
      Runs next state (item :: items) failure

theorem Runs.unique
    {next : Machine State Failure Item}
    {state : State}
    {items others : List Item}
    {failure other : Option Failure}
    (first : Runs next state items failure)
    (second : Runs next state others other) :
    items = others ∧ failure = other := by
  induction first generalizing others other with
  | ended answer =>
      cases second with
      | ended _ => exact ⟨rfl, rfl⟩
      | failed same => cases answer.symm.trans same
      | gave same _ => cases answer.symm.trans same
  | failed answer =>
      cases second with
      | ended same => cases answer.symm.trans same
      | failed same => cases answer.symm.trans same; exact ⟨rfl, rfl⟩
      | gave same _ => cases answer.symm.trans same
  | gave answer _ inductionHypothesis =>
      cases second with
      | ended same => cases answer.symm.trans same
      | failed same => cases answer.symm.trans same
      | gave same runs =>
          cases answer.symm.trans same
          obtain ⟨rfl, rfl⟩ := inductionHypothesis runs
          exact ⟨rfl, rfl⟩

theorem Runs.congr
    {next : Machine State Failure Item}
    {state other : State}
    {items : List Item}
    {failure : Option Failure}
    (runs : Runs next state items failure)
    (same : next other = next state) :
    Runs next other items failure := by
  cases runs with
  | ended answer => exact .ended (same.trans answer)
  | failed answer => exact .failed (same.trans answer)
  | gave answer later => exact .gave (same.trans answer) later

/-! ## Simulation -/

/-- The same answer, with related states behind an item. -/
inductive Alike (related : State → Other → Prop) :
    Except Failure (Option (Item × State)) → Except Failure (Option (Item × Other)) → Prop where
  | ended : Alike related (.ok none) (.ok none)
  | failed (failure : Failure) : Alike related (.error failure) (.error failure)
  | gave
      (item : Item)
      {state : State}
      {other : Other}
      (states : related state other) :
      Alike related (.ok (some (item, state))) (.ok (some (item, other)))

theorem Runs.simulate
    {next : Machine State Failure Item}
    {plan : Machine Other Failure Item}
    {related : State → Other → Prop}
    (step : ∀ state other, related state other → Alike related (next state) (plan other))
    {state : State}
    {other : Other}
    {items : List Item}
    {failure : Option Failure}
    (runs : Runs plan other items failure)
    (states : related state other) :
    Runs next state items failure := by
  induction runs generalizing state with
  | @ended other answer =>
      have alike := step state other states
      rw [answer] at alike
      generalize answered : next state = answer at alike
      cases alike
      exact .ended answered
  | @failed other failure answer =>
      have alike := step state other states
      rw [answer] at alike
      generalize answered : next state = answer at alike
      cases alike
      exact .failed answered
  | @gave other later item items failure answer _ inductionHypothesis =>
      have alike := step state other states
      rw [answer] at alike
      generalize answered : next state = answer at alike
      cases alike with
      | gave _ states => exact .gave answered (inductionHypothesis states)

/-! ## Planned items -/

/-- The items before the first failure. -/
def items : List (Except Failure Item) → List Item
  | .ok item :: rest => item :: items rest
  | .error _ :: _ => []
  | [] => []

def failure : List (Except Failure Item) → Option Failure
  | .ok _ :: rest => failure rest
  | .error failed :: _ => some failed
  | [] => none

/-- One planned item after another. -/
def pop : Machine (List (Except Failure Item)) Failure Item
  | [] => .ok none
  | .error failed :: _ => .error failed
  | .ok item :: rest => .ok (some (item, rest))

theorem runs_pop (plan : List (Except Failure Item)) :
    Runs pop plan (items plan) (failure plan) := by
  induction plan with
  | nil => exact .ended rfl
  | cons event rest inductionHypothesis =>
      cases event with
      | error failed => exact .failed rfl
      | ok item => exact .gave rfl inductionHypothesis

/-- Planned items are added to a chunk until it is full or nothing is left. -/
def fill (size : Nat) (chunk : List Item) : Machine (List (Except Failure Item)) Failure (List Item)
  | [] => .ok (if chunk = [] then none else some (chunk, []))
  | .error failed :: _ => .error failed
  | .ok item :: rest =>
      if size ≤ (chunk ++ [item]).length then .ok (some (chunk ++ [item], rest))
      else fill size (chunk ++ [item]) rest

/-- The items cut into full chunks; a rest stays unless it is lost to a failure. -/
inductive Cut (size : Nat) (failure : Option Failure) : List Item → List (List Item) → Prop where
  | full
      {chunk later : List Item}
      {chunks : List (List Item)}
      (length : chunk.length = size)
      (cut : Cut size failure later chunks) :
      Cut size failure (chunk ++ later) (chunk :: chunks)
  | rest
      {chunk : List Item}
      (short : chunk.length < size)
      (kept : failure = none) :
      Cut size failure chunk (if chunk = [] then [] else [chunk])
  | lost
      {chunk : List Item}
      (short : chunk.length < size)
      (failed : failure ≠ none) :
      Cut size failure chunk []

theorem Cut.flatten
    {size : Nat}
    {failure : Option Failure}
    {items : List Item}
    {chunks : List (List Item)}
    (positive : 0 < size)
    (cut : Cut size failure items chunks) :
    chunks.flatten =
      if failure = none then items else items.take (items.length / size * size) := by
  induction cut with
  | @full chunk later chunks length cut inductionHypothesis =>
      rw [List.flatten_cons, inductionHypothesis]
      by_cases kept : failure = none
      · rw [if_pos kept, if_pos kept]
      · rw [if_neg kept, if_neg kept, List.length_append, length, Nat.add_div_left _ positive,
          Nat.succ_mul, Nat.add_comm _ size, ← length, List.take_length_add_append]
  | @rest chunk short kept =>
      rw [if_pos kept]
      cases chunk <;> simp
  | @lost chunk short failed =>
      rw [if_neg failed, Nat.div_eq_of_lt short, Nat.zero_mul, List.take_zero]
      rfl

theorem Cut.sized
    {size : Nat}
    {failure : Option Failure}
    {items : List Item}
    {chunks : List (List Item)}
    (positive : 0 < size)
    (cut : Cut size failure items chunks)
    {chunk : List Item}
    (member : chunk ∈ chunks) :
    chunk ≠ [] ∧ chunk.length ≤ size := by
  induction cut with
  | @full first later chunks length cut inductionHypothesis =>
      rcases List.mem_cons.mp member with rfl | inside
      · refine ⟨fun none => ?_, Nat.le_of_eq length⟩
        rw [none] at length
        exact Nat.ne_of_lt positive length
      · exact inductionHypothesis inside
  | @rest first short kept =>
      by_cases none : first = []
      · rw [if_pos none] at member
        cases member
      · rw [if_neg none] at member
        cases List.mem_singleton.mp member
        exact ⟨none, Nat.le_of_lt short⟩
  | lost => cases member

theorem runs_fill_from
    {size : Nat}
    (positive : 0 < size)
    (plan : List (Except Failure Item))
    {chunk : List Item}
    (short : chunk.length < size) :
    ∃ chunks,
      (∀ start, fill size [] start = fill size chunk plan →
        Runs (fill size []) start chunks (failure plan)) ∧
      Cut size (failure plan) (chunk ++ items plan) chunks := by
  induction plan generalizing chunk with
  | nil =>
      refine ⟨if chunk = [] then [] else [chunk], fun start same => ?_, ?_⟩
      · by_cases none : chunk = []
        · rw [if_pos none]
          exact .ended (same.trans (by rw [fill, if_pos none]))
        · rw [if_neg none]
          exact .gave (same.trans (by rw [fill, if_neg none])) (.ended rfl)
      · rw [items, List.append_nil]
        exact .rest short rfl
  | cons event rest inductionHypothesis =>
      cases event with
      | error failed =>
          refine ⟨[], fun start same => .failed same, ?_⟩
          rw [items, List.append_nil]
          exact .lost short nofun
      | ok item =>
          by_cases full : size ≤ (chunk ++ [item]).length
          · obtain ⟨chunks, runs, cut⟩ := @inductionHypothesis [] positive
            refine ⟨(chunk ++ [item]) :: chunks, fun start same => ?_, ?_⟩
            · exact .gave (same.trans (by rw [fill, if_pos full])) (runs rest rfl)
            · rw [items, List.append_cons]
              refine .full ?_ cut
              rw [List.length_append, List.length_singleton] at full ⊢
              omega
          · obtain ⟨chunks, runs, cut⟩ := inductionHypothesis (Nat.not_le.mp full)
            refine ⟨chunks, fun start same => ?_, ?_⟩
            · exact runs start (same.trans (by rw [fill, if_neg full]))
            · rw [items, List.append_cons]
              exact cut

/-- What is handed out in chunks are the same items, cut. -/
theorem runs_fill
    {size : Nat}
    (positive : 0 < size)
    (plan : List (Except Failure Item)) :
    ∃ chunks,
      Runs (fill size []) plan chunks (failure plan) ∧
        Cut size (failure plan) (items plan) chunks := by
  obtain ⟨chunks, runs, cut⟩ := @runs_fill_from _ _ _ positive plan [] positive
  exact ⟨chunks, runs plan rfl, cut⟩

end PulledRuns
