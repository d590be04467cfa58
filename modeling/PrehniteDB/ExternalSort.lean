import PrehniteDB.BatchSorting
import PrehniteDB.JoinAgreement

namespace PrehniteDB.BatchSorting

open ByteReader (littleEndian utf8Bytes valueOf)
open Joins (Row pushRow)
open PulledRuns (Machine Runs Alike)
open ReadPaths (ColumnType batchSize)
open RowCodec (decodeValuesWithin encodeValues)

/-!
# External sorting is sorting

The merge hands out the rows in the order of the stable sort as long as every row
comes back from its run, and a row comes back if its encoding has a length that the
run can tell.
-/

/-! ## The heap -/

section Heap

variable {types : List ColumnType} {keys : List (Nat × Bool)}

/-- The entry is handed out no later than the other. -/
def MergeEntry.Leads (keys : List (Nat × Bool)) (entry other : MergeEntry) : Prop :=
  orderRows keys entry.row other.row = .lt ∨
    orderRows keys entry.row other.row = .eq ∧ entry.runId ≤ other.runId

theorem MergeEntry.leads_iff {entry other : MergeEntry} :
    entry.Leads keys other ↔ entry.cmp keys other ≠ .lt := by
  unfold Leads cmp
  cases orderRows keys entry.row other.row with
  | lt => exact iff_of_true (Or.inl rfl) nofun
  | gt =>
      refine iff_of_false ?_ fun ahead => ahead rfl
      rintro (below | ⟨tied, _⟩)
      · cases below
      · cases tied
  | eq =>
      have ids : compare other.runId entry.runId ≠ .lt ↔ entry.runId ≤ other.runId := by
        rw [Ne, Nat.compare_eq_lt, Nat.not_lt]
      exact ⟨fun either => either.elim nofun fun both => ids.mpr both.2, fun ahead =>
        Or.inr ⟨rfl, ids.mp ahead⟩⟩

theorem MergeEntry.cmp_swap (entry other : MergeEntry) :
    other.cmp keys entry = (entry.cmp keys other).swap := by
  unfold cmp
  rw [orderRows_swap keys entry.row, Ordering.swap_then]
  exact congrArg _ Std.OrientedCmp.eq_swap

theorem orderRows_eq_symm
    {left right : Row}
    (tied : orderRows keys left right = .eq) :
    orderRows keys right left = .eq := by
  rw [orderRows_swap keys left, tied]
  rfl

theorem MergeEntry.Leads.trans
    {first second third : MergeEntry}
    (firstTyped : TypedRow types first.row)
    (secondTyped : TypedRow types second.row)
    (thirdTyped : TypedRow types third.row)
    (before : first.Leads keys second)
    (after : second.Leads keys third) :
    first.Leads keys third := by
  have near : orderRows keys first.row second.row ≠ .gt := by
    rcases before with below | ⟨tied, _⟩
    · rw [below]; nofun
    · rw [tied]; nofun
  have far : orderRows keys second.row third.row ≠ .gt := by
    rcases after with below | ⟨tied, _⟩
    · rw [below]; nofun
    · rw [tied]; nofun
  have through := orderRows_trans firstTyped secondTyped thirdTyped keys near far
  cases compared : orderRows keys first.row third.row with
  | gt => exact absurd compared through
  | lt => exact Or.inl compared
  | eq =>
      -- With the outer two tied, each of the steps is a tie.
      have back : orderRows keys third.row first.row ≠ .gt := by
        rw [orderRows_eq_symm compared]
        nofun
      refine Or.inr ⟨compared, ?_⟩
      rcases before with below | ⟨_, firstId⟩
      · refine absurd ?_ (orderRows_trans secondTyped thirdTyped firstTyped keys far back)
        rw [orderRows_swap keys first.row, below]
        rfl
      · rcases after with below | ⟨_, secondId⟩
        · refine absurd ?_ (orderRows_trans thirdTyped firstTyped secondTyped keys back near)
          rw [orderRows_swap keys second.row, below]
          rfl
        · exact firstId.trans secondId

theorem pop_none {heap : List MergeEntry} (none : pop keys heap = none) : heap = [] := by
  cases heap with
  | nil => rfl
  | cons entry rest =>
      rw [pop] at none
      cases found : pop keys rest with
      | none => rw [found] at none; cases none
      | some pair =>
          rw [found] at none
          by_cases greater : pair.1.cmp keys entry = .gt
          · simp only [if_pos greater] at none
            cases none
          · simp only [if_neg greater] at none
            cases none

/-- What an entry of a heap and the rest of it give. -/
theorem pop_cons
    {first entry : MergeEntry}
    {rest others : List MergeEntry}
    (popped : pop keys (first :: rest) = some (entry, others)) :
    (rest = [] ∧ entry = first ∧ others = []) ∨
      ∃ best later,
        pop keys rest = some (best, later) ∧
          (best.cmp keys first = .gt ∧ entry = best ∧ others = first :: later ∨
            best.cmp keys first ≠ .gt ∧ entry = first ∧ others = rest) := by
  rw [pop] at popped
  cases found : pop keys rest with
  | none =>
      rw [found] at popped
      cases popped
      exact Or.inl ⟨pop_none found, rfl, rfl⟩
  | some pair =>
      obtain ⟨best, later⟩ := pair
      rw [found] at popped
      refine Or.inr ⟨best, later, rfl, ?_⟩
      by_cases greater : best.cmp keys first = .gt
      · simp only [if_pos greater] at popped
        obtain ⟨rfl, rfl⟩ := Prod.mk.inj (Option.some.inj popped)
        exact Or.inl ⟨greater, rfl, rfl⟩
      · simp only [if_neg greater] at popped
        obtain ⟨rfl, rfl⟩ := Prod.mk.inj (Option.some.inj popped)
        exact Or.inr ⟨greater, rfl, rfl⟩

theorem pop_perm
    {heap others : List MergeEntry}
    {entry : MergeEntry}
    (popped : pop keys heap = some (entry, others)) :
    heap.Perm (entry :: others) := by
  induction heap generalizing entry others with
  | nil => cases popped
  | cons first rest inductionHypothesis =>
      rcases pop_cons popped with
        ⟨rfl, rfl, rfl⟩ | ⟨best, later, found, ⟨_, rfl, rfl⟩ | ⟨_, rfl, rfl⟩⟩
      · exact List.Perm.refl _
      · exact ((inductionHypothesis found).cons first).trans (.swap ..)
      · exact List.Perm.refl _

theorem pop_leads
    {heap others : List MergeEntry}
    {entry : MergeEntry}
    (typed : ∀ entry ∈ heap, TypedRow types entry.row)
    (popped : pop keys heap = some (entry, others)) :
    ∀ other ∈ others, entry.Leads keys other := by
  induction heap generalizing entry others with
  | nil => cases popped
  | cons first rest inductionHypothesis =>
      have tails : ∀ entry ∈ rest, TypedRow types entry.row := fun entry member =>
        typed entry (List.mem_cons_of_mem _ member)
      rcases pop_cons popped with
        ⟨rfl, rfl, rfl⟩ | ⟨best, later, found, ⟨greater, rfl, rfl⟩ | ⟨smaller, rfl, rfl⟩⟩
      · nofun
      · intro other member
        rcases List.mem_cons.mp member with rfl | inside
        · exact MergeEntry.leads_iff.mpr (by rw [greater]; nofun)
        · exact inductionHypothesis tails found other inside
      · have perm := pop_perm found
        have ahead : entry.Leads keys best := by
          refine MergeEntry.leads_iff.mpr fun below => smaller ?_
          rw [MergeEntry.cmp_swap entry best, below]
          rfl
        intro other member
        rcases List.mem_cons.mp (perm.mem_iff.mp member) with same | inside
        · rw [same]
          exact ahead
        · exact ahead.trans (typed entry List.mem_cons_self)
            (tails best (perm.mem_iff.mpr List.mem_cons_self)) (tails other member)
            (inductionHypothesis tails found other inside)

end Heap

/-! ## Runs -/

/-- The row comes back from a run. -/
def Spillable (row : Row) : Prop :=
  (encodeValues row).length < 2 ^ 32

instance (row : Row) : Decidable (Spillable row) :=
  inferInstanceAs (Decidable (_ < _))

theorem length_encodeText (string : String) :
    (RowCodec.spillFormat.encodeValue (.text string)).length = 5 + (utf8Bytes string).length := by
  have number : (littleEndian 4 (utf8Bytes string).length).length = 4 :=
    ByteReader.length_littleEndian _ _
  change (_ :: (littleEndian 4 _ ++ _)).length = _
  rw [List.length_cons, List.length_append, number]
  omega

theorem decodeValues_encode
    {row : Row}
    (spillable : Spillable row) :
    decodeValuesWithin (encodeValues row) row.length = .ok row :=
  RowCodec.decodeValuesWithin_encode (RowCodec.short_of_encoded spillable)

/-- What is left of a run are these rows. -/
structure SpilledRun.Holds (types : List ColumnType) (run : SpilledRun) (rows : List Row) :
    Prop where
  written : run.bytes = rows.flatMap encodeEntry
  columns : run.columnCount = types.length
  typed : ∀ row ∈ rows, TypedRow types row
  spillable : ∀ row ∈ rows, Spillable row

theorem SpilledRun.Holds.nextRow_nil
    {types : List ColumnType}
    {run : SpilledRun}
    (holds : run.Holds types []) :
    run.nextRow = .ok none := by
  rw [nextRow, holds.written]
  rfl

theorem SpilledRun.Holds.nextRow_cons
    {types : List ColumnType}
    {run : SpilledRun}
    {row : Row}
    {rest : List Row}
    (holds : run.Holds types (row :: rest)) :
    ∃ later, run.nextRow = .ok (some (row, later)) ∧ SpilledRun.Holds types later rest := by
  have spillable := holds.spillable row List.mem_cons_self
  have count : run.columnCount = row.length :=
    holds.columns.trans (holds.typed row List.mem_cons_self).length_eq
  have bytes :
      run.bytes =
        littleEndian 4 (encodeValues row).length ++
          (encodeValues row ++ rest.flatMap encodeEntry) := by
    rw [holds.written, List.flatMap_cons, encodeEntry, List.append_assoc]
  have head : run.bytes.take 4 = littleEndian 4 (encodeValues row).length := by
    rw [bytes, List.take_left' (ByteReader.length_littleEndian _ _)]
  have tail : run.bytes.drop 4 = encodeValues row ++ rest.flatMap encodeEntry := by
    rw [bytes, List.drop_left' (ByteReader.length_littleEndian _ _)]
  have length : valueOf (run.bytes.take 4) = (encodeValues row).length := by
    rw [head, ByteReader.valueOf_littleEndian]
    exact Nat.mod_eq_of_lt spillable
  have long : ¬ run.bytes.length < 4 := by
    rw [bytes, List.length_append, ByteReader.length_littleEndian]
    omega
  have enough :
      ¬ (encodeValues row ++ rest.flatMap encodeEntry).length < (encodeValues row).length := by
    rw [List.length_append]
    omega
  refine ⟨{ run with bytes := rest.flatMap encodeEntry }, ?_, ?_⟩
  · rw [nextRow, if_neg long]
    simp only [length, tail, if_neg enough, List.take_left, List.drop_left, count]
    rw [decodeValues_encode spillable]
    rfl
  · exact {
      written := rfl
      columns := holds.columns
      typed := fun other member => holds.typed other (List.mem_cons_of_mem _ member)
      spillable := fun other member => holds.spillable other (List.mem_cons_of_mem _ member) }

/-! ## Merging -/

/-- The first row of each list, with the number of the list. -/
def heads : Nat → List (List Row) → List MergeEntry
  | _, [] => []
  | runId, [] :: rest => heads (runId + 1) rest
  | runId, (row :: _) :: rest => { row, runId } :: heads (runId + 1) rest

theorem heads_append (runId : Nat) (before after : List (List Row)) :
    heads runId (before ++ after) =
      heads runId before ++ heads (runId + before.length) after := by
  induction before generalizing runId with
  | nil => rfl
  | cons list rest inductionHypothesis =>
      have deeper := inductionHypothesis (runId + 1)
      have place : runId + 1 + rest.length = runId + (list :: rest).length := by
        rw [List.length_cons]
        omega
      rw [place] at deeper
      cases list with
      | nil => exact deeper
      | cons row later => exact congrArg _ deeper

theorem head_mem (before after : List (List Row)) (row : Row) (tail : List Row) :
    { row, runId := before.length } ∈ heads 0 (before ++ (row :: tail) :: after) := by
  rw [heads_append, Nat.zero_add]
  exact List.mem_append_right _ List.mem_cons_self

theorem mem_heads
    {runId : Nat}
    {lists : List (List Row)}
    {entry : MergeEntry}
    (member : entry ∈ heads runId lists) :
    ∃ before tail after,
      lists = before ++ (entry.row :: tail) :: after ∧ entry.runId = runId + before.length := by
  induction lists generalizing runId with
  | nil => cases member
  | cons list rest inductionHypothesis =>
      have deeper (inside : entry ∈ heads (runId + 1) rest) :
          ∃ before tail after,
            list :: rest = before ++ (entry.row :: tail) :: after ∧
              entry.runId = runId + before.length := by
        obtain ⟨before, tail, after, rfl, place⟩ := inductionHypothesis inside
        refine ⟨list :: before, tail, after, rfl, ?_⟩
        rw [place, List.length_cons]
        omega
      cases list with
      | nil => exact deeper member
      | cons row tail =>
          rcases List.mem_cons.mp member with same | inside
          · exact ⟨[], tail, rest, by rw [same]; rfl, by rw [same]; rfl⟩
          · exact deeper inside

section Merge

variable {types : List ColumnType} {keys : List (Nat × Bool)}

/-- The sorted lists that are left, their first rows on the heap and the others in the runs. -/
structure Merging
    (types : List ColumnType)
    (keys : List (Nat × Bool))
    (runs : List SpilledRun)
    (heap : List MergeEntry)
    (lists : List (List Row)) : Prop where
  held : List.Forall₂ (fun run list => SpilledRun.Holds types run list.tail) runs lists
  sorted : ∀ list ∈ lists, list.Pairwise fun left right => orderRows keys left right ≠ .gt
  typed : ∀ row ∈ lists.flatten, TypedRow types row
  entries : heap.Perm (heads 0 lists)

theorem head_least
    {head other : Row}
    {tail : List Row}
    (sorted : (head :: tail).Pairwise fun left right => orderRows keys left right ≠ .gt)
    (member : other ∈ head :: tail) :
    orderRows keys head other ≠ .gt := by
  rcases List.mem_cons.mp member with rfl | inside
  · have self := orderRows_swap keys other other
    cases compared : orderRows keys other other with
    | gt => rw [compared] at self; cases self
    | lt => nofun
    | eq => nofun
  · exact (List.pairwise_cons.mp sorted).1 other inside

namespace Merging

variable
  {runs : List SpilledRun}
  {heap others : List MergeEntry}
  {entry : MergeEntry}
  {before after : List (List Row)}
  {tail : List Row}

theorem popped_first
    (merging : Merging types keys runs heap (before ++ (entry.row :: tail) :: after))
    (place : entry.runId = before.length)
    (perm : heap.Perm (entry :: others))
    (leads : ∀ other ∈ others, entry.Leads keys other) :
    sortRows keys (before ++ (entry.row :: tail) :: after).flatten =
      entry.row :: sortRows keys (before ++ tail :: after).flatten := by
  have typed := merging.typed
  have entryTyped : TypedRow types entry.row := typed _ (by simp)
  have led {front back : List (List Row)} {row : Row} {rest : List Row}
      (split : before ++ (entry.row :: tail) :: after = front ++ (row :: rest) :: back)
      (other : front.length ≠ before.length) :
      entry.Leads keys { row, runId := front.length } := by
    have listed := head_mem front back row rest
    rw [← split] at listed
    rcases List.mem_cons.mp (perm.mem_iff.mp (merging.entries.mem_iff.mpr listed)) with
      same | inside
    · exact absurd (congrArg MergeEntry.runId same |>.trans place) other
    · exact leads _ inside
  have flat (list : List Row) :
      (before ++ list :: after).flatten = before.flatten ++ (list ++ after.flatten) := by
    rw [List.flatten_append, List.flatten_cons]
  rw [flat, flat, List.cons_append]
  refine StableSorting.mergeSort_least (orderRows_preorders types keys) ?_ ?_ ?_
  · intro row member
    refine typed row ?_
    rw [flat]
    exact member
  · intro other member
    obtain ⟨list, listed, inside⟩ := List.mem_flatten.mp member
    obtain ⟨front, back, rfl⟩ := List.append_of_mem listed
    cases list with
    | nil => cases inside
    | cons head rest =>
        have headSorted := merging.sorted (head :: rest) (by simp)
        have headTyped : TypedRow types head := typed head (by simp)
        have otherTyped : TypedRow types other := typed other (by
          rw [flat]
          exact List.mem_append_left _ member)
        have ahead : entry.Leads keys { row := head, runId := front.length } :=
          led (by simp only [List.append_assoc, List.cons_append]; rfl) (by simp)
        refine decide_eq_false (not_not.mpr ?_)
        rcases ahead with below | ⟨_, later⟩
        · cases compared : orderRows keys other entry.row with
          | gt => rfl
          | lt | eq =>
              refine absurd ?_ (orderRows_trans headTyped otherTyped entryTyped keys
                (head_least headSorted inside) (by rw [compared]; nofun))
              rw [orderRows_swap keys entry.row, below]
              rfl
        · rw [place] at later
          simp at later
  · intro other member
    refine decide_eq_true ?_
    rcases List.mem_append.mp member with inTail | inAfter
    · exact head_least (merging.sorted (entry.row :: tail) (by simp))
        (List.mem_cons_of_mem _ inTail)
    · obtain ⟨list, listed, inside⟩ := List.mem_flatten.mp inAfter
      obtain ⟨front, back, rfl⟩ := List.append_of_mem listed
      cases list with
      | nil => cases inside
      | cons head rest =>
          have headSorted := merging.sorted (head :: rest) (by simp)
          have headTyped : TypedRow types head := typed head (by simp)
          have otherTyped : TypedRow types other := typed other (by
            rw [flat]
            exact List.mem_append_right _ (List.mem_append_right _ inAfter))
          have ahead : entry.Leads keys
              { row := head, runId := (before ++ (entry.row :: tail) :: front).length } :=
            led (by simp only [List.append_assoc, List.cons_append]; rfl) (by simp)
          refine orderRows_trans entryTyped headTyped otherTyped keys ?_
            (head_least headSorted inside)
          rcases ahead with below | ⟨tied, _⟩
          · rw [show orderRows keys entry.row head = .lt from below]
            nofun
          · rw [show orderRows keys entry.row head = .eq from tied]
            nofun

theorem without
    (merging : Merging types keys runs heap (before ++ (entry.row :: tail) :: after)) :
    (∀ list ∈ before ++ tail :: after,
        list.Pairwise fun left right => orderRows keys left right ≠ .gt) ∧
      ∀ row ∈ (before ++ tail :: after).flatten, TypedRow types row := by
  constructor
  · intro list member
    rcases List.mem_append.mp member with inBefore | inRest
    · exact merging.sorted list (List.mem_append_left _ inBefore)
    · rcases List.mem_cons.mp inRest with rfl | inAfter
      · exact (List.pairwise_cons.mp (merging.sorted (entry.row :: list) (by simp))).2
      · exact merging.sorted list (by simp [inAfter])
  · intro row member
    refine merging.typed row ?_
    rw [List.flatten_append, List.flatten_cons] at member ⊢
    rcases List.mem_append.mp member with inBefore | inRest
    · exact List.mem_append_left _ inBefore
    · exact List.mem_append_right _ (List.mem_cons_of_mem _ inRest)

theorem next
    {lists : List (List Row)}
    (merging : Merging types keys runs heap lists)
    (popped : pop keys heap = some (entry, others)) :
    ∃ laterRuns laterHeap later,
      nextSortedRow keys (.drainingMerge runs heap) =
          .ok (some (entry.row, .drainingMerge laterRuns laterHeap)) ∧
        sortRows keys lists.flatten = entry.row :: sortRows keys later.flatten ∧
          Merging types keys laterRuns laterHeap later := by
  have typed : ∀ entry ∈ heap, TypedRow types entry.row := by
    intro other member
    obtain ⟨before, tail, after, rfl, _⟩ := mem_heads (merging.entries.mem_iff.mp member)
    exact merging.typed other.row (by simp)
  have perm := pop_perm popped
  have leads := pop_leads typed popped
  obtain ⟨before, tail, after, rfl, place⟩ :=
    mem_heads (merging.entries.mem_iff.mp (perm.mem_iff.mpr List.mem_cons_self))
  rw [Nat.zero_add] at place
  obtain ⟨sorted, own⟩ := merging.without
  have first := merging.popped_first place perm leads
  obtain ⟨front, back, heldFront, heldBack, rfl⟩ :
      ∃ front back,
        List.Forall₂ (fun run list => SpilledRun.Holds types run list.tail) front before ∧
          List.Forall₂ (fun run list => SpilledRun.Holds types run list.tail) back
            ((entry.row :: tail) :: after) ∧
            runs = front ++ back :=
    ⟨runs.take before.length, runs.drop before.length,
      List.forall₂_take_append _ _ _ merging.held, List.forall₂_drop_append _ _ _ merging.held,
      (List.take_append_drop _ _).symm⟩
  cases heldBack with
  | @cons run _ back _ runHeld heldAfter =>
      have length : entry.runId = front.length := place.trans heldFront.length_eq.symm
      have found : (front ++ run :: back)[entry.runId]? = some run := by
        rw [length, List.getElem?_append_right (Nat.le_refl _), Nat.sub_self]
        rfl
      have rest : others.Perm (heads 0 before ++ heads (entry.runId + 1) after) := by
        have whole := perm.symm.trans merging.entries
        rw [heads_append, Nat.zero_add, heads, ← place] at whole
        exact (whole.trans List.perm_middle).cons_inv
      rw [nextSortedRow, popped]
      simp only [found]
      cases tail with
      | nil =>
          rw [runHeld.nextRow_nil]
          refine ⟨_, _, before ++ [] :: after, rfl, first, ?_, sorted, own, ?_⟩
          · exact List.rel_append heldFront (.cons runHeld heldAfter)
          · rw [heads_append, Nat.zero_add, ← place]
            exact rest
      | cons row tail =>
          obtain ⟨later, read, laterHeld⟩ := runHeld.nextRow_cons
          rw [read]
          refine ⟨_, _, before ++ (row :: tail) :: after, rfl, first, ?_, sorted, own, ?_⟩
          · rw [length, List.set_append_right _ _ (Nat.le_refl _), Nat.sub_self]
            exact List.rel_append heldFront (.cons laterHeld heldAfter)
          · rw [heads_append, Nat.zero_add, heads, ← place]
            exact (rest.cons _).trans List.perm_middle.symm

end Merging

theorem primeHeap_holds
    {runs : List SpilledRun}
    {lists : List (List Row)}
    (runId : Nat)
    (held : List.Forall₂ (SpilledRun.Holds types) runs lists) :
    ∃ later,
      primeHeap runId runs = .ok (later, heads runId lists) ∧
        List.Forall₂ (fun run list => SpilledRun.Holds types run list.tail) later lists := by
  induction held generalizing runId with
  | nil => exact ⟨[], rfl, .nil⟩
  | @cons run list rest lists runHeld _ inductionHypothesis =>
      obtain ⟨later, primed, laterHeld⟩ := inductionHypothesis (runId + 1)
      rw [primeHeap]
      cases list with
      | nil =>
          rw [runHeld.nextRow_nil]
          simp only [bind, Except.bind, primed]
          exact ⟨_, rfl, .cons runHeld laterHeld⟩
      | cons row tail =>
          obtain ⟨next, read, nextHeld⟩ := runHeld.nextRow_cons
          rw [read]
          simp only [bind, Except.bind, primed]
          exact ⟨_, rfl, .cons nextHeld laterHeld⟩

theorem holds_spillSortedRun
    {buffer : List Row}
    (typed : ∀ row ∈ buffer, TypedRow types row)
    (spillable : ∀ row ∈ buffer, Spillable row) :
    (spillSortedRun keys types.length buffer).Holds types (sortRows keys buffer) where
  written := rfl
  columns := rfl
  typed := fun row member => typed row ((List.mergeSort_perm _ _).mem_iff.mp member)
  spillable := fun row member => spillable row ((List.mergeSort_perm _ _).mem_iff.mp member)

/-! ## Draining -/

/-- The state has these rows to hand out. -/
def SortState.Ready
    (types : List ColumnType)
    (keys : List (Nat × Bool))
    (rows : List Row) : SortState → Prop
  | .building _ _ => False
  | .drainingMemory held => held = rows ∧ ∀ row ∈ rows, TypedRow types row
  | .drainingMerge runs heap =>
      ∃ lists, Merging types keys runs heap lists ∧ rows = sortRows keys lists.flatten

theorem ready_nil
    {state : SortState}
    (ready : state.Ready types keys []) :
    nextSortedRow keys state = .ok none := by
  cases state with
  | building buffer runs => exact ready.elim
  | drainingMemory held =>
      obtain ⟨rfl, _⟩ := ready
      rfl
  | drainingMerge runs heap =>
      obtain ⟨lists, merging, none⟩ := ready
      cases popped : pop keys heap with
      | none =>
          rw [nextSortedRow, popped]
      | some pair =>
          obtain ⟨_, _, _, _, first, _⟩ := merging.next popped
          rw [first] at none
          cases none

theorem ready_cons
    {state : SortState}
    {row : Row}
    {rest : List Row}
    (ready : state.Ready types keys (row :: rest)) :
    TypedRow types row ∧
      ∃ later,
        nextSortedRow keys state = .ok (some (row, later)) ∧ later.Ready types keys rest := by
  cases state with
  | building buffer runs => exact ready.elim
  | drainingMemory held =>
      obtain ⟨rfl, typed⟩ := ready
      exact ⟨typed row List.mem_cons_self, _, rfl, rfl, fun other member =>
        typed other (List.mem_cons_of_mem _ member)⟩
  | drainingMerge runs heap =>
      obtain ⟨lists, merging, plan⟩ := ready
      have own : row ∈ lists.flatten :=
        (List.mergeSort_perm _ _).mem_iff.mp (plan ▸ List.mem_cons_self : row ∈ sortRows keys _)
      refine ⟨merging.typed row own, ?_⟩
      cases popped : pop keys heap with
      | none =>
          have empty := merging.entries
          rw [pop_none popped] at empty
          obtain ⟨list, listed, inside⟩ := List.mem_flatten.mp own
          obtain ⟨before, after, rfl⟩ := List.append_of_mem listed
          cases list with
          | nil => cases inside
          | cons head tail =>
              have entry := head_mem before after head tail
              rw [List.nil_perm.mp empty] at entry
              cases entry
      | some pair =>
          obtain ⟨laterRuns, laterHeap, later, next, first, laterMerging⟩ := merging.next popped
          obtain ⟨rfl, rfl⟩ := List.cons.inj (plan.trans first)
          exact ⟨_, next, later, laterMerging, rfl⟩

theorem pushRow_typed
    {row : Row}
    (typed : TypedRow types row) :
    pushRow types row = .ok row := by
  rw [pushRow, if_neg (not_not.mpr typed.length_eq.symm)]
  induction typed with
  | nil => rfl
  | cons fits _ inductionHypothesis =>
      rw [Joins.pushValues, Joins.pushValue_fits fits, inductionHypothesis]
      rfl

theorem collectRows_ready
    {state : SortState}
    {rows : List Row}
    (ready : state.Ready types keys rows)
    (room : Nat)
    (batch : List Row) :
    ∃ later,
      collectRows keys types room state batch = .ok (batch ++ rows.take room, later) ∧
        later.Ready types keys (rows.drop room) := by
  induction room generalizing state rows batch with
  | zero => exact ⟨state, by rw [collectRows, List.take_zero, List.append_nil], ready⟩
  | succ room inductionHypothesis =>
      rw [collectRows]
      cases rows with
      | nil =>
          rw [ready_nil ready]
          exact ⟨state, by rw [List.take_nil, List.append_nil]; rfl, ready⟩
      | cons row rest =>
          obtain ⟨typed, next, answer, nextReady⟩ := ready_cons ready
          obtain ⟨later, collected, laterReady⟩ := inductionHypothesis nextReady (batch ++ [row])
          rw [answer]
          simp only [bind, Except.bind, pushRow_typed typed, collected]
          exact ⟨later, by rw [List.take_succ_cons, List.append_assoc]; rfl, laterReady⟩

theorem nextBatch_drained (threshold : Nat) (state : SortState) :
    nextBatch threshold keys types { input := none, state } =
      (collectRows keys types batchSize state []).map fun (batch, later) =>
        if batch = [] then none else some (batch, { input := none, state := later }) := by
  rw [nextBatch]
  simp only [bind, Except.bind, pure, Except.pure]
  cases collectRows keys types batchSize state [] <;> rfl

theorem runs_ready
    (threshold : Nat)
    (rows : List Row)
    {state : SortState}
    (ready : state.Ready types keys rows) :
    ∃ batches,
      Runs (nextBatch threshold keys types) { input := none, state } batches none ∧
        batches.flatten = rows := by
  induction measure : rows.length using Nat.strongRecOn generalizing rows state with
  | ind size inductionHypothesis =>
      obtain ⟨later, collected, laterReady⟩ := collectRows_ready ready batchSize []
      have answer :
          nextBatch threshold keys types { input := none, state } =
            .ok (if rows.take batchSize = [] then none
              else some (rows.take batchSize, { input := none, state := later })) := by
        rw [nextBatch_drained, collected]
        rfl
      cases rows with
      | nil => exact ⟨[], .ended answer, rfl⟩
      | cons row rest =>
          have shorter : ((row :: rest).drop batchSize).length < size := by
            rw [← measure, List.length_drop, batchSize, List.length_cons]
            omega
          obtain ⟨batches, runs, flat⟩ := inductionHypothesis _ shorter _ laterReady rfl
          refine ⟨(row :: rest).take batchSize :: batches, .gave (answer.trans ?_) runs, ?_⟩
          · exact congrArg _ (if_neg (by rw [batchSize]; simp))
          · rw [List.flatten_cons, flat, List.take_append_drop]

/-! ## Building -/

/-- The rows so far: spilled in parts, or in the buffer. -/
structure Built
    (threshold : Nat)
    (keys : List (Nat × Bool))
    (types : List ColumnType)
    (rows : List Row)
    (building : List Row × List SpilledRun)
    (parts : List (List Row)) : Prop where
  spilled : building.2 = parts.map (spillSortedRun keys types.length)
  whole : rows = parts.flatten ++ building.1
  few : parts = [] → rows.length < threshold ∨ rows = []
  many : parts ≠ [] → threshold ≤ rows.length

theorem bufferRow_built
    {threshold : Nat}
    {rows : List Row}
    {building : List Row × List SpilledRun}
    {parts : List (List Row)}
    (built : Built threshold keys types rows building parts)
    (row : Row) :
    ∃ later,
      Built threshold keys types (rows ++ [row]) (bufferRow threshold keys types building row)
        later := by
  obtain ⟨spilled, whole, few, many⟩ := built
  unfold bufferRow
  by_cases full : threshold ≤ (building.1 ++ [row]).length
  · refine ⟨parts ++ [building.1 ++ [row]], ?_, ?_, fun none => by simp at none, fun _ => ?_⟩
    · simp only [if_pos full, spilled, List.map_append, List.map_cons, List.map_nil]
    · simp only [if_pos full, whole, List.flatten_append, List.flatten_singleton, List.append_assoc,
        List.append_nil]
    · rw [whole, List.append_assoc, List.length_append]
      omega
  · refine ⟨parts, ?_, ?_, fun none => Or.inl ?_, fun some => ?_⟩
    · simp only [if_neg full, spilled]
    · simp only [if_neg full, whole, List.append_assoc]
    · subst none
      rw [whole]
      exact Nat.not_le.mp full
    · have enough := many some
      rw [List.length_append]
      omega

theorem foldl_built
    (threshold : Nat)
    (rows : List Row) :
    ∃ parts,
      Built threshold keys types rows (rows.foldl (bufferRow threshold keys types) ([], []))
        parts := by
  induction rows using List.reverseRecOn with
  | nil => exact ⟨[], rfl, rfl, fun _ => Or.inr rfl, fun some => absurd rfl some⟩
  | append_singleton rows row inductionHypothesis =>
      obtain ⟨parts, built⟩ := inductionHypothesis
      rw [List.foldl_append]
      exact bufferRow_built built row

theorem drainInput_ready
    {threshold : Nat}
    {input : List (List Row)}
    (typed : ∀ row ∈ input.flatten, TypedRow types row)
    (returns : input.flatten.length < threshold ∨ ∀ row ∈ input.flatten, Spillable row) :
    ∃ state,
      drainInput threshold keys types input (.building [] []) = .ok state ∧
        state.Ready types keys (sortRows keys input.flatten) := by
  obtain ⟨parts, spilled, whole, few, many⟩ :=
    @foldl_built types keys threshold input.flatten
  rw [drainInput]
  generalize input.flatten.foldl (bufferRow threshold keys types) ([], []) = building at *
  obtain ⟨buffer, runs⟩ := building
  simp only at spilled whole ⊢
  by_cases none : parts = []
  · subst none
    rw [List.flatten_nil, List.nil_append] at whole
    subst spilled
    refine ⟨.drainingMemory (sortRows keys buffer), rfl, ?_, fun row member => ?_⟩
    · rw [whole]
    · exact typed row ((List.mergeSort_perm _ _).mem_iff.mp member)
  · have spillable : ∀ row ∈ input.flatten, Spillable row :=
      returns.resolve_left (Nat.not_lt.mpr (many none))
    let whole_parts := if buffer.isEmpty then parts else parts ++ [buffer]
    have flat : whole_parts.flatten = input.flatten := by
      rw [whole]
      cases buffer with
      | nil => exact (List.append_nil _).symm
      | cons row rest => simp [whole_parts]
    have runs_eq :
        (if buffer.isEmpty then runs
          else runs ++ [spillSortedRun keys types.length buffer]) =
          whole_parts.map (spillSortedRun keys types.length) := by
      rw [spilled]
      cases buffer with
      | nil => rfl
      | cons row rest => simp [whole_parts]
    have some_run : runs.isEmpty = false := by
      rw [spilled, List.isEmpty_eq_false_iff]
      exact fun empty => none (List.map_eq_nil_iff.mp empty)
    have inside : ∀ part ∈ whole_parts, ∀ row ∈ part, row ∈ input.flatten :=
      fun part listed row member => flat ▸ List.mem_flatten.mpr ⟨part, listed, member⟩
    have held :
        List.Forall₂ (SpilledRun.Holds types) (whole_parts.map (spillSortedRun keys types.length))
          (whole_parts.map (sortRows keys)) := by
      rw [List.forall₂_map_left_iff, List.forall₂_map_right_iff, List.forall₂_same]
      exact fun part listed => holds_spillSortedRun
        (fun row member => typed row (inside part listed row member))
        (fun row member => spillable row (inside part listed row member))
    obtain ⟨later, primed, laterHeld⟩ := primeHeap_holds 0 held
    refine ⟨.drainingMerge later (heads 0 (whole_parts.map (sortRows keys))), ?_, ?_⟩
    · rw [some_run, if_neg Bool.false_ne_true, runs_eq, primed]
      rfl
    · refine ⟨whole_parts.map (sortRows keys), ⟨laterHeld, ?_, ?_, List.Perm.refl _⟩, ?_⟩
      · intro list listed
        obtain ⟨part, partListed, rfl⟩ := List.mem_map.mp listed
        have sorted :=
          StableSorting.sorted_mergeSort (orderRows_preorders types keys) fun row member =>
            typed row (inside part partListed row member)
        exact sorted.imp of_decide_eq_true
      · intro row member
        obtain ⟨list, listed, there⟩ := List.mem_flatten.mp member
        obtain ⟨part, partListed, rfl⟩ := List.mem_map.mp listed
        exact typed row
          (inside part partListed row ((List.mergeSort_perm _ _).mem_iff.mp there))
      · rw [← flat]
        exact (StableSorting.mergeSort_parts (orderRows_preorders types keys)
          (fun row member => typed row (flat ▸ member))).symm

/-! ## What comes out of a merge -/

/-- All rows on the heap have come back from their runs. -/
def SortState.Returned : SortState → Prop
  | .drainingMerge _ heap => ∀ entry ∈ heap, Spillable entry.row
  | _ => False

theorem nextRow_spillable
    {run later : SpilledRun}
    {row : Row}
    (read : run.nextRow = .ok (some (row, later))) :
    Spillable row := by
  rw [SpilledRun.nextRow] at read
  by_cases ended : run.bytes.length < 4
  · rw [if_pos ended] at read
    cases read
  · rw [if_neg ended] at read
    simp only at read
    by_cases short : (run.bytes.drop 4).length < valueOf (run.bytes.take 4)
    · rw [if_pos short] at read
      cases read
    · rw [if_neg short] at read
      cases decoded :
          decodeValuesWithin ((run.bytes.drop 4).take (valueOf (run.bytes.take 4))) run.columnCount with
      | error error => rw [decoded] at read; cases read
      | ok values =>
          rw [decoded] at read
          cases read
          have spelled :=
            (RowCodec.decodeWhole_takes
              (ValueFormat.decodeValues_takes run.columnCount) decoded).2.1
          have length : (encodeValues row).length ≤ valueOf (run.bytes.take 4) := by
            rw [encodeValues, ← spelled.length]
            exact List.length_take_le _ _
          have header : (run.bytes.take 4).length = 4 := by
            rw [List.length_take]
            omega
          have bound := ByteReader.valueOf_lt (run.bytes.take 4)
          rw [header] at bound
          exact lt_of_le_of_lt length bound

theorem primeHeap_returned
    {runs later : List SpilledRun}
    {heap : List MergeEntry}
    {runId : Nat}
    (primed : primeHeap runId runs = .ok (later, heap)) :
    ∀ entry ∈ heap, Spillable entry.row := by
  induction runs generalizing runId later heap with
  | nil =>
      cases primed
      nofun
  | cons run rest inductionHypothesis =>
      rw [primeHeap] at primed
      cases read : run.nextRow with
      | error error => rw [read] at primed; cases primed
      | ok answer =>
          rw [read] at primed
          cases deeper : primeHeap (runId + 1) rest with
          | error error =>
              cases answer <;> simp only [bind, Except.bind, deeper] at primed <;> cases primed
          | ok pair =>
              obtain ⟨laterRest, heapRest⟩ := pair
              have tails := inductionHypothesis deeper
              cases answer with
              | none =>
                  simp only [bind, Except.bind, deeper] at primed
                  cases primed
                  exact tails
              | some pair =>
                  obtain ⟨row, next⟩ := pair
                  simp only [bind, Except.bind, deeper] at primed
                  cases primed
                  intro entry member
                  rcases List.mem_cons.mp member with rfl | inside
                  · exact nextRow_spillable read
                  · exact tails entry inside

theorem SortState.Returned.next
    {state later : SortState}
    {row : Row}
    (returned : state.Returned)
    (answer : nextSortedRow keys state = .ok (some (row, later))) :
    Spillable row ∧ later.Returned := by
  cases state with
  | building buffer runs => exact returned.elim
  | drainingMemory rows => exact returned.elim
  | drainingMerge runs heap =>
      rw [nextSortedRow] at answer
      cases popped : pop keys heap with
      | none => rw [popped] at answer; cases answer
      | some pair =>
          obtain ⟨entry, others⟩ := pair
          have perm := pop_perm popped
          have own := returned entry (perm.mem_iff.mpr List.mem_cons_self)
          have rest : ∀ other ∈ others, Spillable other.row := fun other member =>
            returned other (perm.mem_iff.mpr (List.mem_cons_of_mem _ member))
          rw [popped] at answer
          simp only at answer
          cases found : runs[entry.runId]? with
          | none => rw [found] at answer; cases answer
          | some run =>
              rw [found] at answer
              simp only at answer
              cases read : run.nextRow with
              | error error => rw [read] at answer; cases answer
              | ok answered =>
                  rw [read] at answer
                  cases answered with
                  | none =>
                      cases answer
                      exact ⟨own, rest⟩
                  | some pair =>
                      cases answer
                      refine ⟨own, fun other member => ?_⟩
                      rcases List.mem_cons.mp member with rfl | inside
                      · exact nextRow_spillable read
                      · exact rest other inside

/-- A batch may hold an integer as a `REAL`, which is as long. -/
theorem pushValue_length
    {type : ColumnType}
    {value stored : Value}
    (pushed : Joins.pushValue type value = .ok stored) :
    (RowCodec.spillFormat.encodeValue stored).length =
      (RowCodec.spillFormat.encodeValue value).length := by
  cases type <;> cases value <;> cases pushed <;> rfl

theorem pushRow_length
    {row stored : Row}
    (pushed : pushRow types row = .ok stored) :
    (encodeValues stored).length = (encodeValues row).length := by
  rw [pushRow] at pushed
  by_cases wide : row.length ≠ types.length
  · rw [if_pos wide] at pushed
    cases pushed
  · rw [if_neg wide] at pushed
    replace wide := not_not.mp wide
    induction types generalizing row stored with
    | nil =>
        cases List.eq_nil_of_length_eq_zero wide
        cases pushed
        rfl
    | cons type types inductionHypothesis =>
        cases row with
        | nil => cases wide
        | cons value rest =>
            rw [Joins.pushValues] at pushed
            cases first : Joins.pushValue type value with
            | error error => rw [first] at pushed; cases pushed
            | ok held =>
                rw [first] at pushed
                cases later : Joins.pushValues types rest with
                | error error => rw [later] at pushed; cases pushed
                | ok others =>
                    rw [later] at pushed
                    cases pushed
                    have tails := inductionHypothesis later (Nat.succ.inj wide)
                    have same := pushValue_length first
                    rw [encodeValues, encodeValues] at tails ⊢
                    rw [List.flatMap_cons, List.flatMap_cons, List.length_append,
                      List.length_append, same, tails]

theorem collectRows_returned
    {state later : SortState}
    {batch rows : List Row}
    {room : Nat}
    (returned : state.Returned)
    (spillable : ∀ row ∈ batch, Spillable row)
    (collected : collectRows keys types room state batch = .ok (rows, later)) :
    (∀ row ∈ rows, Spillable row) ∧ later.Returned := by
  induction room generalizing state batch with
  | zero =>
      cases collected
      exact ⟨spillable, returned⟩
  | succ room inductionHypothesis =>
      rw [collectRows] at collected
      cases answer : nextSortedRow keys state with
      | error error => rw [answer] at collected; cases collected
      | ok answered =>
          rw [answer] at collected
          cases answered with
          | none =>
              cases collected
              exact ⟨spillable, returned⟩
          | some pair =>
              obtain ⟨row, next⟩ := pair
              obtain ⟨short, nextReturned⟩ := returned.next answer
              simp only [bind, Except.bind] at collected
              cases pushed : pushRow types row with
              | error error => rw [pushed] at collected; cases collected
              | ok stored =>
                  rw [pushed] at collected
                  refine inductionHypothesis nextReturned (fun other member => ?_) collected
                  rcases List.mem_append.mp member with old | new
                  · exact spillable other old
                  · rw [List.mem_singleton.mp new, Spillable, pushRow_length pushed]
                    exact short

theorem runs_returned
    {threshold : Nat}
    {sort : BatchSort}
    {batches : List (List Row)}
    {failure : Option Error}
    (runs : Runs (nextBatch threshold keys types) sort batches failure)
    (drained : sort.input = none)
    (returned : sort.state.Returned) :
    ∀ row ∈ batches.flatten, Spillable row := by
  induction runs with
  | ended _ => nofun
  | failed _ => nofun
  | @gave sort later batch batches failure answer _ inductionHypothesis =>
      obtain ⟨input, state⟩ := sort
      cases drained
      rw [nextBatch_drained] at answer
      cases collected : collectRows keys types batchSize state [] with
      | error error => rw [collected] at answer; cases answer
      | ok pair =>
          obtain ⟨rows, next⟩ := pair
          obtain ⟨spillable, nextReturned⟩ := collectRows_returned returned (by simp) collected
          rw [collected] at answer
          by_cases none : rows = []
          · simp only [Except.map, if_pos none] at answer
            cases answer
          · simp only [Except.map, if_neg none] at answer
            cases answer
            intro row member
            rcases List.mem_append.mp member with here | there
            · exact spillable row here
            · exact inductionHypothesis rfl nextReturned row there

/-! ## The whole sort -/

/-- The sort hands out the rows of the stable sort and no failure. -/
def Sorts
    (threshold : Nat)
    (keys : List (Nat × Bool))
    (types : List ColumnType)
    (input : List (List Row)) : Prop :=
  ∃ batches,
    Runs (nextBatch threshold keys types) (.new input) batches none ∧
      batches.flatten = sortRows keys input.flatten

theorem nextBatch_new
    {threshold : Nat}
    {input : List (List Row)}
    {state : SortState}
    (drained : drainInput threshold keys types input (.building [] []) = .ok state) :
    nextBatch threshold keys types (.new input) =
      nextBatch threshold keys types { input := none, state } := by
  rw [nextBatch, nextBatch, BatchSort.new]
  simp only [drained]
  rfl

/-- A sort that spilled answers with what came back from its runs. -/
theorem drainInput_returned
    {threshold : Nat}
    {input : List (List Row)}
    {state : SortState}
    (many : threshold ≤ input.flatten.length)
    (some_row : input.flatten ≠ [])
    (drained : drainInput threshold keys types input (.building [] []) = .ok state) :
    state.Returned := by
  obtain ⟨parts, spilled, _, few, _⟩ := @foldl_built types keys threshold input.flatten
  rw [drainInput] at drained
  generalize input.flatten.foldl (bufferRow threshold keys types) ([], []) = building at *
  obtain ⟨buffer, runs⟩ := building
  have some_run : runs.isEmpty = false := by
    simp only at spilled
    rw [spilled, List.isEmpty_eq_false_iff]
    intro empty
    rcases few (List.map_eq_nil_iff.mp empty) with below | none
    · exact absurd many (Nat.not_le.mpr below)
    · exact some_row none
  simp only [some_run, if_neg Bool.false_ne_true] at drained
  generalize (if buffer.isEmpty then runs
    else runs ++ [spillSortedRun keys types.length buffer]) = whole at drained
  cases primed : primeHeap 0 whole with
  | error error => rw [primed] at drained; cases drained
  | ok pair =>
      rw [primed] at drained
      cases drained
      exact primeHeap_returned primed

theorem sorts_of_returns
    {threshold : Nat}
    {input : List (List Row)}
    (typed : ∀ row ∈ input.flatten, TypedRow types row)
    (returns : input.flatten.length < threshold ∨ ∀ row ∈ input.flatten, Spillable row) :
    Sorts threshold keys types input := by
  obtain ⟨state, drained, ready⟩ := @drainInput_ready types keys _ _ typed returns
  obtain ⟨batches, runs, flat⟩ := runs_ready threshold _ ready
  exact ⟨batches, runs.congr (nextBatch_new drained), flat⟩

theorem spillable_of_sorts
    {threshold : Nat}
    {input : List (List Row)}
    (sorts : Sorts threshold keys types input)
    (many : threshold ≤ input.flatten.length) :
    ∀ row ∈ input.flatten, Spillable row := by
  intro row member
  obtain ⟨batches, runs, flat⟩ := sorts
  have listed : row ∈ batches.flatten := by
    rw [flat]
    exact (List.mergeSort_perm _ _).mem_iff.mpr member
  cases drained : drainInput threshold keys types input (.building [] []) with
  | error error =>
      -- A sort that cannot drain its input fails at once.
      have failed : nextBatch threshold keys types (.new input) = .error error := by
        rw [nextBatch, BatchSort.new]
        simp only [drained]
        rfl
      cases (runs.unique (.failed failed)).2
  | ok state =>
      exact runs_returned (runs.congr (nextBatch_new drained).symm) rfl
        (drainInput_returned many (List.ne_nil_of_mem member) drained) row listed

/-- The sort is the stable sort if nothing is spilled, or if every row comes back. -/
theorem batchSort_sorts_iff
    (threshold : Nat)
    (keys : List (Nat × Bool))
    (types : List ColumnType)
    (input : List (List Row))
    (typed : ∀ row ∈ input.flatten, TypedRow types row) :
    Sorts threshold keys types input ↔
      input.flatten.length < threshold ∨ ∀ row ∈ input.flatten, Spillable row := by
  refine ⟨fun sorts => ?_, sorts_of_returns typed⟩
  by_cases below : input.flatten.length < threshold
  · exact Or.inl below
  · exact Or.inr (spillable_of_sorts sorts (Nat.not_lt.mp below))

/-- Five rows of two runs and a rest, of which two tie with the first. -/
theorem batchSort_sorts_spilled :
    Sorts 2 [(0, true)] [.int, .text]
      [[[.int 1, .text "a"], [.int 2, .text "b"]], [[.int 1, .text "c"]],
        [[.null, .text "d"], [.int 1, .text "e"]]] :=
  (batchSort_sorts_iff 2 [(0, true)] [.int, .text] _ (by
    simp only [List.flatten_cons, List.flatten_nil, List.cons_append, List.nil_append,
      List.forall_mem_cons]
    repeat' constructor
    all_goals simp)).mpr (Or.inr (by decide))

/-- A row of two texts whose encoding has a length that does not fit the entry. -/
theorem not_spillable_of_long
    {string : String}
    (long : (utf8Bytes string).length = 2 ^ 31) :
    ¬ Spillable [.text string, .text string] := by
  intro spillable
  rw [Spillable, encodeValues, List.flatMap_cons, List.flatMap_singleton, List.length_append,
    length_encodeText, long] at spillable
  omega

/--
A full buffer in eight batches, as a join gives them: its last row is of two texts of
two gibibytes, the others are short.
-/
theorem batchSort_sorts_counterexample :
    ¬ Sorts sortSpillThreshold [] [.text, .text]
      (List.replicate 7 (List.replicate 1024 [.text "a", .text "a"]) ++
        [List.replicate 1023 [.text "a", .text "a"] ++
          [[.text (String.ofList (List.replicate (2 ^ 31) 'a')),
            .text (String.ofList (List.replicate (2 ^ 31) 'a'))]]]) := by
  have long := ByteReader.length_utf8Bytes_replicate (2 ^ 31)
  generalize String.ofList (List.replicate (2 ^ 31) 'a') = string at long
  intro sorts
  refine not_spillable_of_long long (spillable_of_sorts sorts ?_ _ ?_)
  · rw [List.flatten_append, List.flatten_replicate_replicate, List.flatten_singleton,
      List.length_append, List.length_append, List.length_replicate, List.length_replicate]
    exact Nat.le_refl _
  · rw [List.flatten_append, List.flatten_singleton]
    exact List.mem_append_right _ (List.mem_append_right _ List.mem_cons_self)

end Merge

end PrehniteDB.BatchSorting
