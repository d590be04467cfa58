import Mathlib.Data.List.Count
import Mathlib.Data.List.Perm.Basic
import Mathlib.Data.List.Range
import Mathlib.Logic.Function.Basic

namespace KeyedBuckets

/-!
# Rows in buckets

A table of buckets filled row by row, and rows dealt out to numbered parts.
-/

variable {Row Key Out : Type} [DecidableEq Key]

/-- Put every row that has a key behind the rows already under it. -/
def fill (key : Row → Option Key) (rows : List Row) : Key → List Row :=
  rows.foldl
    (fun table row =>
      match key row with
      | none => table
      | some found => Function.update table found (table found ++ [row]))
    fun _ => []

/-- A bucket holds the rows of its key, in their order. -/
theorem fill_eq_filter (key : Row → Option Key) (rows : List Row) (sought : Key) :
    fill key rows sought = rows.filter fun row => key row = some sought := by
  have grown :
      ∀ (rest : List Row) (table : Key → List Row),
        rest.foldl
            (fun table row =>
              match key row with
              | none => table
              | some found => Function.update table found (table found ++ [row]))
            table sought =
          table sought ++ rest.filter fun row => key row = some sought := by
    intro rest
    induction rest with
    | nil => simp
    | cons row later inductionHypothesis =>
        intro table
        rw [List.foldl_cons, inductionHypothesis]
        cases found : key row with
        | none => simp [found]
        | some own =>
            by_cases same : own = sought
            · subst same
              simp [found]
            · simp [found, same, Function.update_of_ne (Ne.symm same)]
  unfold fill
  rw [grown]
  simp

/-- One more row in its part, among parts that are all different. -/
theorem perm_flatMap_insert
    {parts : List Nat}
    {part : Nat}
    (apart : parts.Nodup)
    (listed : part ∈ parts)
    (added : List Out)
    (others : Nat → List Out) :
    (parts.flatMap fun which => if part = which then added ++ others which else others which).Perm
      (added ++ parts.flatMap others) := by
  induction parts with
  | nil => cases listed
  | cons first rest inductionHypothesis =>
      obtain ⟨fresh, later⟩ := List.nodup_cons.mp apart
      by_cases same : part = first
      · subst same
        have untouched :
            (rest.flatMap fun which =>
              if part = which then added ++ others which else others which) =
              rest.flatMap others := by
          refine List.flatMap_congr fun which member => if_neg fun same => ?_
          exact fresh (same ▸ member)
        simp [untouched]
      · have deeper := inductionHypothesis later
          ((List.mem_cons.mp listed).resolve_left same)
        simp only [List.flatMap_cons, if_neg same]
        refine (List.Perm.append_left _ deeper).trans ?_
        rw [← List.append_assoc, ← List.append_assoc]
        exact List.perm_append_comm.append_right _

theorem perm_flatMap_parts
    {parts : List Nat}
    (apart : parts.Nodup)
    (part : Row → Nat)
    (contribution : Row → List Out)
    {rows : List Row}
    (listed : ∀ row ∈ rows, part row ∈ parts) :
    (parts.flatMap fun which =>
      (rows.filter fun row => part row = which).flatMap contribution).Perm
      (rows.flatMap contribution) := by
  induction rows with
  | nil => simp
  | cons row rest inductionHypothesis =>
      have dealt (which : Nat) :
          ((row :: rest).filter fun row => part row = which).flatMap contribution =
            if part row = which then
              contribution row ++ (rest.filter fun row => part row = which).flatMap contribution
            else (rest.filter fun row => part row = which).flatMap contribution := by
        by_cases same : part row = which
        · simp [same]
        · simp [same]
      rw [List.flatMap_congr fun which _ => dealt which]
      refine (perm_flatMap_insert apart (listed row List.mem_cons_self) _ _).trans ?_
      exact List.Perm.append_left _ (inductionHypothesis fun other member =>
        listed other (List.mem_cons_of_mem _ member))

/-! ## Counting the rows of one value -/

theorem count_map_filter_eq_zero_iff
    [BEq Out]
    [LawfulBEq Out]
    {rows : List Row}
    {kept : Row → Bool}
    {value : Row → Out}
    {sought : Out} :
    ((rows.filter kept).map value).count sought = 0 ↔
      ∀ row ∈ rows, value row = sought → kept row = false := by
  rw [List.count_eq_zero]
  constructor
  · intro absent row listed same
    by_contra keep
    exact absent (List.mem_map.mpr
      ⟨row, List.mem_filter.mpr ⟨listed, by simpa using keep⟩, same⟩)
  · intro none member
    obtain ⟨row, found, same⟩ := List.mem_map.mp member
    obtain ⟨listed, keep⟩ := List.mem_filter.mp found
    exact nomatch keep.symm.trans (none row listed same)

theorem count_map_filter_eq_iff
    [BEq Out]
    [LawfulBEq Out]
    {rows : List Row}
    {kept : Row → Bool}
    {value : Row → Out}
    {sought : Out} :
    ((rows.filter kept).map value).count sought = (rows.map value).count sought ↔
      ∀ row ∈ rows, value row = sought → kept row = true := by
  have split :=
    (List.filter_append_perm kept rows).map value |>.count_eq sought
  rw [List.map_append, List.count_append] at split
  rw [← split, Nat.left_eq_add, count_map_filter_eq_zero_iff]
  simp

end KeyedBuckets
