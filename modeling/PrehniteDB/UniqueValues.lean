import Mathlib.Data.List.Pairwise
import PrehniteDB.ConnectionSteps

namespace PrehniteDB.Constraints

/-!
# Unique columns

When the rows a statement leaves share a value in a unique column, and how that
compares with what the index entries tell.  An entry outlives the version it was
made for; `Truthful` says that for the values of one statement this does no harm.
-/

/-! ## Rows that share a value -/

/-- The same value, and not NULL. -/
def Shares (first second : Value) : Prop :=
  first.isNull = false ∧ first.equal second = true

/-- `==` and the bytes in the index agree on whether two values are the same. -/
def Agree (first second : Value) : Prop :=
  first.equal second = true ↔ first = second

instance (first second : Value) : Decidable (Shares first second) :=
  inferInstanceAs (Decidable (_ ∧ _))

instance (first second : Value) : Decidable (Agree first second) :=
  inferInstanceAs (Decidable (_ ↔ _))

/-- The columns under a UNIQUE or PRIMARY KEY constraint. -/
def Schema.uniqueColumns (schema : Schema) : List Nat :=
  schema.indexes.flatMap fun index => if index.unique then index.columns else []

/-- No two of the rows share a value in the column. -/
def DistinctAt (position : Nat) (rows : List Row) : Prop :=
  rows.Pairwise fun first second =>
    ¬ Shares (column first position) (column second position)

def Distinct (schema : Schema) (rows : List Row) : Prop :=
  ∀ position ∈ schema.uniqueColumns, DistinctAt position rows

instance (position : Nat) (rows : List Row) : Decidable (DistinctAt position rows) :=
  inferInstanceAs (Decidable (List.Pairwise _ _))

instance (schema : Schema) (rows : List Row) : Decidable (Distinct schema rows) :=
  inferInstanceAs (Decidable (∀ _ ∈ _, _))

theorem realEqual_comm (left right : UInt64) :
    realEqual left right = realEqual right left := by
  have same : decide (left = right) = decide (right = left) :=
    decide_eq_decide.mpr eq_comm
  unfold realEqual
  simp only [same, Bool.and_comm]

theorem Value.equal_comm (first second : Value) :
    first.equal second = second.equal first := by
  cases first <;> cases second <;>
    first
      | rfl
      | exact realEqual_comm _ _
      | exact decide_eq_decide.mpr eq_comm

theorem Value.isNull_of_equal
    {first second : Value}
    (same : first.equal second = true) :
    first.isNull = second.isNull := by
  cases first <;> cases second <;> first | rfl | cases same

theorem Shares.symm
    {first second : Value}
    (shared : Shares first second) :
    Shares second first :=
  ⟨(Value.isNull_of_equal shared.2).symm.trans shared.1,
    (Value.equal_comm second first).trans shared.2⟩

theorem not_shares_null (value : Value) : ¬ Shares .null value :=
  fun shared => Bool.noConfusion shared.1

theorem mem_uniqueColumns
    {catalog : Catalog}
    {schema : Schema}
    (listed : schema ∈ catalog.tables)
    {position : Nat} :
    position ∈ schema.uniqueColumns ↔
      ∃ index ∈ schema.indexes, index.unique = true ∧ index.columns = [position] := by
  unfold Schema.uniqueColumns
  rw [List.mem_flatMap]
  constructor
  · rintro ⟨index, here, member⟩
    split at member
    case isTrue unique =>
      obtain ⟨only, columns⟩ := catalog.single schema listed index here unique
      rw [columns, List.mem_singleton] at member
      exact ⟨index, here, unique, member ▸ columns⟩
    case isFalse => cases member
  · rintro ⟨index, here, unique, columns⟩
    refine ⟨index, here, ?_⟩
    rw [if_pos unique, columns]
    exact List.mem_singleton_self _

/-! ## The rows after a statement -/

/-- The rows a statement replaces are rows its transaction sees, each once. -/
structure Drawn (own : Contents) (changes : List Change) : Prop where
  rowids : (own.map Prod.fst).Nodup
  seen :
    ∀ change ∈ changes, ∀ candidate ∈ change.old,
      (candidate.1, candidate.2.values) ∈ own
  once : (replacedRowids changes).Nodup

/-- The change brings the column no value that an earlier row has. -/
def Settles
    (own : Contents)
    (before : List Change)
    (change : Change)
    (position : Nat) : Prop :=
  column change.new position = .null ∨
    (∃ candidate,
      change.old = some candidate ∧
        column change.new position = column candidate.2.values position) ∨
    ∀ values ∈ own.map Prod.snd ++ before.map Change.new,
      ¬ Shares (column values position) (column change.new position)

section Produced

variable
  {own : Contents}
  {changes : List Change}
  {position : Nat}

/-- Two rows of the table share nothing. -/
theorem DistinctAt.apart
    (distinct : DistinctAt position (own.map Prod.snd))
    {first second : Nat × Row}
    (firstListed : first ∈ own)
    (secondListed : second ∈ own)
    (different : first.1 ≠ second.1) :
    ¬ Shares (column first.2 position) (column second.2 position) := by
  have pairs := List.pairwise_map.mp distinct
  have symmetric :
      Std.Symm fun first second : Nat × Row =>
        ¬ Shares (column first.2 position) (column second.2 position) :=
    ⟨fun _ _ apart shared => apart shared.symm⟩
  exact pairs.forall firstListed secondListed
    fun same => different (congrArg Prod.fst same)

/-- Two changes replace two rows. -/
theorem Drawn.later_ne
    (drawn : Drawn own changes)
    {before after : List Change}
    {change later : Change}
    {candidate other : Nat × Record}
    (split : changes = before ++ change :: after)
    (old : change.old = some other)
    (listed : later ∈ after)
    (laterOld : later.old = some candidate) :
    candidate.1 ≠ other.1 := by
  have once := drawn.once
  have first : change.old.map Prod.fst = some other.1 := by rw [old]; rfl
  rw [split, replacedRowids, List.filterMap_append] at once
  have rest := (List.nodup_append.mp once).2.1
  rw [List.filterMap_cons, first] at rest
  intro same
  exact (List.nodup_cons.mp rest).1 (same ▸ mem_replacedRowids listed laterOld)

/-- A row of the table and the new version of another one share nothing. -/
theorem Drawn.apart
    (drawn : Drawn own changes)
    (distinct : DistinctAt position (own.map Prod.snd))
    {before after : List Change}
    {change : Change}
    (split : changes = before ++ change :: after)
    (settles : Settles own before change position)
    {row : Nat × Row}
    (listed : row ∈ own)
    (different : ∀ candidate ∈ change.old, row.1 ≠ candidate.1) :
    ¬ Shares (column row.2 position) (column change.new position) := by
  rcases settles with null | ⟨candidate, old, same⟩ | fresh
  · rw [null]
    exact fun shared => not_shares_null _ shared.symm
  · rw [same]
    have member : change ∈ changes :=
      split ▸ List.mem_append_right _ List.mem_cons_self
    exact distinct.apart listed (drawn.seen change member candidate old)
      (different candidate old)
  · exact fresh _ (List.mem_append_left _ (List.mem_map_of_mem listed))

/-- Changes that settle leave no two rows with the same value. -/
theorem Drawn.distinct
    (drawn : Drawn own changes)
    (distinct : DistinctAt position (own.map Prod.snd))
    (settles :
      ∀ before change after,
        changes = before ++ change :: after →
        Settles own before change position) :
    DistinctAt position (produced own changes) := by
  refine List.pairwise_append.mpr ⟨?_, ?_, ?_⟩
  · exact distinct.sublist (List.filter_sublist.map Prod.snd)
  · rw [List.pairwise_map]
    -- over the changes still to come, whatever has gone before
    have suffixes (rest : List Change) :
        ∀ before, changes = before ++ rest →
          rest.Pairwise fun first second =>
            ¬ Shares (column first.new position) (column second.new position) := by
      induction rest with
      | nil => exact fun _ _ => .nil
      | cons change rest inductionHypothesis =>
          intro before split
          refine .cons ?_ (inductionHypothesis (before ++ [change]) (by simp [split]))
          intro later listed
          obtain ⟨middle, after, rfl⟩ := List.append_of_mem listed
          have laterSplit :
              changes = (before ++ change :: middle) ++ later :: after := by
            simp [split]
          rcases settles _ later after laterSplit with null | ⟨candidate, old, same⟩ | fresh
          · rw [null]
            exact fun shared => not_shares_null _ shared.symm
          · -- the later change keeps the value of the row it replaces
            rw [same]
            have member : later ∈ changes :=
              laterSplit ▸ List.mem_append_right _ List.mem_cons_self
            refine fun shared =>
              drawn.apart distinct split (settles before change _ split)
                (drawn.seen later member candidate old) ?_ shared.symm
            intro other otherOld same
            exact drawn.later_ne split otherOld listed old same
          · exact fresh _ (List.mem_append_right _
              (List.mem_map_of_mem (List.mem_append_right _ List.mem_cons_self)))
    exact suffixes changes [] rfl
  · intro first firstListed second secondListed
    obtain ⟨rowid, here, unreplaced⟩ := mem_kept.mp firstListed
    obtain ⟨change, member, rfl⟩ := List.mem_map.mp secondListed
    obtain ⟨before, after, split⟩ := List.append_of_mem member
    refine drawn.apart distinct split (settles before change after split) here ?_
    intro candidate old same
    obtain rfl : rowid = candidate.1 := same
    exact unreplaced (mem_replacedRowids member old)

end Produced

/-! ## What the index entries tell -/

/--
The index entries tell the truth about what a statement writes: a value that some
version holds is on a row that stays, or on another one the statement writes; and
values that `==` takes for the same have the same bytes.
-/
structure Truthful
    (schema : Schema)
    (held : Nat → Value → Prop)
    (own : Contents)
    (changes : List Change) : Prop where
  live :
    ∀ before change after, changes = before ++ change :: after →
      ∀ position ∈ schema.uniqueColumns,
        Checked change.new change.oldValues position →
        held position (column change.new position) →
        ∃ values ∈ kept own changes ++ (before ++ after).map Change.new,
          column values position = column change.new position
  agree :
    ∀ before change after, changes = before ++ change :: after →
      ∀ position ∈ schema.uniqueColumns,
        ∀ values ∈ own.map Prod.snd ++ (before ++ after).map Change.new,
          Agree (column values position) (column change.new position)

section Checks

variable
  {catalog : Catalog}
  {schema : Schema}
  {held : Nat → Value → Prop}
  {own : Contents}
  {changes : List Change}

theorem Truthful.settles
    (truthful : Truthful schema held own changes)
    (drawn : Drawn own changes)
    (listed : schema ∈ catalog.tables)
    (holds : ∀ row ∈ own, ∀ position, held position (column row.2 position))
    (accepted : ¬ Refused schema.indexes held changes)
    {position : Nat}
    (unique : position ∈ schema.uniqueColumns)
    {before after : List Change}
    {change : Change}
    (split : changes = before ++ change :: after) :
    Settles own before change position := by
  have agree := truthful.agree before change after split position unique
  obtain ⟨index, here, isUnique, columns⟩ := (mem_uniqueColumns listed).mp unique
  by_cases checked : Checked change.new change.oldValues position
  · refine .inr (.inr fun values listed shared => ?_)
    have member :
        values ∈ own.map Prod.snd ++ (before ++ after).map Change.new := by
      rcases List.mem_append.mp listed with old | earlier
      · exact List.mem_append_left _ old
      · rw [List.map_append]
        exact List.mem_append_right _ (List.mem_append_left _ earlier)
    have same := (agree values member).mp shared.2
    refine accepted ⟨before, change, after, split, index, here, isUnique, position,
      columns, checked, ?_⟩
    rcases List.mem_append.mp listed with old | earlier
    · obtain ⟨row, present, rfl⟩ := List.mem_map.mp old
      exact .inl (same ▸ holds row present position)
    · obtain ⟨other, first, rfl⟩ := List.mem_map.mp earlier
      exact .inr ⟨other, first, same⟩
  · by_cases null : (column change.new position).isNull = true
    · exact .inl (of_decide_eq_true null)
    · -- unchecked and not NULL, it is the value of the row the change replaces
      cases old : change.old with
      | none =>
          refine absurd ⟨Bool.eq_false_iff.mpr null, ?_⟩ checked
          simp [Change.oldValues, old]
      | some candidate =>
          refine .inr (.inl ⟨candidate, old, ?_⟩)
          have unchanged :
              (column change.new position).equal
                (column candidate.2.values position) = true := by
            by_contra changed
            refine checked ⟨Bool.eq_false_iff.mpr null, ?_⟩
            simp [Change.oldValues, old, Bool.eq_false_iff.mpr changed]
          have member : change ∈ changes :=
            split ▸ List.mem_append_right _ List.mem_cons_self
          have seen := drawn.seen change member candidate old
          refine ((agree _ (List.mem_append_left _ (List.mem_map_of_mem seen))).mp ?_).symm
          rw [Value.equal_comm]
          exact unchanged

/-- What an index refuses would have been a duplicate. -/
theorem Truthful.clash
    (truthful : Truthful schema held own changes)
    {index : Index}
    (listed : schema ∈ catalog.tables)
    (here : index ∈ schema.indexes)
    (refused : Refused [index] held changes) :
    ∃ position, index.columns = [position] ∧
      ¬ DistinctAt position (produced own changes) := by
  obtain ⟨before, change, after, split, found, only, isUnique, position, columns,
    checked, taken⟩ := refused
  obtain rfl := List.mem_singleton.mp only
  have unique : position ∈ schema.uniqueColumns :=
    (mem_uniqueColumns listed).mpr ⟨found, here, isUnique, columns⟩
  refine ⟨position, columns, fun distinct => ?_⟩
  obtain ⟨values, member, same⟩ :
      ∃ values ∈ kept own changes ++ (before ++ after).map Change.new,
        column values position = column change.new position := by
    rcases taken with holds | ⟨earlier, first, same⟩
    · exact truthful.live before change after split position unique checked holds
    · refine ⟨earlier.new, List.mem_append_right _ (List.mem_map_of_mem ?_), same⟩
      exact List.mem_append_left _ first
  have shared : Shares (column change.new position) (column values position) := by
    refine ⟨checked.1, ?_⟩
    rw [Value.equal_comm]
    refine (truthful.agree before change after split position unique values ?_).mpr same
    rcases List.mem_append.mp member with old | other
    · exact List.mem_append_left _ (kept_subset old)
    · exact List.mem_append_right _ other
  have order :
      (produced own changes).Perm
        (change.new :: (kept own changes ++ (before ++ after).map Change.new)) := by
    have shape :
        produced own changes =
          (kept own changes ++ before.map Change.new) ++
            change.new :: after.map Change.new := by
      rw [produced]
      nth_rewrite 2 [split]
      simp
    rw [shape, List.map_append, ← List.append_assoc]
    exact List.perm_middle
  exact (List.pairwise_cons.mp (order.pairwise distinct fun apart shared =>
    apart shared.symm)).1 values member shared

end Checks

end PrehniteDB.Constraints
