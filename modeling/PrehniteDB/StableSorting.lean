import Mathlib.Data.List.Basic

/-!
# Stable sorts

A stable sort is sorted and keeps the order of the items that are tied; no other
list does both.  So sorting in parts and merging them is the stable sort of the
whole.  The order is asked for on the items of a set only.
-/

namespace StableSorting

variable {Item : Type}

/-- A total preorder on the items of the set. -/
structure Preorders (member : Item → Prop) (le : Item → Item → Bool) : Prop where
  trans :
    ∀ first second third,
      member first → member second → member third →
        le first second = true → le second third = true → le first third = true
  total :
    ∀ first second, member first → member second → (le first second || le second first) = true

def tied (le : Item → Item → Bool) (item other : Item) : Bool :=
  le item other && le other item

theorem mergeSort_subtype
    (le : Item → Item → Bool)
    {member : Item → Prop}
    {items : List Item}
    (own : ∀ item ∈ items, member item) :
    ∃ inner : List { item // member item },
      inner.map Subtype.val = items ∧
        (inner.mergeSort fun left right => le left.val right.val).map Subtype.val =
          items.mergeSort le := by
  refine ⟨items.attachWith member own, List.attachWith_map_subtype_val own, ?_⟩
  have mapped :=
    @List.map_mergeSort _ _ (fun left right => le left.val right.val) le Subtype.val
      (items.attachWith member own) fun _ _ _ _ => rfl
  rw [mapped, List.attachWith_map_subtype_val]

theorem mergeSort_own
    {le : Item → Item → Bool}
    {member : Item → Prop}
    {items : List Item}
    (own : ∀ item ∈ items, member item) :
    ∀ item ∈ items.mergeSort le, member item := fun item listed =>
  own item ((List.mergeSort_perm items le).mem_iff.mp listed)

section Sorts

variable {member : Item → Prop} {le : Item → Item → Bool} (preorders : Preorders member le)

include preorders

theorem Preorders.refl {item : Item} (own : member item) : le item item = true := by
  have both := preorders.total item item own own
  rwa [Bool.or_self] at both

theorem sorted_mergeSort
    {items : List Item}
    (own : ∀ item ∈ items, member item) :
    (items.mergeSort le).Pairwise fun left right => le left right = true := by
  obtain ⟨inner, _, sorted⟩ := mergeSort_subtype le own
  rw [← sorted, List.pairwise_map]
  exact @List.pairwise_mergeSort _
    (fun left right : { item // member item } => le left.val right.val)
    (fun first second third =>
      preorders.trans _ _ _ first.property second.property third.property)
    (fun first second => preorders.total _ _ first.property second.property) inner

theorem sublist_mergeSort
    {items kept : List Item}
    (own : ∀ item ∈ items, member item)
    (sorted : kept.Pairwise fun left right => le left right = true)
    (sublist : kept.Sublist items) :
    kept.Sublist (items.mergeSort le) := by
  obtain ⟨inner, rfl, same⟩ := mergeSort_subtype le own
  obtain ⟨chosen, inside, rfl⟩ := List.sublist_map_iff.mp sublist
  rw [← same]
  refine List.Sublist.map _ (List.sublist_mergeSort ?_ ?_ (List.pairwise_map.mp sorted) inside)
  · exact fun first second third =>
      preorders.trans _ _ _ first.property second.property third.property
  · exact fun first second => preorders.total _ _ first.property second.property

/-- Tied items keep their order. -/
theorem filter_mergeSort
    {items : List Item}
    (own : ∀ item ∈ items, member item)
    {item : Item}
    (listed : member item) :
    (items.mergeSort le).filter (tied le item) = items.filter (tied le item) := by
  have sorted :
      (items.filter (tied le item)).Pairwise fun left right => le left right = true := by
    refine List.pairwise_of_forall_mem_list fun left leftMember right rightMember => ?_
    obtain ⟨leftListed, leftTied⟩ := List.mem_filter.mp leftMember
    obtain ⟨rightListed, rightTied⟩ := List.mem_filter.mp rightMember
    exact preorders.trans _ item _ (own left leftListed) listed (own right rightListed)
      (Bool.and_eq_true_iff.mp leftTied).2 (Bool.and_eq_true_iff.mp rightTied).1
  have kept := sublist_mergeSort preorders own sorted List.filter_sublist
  have again := kept.filter (tied le item)
  rw [List.filter_filter, funext fun other => Bool.and_self (tied le item other)] at again
  refine (again.eq_of_length ?_).symm
  exact ((List.mergeSort_perm items le).filter _).length_eq.symm

theorem eq_of_sorted
    {first second : List Item}
    (firstOwn : ∀ item ∈ first, member item)
    (secondOwn : ∀ item ∈ second, member item)
    (firstSorted : first.Pairwise fun left right => le left right = true)
    (secondSorted : second.Pairwise fun left right => le left right = true)
    (same :
      ∀ item, member item → first.filter (tied le item) = second.filter (tied le item)) :
    first = second := by
  have self {item : Item} (own : member item) : tied le item item = true := by
    rw [tied, preorders.refl own, Bool.and_self]
  induction first generalizing second with
  | nil =>
      cases second with
      | nil => rfl
      | cons item rest =>
          have own := secondOwn item List.mem_cons_self
          have none := same item own
          rw [List.filter_nil, List.filter_cons_of_pos (self own)] at none
          cases none
  | cons item rest inductionHypothesis =>
      have own := firstOwn item List.mem_cons_self
      cases second with
      | nil =>
          have none := same item own
          rw [List.filter_nil, List.filter_cons_of_pos (self own)] at none
          cases none
      | cons other later =>
          have otherOwn := secondOwn other List.mem_cons_self
          have ahead {head found : Item} {tail : List Item}
              (sorted : (head :: tail).Pairwise fun left right => le left right = true)
              (headOwn : member head)
              (there : found ∈ head :: tail) : le head found = true := by
            rcases List.mem_cons.mp there with rfl | inside
            · exact preorders.refl headOwn
            · exact (List.pairwise_cons.mp sorted).1 found inside
          have inSecond : item ∈ other :: later := by
            have listed : item ∈ (item :: rest).filter (tied le item) :=
              List.mem_filter.mpr ⟨List.mem_cons_self, self own⟩
            rw [same item own] at listed
            exact (List.mem_filter.mp listed).1
          have inFirst : other ∈ item :: rest := by
            have listed : other ∈ (other :: later).filter (tied le other) :=
              List.mem_filter.mpr ⟨List.mem_cons_self, self otherOwn⟩
            rw [← same other otherOwn] at listed
            exact (List.mem_filter.mp listed).1
          have heads : tied le item other = true :=
            Bool.and_eq_true_iff.mpr
              ⟨ahead firstSorted own inFirst, ahead secondSorted otherOwn inSecond⟩
          have ties := same item own
          rw [List.filter_cons_of_pos (self own), List.filter_cons_of_pos heads] at ties
          obtain ⟨rfl, _⟩ := List.cons.inj ties
          refine congrArg _ (inductionHypothesis
            (fun found there => firstOwn found (List.mem_cons_of_mem _ there))
            (fun found there => secondOwn found (List.mem_cons_of_mem _ there))
            (List.pairwise_cons.mp firstSorted).2 (List.pairwise_cons.mp secondSorted).2 ?_)
          intro found foundOwn
          have whole := same found foundOwn
          by_cases at_head : tied le found item = true
          · rw [List.filter_cons_of_pos at_head, List.filter_cons_of_pos at_head] at whole
            exact (List.cons.inj whole).2
          · rwa [List.filter_cons_of_neg at_head, List.filter_cons_of_neg at_head] at whole

theorem mergeSort_parts
    {parts : List (List Item)}
    (own : ∀ item ∈ parts.flatten, member item) :
    (parts.map fun part => part.mergeSort le).flatten.mergeSort le = parts.flatten.mergeSort le := by
  have perm : (parts.map fun part => part.mergeSort le).flatten.Perm parts.flatten := by
    induction parts with
    | nil => exact .nil
    | cons part rest inductionHypothesis =>
        exact (List.mergeSort_perm part le).append
          (inductionHypothesis fun item listed => own item (List.mem_append_right _ listed))
  have sortedOwn :
      ∀ item ∈ (parts.map fun part => part.mergeSort le).flatten, member item :=
    fun item listed => own item (perm.mem_iff.mp listed)
  refine eq_of_sorted preorders (mergeSort_own sortedOwn) (mergeSort_own own)
    (sorted_mergeSort preorders sortedOwn) (sorted_mergeSort preorders own) ?_
  intro item listed
  rw [filter_mergeSort preorders sortedOwn listed, filter_mergeSort preorders own listed,
    List.filter_flatten, List.filter_flatten, List.map_map]
  refine congrArg List.flatten (List.map_congr_left fun part there => ?_)
  exact filter_mergeSort preorders
    (fun other inside => own other (List.mem_flatten.mpr ⟨part, there, inside⟩)) listed

/-- An item that is least, and the first of those it is tied with, comes first. -/
theorem mergeSort_least
    {front rest : List Item}
    {item : Item}
    (own : ∀ other ∈ front ++ item :: rest, member other)
    (before : ∀ other ∈ front, le other item = false)
    (behind : ∀ other ∈ rest, le item other = true) :
    (front ++ item :: rest).mergeSort le = item :: (front ++ rest).mergeSort le := by
  have middle : (front ++ item :: rest).Perm (item :: (front ++ rest)) := List.perm_middle
  have listed : member item := own item (by simp)
  have othersOwn : ∀ other ∈ front ++ rest, member other := fun other there =>
    own other (middle.mem_iff.mpr (List.mem_cons_of_mem _ there))
  have least : ∀ other ∈ front ++ rest, le item other = true := by
    intro other there
    rcases List.mem_append.mp there with inFront | inRest
    · have either := preorders.total item other listed (othersOwn other there)
      rwa [before other inFront, Bool.or_false] at either
    · exact behind other inRest
  refine eq_of_sorted preorders (mergeSort_own own) ?_
    (sorted_mergeSort preorders own) ?_ ?_
  · intro other there
    rcases List.mem_cons.mp there with rfl | inside
    · exact listed
    · exact mergeSort_own othersOwn other inside
  · refine List.pairwise_cons.mpr ⟨fun other there => ?_, sorted_mergeSort preorders othersOwn⟩
    exact least other ((List.mergeSort_perm _ le).mem_iff.mp there)
  · intro found foundOwn
    rw [filter_mergeSort preorders own foundOwn, List.filter_append]
    by_cases ties : tied le found item = true
    · have none : front.filter (tied le found) = [] := by
        rw [List.filter_eq_nil_iff]
        intro other there otherTied
        have through : le other item = true :=
          preorders.trans other found item (own other (by simp [there])) foundOwn listed
            (Bool.and_eq_true_iff.mp otherTied).2 (Bool.and_eq_true_iff.mp ties).1
        rw [before other there] at through
        cases through
      rw [List.filter_cons_of_pos ties, List.filter_cons_of_pos ties, none,
        filter_mergeSort preorders othersOwn foundOwn, List.filter_append, none]
      rfl
    · rw [List.filter_cons_of_neg ties, List.filter_cons_of_neg ties,
        filter_mergeSort preorders othersOwn foundOwn, List.filter_append]

end Sorts

end StableSorting
