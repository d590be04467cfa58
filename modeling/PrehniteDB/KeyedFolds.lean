import Mathlib.Data.List.Induction
import Mathlib.Data.List.Nodup
import Mathlib.Data.List.Perm.Basic

namespace KeyedFolds

/-!
# Folds under keys

Each row advances the state that is kept under its key, and a step may fail.  The
states do not depend on how rows of different keys are mixed.
-/

variable {Row Key State Failure Item Other Target : Type}

/-! ## Two outcomes -/

/-- Both succeed with related answers, or both fail. -/
def Together (relation : Item → Other → Prop) : Except Failure Item → Except Failure Other → Prop
  | .ok item, .ok other => relation item other
  | .error _, .error _ => True
  | _, _ => False

theorem Together.bind
    {relation : Item → Item → Prop}
    {final : Target → Target → Prop}
    {first second : Except Failure Item}
    {next later : Item → Except Failure Target}
    (together : Together relation first second)
    (follows : ∀ item other, relation item other → Together final (next item) (later other)) :
    Together final (first.bind next) (second.bind later) := by
  cases first with
  | error failure =>
      cases second with
      | error failure => trivial
      | ok other => exact together.elim
  | ok item =>
      cases second with
      | error failure => exact together.elim
      | ok other => exact follows item other together

theorem Together.of_ok_iff
    {first second : Except Failure Item}
    (same : ∀ item, first = .ok item ↔ second = .ok item) :
    Together Eq first second := by
  cases left : first with
  | ok item =>
      rw [(same item).mp left]
      exact rfl
  | error failure =>
      cases right : second with
      | error other => trivial
      | ok item => cases left.symm.trans ((same item).mpr right)

theorem Together.ok_iff
    {first second : Except Failure Item}
    (together : Together Eq first second)
    (item : Item) :
    first = .ok item ↔ second = .ok item := by
  cases first with
  | error failure =>
      cases second with
      | error other => exact iff_of_false nofun nofun
      | ok other => exact together.elim
  | ok one =>
      cases second with
      | error other => exact together.elim
      | ok other => rw [show one = other from together]

/-- A list is mapped without an error where every element is. -/
theorem mapM_ok_iff
    {make : Item → Except Failure Target}
    {items : List Item}
    {targets : List Target} :
    items.mapM make = .ok targets ↔
      List.Forall₂ (fun item target => make item = .ok target) items targets := by
  induction items generalizing targets with
  | nil =>
      cases targets with
      | nil => exact iff_of_true rfl .nil
      | cons target rest => exact iff_of_false (by nofun) (by nofun)
  | cons item rest inductionHypothesis =>
      rw [List.mapM_cons]
      cases made : make item with
      | error failure =>
          refine iff_of_false (by nofun) fun each => ?_
          cases each with
          | cons head _ => cases made.symm.trans head
      | ok target =>
          cases ran : rest.mapM make with
          | error failure =>
              refine iff_of_false (by nofun) fun each => ?_
              cases each with
              | cons _ tail => cases ran.symm.trans (inductionHypothesis.mpr tail)
          | ok others =>
              constructor
              · intro same
                cases same
                exact .cons made (inductionHypothesis.mp ran)
              · intro each
                cases each with
                | cons head tail =>
                    cases made.symm.trans head
                    cases ran.symm.trans (inductionHypothesis.mpr tail)
                    rfl

theorem made_of_mapM
    {make : Item → Except Failure Target}
    {items : List Item}
    {targets : List Target}
    {item : Item}
    (ran : items.mapM make = .ok targets)
    (member : item ∈ items) :
    ∃ target ∈ targets, make item = .ok target := by
  have each := mapM_ok_iff.mp ran
  clear ran
  induction each with
  | nil => cases member
  | @cons head target rest later made _ inductionHypothesis =>
      rcases List.mem_cons.mp member with rfl | inside
      · exact ⟨target, List.mem_cons_self, made⟩
      · obtain ⟨found, listed, same⟩ := inductionHypothesis inside
        exact ⟨found, List.mem_cons_of_mem _ listed, same⟩

/-- What is made of every item does not depend on the order of the items. -/
theorem Together.mapM
    (make : Item → Except Failure Target)
    {items others : List Item}
    (perm : items.Perm others) :
    Together List.Perm (items.mapM make) (others.mapM make) := by
  have moved {items others : List Item} {targets : List Target}
      (perm : items.Perm others) (ran : items.mapM make = .ok targets) :
      ∃ moved, others.mapM make = .ok moved ∧ targets.Perm moved := by
    obtain ⟨moved, same, each⟩ := List.perm_comp_forall₂ perm.symm (mapM_ok_iff.mp ran)
    exact ⟨_, mapM_ok_iff.mpr same, each.symm⟩
  cases ran : items.mapM make with
  | ok targets =>
      obtain ⟨other, same, targetsPerm⟩ := moved perm ran
      rw [same]
      exact targetsPerm
  | error failure =>
      cases other : others.mapM make with
      | error failure => trivial
      | ok targets =>
          obtain ⟨back, same, _⟩ := moved perm.symm other
          cases ran.symm.trans same

/-! ## Groups -/

variable [DecidableEq Key]
  (start : State)
  (step : State → Row → Except Failure State)
  (key : Row → Key)

/-- The state of the row's key takes a step; a new key starts behind the others. -/
def advance (groups : List (Key × State)) (row : Row) : Except Failure (List (Key × State)) :=
  if groups.any fun group => group.1 = key row then
    groups.mapM fun group =>
      if group.1 = key row then (step group.2 row).map fun state => (group.1, state)
      else .ok group
  else
    (step start row).map fun state => groups ++ [(key row, state)]

def foldGroups (rows : List Row) : Except Failure (List (Key × State)) :=
  rows.foldlM (advance start step key) []

/-- The fold over the rows of one key. -/
def foldKey (rows : List Row) (sought : Key) : Except Failure State :=
  (rows.filter fun row => key row = sought).foldlM step start

/-- Every key of the rows has its group, with the fold over its rows. -/
structure Grouped (rows : List Row) (groups : List (Key × State)) : Prop where
  distinct : (groups.map Prod.fst).Nodup
  listed : ∀ sought, sought ∈ groups.map Prod.fst ↔ sought ∈ rows.map key
  folded : ∀ group ∈ groups, foldKey start step key rows group.1 = .ok group.2

variable {start step key} {rows others : List Row} {groups : List (Key × State)}

theorem foldKey_append_other
    {row : Row}
    {sought : Key}
    (other : key row ≠ sought) :
    foldKey start step key (rows ++ [row]) sought = foldKey start step key rows sought := by
  rw [foldKey, List.filter_append, List.filter_cons_of_neg (by simpa using other),
    List.filter_nil, List.append_nil]
  rfl

theorem foldKey_append_self (row : Row) :
    foldKey start step key (rows ++ [row]) (key row) =
      (foldKey start step key rows (key row)).bind fun state => step state row := by
  have one (state : State) : [row].foldlM step state = step state row := by
    rw [List.foldlM_cons]
    cases step state row <;> rfl
  rw [foldKey, List.filter_append, List.filter_cons_of_pos (by simp), List.filter_nil,
    List.foldlM_append, funext one]
  rfl

theorem foldKey_new {sought : Key} (missing : sought ∉ rows.map key) :
    foldKey start step key rows sought = .ok start := by
  have none : rows.filter (fun row => key row = sought) = [] := by
    rw [List.filter_eq_nil_iff]
    intro row member same
    exact missing (List.mem_map.mpr ⟨row, member, by simpa using same⟩)
  rw [foldKey, none]
  rfl

namespace Grouped

variable (grouped : Grouped start step key rows groups)

include grouped

theorem advance_new
    {row : Row}
    (missing : key row ∉ rows.map key) :
    advance start step key groups row =
      (step start row).map fun state => groups ++ [(key row, state)] := by
  refine if_neg fun present => missing ?_
  obtain ⟨group, member, same⟩ := List.any_eq_true.mp present
  exact (grouped.listed _).mp (List.mem_map.mpr ⟨group, member, by simpa using same⟩)

theorem append_new
    {row : Row}
    {state : State}
    (missing : key row ∉ rows.map key)
    (stepped : step start row = .ok state) :
    Grouped start step key (rows ++ [row]) (groups ++ [(key row, state)]) where
  distinct := by
    rw [List.map_append]
    refine List.nodup_append.mpr ⟨grouped.distinct, List.nodup_singleton _, ?_⟩
    intro sought member other listed same
    have own : sought = key row := same.trans (List.mem_singleton.mp listed)
    exact missing ((grouped.listed _).mp (own ▸ member))
  listed := by
    intro sought
    rw [List.map_append, List.map_append, List.mem_append, List.mem_append, grouped.listed]
    rfl
  folded := by
    intro group member
    rcases List.mem_append.mp member with old | new
    · have other : key row ≠ group.1 := fun same =>
        missing (same ▸ (grouped.listed _).mp (List.mem_map_of_mem old))
      rw [foldKey_append_other other]
      exact grouped.folded group old
    · rw [List.mem_singleton.mp new, foldKey_append_self, foldKey_new missing]
      exact stepped

theorem advance_old
    {row : Row}
    (present : key row ∈ rows.map key) :
    advance start step key groups row =
      groups.mapM fun group =>
        if group.1 = key row then (step group.2 row).map fun state => (group.1, state)
        else .ok group := by
  obtain ⟨group, member, same⟩ := List.mem_map.mp ((grouped.listed _).mpr present)
  exact if_pos (List.any_eq_true.mpr ⟨group, member, by simpa using same⟩)

theorem append_old
    {row : Row}
    {state next : State}
    (present : key row ∈ rows.map key)
    (folded : foldKey start step key rows (key row) = .ok state)
    (stepped : step state row = .ok next) :
    ∃ later, advance start step key groups row = .ok later ∧
      Grouped start step key (rows ++ [row]) later := by
  let put : Key × State → Key × State := fun group =>
    if group.1 = key row then (group.1, next) else group
  have first (group : Key × State) : (put group).1 = group.1 := by
    by_cases same : group.1 = key row <;> simp [put, same]
  have keys : (groups.map put).map Prod.fst = groups.map Prod.fst := by
    rw [List.map_map]
    exact List.map_congr_left fun group _ => first group
  refine ⟨groups.map put, ?_, ?_, ?_, ?_⟩
  · rw [grouped.advance_old present, mapM_ok_iff, List.forall₂_map_right_iff, List.forall₂_same]
    intro group member
    by_cases same : group.1 = key row
    · have held : group.2 = state := by
        have known := grouped.folded group member
        rw [same, folded] at known
        exact (Except.ok.inj known).symm
      simp [put, same, held, stepped, Except.map]
    · simp [put, same]
  · rw [keys]
    exact grouped.distinct
  · intro sought
    rw [keys, grouped.listed, List.map_append, List.mem_append]
    refine ⟨Or.inl, fun either => either.elim id fun own => ?_⟩
    rw [List.mem_singleton.mp own]
    exact present
  · intro group member
    obtain ⟨before, listed, rfl⟩ := List.mem_map.mp member
    by_cases same : before.1 = key row
    · simp only [put, if_pos same]
      rw [same, foldKey_append_self, folded]
      exact stepped
    · simp only [put, if_neg same]
      rw [foldKey_append_other (Ne.symm same)]
      exact grouped.folded before listed

theorem advance_fails
    {row : Row}
    {state : State}
    {failure : Failure}
    (present : key row ∈ rows.map key)
    (folded : foldKey start step key rows (key row) = .ok state)
    (stepped : step state row = .error failure) :
    ∃ other, advance start step key groups row = .error other := by
  rw [grouped.advance_old present]
  obtain ⟨group, member, same⟩ := List.mem_map.mp ((grouped.listed _).mpr present)
  have held := grouped.folded group member
  rw [same, folded] at held
  cases ran : groups.mapM fun group =>
      if group.1 = key row then (step group.2 row).map fun state => (group.1, state)
      else .ok group with
  | error other => exact ⟨other, rfl⟩
  | ok later =>
      obtain ⟨target, _, made⟩ := made_of_mapM ran member
      rw [if_pos same, ← Except.ok.inj held, stepped] at made
      cases made

end Grouped

theorem foldGroups_cases (rows : List Row) :
    (∃ groups : List (Key × State),
      foldGroups start step key rows = .ok groups ∧ Grouped start step key rows groups) ∨
    ∃ (failure : Failure) (row : Row) (other : Failure),
      foldGroups start step key rows = .error failure ∧ row ∈ rows ∧
        foldKey start step key rows (key row) = .error other := by
  induction rows using List.reverseRecOn with
  | nil => exact Or.inl ⟨[], rfl, List.nodup_nil, fun _ => Iff.rfl, nofun⟩
  | append_singleton rows row inductionHypothesis =>
      have split :
          foldGroups start step key (rows ++ [row]) =
            (foldGroups start step key rows).bind fun groups =>
              advance start step key groups row := by
        have one (groups : List (Key × State)) :
            [row].foldlM (advance start step key) groups = advance start step key groups row := by
          rw [List.foldlM_cons]
          cases advance start step key groups row <;> rfl
        rw [foldGroups, List.foldlM_append, funext one]
        rfl
      rcases inductionHypothesis with
        ⟨groups, ran, grouped⟩ | ⟨failure, earlier, other, ran, member, failed⟩
      · rw [split, ran]
        by_cases present : key row ∈ rows.map key
        · obtain ⟨group, listed, same⟩ := List.mem_map.mp ((grouped.listed _).mpr present)
          have folded := grouped.folded group listed
          rw [same] at folded
          cases stepped : step group.2 row with
          | ok next =>
              obtain ⟨later, advanced, held⟩ := grouped.append_old present folded stepped
              exact Or.inl ⟨later, advanced, held⟩
          | error failure =>
              obtain ⟨other, advanced⟩ := grouped.advance_fails present folded stepped
              refine Or.inr ⟨other, row, failure, advanced, by simp, ?_⟩
              rw [foldKey_append_self, folded]
              exact stepped
        · cases stepped : step start row with
          | ok state =>
              refine Or.inl ⟨_, ?_, grouped.append_new present stepped⟩
              exact (grouped.advance_new present).trans (by rw [stepped]; rfl)
          | error failure =>
              refine Or.inr ⟨failure, row, failure, ?_, by simp, ?_⟩
              · exact (grouped.advance_new present).trans (by rw [stepped]; rfl)
              · rw [foldKey_append_self, foldKey_new present]
                exact stepped
      · refine Or.inr ⟨failure, earlier, other, by rw [split, ran]; rfl, by simp [member], ?_⟩
        by_cases same : key row = key earlier
        · rw [← same, foldKey_append_self, same, failed]
          rfl
        · rw [foldKey_append_other same]
          exact failed

theorem Grouped.nodup (grouped : Grouped start step key rows groups) : groups.Nodup :=
  List.Nodup.of_map _ grouped.distinct

/-- A group exists where a row falls into it. -/
theorem Grouped.mem_iff
    (grouped : Grouped start step key rows groups)
    {sought : Key}
    {state : State} :
    (sought, state) ∈ groups ↔
      sought ∈ rows.map key ∧ foldKey start step key rows sought = .ok state := by
  constructor
  · exact fun member =>
      ⟨(grouped.listed sought).mp (List.mem_map_of_mem member), grouped.folded _ member⟩
  · rintro ⟨present, folded⟩
    obtain ⟨group, member, rfl⟩ := List.mem_map.mp ((grouped.listed sought).mpr present)
    rw [grouped.folded group member] at folded
    rw [← Except.ok.inj folded]
    exact member

/-- Mixing the rows otherwise gives the same groups, or fails likewise. -/
theorem foldGroups_together
    (perm : rows.Perm others)
    (each :
      ∀ sought,
        Together Eq (foldKey start step key rows sought) (foldKey start step key others sought)) :
    Together List.Perm (foldGroups start step key rows) (foldGroups start step key others) := by
  rcases @foldGroups_cases _ _ _ _ _ start step key rows with
    ⟨groups, ran, grouped⟩ | ⟨failure, row, error, ran, member, failed⟩
  · rcases @foldGroups_cases _ _ _ _ _ start step key others with
      ⟨moved, other, regrouped⟩ | ⟨failure, row, error, other, member, failed⟩
    · rw [ran, other]
      refine (List.perm_ext_iff_of_nodup grouped.nodup regrouped.nodup).mpr ?_
      rintro ⟨sought, state⟩
      have same := each sought
      rw [grouped.mem_iff, regrouped.mem_iff, (perm.map key).mem_iff]
      refine and_congr_right fun _ => ?_
      cases left : foldKey start step key rows sought with
      | error failure =>
          cases right : foldKey start step key others sought with
          | error failure => exact iff_of_false nofun nofun
          | ok found => rw [left, right] at same; exact same.elim
      | ok found =>
          cases right : foldKey start step key others sought with
          | error failure => rw [left, right] at same; exact same.elim
          | ok state =>
              rw [left, right] at same
              rw [show found = state from same]
    · have listed := (perm.map key).mem_iff.mpr (List.mem_map_of_mem (f := key) member)
      obtain ⟨group, inside, same⟩ := List.mem_map.mp ((grouped.listed _).mpr listed)
      have together := each (key row)
      rw [failed, ← same, grouped.folded group inside] at together
      exact together.elim
  · rcases @foldGroups_cases _ _ _ _ _ start step key others with
      ⟨moved, other, regrouped⟩ | ⟨failure, row, error, other, member, failed⟩
    · have listed := (perm.map key).mem_iff.mp (List.mem_map_of_mem (f := key) member)
      obtain ⟨group, inside, same⟩ := List.mem_map.mp ((regrouped.listed _).mpr listed)
      have together := each (key row)
      rw [failed, ← same, regrouped.folded group inside] at together
      exact together.elim
    · rw [ran, other]
      trivial

end KeyedFolds
