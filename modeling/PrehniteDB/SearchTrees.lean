import Mathlib.Data.List.Basic
import Mathlib.Logic.Function.Basic
import Mathlib.Order.WithBot

/-!
# Rows of subtrees

A search tree keeps its cells in order and splits them among subtrees side by side,
with a bound between each two that the keys before it stay below.
-/

namespace SearchTrees

/-- A place among the keys, before them all or behind them all. -/
abbrev Bound (Key : Type) := WithBot (WithTop Key)

/-- The place just before a key. -/
def mark {Key : Type} (key : Key) : Bound Key := ((key : WithTop Key) : WithBot (WithTop Key))

variable {Key Number Cell Value : Type} [LinearOrder Key]

section Bounds

variable {key other : Key}

@[simp]
theorem mark_le_mark : mark key ≤ mark other ↔ key ≤ other := by
  rw [mark, mark, WithBot.coe_le_coe, WithTop.coe_le_coe]

@[simp]
theorem mark_lt_mark : mark key < mark other ↔ key < other := by
  rw [mark, mark, WithBot.coe_lt_coe, WithTop.coe_lt_coe]

theorem mark_lt_top : mark key < ⊤ := by
  rw [mark, ← WithBot.coe_top, WithBot.coe_lt_coe]
  exact WithTop.coe_lt_top key

end Bounds

/-! ## Cells in order -/

/-- The cells ascend and lie between the bounds. -/
structure Ordered (keyOf : Cell → Key) (low high : Bound Key) (cells : List Cell) : Prop where
  ascending : cells.Pairwise fun left right => keyOf left < keyOf right
  within : ∀ cell ∈ cells, low ≤ mark (keyOf cell) ∧ mark (keyOf cell) < high

section Ordered

variable {keyOf : Cell → Key} {low middle high : Bound Key} {cells others : List Cell}

theorem Ordered.append
    (first : Ordered keyOf low middle cells)
    (second : Ordered keyOf middle high others)
    (lower : low ≤ middle)
    (upper : middle ≤ high) :
    Ordered keyOf low high (cells ++ others) where
  ascending := by
    refine List.pairwise_append.mpr ⟨first.ascending, second.ascending, ?_⟩
    intro left inLeft right inRight
    exact mark_lt_mark.mp
      (lt_of_lt_of_le (first.within left inLeft).2 (second.within right inRight).1)
  within := by
    intro cell member
    rcases List.mem_append.mp member with before | behind
    · exact (first.within cell before).imp_right (lt_of_lt_of_le · upper)
    · exact (second.within cell behind).imp_left (le_trans lower)

theorem Ordered.cut
    {cell : Cell}
    (ordered : Ordered keyOf low high (cells ++ cell :: others)) :
    Ordered keyOf low (mark (keyOf cell)) cells ∧
      Ordered keyOf (mark (keyOf cell)) high (cell :: others) := by
  obtain ⟨first, second, across⟩ := List.pairwise_append.mp ordered.ascending
  refine ⟨⟨first, fun other member => ⟨(ordered.within other (by simp [member])).1, ?_⟩⟩,
    second, fun other member => ⟨?_, (ordered.within other (by simp [member])).2⟩⟩
  · exact mark_lt_mark.mpr (across other member cell List.mem_cons_self)
  · rw [mark_le_mark]
    rcases List.mem_cons.mp member with rfl | later
    · exact le_refl _
    · exact ((List.pairwise_cons.mp second).1 other later).le

end Ordered

/-! ## What cells say of a key -/

/-- The value of the cell with the key. -/
def contentsOf
    (keyOf : Cell → Key)
    (valueOf : Cell → Value)
    (cells : List Cell)
    (key : Key) : Option Value :=
  (cells.find? fun cell => keyOf cell = key).map valueOf

/-- The cells before a key, the one that has it, if any, and the cells behind it. -/
structure Around
    (keyOf : Cell → Key)
    (key : Key)
    (cells before : List Cell)
    (here : Option Cell)
    (behind : List Cell) : Prop where
  divided : cells = before ++ (here.toList ++ behind)
  before_lt : ∀ cell ∈ before, keyOf cell < key
  here_eq : ∀ cell ∈ here, keyOf cell = key
  lt_behind : ∀ cell ∈ behind, key < keyOf cell

section Contents

variable {keyOf : Cell → Key} {valueOf : Cell → Value} {key : Key} {low high : Bound Key}
  {cells before behind result : List Cell} {here now : Option Cell}

theorem contentsOf_append :
    contentsOf keyOf valueOf (cells ++ result) key =
      (contentsOf keyOf valueOf cells key).or (contentsOf keyOf valueOf result key) := by
  rw [contentsOf, List.find?_append, Option.map_or]
  rfl

theorem contentsOf_absent (absent : ∀ cell ∈ cells, keyOf cell ≠ key) :
    contentsOf keyOf valueOf cells key = none := by
  rw [contentsOf, List.find?_eq_none.mpr (by simpa using absent), Option.map_none]

/-- Cells of other keys beside do not matter. -/
theorem contentsOf_within (apart : ∀ cell ∈ before ++ behind, keyOf cell ≠ key) :
    contentsOf keyOf valueOf (before ++ (cells ++ behind)) key =
      contentsOf keyOf valueOf cells key := by
  rw [contentsOf_append, contentsOf_append,
    contentsOf_absent fun cell member => apart cell (List.mem_append_left _ member),
    contentsOf_absent fun cell member => apart cell (List.mem_append_right _ member),
    Option.none_or, Option.or_none]

theorem contentsOf_beside
    {value : Option Value}
    (changed : contentsOf keyOf valueOf result =
      Function.update (contentsOf keyOf valueOf cells) key value)
    (apart : ∀ cell ∈ before ++ behind, keyOf cell ≠ key) :
    contentsOf keyOf valueOf (before ++ (result ++ behind)) =
      Function.update (contentsOf keyOf valueOf (before ++ (cells ++ behind))) key value := by
  funext other
  by_cases same : other = key
  · subst same
    rw [contentsOf_within apart, changed, Function.update_self, Function.update_self]
  · simp only [contentsOf_append, changed, Function.update_of_ne same]

theorem Around.apart (around : Around keyOf key cells before here behind) :
    ∀ cell ∈ before ++ behind, keyOf cell ≠ key := by
  intro cell member
  rcases List.mem_append.mp member with first | last
  · exact (around.before_lt cell first).ne
  · exact (around.lt_behind cell last).ne'

theorem Around.contentsOf_eq (around : Around keyOf key cells before here behind) :
    contentsOf keyOf valueOf cells key = here.map valueOf := by
  rw [around.divided, contentsOf_within around.apart]
  cases here with
  | none => rfl
  | some cell => simp [contentsOf, around.here_eq cell rfl]

/-- Another cell of the key, or none, takes the place. -/
theorem Around.replaced
    (around : Around keyOf key cells before here behind)
    (keyed : ∀ cell ∈ now, keyOf cell = key) :
    contentsOf keyOf valueOf (before ++ (now.toList ++ behind)) =
      Function.update (contentsOf keyOf valueOf cells) key (now.map valueOf) := by
  rw [around.divided]
  refine contentsOf_beside ?_ around.apart
  have single : ∀ {found : Option Cell}, (∀ cell ∈ found, keyOf cell = key) → ∀ other,
      contentsOf keyOf valueOf found.toList other =
        if other = key then found.map valueOf else none := by
    intro found keyed other
    cases found with
    | none => simp [contentsOf]
    | some cell =>
        obtain rfl := keyed cell rfl
        by_cases same : other = keyOf cell
        · simp [contentsOf, same]
        · simp [contentsOf, same, Ne.symm same]
  funext other
  rw [single keyed, Function.update_apply, single around.here_eq]
  split <;> rfl

theorem Around.ordered
    (around : Around keyOf key cells before here behind)
    (keyed : ∀ cell ∈ now, keyOf cell = key)
    (ordered : Ordered keyOf low high cells)
    (above : low ≤ mark key)
    (below : mark key < high) :
    Ordered keyOf low high (before ++ (now.toList ++ behind)) := by
  have sublist : (before ++ behind).Sublist cells := by
    rw [around.divided]
    exact (List.Sublist.refl before).append (List.sublist_append_right _ _)
  obtain ⟨first, last, apart⟩ := List.pairwise_append.mp (ordered.ascending.sublist sublist)
  have old : ∀ cell ∈ before ++ behind, low ≤ mark (keyOf cell) ∧ mark (keyOf cell) < high :=
    fun cell member => ordered.within cell (sublist.subset member)
  cases now with
  | none => exact ⟨ordered.ascending.sublist sublist, old⟩
  | some cell =>
      obtain rfl := keyed cell rfl
      refine ⟨List.pairwise_append.mpr ⟨first, List.pairwise_cons.mpr ⟨around.lt_behind, last⟩, ?_⟩,
        fun other member => ?_⟩
      · intro left inLeft right inRight
        rcases List.mem_cons.mp inRight with rfl | later
        · exact around.before_lt left inLeft
        · exact apart left inLeft right later
      · by_cases new : other = cell
        · subst new
          exact ⟨above, below⟩
        · exact old other (by simpa [new] using member)

end Contents

/-! ## Rows -/

/-- The cells and the pages of a subtree between two bounds. -/
abbrev Part (Key Number Cell : Type) :=
  Number → Bound Key → Bound Key → List Cell → List Number → Prop

/-- Subtrees side by side; the key kept for one is its lower bound, but for the first of all. -/
inductive Row (part : Part Key Number Cell) :
    List (Key × Number) → Bound Key → Bound Key → List Cell → List Number → Prop where
  | nil {bound : Bound Key} : Row part [] bound bound [] []
  | cons
      {key : Key}
      {child : Number}
      {rest : List (Key × Number)}
      {low middle high : Bound Key}
      {cells others : List Cell}
      {pages more : List Number}
      (keyed : low = ⊥ ∨ low = mark key)
      (less : low < middle)
      (here : part child low middle cells pages)
      (behind : Row part rest middle high others more) :
      Row part ((key, child) :: rest) low high (cells ++ others) (pages ++ more)

section Row

variable {part : Part Key Number Cell} {entry : Key × Number} {entries others : List (Key × Number)}
  {low middle high : Bound Key} {cells later : List Cell} {pages more : List Number}

theorem Row.append
    (first : Row part entries low middle cells pages)
    (second : Row part others middle high later more) :
    Row part (entries ++ others) low high (cells ++ later) (pages ++ more) := by
  induction first with
  | nil => exact second
  | cons keyed less here behind inductionHypothesis =>
      rw [List.cons_append, List.append_assoc, List.append_assoc]
      exact .cons keyed less here (inductionHypothesis second)

theorem Row.split
    (row : Row part (entries ++ others) low high cells pages) :
    ∃ middle before behind pagesBefore pagesBehind,
      cells = before ++ behind ∧ pages = pagesBefore ++ pagesBehind ∧
        Row part entries low middle before pagesBefore ∧
        Row part others middle high behind pagesBehind := by
  induction entries generalizing low cells pages with
  | nil => exact ⟨low, [], cells, [], pages, rfl, rfl, .nil, row⟩
  | cons entry entries inductionHypothesis =>
      rw [List.cons_append] at row
      cases row with
      | cons keyed less here behind =>
          obtain ⟨middle, before, later, pagesBefore, pagesLater, rfl, rfl, first, second⟩ :=
            inductionHypothesis behind
          refine ⟨middle, _, later, _, pagesLater, ?_, ?_, .cons keyed less here first, second⟩
          · rw [List.append_assoc]
          · rw [List.append_assoc]

theorem Row.uncons
    (row : Row part (entry :: entries) low high cells pages) :
    ∃ middle before behind pagesBefore pagesBehind,
      cells = before ++ behind ∧ pages = pagesBefore ++ pagesBehind ∧
        (low = ⊥ ∨ low = mark entry.1) ∧ low < middle ∧
        part entry.2 low middle before pagesBefore ∧
        Row part entries middle high behind pagesBehind := by
  cases row with
  | cons keyed less here behind => exact ⟨_, _, _, _, _, rfl, rfl, keyed, less, here, behind⟩

theorem Row.single
    (entry : Key × Number)
    (part_ : part entry.2 low high cells pages)
    (keyed : low = ⊥ ∨ low = mark entry.1)
    (less : low < high) :
    Row part [entry] low high cells pages := by
  have row := Row.cons keyed less part_ .nil
  rwa [List.append_nil, List.append_nil] at row

theorem Row.le (row : Row part entries low high cells pages) : low ≤ high := by
  induction row with
  | nil => exact le_refl _
  | cons keyed less here behind inductionHypothesis => exact le_trans less.le inductionHypothesis

theorem Row.lt
    (row : Row part entries low high cells pages)
    (nonempty : entries ≠ []) :
    low < high := by
  cases row with
  | nil => exact absurd rfl nonempty
  | cons keyed less here behind => exact lt_of_lt_of_le less behind.le

theorem Row.keys
    (row : Row part entries low high cells pages)
    (above : ⊥ < low) :
    Ordered Prod.fst low high entries := by
  induction row with
  | nil => exact ⟨.nil, fun _ member => by cases member⟩
  | @cons key child rest low middle high cells others pages more keyed less here behind
      inductionHypothesis =>
      obtain rfl := keyed.resolve_left above.ne'
      have first : Ordered Prod.fst (mark key) middle [(key, child)] :=
        ⟨List.pairwise_singleton _ _, by simpa using less⟩
      exact first.append (inductionHypothesis (lt_trans above less)) less.le behind.le

/-- The key of the first subtree aside, the keys ascend. -/
theorem Row.ascending
    (row : Row part entries low high cells pages) :
    entries.tail.Pairwise fun left right => left.1 < right.1 := by
  cases row with
  | nil => exact .nil
  | cons keyed less here behind => exact (behind.keys (lt_of_le_of_lt bot_le less)).ascending

theorem Row.mono
    {other : Part Key Number Cell}
    (row : Row part entries low high cells pages)
    (changes : ∀ child low high cells inner, inner ⊆ pages → part child low high cells inner →
      other child low high cells inner) :
    Row other entries low high cells pages := by
  induction row with
  | nil => exact .nil
  | cons keyed less here behind inductionHypothesis =>
      refine .cons keyed less (changes _ _ _ _ _ (List.subset_append_left _ _) here)
        (inductionHypothesis fun child low high cells inner within => ?_)
      exact changes child low high cells inner (List.subset_append_of_subset_right _ within)

theorem Row.ordered
    {keyOf : Cell → Key}
    (row : Row part entries low high cells pages)
    (each : ∀ child low high cells pages, part child low high cells pages →
      Ordered keyOf low high cells) :
    Ordered keyOf low high cells := by
  induction row with
  | nil => exact ⟨.nil, fun _ member => by cases member⟩
  | cons keyed less here behind inductionHypothesis =>
      exact (each _ _ _ _ _ here).append inductionHypothesis less.le behind.le

end Row

/-! ## The subtree of a key -/

/-- The position of the last key that is not above, the first one aside. -/
def Routes (entries : List (Key × Number)) (key : Key) (child : Nat) : Prop :=
  ∀ position, position ≤ child ↔
    position = 0 ∨ ∃ entry, entries[position]? = some entry ∧ entry.1 ≤ key

/-- The subtree that a key belongs to, and what is beside it. -/
structure Route (part : Part Key Number Cell) (key : Key) (low high : Bound Key) where
  before : List (Key × Number)
  entry : Key × Number
  behind : List (Key × Number)
  left : Bound Key
  right : Bound Key
  cellsBefore : List Cell
  inner : List Cell
  cellsBehind : List Cell
  pagesBefore : List Number
  innerPages : List Number
  pagesBehind : List Number
  rowBefore : Row part before low left cellsBefore pagesBefore
  here : part entry.2 left right inner innerPages
  rowBehind : Row part behind right high cellsBehind pagesBehind
  keyed : left = ⊥ ∨ left = mark entry.1
  above : left ≤ mark key
  below : mark key < right

section Route

variable {part : Part Key Number Cell} {low high : Bound Key} {key : Key}
  (route : Route part key low high)

def Route.entries : List (Key × Number) := route.before ++ route.entry :: route.behind

def Route.cells : List Cell := route.cellsBefore ++ (route.inner ++ route.cellsBehind)

def Route.pages : List Number := route.pagesBefore ++ (route.innerPages ++ route.pagesBehind)

theorem Route.entry_at : route.entries[route.before.length]? = some route.entry := by
  rw [Route.entries, List.getElem?_append_right (Nat.le_refl _), Nat.sub_self,
    List.getElem?_cons_zero]

end Route

theorem Row.routes
    {part : Part Key Number Cell}
    {entries : List (Key × Number)}
    {low high : Bound Key}
    {cells : List Cell}
    {pages : List Number}
    {key : Key}
    {position : Nat}
    (row : Row part entries low high cells pages)
    (nonempty : entries ≠ [])
    (above : low ≤ mark key)
    (below : mark key < high)
    (routes : Routes entries key position) :
    ∃ route : Route part key low high, entries = route.entries ∧ cells = route.cells ∧
      pages = route.pages ∧ route.before.length = position := by
  have inside : position < entries.length := by
    rcases (routes position).mp (Nat.le_refl position) with zero | ⟨entry, found, -⟩
    · rw [zero]
      exact List.length_pos_iff.mpr nonempty
    · exact (List.getElem?_eq_some_iff.mp found).1
  have divided : entries =
      entries.take position ++ entries[position] :: entries.drop (position + 1) := by
    rw [← List.drop_eq_getElem_cons inside, List.take_append_drop]
  rw [divided] at row
  obtain ⟨left, _, _, _, _, rfl, rfl, before, from_⟩ := row.split
  obtain ⟨right, _, _, _, _, rfl, rfl, keyed, less, here, behind⟩ := from_.uncons
  refine ⟨⟨_, entries[position], _, left, right, _, _, _, _, _, _, before, here, behind, keyed, ?_,
    ?_⟩, divided, rfl, rfl, List.length_take_of_le inside.le⟩
  · -- the separator before the subtree is its bound
    rcases (routes position).mp (Nat.le_refl position) with zero | ⟨entry, found, notAbove⟩
    · subst zero
      cases before
      exact above
    · obtain ⟨_, rfl⟩ := List.getElem?_eq_some_iff.mp found
      rcases keyed with rfl | rfl
      · exact bot_le
      · exact mark_le_mark.mpr notAbove
  · -- the separator behind it is above the key
    have stops : ¬(position + 1 = 0 ∨ ∃ entry, entries[position + 1]? = some entry ∧
        entry.1 ≤ key) :=
      fun either => Nat.not_succ_le_self position ((routes (position + 1)).mpr either)
    cases last : entries.drop (position + 1) with
    | nil =>
        rw [last] at behind
        cases behind
        exact below
    | cons next rest =>
        have found : entries[position + 1]? = some next := by
          rw [← List.head?_drop, last, List.head?_cons]
        rw [last] at behind
        obtain ⟨_, _, _, _, _, -, -, marked, -⟩ := behind.uncons
        rw [marked.resolve_left (lt_of_le_of_lt bot_le less).ne', mark_lt_mark]
        exact not_le.mp fun notAbove => stops (.inr ⟨next, found, notAbove⟩)

end SearchTrees
