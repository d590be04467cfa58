import PrehniteDB.TreePages

namespace PrehniteDB

/-!
# Searching a tree

A descent ends at the leaf a key belongs to.  Where the cells of that leaf change and
nothing else does, the tree is the same one with other cells.
-/

open PagedStore SearchTrees
open SlottedPage hiding orPanic built

namespace BTree

/-! ## Searching a leaf -/

/-- The place of a key, as `binary_search_by` tells it. -/
def placeOf (here : Option Cell) (before : List Cell) : Except Nat Nat :=
  if here.isSome then .ok before.length else .error before.length

section Leaf

variable {cells before behind : List Cell} {here : Option Cell} {key : Key} {page : Page}

theorem around_of_leafSlot
    {found : Except Nat Nat}
    (ascending : cells.Pairwise fun left right => left.key < right.key)
    (slot : LeafSlot (cells.map Cell.entry) key found) :
    ∃ before here behind, Around Cell.key key cells before here behind ∧
      found = placeOf here before := by
  have less := List.pairwise_iff_getElem.mp ascending
  cases found with
  | ok position =>
      obtain ⟨stored, there⟩ := slot
      rw [List.getElem?_map, Option.map_eq_some_iff] at there
      obtain ⟨cell, there, same⟩ := there
      obtain ⟨inside, rfl⟩ := List.getElem?_eq_some_iff.mp there
      obtain rfl : cells[position].key = key := congrArg Prod.fst same
      refine ⟨cells.take position, some cells[position], cells.drop (position + 1), ⟨?_, ?_, ?_, ?_⟩,
        ?_⟩
      · rw [Option.toList_some, List.singleton_append, ← List.drop_eq_getElem_cons inside,
          List.take_append_drop]
      · intro cell member
        obtain ⟨index, within, rfl⟩ := List.mem_take_iff_getElem.mp member
        exact less index position (by omega) inside (by omega)
      · simp
      · intro cell member
        obtain ⟨index, within, rfl⟩ := List.mem_drop_iff_getElem.mp member
        have inside' : position + 1 + index < cells.length := by omega
        exact less position _ inside inside' (by omega)
      · rw [placeOf, Option.isSome_some, if_pos rfl, List.length_take_of_le inside.le]
  | error position =>
      obtain ⟨within, compares⟩ := slot
      rw [List.length_map] at within
      have entry_at : ∀ {index : Nat} (inside : index < cells.length),
          (cells.map Cell.entry)[index]? = some cells[index].entry := by
        intro index inside
        rw [List.getElem?_map, List.getElem?_eq_getElem inside, Option.map_some]
      refine ⟨cells.take position, none, cells.drop position, ⟨?_, ?_, by simp, ?_⟩, ?_⟩
      · rw [Option.toList_none, List.nil_append, List.take_append_drop]
      · intro cell member
        obtain ⟨index, inside, rfl⟩ := List.mem_take_iff_getElem.mp member
        exact (compares index _ (entry_at (by omega))).1 (by omega)
      · intro cell member
        obtain ⟨index, inside, rfl⟩ := List.mem_drop_iff_getElem.mp member
        exact (compares (position + index) _ (entry_at (by omega))).2 (by omega)
      · rw [placeOf, Option.isSome_none, if_neg (by decide), List.length_take_of_le within]

theorem LeafPage.find
    (leaf : LeafPage page (cells.map Cell.entry))
    (ascending : cells.Pairwise fun left right => left.key < right.key)
    (key : Key) :
    ∃ before here behind, Around Cell.key key cells before here behind ∧
      findLeafSlot page key = some (placeOf here before) ∧
      searchEntries (cells.map Cell.entry) key = some (placeOf here before) := by
  obtain ⟨found, searched, slot⟩ := leaf.carries.findLeafSlot
    (List.pairwise_map.mpr ascending) key
  obtain ⟨before, here, behind, around, rfl⟩ := around_of_leafSlot ascending slot
  refine ⟨before, here, behind, around, searched, ?_⟩
  rw [← searched, searchEntries, findLeafSlot, leaf.carries.count]
  apply BinarySearch.search_congr
  intro position inside
  have found := List.getElem?_eq_getElem inside
  rw [found, (leaf.carries.leafEntry found).1]
  rfl

theorem entry_at
    {old : Cell}
    (around : Around Cell.key key cells before (some old) behind) :
    (cells.map Cell.entry)[before.length]? = some old.entry := by
  rw [around.divided, List.map_append, List.getElem?_append_right (by simp)]
  simp

end Leaf

/-! ## The subtree of a key -/

section Route

variable {images later : UInt32 → Page} {depth : Nat} {low high : Bound Key} {cells : List Cell}
  {pages : List UInt32} {key : Key}

/-- Cells beside the subtree of a key have other keys. -/
theorem Route.apart
    (route : Route (Node images depth) key low high) :
    ∀ cell ∈ route.cellsBefore ++ route.cellsBehind, cell.key ≠ key := by
  have before := route.rowBefore.ordered fun _ _ _ _ _ here => here.ordered
  have behind := route.rowBehind.ordered fun _ _ _ _ _ here => here.ordered
  intro cell member
  rcases List.mem_append.mp member with first | last
  · exact (mark_lt_mark.mp (lt_of_lt_of_le (before.within cell first).2 route.above)).ne
  · exact (mark_lt_mark.mp (lt_of_lt_of_le route.below (behind.within cell last).1)).ne'

/-- `find_child` goes to the subtree of the key. -/
theorem InnerNode.route
    {page : Page}
    {entries : List InternalEntry}
    (inner : InnerNode page entries)
    (row : Row (Node images depth) entries low high cells pages)
    (above : low ≤ mark key)
    (below : mark key < high) :
    ∃ route : Route (Node images depth) key low high,
      entries = route.entries ∧ cells = route.cells ∧ pages = route.pages ∧
        findChild page key = some route.before.length := by
  obtain ⟨position, found, routes⟩ := inner.carries.findChild row.ascending key
  obtain ⟨route, divided, cells, pages, rfl⟩ := row.routes inner.nonempty above below routes
  exact ⟨route, divided, cells, pages, found⟩

/-- Other subtrees in the place of the one of the key. -/
theorem Route.plug
    (route : Route (Node images depth) key low high)
    {middle : List InternalEntry}
    (row : Row (Node later depth) middle route.left route.right cells pages)
    (same : Same (route.pagesBefore ++ route.pagesBehind) images later) :
    Row (Node later depth) (route.before ++ (middle ++ route.behind)) low high
      (route.cellsBefore ++ (cells ++ route.cellsBehind))
      (route.pagesBefore ++ (pages ++ route.pagesBehind)) :=
  (Row.congr route.rowBefore same.left).append (row.append (Row.congr route.rowBehind same.right))

/-- What a computation does to the subtree of a key, it does to the row of the node above. -/
theorem Route.framed
    {State Result : Type}
    {store : Pages State}
    {laws : Laws Halt.isForeign store 0}
    {state : State}
    {ask : Ask State Halt Result}
    {no : UInt32}
    {chain : List UInt32}
    {frame : UInt32 → Option Page}
    {middle : Result → List InternalEntry}
    {post : Result → List Cell → Prop}
    (route : Route (Node images depth) key low high)
    (owns : Owns laws state (chain ++ no :: route.pages) frame images)
    (ensures : ∀ frame, Owns laws state (chain ++ route.innerPages) frame images →
      Ensures Halt.isForeign ask state fun result => Holds laws frame fun later pages =>
        ∃ cells, Row (Node later depth) (middle result) route.left route.right cells pages ∧
          post result cells) :
    Ensures Halt.isForeign ask state fun result => Holds laws frame fun later pages =>
      ∃ cells below, pages = no :: below ∧ later no = images no ∧
        Row (Node later depth) (route.before ++ (middle result ++ route.behind)) low high
          (route.cellsBefore ++ (cells ++ route.cellsBehind)) below ∧ post result cells := by
  have grouped : (chain ++ no :: route.pages).Perm
      ((chain ++ route.innerPages) ++ (no :: (route.pagesBefore ++ route.pagesBehind))) := by
    rw [Route.pages]
    grind
  refine (Ensures.framed (owns.perm grouped) ensures).mono ?_
  rintro result next ⟨later, _, ownsNext, inner, rfl, same, cells, row, holds⟩
  obtain ⟨here, outside⟩ := List.forall_mem_cons.mp same
  exact ⟨later, _, ownsNext.perm (by grind), cells, _, rfl, here, Route.plug route row outside,
    holds⟩

end Route

/-! ## The leaf of a key -/

/-- The leaf a key belongs to, and the tree around it. -/
structure Focus
    (images : UInt32 → Page)
    (depth : Nat)
    (no : UInt32)
    (low high : Bound Key)
    (key : Key)
    (leafNo : UInt32) where
  left : Bound Key
  right : Bound Key
  cells : List Cell
  before : List Cell
  behind : List Cell
  outer : List UInt32
  leaf : LeafNode images leafNo left right cells
  above : left ≤ mark key
  below : mark key < right
  apart : ∀ cell ∈ before ++ behind, cell.key ≠ key
  replace : ∀ (later : UInt32 → Page) (cells : List Cell),
    Same outer images later → LeafNode later leafNo left right cells →
    ∃ pages : List UInt32, pages.Perm (leafNo :: (chainsOf cells ++ outer)) ∧
      Node later depth no low high (before ++ (cells ++ behind)) pages

section Descent

variable {State : Type} {store : Pages State} {laws : Laws Halt.isForeign store 0} {state : State}
  {held pages : List UInt32} {frame : UInt32 → Option Page} {images later : UInt32 → Page}
  {depth steps : Nat} {no leafNo : UInt32} {low high : Bound Key} {cells : List Cell} {key : Key}

/-- The leaf is the whole tree. -/
def Focus.ofLeaf
    (leaf : LeafNode images no low high cells)
    (above : low ≤ mark key)
    (below : mark key < high) :
    Focus images 0 no low high key no where
  left := low
  right := high
  cells := cells
  before := []
  behind := []
  outer := []
  leaf := leaf
  above := above
  below := below
  apart := fun _ member => by cases member
  replace := fun _ cells _ changed =>
    ⟨no :: chainsOf cells, by rw [List.append_nil], by simp, by simpa using changed⟩

/-- The leaf of a key in the subtree of the key. -/
def Focus.ofRoute
    (route : Route (Node images depth) key low high)
    (inner : InnerNode (images no) route.entries)
    (focus : Focus images depth route.entry.2 route.left route.right key leafNo) :
    Focus images (depth + 1) no low high key leafNo where
  left := focus.left
  right := focus.right
  cells := focus.cells
  before := route.cellsBefore ++ focus.before
  behind := focus.behind ++ route.cellsBehind
  outer := no :: (route.pagesBefore ++ (focus.outer ++ route.pagesBehind))
  leaf := focus.leaf
  above := focus.above
  below := focus.below
  apart := by
    have outside := Route.apart route
    have inside := focus.apart
    grind
  replace := by
    intro later cells same changed
    obtain ⟨pages, perm, node⟩ := focus.replace later cells
      (fun other member => same other (by simp [member])) changed
    have row := Route.plug route (Row.single route.entry node route.keyed node.less)
      fun other member => same other (by grind)
    refine ⟨no :: (route.pagesBefore ++ (pages ++ route.pagesBehind)), by grind, route.entries, _,
      rfl, same no List.mem_cons_self ▸ inner, ?_⟩
    simpa only [Route.entries, List.append_assoc, List.singleton_append] using row

/-- A descent by a key ends at its leaf. -/
theorem descend_spec
    (node : Node images depth no low high cells pages)
    (owns : Owns laws state held frame images)
    (within : pages ⊆ held)
    (above : low ≤ mark key)
    (below : mark key < high)
    (enough : depth < steps) :
    Ensures Halt.isForeign (descend store key steps no) state fun result next =>
      Owns laws next held frame images ∧ result.2 = images result.1 ∧
        ∃ focus : Focus images depth no low high key result.1,
          cells = focus.before ++ (focus.cells ++ focus.behind) ∧
            pages.Perm (result.1 :: (chainsOf focus.cells ++ focus.outer)) := by
  induction depth generalizing state no low high cells pages steps with
  | zero =>
      obtain ⟨steps, rfl⟩ := Nat.exists_eq_add_one.mpr enough
      obtain ⟨rfl, leaf⟩ := node
      apply (owns.readPage (within List.mem_cons_self)).bind
      rintro _ next ⟨rfl, ownsNext⟩
      rw [leaf.leaf, if_pos rfl]
      exact ⟨ownsNext, rfl, .ofLeaf leaf above below, by simp [Focus.ofLeaf],
        by simp [Focus.ofLeaf]⟩
  | succ depth inductionHypothesis =>
      obtain ⟨steps, rfl⟩ := Nat.exists_eq_add_one.mpr (Nat.zero_lt_of_lt enough)
      obtain ⟨entries, below_, rfl, inner, row⟩ := node
      apply (owns.readPage (within List.mem_cons_self)).bind
      rintro _ next ⟨rfl, ownsNext⟩
      obtain ⟨route, rfl, rfl, rfl, found⟩ := inner.route row above below
      rw [inner.notLeaf, if_neg (by decide)]
      apply orPanic_bind found
      apply orPanic_bind (inner.carries.internalEntry route.entry_at).2
      refine (inductionHypothesis route.here ownsNext ?_ route.above route.below
        (Nat.lt_of_succ_lt_succ enough)).mono ?_
      · intro other member
        apply within
        simp [Route.pages, member]
      · rintro result final ⟨ownsFinal, page, focus, divided, perm⟩
        refine ⟨ownsFinal, page, .ofRoute route inner focus, ?_, ?_⟩
        · simp [Route.cells, divided, Focus.ofRoute]
        · simp only [Route.pages, Focus.ofRoute]
          grind

/-- The bound of every loop down a tree suffices. -/
theorem reach_of
    (node : Node images depth no low high cells pages)
    (owns : Owns laws state held frame images)
    (within : pages ⊆ held)
    (nodup : pages.Nodup) :
    depth < REACH :=
  Nat.lt_trans node.depth_lt (length_lt_of_owns owns within nodup)

/-- A search answers what the map holds. -/
theorem search_spec
    {tree : BTree}
    (node : Node images depth tree.root ⊥ ⊤ cells pages)
    (owns : Owns laws state pages frame images)
    (key : Key) :
    Ensures Halt.isForeign (search store tree key) state fun answer next =>
      Owns laws next pages frame images ∧ answer = mapOf cells key := by
  have within := List.Subset.refl pages
  apply (descend_spec node owns within bot_le mark_lt_top
    (reach_of node owns within owns.nodup)).bind
  rintro ⟨leafNo, page⟩ next ⟨ownsNext, read, focus, rfl, perm⟩
  dsimp only at read focus perm
  subst read
  have carries := focus.leaf.carries
  obtain ⟨before, here, behind, around, slot, -⟩ :=
    focus.leaf.find focus.leaf.ordered.ascending key
  rw [mapOf, contentsOf_within focus.apart, around.contentsOf_eq]
  apply orPanic_bind slot
  cases here with
  | none => exact ⟨ownsNext, rfl⟩
  | some cell =>
      have member : cell ∈ focus.cells := by
        rw [around.divided]
        simp
      have chain : cell.chain.Sublist (leafNo :: (chainsOf focus.cells ++ focus.outer)) :=
        ((List.sublist_flatten_of_mem (List.mem_map_of_mem member)).trans
          (List.sublist_append_left _ _)).trans (List.sublist_cons_self _ _)
      apply orPanic_bind (carries.leafEntry (entry_at around)).2
      apply (unwrapValue_spec ownsNext (focus.leaf.spelled cell member).2
        (fun other inside => perm.mem_iff.mpr (chain.subset inside))
        ((perm.nodup_iff.mp owns.nodup).sublist chain)).bind
      rintro _ final ⟨rfl, ownsFinal⟩
      exact ⟨ownsFinal, rfl⟩

end Descent

end BTree

end PrehniteDB
