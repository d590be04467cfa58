import PrehniteDB.RootedInserts

namespace PrehniteDB

/-!
# Deleting from a tree

A cell leaves its leaf, a node is merged with a neighbour where both fit one page, and a
root with one child takes the child's page.
-/

open PagedStore SearchTrees
open SlottedPage hiding orPanic built storeNode insertInto

namespace BTree

section Store

variable {State : Type} {store : Pages State} {laws : Laws Halt.isForeign store 0}
  {state : State} {pages outer : List UInt32} {frame : UInt32 → Option Page}
  {images : UInt32 → Page} {depth steps : Nat} {no : UInt32} {low middle high : Bound Key}
  {tree : BTree} {key : Key} {cells others before behind : List Cell}

/-! ## One leaf changes -/

theorem sets_absent (absent : mapOf cells key = none) : Sets key none cells cells :=
  (Function.update_eq_self_iff.mpr absent.symm).symm

/-- The entry's overflow pages are given back, and the rest is written. -/
theorem removeEntry_spec
    {old : Cell}
    {link : UInt32}
    (around : Around Cell.key key cells before (some old) behind)
    (leaf : LeafNode images no low high cells)
    (owns : Owns laws state (no :: (chainsOf cells ++ outer)) frame images) :
    Ensures Halt.isForeign (removeEntry store no (cells.map Cell.entry) before.length link) state
      fun _ next => ∃ later,
        Owns laws next (no :: (chainsOf (before ++ behind) ++ outer)) frame later ∧
        LeafPage (later no) ((before ++ behind).map Cell.entry) ∧
        Same (chainsOf (before ++ behind) ++ outer) images later := by
  have there := entry_at around
  have fits := leaf.carries.fits
  have spells := leaf.spelled old (by simp [around.divided])
  rw [body_leaf] at fits
  obtain rfl : cells = before ++ old :: behind := around.divided
  have fitsRest : (((before ++ behind).map Cell.entry).map leafFootprint).sum ≤ USABLE := by
    simp only [List.map_append, List.map_cons, List.sum_append, List.sum_cons] at fits ⊢
    omega
  have erased : ((before ++ old :: behind).map Cell.entry).eraseIdx before.length =
      (before ++ behind).map Cell.entry := by
    simp [List.eraseIdx_append_of_length_le]
  have grouped : (no :: (chainsOf (before ++ old :: behind) ++ outer)).Perm
      (old.chain ++ (no :: (chainsOf (before ++ behind) ++ outer))) := by
    simp only [chainsOf_append, chainsOf_cons]
    grind
  apply orPanic_bind there
  apply (freeIfOverflow_spec (owns.perm grouped) spells.2).bind
  intro _ freed ownsFreed
  obtain ⟨page, built, made⟩ := buildLeaf_made link _ fitsRest
  rw [erased]
  apply built_bind built
  refine (ownsFreed.writePage page).mono ?_
  rintro _ next ⟨later, ownsNext, rfl, same⟩
  exact ⟨later, ownsNext, made, same⟩

/-- The way that changes one leaf, unless the tree has to be rebalanced. -/
theorem tryDeleteOptimistic_spec
    (node : Node images depth tree.root ⊥ ⊤ cells pages)
    (owns : Owns laws state pages frame images) :
    Ensures Halt.isForeign (tryDeleteOptimistic store tree key) state fun outcome next =>
      (outcome = none ∧ Owns laws next pages frame images) ∨
        (outcome = some (mapOf cells key).isSome ∧
          Holds laws frame (Rooted tree.root (Sets key none cells)) next) := by
  have within := List.Subset.refl pages
  have whole := node
  apply (descend_spec node owns within bot_le mark_lt_top
    (reach_of node owns within owns.nodup)).bind
  rintro ⟨leafNo, page⟩ descended ⟨ownsDescended, -, focus, rfl, perm⟩
  dsimp only at focus perm
  apply (ownsDescended.readPage (perm.mem_iff.mpr List.mem_cons_self)).bind
  rintro _ read ⟨rfl, ownsRead⟩
  rw [focus.leaf.leaf, if_pos rfl]
  apply orPanic_bind focus.leaf.carries.leafEntries
  split
  · exact .inl ⟨rfl, ownsRead⟩
  obtain ⟨before, here, behind, around, -, place⟩ :=
    focus.leaf.find focus.leaf.ordered.ascending key
  have known : mapOf (focus.before ++ (focus.cells ++ focus.behind)) key = here.map Cell.value := by
    rw [mapOf, contentsOf_within focus.apart, around.contentsOf_eq]
  apply orPanic_bind place
  rw [known]
  cases here with
  | none => exact .inr ⟨rfl, images, pages, ownsRead, depth, _, whole, sets_absent known⟩
  | some old =>
      change Ensures _ (if _ then _ else _) _ _
      split
      · exact .inl ⟨rfl, ownsRead⟩
      apply (removeEntry_spec around focus.leaf (ownsRead.perm perm)).bind
      rintro _ removed ⟨later, ownsRemoved, made, same⟩
      have edits := edits_around none around focus.leaf focus.above focus.below (by simp)
        fun _ member => by cases member
      exact .inr ⟨rfl, focus.rewritten edits made same ownsRemoved⟩

/-! ## Merging neighbours -/

theorem mergedPage_spec
    {newNo : UInt32}
    {inner more : List UInt32}
    (node : Node images depth no low middle cells (no :: inner))
    (behind : Node images depth newNo middle high others (newNo :: more)) :
    Ensures Halt.isForeign (mergedPage (images no) (images newNo)) state fun merged next =>
      next = state ∧ ∀ page ∈ merged, ∀ later : UInt32 → Page, later no = page →
        Same (inner ++ more) images later →
          Node later depth no low high (cells ++ others) (no :: (inner ++ more)) := by
  have less := node.less
  have lessBehind := behind.less
  cases depth with
  | zero =>
      obtain ⟨owned, leaf⟩ := node
      obtain ⟨ownedBehind, leafBehind⟩ := behind
      obtain rfl := (List.cons.inj owned).2
      obtain rfl := (List.cons.inj ownedBehind).2
      unfold mergedPage
      rw [leaf.leaf, if_pos rfl]
      apply orPanic_bind leaf.carries.leafEntries
      apply orPanic_bind leafBehind.carries.leafEntries
      split
      · exact ⟨rfl, fun page member => by cases member⟩
      · next fits =>
          obtain ⟨merged, built, made⟩ := buildLeaf_made (rightLink (images newNo)) _
            (Nat.le_of_not_lt fits)
          apply built_bind built
          refine ⟨rfl, ?_⟩
          rintro page ⟨⟩ later rfl same
          rw [← chainsOf_append] at same ⊢
          rw [← List.map_append] at made
          have spelled : Spelled images (cells ++ others) :=
            List.forall_mem_append.mpr ⟨leaf.spelled, leafBehind.spelled⟩
          exact ⟨rfl, made, lt_trans less lessBehind,
            leaf.ordered.append leafBehind.ordered less.le lessBehind.le, spelled.congr same⟩
  | succ depth =>
      obtain ⟨entries, below, owned, left, row⟩ := node
      obtain ⟨entriesBehind, belowBehind, ownedBehind, right, rowBehind⟩ := behind
      obtain rfl := (List.cons.inj owned).2
      obtain rfl := (List.cons.inj ownedBehind).2
      unfold mergedPage
      rw [left.notLeaf, if_neg (by decide)]
      apply orPanic_bind left.carries.internalEntries
      apply orPanic_bind right.carries.internalEntries
      split
      · exact ⟨rfl, fun page member => by cases member⟩
      · next fits =>
          obtain ⟨merged, built, made⟩ := buildInternal_made _ (Nat.le_of_not_lt fits)
          apply built_bind built
          refine ⟨rfl, ?_⟩
          rintro page ⟨⟩ later rfl same
          exact ⟨entries ++ entriesBehind, _, rfl, ⟨made, by simp [left.nonempty],
            List.forall_mem_append.mpr ⟨left.small, right.small⟩⟩,
            Row.congr (row.append rowBehind) same⟩

theorem mergePair_spec
    {count child : Nat}
    (inside : child < count) :
    mergePair count child = none ∨
      ∃ index, index + 1 < count ∧ mergePair count child = some (index, index + 1) := by
  unfold mergePair
  split
  · next room => exact .inr ⟨child, room, rfl⟩
  · split
    · next positive => exact .inr ⟨child - 1, by omega, by rw [Nat.sub_add_cancel positive]⟩
    · exact .inl rfl

/-- Two neighbours are one node, or nothing changed. -/
theorem mergeChild_spec
    {entries : List InternalEntry}
    {below : List UInt32}
    {child : Nat}
    (inner : InnerNode (images no) entries)
    (row : Row (Node images depth) entries low high cells below)
    (owns : Owns laws state (no :: below) frame images)
    (inside : child < entries.length) :
    Ensures Halt.isForeign (mergeChild store no child) state fun _ =>
      Holds laws frame fun later pages => Node later (depth + 1) no low high cells pages := by
  have unchanged : Node images (depth + 1) no low high cells (no :: below) :=
    ⟨entries, below, rfl, inner, row⟩
  apply (owns.readPage List.mem_cons_self).bind
  rintro _ read ⟨rfl, ownsRead⟩
  apply orPanic_bind inner.carries.internalEntries
  rcases mergePair_spec inside with none_ | ⟨index, room, pair⟩
  · rw [none_]
    exact ⟨images, _, ownsRead, unchanged⟩
  rw [pair]
  -- the entries around the pair
  obtain ⟨before, first, second, behind, rfl, rfl⟩ : ∃ before first second behind,
      entries = before ++ first :: second :: behind ∧ before.length = index := by
    refine ⟨entries.take index, entries[index], entries[index + 1], entries.drop (index + 2), ?_,
      List.length_take_of_le (by omega)⟩
    rw [← List.drop_eq_getElem_cons room, ← List.drop_eq_getElem_cons (by omega),
      List.take_append_drop]
  obtain ⟨left, cellsBefore, _, pagesBefore, _, rfl, rfl, rowBefore, rowFrom⟩ := row.split
  obtain ⟨middle, cellsLeft, _, _, _, rfl, rfl, keyed, less, nodeLeft, rowAfter⟩ := rowFrom.uncons
  obtain ⟨right, cellsRight, cellsBehind, _, pagesBehind, rfl, rfl, -, lessRight, nodeRight,
    rowBehind⟩ := rowAfter.uncons
  obtain ⟨inside, rfl⟩ := nodeLeft.head
  obtain ⟨more, rfl⟩ := nodeRight.head
  apply orPanic_bind (show _ = some first by simp)
  apply orPanic_bind (show _ = some second by simp)
  apply (ownsRead.readPage (by simp)).bind
  rintro _ readLeft ⟨rfl, ownsLeft⟩
  apply (ownsLeft.readPage (by simp)).bind
  rintro _ readRight ⟨rfl, ownsRight⟩
  apply (mergedPage_spec nodeLeft nodeRight).bind
  rintro merged _ ⟨rfl, becomes⟩
  cases merged with
  | none => exact ⟨images, _, ownsRight, unchanged⟩
  | some page =>
      have grouped : (no :: (pagesBefore ++ (first.2 :: inside ++
          (second.2 :: more ++ pagesBehind)))).Perm
          (first.2 :: second.2 :: no :: (pagesBefore ++ ((inside ++ more) ++ pagesBehind))) := by
        grind
      apply ((ownsRight.perm grouped).writePage page).bind
      rintro _ written ⟨between, ownsWritten, rfl, kept⟩
      apply (ownsWritten.perm (.swap ..)).freePage.bind
      intro _ freed ownsFreed
      have fits := inner.carries.fits
      rw [body_internal] at fits
      have fitsRest : ((before ++ first :: behind).map internalFootprint).sum ≤ USABLE := by
        simp only [List.map_append, List.map_cons, List.sum_append, List.sum_cons] at fits ⊢
        omega
      obtain ⟨shrunk, built, made⟩ := buildInternal_made _ fitsRest
      have erased : (before ++ first :: second :: behind).eraseIdx (before.length + 1) =
          before ++ first :: behind := by
        rw [List.eraseIdx_append_of_length_le (Nat.le_add_right _ 1), Nat.add_sub_cancel_left,
          List.eraseIdx_cons_succ, List.eraseIdx_cons_zero]
      rw [erased]
      apply built_bind built
      refine ((ownsFreed.perm (.swap ..)).writePage shrunk).mono ?_
      rintro _ next ⟨later, ownsNext, rfl, keptNow⟩
      obtain ⟨atFirst, keptNow⟩ := List.forall_mem_cons.mp keptNow
      have same : Same (pagesBefore ++ ((inside ++ more) ++ pagesBehind)) images later :=
        fun other member => (keptNow other member).trans
          (kept other (List.mem_cons_of_mem _ (List.mem_cons_of_mem _ member)))
      have node := becomes _ rfl later atFirst same.right.left
      have newRow := (Row.congr rowBefore same.left).append
        (Row.cons keyed node.less node (Row.congr rowBehind same.right.right))
      have owned : (no :: first.2 :: (pagesBefore ++ ((inside ++ more) ++ pagesBehind))).Perm
          (no :: (pagesBefore ++ (first.2 :: (inside ++ more) ++ pagesBehind))) := by
        grind
      refine ⟨later, _, ownsNext.perm owned, _, _, rfl,
        ⟨made, by simp, fun entry member => inner.small entry ?_⟩, ?_⟩
      · exact (((List.sublist_cons_self second behind).cons_cons first).append_left before).subset
          member
      · simpa only [List.append_assoc] using newRow

/-! ## The descent -/

/-- A key is deleted below a page, and the rest stays. -/
theorem deleteFrom_spec
    (node : Node images depth no low high cells pages)
    (owns : Owns laws state pages frame images)
    (above : low ≤ mark key)
    (below : mark key < high)
    (enough : depth < steps) :
    Ensures Halt.isForeign (deleteFrom store steps no key) state fun found =>
      Holds laws frame fun later pages => found = (mapOf cells key).isSome ∧
        ∃ result, Node later depth no low high result pages ∧ Sets key none cells result := by
  induction depth generalizing state frame steps no low high cells pages with
  | zero =>
      obtain ⟨steps, rfl⟩ := Nat.exists_eq_add_one.mpr enough
      obtain ⟨rfl, leaf⟩ := node
      apply (owns.readPage List.mem_cons_self).bind
      rintro _ read ⟨rfl, ownsRead⟩
      rw [leaf.leaf, if_pos rfl]
      apply orPanic_bind leaf.carries.leafEntries
      obtain ⟨before, here, behind, around, -, place⟩ := leaf.find leaf.ordered.ascending key
      have known : mapOf cells key = here.map Cell.value := around.contentsOf_eq
      rw [known]
      apply orPanic_bind place
      cases here with
      | none => exact ⟨images, _, ownsRead, rfl, cells, ⟨rfl, leaf⟩, sets_absent known⟩
      | some old =>
          have ownsLeaf : Owns laws read (no :: (chainsOf cells ++ [])) frame images := by
            rwa [List.append_nil]
          apply (removeEntry_spec around leaf ownsLeaf).bind
          rintro _ removed ⟨later, ownsRemoved, made, same⟩
          rw [List.append_nil] at ownsRemoved same
          have edits := edits_around none around leaf above below (by simp)
            fun _ member => by cases member
          exact ⟨later, _, ownsRemoved, rfl, _, ⟨rfl, made, leaf.less, edits.ordered,
            edits.spelled.congr same⟩, edits.contents⟩
  | succ depth inductionHypothesis =>
      obtain ⟨steps, rfl⟩ := Nat.exists_eq_add_one.mpr (Nat.zero_lt_of_lt enough)
      obtain ⟨entries, inner, rfl, innerNode, row⟩ := node
      apply (owns.readPage List.mem_cons_self).bind
      rintro _ read ⟨rfl, ownsRead⟩
      obtain ⟨route, rfl, rfl, rfl, found⟩ := innerNode.route row above below
      rw [innerNode.notLeaf, if_neg (by decide)]
      apply orPanic_bind found
      apply orPanic_bind (innerNode.carries.internalEntry route.entry_at).2
      have whole : Owns laws read ([] ++ no :: route.pages) frame images := ownsRead
      have child : ∀ frame, Owns laws read ([] ++ route.innerPages) frame images →
          Ensures Halt.isForeign (deleteFrom store steps route.entry.2 key) read
            fun found => Holds laws frame fun later pages => ∃ cells,
              Row (Node later depth) [route.entry] route.left route.right cells pages ∧
                found = (mapOf route.inner key).isSome ∧ Sets key none route.inner cells := by
        intro frame ownsInner
        refine (inductionHypothesis route.here ownsInner route.above route.below
          (Nat.lt_of_succ_lt_succ enough)).mono ?_
        rintro found next ⟨later, pages, ownsNext, known, cells, node, sets⟩
        exact ⟨later, pages, ownsNext, cells, Row.single _ node route.keyed node.less, known, sets⟩
      apply (Route.framed route whole child).bind
      rintro found descended ⟨later, _, ownsNow, inside, below_, rfl, here, plugged, rfl, sets⟩
      have known : mapOf route.cells key = mapOf route.inner key :=
        contentsOf_within (Route.apart route)
      have changed : Sets key none route.cells
          (route.cellsBefore ++ (inside ++ route.cellsBehind)) :=
        contentsOf_beside sets (Route.apart route)
      have innerNow : InnerNode (later no) route.entries := here ▸ innerNode
      rw [known]
      split
      · next present =>
          apply (mergeChild_spec innerNow plugged ownsNow (by simp [Route.entries])).bind
          rintro _ next ⟨final, pages, ownsNext, node⟩
          exact ⟨final, pages, ownsNext, present.symm, _, node, changed⟩
      · next absent =>
          exact ⟨later, _, ownsNow, (Bool.eq_false_iff.mpr absent).symm, _,
            ⟨route.entries, _, rfl, innerNow, plugged⟩, changed⟩

/-! ## The root shrinks -/

/-- The loop gives the root its only child's page until it has more children or is a leaf. -/
theorem collapseRoot_spec
    (node : Node images depth no ⊥ ⊤ cells pages)
    (owns : Owns laws state pages frame images)
    (enough : depth < steps) :
    Ensures Halt.isForeign (collapseRoot store no steps) state fun _ =>
      Holds laws frame (Rooted no (· = cells)) := by
  induction depth generalizing state steps images cells pages with
  | zero =>
      obtain ⟨steps, rfl⟩ := Nat.exists_eq_add_one.mpr enough
      have type : pageType (images no) = PAGE_LEAF := of_decide_eq_true node.2.leaf
      have notInternal : isInternal (images no) = false := by
        rw [isInternal, type]
        rfl
      obtain ⟨rest, rfl⟩ := node.head
      apply (owns.readPage List.mem_cons_self).bind
      rintro _ read ⟨rfl, ownsRead⟩
      rw [if_neg (by simp [notInternal])]
      exact ⟨images, _, ownsRead, 0, _, node, rfl⟩
  | succ depth inductionHypothesis =>
      obtain ⟨steps, rfl⟩ := Nat.exists_eq_add_one.mpr (Nat.zero_lt_of_lt enough)
      have whole := node
      obtain ⟨entries, below, rfl, inner, row⟩ := node
      apply (owns.readPage List.mem_cons_self).bind
      rintro _ read ⟨rfl, ownsRead⟩
      split
      · next alone =>
          obtain ⟨entry, rfl⟩ := List.length_eq_one_iff.mp (inner.carries.count ▸ alone.2)
          have found : [entry][0]? = some entry := rfl
          obtain ⟨_, _, _, _, _, rfl, rfl, -, -, child, behind⟩ := row.uncons
          cases behind
          obtain ⟨others, rfl⟩ := child.head
          apply orPanic_bind (inner.carries.internalEntry found).2
          apply (ownsRead.readPage (by simp)).bind
          rintro _ again ⟨rfl, ownsAgain⟩
          apply (ownsAgain.writePage (images entry.2)).bind
          rintro _ written ⟨later, ownsWritten, here, same⟩
          rw [List.append_nil] at ownsWritten same
          apply (ownsWritten.perm (.swap ..)).freePage.bind
          intro _ freed ownsFreed
          have moved := child.moved here fun other member =>
            same other (List.mem_cons_of_mem _ member)
          rw [List.append_nil]
          exact inductionHypothesis moved ownsFreed (Nat.lt_of_succ_lt_succ enough)
      · exact ⟨images, _, ownsRead, depth + 1, _, whole, rfl⟩

/-- Deleting a key is deleting it from the map. -/
theorem delete_spec
    (node : Node images depth tree.root ⊥ ⊤ cells pages)
    (owns : Owns laws state pages frame images)
    (key : Key) :
    Ensures Halt.isForeign (delete store tree key) state fun found next =>
      found = (mapOf cells key).isSome ∧
        Holds laws frame (Rooted tree.root (Sets key none cells)) next := by
  have within := List.Subset.refl pages
  apply (tryDeleteOptimistic_spec node owns).bind
  rintro outcome tried (⟨rfl, ownsTried⟩ | ⟨rfl, holds⟩)
  · apply (deleteFrom_spec node ownsTried bot_le mark_lt_top
      (reach_of node owns within owns.nodup)).bind
    rintro _ deleted ⟨later, pages, ownsNow, rfl, result, nodeNow, sets⟩
    apply (collapseRoot_spec nodeNow ownsNow
      (reach_of nodeNow ownsNow (List.Subset.refl _) ownsNow.nodup)).bind
    rintro _ next ⟨final, pages, ownsNext, depth, _, rooted, rfl⟩
    exact ⟨rfl, final, pages, ownsNext, depth, _, rooted, sets⟩
  · exact ⟨rfl, holds⟩

end Store

end BTree

end PrehniteDB
