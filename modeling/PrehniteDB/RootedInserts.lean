import PrehniteDB.TreeInserts

namespace PrehniteDB

/-!
# Inserting under the root

`insert` on a whole tree: the way that changes one leaf, the way that splits nodes, and
the root that moves aside and keeps its page.
-/

open PagedStore SearchTrees
open SlottedPage hiding orPanic built storeNode insertInto

namespace BTree

section Store

variable {State : Type} {store : Pages State} {laws : Laws Halt.isForeign store 0}
  {state : State} {pages : List UInt32} {frame : UInt32 → Option Page} {images : UInt32 → Page}
  {depth steps : Nat} {no : UInt32} {low high : Bound Key} {own : Key} {cells : List Cell}
  {tree : BTree} {cell : Cell}

/-- The cells have the value for the key, and are otherwise as they were. -/
def Sets (key : Key) (value : Option (List UInt8)) (cells result : List Cell) : Prop :=
  mapOf result = Function.update (mapOf cells) key value

/-! ## The descent -/

theorem insertInto_spec
    (node : Node images depth no low high cells pages)
    (keyed : low = ⊥ ∨ low = mark own)
    (owns : Owns laws state (cell.chain ++ pages) frame images)
    (spells : Spelled images [cell])
    (above : low ≤ mark cell.key)
    (below : mark cell.key < high)
    (enough : depth < steps) :
    Ensures Halt.isForeign (insertInto store steps no cell.key cell.stored) state
      (Sprouts laws frame depth own no low high (Sets cell.key (some cell.value) cells)) := by
  induction depth generalizing state frame steps no low high own cells pages with
  | zero =>
      obtain ⟨steps, rfl⟩ := Nat.exists_eq_add_one.mpr enough
      obtain ⟨rfl, leaf⟩ := node
      apply (owns.readPage (List.mem_append_right _ List.mem_cons_self)).bind
      rintro _ read ⟨rfl, ownsRead⟩
      rw [leaf.leaf, if_pos rfl]
      apply orPanic_bind leaf.carries.leafEntries
      have ownsLeaf : Owns laws read (cell.chain ++ (chainsOf cells ++ [no])) frame images :=
        ownsRead.perm (by grind)
      obtain ⟨edited, displaced, put, edits, almost, freed⟩ :=
        putEntry_spec leaf above below spells ownsLeaf
      apply orPanic_bind put
      apply freed.bind
      intro _ next ownsNext
      refine (storeLeaf_spec (ownsNext.perm List.perm_append_comm) keyed leaf.less edits.ordered
        edits.spelled almost).mono ?_
      rintro split final ⟨later, pages, ownsFinal, _, row, rfl, low⟩
      exact ⟨later, pages, ownsFinal, _, row, edits.contents, low⟩
  | succ depth inductionHypothesis =>
      obtain ⟨steps, rfl⟩ := Nat.exists_eq_add_one.mpr (Nat.zero_lt_of_lt enough)
      obtain ⟨entries, inner, rfl, innerNode, row⟩ := node
      apply (owns.readPage (List.mem_append_right _ List.mem_cons_self)).bind
      rintro _ read ⟨rfl, ownsRead⟩
      obtain ⟨route, rfl, rfl, rfl, found⟩ := innerNode.route row above below
      rw [innerNode.notLeaf, if_neg (by decide)]
      apply orPanic_bind innerNode.carries.internalEntries
      apply orPanic_bind found
      apply orPanic_bind route.entry_at
      have child : ∀ frame, Owns laws read (cell.chain ++ route.innerPages) frame images →
          Ensures Halt.isForeign (insertInto store steps route.entry.2 cell.key cell.stored) read
            fun split => Holds laws frame fun later pages => ∃ cells,
              Row (Node later depth) (route.entry :: split.toList) route.left route.right cells
                pages ∧ Sets cell.key (some cell.value) route.inner cells ∧
                ∀ entry ∈ split, internalFootprint entry ≤ MAX_CELL + SLOT_SIZE := by
        intro frame ownsInner
        refine (inductionHypothesis route.here route.keyed ownsInner route.above route.below
          (Nat.lt_of_succ_lt_succ enough)).mono ?_
        rintro split next ⟨later, pages, ownsNext, cells, row, sets, low⟩
        exact ⟨later, pages, ownsNext, cells, row, sets, fun entry member => (low entry member).2⟩
      apply (Route.framed route ownsRead child).bind
      rintro split descended ⟨later, _, ownsNow, inside, below_, rfl, here, plugged, sets, low⟩
      have changed : Sets cell.key (some cell.value) route.cells
          (route.cellsBefore ++ (inside ++ route.cellsBehind)) :=
        contentsOf_beside sets (Route.apart route)
      cases split with
      | none =>
          have node : Node later (depth + 1) no _ _ _ _ :=
            ⟨route.entries, below_, rfl, here ▸ innerNode, plugged⟩
          exact ⟨later, _, ownsNow, _, Row.single _ node keyed node.less, changed,
            fun _ member => by cases member⟩
      | some split =>
          have inserted : insertAt route.entries (route.before.length + 1) split =
              some (route.before ++ ([route.entry, split] ++ route.behind)) := by
            have between := insertIdx_between split (route.before ++ [route.entry]) route.behind
            rw [List.length_append, List.length_singleton] at between
            rw [insertAt, if_pos (by simp [Route.entries]), Route.entries, List.append_cons, between]
            simp
          have fits := innerNode.carries.fits
          rw [body_internal] at fits
          have almost : Almost internalFootprint
              (route.before ++ ([route.entry, split] ++ route.behind)) := by
            refine ⟨fun entry member => ?_, split, by simp, ?_⟩
            · by_cases new : entry = split
              · rw [new]
                exact low split rfl
              · refine innerNode.small entry ?_
                rw [Route.entries]
                grind
            · simp only [Route.entries, List.map_append, List.map_cons, List.map_nil,
                List.sum_append, List.sum_cons, List.sum_nil] at fits ⊢
              omega
          apply orPanic_bind inserted
          refine (storeInner_spec ownsNow keyed plugged (by simp) almost).mono ?_
          rintro outcome next ⟨final, pages, ownsNext, _, row, rfl, lowNow⟩
          exact ⟨final, pages, ownsNext, _, row, changed, lowNow⟩

/-! ## One leaf changes -/

theorem Focus.rewritten
    {key : Key}
    {leafNo : UInt32}
    {later : UInt32 → Page}
    {value : Option (List UInt8)}
    {edited : List Cell}
    (focus : Focus images depth tree.root ⊥ ⊤ key leafNo)
    (edits : Edits images focus.left focus.right key value focus.cells edited)
    (made : LeafPage (later leafNo) (edited.map Cell.entry))
    (same : Same (chainsOf edited ++ focus.outer) images later)
    (owns : Owns laws state (leafNo :: (chainsOf edited ++ focus.outer)) frame later) :
    Holds laws frame (Rooted tree.root
      (Sets key value (focus.before ++ (focus.cells ++ focus.behind)))) state := by
  obtain ⟨pages, perm, node⟩ := focus.replace later edited same.right
    ⟨made, focus.leaf.less, edits.ordered, edits.spelled.congr same.left⟩
  exact ⟨later, pages, owns.perm perm.symm, depth, _, node,
    contentsOf_beside edits.contents focus.apart⟩

theorem tryInsertOptimistic_spec
    (node : Node images depth tree.root ⊥ ⊤ cells pages)
    (owns : Owns laws state (cell.chain ++ pages) frame images)
    (spells : Spelled images [cell]) :
    Ensures Halt.isForeign (tryInsertOptimistic store tree cell.key cell.stored) state
      fun outcome next =>
        (outcome = .restart ∧ Owns laws next (cell.chain ++ pages) frame images) ∨
          (outcome = .done ∧
            Holds laws frame (Rooted tree.root (Sets cell.key (some cell.value) cells)) next) := by
  have within : pages ⊆ cell.chain ++ pages := List.subset_append_right _ _
  apply (descend_spec node owns within bot_le mark_lt_top
    (reach_of node owns within owns.nodup.of_append_right)).bind
  rintro ⟨leafNo, page⟩ descended ⟨ownsDescended, -, focus, rfl, perm⟩
  dsimp only at focus perm
  apply (ownsDescended.readPage (within (perm.mem_iff.mpr List.mem_cons_self))).bind
  rintro _ read ⟨rfl, ownsRead⟩
  rw [focus.leaf.leaf, if_pos rfl]
  apply orPanic_bind focus.leaf.carries.leafEntries
  split
  · exact .inl ⟨rfl, ownsRead⟩
  have ownsLeaf : Owns laws read
      (cell.chain ++ (chainsOf focus.cells ++ (leafNo :: focus.outer))) frame images :=
    ownsRead.perm (by grind)
  obtain ⟨edited, displaced, put, edits, -, freed⟩ :=
    putEntry_spec focus.leaf focus.above focus.below spells ownsLeaf
  apply orPanic_bind put
  dsimp only
  split
  · exact .inl ⟨rfl, ownsRead⟩
  next fits =>
  apply freed.bind
  intro _ freed ownsFreed
  obtain ⟨newPage, built, made⟩ := buildLeaf_made (rightLink (images leafNo)) _
    (Nat.le_of_not_lt fits)
  apply built_bind built
  apply ((ownsFreed.perm List.perm_middle).writePage newPage).bind
  rintro _ written ⟨later, ownsWritten, rfl, same⟩
  exact .inr ⟨rfl, focus.rewritten edits made same ownsWritten⟩

/-! ## The root grows -/

theorem growRoot_spec
    {split : InternalEntry}
    {holds : List Cell → Prop}
    (sprouts : Sprouts laws frame depth own tree.root ⊥ ⊤ holds (some split) state) :
    Ensures Halt.isForeign (growRoot store tree.root split) state fun _ next =>
      Holds laws frame (Rooted tree.root holds) next := by
  obtain ⟨images, _, owns, _, row, held, low⟩ := sprouts
  obtain ⟨⟨lowKey, lowFound, lowSmall⟩, splitSmall⟩ := low split rfl
  obtain ⟨middle, _, _, _, pagesRight, rfl, rfl, -, less, left, right⟩ := row.uncons
  obtain ⟨others, rfl⟩ := left.head
  have rootHeld : tree.root ∈ (tree.root :: others) ++ pagesRight := by simp
  apply owns.allocPage.bind
  rintro leftNo allocated ⟨blank, ownsMore, kept⟩
  apply (ownsMore.readPage (List.mem_cons_of_mem _ rootHeld)).bind
  rintro _ read ⟨rfl, ownsRead⟩
  apply (ownsRead.writePage (blank tree.root)).bind
  rintro _ moved ⟨copied, ownsMoved, atLeft, keptMoved⟩
  apply (ownsMoved.readPage (List.mem_cons_of_mem _ rootHeld)).bind
  rintro _ again ⟨rfl, ownsAgain⟩
  rw [keptMoved _ rootHeld, kept _ rootHeld]
  apply orPanic_bind lowFound
  have sizes : ([(lowKey, leftNo), split].map internalFootprint).sum ≤ USABLE := by
    have one := lowSmall leftNo
    have usable : USABLE = 4080 := rfl
    have half : MAX_CELL + SLOT_SIZE = 2040 := rfl
    simp only [List.map_cons, List.map_nil, List.sum_cons, List.sum_nil]
    omega
  obtain ⟨page, built, made⟩ := buildInternal_made _ sizes
  apply built_bind built
  have swapped : (leftNo :: ((tree.root :: others) ++ pagesRight)).Perm
      (tree.root :: ((leftNo :: others) ++ pagesRight)) := .swap ..
  refine ((ownsAgain.perm swapped).writePage page).mono ?_
  rintro _ next ⟨later, ownsNext, rfl, keptNow⟩
  have same : Same (others ++ pagesRight) images later := fun other member => by
    rw [keptNow other (by simp [List.mem_append.mp member]), keptMoved other (by grind),
      kept other (by grind)]
  have here : later leftNo = images tree.root := by
    rw [keptNow leftNo (by simp), atLeft, kept _ rootHeld]
  have newRow : Row (Node later depth) [(lowKey, leftNo), split] ⊥ ⊤ _ _ := .cons (.inl rfl) less
    (left.moved here same.left) (Row.congr right same.right)
  refine ⟨later, _, ownsNext, depth + 1, _, ⟨[(lowKey, leftNo), split], _, rfl,
    ⟨made, by simp, ?_⟩, newRow⟩, held⟩
  simpa using ⟨lowSmall leftNo, splitSmall⟩

/-! ## Insertion -/

/-- An insertion below the root, which may grow by a level. -/
theorem insertStored_spec
    (node : Node images depth tree.root ⊥ ⊤ cells pages)
    (owns : Owns laws state (cell.chain ++ pages) frame images)
    (spells : Spelled images [cell]) :
    Ensures Halt.isForeign (insertStored store tree cell.key cell.stored) state fun _ next =>
      Holds laws frame (Rooted tree.root (Sets cell.key (some cell.value) cells)) next := by
  apply (tryInsertOptimistic_spec node owns spells).bind
  rintro outcome tried (⟨rfl, ownsTried⟩ | ⟨rfl, holds⟩)
  · have reach := reach_of node owns (List.subset_append_right _ _) owns.nodup.of_append_right
    have keyed : (⊥ : Bound Key) = ⊥ ∨ ⊥ = mark ([] : Key) := .inl rfl
    apply (insertInto_spec node keyed ownsTried spells bot_le mark_lt_top reach).bind
    intro split inserted sprouts
    cases split with
    | none =>
        obtain ⟨later, _, ownsNow, _, row, sets, -⟩ := sprouts
        obtain ⟨_, _, _, _, _, rfl, rfl, -, -, grown, behind⟩ := row.uncons
        cases behind
        exact ⟨later, _, ownsNow, depth, _, by simpa using grown, sets⟩
    | some split => exact growRoot_spec sprouts
  · exact holds

/-- A key that is too large is turned down, else it has the value. -/
theorem insert_spec
    (node : Node images depth tree.root ⊥ ⊤ cells pages)
    (owns : Owns laws state pages frame images)
    (key value : List UInt8) :
    Ensures Halt.isForeign (insert store tree key value) state fun reply next =>
      if MAX_CELL < LEAF_CELL_OVERHEAD + key.length + 1 + 4 then
        reply = .error (tooLarge key) ∧ next = state
      else reply = .ok () ∧
        Holds laws frame (Rooted tree.root (Sets key (some value) cells)) next := by
  unfold insert
  split
  · exact ⟨rfl, rfl⟩
  · next fits =>
      have whole : Owns laws state ([] ++ pages) frame images := owns
      apply (Ensures.framed whole fun frame owns =>
        storeValue_spec owns value (Nat.le_of_not_lt fits)).bind
      rintro stored spilled ⟨later, _, ownsSpilled, chain, rfl, same, small, spells⟩
      let cell : Cell := { key := key, stored := stored, value := value, chain := chain }
      have inserts : Ensures Halt.isForeign (insertStored store tree cell.key cell.stored) spilled
          fun _ next => Holds laws frame (Rooted tree.root (Sets key (some value) cells)) next :=
        insertStored_spec (node.congr same) ownsSpilled (by simpa [Spelled] using ⟨small, spells⟩)
      exact inserts.bind fun _ next holds => ⟨rfl, holds⟩

end Store

end BTree

end PrehniteDB
