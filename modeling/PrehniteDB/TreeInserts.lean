import PrehniteDB.TreeSearches

namespace PrehniteDB

/-!
# Inserting into a tree

A cell is put into the leaf of its key.  A node that overflows is cut in two, and the
node above it takes the separator and the new page, up to the root, which keeps its page.
-/

open PagedStore SearchTrees
open SlottedPage hiding orPanic built storeNode insertInto

namespace BTree

/-! ## Pages that are built -/

theorem buildLeaf_made
    (link : UInt32)
    (entries : List LeafEntry)
    (fits : (entries.map leafFootprint).sum ≤ USABLE) :
    ∃ page, buildLeaf entries link = some (.ok page) ∧ LeafPage page entries := by
  have spec := buildLeaf_spec entries link
  rw [if_pos fits] at spec
  obtain ⟨page, made, carries, leaf, -⟩ := spec
  exact ⟨page, made, leaf, carries⟩

theorem buildInternal_made
    (entries : List InternalEntry)
    (fits : (entries.map internalFootprint).sum ≤ USABLE) :
    ∃ page, buildInternal entries = some (.ok page) ∧ InnerPage page entries := by
  have spec := buildInternal_spec entries
  rw [if_pos fits] at spec
  obtain ⟨page, made, carries, internal, -⟩ := spec
  exact ⟨page, made, internal, carries⟩

/-- The page has a first key, which makes a small separator. -/
def LowKey (page : Page) : Prop :=
  ∃ low, firstKey page = some low ∧
    ∀ child, internalFootprint (low, child) ≤ MAX_CELL + SLOT_SIZE

/-! ## The cells of a leaf with one changed -/

/-- The cells of a leaf after a change to one key. -/
structure Edits
    (images : UInt32 → Page)
    (low high : Bound Key)
    (key : Key)
    (value : Option (List UInt8))
    (cells edited : List Cell) : Prop where
  ordered : Ordered Cell.key low high edited
  spelled : Spelled images edited
  contents : mapOf edited = Function.update (mapOf cells) key value

section Cells

variable {images : UInt32 → Page} {no : UInt32} {low high : Bound Key} {key : Key}
  {cells before behind : List Cell} {here : Option Cell} {cell : Cell} {page : Page}

theorem edits_around
    (now : Option Cell)
    (around : Around Cell.key key cells before here behind)
    (leaf : LeafNode images no low high cells)
    (above : low ≤ mark key)
    (below : mark key < high)
    (keyed : ∀ cell ∈ now, cell.key = key)
    (spells : Spelled images now.toList) :
    Edits images low high key (now.map Cell.value) cells (before ++ (now.toList ++ behind)) where
  ordered := around.ordered keyed leaf.ordered above below
  contents := around.replaced keyed
  spelled := by
    have old := leaf.spelled
    rw [around.divided] at old
    intro other member
    simp only [List.mem_append] at member
    rcases member with first | inside | last
    · exact old other (List.mem_append_left _ first)
    · exact spells other inside
    · exact old other (List.mem_append_right _ (List.mem_append_right _ last))

theorem insertIdx_between
    {Entry : Type}
    (entry : Entry)
    (before behind : List Entry) :
    (before ++ behind).insertIdx before.length entry = before ++ entry :: behind := by
  induction before with
  | nil => rfl
  | cons first before inductionHypothesis => simpa using inductionHypothesis

theorem putEntry_around
    (leaf : LeafPage page (cells.map Cell.entry))
    (ascending : cells.Pairwise fun left right => left.key < right.key)
    (cell : Cell) :
    ∃ before here behind, Around Cell.key cell.key cells before here behind ∧
      putEntry (cells.map Cell.entry) cell.key cell.stored =
        some ((before ++ cell :: behind).map Cell.entry, here.map Cell.stored) := by
  obtain ⟨before, here, behind, around, -, found⟩ := leaf.find ascending cell.key
  refine ⟨before, here, behind, around, ?_⟩
  cases here with
  | none =>
      have divided : cells = before ++ behind := around.divided
      have inside : before.length ≤ (cells.map Cell.entry).length := by simp [divided]
      have inserted : (cells.map Cell.entry).insertIdx before.length (cell.key, cell.stored) =
          (before ++ cell :: behind).map Cell.entry := by
        rw [divided, List.map_append, List.map_append, List.map_cons, ← insertIdx_between,
          List.length_map]
        rfl
      simp only [putEntry, found, placeOf, Option.isSome_none, Bool.false_eq_true, if_false,
        insertAt, if_pos inside, Option.bind_eq_bind, Option.bind_some, Option.pure_def,
        Option.map_none, inserted]
  | some old =>
      have same : old.key = cell.key := around.here_eq old rfl
      have replaced : (cells.map Cell.entry).set before.length (old.entry.1, cell.stored) =
          (before ++ cell :: behind).map Cell.entry := by
        simp [around.divided, Cell.entry, same]
      simp only [putEntry, found, placeOf, Option.isSome_some, if_true, entry_at around,
        Option.bind_eq_bind, Option.bind_some, Option.pure_def, Option.map_some, replaced]
      rfl

end Cells

section Store

variable {State : Type} {store : Pages State} {laws : Laws Halt.isForeign store 0}
  {state next : State} {held pages rest : List UInt32} {frame : UInt32 → Option Page}
  {images : UInt32 → Page} {depth steps : Nat} {no : UInt32} {low high : Bound Key} {own key : Key}
  {cells before behind : List Cell} {here : Option Cell} {tree : BTree} {cell : Cell}

/-- The overflow pages of the displaced value are given back. -/
theorem freeDisplaced_spec
    (around : Around Cell.key key cells before here behind)
    (spelled : Spelled images cells)
    (owns : Owns laws state (chainsOf cells ++ held) frame images) :
    Ensures Halt.isForeign (freeDisplaced store (here.map Cell.stored)) state fun _ next =>
      Owns laws next (chainsOf (before ++ behind) ++ held) frame images := by
  have divided := around.divided
  cases here with
  | none =>
      obtain rfl : cells = before ++ behind := divided
      exact owns
  | some old =>
      subst divided
      exact freeIfOverflow_spec (owns.perm (by simp; grind)) (spelled old (by simp)).2

/-- The entries of a leaf with the new one, and what becomes of the value it displaces. -/
theorem putEntry_spec
    (leaf : LeafNode images no low high cells)
    (above : low ≤ mark cell.key)
    (below : mark cell.key < high)
    (spells : Spelled images [cell])
    (owns : Owns laws state (cell.chain ++ (chainsOf cells ++ held)) frame images) :
    ∃ edited displaced,
      putEntry (cells.map Cell.entry) cell.key cell.stored =
        some (edited.map Cell.entry, displaced) ∧
      Edits images low high cell.key (some cell.value) cells edited ∧
      Almost leafFootprint (edited.map Cell.entry) ∧
      Ensures Halt.isForeign (freeDisplaced store displaced) state fun _ next =>
        Owns laws next (chainsOf edited ++ held) frame images := by
  obtain ⟨before, here, behind, around, put⟩ :=
    putEntry_around leaf.toLeafPage leaf.ordered.ascending cell
  have edits := edits_around (some cell) around leaf above below (by simp) spells
  refine ⟨_, _, put, edits, ⟨fun entry member => ?_, cell.entry, by simp, ?_⟩, ?_⟩
  · obtain ⟨other, inside, rfl⟩ := List.mem_map.mp member
    exact (edits.spelled other inside).1
  · have fits := leaf.carries.fits
    rw [body_leaf, around.divided] at fits
    simp only [List.map_append, List.map_cons, List.sum_append, List.sum_cons] at fits ⊢
    omega
  · refine (freeDisplaced_spec around leaf.spelled
      (owns.perm (List.perm_append_comm_assoc ..))).mono fun _ next ownsNext => ownsNext.perm ?_
    simp only [chainsOf_append, chainsOf_cons]
    grind

/-! ## Storing a node -/

/-- One node or two between the bounds, whose cells satisfy the condition. -/
def Sprouts
    (laws : Laws Halt.isForeign store 0)
    (frame : UInt32 → Option Page)
    (depth : Nat)
    (own : Key)
    (no : UInt32)
    (low high : Bound Key)
    (holds : List Cell → Prop)
    (split : Option InternalEntry) : State → Prop :=
  Holds laws frame fun later pages => ∃ cells,
    Row (Node later depth) ((own, no) :: split.toList) low high cells pages ∧ holds cells ∧
      ∀ entry ∈ split, LowKey (later no) ∧ internalFootprint entry ≤ MAX_CELL + SLOT_SIZE

/-- Entries are stored in one page or in two. -/
theorem storeNode_spec
    {Entry : Type}
    {footprint : Entry → Nat}
    {keyOf : Entry → Key}
    {buildRight : List Entry → Option (Except Error Page)}
    {buildLeft : UInt32 → List Entry → Option (Except Error Page)}
    {entries : List Entry}
    (Shape : Page → List Entry → Prop)
    (makesRight : ∀ entries, (entries.map footprint).sum ≤ USABLE →
      ∃ page, buildRight entries = some (.ok page) ∧ Shape page entries)
    (makesLeft : ∀ newNo entries, (entries.map footprint).sum ≤ USABLE →
      ∃ page, buildLeft newNo entries = some (.ok page) ∧ Shape page entries)
    (first : ∀ page entry rest, Shape page (entry :: rest) → firstKey page = some (keyOf entry))
    (narrow : ∀ entry child, internalFootprint (keyOf entry, child) ≤ footprint entry)
    (almost : Almost footprint entries)
    (keyed : low = ⊥ ∨ low = mark own)
    (owns : Owns laws state (no :: rest) frame images)
    (whole : ∀ later, Same rest images later → Shape (later no) entries →
      Node later depth no low high cells (no :: rest))
    (halves : ∀ before separator behind, entries = before ++ separator :: behind → before ≠ [] →
      ∃ cellsLeft cellsRight restLeft restRight, cells = cellsLeft ++ cellsRight ∧
        rest.Perm (restLeft ++ restRight) ∧ ∀ later newNo, Same rest images later →
          Shape (later no) before → Shape (later newNo) (separator :: behind) →
            Node later depth no low (mark (keyOf separator)) cellsLeft (no :: restLeft) ∧
              Node later depth newNo (mark (keyOf separator)) high cellsRight
                (newNo :: restRight)) :
    Ensures Halt.isForeign (storeNode store footprint keyOf buildRight buildLeft no entries) state
      (Sprouts laws frame depth own no low high (· = cells)) := by
  unfold storeNode
  split
  case isTrue fits =>
    obtain ⟨page, made, good⟩ := makesRight entries fits
    apply built_bind made
    apply (owns.writePage page).bind
    rintro _ next ⟨later, ownsNext, rfl, same⟩
    have node := whole later same good
    exact ⟨later, no :: rest, ownsNext, cells, Row.single _ node keyed node.less, rfl,
      fun _ member => by cases member⟩
  case isFalse tooMuch =>
    obtain ⟨small, added, among, room⟩ := almost
    obtain ⟨cut, chosen, good⟩ := @splitIndex_cut (entries.map footprint)
      (by simpa using small) (Nat.lt_of_not_le tooMuch)
      ⟨footprint added, List.mem_map_of_mem among, by omega⟩
    obtain ⟨takenSum, droppedSum⟩ := cut_sums footprint entries cut
    have inside : cut < entries.length := by simpa using good.right
    have dropped : entries.drop cut = entries[cut] :: entries.drop (cut + 1) :=
      List.drop_eq_getElem_cons inside
    apply orPanic_bind chosen
    apply owns.allocPage.bind
    rintro newNo allocated ⟨blank, ownsMore, kept⟩
    obtain ⟨left, madeLeft, goodLeft⟩ := makesLeft newNo (entries.take cut)
      (takenSum ▸ good.leftFits)
    obtain ⟨right, madeRight, goodRight⟩ := makesRight (entries.drop cut)
      (droppedSum ▸ good.rightFits)
    apply orPanic_bind (List.getElem?_eq_getElem inside)
    apply built_bind madeLeft
    apply built_bind madeRight
    apply ((ownsMore.perm (.swap ..)).writePage left).bind
    rintro _ halfway ⟨between, ownsHalfway, rfl, keptLeft⟩
    apply ((ownsHalfway.perm (.swap ..)).writePage right).bind
    rintro _ next ⟨later, ownsNext, rfl, keptRight⟩
    obtain ⟨atNo, keptRight⟩ := List.forall_mem_cons.mp keptRight
    have filled : entries.take cut ≠ [] := by
      apply List.length_pos_iff.mp
      rw [List.length_take_of_le inside.le]
      exact good.left
    obtain ⟨entry, others, taken⟩ := List.exists_cons_of_ne_nil filled
    obtain ⟨cellsLeft, cellsRight, restLeft, restRight, rfl, perm, nodes⟩ :=
      halves _ entries[cut] _ (by rw [← dropped, List.take_append_drop]) filled
    obtain ⟨nodeLeft, nodeRight⟩ := nodes later newNo
      (fun other member => by
        rw [keptRight other member, keptLeft other (List.mem_cons_of_mem _ member),
          kept other (List.mem_cons_of_mem _ member)])
      (atNo ▸ goodLeft) (dropped ▸ goodRight)
    refine ⟨later, (no :: restLeft) ++ (newNo :: restRight), ownsNext.perm (by grind),
      _, .cons keyed nodeLeft.less nodeLeft (Row.single _ nodeRight (.inr rfl) nodeRight.less), rfl,
      ?_⟩
    rintro _ ⟨⟩
    refine ⟨⟨keyOf entry, first _ entry others ?_, fun child => (narrow ..).trans (small entry ?_)⟩,
      (narrow ..).trans (small _ (List.getElem_mem inside))⟩
    · rw [atNo, ← taken]
      exact goodLeft
    · exact List.mem_of_mem_take (taken ▸ List.mem_cons_self)

theorem storeLeaf_spec
    {link : UInt32}
    (owns : Owns laws state (no :: chainsOf cells) frame images)
    (keyed : low = ⊥ ∨ low = mark own)
    (less : low < high)
    (ordered : Ordered Cell.key low high cells)
    (spelled : Spelled images cells)
    (almost : Almost leafFootprint (cells.map Cell.entry)) :
    Ensures Halt.isForeign
      (storeNode store leafFootprint Prod.fst (buildLeaf · link)
        (fun newNo cells => buildLeaf cells newNo) no (cells.map Cell.entry)) state
      (Sprouts laws frame 0 own no low high (· = cells)) := by
  refine storeNode_spec LeafPage (buildLeaf_made link) buildLeaf_made ?_ ?_ almost keyed
    owns (fun later same made => ⟨rfl, made, less, ordered, spelled.congr same⟩) ?_
  · intro page entry rest made
    rw [firstKey, made.leaf, if_pos rfl]
    have found : (entry :: rest)[0]? = some entry := rfl
    exact (made.carries.leafEntry found).1
  · exact fun entry child => Nat.le_add_right _ entry.2.length
  · intro before separator behind divided nonempty
    obtain ⟨cellsLeft, cellsFrom, rfl, rfl, fromRight⟩ := List.map_eq_append_iff.mp divided
    obtain ⟨cell, cellsRight, rfl, rfl, rfl⟩ := List.map_eq_cons_iff.mp fromRight
    obtain ⟨orderedLeft, orderedRight⟩ := ordered.cut
    obtain ⟨first, others, rfl⟩ := List.exists_cons_of_ne_nil
      (fun empty => nonempty (by rw [empty, List.map_nil]) : cellsLeft ≠ [])
    have lessLeft := orderedLeft.within first List.mem_cons_self
    have lessRight := orderedRight.within cell List.mem_cons_self
    refine ⟨_, _, _, _, rfl, .of_eq (chainsOf_append ..), fun later newNo same left right => ?_⟩
    obtain ⟨spelledLeft, spelledRight⟩ := List.forall_mem_append.mp (spelled.congr same)
    exact ⟨⟨rfl, left, lt_of_le_of_lt lessLeft.1 lessLeft.2, orderedLeft, spelledLeft⟩,
      rfl, right, lessRight.2, orderedRight, spelledRight⟩

theorem storeInner_spec
    {entries : List InternalEntry}
    (owns : Owns laws state (no :: rest) frame images)
    (keyed : low = ⊥ ∨ low = mark own)
    (row : Row (Node images depth) entries low high cells rest)
    (nonempty : entries ≠ [])
    (almost : Almost internalFootprint entries) :
    Ensures Halt.isForeign
      (storeNode store internalFootprint Prod.fst buildInternal
        (fun _ cells => buildInternal cells) no entries) state
      (Sprouts laws frame (depth + 1) own no low high (· = cells)) := by
  have small := almost.1
  refine storeNode_spec InnerPage buildInternal_made (fun _ => buildInternal_made) ?_
    (fun _ _ => Nat.le_refl _) almost keyed owns
    (fun later same made => ⟨entries, rest, rfl, ⟨made, nonempty, small⟩, Row.congr row same⟩) ?_
  · intro page entry rest made
    rw [firstKey, made.notLeaf, if_neg (by decide)]
    have found : (entry :: rest)[0]? = some entry := rfl
    exact (made.carries.internalEntry found).1
  · rintro before separator behind rfl nonempty
    obtain ⟨middle, cellsLeft, cellsRight, restLeft, restRight, rfl, rfl, left, right⟩ := row.split
    obtain ⟨_, _, _, _, _, -, -, marked, -⟩ := right.uncons
    obtain rfl := marked.resolve_left (lt_of_le_of_lt bot_le (left.lt nonempty)).ne'
    refine ⟨_, _, _, _, rfl, .refl _, fun later newNo same madeLeft madeRight => ?_⟩
    obtain ⟨smallLeft, smallRight⟩ := List.forall_mem_append.mp small
    exact ⟨⟨before, restLeft, rfl, ⟨madeLeft, nonempty, smallLeft⟩, Row.congr left same.left⟩,
      separator :: behind, restRight, rfl, ⟨madeRight, List.cons_ne_nil _ _, smallRight⟩,
      Row.congr right same.right⟩

end Store

end BTree

end PrehniteDB
