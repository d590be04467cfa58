import PrehniteDB.OverflowChains
import PrehniteDB.SearchTrees

namespace PrehniteDB

/-!
# The pages of a tree

A tree of some depth on the pages of a store: the leaves with their cells, the
interior pages above them, and the overflow chains of the cells.
-/

open PagedStore SearchTrees
open SlottedPage hiding orPanic built

namespace BTree

/-- Keys compare byte by byte. -/
scoped instance keyOrder : LinearOrder (List UInt8) where
  le := fun left right => left ≤ right
  lt := fun left right => left < right
  le_refl := List.le_refl
  le_trans := fun _ _ _ => List.le_trans
  lt_iff_le_not_ge := fun _ _ =>
    ⟨fun less => ⟨List.le_of_lt less, List.not_le.mpr less⟩, fun both => List.not_le.mp both.2⟩
  le_antisymm := fun _ _ => List.le_antisymm
  le_total := List.le_total
  toDecidableLE := inferInstance
  toDecidableLT := inferInstance
  toDecidableEq := inferInstance
  compare := fun left right => compareOfLessAndEq left right
  compare_eq_compareOfLessAndEq := fun _ _ => rfl

abbrev Key := List UInt8

/-- A cell of a leaf, the value it spells, and the overflow pages of the value. -/
structure Cell where
  key : Key
  stored : List UInt8
  value : List UInt8
  chain : List UInt32

def Cell.entry (cell : Cell) : LeafEntry := (cell.key, cell.stored)

def chainsOf (cells : List Cell) : List UInt32 := cells.flatMap Cell.chain

@[simp, grind =]
theorem chainsOf_append (cells others : List Cell) :
    chainsOf (cells ++ others) = chainsOf cells ++ chainsOf others :=
  List.flatMap_append

@[simp, grind =]
theorem chainsOf_cons (cell : Cell) (cells : List Cell) :
    chainsOf (cell :: cells) = cell.chain ++ chainsOf cells :=
  List.flatMap_cons

/-- What the cells map keys to. -/
abbrev mapOf (cells : List Cell) : Key → Option (List UInt8) := contentsOf Cell.key Cell.value cells

/-! ## Nodes -/

/-- The cells are small and spell their values. -/
def Spelled (images : UInt32 → Page) (cells : List Cell) : Prop :=
  ∀ cell ∈ cells, leafFootprint cell.entry ≤ MAX_CELL + SLOT_SIZE ∧
    Spells images cell.stored cell.value cell.chain

structure LeafPage (page : Page) (entries : List LeafEntry) : Prop where
  leaf : isLeaf page = true
  carries : CarriesLeaf page entries

structure InnerPage (page : Page) (entries : List InternalEntry) : Prop where
  internal : isInternal page = true
  carries : CarriesInternal page entries

structure LeafNode
    (images : UInt32 → Page)
    (no : UInt32)
    (low high : Bound Key)
    (cells : List Cell) : Prop extends LeafPage (images no) (cells.map Cell.entry) where
  less : low < high
  ordered : Ordered Cell.key low high cells
  spelled : Spelled images cells

structure InnerNode (page : Page) (entries : List InternalEntry) : Prop
    extends InnerPage page entries where
  nonempty : entries ≠ []
  small : ∀ entry ∈ entries, internalFootprint entry ≤ MAX_CELL + SLOT_SIZE

/-- A subtree with its leaves at some depth. -/
def Node (images : UInt32 → Page) : Nat → Part Key UInt32 Cell
  | 0, no, low, high, cells, pages =>
      pages = no :: chainsOf cells ∧ LeafNode images no low high cells
  | depth + 1, no, low, high, cells, pages =>
      ∃ entries below, pages = no :: below ∧ InnerNode (images no) entries ∧
        Row (Node images depth) entries low high cells below

section Nodes

variable {images later : UInt32 → Page} {depth : Nat} {no newNo : UInt32} {low high : Bound Key}
  {cells : List Cell} {pages others : List UInt32} {entries : List InternalEntry} {page : Page}

theorem InnerPage.notLeaf (inner : InnerPage page entries) : isLeaf page = false := by
  have type : pageType page = PAGE_INTERNAL := of_decide_eq_true inner.internal
  rw [isLeaf, type]
  rfl

theorem Spelled.congr
    (spelled : Spelled images cells)
    (same : Same (chainsOf cells) images later) :
    Spelled later cells :=
  fun cell member => (spelled cell member).imp_right fun spells => spells.congr
    fun other inside => same other (List.mem_flatMap.mpr ⟨cell, member, inside⟩)

theorem Node.head (node : Node images depth no low high cells pages) :
    ∃ others, pages = no :: others := by
  cases depth with
  | zero => exact ⟨_, node.1⟩
  | succ depth =>
      obtain ⟨entries, below, rfl, -⟩ := node
      exact ⟨below, rfl⟩

theorem Node.moved
    (node : Node images depth no low high cells (no :: others))
    (here : later newNo = images no)
    (same : Same others images later) :
    Node later depth newNo low high cells (newNo :: others) := by
  induction depth generalizing no newNo low high cells others with
  | zero =>
      obtain ⟨owned, leaf⟩ := node
      obtain rfl := (List.cons.inj owned).2
      exact ⟨rfl, ⟨here ▸ leaf.toLeafPage, leaf.less, leaf.ordered, leaf.spelled.congr same⟩⟩
  | succ depth inductionHypothesis =>
      obtain ⟨entries, below, owned, inner, row⟩ := node
      obtain rfl := (List.cons.inj owned).2
      refine ⟨entries, others, rfl, here ▸ inner, row.mono fun child _ _ _ pages within node => ?_⟩
      obtain ⟨rest, rfl⟩ := node.head
      exact inductionHypothesis node (same child (within List.mem_cons_self))
        fun other member => same other (within (List.mem_cons_of_mem _ member))

/-- A subtree depends on its own pages alone. -/
theorem Node.congr
    (node : Node images depth no low high cells pages)
    (same : Same pages images later) :
    Node later depth no low high cells pages := by
  obtain ⟨others, rfl⟩ := node.head
  exact node.moved (same no List.mem_cons_self)
    fun other member => same other (List.mem_cons_of_mem _ member)

theorem Row.congr
    (row : Row (Node images depth) entries low high cells pages)
    (same : Same pages images later) :
    Row (Node later depth) entries low high cells pages :=
  row.mono fun _ _ _ _ _ within here => here.congr fun other member => same other (within member)

theorem Node.less (node : Node images depth no low high cells pages) : low < high := by
  cases depth with
  | zero => exact node.2.less
  | succ depth =>
      obtain ⟨entries, below, -, inner, row⟩ := node
      exact row.lt inner.nonempty

theorem Node.ordered (node : Node images depth no low high cells pages) :
    Ordered Cell.key low high cells := by
  induction depth generalizing no low high cells pages with
  | zero => exact node.2.ordered
  | succ depth inductionHypothesis =>
      obtain ⟨entries, below, -, inner, row⟩ := node
      exact row.ordered fun _ _ _ _ _ here => inductionHypothesis here

/-- A subtree is no deeper than it has pages. -/
theorem Node.depth_lt (node : Node images depth no low high cells pages) :
    depth < pages.length := by
  induction depth generalizing no low high cells pages with
  | zero =>
      rw [node.1]
      exact Nat.succ_pos _
  | succ depth inductionHypothesis =>
      obtain ⟨entries, below, rfl, inner, row⟩ := node
      apply Nat.succ_lt_succ
      cases row with
      | nil => exact absurd rfl inner.nonempty
      | cons keyed less here behind =>
          rw [List.length_append]
          exact Nat.lt_of_lt_of_le (inductionHypothesis here) (Nat.le_add_right _ _)

end Nodes

/-- A whole tree, whose cells satisfy the condition. -/
def Rooted (root : UInt32) (holds : List Cell → Prop) (images : UInt32 → Page)
    (pages : List UInt32) : Prop :=
  ∃ depth cells, Node images depth root ⊥ ⊤ cells pages ∧ holds cells

end BTree

end PrehniteDB
