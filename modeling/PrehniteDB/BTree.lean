import PrehniteDB.NodeSplits
import PrehniteDB.PagedStore

namespace PrehniteDB

/-!
# The B+tree

The operations of one tree on the pages of a pager, by a caller that no other
interleaves with.  Every loop is bounded by the number of page numbers there are.
-/

open PagedStore
open SlottedPage hiding orPanic built

/-- A tree is known by the number of its root page. -/
structure BTree where
  root : UInt32
  deriving Repr, DecidableEq

namespace BTree

/-- The value follows. -/
def TAG_INLINE : UInt8 := 0

/-- The first page of the chain that holds the value follows. -/
def TAG_OVERFLOW : UInt8 := 1

/-- The next page and the length of the chunk. -/
def OVERFLOW_HEADER : Nat := 8

/-- No chain of different pages is longer. -/
def REACH : Nat := UInt32.size

/-- What stops an operation. -/
inductive Halt where
  /-- The pager turned a call down. -/
  | pager (failure : Error)
  /-- A call of the pager never returned. -/
  | hangs
  /-- The page count of the file has no successor. -/
  | full
  | failed (failure : Error)
  | panic
  /-- The bound on a loop was too small. -/
  | unfinished
  deriving Repr, DecidableEq

abbrev Pages (State : Type) := Calls State Halt UInt32 Page

section Stopping

variable {State Result : Type}

def stop (halt : Halt) : Ask State Halt Result := fun _ => .error halt

def orPanic : Option Result → Ask State Halt Result
  | some result => pure result
  | none => stop .panic

def built : Option (Except Error Page) → Ask State Halt Page
  | some (.ok page) => pure page
  | some (.error failure) => stop (.failed failure)
  | none => stop .panic

end Stopping

variable {State : Type} (pages : Pages State)

/-! ## Values -/

/-- `chunks` of what an overflow page holds. -/
def chunks (value : List UInt8) : List (List UInt8) :=
  if value.isEmpty then []
  else value.take (PAGE_SIZE - OVERFLOW_HEADER) :: chunks (value.drop (PAGE_SIZE - OVERFLOW_HEADER))
termination_by value.length
decreasing_by
  rename_i nonempty
  have positive : 0 < value.length := by
    apply List.length_pos_iff.mpr
    rintro rfl
    exact nonempty rfl
  rw [List.length_drop]
  exact Nat.sub_lt positive (by decide)

/-- A link, a length and a chunk. -/
def overflowPage (next : UInt32) (chunk : List UInt8) : Option Page := do
  let linked ← putU32 zeroPage 0 next
  let sized ← putU32 linked 4 (UInt32.ofNat chunk.length)
  putBytes sized OVERFLOW_HEADER chunk

/-- The loop of `write_overflow`: each page names the one written before it. -/
def writeChunks : List (List UInt8) → UInt32 → Ask State Halt UInt32
  | [], next => pure next
  | chunk :: before, next => do
      let no ← pages.allocPage
      let page ← orPanic (overflowPage next chunk)
      pages.writePage no page
      writeChunks before no

/-- A chain of pages, written from its end. -/
def writeOverflow (value : List UInt8) : Ask State Halt UInt32 :=
  writeChunks pages (chunks value).reverse 0

/-- Follow a chain and put its chunks together. -/
def readOverflow : Nat → UInt32 → List UInt8 → Ask State Halt (List UInt8)
  | 0, _, _ => stop .unfinished
  | steps + 1, no, out =>
      if no = 0 then pure out
      else do
        let page ← pages.readPage no
        let chunkLength := page.number 4 4
        if PAGE_SIZE < OVERFLOW_HEADER + chunkLength then
          stop (.failed (.corruption "overflow page has an invalid chunk length"))
        else
          let chunk ← orPanic (getBytes page OVERFLOW_HEADER chunkLength)
          readOverflow steps (nextPointer page) (out ++ chunk)

/-- Free a chain, page by page. -/
def freeOverflow : Nat → UInt32 → Ask State Halt Unit
  | 0, _ => stop .unfinished
  | steps + 1, no =>
      if no = 0 then pure ()
      else do
        let page ← pages.readPage no
        pages.freePage no
        freeOverflow steps (nextPointer page)

/-- `to_le_bytes`. -/
def pointerBytes (no : UInt32) : List UInt8 :=
  (List.range 4).map (LittleEndian.byte no.toNat)

/-- `from_le_bytes` of a stub of four bytes. -/
def pointer (stub : List UInt8) : Option UInt32 :=
  if stub.length = 4 then
    some (UInt32.ofNat (LittleEndian.value (fun position => stub.getD position 0) 4))
  else none

/-- The value behind its tag, in the cell or in a chain. -/
def unwrapValue : List UInt8 → Ask State Halt (List UInt8)
  | [] => stop (.failed (.corruption "stored value is missing its tag"))
  | tag :: rest =>
      if tag = TAG_INLINE then pure rest
      else if tag = TAG_OVERFLOW then
        match pointer rest with
        | some first => readOverflow pages REACH first []
        | none => stop (.failed (.corruption "overflow value stub is malformed"))
      else stop (.failed (.corruption "stored value is missing its tag"))

/-- The chain of a stored value goes with the value. -/
def freeIfOverflow : List UInt8 → Ask State Halt Unit
  | [] => pure ()
  | tag :: rest =>
      if tag = TAG_OVERFLOW then
        match pointer rest with
        | some first => freeOverflow pages REACH first
        | none => stop (.failed (.corruption "overflow value stub is malformed"))
      else pure ()

/-- The start of `insert`: the stored form of a value. -/
def storeValue (key value : List UInt8) : Ask State Halt (List UInt8) :=
  if LEAF_CELL_OVERHEAD + key.length + 1 + value.length ≤ MAX_CELL then
    pure (TAG_INLINE :: value)
  else do
    let first ← writeOverflow pages value
    pure (TAG_OVERFLOW :: pointerBytes first)

/-! ## Descending -/

/-- From a page down to the leaf of a key. -/
def descend (key : List UInt8) : Nat → UInt32 → Ask State Halt (UInt32 × Page)
  | 0, _ => stop .unfinished
  | steps + 1, no => do
      let page ← pages.readPage no
      if isLeaf page then pure (no, page)
      else
        let position ← orPanic (findChild page key)
        let child ← orPanic (internalChild page position)
        descend key steps child

/-- An empty leaf as root. -/
def create : Ask State Halt BTree := do
  let root ← pages.allocPage
  pages.writePage root newLeaf
  pure { root := root }

/-- The value of a key, if it is there. -/
def search (tree : BTree) (key : List UInt8) : Ask State Halt (Option (List UInt8)) := do
  let (_, page) ← descend pages key REACH tree.root
  match ← orPanic (findLeafSlot page key) with
  | .error _ => pure none
  | .ok slot =>
      let stored ← orPanic (leafValue page slot)
      let value ← unwrapValue pages stored
      pure (some value)

/-! ## Inserting -/

/-- Whether the optimistic attempt sufficed. -/
inductive OpOutcome where
  | done
  | restart
  deriving Repr, DecidableEq

/-- The key is above every key of the leaf. -/
def beyondLast (entries : List LeafEntry) (key : List UInt8) : Bool :=
  match entries.getLast? with
  | some last => last.1 < key
  | none => false

/-- The entries with the new one, and the stored value it displaces. -/
def putEntry (entries : List LeafEntry) (key stored : List UInt8) :
    Option (List LeafEntry × Option (List UInt8)) := do
  match ← searchEntries entries key with
  | .ok slot =>
      let old ← entries[slot]?
      pure (entries.set slot (old.1, stored), some old.2)
  | .error slot =>
      let inserted ← insertAt entries slot (key, stored)
      pure (inserted, none)

def freeDisplaced : Option (List UInt8) → Ask State Halt Unit
  | some old => freeIfOverflow pages old
  | none => pure ()

/-- Rewrite the leaf, if the entry fits. -/
def tryInsertOptimistic (tree : BTree) (key stored : List UInt8) : Ask State Halt OpOutcome := do
  let (leafNo, _) ← descend pages key REACH tree.root
  let leaf ← pages.readPage leafNo
  if isLeaf leaf then
    let entries ← orPanic (leafEntries leaf)
    if rightLink leaf ≠ 0 ∧ beyondLast entries key then pure .restart
    else
      let (edited, displaced) ← orPanic (putEntry entries key stored)
      if USABLE < (edited.map leafFootprint).sum then pure .restart
      else
        freeDisplaced pages displaced
        let page ← built (buildLeaf edited (rightLink leaf))
        pages.writePage leafNo page
        pure .done
  else pure .restart

/-- One page where the entries fit it, else two; the left one keeps its number. -/
def storeNode
    {Entry : Type}
    (footprint : Entry → Nat)
    (keyOf : Entry → List UInt8)
    (buildRight : List Entry → Option (Except Error Page))
    (buildLeft : UInt32 → List Entry → Option (Except Error Page))
    (no : UInt32)
    (entries : List Entry) : Ask State Halt (Option InternalEntry) :=
  if (entries.map footprint).sum ≤ USABLE then do
    let page ← built (buildRight entries)
    pages.writePage no page
    pure none
  else do
    let cut ← orPanic (splitIndex (entries.map footprint))
    let newNo ← pages.allocPage
    let separator ← orPanic entries[cut]?
    let left ← built (buildLeft newNo (entries.take cut))
    let right ← built (buildRight (entries.drop cut))
    pages.writePage no left
    pages.writePage newNo right
    pure (some (keyOf separator, newNo))

/-- A separator and the page of the entries from it on, where the page was split. -/
def insertInto : Nat → UInt32 → List UInt8 → List UInt8 → Ask State Halt (Option InternalEntry)
  | 0, _, _, _ => stop .unfinished
  | steps + 1, no, key, stored => do
      let page ← pages.readPage no
      if isLeaf page then
        let entries ← orPanic (leafEntries page)
        let (edited, displaced) ← orPanic (putEntry entries key stored)
        freeDisplaced pages displaced
        storeNode pages leafFootprint Prod.fst (buildLeaf · (rightLink page))
          (fun newNo cells => buildLeaf cells newNo) no edited
      else
        let entries ← orPanic (internalEntries page)
        let position ← orPanic (findChild page key)
        let entry ← orPanic entries[position]?
        match ← insertInto steps entry.2 key stored with
        | none => pure none
        | some split =>
            let inserted ← orPanic (insertAt entries (position + 1) split)
            storeNode pages internalFootprint Prod.fst buildInternal
              (fun _ cells => buildInternal cells) no inserted

/-- The least key of a page. -/
def firstKey (page : Page) : Option (List UInt8) :=
  if isLeaf page then leafKey page 0 else internalKey page 0

/-- The left half moves aside, and the root keeps its number. -/
def growRoot (root : UInt32) (split : InternalEntry) : Ask State Halt Unit := do
  let leftNo ← pages.allocPage
  let left ← pages.readPage root
  pages.writePage leftNo left
  let oldRoot ← pages.readPage root
  let low ← orPanic (firstKey oldRoot)
  let newRoot ← built (buildInternal [(low, leftNo), split])
  pages.writePage root newRoot

/-- The end of `insert`, the stored form of the value at hand. -/
def insertStored (tree : BTree) (key stored : List UInt8) : Ask State Halt Unit := do
  match ← tryInsertOptimistic pages tree key stored with
  | .done => pure ()
  | .restart =>
      match ← insertInto pages REACH tree.root key stored with
      | none => pure ()
      | some split => growRoot pages tree.root split

def tooLarge (key : List UInt8) : Error :=
  .tooLarge (s!"key of {key.length} bytes is too large " ++
    s!"(limit is {MAX_CELL - LEAF_CELL_OVERHEAD - 5} bytes)")

/-- A key that is too large is turned down before the pager is asked. -/
def insert (tree : BTree) (key value : List UInt8) : Ask State Halt (Except Error Unit) :=
  if MAX_CELL < LEAF_CELL_OVERHEAD + key.length + 1 + 4 then pure (.error (tooLarge key))
  else do
    let stored ← storeValue pages key value
    insertStored pages tree key stored
    pure (.ok ())

/-- Insert unless the key is there. -/
def insertIfAbsent (tree : BTree) (key value : List UInt8) :
    Ask State Halt (Except Error Bool) := do
  match ← search pages tree key with
  | some _ => pure (.ok false)
  | none =>
      match ← insert pages tree key value with
      | .error failure => pure (.error failure)
      | .ok _ => pure (.ok true)

/-! ## Deleting -/

/-- A found entry leaves its leaf. -/
def removeEntry (no : UInt32) (entries : List LeafEntry) (slot : Nat) (link : UInt32) :
    Ask State Halt Unit := do
  let old ← orPanic entries[slot]?
  freeIfOverflow pages old.2
  let page ← built (buildLeaf (entries.eraseIdx slot) link)
  pages.writePage no page

/-- Whether the key was there, unless the tree has to be rebalanced. -/
def tryDeleteOptimistic (tree : BTree) (key : List UInt8) : Ask State Halt (Option Bool) := do
  let (leafNo, _) ← descend pages key REACH tree.root
  let leaf ← pages.readPage leafNo
  if isLeaf leaf then
    let entries ← orPanic (leafEntries leaf)
    if rightLink leaf ≠ 0 ∧ beyondLast entries key then pure none
    else
      match ← orPanic (searchEntries entries key) with
      | .error _ => pure (some false)
      | .ok slot =>
          if entries.length = 1 ∧ (rightLink leaf ≠ 0 ∨ leafNo ≠ tree.root) then pure none
          else
            removeEntry pages leafNo entries slot (rightLink leaf)
            pure (some true)
  else pure none

/-- The child and its right sibling, or its left sibling and the child. -/
def mergePair (count child : Nat) : Option (Nat × Nat) :=
  if child + 1 < count then some (child, child + 1)
  else if 0 < child then some (child - 1, child)
  else none

/-- The page of the entries of both, where they fit. -/
def mergedPage (left right : Page) : Ask State Halt (Option Page) :=
  if isLeaf left then do
    let entries ← orPanic (leafEntries left)
    let others ← orPanic (leafEntries right)
    if USABLE < ((entries ++ others).map leafFootprint).sum then pure none
    else
      let page ← built (buildLeaf (entries ++ others) (rightLink right))
      pure (some page)
  else do
    let entries ← orPanic (internalEntries left)
    let others ← orPanic (internalEntries right)
    if USABLE < ((entries ++ others).map internalFootprint).sum then pure none
    else
      let page ← built (buildInternal (entries ++ others))
      pure (some page)

/-- Merge a page that has become thin with a neighbour. -/
def mergeChild (parentNo : UInt32) (child : Nat) : Ask State Halt Unit := do
  let parent ← pages.readPage parentNo
  let entries ← orPanic (internalEntries parent)
  match mergePair entries.length child with
  | none => pure ()
  | some (leftIndex, rightIndex) =>
      let leftEntry ← orPanic entries[leftIndex]?
      let rightEntry ← orPanic entries[rightIndex]?
      let left ← pages.readPage leftEntry.2
      let right ← pages.readPage rightEntry.2
      match ← mergedPage left right with
      | none => pure ()
      | some merged =>
          pages.writePage leftEntry.2 merged
          pages.freePage rightEntry.2
          let shrunk ← built (buildInternal (entries.eraseIdx rightIndex))
          pages.writePage parentNo shrunk

/-- Delete below a page, merging on the way back. -/
def deleteFrom : Nat → UInt32 → List UInt8 → Ask State Halt Bool
  | 0, _, _ => stop .unfinished
  | steps + 1, no, key => do
      let page ← pages.readPage no
      if isLeaf page then
        let entries ← orPanic (leafEntries page)
        match ← orPanic (searchEntries entries key) with
        | .ok slot =>
            removeEntry pages no entries slot (rightLink page)
            pure true
        | .error _ => pure false
      else
        let position ← orPanic (findChild page key)
        let child ← orPanic (internalChild page position)
        let found ← deleteFrom steps child key
        if found then
          mergeChild pages no position
          pure true
        else pure false

/-- A root with a single child takes the child's page. -/
def collapseRoot (root : UInt32) : Nat → Ask State Halt Unit
  | 0 => stop .unfinished
  | steps + 1 => do
      let page ← pages.readPage root
      if isInternal page ∧ cellCount page = 1 then
        let onlyChild ← orPanic (internalChild page 0)
        let child ← pages.readPage onlyChild
        pages.writePage root child
        pages.freePage onlyChild
        collapseRoot root steps
      else pure ()

/-- Whether the key was there; it no longer is. -/
def delete (tree : BTree) (key : List UInt8) : Ask State Halt Bool := do
  match ← tryDeleteOptimistic pages tree key with
  | some found => pure found
  | none =>
      let found ← deleteFrom pages REACH tree.root key
      collapseRoot pages tree.root REACH
      pure found

end BTree

end PrehniteDB
