import PrehniteDB.PageRoundTrip

namespace PrehniteDB

namespace SlottedPage

/-!
# Splitting a node

Where an overflowing node is cut, and the descent of `insert_into`, which
rebuilds each node on its way back up.
-/

/-- The balanced cut, if both sides fit. -/
def balancedCut (size total : Nat) : List Nat → Nat → Nat → Option Nat
  | [], _, _ => none
  | footprint :: rest, position, sum =>
      let filled := sum + footprint
      if total ≤ filled * 2 then
        if position + 1 < size ∧ filled ≤ USABLE ∧ total - filled ≤ USABLE then some (position + 1)
        else none
      else balancedCut size total rest (position + 1) filled

/-- The largest prefix that fits. -/
def largestPrefix : List Nat → Nat → Nat → Nat
  | [], position, _ => position
  | footprint :: rest, position, sum =>
      if USABLE < sum + footprint then position
      else largestPrefix rest (position + 1) (sum + footprint)

/-- `clamp` panics where the node has fewer than two cells. -/
def splitIndex (footprints : List Nat) : Option Nat :=
  if footprints.length < 2 then none
  else
    match balancedCut footprints.length footprints.sum footprints 0 0 with
    | some cut => some cut
    | none => some (min (max (largestPrefix footprints 0 0) 1) (footprints.length - 1))

/-! ## Cuts that fit -/

/-- Both sides of a cut fit a page, and neither is empty. -/
structure Cut (footprints : List Nat) (position : Nat) : Prop where
  left : 1 ≤ position
  right : position < footprints.length
  leftFits : (footprints.take position).sum ≤ USABLE
  rightFits : (footprints.drop position).sum ≤ USABLE

theorem balancedCut_cut
    {before rest : List Nat}
    {cut : Nat}
    (found : balancedCut (before ++ rest).length (before ++ rest).sum rest before.length
      before.sum = some cut) :
    Cut (before ++ rest) cut := by
  induction rest generalizing before with
  | nil => cases found
  | cons footprint rest inductionHypothesis =>
      have joined : before ++ footprint :: rest = (before ++ [footprint]) ++ rest := by simp
      have filled : (before ++ [footprint]).sum = before.sum + footprint := by simp
      have length : (before ++ [footprint]).length = before.length + 1 := by simp
      unfold balancedCut at found
      dsimp only at found
      split at found
      · split at found
        · next enough conditions =>
            cases found
            obtain ⟨inside, leftFits, rightFits⟩ := conditions
            have taken : ((before ++ [footprint]) ++ rest).take (before.length + 1) =
                before ++ [footprint] := by
              rw [← length, List.take_left]
            have dropped : ((before ++ [footprint]) ++ rest).drop (before.length + 1) = rest := by
              rw [← length, List.drop_left]
            have total : (before ++ footprint :: rest).sum = before.sum + footprint + rest.sum := by
              rw [joined, List.sum_append, filled]
            refine ⟨Nat.succ_pos _, inside, ?_, ?_⟩
            · rw [joined, taken, filled]
              exact leftFits
            · rw [joined, dropped]
              omega
        · cases found
      · rw [joined] at found ⊢
        exact inductionHypothesis (by rw [length, filled]; exact found)

/-- The prefix fits, and one entry more does not. -/
theorem largestPrefix_spec
    {before rest : List Nat}
    (fits : before.sum ≤ USABLE) :
    ∃ taken left, rest = taken ++ left ∧
      largestPrefix rest before.length before.sum = (before ++ taken).length ∧
      (before ++ taken).sum ≤ USABLE ∧
      ∀ footprint, left.head? = some footprint → USABLE < (before ++ taken).sum + footprint := by
  induction rest generalizing before with
  | nil => exact ⟨[], [], rfl, by simp [largestPrefix], by simpa using fits, by simp⟩
  | cons footprint rest inductionHypothesis =>
      have filled : (before ++ [footprint]).sum = before.sum + footprint := by simp
      have length : (before ++ [footprint]).length = before.length + 1 := by simp
      unfold largestPrefix
      split
      · next tooMuch =>
          refine ⟨[], footprint :: rest, rfl, by simp, by simpa using fits, ?_⟩
          rintro _ ⟨⟩
          simpa using tooMuch
      · next more =>
          obtain ⟨taken, left, split, reached, room, stopped⟩ :=
            @inductionHypothesis (before ++ [footprint]) (by rw [filled]; omega)
          rw [length, filled] at reached
          rw [List.append_assoc] at reached room stopped
          exact ⟨footprint :: taken, left, by rw [split, List.cons_append], reached, room, stopped⟩

/-- What overflows by one entry of at most half a page can be cut in two pages. -/
theorem splitIndex_cut
    {footprints : List Nat}
    (small : ∀ footprint ∈ footprints, footprint ≤ MAX_CELL + SLOT_SIZE)
    (overflows : USABLE < footprints.sum)
    (almost : ∃ added ∈ footprints, footprints.sum - added ≤ USABLE) :
    ∃ cut, splitIndex footprints = some cut ∧ Cut footprints cut := by
  have usable : USABLE = 4080 := rfl
  have half : MAX_CELL + SLOT_SIZE = 2040 := rfl
  obtain ⟨taken, left, split, reached, fits, stopped⟩ :=
    @largestPrefix_spec [] footprints (Nat.zero_le _)
  rw [List.nil_append] at reached fits stopped
  -- some footprints are taken and some are left
  have leftover : left ≠ [] := by
    rintro rfl
    rw [List.append_nil] at split
    rw [split] at overflows
    omega
  obtain ⟨next, behind, rfl⟩ := List.exists_cons_of_ne_nil leftover
  have nextSmall : next ≤ MAX_CELL + SLOT_SIZE := small next (by simp [split])
  have full : USABLE < taken.sum + next := stopped next rfl
  have some_ : taken ≠ [] := by
    rintro rfl
    rw [List.sum_nil] at full
    omega
  have positive : 0 < taken.length := List.length_pos_iff.mpr some_
  have lengths : footprints.length = taken.length + (behind.length + 1) := by
    rw [split, List.length_append, List.length_cons]
  have sums : footprints.sum = taken.sum + (next + behind.sum) := by
    rw [split, List.sum_append, List.sum_cons]
  unfold splitIndex
  rw [if_neg (by omega)]
  cases balanced : balancedCut footprints.length footprints.sum footprints 0 0 with
  | some cut => exact ⟨cut, rfl, @balancedCut_cut [] footprints cut balanced⟩
  | none =>
      refine ⟨taken.length, ?_, positive, by omega, ?_, ?_⟩
      · change some (min (max (largestPrefix footprints 0 0) 1) (footprints.length - 1)) = _
        rw [show largestPrefix footprints 0 0 = taken.length from reached]
        congr 1
        omega
      · rw [split, List.take_left]
        exact fits
      · obtain ⟨added, member, rest⟩ := almost
        have addedSmall := small added member
        rw [split, List.drop_left, List.sum_cons]
        omega

/-! ## Inserting into a node -/

/-- What stops an insertion: the pager, a node that does not fit its page, or a panic. -/
inductive Fault where
  | pager (failure : Error)
  | build (failure : Error)
  | panic
  /-- The bound on the descent was too small. -/
  | unfinished

/-- What `insert_into` asks of the pager. -/
structure PageStore (State : Type) where
  readPage : State → UInt32 → Except Error Page
  writePage : State → UInt32 → Page → Except Error State
  allocPage : State → Except Error (UInt32 × State)
  freeIfOverflow : State → List UInt8 → Except Error State

def asked {Result : Type} : Except Error Result → Except Fault Result
  | .ok result => .ok result
  | .error failure => .error (.pager failure)

def orPanic {Result : Type} : Option Result → Except Fault Result
  | some result => .ok result
  | none => .error .panic

def built : Option (Except Error Page) → Except Fault Page
  | some (.ok page) => .ok page
  | some (.error failure) => .error (.build failure)
  | none => .error .panic

/-- `binary_search_by` over the entries of a leaf. -/
def searchEntries (entries : List LeafEntry) (key : List UInt8) : Option (Except Nat Nat) :=
  BinarySearch.search (fun position => (entries[position]?).map fun entry => compareKeys entry.1 key)
    0 entries.length

/-- `Vec::insert`. -/
def insertAt {Entry : Type} (entries : List Entry) (position : Nat) (entry : Entry) :
    Option (List Entry) :=
  if position ≤ entries.length then some (entries.insertIdx position entry) else none

section Insertion

variable {State : Type} (store : PageStore State)

/-- A separator and the page that holds the entries from it on. -/
abbrev Split := Option InternalEntry

/-- One page where the entries fit it, else two; the left one keeps its number. -/
def storeNode
    {Entry : Type}
    (footprint : Entry → Nat)
    (keyOf : Entry → List UInt8)
    (buildRight : List Entry → Option (Except Error Page))
    (buildLeft : UInt32 → List Entry → Option (Except Error Page))
    (state : State)
    (no : UInt32)
    (entries : List Entry) : Except Fault (Split × State) :=
  if (entries.map footprint).sum ≤ USABLE then do
    let page ← built (buildRight entries)
    let later ← asked (store.writePage state no page)
    pure (none, later)
  else do
    let cut ← orPanic (splitIndex (entries.map footprint))
    let (newNo, allocated) ← asked (store.allocPage state)
    let separator ← orPanic entries[cut]?
    let left ← built (buildLeft newNo (entries.take cut))
    let right ← built (buildRight (entries.drop cut))
    let halfway ← asked (store.writePage allocated no left)
    let later ← asked (store.writePage halfway newNo right)
    pure (some (keyOf separator, newNo), later)

/-- The entries of a leaf with the new one, and the state behind the old value's chain. -/
def editLeaf (state : State) (entries : List LeafEntry) (key stored : List UInt8) :
    Except Fault (List LeafEntry × State) := do
  match ← orPanic (searchEntries entries key) with
  | .ok position =>
      let old ← orPanic entries[position]?
      let later ← asked (store.freeIfOverflow state old.2)
      pure (entries.set position (old.1, stored), later)
  | .error position =>
      let inserted ← orPanic (insertAt entries position (key, stored))
      pure (inserted, state)

def insertInto : Nat → State → UInt32 → List UInt8 → List UInt8 → Except Fault (Split × State)
  | 0, _, _, _, _ => .error .unfinished
  | depth + 1, state, no, key, stored => do
      let page ← asked (store.readPage state no)
      if isLeaf page then
        let entries ← orPanic (leafEntries page)
        let (edited, later) ← editLeaf store state entries key stored
        storeNode store leafFootprint Prod.fst (buildLeaf · (rightLink page))
          (fun newNo cells => buildLeaf cells newNo) later no edited
      else
        let entries ← orPanic (internalEntries page)
        let position ← orPanic (findChild page key)
        let entry ← orPanic entries[position]?
        match ← insertInto depth state entry.2 key stored with
        | (none, later) => pure (none, later)
        | (some split, later) =>
            let inserted ← orPanic (insertAt entries (position + 1) split)
            storeNode store internalFootprint Prod.fst buildInternal
              (fun _ cells => buildInternal cells) later no inserted

end Insertion

/-! ## Nodes that stay within their pages -/

/-- A page that holds small cells, and leads to nodes of the tree only. -/
inductive NodePage (nodes : UInt32 → Prop) (page : Page) : Prop where
  | leaf
      {entries : List LeafEntry}
      (type : isLeaf page = true)
      (carries : CarriesLeaf page entries)
      (small : ∀ entry ∈ entries, leafFootprint entry ≤ MAX_CELL + SLOT_SIZE)
  | internal
      {entries : List InternalEntry}
      (type : isLeaf page = false)
      (carries : CarriesInternal page entries)
      (small : ∀ entry ∈ entries, internalFootprint entry ≤ MAX_CELL + SLOT_SIZE)
      (nonempty : entries ≠ [])
      (children : ∀ entry ∈ entries, nodes entry.2)

/-- Whatever is read of a node of the tree is the page of one. -/
def Tree {State : Type} (store : PageStore State) (state : State) (nodes : UInt32 → Prop) : Prop :=
  ∀ no page, nodes no → store.readPage state no = .ok page → NodePage nodes page

/-- No node is turned down by its page, and nothing panics. -/
def Fault.isForeign : Fault → Prop
  | .pager _ | .unfinished => True
  | .build _ | .panic => False

/-- An outcome whose fault, if any, is not a node's, and whose result satisfies the condition. -/
def Sound {Result : Type} (condition : Result → Prop) : Except Fault Result → Prop
  | .ok result => condition result
  | .error fault => fault.isForeign

section Soundness

variable {Result Next : Type}

theorem Sound.bind
    {first : Except Fault Result}
    {second : Result → Except Fault Next}
    {middle : Result → Prop}
    {condition : Next → Prop}
    (before : Sound middle first)
    (behind : ∀ result, middle result → Sound condition (second result)) :
    Sound condition (first >>= second) := by
  cases first with
  | error fault => exact before
  | ok result => exact behind result before

theorem Sound.known
    {result : Result}
    {second : Result → Except Fault Next}
    {condition : Next → Prop}
    (behind : Sound condition (second result)) :
    Sound condition (.ok result >>= second) :=
  behind

theorem sound_asked
    {outcome : Except Error Result}
    {condition : Result → Prop}
    (holds : ∀ result, outcome = .ok result → condition result) :
    Sound condition (asked outcome) := by
  cases outcome with
  | error failure => trivial
  | ok result => exact holds result rfl

theorem cut_sums
    {Entry : Type}
    (footprint : Entry → Nat)
    (entries : List Entry)
    (cut : Nat) :
    ((entries.take cut).map footprint).sum = ((entries.map footprint).take cut).sum ∧
      ((entries.drop cut).map footprint).sum = ((entries.map footprint).drop cut).sum := by
  rw [List.map_take, List.map_drop]
  exact ⟨rfl, rfl⟩

/-- The entries fit, or would without one of them. -/
def Almost {Entry : Type} (footprint : Entry → Nat) (entries : List Entry) : Prop :=
  (∀ entry ∈ entries, footprint entry ≤ MAX_CELL + SLOT_SIZE) ∧
    ∃ added ∈ entries, (entries.map footprint).sum ≤ USABLE + footprint added

/-- The separator that a node hands up makes a small cell. -/
def SplitSmall {State : Type} (outcome : Split × State) : Prop :=
  ∀ split, outcome.1 = some split → internalFootprint split ≤ MAX_CELL + SLOT_SIZE

theorem storeNode_sound
    {State Entry : Type}
    (store : PageStore State)
    {footprint : Entry → Nat}
    {keyOf : Entry → List UInt8}
    {buildRight : List Entry → Option (Except Error Page)}
    {buildLeft : UInt32 → List Entry → Option (Except Error Page)}
    (builds : ∀ cells, (cells.map footprint).sum ≤ USABLE →
      (∃ page, buildRight cells = some (.ok page)) ∧
        ∀ newNo, ∃ page, buildLeft newNo cells = some (.ok page))
    (covers : ∀ entry newNo, internalFootprint (keyOf entry, newNo) ≤ footprint entry)
    (state : State)
    (no : UInt32)
    {entries : List Entry}
    (almost : Almost footprint entries) :
    Sound SplitSmall
      (storeNode store footprint keyOf buildRight buildLeft state no entries) := by
  unfold storeNode
  split
  case isTrue fits =>
    obtain ⟨page, made⟩ := (builds entries fits).1
    rw [made]
    refine Sound.known ?_
    exact Sound.bind (sound_asked fun _ _ => trivial) fun later (_ : True) split found => by
      cases found
  case isFalse tooMuch =>
    obtain ⟨small, added, member, room⟩ := almost
    obtain ⟨cut, chosen, good⟩ := @splitIndex_cut (entries.map footprint)
      (by simpa using small) (Nat.lt_of_not_le tooMuch)
      ⟨footprint added, List.mem_map_of_mem member, by omega⟩
    obtain ⟨takenSum, droppedSum⟩ := cut_sums footprint entries cut
    have inside : cut < entries.length := by simpa using good.right
    obtain ⟨right, madeRight⟩ := (builds (entries.drop cut) (droppedSum ▸ good.rightFits)).1
    rw [chosen]
    refine Sound.known ?_
    refine Sound.bind (sound_asked fun _ _ => trivial) fun (newNo, allocated) (_ : True) => ?_
    obtain ⟨left, madeLeft⟩ := (builds (entries.take cut) (takenSum ▸ good.leftFits)).2 newNo
    rw [List.getElem?_eq_getElem inside]
    refine Sound.known ?_
    rw [madeLeft]
    refine Sound.known ?_
    rw [madeRight]
    refine Sound.known ?_
    refine Sound.bind (sound_asked fun _ _ => trivial) fun halfway (_ : True) => ?_
    refine Sound.bind (sound_asked fun _ _ => trivial) fun later (_ : True) => ?_
    intro split found
    cases found
    exact Nat.le_trans (covers entries[cut] newNo) (small _ (List.getElem_mem inside))

end Soundness

/-! ## The descent -/

section Descent

/-- An entry that is put in adds its footprint. -/
theorem sum_insertIdx
    {Entry : Type}
    (footprint : Entry → Nat)
    {entries : List Entry}
    {position : Nat}
    (entry : Entry)
    (inside : position ≤ entries.length) :
    ((entries.insertIdx position entry).map footprint).sum =
      footprint entry + (entries.map footprint).sum := by
  have same := ((List.perm_insertIdx entry entries inside).map footprint).sum_nat
  rw [same, List.map_cons, List.sum_cons]

theorem sum_set_le
    {Entry : Type}
    (footprint : Entry → Nat)
    {entries : List Entry}
    {position : Nat}
    (entry : Entry)
    (inside : position < entries.length) :
    ((entries.set position entry).map footprint).sum ≤
      (entries.map footprint).sum + footprint entry := by
  have split : entries = entries.take position ++ entries.drop position :=
    (List.take_append_drop position entries).symm
  have dropped : entries.drop position = entries[position] :: entries.drop (position + 1) :=
    List.drop_eq_getElem_cons inside
  have whole : (entries.map footprint).sum =
      ((entries.take position).map footprint).sum +
        (footprint entries[position] + ((entries.drop (position + 1)).map footprint).sum) := by
    conv_lhs => rw [split, dropped]
    rw [List.map_append, List.sum_append, List.map_cons, List.sum_cons]
  rw [List.set_eq_take_append_cons_drop, if_pos inside, List.map_append, List.sum_append,
    List.map_cons, List.sum_cons, whole]
  omega

theorem editLeaf_sound
    {State : Type}
    (store : PageStore State)
    (state : State)
    {entries : List LeafEntry}
    {key stored : List UInt8}
    (small : ∀ entry ∈ entries, leafFootprint entry ≤ MAX_CELL + SLOT_SIZE)
    (fits : (entries.map leafFootprint).sum ≤ USABLE)
    (smallNew : leafFootprint (key, stored) ≤ MAX_CELL + SLOT_SIZE) :
    Sound (fun edited => Almost leafFootprint edited.1)
      (editLeaf store state entries key stored) := by
  have probed : ∀ position < entries.length,
      (entries[position]?).map (fun entry => compareKeys entry.1 key) =
        some (compareKeys (keyAt entries position) key) := by
    intro position inside
    have found := List.getElem?_eq_getElem inside
    rw [found, keyAt_of found]
    rfl
  obtain ⟨found, searched, ends⟩ := BinarySearch.search_unordered probed
  unfold editLeaf
  rw [show searchEntries entries key = some found from searched]
  refine Sound.known ?_
  cases ends with
  | @found position inside here =>
      have there := List.getElem?_eq_getElem inside
      have sameKey : entries[position].1 = key := eq_of_compareKeys (keyAt_of there ▸ here)
      dsimp only
      rw [there]
      refine Sound.known ?_
      refine Sound.bind (sound_asked fun _ _ => trivial) fun later (_ : True) => ?_
      change Almost leafFootprint (entries.set position (entries[position].1, stored))
      rw [sameKey]
      refine ⟨fun entry member => ?_, (key, stored), ?_, ?_⟩
      · rcases List.mem_or_eq_of_mem_set member with old | rfl
        · exact small entry old
        · exact smallNew
      · exact List.mem_set inside (key, stored)
      · have bound := @sum_set_le _ leafFootprint entries position (key, stored) inside
        omega
  | @between position inside before behind =>
      dsimp only
      rw [insertAt, if_pos inside]
      refine Sound.known ?_
      change Almost leafFootprint (entries.insertIdx position (key, stored))
      refine ⟨fun entry member => ?_, (key, stored), ?_, ?_⟩
      · rcases (List.mem_insertIdx inside).mp member with rfl | old
        · exact smallNew
        · exact small entry old
      · exact (List.mem_insertIdx inside).mpr (.inl rfl)
      · have sum := @sum_insertIdx _ leafFootprint entries position (key, stored) inside
        omega

/-- The first separator counts as below the key, so a child is found in any order. -/
theorem findChild_inside
    {page : Page}
    {entries : List InternalEntry}
    (carries : CarriesInternal page entries)
    (nonempty : entries ≠ [])
    (key : List UInt8) :
    ∃ position, findChild page key = some position ∧ position < entries.length := by
  have probed : ∀ position < entries.length,
      (internalKey page position).map (compareSeparator · key) =
        some (compareSeparator (keyAt entries position) key) := by
    intro position inside
    have found := List.getElem?_eq_getElem inside
    rw [(carries.internalEntry found).1, keyAt_of found]
    rfl
  have positive : 0 < entries.length := List.length_pos_iff.mpr nonempty
  obtain ⟨found, searched, ends⟩ := BinarySearch.search_unordered probed
  cases ends with
  | @found position inside here =>
      refine ⟨position - 1, ?_, by omega⟩
      rw [findChild, carries.count, searched]
      rfl
  | @between position inside before behind =>
      refine ⟨position - 1, ?_, by omega⟩
      rw [findChild, carries.count, searched]
      rfl

theorem buildLeaf_builds (cells : List LeafEntry) (link : UInt32)
    (fits : (cells.map leafFootprint).sum ≤ USABLE) :
    ∃ page, buildLeaf cells link = some (.ok page) := by
  have made := buildLeaf_spec cells link
  rw [if_pos fits] at made
  obtain ⟨page, result, -⟩ := made
  exact ⟨page, result⟩

theorem buildInternal_builds (cells : List InternalEntry)
    (fits : (cells.map internalFootprint).sum ≤ USABLE) :
    ∃ page, buildInternal cells = some (.ok page) := by
  have made := buildInternal_spec cells
  rw [if_pos fits] at made
  obtain ⟨page, result, -⟩ := made
  exact ⟨page, result⟩

theorem insertInto_sound
    {State : Type}
    (store : PageStore State)
    {state : State}
    {nodes : UInt32 → Prop}
    (tree : Tree store state nodes)
    {key stored : List UInt8}
    (small : leafFootprint (key, stored) ≤ MAX_CELL + SLOT_SIZE)
    (depth : Nat)
    {no : UInt32}
    (node : nodes no) :
    Sound SplitSmall (insertInto store depth state no key stored) := by
  induction depth generalizing no with
  | zero => trivial
  | succ depth inductionHypothesis =>
      refine Sound.bind (sound_asked fun page read => tree no page node read) fun page isNode => ?_
      cases isNode with
      | @leaf entries type carries smallCells =>
          rw [type, if_pos rfl, carries.leafEntries]
          refine Sound.known ?_
          have fits := carries.fits
          rw [body_leaf] at fits
          refine Sound.bind (editLeaf_sound store state smallCells fits small)
            fun (edited, later) almost => ?_
          exact storeNode_sound store
            (fun cells room => ⟨buildLeaf_builds cells (rightLink page) room,
              fun newNo => buildLeaf_builds cells newNo room⟩)
            (fun entry newNo => Nat.le_add_right _ entry.2.length) later no almost
      | @internal entries type carries smallCells nonempty children =>
          obtain ⟨position, routed, inside⟩ := findChild_inside carries nonempty key
          rw [type, if_neg (by simp), carries.internalEntries, routed]
          refine Sound.known (Sound.known ?_)
          rw [List.getElem?_eq_getElem inside]
          refine Sound.known ?_
          have child : nodes entries[position].2 := children _ (List.getElem_mem inside)
          refine Sound.bind (inductionHypothesis child) fun (split, later) smallSplit => ?_
          cases split with
          | none => exact fun split found => by cases found
          | some split =>
              have smallSplit := smallSplit split rfl
              have fits := carries.fits
              rw [body_internal] at fits
              dsimp only
              rw [insertAt, if_pos (show position + 1 ≤ entries.length from inside)]
              refine Sound.known ?_
              have almost : Almost internalFootprint (entries.insertIdx (position + 1) split) := by
                refine ⟨fun entry member => ?_, split, ?_, ?_⟩
                · rcases (List.mem_insertIdx inside).mp member with rfl | old
                  · exact smallSplit
                  · exact smallCells entry old
                · exact (List.mem_insertIdx inside).mpr (.inl rfl)
                · rw [sum_insertIdx internalFootprint split inside]
                  omega
              exact storeNode_sound store
                (fun cells room => ⟨buildInternal_builds cells room,
                  fun _ => buildInternal_builds cells room⟩)
                (fun entry newNo => Nat.le_refl _) later no almost

end Descent
theorem nodePage_of_buildLeaf
    {entries : List LeafEntry}
    {link : UInt32}
    {page : Page}
    (made : buildLeaf entries link = some (.ok page))
    (small : ∀ entry ∈ entries, leafFootprint entry ≤ MAX_CELL + SLOT_SIZE)
    (nodes : UInt32 → Prop) :
    NodePage nodes page := by
  have spec := buildLeaf_spec entries link
  split at spec
  · obtain ⟨other, same, carries, type, -⟩ := spec
    rw [made] at same
    cases same
    exact .leaf type carries small
  · rw [made] at spec
    cases spec

/-- A node that overflows by an insertion is cut where both pages fit, so none is turned down. -/
theorem split_always_fits :
    (∀ footprints : List Nat,
      (∀ footprint ∈ footprints, footprint ≤ MAX_CELL + SLOT_SIZE) →
      USABLE < footprints.sum →
      (∃ added ∈ footprints, footprints.sum - added ≤ USABLE) →
      ∃ cut, splitIndex footprints = some cut ∧ Cut footprints cut) ∧
    ∀ (State : Type) (store : PageStore State) (state : State) (nodes : UInt32 → Prop),
      Tree store state nodes →
      ∀ (key stored : List UInt8), leafFootprint (key, stored) ≤ MAX_CELL + SLOT_SIZE →
      ∀ (depth : Nat) (no : UInt32), nodes no →
        (∀ failure, insertInto store depth state no key stored ≠ .error (.build failure)) ∧
          insertInto store depth state no key stored ≠ .error .panic := by
  refine ⟨fun footprints small overflows almost => splitIndex_cut small overflows almost, ?_⟩
  intro State store state nodes tree key stored small depth no node
  have sound := insertInto_sound store tree small depth node
  constructor
  · intro failure failed
    rw [failed] at sound
    exact sound
  · intro panicked
    rw [panicked] at sound
    exact sound

/-- Cells whose balanced cut does not fit, and a tree of one leaf. -/
theorem split_always_fits_skewed :
    (∃ cut, splitIndex [1030, 1030, 2040, 2020] = some cut ∧ Cut [1030, 1030, 2040, 2020] cut) ∧
      ∃ page, buildLeaf [([7], [0, 1])] 0 = some (.ok page) ∧
        @insertInto Unit
          { readPage := fun _ _ => .ok page
            writePage := fun _ _ _ => .ok ()
            allocPage := fun _ => .ok (2, ())
            freeIfOverflow := fun _ _ => .ok () }
          1 () 1 [7] [0, 2] ≠ .error .panic := by
  refine ⟨split_always_fits.1 [1030, 1030, 2040, 2020] (by decide) (by decide) (by decide), ?_⟩
  have spec := buildLeaf_spec [([7], [0, 1])] 0
  rw [if_pos (by decide)] at spec
  obtain ⟨page, made, -⟩ := spec
  refine ⟨page, made, (split_always_fits.2 Unit _ () (fun no => no = 1) ?_ [7] [0, 2] (by decide)
    1 1 rfl).2⟩
  rintro no found _ ⟨⟩
  exact nodePage_of_buildLeaf made (by decide) _

end SlottedPage

end PrehniteDB
