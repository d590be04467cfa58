import PrehniteDB.SlottedPages

namespace PrehniteDB

namespace SlottedPage

/-!
# Slotted pages read back

The page that entries were built into yields these entries, and its two searches
go by their keys.
-/

theorem mapM_range'
    {Item : Type}
    {reading : Nat → Option Item}
    {items : List Item}
    {start : Nat}
    (reads : ∀ index item, items[index]? = some item → reading (start + index) = some item) :
    (List.range' start items.length).mapM reading = some items := by
  induction items generalizing start with
  | nil => rfl
  | cons item rest inductionHypothesis =>
      have head : reading start = some item := reads 0 item rfl
      have tail : (List.range' (start + 1) rest.length).mapM reading = some rest :=
        inductionHypothesis fun index other found => by
          rw [show start + 1 + index = start + (index + 1) by omega]
          exact reads (index + 1) other found
      rw [List.length_cons, List.range'_succ, List.mapM_cons, head]
      simp only [Option.bind_eq_bind, Option.bind_some, tail, Option.pure_def]

theorem mapM_range
    {Item : Type}
    {reading : Nat → Option Item}
    {items : List Item}
    (reads : ∀ index item, items[index]? = some item → reading index = some item) :
    (List.range items.length).mapM reading = some items := by
  rw [List.range_eq_range']
  exact mapM_range' fun index item found => by
    rw [Nat.zero_add]
    exact reads index item found

/-! ## What is read back -/

abbrev CarriesLeaf (page : Page) (entries : List LeafEntry) : Prop :=
  Carries leafFormat LeafHolds page entries

abbrev CarriesInternal (page : Page) (entries : List InternalEntry) : Prop :=
  Carries internalFormat InternalHolds page entries

section Reading

variable {page : Page}

theorem CarriesLeaf.leafEntry
    {entries : List LeafEntry}
    (carries : CarriesLeaf page entries)
    {index : Nat}
    {entry : LeafEntry}
    (found : entries[index]? = some entry) :
    leafKey page index = some entry.1 ∧ leafValue page index = some entry.2 := by
  obtain ⟨start, upper, told, held⟩ := carries.slot found
  have upper : start + (6 + entry.1.length + entry.2.length) ≤ 4096 := upper
  have size : PAGE_SIZE = 4096 := rfl
  have keyLength : getU16 page start = some entry.1.length := by
    rw [getU16, if_pos (by omega), held.keyLength]
  have valueLength : getU32 page (start + 2) = some (UInt32.ofNat entry.2.length) := by
    rw [getU32, if_pos (by omega), held.valueLength]
  have lengths : (UInt32.ofNat entry.2.length).toNat = entry.2.length := by
    rw [UInt32.toNat_ofNat']
    exact Nat.mod_eq_of_lt (by omega)
  have key : getBytes page (start + LEAF_CELL_OVERHEAD) entry.1.length = some entry.1 :=
    getBytes_of_bytes (show _ ≤ 4096 by simp only [LEAF_CELL_OVERHEAD]; omega) held.key
  have value : getBytes page (start + LEAF_CELL_OVERHEAD + entry.1.length) entry.2.length =
      some entry.2 :=
    getBytes_of_bytes (show _ ≤ 4096 by simp only [LEAF_CELL_OVERHEAD]; omega) held.value
  constructor
  · simp only [leafKey, told, keyLength, key, Option.bind_eq_bind, Option.bind_some]
  · simp only [leafValue, told, keyLength, valueLength, lengths, value, Option.bind_eq_bind,
      Option.bind_some]

theorem CarriesInternal.internalEntry
    {entries : List InternalEntry}
    (carries : CarriesInternal page entries)
    {index : Nat}
    {entry : InternalEntry}
    (found : entries[index]? = some entry) :
    internalKey page index = some entry.1 ∧ internalChild page index = some entry.2 := by
  obtain ⟨start, upper, told, held⟩ := carries.slot found
  have upper : start + (6 + entry.1.length) ≤ 4096 := upper
  have size : PAGE_SIZE = 4096 := rfl
  have keyLength : getU16 page (start + 4) = some entry.1.length := by
    rw [getU16, if_pos (by omega), held.keyLength]
  have child : getU32 page start = some entry.2 := by
    rw [getU32, if_pos (by omega), held.child, UInt32.ofNat_toNat]
  have key : getBytes page (start + INTERNAL_CELL_HEADER) entry.1.length = some entry.1 :=
    getBytes_of_bytes (show _ ≤ 4096 by simp only [INTERNAL_CELL_HEADER]; omega) held.key
  constructor
  · simp only [internalKey, told, keyLength, key, Option.bind_eq_bind, Option.bind_some]
  · simp only [internalChild, told, child, Option.bind_eq_bind, Option.bind_some]

theorem CarriesLeaf.leafEntries
    {entries : List LeafEntry}
    (carries : CarriesLeaf page entries) :
    leafEntries page = some entries := by
  rw [SlottedPage.leafEntries, carries.count]
  refine mapM_range fun index entry found => ?_
  obtain ⟨key, value⟩ := carries.leafEntry found
  simp only [SlottedPage.leafEntry, key, value, Option.bind_eq_bind, Option.bind_some,
    Option.pure_def]

theorem CarriesInternal.internalEntries
    {entries : List InternalEntry}
    (carries : CarriesInternal page entries) :
    internalEntries page = some entries := by
  rw [SlottedPage.internalEntries, carries.count]
  refine mapM_range fun index entry found => ?_
  obtain ⟨key, child⟩ := carries.internalEntry found
  simp only [SlottedPage.internalEntry, key, child, Option.bind_eq_bind, Option.bind_some,
    Option.pure_def]

end Reading

/-! ## Searching a page -/

/-- The slot of the key, or where it would be inserted. -/
def LeafSlot (entries : List LeafEntry) (key : List UInt8) : Except Nat Nat → Prop
  | .ok position => ∃ value, entries[position]? = some (key, value)
  | .error position =>
      position ≤ entries.length ∧
        ∀ index entry, entries[index]? = some entry →
          (index < position → entry.1 < key) ∧ (position ≤ index → key < entry.1)

/-- The last child whose separator is not above the key, where the first separator is below
every key. -/
def RoutesTo (entries : List InternalEntry) (key : List UInt8) (child : Nat) : Prop :=
  ∀ position, position ≤ child ↔
    position = 0 ∨ ∃ entry, entries[position]? = some entry ∧ entry.1 ≤ key

theorem pairwise_keys
    {Item : Type}
    {entries : List (List UInt8 × Item)}
    (ascending : entries.Pairwise fun left right => left.1 < right.1)
    {index other : Nat}
    {entry behind : List UInt8 × Item}
    (found : entries[index]? = some entry)
    (foundBehind : entries[other]? = some behind)
    (before : index < other) :
    entry.1 < behind.1 := by
  obtain ⟨inside, rfl⟩ := List.getElem?_eq_some_iff.mp found
  obtain ⟨insideBehind, rfl⟩ := List.getElem?_eq_some_iff.mp foundBehind
  exact List.pairwise_iff_getElem.mp ascending index other inside insideBehind before

theorem eq_of_compareKeys
    {left right : List UInt8}
    (compared : compareKeys left right = .eq) :
    left = right := by
  refine List.le_antisymm (List.not_lt.mp fun above => ?_) (List.not_lt.mp fun below => ?_)
  · rw [compareKeys_gt_iff.mpr above] at compared
    cases compared
  · rw [compareKeys_lt_iff.mpr below] at compared
    cases compared

section Searching

variable {page : Page} {key : List UInt8}

/-- The key of an entry, by its position. -/
def keyAt {Item : Type} (entries : List (List UInt8 × Item)) (position : Nat) : List UInt8 :=
  ((entries[position]?).map Prod.fst).getD []

theorem keyAt_of
    {Item : Type}
    {entries : List (List UInt8 × Item)}
    {position : Nat}
    {entry : List UInt8 × Item}
    (found : entries[position]? = some entry) :
    keyAt entries position = entry.1 := by
  rw [keyAt, found]
  rfl

theorem CarriesLeaf.findLeafSlot
    {entries : List LeafEntry}
    (carries : CarriesLeaf page entries)
    (ascending : entries.Pairwise fun left right => left.1 < right.1)
    (key : List UInt8) :
    ∃ found, findLeafSlot page key = some found ∧ LeafSlot entries key found := by
  have probed : ∀ position < entries.length,
      (leafKey page position).map (compareKeys · key) =
        some (compareKeys (keyAt entries position) key) := by
    intro position inside
    have found := List.getElem?_eq_getElem inside
    rw [(carries.leafEntry found).1, keyAt_of found]
    rfl
  have sorted : ∀ position other, 0 ≤ position → position < other → other < entries.length →
      compareKeys (keyAt entries other) key ≠ .gt →
        compareKeys (keyAt entries position) key = .lt := by
    intro position other _ before inside notAbove
    have found := List.getElem?_eq_getElem (Nat.lt_trans before inside)
    have foundBehind := List.getElem?_eq_getElem inside
    rw [keyAt_of foundBehind] at notAbove
    rw [keyAt_of found, compareKeys_lt_iff]
    have less := pairwise_keys ascending found foundBehind before
    have upTo : entries[other].1 ≤ key := List.not_lt.mp fun above =>
      notAbove (compareKeys_gt_iff.mpr above)
    rcases List.le_iff_lt_or_eq.mp upTo with below | same
    · exact List.lt_trans less below
    · exact same ▸ less
  obtain ⟨found, searched, ends⟩ := BinarySearch.search_all probed sorted (.inl (Nat.zero_le 1))
  refine ⟨found, by rw [SlottedPage.findLeafSlot, carries.count]; exact searched, ?_⟩
  cases ends with
  | @found position inside here =>
      have there := List.getElem?_eq_getElem inside
      rw [keyAt_of there] at here
      refine ⟨entries[position].2, ?_⟩
      rw [there, ← eq_of_compareKeys here]
  | @between position inside before behind =>
      refine ⟨inside, fun index entry held => ⟨fun below => ?_, fun above => ?_⟩⟩
      · have less := before index (Nat.zero_le _) below
        rw [keyAt_of held] at less
        exact compareKeys_lt_iff.mp less
      · have more := behind index (Nat.zero_le _) above (List.getElem?_eq_some_iff.mp held).1
        rw [keyAt_of held] at more
        exact compareKeys_gt_iff.mp more

/-- The first separator is looked at last, and decides nothing. -/
theorem CarriesInternal.findChild
    {entries : List InternalEntry}
    (carries : CarriesInternal page entries)
    (ascending : entries.tail.Pairwise fun left right => left.1 < right.1)
    (key : List UInt8) :
    ∃ child, findChild page key = some child ∧ RoutesTo entries key child := by
  have probed : ∀ position < entries.length,
      (internalKey page position).map (compareSeparator · key) =
        some (compareSeparator (keyAt entries position) key) := by
    intro position inside
    have found := List.getElem?_eq_getElem inside
    rw [(carries.internalEntry found).1, keyAt_of found]
    rfl
  have lt_iff : ∀ {separator : List UInt8},
      compareSeparator separator key = .lt ↔ separator ≤ key := by
    intro separator
    unfold compareSeparator
    split <;> simp [*]
  have sorted : ∀ position other, 1 ≤ position → position < other → other < entries.length →
      compareSeparator (keyAt entries other) key ≠ .gt →
        compareSeparator (keyAt entries position) key = .lt := by
    intro position other past before inside notAbove
    have found := List.getElem?_eq_getElem (Nat.lt_trans before inside)
    have foundBehind := List.getElem?_eq_getElem inside
    rw [keyAt_of foundBehind] at notAbove
    rw [keyAt_of found, lt_iff]
    have less : entries[position].1 < entries[other].1 := by
      have behind : ∀ {place} (_ : 1 ≤ place), entries.tail[place - 1]? = entries[place]? := by
        intro place positive
        rw [List.getElem?_tail, Nat.sub_add_cancel positive]
      exact pairwise_keys ascending ((behind past).trans found)
        ((behind (Nat.le_trans past (Nat.le_of_lt before))).trans foundBehind) (by omega)
    have upTo : entries[other].1 ≤ key := by
      by_contra above
      exact notAbove (if_neg above)
    exact List.le_trans (List.le_of_lt less) upTo
  obtain ⟨found, searched, ends⟩ := BinarySearch.search_all probed sorted (.inl (Nat.le_refl 1))
  cases ends with
  | found inside here =>
      unfold compareSeparator at here
      split at here <;> cases here
  | @between position inside before behind =>
      refine ⟨position - 1, ?_, fun place => ⟨fun upTo => ?_, fun either => ?_⟩⟩
      · rw [SlottedPage.findChild, carries.count, searched]
        rfl
      · by_cases first : place = 0
        · exact .inl first
        · have held := List.getElem?_eq_getElem (show place < entries.length by omega)
          have less := before place (by omega) (by omega)
          rw [keyAt_of held, lt_iff] at less
          exact .inr ⟨_, held, less⟩
      · rcases either with rfl | ⟨entry, held, notAbove⟩
        · exact Nat.zero_le _
        · by_contra beyond
          have inPage : place < entries.length := (List.getElem?_eq_some_iff.mp held).1
          have more := behind place (by omega) (by omega) inPage
          rw [keyAt_of held, lt_iff.mpr notAbove] at more
          cases more

end Searching

/-! ## Round trips -/

/-- What is read of a leaf is what it was built from. -/
structure LeafPage (entries : List LeafEntry) (link : UInt32) (page : Page) : Prop where
  leaf : isLeaf page = true
  reads : leafEntries page = some entries
  count : cellCount page = entries.length
  linked : rightLink page = link
  slots : (entries.Pairwise fun left right => left.1 < right.1) →
    ∀ key, ∃ found, findLeafSlot page key = some found ∧ LeafSlot entries key found

/-- What is read of an interior page, whose link is 0. -/
structure InternalPage (entries : List InternalEntry) (page : Page) : Prop where
  internal : isInternal page = true
  reads : internalEntries page = some entries
  count : cellCount page = entries.length
  linked : rightLink page = 0
  children : (entries.tail.Pairwise fun left right => left.1 < right.1) →
    ∀ key, ∃ child, findChild page key = some child ∧ RoutesTo entries key child

theorem body_leaf (entries : List LeafEntry) :
    body leafFormat entries = (entries.map leafFootprint).sum := by
  unfold body
  congr 2
  funext entry
  simp only [leafFootprint, leafFormat, Nat.add_assoc]

theorem body_internal (entries : List InternalEntry) :
    body internalFormat entries = (entries.map internalFootprint).sum := by
  unfold body
  congr 2
  funext entry
  simp only [internalFootprint, internalFormat, Nat.add_assoc]

theorem pageType_stays
    {fresh page : Page}
    (same : SameBytes fresh page 0 OFF_CELL_COUNT) :
    pageType page = pageType fresh :=
  (same.mono (Nat.le_refl 0) (by decide)).number

theorem rightLink_stays
    {fresh page : Page}
    (same : SameBytes fresh page 6 HEADER_SIZE) :
    rightLink page = rightLink fresh :=
  congrArg UInt32.ofNat (same.mono (by decide) (by decide)).number

theorem pageType_emptyPage
    {type : Nat}
    (small : type < 256) :
    pageType (emptyPage type) = type := by
  have above : SameBytes (zeroPage.setNumber OFF_TYPE 1 type) (emptyPage type) OFF_TYPE
      (OFF_TYPE + 1) :=
    sameBytes_setNumber _ _ (.inl (by decide))
  rw [pageType, above.number]
  exact Page.number_setNumber_same (by decide) small

theorem rightLink_setRightLink (page : Page) (link : UInt32) :
    rightLink (setRightLink page link) = link := by
  rw [rightLink, setRightLink, Page.number_setNumber_same (by decide) link.toNat_lt,
    UInt32.ofNat_toNat]

theorem rightLink_emptyPage (type : Nat) : rightLink (emptyPage type) = 0 := by
  have zeros : SameBytes zeroPage (emptyPage type) OFF_RIGHT_LINK (OFF_RIGHT_LINK + 4) :=
    (sameBytes_setNumber zeroPage type (.inr (by decide))).trans
      (sameBytes_setNumber _ _ (.inr (by decide)))
  rw [rightLink, zeros.number]
  rfl

/-- A leaf is built exactly when its entries fit, and reads back as them. -/
theorem buildLeaf_spec (entries : List LeafEntry) (link : UInt32) :
    if (entries.map leafFootprint).sum ≤ USABLE then
      ∃ page, buildLeaf entries link = some (.ok page) ∧ CarriesLeaf page entries ∧
        isLeaf page = true ∧ rightLink page = link
    else buildLeaf entries link =
      some (.error (.corruption "build_leaf: entries exceed page capacity")) := by
  have built := buildPage_spec leafLaws (setRightLink newLeaf link)
    "build_leaf: entries exceed page capacity" entries
  rw [body_leaf] at built
  split
  case isFalse tooMuch => rwa [if_neg tooMuch] at built
  case isTrue fits =>
    rw [if_pos fits] at built
    obtain ⟨page, made, carries, type, linked⟩ := built
    have typed : SameBytes newLeaf (setRightLink newLeaf link) 0 OFF_CELL_COUNT :=
      sameBytes_setNumber newLeaf _ (.inl (by decide))
    refine ⟨page, made, carries, ?_, ?_⟩
    · rw [isLeaf, pageType_stays type, pageType_stays typed, newLeaf,
        pageType_emptyPage (by decide)]
      rfl
    · rw [rightLink_stays linked, rightLink_setRightLink]

/-- An internal page is built exactly when its entries fit. -/
theorem buildInternal_spec (entries : List InternalEntry) :
    if (entries.map internalFootprint).sum ≤ USABLE then
      ∃ page, buildInternal entries = some (.ok page) ∧ CarriesInternal page entries ∧
        isInternal page = true ∧ rightLink page = 0
    else buildInternal entries =
      some (.error (.corruption "build_internal: entries exceed page capacity")) := by
  have built := buildPage_spec internalLaws newInternal
    "build_internal: entries exceed page capacity" entries
  rw [body_internal] at built
  split
  case isFalse tooMuch => rwa [if_neg tooMuch] at built
  case isTrue fits =>
    rw [if_pos fits] at built
    obtain ⟨page, made, carries, type, linked⟩ := built
    refine ⟨page, made, carries, ?_, ?_⟩
    · rw [isInternal, pageType_stays type, newInternal, pageType_emptyPage (by decide)]
      rfl
    · rw [rightLink_stays linked, newInternal, rightLink_emptyPage]

/-- Entries that fit a page can be read back and searched; others are turned down. -/
theorem pages_round_trip :
    (∀ (entries : List LeafEntry) (link : UInt32),
      if (entries.map leafFootprint).sum ≤ USABLE then
        ∃ page, buildLeaf entries link = some (.ok page) ∧ LeafPage entries link page
      else ∃ failure, buildLeaf entries link = some (.error failure)) ∧
    ∀ entries : List InternalEntry,
      if (entries.map internalFootprint).sum ≤ USABLE then
        ∃ page, buildInternal entries = some (.ok page) ∧ InternalPage entries page
      else ∃ failure, buildInternal entries = some (.error failure) := by
  constructor
  · intro entries link
    have built := buildLeaf_spec entries link
    split
    case isFalse tooMuch => exact ⟨_, by rwa [if_neg tooMuch] at built⟩
    case isTrue fits =>
      rw [if_pos fits] at built
      obtain ⟨page, made, carries, leaf, linked⟩ := built
      exact ⟨page, made, leaf, carries.leafEntries, carries.count, linked, carries.findLeafSlot⟩
  · intro entries
    have built := buildInternal_spec entries
    split
    case isFalse tooMuch => exact ⟨_, by rwa [if_neg tooMuch] at built⟩
    case isTrue fits =>
      rw [if_pos fits] at built
      obtain ⟨page, made, carries, internal, linked⟩ := built
      exact ⟨page, made, internal, carries.internalEntries, carries.count, linked,
        carries.findChild⟩

end SlottedPage

end PrehniteDB
