import Mathlib.Data.Fintype.Card
import PrehniteDB.BTree

namespace PrehniteDB

/-!
# Overflow chains

A value that does not fit its cell is cut in chunks, and each chunk is on a page that
names the next one.  What is spilled is read back, and its pages are given back.
-/

open PagedStore
open SlottedPage hiding orPanic built

namespace BTree

/-- The pager stopped the operation. -/
def Halt.isForeign : Halt → Prop
  | .pager _ | .hangs | .full => True
  | .failed _ | .panic | .unfinished => False

/-- The value behind a chain of overflow pages. -/
inductive Spills (images : UInt32 → Page) : UInt32 → List UInt8 → List UInt32 → Prop where
  | nil : Spills images 0 [] []
  | cons
      {no : UInt32}
      {chunk value : List UInt8}
      {chain : List UInt32}
      (nonzero : no ≠ 0)
      (inside : OVERFLOW_HEADER + chunk.length ≤ PAGE_SIZE)
      (length : (images no).number 4 4 = chunk.length)
      (bytes : getBytes (images no) OVERFLOW_HEADER chunk.length = some chunk)
      (later : Spills images (nextPointer (images no)) value chain) :
      Spills images no (chunk ++ value) (no :: chain)

/-- What a stored value spells, and the pages that hold it. -/
inductive Spells (images : UInt32 → Page) : List UInt8 → List UInt8 → List UInt32 → Prop where
  | inline (value : List UInt8) : Spells images (TAG_INLINE :: value) value []
  | overflow
      {first : UInt32}
      {value : List UInt8}
      {chain : List UInt32}
      (spills : Spills images first value chain) :
      Spells images (TAG_OVERFLOW :: pointerBytes first) value chain

section Images

variable {images later : UInt32 → Page} {value : List UInt8} {chain : List UInt32}

theorem Spills.congr
    {first : UInt32}
    (spills : Spills images first value chain)
    (same : Same chain images later) :
    Spills later first value chain := by
  induction spills with
  | nil => exact .nil
  | cons nonzero inside length bytes behind inductionHypothesis =>
      have here := same _ List.mem_cons_self
      refine .cons nonzero inside (here ▸ length) (here ▸ bytes) ?_
      rw [here]
      exact inductionHypothesis fun no member => same no (List.mem_cons_of_mem _ member)

theorem Spells.congr
    {stored : List UInt8}
    (spells : Spells images stored value chain)
    (same : Same chain images later) :
    Spells later stored value chain := by
  cases spells with
  | inline => exact .inline value
  | overflow spills => exact .overflow (spills.congr same)

end Images

/-! ## The bytes of a page of a chain -/

theorem overflowPage_spec
    (next : UInt32)
    {chunk : List UInt8}
    (inside : OVERFLOW_HEADER + chunk.length ≤ PAGE_SIZE) :
    ∃ page, overflowPage next chunk = some page ∧ nextPointer page = next ∧
      page.number 4 4 = chunk.length ∧
      getBytes page OVERFLOW_HEADER chunk.length = some chunk := by
  have room : 8 + chunk.length ≤ 4096 := inside
  let linked := zeroPage.setNumber 0 4 next.toNat
  let sized := linked.setNumber 4 4 (UInt32.ofNat chunk.length).toNat
  have short : (UInt32.ofNat chunk.length).toNat = chunk.length := by
    rw [UInt32.toNat_ofNat']
    exact Nat.mod_eq_of_lt (by omega)
  have linking : putU32 zeroPage 0 next = some linked := if_pos (by decide)
  have sizing : putU32 linked 4 (UInt32.ofNat chunk.length) = some sized := if_pos (by decide)
  obtain ⟨page, copied⟩ := @putBytes_fits sized OVERFLOW_HEADER chunk inside
  have linkStays : SameBytes linked page 0 4 :=
    (sameBytes_setNumber linked _ (.inl (by decide))).trans
      (sameBytes_putBytes copied (.inl (by decide)))
  have sizeStays : SameBytes sized page 4 (4 + 4) :=
    sameBytes_putBytes copied (.inl (by decide))
  refine ⟨page, ?_, ?_, ?_, ?_⟩
  · simp only [overflowPage, linking, sizing, copied, Option.bind_eq_bind, Option.bind_some]
  · rw [nextPointer, linkStays.number, Page.number_setNumber_same (by decide) next.toNat_lt,
      UInt32.ofNat_toNat]
  · rw [sizeStays.number, ← short]
    exact Page.number_setNumber_same (by decide) (UInt32.toNat_lt _)
  · exact getBytes_of_bytes inside fun position within => putBytes_byte copied within

theorem length_pointerBytes (no : UInt32) : (pointerBytes no).length = 4 := by
  rw [pointerBytes, List.length_map, List.length_range]

theorem pointer_pointerBytes (no : UInt32) : pointer (pointerBytes no) = some no := by
  have length := length_pointerBytes no
  have bytes : ∀ position < 4,
      (pointerBytes no).getD position 0 = LittleEndian.byte no.toNat position := by
    intro position inside
    have within : position < (pointerBytes no).length := by rw [length]; exact inside
    rw [List.getD_eq_getElem _ _ within]
    simp only [pointerBytes, List.getElem_map, List.getElem_range]
  rw [pointer, if_pos length, LittleEndian.value_congr bytes,
    LittleEndian.value_byte_of_lt no.toNat_lt, UInt32.ofNat_toNat]

theorem chunks_flatten (value : List UInt8) : (chunks value).flatten = value := by
  induction value using chunks.induct with
  | case1 value empty =>
      rw [chunks, if_pos empty, List.flatten_nil, List.isEmpty_iff.mp empty]
  | case2 value nonempty inductionHypothesis =>
      rw [chunks, if_neg nonempty, List.flatten_cons, inductionHypothesis, List.take_append_drop]

theorem chunks_short (value : List UInt8) :
    ∀ chunk ∈ chunks value, OVERFLOW_HEADER + chunk.length ≤ PAGE_SIZE := by
  induction value using chunks.induct with
  | case1 value empty =>
      rw [chunks, if_pos empty]
      exact fun chunk member => by cases member
  | case2 value nonempty inductionHypothesis =>
      rw [chunks, if_neg nonempty]
      intro chunk member
      rcases List.mem_cons.mp member with rfl | later
      · have short := List.length_take_le (PAGE_SIZE - OVERFLOW_HEADER) value
        have header : OVERFLOW_HEADER ≤ PAGE_SIZE := by decide
        omega
      · exact inductionHypothesis chunk later

/-! ## Chains on the pages of a store -/

section Store

variable {State : Type} {pages : Pages State} {laws : Laws Halt.isForeign pages 0}
  {state : State} {held chain : List UInt32} {frame : UInt32 → Option Page}
  {images : UInt32 → Page} {value : List UInt8} {steps : Nat} {first : UInt32}

/-- Different pages that are not page 0 are fewer than there are numbers. -/
theorem length_lt_of_owns
    (owns : Owns laws state held frame images)
    (within : chain ⊆ held)
    (nodup : chain.Nodup) :
    chain.length < REACH := by
  have distinct : ((0 :: chain).map UInt32.toFin).Nodup :=
    (List.nodup_cons.mpr ⟨fun member => owns.ne_null (within member) rfl, nodup⟩).map
      fun _ _ same => UInt32.toFin_inj.mp same
  have count := distinct.length_le_card
  rwa [Fintype.card_fin, List.length_map, List.length_cons] at count

section Steps

variable {Result Next : Type} {post : Next → State → Prop}

theorem orPanic_bind
    {outcome : Option Result}
    {result : Result}
    {later : Result → Ask State Halt Next}
    (made : outcome = some result)
    (ensures : Ensures Halt.isForeign (later result) state post) :
    Ensures Halt.isForeign (orPanic outcome >>= later) state post := by
  subst made
  exact ensures

theorem built_bind
    {outcome : Option (Except Error Page)}
    {page : Page}
    {later : Page → Ask State Halt Next}
    (made : outcome = some (.ok page))
    (ensures : Ensures Halt.isForeign (later page) state post) :
    Ensures Halt.isForeign (built outcome >>= later) state post := by
  subst made
  exact ensures

end Steps

/-- The chain that is written spells the chunks. -/
theorem writeChunks_spec
    {list : List (List UInt8)}
    (owns : Owns laws state chain frame images)
    (spills : Spills images first value chain)
    (short : ∀ chunk ∈ list, OVERFLOW_HEADER + chunk.length ≤ PAGE_SIZE) :
    Ensures Halt.isForeign (writeChunks pages list first) state fun last =>
      Holds laws frame fun later => Spills later last (list.reverse.flatten ++ value) := by
  induction list generalizing state first value chain images with
  | nil => exact ⟨images, chain, owns, spills⟩
  | cons chunk before inductionHypothesis =>
      have inside := short chunk List.mem_cons_self
      apply owns.allocPage.bind
      rintro no allocated ⟨blank, ownsMore, kept⟩
      obtain ⟨page, made, linked, sized, bytes⟩ := overflowPage_spec first inside
      apply orPanic_bind made
      apply (ownsMore.writePage page).bind
      rintro _ written ⟨later, ownsNow, rfl, same⟩
      have extended : Spills later no (chunk ++ value) (no :: chain) := by
        refine .cons (ownsNow.ne_null List.mem_cons_self) inside sized bytes ?_
        rw [linked]
        exact (spills.congr kept).congr same
      rw [List.reverse_cons, List.flatten_append, List.append_assoc, List.flatten_singleton]
      exact inductionHypothesis ownsNow extended fun other member =>
        short other (List.mem_cons_of_mem _ member)

/-- A chain is read back as its value. -/
theorem readOverflow_spec
    {out : List UInt8}
    (owns : Owns laws state held frame images)
    (spills : Spills images first value chain)
    (within : chain ⊆ held)
    (enough : chain.length < steps) :
    Ensures Halt.isForeign (readOverflow pages steps first out) state fun result later =>
      result = out ++ value ∧ Owns laws later held frame images := by
  induction spills generalizing state steps out with
  | nil =>
      obtain ⟨steps, rfl⟩ := Nat.exists_eq_add_one.mpr enough
      rw [readOverflow, if_pos rfl]
      exact ⟨(List.append_nil out).symm, owns⟩
  | @cons no chunk value chain nonzero inside length bytes behind inductionHypothesis =>
      obtain ⟨steps, rfl⟩ := Nat.exists_eq_add_one.mpr (Nat.zero_lt_of_lt enough)
      rw [readOverflow, if_neg nonzero]
      apply (owns.readPage (within List.mem_cons_self)).bind
      rintro _ read ⟨rfl, ownsRead⟩
      dsimp only
      rw [length, if_neg (Nat.not_lt.mpr inside), ← List.append_assoc]
      apply orPanic_bind bytes
      exact inductionHypothesis ownsRead (List.subset_of_cons_subset within)
        (Nat.lt_of_succ_lt_succ enough)

/-- A chain is freed whole, and nothing else. -/
theorem freeOverflow_spec
    (owns : Owns laws state (chain ++ held) frame images)
    (spills : Spills images first value chain)
    (enough : chain.length < steps) :
    Ensures Halt.isForeign (freeOverflow pages steps first) state fun _ later =>
      Owns laws later held frame images := by
  induction spills generalizing state steps with
  | nil =>
      obtain ⟨steps, rfl⟩ := Nat.exists_eq_add_one.mpr enough
      rw [freeOverflow, if_pos rfl]
      exact owns
  | @cons no chunk value chain nonzero inside length bytes behind inductionHypothesis =>
      obtain ⟨steps, rfl⟩ := Nat.exists_eq_add_one.mpr (Nat.zero_lt_of_lt enough)
      rw [freeOverflow, if_neg nonzero]
      apply (owns.readPage List.mem_cons_self).bind
      rintro _ read ⟨rfl, ownsRead⟩
      apply ownsRead.freePage.bind
      intro _ freed ownsFreed
      exact inductionHypothesis ownsFreed (Nat.lt_of_succ_lt_succ enough)

/-! ## Stored values -/

/-- A cell that spells a value is unwrapped to it. -/
theorem unwrapValue_spec
    {stored : List UInt8}
    (owns : Owns laws state held frame images)
    (spells : Spells images stored value chain)
    (within : chain ⊆ held)
    (nodup : chain.Nodup) :
    Ensures Halt.isForeign (unwrapValue pages stored) state fun result later =>
      result = value ∧ Owns laws later held frame images := by
  cases spells with
  | inline =>
      rw [unwrapValue, if_pos rfl]
      exact ⟨rfl, owns⟩
  | overflow spills =>
      rw [unwrapValue, if_neg (by decide), if_pos rfl, pointer_pointerBytes]
      exact readOverflow_spec owns spills within (length_lt_of_owns owns within nodup)

theorem freeIfOverflow_spec
    {stored : List UInt8}
    (owns : Owns laws state (chain ++ held) frame images)
    (spells : Spells images stored value chain) :
    Ensures Halt.isForeign (freeIfOverflow pages stored) state fun _ later =>
      Owns laws later held frame images := by
  cases spells with
  | inline =>
      rw [freeIfOverflow, if_neg (by decide)]
      exact owns
  | overflow spills =>
      rw [freeIfOverflow, if_pos rfl, pointer_pointerBytes]
      exact freeOverflow_spec owns spills
        (length_lt_of_owns owns (List.subset_append_left _ _) owns.nodup.of_append_left)

/-- A stored value fits its cell and spells the value. -/
theorem storeValue_spec
    {key : List UInt8}
    (owns : Owns laws state [] frame images)
    (value : List UInt8)
    (small : LEAF_CELL_OVERHEAD + key.length + 1 + 4 ≤ MAX_CELL) :
    Ensures Halt.isForeign (storeValue pages key value) state fun stored =>
      Holds laws frame fun later chain =>
        leafFootprint (key, stored) ≤ MAX_CELL + SLOT_SIZE ∧ Spells later stored value chain := by
  unfold storeValue
  split
  case isTrue fits =>
    refine ⟨images, [], owns, ?_, .inline value⟩
    simp only [leafFootprint, List.length_cons]
    omega
  case isFalse tooLong =>
    have written := writeChunks_spec owns .nil fun chunk member =>
      chunks_short value chunk (List.mem_reverse.mp member)
    rw [List.reverse_reverse, chunks_flatten, List.append_nil] at written
    apply written.bind
    rintro first later ⟨images', whole, ownsLater, spills⟩
    refine ⟨images', whole, ownsLater, ?_, .overflow spills⟩
    simp only [leafFootprint, List.length_cons, length_pointerBytes]
    omega

end Store

end BTree

end PrehniteDB
