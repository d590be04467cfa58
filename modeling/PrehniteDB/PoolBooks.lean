import PrehniteDB.SharedPool

namespace PrehniteDB

/-!
# The books of the buffer pool

What holds of a pool after any calls, with any frames pinned while each of them
runs, and what a `put` does to the frames that are there.
-/

namespace BufferPool

/-- Forget every page. -/
def clear (pool : BufferPool) : BufferPool :=
  { pool with slots := [], index := fun _ => none, hand := 0 }

/-- Index and slots agree, the slots fit, and the hand points at one of them. -/
structure Books (pool : BufferPool) : Prop where
  indexed : pool.Indexed
  bounded : pool.slots.length ≤ pool.capacity
  hand : pool.hand < pool.slots.length ∨ pool.slots = [] ∧ pool.hand = 0

/-! ## The sweep -/

section Sweep

variable {pool : BufferPool} {handles : List Nat}

@[simp]
theorem contents_length (pool : BufferPool) : pool.contents.length = pool.slots.length :=
  List.length_map _

theorem Touched.length
    {next : BufferPool}
    (touched : Touched pool next) :
    next.slots.length = pool.slots.length := by
  rw [← contents_length next, touched.contents, contents_length]

theorem sweep_hand
    (remaining : Nat)
    (inside : pool.hand < pool.slots.length) :
    (pool.sweep handles remaining).2.hand < pool.slots.length := by
  induction remaining generalizing pool with
  | zero => exact inside
  | succ remaining inductionHypothesis =>
      have next : (pool.hand + 1) % pool.slots.length < pool.slots.length :=
        Nat.mod_lt _ (by omega)
      unfold sweep
      dsimp only
      split
      · exact inside
      · next slot present =>
        split
        · exact @inductionHypothesis
            { pool with hand := (pool.hand + 1) % pool.slots.length } next
        · split
          · have swept := @inductionHypothesis { pool with
              hand := (pool.hand + 1) % pool.slots.length
              slots := pool.slots.set ((pool.hand + 1) % pool.slots.length)
                { slot with referenced := false } }
              (by rw [List.length_set]; exact next)
            rwa [List.length_set] at swept
          · exact next

/-- How soon the hand is back at a position. -/
theorem exists_steps
    {size idx : Nat}
    (hand : Nat)
    (inside : idx < size) :
    ∃ steps < size, (hand + 1 + steps) % size = idx := by
  have below : (hand + 1) % size < size := Nat.mod_lt _ (by omega)
  refine ⟨(idx + size - (hand + 1) % size) % size, Nat.mod_lt _ (by omega), ?_⟩
  calc (hand + 1 + (idx + size - (hand + 1) % size) % size) % size
      = ((hand + 1) % size + (idx + size - (hand + 1) % size)) % size := by
        rw [Nat.add_mod_mod, Nat.mod_add_mod]
    _ = (idx + size) % size := by congr 1; omega
    _ = idx := by rw [Nat.add_mod_right, Nat.mod_eq_of_lt inside]

/-- A sweep that finds nothing ended before it came to an unpinned slot a second time, or a
first time where the slot's bit was clear. -/
theorem sweep_short
    {remaining idx : Nat}
    {slot : Slot}
    (failed : (pool.sweep handles remaining).1 = none)
    (present : pool.slots[idx]? = some slot)
    (unpinned : slot.frame.id ∉ handles)
    {steps : Nat}
    (reached : (pool.hand + 1 + steps) % pool.slots.length = idx) :
    remaining ≤ steps + if slot.referenced then pool.slots.length else 0 := by
  induction remaining generalizing pool slot steps with
  | zero => exact Nat.zero_le _
  | succ remaining inductionHypothesis =>
      have inside : idx < pool.slots.length := (List.getElem?_eq_some_iff.mp present).1
      have next : (pool.hand + 1) % pool.slots.length < pool.slots.length :=
        Nat.mod_lt _ (by omega)
      -- where the hand stands after the step, the slot is one step nearer or a round away
      have nearer : ∀ {later}, steps = later + 1 →
          ((pool.hand + 1) % pool.slots.length + 1 + later) % pool.slots.length = idx := by
        rintro later rfl
        rw [← reached, Nat.add_assoc, Nat.mod_add_mod]
        congr 1
        omega
      have around :
          ((pool.hand + 1) % pool.slots.length + 1 + (pool.slots.length - 1)) %
            pool.slots.length = (pool.hand + 1) % pool.slots.length := by
        have sum : (pool.hand + 1) % pool.slots.length + 1 + (pool.slots.length - 1) =
            (pool.hand + 1) % pool.slots.length + pool.slots.length := by omega
        rw [sum, Nat.add_mod_right, Nat.mod_eq_of_lt next]
      unfold sweep at failed
      dsimp only at failed
      rw [List.getElem?_eq_getElem next] at failed
      dsimp only at failed
      by_cases here : (pool.hand + 1) % pool.slots.length = idx
      · have same : pool.slots[(pool.hand + 1) % pool.slots.length] = slot := by
          rw [← here, List.getElem?_eq_getElem next] at present
          exact Option.some.inj present
        rw [same, if_neg unpinned] at failed
        split at failed
        case isTrue referenced =>
          rw [if_pos referenced]
          have cleared := @inductionHypothesis _ { slot with referenced := false } failed
            (by rw [← here]; exact List.getElem?_set_self next) unpinned
            (pool.slots.length - 1)
            (by rw [List.length_set, around, here])
          simp only [Bool.false_eq_true, if_false] at cleared
          omega
        case isFalse => cases failed
      · have moved : ∃ later, steps = later + 1 := by
          cases steps with
          | zero => exact absurd reached here
          | succ later => exact ⟨later, rfl⟩
        obtain ⟨later, rfl⟩ := moved
        split at failed
        · have before := @inductionHypothesis _ _ failed present unpinned later (nearer rfl)
          dsimp only at before
          omega
        · split at failed
          · have before := @inductionHypothesis _ _ failed
              ((List.getElem?_set_ne here).trans present) unpinned later
              (by rw [List.length_set]; exact nearer rfl)
            rw [List.length_set] at before
            omega
          · cases failed

/-- Two sweeps find an unpinned slot if there is one. -/
theorem victimSlot_none_iff :
    (pool.victimSlot handles).1 = none ↔ ∀ slot ∈ pool.slots, slot.frame.id ∈ handles := by
  constructor
  · intro failed slot member
    by_contra unpinned
    obtain ⟨idx, present⟩ := List.mem_iff_getElem?.mp member
    have inside : idx < pool.slots.length := (List.getElem?_eq_some_iff.mp present).1
    obtain ⟨steps, soon, reached⟩ := exists_steps pool.hand inside
    have short := sweep_short failed present unpinned reached
    split at short <;> omega
  · intro pinned
    by_contra found
    obtain ⟨victim, chosen⟩ := Option.ne_none_iff_exists'.mp found
    obtain ⟨entry, present, unpinned⟩ :=
      (sweep_spec handles (2 * pool.slots.length) pool).2 victim chosen
    obtain ⟨slot, member, rfl⟩ := List.mem_map.mp (List.mem_of_getElem? present)
    exact unpinned (pinned slot member)

end Sweep

/-! ## One call -/

inductive Request where
  | put (frame : Frame) (dirty : Bool)
  | lookup (no : UInt32)
  | dropPages (pages : List UInt32)
  | markClean (pages : List UInt32)
  | clear

/-- The pool behind a call, which runs while these frames are pinned. -/
def serve (pool : BufferPool) (handles : List Nat) : Request → BufferPool
  | .put frame dirty => (pool.put handles frame dirty).2
  | .lookup no => (pool.lookup no).2
  | .dropPages pages => pages.foldl drop pool
  | .markClean pages => pages.foldl clean pool
  | .clear => pool.clear

section Requests

variable {pool : BufferPool} {handles : List Nat}

theorem books_new (capacity : Nat) : (new capacity).Books where
  indexed := indexed_new capacity
  bounded := Nat.zero_le _
  hand := .inr ⟨rfl, rfl⟩

theorem Books.lookup
    (books : pool.Books)
    (no : UInt32) :
    (pool.lookup no).2.Books := by
  have touched := lookup_touched pool no
  have hand : (pool.lookup no).2.hand = pool.hand := by
    unfold BufferPool.lookup
    split
    · rfl
    · split <;> rfl
  refine ⟨touched.indexed books.indexed, ?_, ?_⟩
  · rw [touched.length, touched.capacity]
    exact books.bounded
  · rw [hand, ← List.length_eq_zero_iff, touched.length, List.length_eq_zero_iff]
    exact books.hand

theorem Books.clean
    (books : pool.Books)
    (no : UInt32) :
    (pool.clean no).Books := by
  have same : (pool.clean no).slots.length = pool.slots.length ∧
      (pool.clean no).capacity = pool.capacity ∧ (pool.clean no).hand = pool.hand := by
    unfold BufferPool.clean
    split
    · exact ⟨rfl, rfl, rfl⟩
    · exact ⟨List.length_set, rfl, rfl⟩
  refine ⟨(clean_spec books.indexed no).1, ?_, ?_⟩
  · rw [same.1, same.2.1]
    exact books.bounded
  · rw [same.2.2, ← List.length_eq_zero_iff, same.1, List.length_eq_zero_iff]
    exact books.hand

theorem swapRemove_length (slots : List Slot) (idx : Nat) :
    (swapRemove slots idx).length = slots.length - 1 := by
  unfold swapRemove
  split
  · next empty => simp [List.getLast?_eq_none_iff.mp empty]
  · rw [List.length_dropLast, List.length_set]

/-- A hand behind the slots that are left goes back to the first one. -/
theorem Books.drop
    (books : pool.Books)
    (no : UInt32) :
    (pool.drop no).Books := by
  refine ⟨(drop_spec books.indexed no).1, ?_, ?_⟩
  · have shorter := books.bounded
    unfold BufferPool.drop
    split
    · exact books.bounded
    · dsimp only
      rw [swapRemove_length]
      omega
  · unfold BufferPool.drop
    split
    · exact books.hand
    · next idx position =>
        obtain ⟨entry, present, -⟩ := (books.indexed no idx).mp position
        have inside : idx < pool.slots.length := by
          rw [← contents_length]
          exact (List.getElem?_eq_some_iff.mp present).1
        have hand : pool.hand < pool.slots.length :=
          books.hand.resolve_right fun empty => by
            rw [empty.1] at inside
            exact absurd inside (Nat.not_lt_zero idx)
        have length := swapRemove_length pool.slots idx
        dsimp only
        by_cases empty : swapRemove pool.slots idx = []
        · refine .inr ⟨empty, ?_⟩
          rw [empty, List.length_nil] at length
          rw [if_neg (by simp [empty])]
          omega
        · have positive : 0 < (swapRemove pool.slots idx).length :=
            List.length_pos_iff.mpr empty
          refine .inl ?_
          split
          · exact positive
          · next stays =>
              simp only [empty, ne_eq, not_false_eq_true, and_true, not_le] at stays
              exact stays

theorem Books.dropPages
    (books : pool.Books)
    (pages : List UInt32) :
    (pages.foldl BufferPool.drop pool).Books := by
  induction pages generalizing pool with
  | nil => exact books
  | cons no rest inductionHypothesis => exact inductionHypothesis (books.drop no)

theorem Books.markClean
    (books : pool.Books)
    (pages : List UInt32) :
    (pages.foldl BufferPool.clean pool).Books := by
  induction pages generalizing pool with
  | nil => exact books
  | cons no rest inductionHypothesis => exact inductionHypothesis (books.clean no)

theorem Books.clear (pool : BufferPool) : pool.clear.Books where
  indexed := by
    intro no idx
    simp [BufferPool.clear, contents]
  bounded := Nat.zero_le _
  hand := .inr ⟨rfl, rfl⟩

/-- What `put` comes to in a pool whose books are kept. -/
inductive Putting
    (pool : BufferPool)
    (handles : List Nat)
    (frame : Frame)
    (dirty : Bool) : Except Error (Option Frame) × BufferPool → Prop where
  | replaced
      {idx : Nat}
      {slot : Slot}
      (position : pool.index frame.no = some idx)
      (present : pool.slots[idx]? = some slot) :
      Putting pool handles frame dirty (.ok none, { pool with
        slots := pool.slots.set idx { frame, dirty := slot.dirty || dirty, referenced := true } })
  | inserted
      (absent : pool.index frame.no = none)
      (room : pool.slots.length < pool.capacity) :
      Putting pool handles frame dirty (.ok none, { pool with
        index := Function.update pool.index frame.no (some pool.slots.length)
        slots := pool.slots ++ [{ frame, dirty, referenced := true }] })
  | evicted
      {victim : Nat}
      {swept : BufferPool}
      {leaving : Slot}
      (absent : pool.index frame.no = none)
      (full : pool.slots.length = pool.capacity)
      (touched : Touched pool swept)
      (hand : swept.hand < pool.slots.length)
      (present : swept.slots[victim]? = some leaving)
      (unpinned : leaving.frame.id ∉ handles) :
      Putting pool handles frame dirty
        (.ok (if leaving.dirty then some leaving.frame else none), { swept with
          slots := swept.slots.set victim { frame, dirty, referenced := true }
          index := Function.update (Function.update swept.index leaving.frame.no none)
            frame.no (some victim) })
  | exhausted
      {swept : BufferPool}
      (absent : pool.index frame.no = none)
      (full : pool.slots.length = pool.capacity)
      (touched : Touched pool swept)
      (hand : swept.hand < pool.slots.length)
      (pinned : ∀ slot ∈ pool.slots, slot.frame.id ∈ handles) :
      Putting pool handles frame dirty
        (.error (.exhausted
          s!"buffer pool is full and all {pool.capacity} frames are pinned"), swept)

theorem Books.putting
    (books : pool.Books)
    (positive : 0 < pool.capacity)
    (handles : List Nat)
    (frame : Frame)
    (dirty : Bool) :
    Putting pool handles frame dirty (pool.put handles frame dirty) := by
  cases position : pool.index frame.no with
  | some idx =>
      obtain ⟨entry, present, -⟩ := (books.indexed frame.no idx).mp position
      obtain ⟨slot, atIdx, -⟩ := Option.map_eq_some_iff.mp (contents_getElem? pool idx ▸ present)
      have result : pool.put handles frame dirty = (.ok none, { pool with
          slots := pool.slots.set idx
            { frame, dirty := slot.dirty || dirty, referenced := true } }) := by
        simp only [put, position, Option.bind_some, atIdx, Option.map_some]
      rw [result]
      exact .replaced position atIdx
  | none =>
      by_cases room : pool.slots.length < pool.capacity
      · rw [put_room handles dirty position room]
        exact .inserted position room
      · have full : pool.slots.length = pool.capacity := by
          have := books.bounded
          omega
        obtain ⟨touched, found⟩ := sweep_spec handles (2 * pool.slots.length) pool
        have hand := @sweep_hand pool handles (2 * pool.slots.length)
          (books.hand.resolve_right fun empty => by simp [empty.1] at full; omega)
        have none_iff := @victimSlot_none_iff pool handles
        cases outcome : pool.victimSlot handles with
        | mk chosen swept =>
            rw [show pool.sweep handles (2 * pool.slots.length) = (chosen, swept) from outcome]
              at touched found hand
            rw [outcome] at none_iff
            cases chosen with
            | none =>
                have result : pool.put handles frame dirty =
                    (.error (.exhausted
                      s!"buffer pool is full and all {pool.capacity} frames are pinned"),
                      swept) := by
                  simp only [put, position, Option.bind_none, if_neg room, outcome]
                rw [result]
                exact .exhausted position full touched hand (none_iff.mp rfl)
            | some victim =>
                obtain ⟨entry, atVictim, unpinned⟩ := found victim rfl
                rw [← touched.contents, contents_getElem?] at atVictim
                obtain ⟨leaving, present, rfl⟩ := Option.map_eq_some_iff.mp atVictim
                have result : pool.put handles frame dirty =
                    (.ok (if leaving.dirty then some leaving.frame else none), { swept with
                      slots := swept.slots.set victim { frame, dirty, referenced := true }
                      index := Function.update
                        (Function.update swept.index leaving.frame.no none)
                        frame.no (some victim) }) := by
                  simp only [put, position, Option.bind_none, if_neg room, outcome, present]
                rw [result]
                exact .evicted position full touched hand present unpinned

theorem Books.put
    (books : pool.Books)
    (positive : 0 < pool.capacity)
    (handles : List Nat)
    (frame : Frame)
    (dirty : Bool) :
    (pool.put handles frame dirty).2.Books := by
  have indexed := (put_spec books.indexed handles frame dirty).1
  have bounded := books.bounded
  have putting := books.putting positive handles frame dirty
  generalize pool.put handles frame dirty = outcome at putting indexed
  cases putting with
  | replaced position present =>
      have inside := (List.getElem?_eq_some_iff.mp present).1
      have hand := books.hand.resolve_right fun empty => by simp [empty.1] at inside
      exact ⟨indexed, by rwa [List.length_set], .inl (by rwa [List.length_set])⟩
  | inserted absent room =>
      refine ⟨indexed, ?_, .inl ?_⟩
      · rw [List.length_append, List.length_singleton]
        exact room
      · rw [List.length_append, List.length_singleton]
        rcases books.hand with inside | ⟨empty, first⟩
        · exact Nat.lt_succ_of_lt inside
        · rw [first]
          exact Nat.succ_pos _
  | evicted absent full touched hand present unpinned =>
      have length := touched.length
      refine ⟨indexed, ?_, .inl ?_⟩
      · rw [List.length_set, length, touched.capacity]
        exact bounded
      · rwa [List.length_set, length]
  | exhausted absent full touched hand pinned =>
      refine ⟨indexed, ?_, .inl ?_⟩
      · rw [touched.length, touched.capacity]
        exact bounded
      · rwa [touched.length]

@[simp]
theorem put_capacity
    (pool : BufferPool)
    (handles : List Nat)
    (frame : Frame)
    (dirty : Bool) :
    (pool.put handles frame dirty).2.capacity = pool.capacity := by
  have touched := (sweep_spec handles (2 * pool.slots.length) pool).1
  unfold BufferPool.put
  split
  · rfl
  · dsimp only
    split
    · rfl
    · split
      · next swept outcome =>
          rw [← show (pool.victimSlot handles).2 = swept from congrArg Prod.snd outcome]
          exact touched.capacity
      · next victim swept outcome =>
          rw [← show (pool.victimSlot handles).2 = swept from congrArg Prod.snd outcome]
          split <;> exact touched.capacity

@[simp]
theorem serve_capacity (request : Request) :
    (pool.serve handles request).capacity = pool.capacity := by
  cases request with
  | put frame dirty => exact put_capacity pool handles frame dirty
  | lookup no => exact (lookup_touched pool no).capacity
  | dropPages pages =>
      change (pages.foldl drop pool).capacity = pool.capacity
      induction pages generalizing pool with
      | nil => rfl
      | cons no rest inductionHypothesis =>
          refine inductionHypothesis.trans ?_
          unfold drop
          split <;> rfl
  | markClean pages =>
      change (pages.foldl clean pool).capacity = pool.capacity
      induction pages generalizing pool with
      | nil => rfl
      | cons no rest inductionHypothesis =>
          refine inductionHypothesis.trans ?_
          unfold clean
          split <;> rfl
  | clear => rfl

theorem Books.serve
    (books : pool.Books)
    (positive : 0 < pool.capacity)
    (request : Request) :
    (pool.serve handles request).Books := by
  cases request with
  | put frame dirty => exact books.put positive handles frame dirty
  | lookup no => exact books.lookup no
  | dropPages pages => exact books.dropPages pages
  | markClean pages => exact books.markClean pages
  | clear => exact Books.clear pool

end Requests

/-! ## What `put` does to the frames -/

section Puts

variable {pool : BufferPool} {handles : List Nat}

/-- Only one cached frame has a number. -/
theorem Books.unique
    (books : pool.Books)
    {entry other : Frame × Bool}
    (member : entry ∈ pool.contents)
    (otherMember : other ∈ pool.contents)
    (sameNumber : entry.1.no = other.1.no) :
    entry = other := by
  have found := (cached_eq_some_iff books.indexed).mpr ⟨member, rfl⟩
  have otherFound := (cached_eq_some_iff books.indexed).mpr ⟨otherMember, sameNumber.symm⟩
  exact Option.some.inj (found.symm.trans otherFound)

theorem Books.positioned
    (books : pool.Books)
    {entry : Frame × Bool}
    (member : entry ∈ pool.contents) :
    pool.index entry.1.no ≠ none := by
  obtain ⟨idx, present⟩ := List.mem_iff_getElem?.mp member
  rw [(books.indexed entry.1.no idx).mpr ⟨entry, present, rfl⟩]
  nofun

/-- The fate of the frames that are there when `put` is called. -/
structure PutAccount
    (pool : BufferPool)
    (handles : List Nat)
    (frame : Frame)
    (dirty : Bool)
    (outcome : Except Error (Option Frame) × BufferPool) : Prop where
  /-- It fails exactly where there is no room and no frame that may go. -/
  fails : (∃ failure, outcome.1 = .error failure) ↔
    pool.index frame.no = none ∧ pool.slots.length = pool.capacity ∧
      ∀ slot ∈ pool.slots, slot.frame.id ∈ handles
  pinned : ∀ entry ∈ pool.contents, entry.1.id ∈ handles → entry.1.no ≠ frame.no →
    entry ∈ outcome.2.contents
  /-- It answers the dirty frame whose page it evicts, and no other. -/
  returned : ∀ victim, outcome.1 = .ok (some victim) ↔
    (victim, true) ∈ pool.contents ∧ outcome.2.index victim.no = none
  /-- The mark of a frame that is replaced stays with the page. -/
  replaced : ∀ entry ∈ pool.contents, entry.1.no = frame.no →
    (frame, entry.2 || dirty) ∈ outcome.2.contents

theorem Books.returned_none
    (books : pool.Books)
    {answer : Except Error (Option Frame)}
    {next : BufferPool}
    (silent : ∀ victim, answer ≠ .ok (some victim))
    (kept : ∀ no, pool.index no ≠ none → next.index no ≠ none)
    (victim : Frame) :
    answer = .ok (some victim) ↔ (victim, true) ∈ pool.contents ∧ next.index victim.no = none := by
  constructor
  · intro answered
    exact absurd answered (silent victim)
  · rintro ⟨member, gone⟩
    exact absurd gone (kept victim.no (books.positioned member))

theorem Books.absent
    (books : pool.Books)
    {no : UInt32}
    (unindexed : pool.index no = none) :
    ∀ entry ∈ pool.contents, entry.1.no ≠ no := by
  intro entry member same
  exact books.positioned member (same ▸ unindexed)

/-- A frame takes the place of the page's old one. -/
theorem Books.account_replaced
    {frame : Frame}
    {idx : Nat}
    {slot : Slot}
    (books : pool.Books)
    (dirty : Bool)
    (position : pool.index frame.no = some idx)
    (present : pool.slots[idx]? = some slot) :
    PutAccount pool handles frame dirty (.ok none, { pool with
      slots := pool.slots.set idx
        { frame, dirty := slot.dirty || dirty, referenced := true } }) := by
  have held : pool.contents[idx]? = some (slot.frame, slot.dirty) := by
    rw [contents_getElem?, present]
    rfl
  have inside : idx < pool.contents.length := (List.getElem?_eq_some_iff.mp held).1
  have number : slot.frame.no = frame.no := by
    obtain ⟨entry, atIdx, same⟩ := (books.indexed frame.no idx).mp position
    rw [held] at atIdx
    cases atIdx
    exact same
  have newContents : BufferPool.contents { pool with
      slots := pool.slots.set idx
        { frame, dirty := slot.dirty || dirty, referenced := true } } =
      pool.contents.set idx (frame, slot.dirty || dirty) := List.map_set
  refine ⟨?_, ?_, books.returned_none nofun (fun _ => id), ?_⟩
  · simp [position]
  · intro entry member _ different
    rw [newContents]
    obtain ⟨place, atPlace⟩ := List.mem_iff_getElem?.mp member
    have elsewhere : idx ≠ place := by
      rintro rfl
      rw [held] at atPlace
      cases atPlace
      exact different number
    exact List.mem_of_getElem? ((List.getElem?_set_ne elsewhere).trans atPlace)
  · intro entry member same
    have isSlot : entry = (slot.frame, slot.dirty) :=
      books.unique member (List.mem_of_getElem? held) (same.trans number.symm)
    rw [newContents, isSlot]
    exact List.mem_of_getElem? (List.getElem?_set_self inside)

/-- A frame takes the place of an unpinned one. -/
theorem Books.account_evicted
    {frame : Frame}
    {victim : Nat}
    {swept : BufferPool}
    {leaving : Slot}
    (books : pool.Books)
    (dirty : Bool)
    (absent : pool.index frame.no = none)
    (touched : Touched pool swept)
    (present : swept.slots[victim]? = some leaving)
    (unpinned : leaving.frame.id ∉ handles) :
    PutAccount pool handles frame dirty
      (.ok (if leaving.dirty then some leaving.frame else none), { swept with
        slots := swept.slots.set victim { frame, dirty, referenced := true }
        index := Function.update (Function.update swept.index leaving.frame.no none)
          frame.no (some victim) }) := by
  have held : pool.contents[victim]? = some (leaving.frame, leaving.dirty) := by
    rw [← touched.contents, contents_getElem?, present]
    rfl
  have member := List.mem_of_getElem? held
  have newContents : BufferPool.contents { swept with
      slots := swept.slots.set victim { frame, dirty, referenced := true }
      index := Function.update (Function.update swept.index leaving.frame.no none)
        frame.no (some victim) } =
      pool.contents.set victim (frame, dirty) := by
    rw [← touched.contents]
    exact List.map_set
  refine ⟨?_, ?_, fun returned => ⟨fun answered => ?_, ?_⟩, ?_⟩
  · simp only [reduceCtorEq, exists_false, false_iff, not_and]
    intro _ _ pinned
    obtain ⟨slot, inPool, same⟩ := List.mem_map.mp member
    exact unpinned ((Prod.mk.inj same).1 ▸ pinned slot inPool)
  · intro entry other pinned _
    rw [newContents]
    obtain ⟨place, atPlace⟩ := List.mem_iff_getElem?.mp other
    have elsewhere : victim ≠ place := by
      rintro rfl
      rw [held] at atPlace
      cases atPlace
      exact unpinned pinned
    exact List.mem_of_getElem? ((List.getElem?_set_ne elsewhere).trans atPlace)
  · by_cases marked : leaving.dirty
    · rw [if_pos marked] at answered
      cases answered
      rw [marked] at member
      refine ⟨member, ?_⟩
      change Function.update (Function.update swept.index leaving.frame.no none)
        frame.no (some victim) leaving.frame.no = none
      rw [Function.update_of_ne (books.absent absent _ member), Function.update_self]
    · rw [if_neg marked] at answered
      cases answered
  · rintro ⟨other, unplaced⟩
    change Function.update (Function.update swept.index leaving.frame.no none)
      frame.no (some victim) returned.no = none at unplaced
    rw [Function.update_of_ne (books.absent absent _ other)] at unplaced
    have same : returned.no = leaving.frame.no := by
      by_contra different
      rw [Function.update_of_ne different, touched.index] at unplaced
      exact books.positioned other unplaced
    obtain ⟨rfl, marked⟩ := Prod.mk.inj (books.unique other member same)
    rw [if_pos marked.symm]
  · intro entry other same
    exact absurd same (books.absent absent entry other)

theorem Putting.account
    {frame : Frame}
    {dirty : Bool}
    {outcome : Except Error (Option Frame) × BufferPool}
    (books : pool.Books)
    (putting : Putting pool handles frame dirty outcome) :
    PutAccount pool handles frame dirty outcome := by
  cases putting with
  | replaced position present => exact books.account_replaced dirty position present
  | inserted absent room =>
      have newContents : BufferPool.contents { pool with
          index := Function.update pool.index frame.no (some pool.slots.length)
          slots := pool.slots ++ [{ frame, dirty, referenced := true }] } =
          pool.contents ++ [(frame, dirty)] := List.map_append
      refine ⟨?_, ?_, books.returned_none nofun ?_, ?_⟩
      · simp only [reduceCtorEq, exists_false, false_iff, not_and]
        intro _ full
        omega
      · intro entry member _ _
        rw [newContents]
        exact List.mem_append_left _ member
      · intro no positioned
        change Function.update pool.index frame.no (some pool.slots.length) no ≠ none
        by_cases same : no = frame.no
        · rw [same, Function.update_self]
          nofun
        · rwa [Function.update_of_ne same]
      · intro entry member same
        exact absurd same (books.absent absent entry member)
  | evicted absent full touched hand present unpinned =>
      exact books.account_evicted dirty absent touched present unpinned
  | exhausted absent full touched hand pinned =>
      refine ⟨?_, ?_, books.returned_none nofun ?_, ?_⟩
      · simp only [absent, full, Except.error.injEq, exists_eq', true_and, true_iff]
        exact pinned
      · intro entry member _ _
        rw [touched.contents]
        exact member
      · intro no positioned
        rwa [touched.index]
      · intro entry member same
        exact absurd same (books.absent absent entry member)

end Puts

/-! ## Runs -/

/-- The pool behind calls, each with the frames pinned while it runs. -/
def run (pool : BufferPool) (calls : List (List Nat × Request)) : BufferPool :=
  calls.foldl (fun before call => before.serve call.1 call.2) pool

/-- Every sequence of calls keeps the books. -/
theorem Books.run
    {pool : BufferPool}
    (books : pool.Books)
    (positive : 0 < pool.capacity)
    (calls : List (List Nat × Request)) :
    (pool.run calls).Books ∧ (pool.run calls).capacity = pool.capacity := by
  induction calls generalizing pool with
  | nil => exact ⟨books, rfl⟩
  | cons call rest inductionHypothesis =>
      have served : (pool.serve call.1 call.2).Books := books.serve positive call.2
      have same : (pool.serve call.1 call.2).capacity = pool.capacity := serve_capacity call.2
      obtain ⟨kept, capacity⟩ := inductionHypothesis served (same ▸ positive)
      exact ⟨kept, capacity.trans same⟩

/-- After any calls the books are kept, and so does the next `put`. -/
theorem run_keeps_books
    (capacity : Nat)
    (positive : 1 ≤ capacity)
    (calls : List (List Nat × Request)) :
    ((new capacity).run calls).Books ∧ ((new capacity).run calls).capacity = capacity ∧
      ∀ handles frame dirty,
        PutAccount ((new capacity).run calls) handles frame dirty
          (((new capacity).run calls).put handles frame dirty) := by
  obtain ⟨books, same⟩ := (books_new capacity).run positive calls
  refine ⟨books, same, fun handles frame dirty => ?_⟩
  have room : 0 < ((new capacity).run calls).capacity := by
    rw [same]
    exact positive
  exact (books.putting room handles frame dirty).account books

/-- A full pool whose one frame is pinned. -/
theorem run_keeps_books_pinned :
    1 ≤ 1 ∧ ∃ failure,
      (((new 1).run [([], .put { id := 0, no := 3, page := zeroPage } true)]).put [0]
        { id := 1, no := 4, page := zeroPage } false).1 = .error failure := by
  obtain ⟨-, -, account⟩ :=
    run_keeps_books 1 (by decide) [([], .put { id := 0, no := 3, page := zeroPage } true)]
  refine ⟨by decide, (account [0] { id := 1, no := 4, page := zeroPage } false).fails.mpr ?_⟩
  exact ⟨by decide, by decide, by simp [run, serve, put, new]⟩

/-- A dirty frame goes without being returned where another image of its page comes. -/
theorem replaced_frame_not_returned :
    let old : Frame := { id := 0, no := 3, page := zeroPage }
    let pool := (new 1).run [([], .put old true)]
    let outcome := pool.put [] { id := 1, no := 3, page := zeroPage } false
    (old, true) ∈ pool.contents ∧ outcome.1 = .ok none ∧
      old.id ∉ outcome.2.contents.map fun entry => entry.1.id := by
  refine ⟨?_, rfl, ?_⟩
  · simp [run, serve, put, new, contents]
  · simp [run, serve, put, new, contents]

end BufferPool

namespace SharedPool

/-! ## The shards -/

variable {pool : SharedPool}

/-- Forget every page in every shard. -/
def clear (pool : SharedPool) : SharedPool :=
  { pool with shards := fun shard => (pool.shards shard).clear }

inductive Call where
  | get (no : UInt32)
  | put (no : UInt32) (page : Page) (dirty : Bool)
  | markClean (pages : List UInt32)
  | dropPages (pages : List UInt32)
  | clear
  | pin (frame : Frame)
  | release (id : Nat)

def serve (pool : SharedPool) : Call → SharedPool
  | .get no => (pool.get no).2
  | .put no page dirty => (pool.put no page dirty).2
  | .markClean pages => markClean pages pool
  | .dropPages pages => dropPages pages pool
  | .clear => pool.clear
  | .pin frame => pool.pin frame
  | .release id => pool.release id

/-- Every shard keeps its books, and holds a frame at least. -/
def Books (pool : SharedPool) : Prop :=
  ∀ shard, (pool.shards shard).Books ∧ 0 < (pool.shards shard).capacity

theorem books_withCapacity (capacity : Nat) : (withCapacity capacity).Books := by
  intro shard
  refine ⟨BufferPool.books_new _, Nat.add_pos_left ?_ _⟩
  have enough : min (max capacity 1) POOL_SHARDS ≤ max capacity 1 := Nat.min_le_left _ _
  have some : 0 < min (max capacity 1) POOL_SHARDS := by simp [POOL_SHARDS]
  exact Nat.div_pos enough some

theorem Books.setShard
    (books : pool.Books)
    {shard : Nat}
    {changed : BufferPool}
    (kept : changed.Books)
    (same : changed.capacity = (pool.shards shard).capacity) :
    (pool.setShard shard changed).Books := by
  intro other
  change (Function.update pool.shards shard changed other).Books ∧
    0 < (Function.update pool.shards shard changed other).capacity
  by_cases here : other = shard
  · rw [here, Function.update_self, same]
    exact ⟨kept, (books shard).2⟩
  · rw [Function.update_of_ne here]
    exact books other

theorem Books.serve
    (books : pool.Books)
    (call : Call) :
    (pool.serve call).Books := by
  have served : ∀ (pool : SharedPool), pool.Books → ∀ shard request,
      (pool.setShard shard ((pool.shards shard).serve pool.handles request)).Books :=
    fun pool books shard request =>
      books.setShard ((books shard).1.serve (books shard).2 request)
        (BufferPool.serve_capacity request)
  cases call with
  | get no => exact served pool books (pool.shardOf no) (.lookup no)
  | put no page dirty =>
      exact served pool books (pool.shardOf no) (.put (pool.newFrame no page) dirty)
  | markClean pages =>
      change (SharedPool.markClean pages pool).Books
      induction pages generalizing pool with
      | nil => exact books
      | cons no rest inductionHypothesis =>
          exact inductionHypothesis (served pool books (pool.shardOf no) (.markClean [no]))
  | dropPages pages =>
      change (SharedPool.dropPages pages pool).Books
      induction pages generalizing pool with
      | nil => exact books
      | cons no rest inductionHypothesis =>
          exact inductionHypothesis (served pool books (pool.shardOf no) (.dropPages [no]))
  | clear => exact fun shard => ⟨BufferPool.Books.clear _, (books shard).2⟩
  | pin frame => exact books
  | release id => exact books

/-- What a shard keeps, the shared pool keeps under any calls. -/
theorem calls_keep_books
    (capacity : Nat)
    (calls : List Call) :
    (calls.foldl serve (withCapacity capacity)).Books := by
  suffices kept : ∀ pool : SharedPool, pool.Books → (calls.foldl serve pool).Books from
    kept _ (books_withCapacity capacity)
  induction calls with
  | nil => exact fun _ books => books
  | cons call rest inductionHypothesis =>
      exact fun pool books => inductionHypothesis _ (books.serve call)

end SharedPool

end PrehniteDB
