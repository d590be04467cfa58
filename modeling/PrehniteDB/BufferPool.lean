import PrehniteDB.PageFile

namespace PrehniteDB

/-!
# The buffer pool

A bounded cache of frames with CLOCK eviction, and the pool of independent
shards every pager on one file shares.  A frame has an identity, which is what a
live `PageRef` pins; installing a new image under the same page number installs
a new frame.
-/

/-- One cached page, immutable once admitted. -/
structure Frame where
  /-- The identity a `PageRef` shares. -/
  id : Nat
  no : UInt32
  page : Page

/-- A frame and the bookkeeping the pool keeps for it. -/
structure Slot where
  frame : Frame
  dirty : Bool
  referenced : Bool

structure BufferPool where
  capacity : Nat
  slots : List Slot
  /-- Page number to its position in `slots`. -/
  index : UInt32 → Option Nat
  /-- The slot the next eviction sweep resumes from. -/
  hand : Nat

/-- What the pool knows of a cached page: its frame and whether it is dirty. -/
abbrev Cached := UInt32 → Option (Frame × Bool)

namespace BufferPool

def new (capacity : Nat) : BufferPool where
  capacity := capacity
  slots := []
  index := fun _ => none
  hand := 0

/-- The frame of page `no`, marked as recently used. -/
def lookup (pool : BufferPool) (no : UInt32) : Option Frame × BufferPool :=
  match pool.index no with
  | none => (none, pool)
  | some idx =>
      match pool.slots[idx]? with
      | none => (none, pool)
      | some slot =>
          (some slot.frame,
            { pool with slots := pool.slots.set idx { slot with referenced := true } })

/-- The sweep of `victim_slot`, for a number of slots. -/
def sweep (handles : List Nat) : Nat → BufferPool → Option Nat × BufferPool
  | 0, pool => (none, pool)
  | remaining + 1, pool =>
      let hand := (pool.hand + 1) % pool.slots.length
      match pool.slots[hand]? with
      | none => (none, pool)
      | some slot =>
          if slot.frame.id ∈ handles then
            sweep handles remaining { pool with hand := hand }
          else if slot.referenced then
            sweep handles remaining { pool with
              hand := hand
              slots := pool.slots.set hand { slot with referenced := false } }
          else (some hand, { pool with hand := hand })

/-- At most two sweeps over the slots; `none` if every slot is pinned. -/
def victimSlot (pool : BufferPool) (handles : List Nat) : Option Nat × BufferPool :=
  pool.sweep handles (2 * pool.slots.length)

/-- Make a frame resident; a dirty evictee is returned for the caller to spill. -/
def put
    (pool : BufferPool)
    (handles : List Nat)
    (frame : Frame)
    (dirty : Bool) : Except Error (Option Frame) × BufferPool :=
  match (pool.index frame.no).bind fun idx => (pool.slots[idx]?).map (idx, ·) with
  | some (idx, slot) =>
      (.ok none, { pool with
        slots := pool.slots.set idx {
          frame := frame
          dirty := slot.dirty || dirty
          referenced := true } })
  | none =>
      let added : Slot := { frame := frame, dirty := dirty, referenced := true }
      if pool.slots.length < pool.capacity then
        (.ok none, { pool with
          index := Function.update pool.index frame.no (some pool.slots.length)
          slots := pool.slots ++ [added] })
      else
        match pool.victimSlot handles with
        | (none, swept) =>
            (.error (.exhausted
              s!"buffer pool is full and all {pool.capacity} frames are pinned"), swept)
        | (some victim, swept) =>
            match swept.slots[victim]? with
            | none => (.ok none, swept)
            | some evicted =>
                (.ok (if evicted.dirty then some evicted.frame else none),
                  { swept with
                    slots := swept.slots.set victim added
                    index :=
                      Function.update (Function.update swept.index evicted.frame.no none)
                        frame.no (some victim) })

/-- Clear the dirty bit of page `no`. -/
def clean (pool : BufferPool) (no : UInt32) : BufferPool :=
  match (pool.index no).bind fun idx => (pool.slots[idx]?).map (idx, ·) with
  | none => pool
  | some (idx, slot) =>
      { pool with slots := pool.slots.set idx { slot with dirty := false } }

/-- `Vec::swap_remove`: the last element takes the place of the removed one. -/
def swapRemove (slots : List Slot) (idx : Nat) : List Slot :=
  match slots.getLast? with
  | none => slots
  | some last => (slots.set idx last).dropLast

/-- Forget page `no`. -/
def drop (pool : BufferPool) (no : UInt32) : BufferPool :=
  match pool.index no with
  | none => pool
  | some idx =>
      let last := pool.slots.length - 1
      let slots := swapRemove pool.slots idx
      let removed := Function.update pool.index no none
      let index :=
        if idx = last then removed
        else
          match slots[idx]? with
          | none => removed
          | some moved => Function.update removed moved.frame.no (some idx)
      { pool with
        slots := slots
        index := index
        hand := if slots.length ≤ pool.hand ∧ slots ≠ [] then 0 else pool.hand }

/-- Frames and dirty bits in slot order, the CLOCK bits left out. -/
def contents (pool : BufferPool) : List (Frame × Bool) :=
  pool.slots.map fun slot => (slot.frame, slot.dirty)

/-- What is cached for every page. -/
def cached (pool : BufferPool) : Cached :=
  fun no => (pool.index no).bind fun idx => pool.contents[idx]?

/-- The index names the position of every cached page and nothing else. -/
def Indexed (pool : BufferPool) : Prop :=
  ∀ no idx,
    pool.index no = some idx ↔
      ∃ entry, pool.contents[idx]? = some entry ∧ entry.1.no = no

theorem indexed_new (capacity : Nat) : (new capacity).Indexed := by
  intro no idx
  simp [new, contents]

/-- Pools that differ in CLOCK bits and the hand only. -/
structure Touched (pool next : BufferPool) : Prop where
  capacity : next.capacity = pool.capacity
  index : next.index = pool.index
  contents : next.contents = pool.contents

namespace Touched

variable {pool middle next : BufferPool}

theorem refl (pool : BufferPool) : Touched pool pool :=
  ⟨rfl, rfl, rfl⟩

theorem indexed
    (touched : Touched pool next)
    (indexed : pool.Indexed) :
    next.Indexed := by
  intro no idx
  simp only [touched.index, touched.contents]
  exact indexed no idx

theorem cached (touched : Touched pool next) : next.cached = pool.cached := by
  funext no
  simp only [BufferPool.cached, touched.index, touched.contents]

end Touched

section Positions

variable {pool : BufferPool} {no : UInt32} {idx : Nat}

theorem contents_getElem?
    (pool : BufferPool)
    (idx : Nat) :
    pool.contents[idx]? = (pool.slots[idx]?).map fun slot => (slot.frame, slot.dirty) :=
  List.getElem?_map

/-- Changing a CLOCK bit leaves the contents alone. -/
theorem contents_set
    {slot : Slot}
    (present : pool.slots[idx]? = some slot)
    (replacement : Slot)
    (sameFrame : replacement.frame = slot.frame)
    (sameDirty : replacement.dirty = slot.dirty) :
    (pool.slots.set idx replacement).map (fun slot => (slot.frame, slot.dirty)) =
      pool.contents := by
  apply List.ext_getElem?
  intro position
  simp only [List.getElem?_map, List.getElem?_set, contents]
  by_cases here : idx = position
  · subst here
    obtain ⟨inside, rfl⟩ := List.getElem?_eq_some_iff.mp present
    simp [inside, sameFrame, sameDirty]
  · simp [here]

theorem lookup_touched (pool : BufferPool) (no : UInt32) :
    Touched pool (pool.lookup no).2 := by
  unfold lookup
  split
  · exact .refl pool
  · split
    · exact .refl pool
    · next present => exact ⟨rfl, rfl, contents_set present _ rfl rfl⟩

theorem lookup_frame (pool : BufferPool) (no : UInt32) :
    (pool.lookup no).1 = (pool.cached no).map Prod.fst := by
  unfold lookup cached
  cases position : pool.index no with
  | none => rfl
  | some idx =>
      simp only [Option.bind_some, contents_getElem?]
      cases pool.slots[idx]? <;> rfl

theorem lookup_miss (missed : (pool.lookup no).1 = none) : (pool.lookup no).2 = pool := by
  unfold lookup at missed ⊢
  split
  · rfl
  · next found =>
      rw [found] at missed
      dsimp only at missed ⊢
      split
      · rfl
      · next present =>
          rw [present] at missed
          cases missed

/-- A sweep changes CLOCK bits only and stops at an unpinned slot. -/
theorem sweep_spec
    (handles : List Nat)
    (remaining : Nat)
    (pool : BufferPool) :
    Touched pool (pool.sweep handles remaining).2 ∧
      ∀ victim ∈ (pool.sweep handles remaining).1,
        ∃ entry, pool.contents[victim]? = some entry ∧ entry.1.id ∉ handles := by
  induction remaining generalizing pool with
  | zero => exact ⟨.refl pool, nofun⟩
  | succ remaining inductionHypothesis =>
      unfold sweep
      dsimp only
      split
      · exact ⟨.refl pool, nofun⟩
      · next slot present =>
          split
          · obtain ⟨touched, found⟩ :=
              inductionHypothesis { pool with hand := (pool.hand + 1) % pool.slots.length }
            exact ⟨⟨touched.capacity, touched.index, touched.contents⟩, found⟩
          · next unpinned =>
              split
              · obtain ⟨touched, found⟩ := inductionHypothesis { pool with
                  hand := (pool.hand + 1) % pool.slots.length
                  slots := pool.slots.set ((pool.hand + 1) % pool.slots.length)
                    { slot with referenced := false } }
                have same := contents_set present { slot with referenced := false } rfl rfl
                refine ⟨⟨touched.capacity, touched.index, touched.contents.trans same⟩, ?_⟩
                intro victim member
                obtain ⟨entry, atVictim, free⟩ := found victim member
                exact ⟨entry, same ▸ atVictim, free⟩
              · refine ⟨⟨rfl, rfl, rfl⟩, ?_⟩
                intro victim member
                obtain rfl := Option.mem_some_iff.mp member
                refine ⟨(slot.frame, slot.dirty), ?_, unpinned⟩
                rw [contents_getElem?, present]
                rfl

/-- What is cached is what the slots hold. -/
theorem cached_eq_some_iff
    (indexed : pool.Indexed)
    {entry : Frame × Bool} :
    pool.cached no = some entry ↔ entry ∈ pool.contents ∧ entry.1.no = no := by
  constructor
  · intro found
    obtain ⟨idx, position, present⟩ := Option.bind_eq_some_iff.mp found
    obtain ⟨other, atIdx, number⟩ := (indexed no idx).mp position
    obtain rfl := Option.some.inj (atIdx.symm.trans present)
    exact ⟨List.mem_of_getElem? present, number⟩
  · rintro ⟨member, number⟩
    obtain ⟨idx, present⟩ := List.mem_iff_getElem?.mp member
    have position := (indexed no idx).mpr ⟨entry, present, number⟩
    simp only [cached, position, Option.bind_some, present]

/-- A new entry in the place of an old one, which may be of the same page. -/
theorem replace_spec
    {next : BufferPool}
    {old : Frame × Bool}
    {frame : Frame}
    {dirty : Bool}
    (indexed : pool.Indexed)
    (present : pool.contents[idx]? = some old)
    (only : ∀ position, pool.index frame.no = some position → position = idx)
    (newContents : next.contents = pool.contents.set idx (frame, dirty))
    (newIndex :
      next.index =
        Function.update (Function.update pool.index old.1.no none) frame.no (some idx)) :
    next.Indexed ∧
      next.cached =
        Function.update (Function.update pool.cached old.1.no none) frame.no
          (some (frame, dirty)) := by
  have inside : idx < pool.contents.length := (List.getElem?_eq_some_iff.mp present).1
  have oldPosition : pool.index old.1.no = some idx :=
    (indexed old.1.no idx).mpr ⟨old, present, rfl⟩
  constructor
  · intro no position
    rw [newIndex, newContents, List.getElem?_set]
    by_cases here : idx = position
    · subst here
      simp only [if_true, if_pos inside, Option.some.injEq, exists_eq_left']
      by_cases isNew : no = frame.no
      · subst isNew
        simp
      · rw [Function.update_of_ne isNew]
        refine ⟨fun found => ?_, fun same => absurd same.symm isNew⟩
        by_cases isOld : no = old.1.no
        · rw [isOld, Function.update_self] at found
          cases found
        · rw [Function.update_of_ne isOld] at found
          obtain ⟨entry, atIdx, number⟩ := (indexed no idx).mp found
          obtain rfl := Option.some.inj (atIdx.symm.trans present)
          exact absurd number.symm isOld
    · rw [if_neg here]
      by_cases isNew : no = frame.no
      · subst isNew
        rw [Function.update_self]
        refine ⟨fun found => absurd (Option.some.inj found) here, fun found => ?_⟩
        exact absurd (only position ((indexed _ position).mpr found)).symm here
      · rw [Function.update_of_ne isNew]
        by_cases isOld : no = old.1.no
        · rw [isOld, Function.update_self]
          refine ⟨nofun, fun found => ?_⟩
          have atPosition := (indexed old.1.no position).mpr found
          exact absurd (Option.some.inj (oldPosition.symm.trans atPosition)) here
        · rw [Function.update_of_ne isOld]
          exact indexed no position
  · funext no
    unfold cached
    rw [newIndex, newContents]
    by_cases isNew : no = frame.no
    · subst isNew
      rw [Function.update_self, Function.update_self, Option.bind_some,
        List.getElem?_set_self inside]
    · rw [Function.update_of_ne isNew, Function.update_of_ne isNew]
      by_cases isOld : no = old.1.no
      · rw [isOld, Function.update_self, Function.update_self, Option.bind_none]
      · rw [Function.update_of_ne isOld, Function.update_of_ne isOld]
        cases position : pool.index no with
        | none => rfl
        | some place =>
            have elsewhere : idx ≠ place := by
              rintro rfl
              obtain ⟨entry, atIdx, number⟩ := (indexed no idx).mp position
              obtain rfl := Option.some.inj (atIdx.symm.trans present)
              exact isOld number.symm
            rw [Option.bind_some, Option.bind_some, List.getElem?_set_ne elsewhere]

/-- The last entry gone. -/
theorem pop_spec
    {next : BufferPool}
    {last : Frame × Bool}
    (indexed : pool.Indexed)
    (atEnd : pool.contents.getLast? = some last)
    (newContents : next.contents = pool.contents.dropLast)
    (newIndex : next.index = Function.update pool.index last.1.no none) :
    next.Indexed ∧ next.cached = Function.update pool.cached last.1.no none := by
  have present : pool.contents[pool.contents.length - 1]? = some last :=
    List.getLast?_eq_getElem? ▸ atEnd
  have lastPosition : pool.index last.1.no = some (pool.contents.length - 1) :=
    (indexed _ _).mpr ⟨last, present, rfl⟩
  have before :
      ∀ {no position}, no ≠ last.1.no → pool.index no = some position →
        position < pool.contents.length - 1 := by
    intro no position other found
    obtain ⟨entry, atPosition, number⟩ := (indexed no position).mp found
    have inside := (List.getElem?_eq_some_iff.mp atPosition).1
    refine Nat.lt_of_le_of_ne (Nat.le_sub_one_of_lt inside) ?_
    rintro rfl
    obtain rfl := Option.some.inj (atPosition.symm.trans present)
    exact other number.symm
  constructor
  · intro no position
    rw [newIndex, newContents, List.getElem?_dropLast]
    by_cases isLast : no = last.1.no
    · subst isLast
      rw [Function.update_self]
      refine ⟨nofun, ?_⟩
      rintro ⟨entry, atPosition, number⟩
      split at atPosition
      · next below =>
          have found := (indexed _ position).mpr ⟨entry, atPosition, number⟩
          have same := Option.some.inj (found.symm.trans lastPosition)
          exact absurd same (Nat.ne_of_lt below)
      · cases atPosition
    · rw [Function.update_of_ne isLast]
      split
      · exact indexed no position
      · next beyond =>
          refine ⟨fun found => absurd (before isLast found) beyond, ?_⟩
          rintro ⟨entry, atPosition, -⟩
          cases atPosition
  · funext no
    unfold cached
    rw [newIndex, newContents]
    by_cases isLast : no = last.1.no
    · rw [isLast, Function.update_self, Function.update_self, Option.bind_none]
    · rw [Function.update_of_ne isLast, Function.update_of_ne isLast]
      cases position : pool.index no with
      | none => rfl
      | some place =>
          rw [Option.bind_some, Option.bind_some, List.getElem?_dropLast,
            if_pos (before isLast position)]

/-- An entry of an absent page behind the last one. -/
theorem push_spec
    {next : BufferPool}
    {frame : Frame}
    {dirty : Bool}
    (indexed : pool.Indexed)
    (absent : pool.index frame.no = none)
    (newContents : next.contents = pool.contents ++ [(frame, dirty)])
    (newIndex :
      next.index = Function.update pool.index frame.no (some pool.contents.length)) :
    next.Indexed ∧
      next.cached = Function.update pool.cached frame.no (some (frame, dirty)) := by
  have before :
      ∀ {no position}, pool.index no = some position → position < pool.contents.length := by
    intro no position found
    obtain ⟨entry, atPosition, -⟩ := (indexed no position).mp found
    exact (List.getElem?_eq_some_iff.mp atPosition).1
  constructor
  · intro no position
    rw [newIndex, newContents]
    rcases Nat.lt_trichotomy position pool.contents.length with below | rfl | above
    · rw [List.getElem?_append_left below]
      by_cases isNew : no = frame.no
      · subst isNew
        rw [Function.update_self, ← indexed, absent]
        simp only [Option.some.injEq, reduceCtorEq, iff_false]
        omega
      · rw [Function.update_of_ne isNew]
        exact indexed no position
    · simp only [List.getElem?_concat_length, Option.some.injEq, exists_eq_left']
      by_cases isNew : no = frame.no
      · subst isNew
        simp
      · rw [Function.update_of_ne isNew]
        refine ⟨fun found => ?_, fun same => absurd same.symm isNew⟩
        exact absurd (before found) (Nat.lt_irrefl _)
    · have outside : (pool.contents ++ [(frame, dirty)])[position]? = none := by
        rw [List.getElem?_eq_none_iff, List.length_append, List.length_singleton]
        omega
      rw [outside]
      by_cases isNew : no = frame.no
      · subst isNew
        rw [Function.update_self]
        simp only [Option.some.injEq, reduceCtorEq, false_and, exists_false, iff_false]
        omega
      · rw [Function.update_of_ne isNew]
        refine ⟨fun found => ?_, nofun⟩
        exact absurd (before found) (by omega)
  · funext no
    unfold cached
    rw [newIndex, newContents]
    by_cases isNew : no = frame.no
    · subst isNew
      simp
    · rw [Function.update_of_ne isNew, Function.update_of_ne isNew]
      cases position : pool.index no with
      | none => rfl
      | some place =>
          rw [Option.bind_some, Option.bind_some,
            List.getElem?_append_left (before position)]

end Positions

/-- What `put` can do to the cached pages and answer. -/
inductive Admission
    (cached : Cached)
    (handles : List Nat)
    (frame : Frame)
    (dirty : Bool) :
    Except Error (Option Frame) → Cached → Prop where
  | replaced
      {old : Frame}
      {wasDirty : Bool}
      (resident : cached frame.no = some (old, wasDirty)) :
      Admission cached handles frame dirty (.ok none)
        (Function.update cached frame.no (some (frame, wasDirty || dirty)))
  | inserted
      (absent : cached frame.no = none) :
      Admission cached handles frame dirty (.ok none)
        (Function.update cached frame.no (some (frame, dirty)))
  | evicted
      {victim : Frame}
      {wasDirty : Bool}
      (absent : cached frame.no = none)
      (resident : cached victim.no = some (victim, wasDirty))
      (unpinned : victim.id ∉ handles) :
      Admission cached handles frame dirty (.ok (if wasDirty then some victim else none))
        (Function.update (Function.update cached victim.no none) frame.no
          (some (frame, dirty)))
  | exhausted
      (absent : cached frame.no = none)
      (capacity : Nat) :
      Admission cached handles frame dirty
        (.error (.exhausted s!"buffer pool is full and all {capacity} frames are pinned"))
        cached

theorem put_room
    {pool : BufferPool}
    {frame : Frame}
    (handles : List Nat)
    (dirty : Bool)
    (absent : pool.index frame.no = none)
    (room : pool.slots.length < pool.capacity) :
    pool.put handles frame dirty =
      (.ok none, { pool with
        index := Function.update pool.index frame.no (some pool.slots.length)
        slots := pool.slots ++
          [{ frame := frame, dirty := dirty, referenced := true }] }) := by
  simp only [put, absent, Option.bind_none, if_pos room]

/-- `put` keeps the index and does one of four things to the cache. -/
theorem put_spec
    {pool : BufferPool}
    (indexed : pool.Indexed)
    (handles : List Nat)
    (frame : Frame)
    (dirty : Bool) :
    (pool.put handles frame dirty).2.Indexed ∧
      Admission pool.cached handles frame dirty
        (pool.put handles frame dirty).1 (pool.put handles frame dirty).2.cached := by
  cases position : pool.index frame.no with
  | some idx =>
      obtain ⟨old, present, number⟩ := (indexed frame.no idx).mp position
      obtain ⟨slot, atIdx, rfl⟩ := Option.map_eq_some_iff.mp (contents_getElem? pool idx ▸ present)
      have resident : pool.cached frame.no = some (slot.frame, slot.dirty) := by
        rw [cached, position, Option.bind_some, present]
      have result :
          pool.put handles frame dirty =
            (.ok none, { pool with
              slots := pool.slots.set idx {
                frame := frame
                dirty := slot.dirty || dirty
                referenced := true } }) := by
        simp only [put, position, Option.bind_some, atIdx, Option.map_some]
      have newContents :
          (pool.put handles frame dirty).2.contents =
            pool.contents.set idx (frame, slot.dirty || dirty) := by
        rw [result]
        exact List.map_set
      have newIndex :
          (pool.put handles frame dirty).2.index =
            Function.update (Function.update pool.index slot.frame.no none)
              frame.no (some idx) := by
        simp only at number
        rw [result, number, Function.update_idem, ← position, Function.update_eq_self]
      have only :
          ∀ other, pool.index frame.no = some other → other = idx :=
        fun other found => Option.some.inj (found.symm.trans position)
      obtain ⟨nextIndexed, nextCached⟩ :=
        replace_spec indexed present only newContents newIndex
      refine ⟨nextIndexed, ?_⟩
      rw [nextCached, number, Function.update_idem, result]
      exact .replaced resident
  | none =>
      have absent : pool.cached frame.no = none := by
        rw [cached, position, Option.bind_none]
      by_cases room : pool.slots.length < pool.capacity
      · have result := put_room handles dirty position room
        have newContents :
            (pool.put handles frame dirty).2.contents =
              pool.contents ++ [(frame, dirty)] := by
          rw [result]
          exact List.map_append
        have newIndex :
            (pool.put handles frame dirty).2.index =
              Function.update pool.index frame.no (some pool.contents.length) := by
          rw [result, contents, List.length_map]
        obtain ⟨nextIndexed, nextCached⟩ :=
          push_spec indexed position newContents newIndex
        refine ⟨nextIndexed, ?_⟩
        rw [nextCached, result]
        exact .inserted absent
      · obtain ⟨touched, found⟩ := sweep_spec handles (2 * pool.slots.length) pool
        cases swept : pool.victimSlot handles with
        | mk chosen next =>
            rw [show pool.sweep handles (2 * pool.slots.length) = (chosen, next) from swept]
              at touched found
            cases chosen with
            | none =>
                have result :
                    pool.put handles frame dirty =
                      (.error (.exhausted
                        s!"buffer pool is full and all {pool.capacity} frames are pinned"),
                        next) := by
                  simp only [put, position, Option.bind_none, if_neg room, swept]
                rw [result]
                refine ⟨touched.indexed indexed, ?_⟩
                rw [touched.cached]
                exact .exhausted absent pool.capacity
            | some victim =>
                obtain ⟨entry, atVictim, unpinned⟩ := found victim rfl
                obtain ⟨evicted, atSlot, rfl⟩ : ∃ evicted,
                    next.slots[victim]? = some evicted ∧
                      (evicted.frame, evicted.dirty) = entry := by
                  rw [← touched.contents, contents_getElem?] at atVictim
                  exact Option.map_eq_some_iff.mp atVictim
                have result :
                    pool.put handles frame dirty =
                      (.ok (if evicted.dirty then some evicted.frame else none),
                        { next with
                          slots := next.slots.set victim
                            { frame := frame, dirty := dirty, referenced := true }
                          index :=
                            Function.update
                              (Function.update next.index evicted.frame.no none)
                              frame.no (some victim) }) := by
                  simp only [put, position, Option.bind_none, if_neg room, swept, atSlot]
                have newContents :
                    (pool.put handles frame dirty).2.contents =
                      pool.contents.set victim (frame, dirty) := by
                  rw [result, ← touched.contents]
                  exact List.map_set
                have newIndex :
                    (pool.put handles frame dirty).2.index =
                      Function.update (Function.update pool.index evicted.frame.no none)
                        frame.no (some victim) := by
                  rw [result, ← touched.index]
                have only :
                    ∀ other, pool.index frame.no = some other → other = victim := by
                  rw [position]
                  nofun
                obtain ⟨nextIndexed, nextCached⟩ :=
                  replace_spec indexed atVictim only newContents newIndex
                refine ⟨nextIndexed, ?_⟩
                rw [nextCached, result]
                refine .evicted absent ?_ unpinned
                exact (cached_eq_some_iff indexed).mpr ⟨List.mem_of_getElem? atVictim, rfl⟩

theorem put_answer
    {pool : BufferPool}
    {handles : List Nat}
    {frame other : Frame}
    {dirty otherDirty : Bool}
    (sameNumber : frame.no = other.no) :
    (pool.put handles frame dirty).1 = (pool.put handles other otherDirty).1 := by
  unfold put
  rw [sameNumber]
  split
  · rfl
  · dsimp only
    split
    · rfl
    · split
      · rfl
      · split <;> rfl

/-- Which pages `put` leaves cached depends on the page number alone. -/
theorem put_index
    {pool : BufferPool}
    {handles : List Nat}
    {frame other : Frame}
    {dirty otherDirty : Bool}
    (sameNumber : frame.no = other.no) :
    (pool.put handles frame dirty).2.index = (pool.put handles other otherDirty).2.index := by
  unfold put
  rw [sameNumber]
  split
  · rfl
  · dsimp only
    split
    · rfl
    · split
      · rfl
      · split <;> rfl

/-- A page is cached exactly when it has a position. -/
theorem cached_eq_none_iff
    {pool : BufferPool}
    {no : UInt32}
    (indexed : pool.Indexed) :
    pool.cached no = none ↔ pool.index no = none := by
  constructor
  · intro absent
    by_contra positioned
    obtain ⟨idx, position⟩ := Option.ne_none_iff_exists'.mp positioned
    obtain ⟨entry, present, _⟩ := (indexed no idx).mp position
    rw [cached, position, Option.bind_some, present] at absent
    cases absent
  · intro unpositioned
    rw [cached, unpositioned, Option.bind_none]

/-- Clearing a dirty bit touches one page. -/
theorem clean_spec
    {pool : BufferPool}
    (indexed : pool.Indexed)
    (no : UInt32) :
    (pool.clean no).Indexed ∧
      (pool.clean no).cached =
        Function.update pool.cached no
          ((pool.cached no).map fun entry => (entry.1, false)) := by
  cases position : pool.index no with
  | none =>
      have absent : pool.cached no = none := by
        rw [cached, position, Option.bind_none]
      have result : pool.clean no = pool := by
        simp only [clean, position, Option.bind_none]
      rw [result, absent, Option.map_none, ← absent, Function.update_eq_self]
      exact ⟨indexed, rfl⟩
  | some idx =>
      obtain ⟨old, present, number⟩ := (indexed no idx).mp position
      obtain ⟨slot, atIdx, rfl⟩ := Option.map_eq_some_iff.mp (contents_getElem? pool idx ▸ present)
      simp only at number
      subst number
      have resident : pool.cached slot.frame.no = some (slot.frame, slot.dirty) := by
        rw [cached, position, Option.bind_some, present]
      have result :
          pool.clean slot.frame.no =
            { pool with slots := pool.slots.set idx { slot with dirty := false } } := by
        simp only [clean, position, Option.bind_some, atIdx, Option.map_some]
      have newContents :
          (pool.clean slot.frame.no).contents = pool.contents.set idx (slot.frame, false) := by
        rw [result]
        exact List.map_set
      have newIndex :
          (pool.clean slot.frame.no).index =
            Function.update (Function.update pool.index slot.frame.no none)
              slot.frame.no (some idx) := by
        rw [result, Function.update_idem, ← position, Function.update_eq_self]
      have only :
          ∀ other, pool.index slot.frame.no = some other → other = idx :=
        fun other found => Option.some.inj (found.symm.trans position)
      obtain ⟨nextIndexed, nextCached⟩ :=
        replace_spec indexed present only newContents newIndex
      refine ⟨nextIndexed, ?_⟩
      rw [nextCached, resident, Function.update_idem]
      rfl

theorem swapRemove_of_last
    {slots : List Slot}
    {last : Slot}
    (atEnd : slots.getLast? = some last)
    (idx : Nat) :
    swapRemove slots idx = slots.dropLast.set idx last := by
  simp only [swapRemove, atEnd]
  rw [List.dropLast_eq_take, List.length_set, List.take_set, ← List.dropLast_eq_take]

/-- The last frame takes the place of the dropped one. -/
theorem drop_moves
    {pool : BufferPool}
    {idx : Nat}
    {old last : Frame × Bool}
    (indexed : pool.Indexed)
    (present : pool.contents[idx]? = some old)
    (atEnd : pool.contents.getLast? = some last)
    (inside : idx < pool.contents.length - 1) :
    (pool.drop old.1.no).Indexed ∧
      (pool.drop old.1.no).cached = Function.update pool.cached old.1.no none := by
  have position : pool.index old.1.no = some idx :=
    (indexed _ idx).mpr ⟨old, present, rfl⟩
  have different : last.1.no ≠ old.1.no := by
    intro same
    have lastPosition : pool.index last.1.no = some (pool.contents.length - 1) :=
      (indexed _ _).mpr ⟨last, List.getLast?_eq_getElem? ▸ atEnd, rfl⟩
    rw [same, position] at lastPosition
    exact absurd (Option.some.inj lastPosition) (Nat.ne_of_lt inside)
  have resident : pool.cached last.1.no = some last :=
    (cached_eq_some_iff indexed).mpr ⟨List.mem_of_getLast? atEnd, rfl⟩
  obtain ⟨slot, atLast, rfl⟩ :
      ∃ slot, pool.slots.getLast? = some slot ∧ (slot.frame, slot.dirty) = last := by
    rw [contents, List.getLast?_map] at atEnd
    exact Option.map_eq_some_iff.mp atEnd
  have within : idx < pool.slots.length - 1 := by
    rwa [contents, List.length_map] at inside
  have atIdx : (pool.slots.dropLast.set idx slot)[idx]? = some slot :=
    List.getElem?_set_self (by rwa [List.length_dropLast])
  have newContents :
      (pool.drop old.1.no).contents = pool.contents.dropLast.set idx (slot.frame, slot.dirty) := by
    simp only [contents, drop, position, swapRemove_of_last atLast]
    rw [List.map_set, List.map_dropLast]
  have newIndex :
      (pool.drop old.1.no).index =
        Function.update (Function.update (Function.update pool.index slot.frame.no none)
          old.1.no none) slot.frame.no (some idx) := by
    simp only [drop, position, swapRemove_of_last atLast, atIdx, if_neg (Nat.ne_of_lt within)]
    rw [Function.update_comm different, Function.update_idem]
  -- The moved frame first leaves its old place.
  let shortened : BufferPool :=
    { pool with
      slots := pool.slots.dropLast
      index := Function.update pool.index slot.frame.no none }
  obtain ⟨shortIndexed, shortCached⟩ :
      shortened.Indexed ∧ shortened.cached = Function.update pool.cached slot.frame.no none :=
    pop_spec indexed atEnd List.map_dropLast rfl
  have shortContents : shortened.contents = pool.contents.dropLast := List.map_dropLast
  have shortPresent : shortened.contents[idx]? = some old := by
    rw [shortContents, List.getElem?_dropLast, if_pos inside, present]
  have only : ∀ place, shortened.index slot.frame.no = some place → place = idx := by
    intro place found
    rw [show shortened.index slot.frame.no = none from Function.update_self ..] at found
    cases found
  obtain ⟨nextIndexed, nextCached⟩ :=
    replace_spec shortIndexed shortPresent only (shortContents ▸ newContents) newIndex
  refine ⟨nextIndexed, ?_⟩
  rw [nextCached, shortCached, Function.update_comm different, Function.update_idem,
    Function.update_comm different.symm, ← resident, Function.update_eq_self]

/-- Dropping a page forgets that page and no other. -/
theorem drop_spec
    {pool : BufferPool}
    (indexed : pool.Indexed)
    (no : UInt32) :
    (pool.drop no).Indexed ∧
      (pool.drop no).cached = Function.update pool.cached no none := by
  cases position : pool.index no with
  | none =>
      have absent : pool.cached no = none := by
        rw [cached, position, Option.bind_none]
      have result : pool.drop no = pool := by
        simp only [drop, position]
      rw [result, ← absent, Function.update_eq_self]
      exact ⟨indexed, rfl⟩
  | some idx =>
      obtain ⟨old, present, rfl⟩ := (indexed no idx).mp position
      have length : pool.contents.length = pool.slots.length := List.length_map _
      have inside := (List.getElem?_eq_some_iff.mp present).1
      obtain ⟨last, atEnd⟩ : ∃ last, pool.contents.getLast? = some last :=
        ⟨_, List.getLast?_eq_some_getLast (List.ne_nil_of_mem (List.mem_of_getElem? present))⟩
      rcases Nat.lt_or_eq_of_le (Nat.le_sub_one_of_lt inside) with before | isLast
      · exact drop_moves indexed present atEnd before
      · have same : last = old := by
          rw [List.getLast?_eq_getElem?, ← isLast, present] at atEnd
          exact (Option.some.inj atEnd).symm
        subst same
        obtain ⟨slot, atLast, rfl⟩ :
            ∃ slot, pool.slots.getLast? = some slot ∧ (slot.frame, slot.dirty) = last := by
          rw [contents, List.getLast?_map] at atEnd
          exact Option.map_eq_some_iff.mp atEnd
        have newContents :
            (pool.drop slot.frame.no).contents = pool.contents.dropLast := by
          simp only [contents, drop, position, swapRemove_of_last atLast]
          rw [List.set_eq_of_length_le (by rw [List.length_dropLast]; omega), List.map_dropLast]
        have newIndex :
            (pool.drop slot.frame.no).index = Function.update pool.index slot.frame.no none := by
          simp only [drop, position, if_pos (isLast.trans (congrArg (· - 1) length))]
        exact pop_spec indexed atEnd newContents newIndex

end BufferPool

end PrehniteDB
