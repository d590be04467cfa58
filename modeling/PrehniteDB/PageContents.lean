import PrehniteDB.PeerPagers

namespace PrehniteDB

/-!
# The latest image of every page

Pagers may write a page one after another before either commits.  The latest
image of a page is cached, or it is spilled to the log of the one pager that
wrote it, or nobody wrote it and the file has it.
-/

/-- Where the latest image of every page but the header is. -/
structure Stored
    (written : Nat → Finset UInt32)
    (spilled : Nat → UInt32 → Option Page)
    (resident : Residency)
    (file content : UInt32 → Page) : Prop where
  held :
    ∀ {no},
      no ≠ 0 →
        (∃ dirty, resident no = some (content no, dirty)) ∨
          (resident no = none ∧
            ((∃ who,
                no ∈ written who ∧ (∀ other, other ≠ who → no ∉ written other) ∧
                  spilled who no = some (content no)) ∨
              ∀ who, no ∉ written who))
  clean :
    ∀ {no},
      no ≠ 0 → (∀ who, no ∉ written who) →
        file no = content no ∧
          ∀ image dirty, resident no = some (image, dirty) → dirty = false
  owned : ∀ {who no}, no ≠ 0 → spilled who no ≠ none → no ∈ written who

namespace Stored

variable
  {written writtenNext : Nat → Finset UInt32}
  {spilled : Nat → UInt32 → Option Page}
  {resident residentNext : Residency}
  {spilledNext : UInt32 → Option Page}
  {file content contentNext : UInt32 → Page}
  {evictee : Option UInt32}
  {who : Nat}
  {no : UInt32}
  {page : Page}
  {dirty : Bool}

theorem cached
    (stored : Stored written spilled resident file content)
    (nonzero : no ≠ 0)
    (present : resident no = some (page, dirty)) :
    page = content no := by
  rcases stored.held nonzero with ⟨flag, held⟩ | ⟨absent, _⟩
  · rw [present] at held
    exact (Prod.mk.inj (Option.some.inj held)).1
  · rw [present] at absent
    cases absent

/-- A page a pager finds in its own log and not in the cache is there with its latest image. -/
theorem logged
    (stored : Stored written spilled resident file content)
    (nonzero : no ≠ 0)
    (absent : resident no = none)
    (inLog : spilled who no = some page) :
    page = content no := by
  have own : no ∈ written who := stored.owned nonzero (inLog ▸ Option.some_ne_none page)
  rcases stored.held nonzero with ⟨flag, present⟩ | ⟨_, ⟨writer, _, alone, last⟩ | nobody⟩
  · rw [absent] at present
    cases present
  · have same : who = writer := by
      by_contra different
      exact alone who different own
    subst same
    rw [inLog] at last
    exact Option.some.inj last
  · exact absurd own (nobody who)

/-- An admission that evicts nobody else's page and cleans none of its own. -/
theorem admission
    (stored : Stored written spilled resident file content)
    (moves :
      PagerState.Moves evictee resident (spilled who) no page dirty residentNext spilledNext)
    (evicts :
      ∀ victim,
        resident victim ≠ none → residentNext victim = none →
          (∀ other, other ≠ who → victim ∉ written other) ∧
            (victim ∈ written who → ∃ image, resident victim = some (image, true)))
    (elsewhere :
      ∀ number,
        number ≠ no →
          contentNext number = content number ∧
            ∀ other, number ∈ writtenNext other ↔ number ∈ written other)
    (latest : no ≠ 0 → contentNext no = page)
    (grows : ∀ other, no ∈ written other → no ∈ writtenNext other)
    (untouched :
      no ≠ 0 → (∀ other, no ∉ writtenNext other) →
        file no = page ∧
          ∀ image flag, residentNext no = some (image, flag) → flag = false) :
    Stored writtenNext (Function.update spilled who spilledNext) residentNext file
      contentNext where
  held := by
    intro number nonzero
    by_cases same : number = no
    · subst same
      obtain ⟨flag, present⟩ := moves.here
      exact .inl ⟨flag, (latest nonzero).symm ▸ present⟩
    · obtain ⟨sameContent, sameWritten⟩ := elsewhere number same
      simp only [sameContent, sameWritten]
      rcases moves.elsewhere same with
        ⟨kept, keptLog⟩ | ⟨gone, keptLog, old, clean⟩ | ⟨old, gone, spilt, wasDirty⟩
      · have log : ∀ writer, Function.update spilled who spilledNext writer number =
            spilled writer number := by
          intro writer
          by_cases own : writer = who
          · rw [own, Function.update_self, keptLog]
          · rw [Function.update_of_ne own]
        simp only [kept, log]
        exact stored.held nonzero
      · -- A clean frame that leaves is of a page nobody wrote.
        obtain ⟨foreign, own⟩ := evicts number (clean ▸ Option.some_ne_none _) gone
        refine .inr ⟨gone, .inr fun writer member => ?_⟩
        by_cases isOwn : writer = who
        · obtain ⟨_, present⟩ := own (isOwn ▸ member)
          rw [clean] at present
          cases present
        · exact foreign writer isOwn member
      · obtain ⟨foreign, _⟩ := evicts number (wasDirty ▸ Option.some_ne_none _) gone
        have isLatest : old = content number := stored.cached nonzero wasDirty
        by_cases member : number ∈ written who
        · refine .inr ⟨gone, .inl ⟨who, member, foreign, ?_⟩⟩
          rw [Function.update_self, spilt, isLatest]
        · refine .inr ⟨gone, .inr fun writer listed => ?_⟩
          by_cases isOwn : writer = who
          · exact member (isOwn ▸ listed)
          · exact foreign writer isOwn listed
  clean := by
    intro number nonzero nobody
    by_cases same : number = no
    · subst same
      obtain ⟨onDisk, frames⟩ := untouched nonzero nobody
      exact ⟨onDisk.trans (latest nonzero).symm, frames⟩
    · obtain ⟨sameContent, sameWritten⟩ := elsewhere number same
      obtain ⟨onDisk, frames⟩ :=
        stored.clean nonzero fun writer member => nobody writer ((sameWritten writer).mpr member)
      refine ⟨onDisk.trans sameContent.symm, fun image flag present => ?_⟩
      rcases moves.elsewhere same with ⟨kept, _⟩ | ⟨gone, _⟩ | ⟨_, gone, _⟩
      · exact frames image flag (kept.symm.trans present)
      · rw [gone] at present
        cases present
      · rw [gone] at present
        cases present
  owned := by
    intro other number nonzero inLog
    have kept : number ∈ written other → number ∈ writtenNext other := by
      intro member
      by_cases same : number = no
      · exact same ▸ grows other (same ▸ member)
      · exact ((elsewhere number same).2 other).mpr member
    apply kept
    by_cases own : other = who
    · subst own
      rw [Function.update_self] at inLog
      by_cases same : number = no
      · rw [same, moves.log, ← same] at inLog
        exact stored.owned nonzero inLog
      · rcases moves.elsewhere same with
          ⟨_, keptLog⟩ | ⟨_, keptLog, _⟩ | ⟨old, gone, _, wasDirty⟩
        · rw [keptLog] at inLog
          exact stored.owned nonzero inLog
        · rw [keptLog] at inLog
          exact stored.owned nonzero inLog
        · -- A dirty frame that leaves was written by the pager that evicts it.
          obtain ⟨foreign, _⟩ := evicts number (wasDirty ▸ Option.some_ne_none _) gone
          by_contra notOwn
          have nobody : ∀ writer, number ∉ written writer := by
            intro writer
            by_cases isOwn : writer = other
            · exact isOwn ▸ notOwn
            · exact foreign writer isOwn
          cases (stored.clean nonzero nobody).2 old true wasDirty
    · rw [Function.update_of_ne own] at inLog
      exact stored.owned nonzero inLog

/-- A commit writes the latest image of every page its pager wrote. -/
theorem commit
    {order : List UInt32}
    {fileNext : UInt32 → Page}
    (stored : Stored written spilled resident file content)
    (lists : ∀ {number}, number ∈ order ↔ number ≠ 0 ∧ number ∈ written who)
    (writes :
      ∀ {number}, number ≠ 0 → number ∈ written who → fileNext number = content number)
    (keeps :
      ∀ {number}, number ≠ 0 → number ∉ written who → fileNext number = file number) :
    Stored (Function.update written who ∅) (Function.update spilled who fun _ => none)
      (fun number =>
        if number ∈ order then (resident number).map fun entry => (entry.1, false)
        else resident number)
      fileNext content where
  held := by
    intro number nonzero
    have others :
        ∀ {writer},
          number ∈ Function.update written who ∅ writer ↔ writer ≠ who ∧ number ∈ written writer := by
      intro writer
      by_cases own : writer = who
      · subst own
        rw [Function.update_self]
        exact ⟨fun member => absurd member (Finset.notMem_empty number), fun both =>
          absurd rfl both.1⟩
      · rw [Function.update_of_ne own]
        exact ⟨fun member => ⟨own, member⟩, And.right⟩
    rcases stored.held nonzero with ⟨flag, present⟩ | ⟨absent, place⟩
    · left
      rw [present]
      split
      · exact ⟨false, rfl⟩
      · exact ⟨flag, rfl⟩
    · right
      rw [absent]
      refine ⟨ite_self none, ?_⟩
      rcases place with ⟨writer, member, alone, inLog⟩ | nobody
      · by_cases own : writer = who
        · refine .inr fun other listed => ?_
          obtain ⟨different, wrote⟩ := others.mp listed
          exact alone other (fun same => different (same.trans own)) wrote
        · refine .inl ⟨writer, others.mpr ⟨own, member⟩, ?_, ?_⟩
          · exact fun other different listed => alone other different (others.mp listed).2
          · rw [Function.update_of_ne own, inLog]
      · exact .inr fun other listed => nobody other (others.mp listed).2
  clean := by
    intro number nonzero nobody
    have foreign : ∀ writer, writer ≠ who → number ∉ written writer := by
      intro writer different member
      apply nobody writer
      rw [Function.update_of_ne different]
      exact member
    by_cases own : number ∈ written who
    · refine ⟨writes nonzero own, fun image flag present => ?_⟩
      rw [if_pos (lists.mpr ⟨nonzero, own⟩)] at present
      obtain ⟨_, _, same⟩ := Option.map_eq_some_iff.mp present
      exact (Prod.mk.inj same).2.symm
    · have before : ∀ writer, number ∉ written writer := by
        intro writer
        by_cases isOwn : writer = who
        · exact isOwn ▸ own
        · exact foreign writer isOwn
      obtain ⟨onDisk, frames⟩ := stored.clean nonzero before
      refine ⟨(keeps nonzero own).trans onDisk, fun image flag present => ?_⟩
      rw [if_neg fun listed => own (lists.mp listed).2] at present
      exact frames image flag present
  owned := by
    intro other number nonzero inLog
    by_cases own : other = who
    · rw [own, Function.update_self] at inLog
      exact absurd rfl inLog
    · rw [Function.update_of_ne own] at inLog ⊢
      exact stored.owned nonzero inLog

/-- A rollback goes back to the file for the pages its pager alone wrote. -/
theorem rollback
    {order : List UInt32}
    (stored : Stored written spilled resident file content)
    (lists : ∀ {number}, number ∈ order ↔ number ∈ written who)
    (apart : ∀ number ∈ written who, ∀ other, other ≠ who → number ∉ written other) :
    Stored (Function.update written who ∅) (Function.update spilled who fun _ => none)
      (fun number => if number ∈ order then none else resident number) file
      (fun number => if number ∈ written who then file number else content number) where
  held := by
    intro number nonzero
    by_cases own : number ∈ written who
    · rw [if_pos own, if_pos (lists.mpr own)]
      refine .inr ⟨rfl, .inr fun writer member => ?_⟩
      by_cases isOwn : writer = who
      · rw [isOwn, Function.update_self] at member
        cases member
      · rw [Function.update_of_ne isOwn] at member
        exact apart number own writer isOwn member
    · have sameWritten :
          ∀ writer, number ∈ Function.update written who ∅ writer ↔ number ∈ written writer := by
        intro writer
        by_cases isOwn : writer = who
        · subst isOwn
          rw [Function.update_self]
          exact ⟨fun member => absurd member (Finset.notMem_empty number), fun member =>
            absurd member own⟩
        · rw [Function.update_of_ne isOwn]
      rw [if_neg own, if_neg fun listed => own (lists.mp listed)]
      simp only [sameWritten]
      rcases stored.held nonzero with cached | ⟨absent, ⟨writer, member, alone, inLog⟩ | nobody⟩
      · exact .inl cached
      · refine .inr ⟨absent, .inl ⟨writer, member, alone, ?_⟩⟩
        have foreign : writer ≠ who := by
          rintro rfl
          exact own member
        rw [Function.update_of_ne foreign, inLog]
      · exact .inr ⟨absent, .inr nobody⟩
  clean := by
    intro number nonzero nobody
    by_cases own : number ∈ written who
    · rw [if_pos own, if_pos (lists.mpr own)]
      exact ⟨rfl, nofun⟩
    · rw [if_neg own, if_neg fun listed => own (lists.mp listed)]
      apply stored.clean nonzero
      intro writer member
      by_cases isOwn : writer = who
      · exact own (isOwn ▸ member)
      · apply nobody writer
        rw [Function.update_of_ne isOwn]
        exact member
  owned := by
    intro other number nonzero inLog
    by_cases own : other = who
    · rw [own, Function.update_self] at inLog
      exact absurd rfl inLog
    · rw [Function.update_of_ne own] at inLog ⊢
      exact stored.owned nonzero inLog

end Stored

end PrehniteDB
