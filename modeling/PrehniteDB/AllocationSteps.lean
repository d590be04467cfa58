import PrehniteDB.PageAllocator

namespace PrehniteDB

/-!
# Steps keep the division of the pages

One operation of one pager moves at most one page between its places.  The images
it leaves are those the pager will find, so the free list can still be followed.
-/

namespace Stored

variable
  {written : Nat → Finset UInt32}
  {spilled : Nat → UInt32 → Option Page}
  {resident residentNext : Residency}
  {spilledNext : UInt32 → Option Page}
  {file content : UInt32 → Page}
  {evictee : Option UInt32}
  {who : Nat}
  {no : UInt32}
  {page : Page}

theorem stage
    (stored : Stored written spilled resident file content)
    (moves :
      PagerState.Moves evictee resident (spilled who) no page true residentNext spilledNext)
    (evicts :
      ∀ victim,
        resident victim ≠ none → residentNext victim = none →
          (∀ other, other ≠ who → victim ∉ written other) ∧
            (victim ∈ written who → ∃ image, resident victim = some (image, true))) :
    Stored (Function.update written who (insert no (written who)))
      (Function.update spilled who spilledNext) residentNext file
      (Function.update content no page) := by
  have writes :
      ∀ {other number},
        number ∈ Function.update written who (insert no (written who)) other ↔
          (other = who ∧ number = no) ∨ number ∈ written other := by
    grind [Function.update_apply]
  apply stored.admission moves evicts
  · intro number different
    refine ⟨Function.update_of_ne different _ _, fun other => writes.trans ?_⟩
    exact ⟨fun either => either.resolve_left fun both => different both.2, .inr⟩
  · exact fun _ => Function.update_self _ _ _
  · exact fun _ member => writes.mpr (.inr member)
  · exact fun _ nobody => absurd (writes.mpr (.inl ⟨rfl, rfl⟩)) (nobody who)

/-- A read past the cache finds the latest image. -/
theorem fetch
    {state next : PagerState}
    (stored : Stored written spilled state.pool.resident state.file.pages content)
    (own : spilled who = state.spilled)
    (fetched : PagerState.Fetched state no page next)
    (evicts :
      ∀ victim,
        state.pool.resident victim ≠ none → next.pool.resident victim = none →
          (∀ other, other ≠ who → victim ∉ written other) ∧
            (victim ∈ written who → ∃ image, state.pool.resident victim = some (image, true)))
    (rereads :
      no ≠ 0 → state.pool.resident no = none → state.spilled no = none →
        ∀ other, no ∉ written other) :
    Stored written (Function.update spilled who next.spilled) next.pool.resident
        next.file.pages content ∧
      (no ≠ 0 → page = content no) := by
  have admitted :
      ∀ {dirty},
        PagerState.Admitted state no page dirty next →
          (no ≠ 0 → page = content no) →
            (no ≠ 0 → (∀ other, no ∉ written other) →
              state.file.pages no = page ∧ dirty = false) →
              state.pool.resident no = none →
                Stored written (Function.update spilled who next.spilled) next.pool.resident
                  next.file.pages content := by
    intro dirty admitted same untouched absent
    rw [admitted.keeps.file]
    have moves := admitted.moves
    rw [← own] at moves
    apply stored.admission moves evicts
    · exact fun number _ => ⟨rfl, fun _ => Iff.rfl⟩
    · exact fun nonzero => (same nonzero).symm
    · exact fun _ member => member
    · intro nonzero nobody
      obtain ⟨onDisk, clean⟩ := untouched nonzero nobody
      refine ⟨onDisk, fun image flag present => ?_⟩
      rw [moves.fresh absent] at present
      exact (Prod.mk.inj (Option.some.inj present)).2.symm.trans clean
  cases fetched with
  | cached present still =>
      have sameSpilled : Function.update spilled who next.spilled = spilled := by
        rw [still.spilled, ← own]
        exact Function.update_eq_self _ _
      rw [sameSpilled, still.resident, still.keeps.file]
      exact ⟨stored, fun nonzero => stored.cached nonzero present⟩
  | unspilled absent inLog moved =>
      have logged : spilled who no = some page := by
        rw [own]
        exact inLog
      have same : no ≠ 0 → page = content no := fun nonzero =>
        stored.logged nonzero absent logged
      refine ⟨admitted moved same (fun nonzero nobody => ?_) absent, same⟩
      exact absurd (stored.owned nonzero (logged ▸ Option.some_ne_none page)) (nobody who)
  | fromFile absent notInLog inside image moved =>
      have same : no ≠ 0 → page = content no := fun nonzero =>
        image.trans (stored.clean nonzero (rereads nonzero absent notInLog)).1
      exact ⟨admitted moved same (fun _ _ => ⟨image.symm, rfl⟩) absent, same⟩

end Stored

namespace Cluster

section Step

variable
  {cluster next : Cluster}
  {content contentNext : UInt32 → Page}
  {who : Nat}
  {no : UInt32}
  {state : PagerState}
  {ledger : Ledger}
  {freeList : List (UInt32 × UInt32)}

/-- Pager `who` has moved to `state` and the free list is `freeList`. -/
def moved
    (cluster : Cluster)
    (who : Nat)
    (state : PagerState)
    (ledger : Ledger)
    (freeList : List (UInt32 × UInt32)) : Cluster :=
  { cluster.set who state ledger with freeList := freeList }

theorem moved_pagers {α : Type} (field : Pager → α) :
    (fun other => field ((cluster.moved who state ledger freeList).pagers other)) =
      Function.update (fun other => field (cluster.pagers other)) who (field state.toPager) := by
  funext other
  exact Function.apply_update (fun _ => field) cluster.pagers who state.toPager other

theorem moved_ledgers {α : Type} (field : Ledger → α) :
    (fun other => field ((cluster.moved who state ledger freeList).ledgers other)) =
      Function.update (fun other => field (cluster.ledgers other)) who (field ledger) := by
  funext other
  exact Function.apply_update (fun _ => field) cluster.ledgers who ledger other

theorem moved_written :
    (cluster.moved who state ledger freeList).written =
      Function.update cluster.written who state.dirtyPages :=
  moved_pagers Pager.dirtyPages

theorem moved_spilled :
    (cluster.moved who state ledger freeList).spilled =
      Function.update cluster.spilled who state.spilled :=
  moved_pagers Pager.spilled

theorem moved_pending :
    (cluster.moved who state ledger freeList).pending =
      Function.update cluster.pending who state.pendingFreelist :=
  moved_pagers Pager.pendingFreelist

theorem moved_allocated :
    (cluster.moved who state ledger freeList).allocated =
      Function.update cluster.allocated who state.allocatedPages :=
  moved_pagers Pager.allocatedPages

theorem moved_inUse :
    (cluster.moved who state ledger freeList).inUse =
      Function.update cluster.inUse who ledger.inUse :=
  moved_ledgers Ledger.inUse

theorem moved_committed :
    (cluster.moved who state ledger freeList).committed =
      Function.update cluster.committed who ledger.committed :=
  moved_ledgers Ledger.committed

theorem moved_staged :
    (cluster.moved who state ledger freeList).staged =
      Function.update cluster.staged who ledger.staged :=
  moved_ledgers Ledger.staged

theorem update_pending :
    Function.update cluster.pending who (cluster.view who).pendingFreelist = cluster.pending :=
  Function.update_eq_self _ _

theorem update_allocated :
    Function.update cluster.allocated who (cluster.view who).allocatedPages = cluster.allocated :=
  Function.update_eq_self _ _

theorem update_written :
    Function.update cluster.written who (cluster.view who).dirtyPages = cluster.written :=
  Function.update_eq_self _ _

theorem update_spilled :
    Function.update cluster.spilled who (cluster.view who).spilled = cluster.spilled :=
  Function.update_eq_self _ _

theorem update_inUse :
    Function.update cluster.inUse who (cluster.ledgers who).inUse = cluster.inUse :=
  Function.update_eq_self _ _

theorem update_committed :
    Function.update cluster.committed who (cluster.ledgers who).committed = cluster.committed :=
  Function.update_eq_self _ _

theorem update_staged :
    Function.update cluster.staged who (cluster.ledgers who).staged = cluster.staged :=
  Function.update_eq_self _ _

theorem Allocation.move
    (allocation : cluster.Allocation content)
    (coherent : state.Coherent)
    (stored :
      Stored (Function.update cluster.written who state.dirtyPages)
        (Function.update cluster.spilled who state.spilled) state.pool.resident
        state.file.pages contentNext)
    (divided :
      PageDivision.Divided (freeList.map Prod.fst)
        (Function.update cluster.pending who state.pendingFreelist)
        (Function.update cluster.inUse who ledger.inUse)
        (Function.update cluster.committed who ledger.committed)
        (Function.update cluster.allocated who state.allocatedPages)
        (Function.update cluster.written who state.dirtyPages) (Known state.metadata))
    (linked : Linked contentNext state.metadata.freelistHead freeList)
    (count : state.metadata.pageCount ≠ 0)
    (latest :
      ∀ {other number image},
        number ∈ Function.update cluster.inUse who ledger.inUse other →
          Function.update cluster.staged who ledger.staged other number = some image →
            contentNext number = image)
    (dirty : ∀ {number}, number ∈ state.dirtyPages ↔ ledger.staged number ≠ none)
    (base :
      ∀ {other number},
        number ∈ Function.update cluster.committed who ledger.committed other →
          state.file.pages number =
            (Function.update cluster.ledgers who ledger other).base number) :
    (cluster.moved who state ledger freeList).Allocation contentNext where
  pool := coherent.pool
  pagers := by
    intro other
    change (Function.update cluster.pagers who state.toPager other).Coherent
    by_cases own : other = who
    · rw [own, Function.update_self]
      exact coherent.pager
    · rw [Function.update_of_ne own]
      exact allocation.pagers other
  stored := by
    rw [moved_written, moved_spilled]
    exact stored
  divided := by
    rw [moved_written, moved_allocated, moved_pending, moved_inUse, moved_committed]
    exact divided
  linked := linked
  count := count
  latest := by
    rw [moved_inUse, moved_staged]
    exact fun member known => latest member known
  dirty := by
    intro other number
    change
      number ∈ (Function.update cluster.pagers who state.toPager other).dirtyPages ↔
        (Function.update cluster.ledgers who ledger other).staged number ≠ none
    by_cases own : other = who
    · rw [own, Function.update_self, Function.update_self]
      exact dirty
    · rw [Function.update_of_ne own, Function.update_of_ne own]
      exact allocation.dirty
  base := by
    intro other number member
    rw [moved_committed] at member
    exact base member

/-- One pager moved, and neither its pages nor what its caller knows changed. -/
theorem Allocation.kept
    (allocation : cluster.Allocation content)
    (coherent : state.Coherent)
    (stored :
      Stored cluster.written (Function.update cluster.spilled who state.spilled)
        state.pool.resident state.file.pages content)
    (divided :
      PageDivision.Divided cluster.free
        (Function.update cluster.pending who state.pendingFreelist) cluster.inUse
        cluster.committed cluster.allocated cluster.written (Known state.metadata))
    (file : state.file = cluster.shared.file)
    (dirtyPages : state.dirtyPages = (cluster.pagers who).dirtyPages)
    (allocatedPages : state.allocatedPages = (cluster.pagers who).allocatedPages)
    (head : state.metadata.freelistHead = cluster.shared.metadata.freelistHead)
    (count : state.metadata.pageCount ≠ 0) :
    (cluster.set who state (cluster.ledgers who)).Allocation content := by
  have dirtyPages : state.dirtyPages = (cluster.view who).dirtyPages := dirtyPages
  have allocatedPages : state.allocatedPages = (cluster.view who).allocatedPages :=
    allocatedPages
  change (cluster.moved who state (cluster.ledgers who) cluster.freeList).Allocation content
  apply allocation.move coherent
  · rw [dirtyPages, update_written]
    exact stored
  · rw [dirtyPages, allocatedPages, update_written, update_allocated, update_inUse,
      update_committed]
    exact divided
  · rw [head]
    exact allocation.linked
  · exact count
  · rw [update_inUse, update_staged]
    exact fun member known => allocation.latest member known
  · rw [dirtyPages]
    exact allocation.dirty
  · rw [update_committed, Function.update_eq_self, file]
    exact fun member => allocation.base member

/-- The operation moved no image and changed nothing its pager keeps. -/
theorem Allocation.still
    (allocation : cluster.Allocation content)
    (still : PagerState.Still (cluster.view who) state) :
    (cluster.set who state (cluster.ledgers who)).Allocation content := by
  apply allocation.kept still.coherent
  · rw [still.spilled, update_spilled, still.resident, still.keeps.file]
    exact allocation.stored
  · rw [still.keeps.pendingFreelist, update_pending, still.keeps.metadata]
    exact allocation.divided
  · exact still.keeps.file
  · exact still.keeps.dirtyPages
  · exact still.keeps.allocatedPages
  · rw [still.keeps.metadata]
    rfl
  · rw [still.keeps.metadata]
    exact allocation.count

theorem Allocation.readPage
    (allocation : cluster.Allocation content)
    (careful : cluster.Careful (who, .readPage no))
    (taken : cluster.step (who, .readPage no) = some next) :
    next.Allocation content := by
  have coherent := allocation.coherent who
  rcases PagerState.readPage_spec coherent no with
    ⟨frame, after, result, fetched⟩ | ⟨error, after, result, still, _⟩
  · simp only [step, result, Option.some.injEq] at taken
    subst taken
    have evicts :
        ∀ victim,
          cluster.shared.pool.resident victim ≠ none → after.pool.resident victim = none →
            (∀ other, other ≠ who → victim ∉ cluster.written other) ∧
              (victim ∈ cluster.written who →
                ∃ image, cluster.shared.pool.resident victim = some (image, true)) := by
      intro victim present gone
      apply careful.evicts no rfl victim
      apply PagerState.readPage_displaces coherent present
      rw [result]
      exact gone
    have rereads :
        no ≠ 0 → cluster.shared.pool.resident no = none →
          (cluster.view who).spilled no = none → ∀ other, no ∉ cluster.written other := by
      intro nonzero absent notInLog other member
      have own : other = who := by
        by_contra foreign
        exact careful.rereads no rfl absent other foreign member
      subst own
      rcases allocation.stored.held nonzero with
        ⟨flag, present⟩ | ⟨_, ⟨writer, _, alone, inLog⟩ | nobody⟩
      · rw [absent] at present
        cases present
      · have same : other = writer := by
          by_contra different
          exact alone other different member
        subst same
        have inLog : (cluster.view other).spilled no = some (content no) := inLog
        rw [notInLog] at inLog
        cases inLog
      · exact nobody other member
    have pinned := fetched_pin fetched frame
    obtain ⟨stored, _⟩ := allocation.stored.fetch rfl pinned evicts rereads
    obtain ⟨after, keeps⟩ := fetched_keeps pinned
    apply allocation.kept after stored
    · rw [keeps.metadata, keeps.pendingFreelist, update_pending]
      exact allocation.divided
    · exact keeps.file
    · exact keeps.dirtyPages
    · exact keeps.allocatedPages
    · rw [keeps.metadata]
      rfl
    · rw [keeps.metadata]
      exact allocation.count
  · simp only [step, result, Option.some.injEq] at taken
    subst taken
    exact allocation.still still

theorem Allocation.release
    (allocation : cluster.Allocation content)
    {id : Nat}
    (taken : cluster.step (who, .release id) = some next) :
    next.Allocation content := by
  obtain rfl := Option.some.inj taken
  have coherent := allocation.coherent who
  exact allocation.still (still_of_handles coherent (coherent.pool.release id) rfl)

/-- The catalog root and the next transaction id are no page's place. -/
theorem Allocation.header
    (allocation : cluster.Allocation content)
    {metadata : Meta}
    (pageCount : metadata.pageCount = cluster.shared.metadata.pageCount)
    (freelistHead : metadata.freelistHead = cluster.shared.metadata.freelistHead) :
    (cluster.set who { cluster.view who with metadata := metadata }
      (cluster.ledgers who)).Allocation content := by
  have coherent := allocation.coherent who
  apply allocation.kept
  · exact coherent.setHeader metadata (cluster.view who).pendingFreelist
  · exact update_spilled.symm ▸ allocation.stored
  · have known : Known metadata = Known cluster.shared.metadata := by
      funext no
      rw [Known, Known, pageCount]
    have divided := allocation.divided
    rw [← known] at divided
    exact update_pending.symm ▸ divided
  · rfl
  · rfl
  · rfl
  · exact freelistHead
  · exact fun zero => allocation.count (pageCount.symm.trans zero)

theorem Allocation.latest_stage
    (allocation : cluster.Allocation content)
    {page : Page}
    {pages : Finset UInt32}
    (foreign : ∀ other, other ≠ who → no ∉ cluster.inUse other)
    (fewer : ∀ {number}, number ≠ no → number ∈ pages → number ∈ cluster.inUse who)
    {other : Nat}
    {number : UInt32}
    {image : Page}
    (used : number ∈ Function.update cluster.inUse who pages other)
    (known :
      Function.update cluster.staged who ((cluster.ledgers who).stage no page).staged other
          number =
        some image) :
    Function.update content no page number = image := by
  by_cases own : other = who
  · subst own
    rw [Function.update_self] at used known
    by_cases same : number = no
    · subst same
      have staged :
          ((cluster.ledgers other).stage number page).staged number = some page :=
        Function.update_self _ _ _
      rw [Function.update_self]
      exact Option.some.inj (staged.symm.trans known)
    · have staged :
          ((cluster.ledgers other).stage no page).staged number =
            cluster.staged other number :=
        Function.update_of_ne same _ _
      rw [Function.update_of_ne same]
      exact allocation.latest (fewer same used) (staged.symm.trans known)
  · rw [Function.update_of_ne own] at used known
    have different : number ≠ no := by
      rintro rfl
      exact foreign other own used
    rw [Function.update_of_ne different]
    exact allocation.latest used known

theorem Allocation.dirty_stage
    (allocation : cluster.Allocation content)
    {page : Page}
    {number : UInt32} :
    number ∈ insert no (cluster.written who) ↔
      ((cluster.ledgers who).stage no page).staged number ≠ none := by
  by_cases same : number = no
  · subst same
    have staged : ((cluster.ledgers who).stage number page).staged number = some page :=
      Function.update_self _ _ _
    rw [staged]
    exact iff_of_true (Finset.mem_insert_self _ _) (Option.some_ne_none _)
  · have staged :
        ((cluster.ledgers who).stage no page).staged number = cluster.staged who number :=
      Function.update_of_ne same _ _
    rw [staged, Finset.mem_insert, or_iff_right same]
    exact allocation.dirty

/-- Staging moves no page of a last commit and no image in the file. -/
theorem Allocation.base_stage
    (allocation : cluster.Allocation content)
    {known : Ledger}
    (committed : known.committed = cluster.committed who)
    (base : known.base = (cluster.ledgers who).base)
    {other : Nat}
    {number : UInt32}
    (member : number ∈ Function.update cluster.committed who known.committed other) :
    cluster.shared.file.pages number =
      (Function.update cluster.ledgers who known other).base number := by
  by_cases own : other = who
  · subst own
    rw [Function.update_self] at member ⊢
    rw [base]
    rw [committed] at member
    exact allocation.base member
  · rw [Function.update_of_ne own] at member ⊢
    exact allocation.base member

theorem Allocation.writePage
    (allocation : cluster.Allocation content)
    {page : Page}
    (careful : cluster.Careful (who, .writePage no page))
    (taken : cluster.step (who, .writePage no page) = some next) :
    ∃ contentNext, next.Allocation contentNext := by
  have coherent := allocation.coherent who
  rcases PagerState.writePage_spec coherent no page with
    ⟨after, result, stages⟩ | ⟨message, after, result, _, still⟩
  · simp only [step, result, Option.some.injEq] at taken
    subst taken
    have owned : no ∈ cluster.inUse who := careful.owns no rfl
    have evicts :
        ∀ victim,
          cluster.shared.pool.resident victim ≠ none → after.pool.resident victim = none →
            (∀ other, other ≠ who → victim ∉ cluster.written other) ∧
              (victim ∈ cluster.written who →
                ∃ image, cluster.shared.pool.resident victim = some (image, true)) := by
      intro victim present gone
      apply careful.evicts no rfl victim
      apply PagerState.writePage_displaces coherent present
      rw [result]
      exact gone
    have stored := allocation.stored.stage stages.moves evicts
    have divided := allocation.divided.write owned
    refine ⟨Function.update content no page, ?_⟩
    change (cluster.moved who after ((cluster.ledgers who).stage no page)
      cluster.freeList).Allocation _
    apply allocation.move stages.coherent
    · rw [stages.dirtyPages, stages.file]
      exact stored
    · rw [stages.dirtyPages, stages.metadata, stages.pendingFreelist, stages.allocatedPages,
        update_pending, update_allocated]
      exact update_inUse.symm ▸ update_committed.symm ▸ divided
    · rw [stages.metadata]
      exact allocation.linked.congr fun number member =>
        Function.update_of_ne (fun same => allocation.divided.free_used member (same ▸ owned)) _ _
    · rw [stages.metadata]
      exact allocation.count
    · exact fun used known => allocation.latest_stage
        (fun other foreign listed => allocation.divided.used_apart foreign listed owned)
        (fun _ member => member) used known
    · rw [stages.dirtyPages]
      exact allocation.dirty_stage
    · rw [stages.file]
      intro other number member
      apply allocation.base_stage ?_ ?_ member
      · rfl
      · rfl
  · simp only [step, result, Option.some.injEq] at taken
    subst taken
    exact ⟨content, allocation.still still⟩

theorem Allocation.freePage
    (allocation : cluster.Allocation content)
    (careful : cluster.Careful (who, .freePage no))
    (taken : cluster.step (who, .freePage no) = some next) :
    ∃ contentNext, next.Allocation contentNext := by
  have coherent := allocation.coherent who
  rcases PagerState.freePage_spec coherent no with
    ⟨after, result, stages⟩ | ⟨error, after, result, still⟩
  · simp only [step, result, Option.some.injEq] at taken
    subst taken
    have owned : no ∈ cluster.inUse who := careful.owns no rfl
    have evicts :
        ∀ victim,
          cluster.shared.pool.resident victim ≠ none → after.pool.resident victim = none →
            (∀ other, other ≠ who → victim ∉ cluster.written other) ∧
              (victim ∈ cluster.written who →
                ∃ image, cluster.shared.pool.resident victim = some (image, true)) := by
      intro victim present gone
      apply careful.evicts no rfl victim
      apply PagerState.freePage_displaces coherent present
      rw [result]
      exact gone
    have stored := allocation.stored.stage stages.moves evicts
    have divided := allocation.divided.release owned
    refine ⟨Function.update content no (linkPage cluster.shared.metadata.freelistHead), ?_⟩
    -- The head moves at once, and the page's image links the rest of the list.
    generalize header : { after.metadata with freelistHead := no } = headed
    have head : headed.freelistHead = no := by
      rw [← header]
    have count : headed.pageCount = cluster.shared.metadata.pageCount := by
      rw [← header]
      change after.metadata.pageCount = _
      rw [stages.metadata]
      rfl
    have known : Known headed = Known cluster.shared.metadata := by
      funext number
      rw [Known, Known, count]
    change (cluster.moved who { after with metadata := headed }
      (((cluster.ledgers who).stage no
        (linkPage cluster.shared.metadata.freelistHead)).release no)
      ((no, cluster.shared.metadata.freelistHead) :: cluster.freeList)).Allocation _
    apply allocation.move (stages.coherent.setHeader headed after.pendingFreelist)
    · change Stored (Function.update cluster.written who after.dirtyPages) _ _ after.file.pages _
      rw [stages.dirtyPages, stages.file]
      exact stored
    · change PageDivision.Divided (no :: cluster.free)
        (Function.update cluster.pending who after.pendingFreelist)
        (Function.update cluster.inUse who ((cluster.inUse who).erase no))
        (Function.update cluster.committed who (cluster.ledgers who).committed)
        (Function.update cluster.allocated who after.allocatedPages)
        (Function.update cluster.written who after.dirtyPages) (Known headed)
      rw [stages.dirtyPages, stages.pendingFreelist, stages.allocatedPages, update_pending,
        update_allocated, update_committed, known]
      exact divided
    · refine ⟨head, (allocation.divided.known_used owned).1, ?_, ?_⟩
      · rw [Function.update_self, nextPointer_linkPage]
      · exact allocation.linked.congr fun number member =>
          Function.update_of_ne
            (fun same => allocation.divided.free_used member (same ▸ owned)) _ _
    · exact fun zero => allocation.count (count.symm.trans zero)
    · exact fun used known => allocation.latest_stage
        (fun other foreign listed => allocation.divided.used_apart foreign listed owned)
        (fun _ member => Finset.mem_of_mem_erase member) used known
    · intro number
      change number ∈ after.dirtyPages ↔ _
      rw [stages.dirtyPages]
      exact allocation.dirty_stage
    · intro other number member
      change after.file.pages number = _
      rw [stages.file]
      apply allocation.base_stage ?_ ?_ member
      · rfl
      · rfl
  · simp only [step, result, Option.some.injEq] at taken
    subst taken
    exact ⟨content, allocation.still still⟩

theorem evicted_stays
    {ready after : PagerState}
    (obtained : PagerState.Obtained (cluster.view who) no ready)
    (stages : PagerState.Staged ready no zeroPage after)
    {victim : UInt32}
    (present : cluster.shared.pool.resident victim ≠ none)
    (gone : ready.pool.resident victim = none) :
    after.pool.resident victim = none := by
  cases obtained with
  | pending listed same =>
      subst same
      exact absurd gone present
  | bumped exhausted empty count header same =>
      subst same
      exact absurd gone present
  | popped exhausted head nonzero cachedOrSpilled fetched header same =>
      subst same
      have cached := fetched.resident
      have different : victim ≠ no := by
        rintro rfl
        exact cached gone
      rcases stages.moves.elsewhere different with ⟨kept, _⟩ | ⟨left, _⟩ | ⟨_, left, _⟩
      · exact kept.trans gone
      · exact left
      · exact left

theorem evicted_staging
    {ready after : PagerState}
    (obtained : PagerState.Obtained (cluster.view who) no ready)
    (stages : PagerState.Staged ready no zeroPage after)
    {victim : UInt32}
    (present : ready.pool.resident victim ≠ none)
    (gone : after.pool.resident victim = none) :
    ready.pool = cluster.shared.pool := by
  cases obtained with
  | pending listed same => exact same ▸ rfl
  | bumped exhausted empty count header same =>
      subst same
      exact PagerState.setMetadata_pool _ _
  | popped exhausted head nonzero cachedOrSpilled fetched header same =>
      subst same
      exact absurd (stages.moves.absent_of_evicted present gone) fetched.resident

theorem listAfterAlloc_kept
    (unpopped :
      (cluster.pagers who).pendingFreelist ≠ [] ∨
        cluster.shared.metadata.freelistHead = 0) :
    cluster.listAfterAlloc who = cluster.freeList := by
  apply if_neg
  rintro ⟨exhausted, nonzero⟩
  exact unpopped.elim (fun listed => listed exhausted) nonzero

/-- The page obtained is nobody's, whatever it was before. -/
structure Obtains (cluster : Cluster) (content : UInt32 → Page) (no : UInt32) : Prop where
  allocation : cluster.Allocation content
  notFree : no ∉ cluster.free
  notPending : ∀ who, no ∉ cluster.pending who
  unused : ∀ who, no ∉ cluster.inUse who
  known : Known cluster.shared.metadata no

theorem Allocation.obtain_pending
    (allocation : cluster.Allocation content)
    {rest : List UInt32}
    (listed : (cluster.pagers who).pendingFreelist = rest ++ [no]) :
    Obtains
      (cluster.moved who { cluster.view who with pendingFreelist := rest }
        (cluster.ledgers who) cluster.freeList)
      content no := by
  have coherent := allocation.coherent who
  have member : no ∈ cluster.pending who := by
    rw [pending, listed]
    exact List.mem_append_right _ (List.mem_singleton_self no)
  have distinct : (rest ++ [no]).Nodup := by
    rw [← listed]
    exact allocation.divided.pending_nodup
  have fewer :
      ∀ other,
        (Function.update cluster.pending who rest other).Sublist (cluster.pending other) := by
    intro other
    by_cases own : other = who
    · subst own
      rw [Function.update_self, pending, listed]
      exact List.sublist_append_left rest [no]
    · rw [Function.update_of_ne own]
  have divided := allocation.divided.shrink (List.Sublist.refl _) fewer fun known => known
  refine ⟨?_, ?_, ?_, ?_, ?_⟩
  · apply allocation.kept (coherent.setHeader (cluster.view who).metadata rest)
    · exact update_spilled.symm ▸ allocation.stored
    · exact divided
    · rfl
    · rfl
    · rfl
    · rfl
    · exact allocation.count
  · exact fun free => allocation.divided.free_pending free member
  · intro other again
    rw [moved_pending] at again
    by_cases own : other = who
    · rw [own, Function.update_self] at again
      exact List.disjoint_of_nodup_append distinct again (List.mem_singleton_self no)
    · rw [Function.update_of_ne own] at again
      exact allocation.divided.pending_apart own again member
  · intro other used
    rw [moved_inUse, update_inUse] at used
    exact allocation.divided.pending_used member used
  · exact allocation.divided.known_pending member

theorem Allocation.obtain_bumped
    (allocation : cluster.Allocation content)
    {metadata : Meta}
    (count : cluster.shared.metadata.pageCount = no)
    (pageCount : metadata.pageCount = no + 1)
    (freelistHead : metadata.freelistHead = cluster.shared.metadata.freelistHead)
    (room : no + 1 ≠ 0) :
    Obtains
      (cluster.moved who { cluster.view who with metadata := metadata }
        (cluster.ledgers who) cluster.freeList)
      content no := by
  have coherent := allocation.coherent who
  have grows : no < metadata.pageCount := by
    rw [pageCount, UInt32.lt_iff_toNat_lt, UInt32.toNat_add]
    have bound : (no + 1).toNat ≠ 0 := fun zero => room (UInt32.toNat_inj.mp zero)
    rw [UInt32.toNat_add] at bound
    have := no.toNat_lt
    have one : (1 : UInt32).toNat = 1 := rfl
    omega
  have more : ∀ {other}, Known cluster.shared.metadata other → Known metadata other := by
    rintro other ⟨nonzero, below⟩
    exact ⟨nonzero, UInt32.lt_trans (count ▸ below) grows⟩
  have new : ¬ Known cluster.shared.metadata no := by
    rintro ⟨_, below⟩
    rw [count] at below
    exact UInt32.lt_irrefl no below
  have divided :=
    allocation.divided.shrink (List.Sublist.refl _) (fun _ => List.Sublist.refl _) more
  refine ⟨?_, ?_, ?_, ?_, ?_⟩
  · apply allocation.kept (coherent.setHeader metadata (cluster.view who).pendingFreelist)
    · exact update_spilled.symm ▸ allocation.stored
    · exact update_pending.symm ▸ divided
    · rfl
    · rfl
    · rfl
    · exact freelistHead
    · exact fun zero => room (pageCount.symm.trans zero)
  · exact fun free => new (allocation.divided.known_free free)
  · intro other listed
    rw [moved_pending, update_pending] at listed
    exact new (allocation.divided.known_pending listed)
  · intro other used
    rw [moved_inUse, update_inUse] at used
    exact new (allocation.divided.known_used used)
  · exact ⟨fun zero => allocation.count (count.trans zero), grows⟩

theorem Allocation.obtain_popped
    (allocation : cluster.Allocation content)
    {image : Page}
    {read : PagerState}
    {metadata : Meta}
    (head : cluster.shared.metadata.freelistHead = no)
    (nonzero : no ≠ 0)
    (cachedOrSpilled :
      cluster.shared.pool.resident no ≠ none ∨ (cluster.view who).spilled no ≠ none)
    (fetched : PagerState.Fetched (cluster.view who) no image read)
    (pageCount : metadata.pageCount = cluster.shared.metadata.pageCount)
    (freelistHead : metadata.freelistHead = nextPointer image)
    (evicts :
      ∀ victim,
        cluster.shared.pool.resident victim ≠ none → read.pool.resident victim = none →
          (∀ other, other ≠ who → victim ∉ cluster.written other) ∧
            (victim ∈ cluster.written who →
              ∃ image, cluster.shared.pool.resident victim = some (image, true))) :
    Obtains
      (cluster.moved who { read with metadata := metadata } (cluster.ledgers who)
        cluster.freeList.tail)
      content no := by
  have rereads :
      no ≠ 0 → cluster.shared.pool.resident no = none →
        (cluster.view who).spilled no = none → ∀ other, no ∉ cluster.written other :=
    fun _ absent notInLog => absurd notInLog (cachedOrSpilled.resolve_left (not_not_intro absent))
  obtain ⟨stored, same⟩ := allocation.stored.fetch rfl fetched evicts rereads
  obtain ⟨after, keeps⟩ := fetched_keeps fetched
  have linked := allocation.linked
  have divided := allocation.divided
  cases listed : cluster.freeList with
  | nil =>
      rw [listed, head] at linked
      exact absurd linked nonzero
  | cons entry rest =>
      obtain ⟨first, link⟩ := entry
      rw [listed, head] at linked
      obtain ⟨rfl, _, image, later⟩ := linked
      have pages : cluster.free = no :: rest.map Prod.fst := by
        rw [free, listed, List.map_cons]
      rw [pages] at divided
      have member : no ∈ no :: rest.map Prod.fst := List.mem_cons_self
      have notFree := (List.nodup_cons.mp divided.free_nodup).1
      have known : ∀ {other}, Known cluster.shared.metadata other → Known metadata other := by
        rintro other ⟨notHeader, below⟩
        exact ⟨notHeader, pageCount.symm ▸ below⟩
      have fewer :=
        divided.shrink (List.sublist_cons_self no _) (fun _ => List.Sublist.refl _) known
      refine ⟨?_, notFree, ?_, ?_, known (divided.known_free member)⟩
      · apply allocation.move (after.setHeader metadata read.pendingFreelist)
        · change Stored (Function.update cluster.written who read.dirtyPages) _ _ _ content
          rw [keeps.dirtyPages, update_written]
          exact stored
        · change PageDivision.Divided (rest.map Prod.fst)
            (Function.update cluster.pending who read.pendingFreelist)
            (Function.update cluster.inUse who (cluster.ledgers who).inUse)
            (Function.update cluster.committed who (cluster.ledgers who).committed)
            (Function.update cluster.allocated who read.allocatedPages)
            (Function.update cluster.written who read.dirtyPages) (Known metadata)
          rw [keeps.dirtyPages, keeps.allocatedPages, keeps.pendingFreelist, update_written,
            update_allocated, update_pending, update_inUse, update_committed]
          exact fewer
        · change Linked content metadata.freelistHead rest
          rw [freelistHead, same nonzero, image]
          exact later
        · exact fun zero => allocation.count (pageCount.symm.trans zero)
        · rw [update_inUse, update_staged]
          exact fun used known => allocation.latest used known
        · intro number
          change number ∈ read.dirtyPages ↔ _
          rw [keeps.dirtyPages]
          exact allocation.dirty
        · intro other number listed
          change read.file.pages number = _
          rw [update_committed] at listed
          rw [keeps.file, Function.update_eq_self]
          exact allocation.base listed
      · intro other listed
        have samePending :
            Function.update cluster.pending who read.pendingFreelist other =
              cluster.pending other := by
          rw [keeps.pendingFreelist, update_pending]
        rw [moved_pending] at listed
        exact divided.free_pending member (samePending ▸ listed)
      · intro other used
        rw [moved_inUse, update_inUse] at used
        exact divided.free_used member used

/-- How `alloc_page` comes by a page that is nobody's. -/
theorem Allocation.obtain
    (allocation : cluster.Allocation content)
    {ready : PagerState}
    (obtained : PagerState.Obtained (cluster.view who) no ready)
    (room :
      (cluster.pagers who).pendingFreelist = [] →
        cluster.shared.metadata.freelistHead = 0 → cluster.shared.metadata.pageCount + 1 ≠ 0)
    (evicts :
      ∀ victim,
        cluster.shared.pool.resident victim ≠ none → ready.pool.resident victim = none →
          (∀ other, other ≠ who → victim ∉ cluster.written other) ∧
            (victim ∈ cluster.written who →
              ∃ image, cluster.shared.pool.resident victim = some (image, true))) :
    Obtains
      (cluster.moved who ready (cluster.ledgers who) (cluster.listAfterAlloc who)) content
      no := by
  cases obtained with
  | pending listed same =>
      subst same
      have nonempty : (cluster.pagers who).pendingFreelist ≠ [] :=
        listed ▸ List.append_ne_nil_of_right_ne_nil _ (List.cons_ne_nil _ _)
      rw [listAfterAlloc_kept (.inl nonempty)]
      exact allocation.obtain_pending listed
  | @bumped metadata exhausted empty count header same =>
      subst same
      rw [listAfterAlloc_kept (.inr empty)]
      have room : no + 1 ≠ 0 := count ▸ room exhausted empty
      have pageCount : metadata.pageCount = no + 1 := by
        rw [header]
      have freelistHead :
          metadata.freelistHead = cluster.shared.metadata.freelistHead := by
        rw [header]
        rfl
      exact allocation.obtain_bumped count pageCount freelistHead room
  | @popped image read metadata exhausted head nonzero cachedOrSpilled fetched header same =>
      subst same
      have nonempty : cluster.shared.metadata.freelistHead ≠ 0 :=
        fun empty => nonzero (head.symm.trans empty)
      have popped : cluster.listAfterAlloc who = cluster.freeList.tail :=
        if_pos ⟨exhausted, nonempty⟩
      have pageCount : metadata.pageCount = cluster.shared.metadata.pageCount := by
        rw [header]
        change read.metadata.pageCount = _
        rw [(fetched_keeps fetched).2.metadata]
        rfl
      have freelistHead : metadata.freelistHead = nextPointer image := by
        rw [header]
      rw [popped]
      exact allocation.obtain_popped head nonzero cachedOrSpilled fetched pageCount
        freelistHead evicts

/-- Staging a page that was nobody's as zeros. -/
theorem Obtains.take
    (obtains : Obtains cluster content no)
    (stages : PagerState.Staged (cluster.view who) no zeroPage state)
    (evicts :
      ∀ victim,
        cluster.shared.pool.resident victim ≠ none → state.pool.resident victim = none →
          (∀ other, other ≠ who → victim ∉ cluster.written other) ∧
            (victim ∈ cluster.written who →
              ∃ image, cluster.shared.pool.resident victim = some (image, true))) :
    (cluster.moved who { state with allocatedPages := insert no state.allocatedPages }
      (((cluster.ledgers who).stage no zeroPage).take no) cluster.freeList).Allocation
      (Function.update content no zeroPage) := by
  have allocation := obtains.allocation
  have stored := allocation.stored.stage stages.moves evicts
  apply allocation.move
  · exact ⟨stages.coherent.pool, stages.coherent.pager.wal, stages.coherent.pager.indexed,
      stages.coherent.pager.unindexed⟩
  · change Stored (Function.update cluster.written who state.dirtyPages) _ _ state.file.pages _
    rw [stages.dirtyPages, stages.file]
    exact stored
  · change PageDivision.Divided cluster.free
      (Function.update cluster.pending who state.pendingFreelist)
      (Function.update cluster.inUse who (insert no (cluster.inUse who)))
      (Function.update cluster.committed who (cluster.ledgers who).committed)
      (Function.update cluster.allocated who (insert no state.allocatedPages))
      (Function.update cluster.written who state.dirtyPages) (Known state.metadata)
    rw [stages.dirtyPages, stages.pendingFreelist, stages.allocatedPages, stages.metadata,
      update_pending, update_committed]
    exact allocation.divided.take obtains.notFree obtains.notPending obtains.unused
      obtains.known
  · change Linked _ state.metadata.freelistHead cluster.freeList
    rw [stages.metadata]
    apply allocation.linked.congr
    intro number member
    apply Function.update_of_ne
    rintro rfl
    exact obtains.notFree member
  · change state.metadata.pageCount ≠ 0
    rw [stages.metadata]
    exact allocation.count
  · intro other number image used known
    refine allocation.latest_stage (fun user _ => obtains.unused user) ?_ used known
    intro page different member
    exact (Finset.mem_insert.mp member).resolve_left different
  · intro number
    change number ∈ state.dirtyPages ↔ _
    rw [stages.dirtyPages]
    exact allocation.dirty_stage
  · intro other number member
    change state.file.pages number = _
    rw [stages.file]
    apply allocation.base_stage ?_ ?_ member
    · rfl
    · rfl

theorem moved_moved
    {ready : PagerState}
    {known : Ledger}
    {list : List (UInt32 × UInt32)} :
    (cluster.moved who ready known list).moved who state ledger freeList =
      cluster.moved who state ledger freeList := by
  simp only [moved, set, Function.update_idem]

theorem view_moved : (cluster.moved who state ledger freeList).view who = state :=
  view_set_self cluster who state ledger

/-- Coming by a page writes none. -/
theorem obtained_written
    {ready : PagerState}
    (obtained : PagerState.Obtained (cluster.view who) no ready) :
    (cluster.moved who ready ledger freeList).written = cluster.written := by
  have same : ready.dirtyPages = (cluster.view who).dirtyPages := by
    cases obtained with
    | pending listed same => exact same ▸ rfl
    | bumped exhausted empty count header same => exact same ▸ rfl
    | popped exhausted head nonzero cachedOrSpilled fetched header same =>
        exact same ▸ (fetched_keeps fetched).2.dirtyPages
  rw [moved_written, same, update_written]

theorem Allocation.allocPage
    (allocation : cluster.Allocation content)
    (careful : cluster.Careful (who, .allocPage))
    (taken : cluster.step (who, .allocPage) = some next) :
    ∃ contentNext, next.Allocation contentNext := by
  have coherent := allocation.coherent who
  have evicts :
      ∀ {answer after},
        (cluster.view who).allocPage = some (answer, after) →
          ∀ victim,
            cluster.shared.pool.resident victim ≠ none → after.pool.resident victim = none →
              (∀ other, other ≠ who → victim ∉ cluster.written other) ∧
                (victim ∈ cluster.written who →
                  ∃ image, cluster.shared.pool.resident victim = some (image, true)) := by
    intro answer after result victim present gone
    apply careful.evicts (cluster.view who).nextPage
    · rw [admits_nextPage]
      rfl
    · exact PagerState.allocPage_displaces coherent result present gone
  have room := careful.room rfl
  rcases PagerState.allocPage_spec coherent with
    ⟨no, after, result, ⟨ready, staged, obtained, stages, rfl⟩⟩ |
      ⟨error, after, result, failed⟩ | ⟨result, _⟩
  · simp only [step, result, Option.some.injEq] at taken
    subst taken
    have obtains := allocation.obtain obtained room fun victim present gone =>
      evicts result victim present (evicted_stays obtained stages present gone)
    have staging :
        PagerState.Staged
          ((cluster.moved who ready (cluster.ledgers who)
            (cluster.listAfterAlloc who)).view who)
          no zeroPage staged := by
      rw [view_moved]
      exact stages
    have taking := obtains.take staging fun victim present gone => by
      have pool := evicted_staging obtained stages present gone
      have present : ready.pool.resident victim ≠ none := present
      rw [pool] at present
      rw [obtained_written obtained]
      change _ ∧ (_ → ∃ image, ready.pool.resident victim = some (image, true))
      rw [pool]
      exact evicts result victim present gone
    rw [moved_moved] at taking
    have sameLedger :
        (cluster.moved who ready (cluster.ledgers who)
          (cluster.listAfterAlloc who)).ledgers who = cluster.ledgers who :=
      Function.update_self _ _ _
    rw [sameLedger] at taking
    exact ⟨_, taking⟩
  · simp only [step, result, Option.some.injEq] at taken
    subst taken
    refine ⟨content, ?_⟩
    cases failed with
    | unread still => exact allocation.still still
    | @unstaged no ready obtained notPopped still =>
        have obtains := allocation.obtain obtained room fun victim present gone =>
          evicts result victim present ((congrFun still.resident victim).trans gone)
        have failing :
            PagerState.Still
              ((cluster.moved who ready (cluster.ledgers who)
                (cluster.listAfterAlloc who)).view who)
              after := by
          rw [view_moved]
          exact still
        have unchanged := obtains.allocation.still failing
        have list := listAfterAlloc_kept notPopped
        have sameLedger :
            (cluster.moved who ready (cluster.ledgers who)
              (cluster.listAfterAlloc who)).ledgers who = cluster.ledgers who :=
          Function.update_self _ _ _
        rw [sameLedger] at unchanged
        change ((cluster.moved who ready (cluster.ledgers who)
          (cluster.listAfterAlloc who)).moved who after (cluster.ledgers who)
            (cluster.listAfterAlloc who)).Allocation content at unchanged
        rw [moved_moved, list] at unchanged
        exact unchanged
  · simp only [step, result, reduceCtorEq] at taken

/-! ### Commit and rollback -/

section Commit

variable {order : List UInt32}

/-- A page a pager wrote is cached or in its own log, with its latest image. -/
theorem Allocation.written_found
    (allocation : cluster.Allocation content)
    (nonzero : no ≠ 0)
    (member : no ∈ cluster.written who) :
    (∃ dirty, cluster.shared.pool.resident no = some (content no, dirty)) ∨
      (cluster.shared.pool.resident no = none ∧
        cluster.spilled who no = some (content no)) := by
  rcases allocation.stored.held nonzero with
    cached | ⟨absent, ⟨writer, _, alone, inLog⟩ | nobody⟩
  · exact .inl cached
  · have same : who = writer := by
      by_contra different
      exact alone who different member
    exact .inr ⟨absent, same ▸ inLog⟩
  · exact absurd member (nobody who)

/-- What a careful commit writes. -/
theorem Allocation.committed_page
    (allocation : cluster.Allocation content)
    (careful : cluster.Careful (who, .commit order))
    (enumerates : PagerState.Enumerates order ((cluster.pagers who).dirtyPages.erase 0))
    (committed : PagerState.Committed (cluster.view who) order state)
    (nonzero : no ≠ 0) :
    state.file.pages no =
      if no ∈ cluster.written who then content no else cluster.shared.file.pages no := by
  have page := committed.page (allocation.coherent who) no
  rw [if_neg nonzero] at page
  rw [page]
  have listed : no ∈ order ↔ no ∈ cluster.written who := by
    rw [enumerates.mem_iff, Finset.mem_erase]
    exact and_iff_right nonzero
  cases inLog : (cluster.view who).spilled no with
  | some image =>
      have inLog : cluster.spilled who no = some image := inLog
      have own := allocation.stored.owned nonzero (inLog ▸ Option.some_ne_none image)
      rw [if_pos own]
      rcases allocation.written_found nonzero own with ⟨dirty, cached⟩ | ⟨_, last⟩
      · exact careful.logged order rfl no image (content no) dirty own inLog cached
      · rw [inLog] at last
        exact Option.some.inj last
  | none =>
      have notInLog : cluster.spilled who no = none := inLog
      dsimp only
      by_cases own : no ∈ cluster.written who
      · rw [if_pos (listed.mpr own), if_pos own]
        rcases allocation.written_found nonzero own with ⟨dirty, cached⟩ | ⟨_, last⟩
        · have cached :
              (cluster.view who).pool.resident no = some (content no, dirty) :=
            cached
          rw [cached]
        · rw [notInLog] at last
          cases last
      · rw [if_neg fun member => own (listed.mp member), if_neg own]
        rfl

/-- A page of a peer's last commit keeps its image in the file. -/
theorem Allocation.committed_foreign
    (allocation : cluster.Allocation content)
    (careful : cluster.Careful (who, .commit order))
    {other : Nat}
    (foreign : other ≠ who)
    (member : no ∈ cluster.committed other) :
    no ∉ cluster.written who := by
  intro wrote
  have divided := allocation.divided
  have new := divided.taken member foreign.symm (.inl wrote)
  exact careful.settled order rfl no new other foreign
    (divided.written_of_committed member foreign.symm (.inl wrote))

/-- The images of the pages in use, once they are committed. -/
theorem Allocation.base_commit
    (allocation : cluster.Allocation content)
    (used : no ∈ cluster.inUse who)
    (unwritten : no ∉ cluster.written who) :
    ((cluster.ledgers who).staged no).getD ((cluster.ledgers who).base no) =
      cluster.shared.file.pages no := by
  have unstaged : (cluster.ledgers who).staged no = none := by
    by_contra staged
    exact unwritten (allocation.dirty.mpr staged)
  have old : no ∉ cluster.allocated who := fun new =>
    unwritten (allocation.divided.allocated_written new)
  rw [unstaged]
  exact (allocation.base (allocation.divided.kept used old).1).symm

theorem Allocation.latest_commit
    (allocation : cluster.Allocation content)
    {other : Nat}
    {image : Page}
    (used : no ∈ Function.update cluster.inUse who (cluster.inUse who) other)
    (known :
      Function.update cluster.staged who (cluster.ledgers who).commit.staged other no =
        some image) :
    content no = image := by
  rw [Function.update_eq_self] at used
  by_cases own : other = who
  · subst own
    rw [Function.update_self] at known
    cases known
  · rw [Function.update_of_ne own] at known
    exact allocation.latest used known

theorem Allocation.commit
    (allocation : cluster.Allocation content)
    (careful : cluster.Careful (who, .commit order))
    (taken : cluster.step (who, .commit order) = some next) :
    next.Allocation content := by
  have coherent := allocation.coherent who
  have divided := allocation.divided
  have settled :
      ∀ {other page},
        other ≠ who → page ∈ cluster.allocated who → page ∉ cluster.written other :=
    fun foreign member => careful.settled order rfl _ member _ foreign
  have after := divided.commit settled
  simp only [step] at taken
  split at taken
  case isFalse => cases taken
  case isTrue enumerates =>
    rcases PagerState.commit_spec coherent order with
      ⟨clean, unlogged, result⟩ | ⟨state, result, committed⟩ |
        ⟨error, state, no, result, file, listed, unspilled, absent⟩
    · simp only [result, Option.some.injEq] at taken
      subst taken
      have clean : cluster.written who = ∅ := clean
      have none : cluster.allocated who = ∅ := by
        apply Finset.eq_empty_of_forall_notMem
        intro page new
        have wrote := divided.allocated_written new
        rw [clean] at wrote
        exact Finset.notMem_empty page wrote
      change (cluster.moved who (cluster.view who) (cluster.ledgers who).commit
        cluster.freeList).Allocation content
      apply allocation.move coherent
      · rw [update_written, update_spilled]
        exact allocation.stored
      · have written : (cluster.view who).dirtyPages = ∅ := clean
        have allocated : (cluster.view who).allocatedPages = ∅ := none
        rw [written, allocated, update_pending]
        exact update_inUse.symm ▸ after
      · exact allocation.linked
      · exact allocation.count
      · exact fun used known => allocation.latest_commit used known
      · intro number
        have written : (cluster.view who).dirtyPages = ∅ := clean
        rw [written]
        exact iff_of_false (Finset.notMem_empty number) fun staged => staged rfl
      · intro other number member
        by_cases own : other = who
        · subst own
          rw [Function.update_self] at member ⊢
          have unwritten : number ∉ cluster.written other := clean ▸ Finset.notMem_empty number
          exact (allocation.base_commit member unwritten).symm
        · rw [Function.update_of_ne own] at member ⊢
          exact allocation.base member
    · simp only [result, Option.some.injEq] at taken
      subst taken
      have lists : ∀ {number}, number ∈ order ↔ number ≠ 0 ∧ number ∈ cluster.written who := by
        intro number
        rw [enumerates.mem_iff, Finset.mem_erase]
        rfl
      change (cluster.moved who state (cluster.ledgers who).commit
        cluster.freeList).Allocation content
      apply allocation.move committed.coherent
      · rw [committed.dirtyPages, committed.spilled, committed.resident]
        apply allocation.stored.commit lists
        · intro number nonzero wrote
          rw [allocation.committed_page careful enumerates committed nonzero, if_pos wrote]
        · intro number nonzero unwritten
          rw [allocation.committed_page careful enumerates committed nonzero,
            if_neg unwritten]
      · rw [committed.dirtyPages, committed.allocatedPages, committed.pendingFreelist,
          committed.metadata, update_pending]
        exact update_inUse.symm ▸ after
      · rw [committed.metadata]
        exact allocation.linked
      · rw [committed.metadata]
        exact allocation.count
      · exact fun used known => allocation.latest_commit used known
      · intro number
        rw [committed.dirtyPages]
        exact iff_of_false (Finset.notMem_empty number) fun staged => staged rfl
      · intro other number member
        by_cases own : other = who
        · subst own
          rw [Function.update_self] at member ⊢
          have member : number ∈ cluster.inUse other := member
          have nonzero := (divided.known_used member).1
          rw [allocation.committed_page careful enumerates committed nonzero]
          split
          · next wrote =>
              have staged := allocation.dirty.mp wrote
              obtain ⟨image, known⟩ := Option.ne_none_iff_exists'.mp staged
              have base : (cluster.ledgers other).commit.base number = image := by
                have known : (cluster.ledgers other).staged number = some image := known
                simp only [Ledger.commit, known, Option.getD_some]
              rw [base]
              exact allocation.latest member known
          · next unwritten => exact (allocation.base_commit member unwritten).symm
        · rw [Function.update_of_ne own] at member ⊢
          have nonzero := (divided.known_committed member).1
          rw [allocation.committed_page careful enumerates committed nonzero,
            if_neg (allocation.committed_foreign careful own member)]
          exact allocation.base member
    · have member := Finset.mem_erase.mp (enumerates.mem_iff.mp listed)
      have unspilled : cluster.spilled who no = none := unspilled
      have absent : cluster.shared.pool.resident no = none := absent
      rcases allocation.written_found member.1 member.2 with ⟨dirty, cached⟩ | ⟨_, inLog⟩
      · rw [absent] at cached
        cases cached
      · rw [unspilled] at inLog
        cases inLog

end Commit

theorem Allocation.rollback
    (allocation : cluster.Allocation content)
    {dropOrder drainOrder : List UInt32}
    (careful : cluster.Careful (who, .rollback dropOrder drainOrder))
    (taken : cluster.step (who, .rollback dropOrder drainOrder) = some next) :
    ∃ contentNext, next.Allocation contentNext := by
  have coherent := allocation.coherent who
  obtain ⟨dropped, created⟩ := careful.undone dropOrder drainOrder rfl
  simp only [step] at taken
  split at taken
  case isFalse => cases taken
  case isTrue enumerates =>
    obtain rfl := Option.some.inj taken
    obtain ⟨drops, drains⟩ := enumerates
    obtain ⟨after, resident, spilled⟩ :=
      PagerState.rollback_spec coherent dropOrder drainOrder
    refine ⟨fun number =>
      if number ∈ cluster.written who then cluster.shared.file.pages number
      else content number, ?_⟩
    change (cluster.moved who ((cluster.view who).rollback dropOrder drainOrder)
      (cluster.ledgers who).rollback cluster.freeList).Allocation _
    apply allocation.move after
    · rw [resident, spilled]
      exact allocation.stored.rollback drops.mem_iff fun number member => (dropped number member).1
    · have sameCommitted :
          Function.update cluster.committed who (cluster.ledgers who).rollback.committed =
            cluster.committed :=
        update_committed
      rw [sameCommitted]
      exact allocation.divided.rollback
        (fun foreign member => (dropped _ member).1 _ foreign)
        (fun free member => (dropped _ member).2 free)
        (fun member => created _ member) drains.1 drains.mem_iff
    · apply allocation.linked.congr
      intro number member
      exact if_neg fun wrote => (dropped number wrote).2 member
    · exact allocation.count
    · intro other number image used known
      by_cases own : other = who
      · subst own
        rw [Function.update_self] at known
        cases known
      · rw [Function.update_of_ne own] at used known
        have unwritten : number ∉ cluster.written who := by
          intro wrote
          exact (dropped number wrote).1 other own
            (allocation.dirty.mpr (known ▸ Option.some_ne_none image))
        rw [if_neg unwritten]
        exact allocation.latest used known
    · intro number
      exact iff_of_false (Finset.notMem_empty number) fun staged => staged rfl
    · intro other number member
      by_cases own : other = who
      · subst own
        rw [Function.update_self] at member ⊢
        exact allocation.base member
      · rw [Function.update_of_ne own] at member ⊢
        exact allocation.base member

/-- Every step of every pager keeps the allocation. -/
theorem Allocation.step
    {action : Nat × PagerAction}
    (allocation : cluster.Allocation content)
    (careful : cluster.Careful action)
    (taken : cluster.step action = some next) :
    ∃ contentNext, next.Allocation contentNext := by
  obtain ⟨who, action⟩ := action
  cases action with
  | readPage no => exact ⟨content, allocation.readPage careful taken⟩
  | release id => exact ⟨content, allocation.release taken⟩
  | writePage no page => exact allocation.writePage careful taken
  | allocPage => exact allocation.allocPage careful taken
  | freePage no => exact allocation.freePage careful taken
  | commit order => exact ⟨content, allocation.commit careful taken⟩
  | rollback dropOrder drainOrder => exact allocation.rollback careful taken
  | setCatalogRoot root =>
      obtain rfl := Option.some.inj taken
      exact ⟨content, allocation.header rfl rfl⟩
  | setNextTxId id =>
      obtain rfl := Option.some.inj taken
      exact ⟨content, allocation.header rfl rfl⟩

end Step

/-! ## The file at the start of a run -/

/-- How the pages of a file are divided: the list it links, and the pages each pager owns. -/
structure Layout
    (state : PagerState)
    (owned : Nat → Finset UInt32)
    (freeList : List (UInt32 × UInt32)) : Prop where
  linked : Linked state.file.pages state.metadata.freelistHead freeList
  nodup : (freeList.map Prod.fst).Nodup
  apart : ∀ {who other no}, who ≠ other → no ∈ owned who → no ∉ owned other
  unlinked : ∀ {who no}, no ∈ freeList.map Prod.fst → no ∉ owned who
  free : ∀ {no}, no ∈ freeList.map Prod.fst → Known state.metadata no
  owned : ∀ {who no}, no ∈ owned who → Known state.metadata no
  count : state.metadata.pageCount ≠ 0

theorem Layout.allocation
    {state : PagerState}
    {owned : Nat → Finset UInt32}
    {freeList : List (UInt32 × UInt32)}
    (layout : Layout state owned freeList)
    (opened : state.Opened) :
    (Cluster.opened state owned freeList).Allocation state.file.pages := by
  have fresh : ∀ who, (Cluster.opened state owned freeList).pagers who = .fresh := by
    intro who
    have pagers :
        (Cluster.opened state owned freeList).pagers =
          Function.update (fun _ => .fresh) 0 state.toPager :=
      rfl
    rw [pagers, opened.pager]
    exact congrFun (Function.update_eq_self 0 fun _ => Pager.fresh) who
  have written : (Cluster.opened state owned freeList).written = fun _ => ∅ := by
    funext who
    rw [Cluster.written, fresh]
    rfl
  have allocated : (Cluster.opened state owned freeList).allocated = fun _ => ∅ := by
    funext who
    rw [Cluster.allocated, fresh]
    rfl
  have pending : (Cluster.opened state owned freeList).pending = fun _ => [] := by
    funext who
    rw [Cluster.pending, fresh]
    rfl
  have spilled : (Cluster.opened state owned freeList).spilled = fun _ _ => none := by
    funext who
    rw [Cluster.spilled, fresh]
    rfl
  refine {
    pool := opened.pool, pagers := fun who => fresh who ▸ Pager.coherent_fresh, stored := ?_,
    divided := ?_, linked := layout.linked, count := layout.count, latest := by rintro _ _ _ _ ⟨⟩,
    dirty := ?_, base := fun _ => rfl }
  · rw [written, spilled]
    refine ⟨fun nonzero => ?_, fun nonzero _ => ⟨rfl, fun image dirty present => ?_⟩, ?_⟩
    · exact .inr ⟨opened.onlyHeader _ nonzero, .inr fun _ => Finset.notMem_empty _⟩
    · have absent := opened.onlyHeader _ nonzero
      have present : state.pool.resident _ = some (image, dirty) := present
      rw [absent] at present
      cases present
    · exact fun _ inLog => absurd rfl inLog
  · rw [written, allocated, pending]
    exact {
      free_nodup := layout.nodup
      pending_nodup := List.nodup_nil
      free_pending := fun _ => List.not_mem_nil
      pending_apart := fun _ _ => List.not_mem_nil
      free_used := layout.unlinked
      pending_used := fun member => absurd member List.not_mem_nil
      used_apart := layout.apart
      kept := fun used _ => ⟨used, fun _ _ => Finset.notMem_empty _⟩
      freed := fun member given => by
        rcases given with unused | new
        · exact absurd member unused
        · exact absurd new (Finset.notMem_empty _)
      taken := fun member different touches => by
        rcases touches with wrote | used
        · exact absurd wrote (Finset.notMem_empty _)
        · exact absurd used (layout.apart different.symm member)
      allocated_written := fun new => absurd new (Finset.notMem_empty _)
      committed_apart := layout.apart
      committed_pending := fun _ => List.not_mem_nil
      allocated_pending := fun _ => List.not_mem_nil
      known_free := layout.free
      known_pending := fun member => absurd member List.not_mem_nil
      known_used := layout.owned
      known_committed := layout.owned
      known_allocated := fun new => absurd new (Finset.notMem_empty _) }
  · intro who no
    rw [written]
    exact iff_of_false (Finset.notMem_empty no) fun staged => staged rfl

/-- A layout at the start is one at the end of any run. -/
theorem Layout.run
    {state : PagerState}
    {owned : Nat → Finset UInt32}
    {freeList : List (UInt32 × UInt32)}
    {actions : List (Nat × PagerAction)}
    {cluster : Cluster}
    (layout : Layout state owned freeList)
    (opened : state.Opened)
    (run : TransitionRun.Run Cluster.step Careful (.opened state owned freeList) actions cluster) :
    ∃ content, cluster.Allocation content :=
  TransitionRun.Run.invariant (fun cluster => ∃ content, cluster.Allocation content)
    (fun ⟨_, allocation⟩ careful taken => allocation.step careful taken) run
    ⟨_, layout.allocation opened⟩

end Cluster

end PrehniteDB
