import PrehniteDB.CommitCrash
import PrehniteDB.PageContents
import PrehniteDB.PageDivision

namespace PrehniteDB

open TransitionRun

/-!
# The page allocator of every pager on one file

The free list is a chain through the images of the free pages.  Its head is
shared and moves at once, while the link behind it is staged like any other
page; pages allocated and then rolled back wait in the pager's own list.
-/

/-- A list of pages and links that starts at `head` and follows the images of the pages. -/
def Linked (content : UInt32 → Page) : UInt32 → List (UInt32 × UInt32) → Prop
  | head, [] => head = 0
  | head, (no, link) :: rest =>
      head = no ∧ no ≠ 0 ∧ nextPointer (content no) = link ∧ Linked content link rest

theorem Linked.congr
    {content other : UInt32 → Page}
    {head : UInt32}
    {chain : List (UInt32 × UInt32)}
    (linked : Linked content head chain)
    (same : ∀ no ∈ chain.map Prod.fst, other no = content no) :
    Linked other head chain := by
  induction chain generalizing head with
  | nil => exact linked
  | cons entry rest inductionHypothesis =>
      obtain ⟨no, link⟩ := entry
      obtain ⟨here, nonzero, image, later⟩ := linked
      refine ⟨here, nonzero, ?_, inductionHypothesis later fun number member =>
        same number (List.mem_cons_of_mem _ member)⟩
      rw [same no List.mem_cons_self]
      exact image

/-! ## Pages that leave the pool -/

namespace PagerState

theorem Moves.absent_of_evicted
    {evictee : Option UInt32}
    {resident residentNext : Residency}
    {spilled spilledNext : UInt32 → Option Page}
    {no victim : UInt32}
    {page : Page}
    {dirty : Bool}
    (moves : Moves evictee resident spilled no page dirty residentNext spilledNext)
    (present : resident victim ≠ none)
    (gone : residentNext victim = none) :
    resident no = none := by
  cases moves with
  | replaced there =>
      by_cases same : victim = no
      · rw [same, Function.update_self] at gone
        cases gone
      · rw [Function.update_of_ne same] at gone
        exact absurd gone present
  | inserted absent => exact absent
  | dropped absent there => exact absent
  | stolen absent there evicted => exact absent

section Displacement

variable {state next : PagerState} {no victim : UInt32}

theorem displaces_of_put
    {pool : SharedPool}
    {page : Page}
    {dirty : Bool}
    (coherent : state.Coherent)
    (put : pool = (state.pool.put no page dirty).2)
    (present : state.pool.resident victim ≠ none)
    (gone : pool.resident victim = none) :
    state.pool.Displaces no victim := by
  rw [put] at gone
  exact Watched.displaced coherent.pool present gone

theorem readPage_displaces
    (coherent : state.Coherent)
    (present : state.pool.resident victim ≠ none)
    (gone : (state.readPage no).2.pool.resident victim = none) :
    state.pool.Displaces no victim := by
  cases cached : state.pool.resident no with
  | none =>
      rcases readPage_pool cached with same | ⟨page, dirty, same⟩
      · rw [same] at gone
        exact absurd gone present
      · exact displaces_of_put coherent same present gone
  | some entry =>
      rcases readPage_spec coherent no with
        ⟨frame, after, result, fetched⟩ | ⟨error, after, result, _, absent, _⟩
      · rw [result] at gone
        cases fetched with
        | cached _ still =>
            rw [still.resident] at gone
            exact absurd gone present
        | unspilled absent _ _ =>
            rw [cached] at absent
            cases absent
        | fromFile absent _ _ _ _ =>
            rw [cached] at absent
            cases absent
      · rw [cached] at absent
        cases absent

theorem writePage_displaces
    {page : Page}
    (coherent : state.Coherent)
    (present : state.pool.resident victim ≠ none)
    (gone : (state.writePage no page).2.pool.resident victim = none) :
    state.pool.Displaces no victim :=
  displaces_of_put coherent (writePage_pool state no page) present gone

theorem setMetadata_pool (state : PagerState) (metadata : Meta) :
    ({ state with metadata := metadata } : PagerState).pool = state.pool := rfl

theorem freePage_displaces
    (coherent : state.Coherent)
    (present : state.pool.resident victim ≠ none)
    (gone : (state.freePage no).2.pool.resident victim = none) :
    state.pool.Displaces no victim := by
  have pool :
      (state.freePage no).2.pool =
        (state.writePage no (linkPage state.metadata.freelistHead)).2.pool := by
    unfold freePage
    split
    · next error next wrote => rw [wrote]
    · next _ next wrote => rw [wrote]
  rw [pool] at gone
  exact writePage_displaces coherent present gone

theorem stageAllocated_pool (state : PagerState) (no : UInt32) :
    (state.stageAllocated no).2.pool = (state.pool.put no zeroPage true).2 := by
  rw [← writePage_pool]
  unfold stageAllocated
  split
  · next error next wrote => rw [wrote]
  · next _ next wrote => rw [wrote]

theorem allocPage_pool
    {answer : Except Error UInt32}
    {ready : PagerState}
    {pool : SharedPool}
    (allocated : state.allocPage = some (answer, next))
    (staging : state.allocPage = some (ready.stageAllocated no))
    (same : ready.pool = pool) :
    next.pool = (pool.put no zeroPage true).2 := by
  have results := Option.some.inj (staging.symm.trans allocated)
  have staged := stageAllocated_pool ready no
  rw [results, same] at staged
  exact staged

/-- The page `alloc_page` would hand out. -/
def nextPage (state : PagerState) : UInt32 :=
  match state.pendingFreelist.getLast? with
  | some no => no
  | none =>
      if state.metadata.freelistHead ≠ 0 then state.metadata.freelistHead
      else state.metadata.pageCount

theorem nextPage_pending
    {rest : List UInt32}
    (listed : state.pendingFreelist = rest ++ [no]) :
    state.nextPage = no := by
  have last : state.pendingFreelist.getLast? = some no := by
    rw [listed, List.getLast?_concat]
  unfold nextPage
  rw [last]

theorem nextPage_head
    (exhausted : state.pendingFreelist = [])
    (nonzero : state.metadata.freelistHead ≠ 0) :
    state.nextPage = state.metadata.freelistHead := by
  have last : state.pendingFreelist.getLast? = none := by
    rw [exhausted, List.getLast?_nil]
  unfold nextPage
  rw [last]
  exact if_pos nonzero

theorem nextPage_count
    (exhausted : state.pendingFreelist = [])
    (empty : state.metadata.freelistHead = 0) :
    state.nextPage = state.metadata.pageCount := by
  have last : state.pendingFreelist.getLast? = none := by
    rw [exhausted, List.getLast?_nil]
  unfold nextPage
  rw [last]
  exact if_neg (not_not_intro empty)

/-- The page read off the free list is staged next, so the second admission displaces nothing. -/
theorem popped_displaces
    {answer : Except Error UInt32}
    (coherent : state.Coherent)
    (allocated : state.allocPage = some (answer, next))
    (exhausted : state.pendingFreelist = [])
    (nonzero : state.metadata.freelistHead ≠ 0)
    (present : state.pool.resident victim ≠ none)
    (gone : next.pool.resident victim = none) :
    state.pool.Displaces state.metadata.freelistHead victim := by
  apply readPage_displaces coherent present
  cases blocked : state.readsHeader state.metadata.freelistHead with
  | true =>
      rw [allocPage_blocked exhausted nonzero blocked] at allocated
      cases allocated
  | false =>
      rcases readPage_spec coherent state.metadata.freelistHead with
        ⟨frame, read, result, fetched⟩ | ⟨error, read, result, _⟩
      · have pool :
            next.pool = (read.pool.put state.metadata.freelistHead zeroPage true).2 :=
          allocPage_pool allocated (allocPage_pop exhausted nonzero blocked result)
            (setMetadata_pool _ _)
        obtain ⟨readCoherent, _⟩ := Cluster.fetched_keeps fetched
        rw [result]
        by_contra still
        rw [pool] at gone
        have displaced := Watched.displaced readCoherent.pool still gone
        have absent := readCoherent.pool.displaces_absent displaced
        exact fetched.resident (Option.map_eq_none_iff.mpr absent)
      · have answer := allocPage_unread exhausted nonzero blocked result
        obtain ⟨_, rfl⟩ := Prod.mk.inj (Option.some.inj (answer.symm.trans allocated))
        rw [result]
        exact gone

theorem allocPage_displaces
    {answer : Except Error UInt32}
    (coherent : state.Coherent)
    (allocated : state.allocPage = some (answer, next))
    (present : state.pool.resident victim ≠ none)
    (gone : next.pool.resident victim = none) :
    state.pool.Displaces state.nextPage victim := by
  rcases List.eq_nil_or_concat state.pendingFreelist with exhausted | ⟨rest, no, listed⟩
  · by_cases empty : state.metadata.freelistHead = 0
    · rw [nextPage_count exhausted empty]
      have pool := allocPage_pool allocated (allocPage_bump exhausted empty)
        (setMetadata_pool _ _)
      exact displaces_of_put coherent pool present gone
    · rw [nextPage_head exhausted empty]
      exact popped_displaces coherent allocated exhausted empty present gone
  · rw [List.concat_eq_append] at listed
    rw [nextPage_pending listed]
    have pool := allocPage_pool allocated (allocPage_pending listed) rfl
    exact displaces_of_put coherent pool present gone

end Displacement

end PagerState

/-! ## The pages of the cluster and who has them -/

namespace Cluster

section Pages

variable (cluster : Cluster) (who : Nat)

/-- The pages on the shared free list, the head first. -/
def free : List UInt32 := cluster.freeList.map Prod.fst

def pending : List UInt32 := (cluster.pagers who).pendingFreelist

def inUse : Finset UInt32 := (cluster.ledgers who).inUse

/-- The pages in use at the pager's last commit. -/
def committed : Finset UInt32 := (cluster.ledgers who).committed

def allocated : Finset UInt32 := (cluster.pagers who).allocatedPages

/-- The pages written since the pager's last commit or rollback. -/
def written : Finset UInt32 := (cluster.pagers who).dirtyPages

end Pages

theorem admits_nextPage
    (cluster : Cluster)
    (who : Nat) :
    cluster.admits (who, .allocPage) = some (cluster.view who).nextPage := by
  simp only [admits, PagerState.nextPage, view]
  cases (cluster.pagers who).pendingFreelist.getLast? with
  | some no => rfl
  | none => exact (apply_ite some _ _ _).symm

/-- The pages a header gives out: all below the page count but the header's own. -/
def Known (metadata : Meta) (no : UInt32) : Prop := no ≠ 0 ∧ no < metadata.pageCount

/-- Every page has one place, and every image is where a pager will look for it. -/
structure Allocation (cluster : Cluster) (content : UInt32 → Page) : Prop where
  pool : cluster.shared.pool.WellFormed
  pagers : ∀ who, (cluster.pagers who).Coherent
  stored :
    Stored cluster.written cluster.spilled cluster.shared.pool.resident
      cluster.shared.file.pages content
  divided :
    PageDivision.Divided cluster.free cluster.pending cluster.inUse cluster.committed
      cluster.allocated cluster.written (Known cluster.shared.metadata)
  linked : Linked content cluster.shared.metadata.freelistHead cluster.freeList
  count : cluster.shared.metadata.pageCount ≠ 0
  latest :
    ∀ {who no image},
      no ∈ cluster.inUse who → cluster.staged who no = some image → content no = image
  dirty : ∀ {who no}, no ∈ cluster.written who ↔ cluster.staged who no ≠ none
  base :
    ∀ {who no},
      no ∈ cluster.committed who →
        cluster.shared.file.pages no = (cluster.ledgers who).base no

theorem Allocation.coherent
    {cluster : Cluster}
    {content : UInt32 → Page}
    (allocation : cluster.Allocation content)
    (who : Nat) :
    (cluster.view who).Coherent :=
  ⟨allocation.pool, allocation.pagers who⟩

/-- The page a pager names when it writes or frees. -/
def changes : PagerAction → Option UInt32
  | .writePage no _ | .freePage no => some no
  | _ => none

/-- The caller changes only its own pages, and no pager disturbs a peer. -/
structure Careful (cluster : Cluster) (action : Nat × PagerAction) : Prop where
  /-- A frame it evicts holds no page a peer wrote, nor a page of its own that a peer cleaned. -/
  evicts :
    ∀ no ∈ cluster.admits action,
      ∀ victim,
        cluster.shared.pool.Displaces no victim →
          (∀ other, other ≠ action.1 → victim ∉ cluster.written other) ∧
            (victim ∈ cluster.written action.1 →
              ∃ image, cluster.shared.pool.resident victim = some (image, true))
  /-- A page it reads past the cache is not one a peer wrote and evicted. -/
  rereads :
    ∀ no,
      action.2 = .readPage no →
        cluster.shared.pool.resident no = none →
          ∀ other, other ≠ action.1 → no ∉ cluster.written other
  owns : ∀ no ∈ changes action.2, no ∈ cluster.inUse action.1
  /-- The file has room for another page. -/
  room :
    action.2 = .allocPage →
      cluster.pending action.1 = [] →
        cluster.shared.metadata.freelistHead = 0 → cluster.shared.metadata.pageCount + 1 ≠ 0
  /-- The log of a commit has no image older than the cached one. -/
  logged :
    ∀ order,
      action.2 = .commit order →
        ∀ no image page dirty,
          no ∈ cluster.written action.1 →
            cluster.spilled action.1 no = some image →
              cluster.shared.pool.resident no = some (page, dirty) → image = page
  /-- A page allocated and committed is not one a peer has freed and not committed. -/
  settled :
    ∀ order,
      action.2 = .commit order →
        ∀ no ∈ cluster.allocated action.1,
          ∀ other, other ≠ action.1 → no ∉ cluster.written other
  /-- What a rollback drops is no peer's, is not on the free list, and was not reallocated. -/
  undone :
    ∀ dropOrder drainOrder,
      action.2 = .rollback dropOrder drainOrder →
        (∀ no ∈ cluster.written action.1,
          (∀ other, other ≠ action.1 → no ∉ cluster.written other) ∧ no ∉ cluster.free) ∧
            ∀ no ∈ cluster.allocated action.1, no ∉ cluster.committed action.1

end Cluster

end PrehniteDB
