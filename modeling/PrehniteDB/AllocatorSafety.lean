import PrehniteDB.AllocationSteps

namespace PrehniteDB

open TransitionRun

/-!
# What one pager's allocator hands out

A rollback drops the images of the pages it rolls back and leaves the shared head
where it is.  A page freed since the last commit then stays on the list while its
owner has it back.
-/

namespace PagerState

/-- The image a read of the page returns. -/
def image (state : PagerState) (no : UInt32) : Page :=
  match state.pool.resident no with
  | some (page, _) => page
  | none => (state.spilled no).getD (state.file.pages no)

theorem Fetched.image
    {state next : PagerState}
    {no : UInt32}
    {page : Page}
    (fetched : Fetched state no page next) :
    page = state.image no := by
  unfold PagerState.image
  cases fetched with
  | cached present still => rw [present]
  | unspilled absent inLog admitted =>
      rw [absent]
      dsimp only
      rw [inLog]
      rfl
  | fromFile absent notInLog inside same admitted =>
      rw [absent]
      dsimp only
      rw [notInLog]
      exact same

theorem readsBack_image
    {state : PagerState}
    (coherent : state.Coherent)
    {no : UInt32}
    (inside : no < state.metadata.pageCount) :
    state.ReadsBack no (state.image no) := by
  unfold ReadsBack
  rcases readPage_spec coherent no with
    ⟨frame, next, result, fetched⟩ | ⟨error, next, result, still, absent, reason⟩
  · rw [result]
    exact fetched.image
  · rw [result]
    exact reason.resolve_right fun past => UInt32.not_le.mpr inside past.2

end PagerState

/-- The pages named by the free list, read from the head on. -/
inductive Chain (image : UInt32 → Page) : UInt32 → List UInt32 → Prop where
  | nil : Chain image 0 []
  | cons
      {no : UInt32}
      {rest : List UInt32}
      (nonzero : no ≠ 0)
      (later : Chain image (nextPointer (image no)) rest) :
      Chain image no (no :: rest)

theorem Linked.chain
    {content image : UInt32 → Page}
    {head : UInt32}
    {list : List (UInt32 × UInt32)}
    (linked : Linked content head list)
    (same : ∀ no, no ≠ 0 → image no = content no) :
    Chain image head (list.map Prod.fst) := by
  induction list generalizing head with
  | nil => exact linked ▸ .nil
  | cons entry rest inductionHypothesis =>
      obtain ⟨no, link⟩ := entry
      obtain ⟨rfl, nonzero, next, later⟩ := linked
      refine .cons nonzero ?_
      rw [same head nonzero, next]
      exact inductionHypothesis later

namespace Cluster

/-- What one pager's caller relies on. -/
structure Safe (cluster : Cluster) : Prop where
  /-- The free list is a chain of distinct pages that are neither recycled nor in use. -/
  chain :
    ∃ pages,
      Chain (cluster.view 0).image cluster.shared.metadata.freelistHead pages ∧ pages.Nodup ∧
        ∀ no ∈ pages, no ∉ cluster.pending 0 ∧ no ∉ cluster.inUse 0
  pending_nodup : (cluster.pending 0).Nodup
  pending_unused : ∀ no ∈ cluster.pending 0, no ∉ cluster.inUse 0
  /-- The next page handed out is not in use. -/
  fresh :
    ∀ no next,
      (cluster.view 0).allocPage = some (.ok no, next) → no ∉ cluster.inUse 0
  /-- A page of the last commit reads as it did then, unless it was written since. -/
  base :
    ∀ no ∈ cluster.committed 0,
      cluster.staged 0 no = none →
        (cluster.view 0).ReadsBack no ((cluster.ledgers 0).base no)

/-- The pager changes only pages in use, and no freed page is rolled back or reallocated. -/
structure Prudent (cluster : Cluster) (action : Nat × PagerAction) : Prop where
  solo : Solo cluster action
  owns : ∀ no ∈ changes action.2, no ∈ cluster.inUse 0
  /-- The file has room for another page. -/
  room :
    action.2 = .allocPage →
      cluster.pending 0 = [] →
        cluster.shared.metadata.freelistHead = 0 → cluster.shared.metadata.pageCount + 1 ≠ 0
  /-- The log of a commit has no image older than the cached one. -/
  logged :
    ∀ order,
      action.2 = .commit order →
        ∀ no image page dirty,
          no ∈ cluster.written 0 →
            cluster.spilled 0 no = some image →
              cluster.shared.pool.resident no = some (page, dirty) → image = page
  /-- A rollback drops no page of the free list, nor one that was freed and reallocated. -/
  undone :
    ∀ dropOrder drainOrder,
      action.2 = .rollback dropOrder drainOrder →
        (∀ no ∈ cluster.written 0, no ∉ cluster.free) ∧
          ∀ no ∈ cluster.allocated 0, no ∉ cluster.committed 0

section Solo

variable {cluster : Cluster} {content : UInt32 → Page}

theorem SoloImages.unwritten
    (solo : SoloImages cluster)
    {who : Nat}
    (foreign : who ≠ 0)
    (no : UInt32) :
    no ∉ cluster.written who := by
  intro member
  apply (@Images.dirty _ solo.images who no).mp member
  rw [solo.others who foreign]

/-- One pager alone takes nothing from under a peer. -/
theorem Prudent.careful
    {action : Nat × PagerAction}
    (prudent : cluster.Prudent action)
    (solo : SoloImages cluster) :
    cluster.Careful action := by
  obtain ⟨who, action⟩ := action
  obtain rfl : who = 0 := prudent.solo
  refine {
    evicts := ?_, rereads := fun no _ _ other foreign => solo.unwritten foreign no,
    owns := prudent.owns, room := prudent.room, logged := prudent.logged,
    settled := fun _ _ no _ other foreign => solo.unwritten foreign no, undone := ?_ }
  · intro no _ victim displaces
    refine ⟨fun other foreign => solo.unwritten foreign victim, fun member => ?_⟩
    have staged := (@Images.dirty _ solo.images 0 victim).mp member
    obtain ⟨image, known⟩ := Option.ne_none_iff_exists'.mp staged
    rcases solo.images.tracks.held known with cached | ⟨absent, _⟩
    · exact ⟨image, cached⟩
    · exact absurd (Option.map_eq_none_iff.mp absent) displaces.1
  · intro dropOrder drainOrder same
    obtain ⟨unlinked, created⟩ := prudent.undone dropOrder drainOrder same
    exact ⟨fun no member =>
      ⟨fun other foreign => solo.unwritten foreign no, unlinked no member⟩, created⟩

/-- The latest images are those the pager reads. -/
theorem Allocation.image_eq
    (allocation : cluster.Allocation content)
    (solo : SoloImages cluster)
    {no : UInt32}
    (nonzero : no ≠ 0) :
    (cluster.view 0).image no = content no := by
  unfold PagerState.image
  rcases allocation.stored.held nonzero with
    ⟨dirty, cached⟩ | ⟨absent, ⟨writer, member, _, inLog⟩ | nobody⟩
  · have cached : (cluster.view 0).pool.resident no = some (content no, dirty) := cached
    rw [cached]
  · have absent : (cluster.view 0).pool.resident no = none := absent
    obtain rfl : writer = 0 := by
      by_contra foreign
      exact solo.unwritten foreign no member
    have inLog : (cluster.view 0).spilled no = some (content no) := inLog
    rw [absent]
    dsimp only
    rw [inLog]
    rfl
  · have absent : (cluster.view 0).pool.resident no = none := absent
    have notInLog : (cluster.view 0).spilled no = none := by
      by_contra inLog
      exact nobody 0 (allocation.stored.owned nonzero inLog)
    rw [absent]
    dsimp only
    rw [notInLog]
    exact (allocation.stored.clean nonzero nobody).1

theorem Allocation.obtained_unused
    (allocation : cluster.Allocation content)
    {who other : Nat}
    {no : UInt32}
    {ready : PagerState}
    (obtained : PagerState.Obtained (cluster.view who) no ready) :
    no ∉ cluster.inUse other := by
  intro used
  cases obtained with
  | pending listed same =>
      have member : no ∈ cluster.pending who := by
        have listed : cluster.pending who = _ ++ [no] := listed
        rw [listed]
        exact List.mem_append_right _ (List.mem_singleton_self no)
      exact allocation.divided.pending_used member used
  | popped exhausted head nonzero cachedOrSpilled fetched header same =>
      have head : cluster.shared.metadata.freelistHead = no := head
      have linked := allocation.linked
      cases listed : cluster.freeList with
      | nil =>
          rw [listed, head] at linked
          exact nonzero linked
      | cons entry rest =>
          rw [listed, head] at linked
          have member : no ∈ cluster.free := by
            rw [free, listed, List.map_cons, linked.1]
            exact List.mem_cons_self
          exact allocation.divided.free_used member used
  | bumped exhausted empty count header same =>
      have count : cluster.shared.metadata.pageCount = no := count
      have below := (allocation.divided.known_used used).2
      rw [count] at below
      exact UInt32.lt_irrefl no below

theorem Allocation.safe
    (allocation : cluster.Allocation content)
    (solo : SoloImages cluster) :
    cluster.Safe where
  chain := by
    refine ⟨cluster.free, ?_, allocation.divided.free_nodup, fun no member => ?_⟩
    · exact allocation.linked.chain fun no nonzero => allocation.image_eq solo nonzero
    · exact ⟨allocation.divided.free_pending member, allocation.divided.free_used member⟩
  pending_nodup := allocation.divided.pending_nodup
  pending_unused := fun _ member => allocation.divided.pending_used member
  fresh := by
    intro no next result
    rcases PagerState.allocPage_spec (allocation.coherent 0) with
      ⟨page, after, same, ⟨ready, staged, obtained, _, _⟩⟩ |
        ⟨error, after, same, _⟩ | ⟨same, _⟩
    · obtain ⟨samePage, _⟩ := Prod.mk.inj (Option.some.inj (result.symm.trans same))
      obtain rfl := Except.ok.inj samePage
      exact allocation.obtained_unused obtained
    · cases result.symm.trans same
    · cases result.symm.trans same
  base := by
    intro no member unstaged
    obtain ⟨nonzero, below⟩ := allocation.divided.known_committed member
    have nobody : ∀ who, no ∉ cluster.written who := by
      intro who
      by_cases own : who = 0
      · subst own
        exact fun wrote => allocation.dirty.mp wrote unstaged
      · exact solo.unwritten own no
    have image : (cluster.view 0).image no = (cluster.ledgers 0).base no := by
      rw [allocation.image_eq solo nonzero, ← (allocation.stored.clean nonzero nobody).1]
      exact allocation.base member
    rw [← image]
    exact PagerState.readsBack_image (allocation.coherent 0) below

end Solo

/--
In every run of one pager that changes only pages in use and rolls back no freed
page, the free list, the recycled pages and the pages in use stay apart, no page
in use is handed out, and what the last commit left reads back.
-/
theorem allocator_safe
    {disk : Disk}
    {capacity : Nat}
    {state : PagerState}
    {owned : Nat → Finset UInt32}
    {freeList : List (UInt32 × UInt32)}
    {actions : List (Nat × PagerAction)}
    {cluster : Cluster}
    (opened : Pager.openWithPool disk (.withCapacity capacity) = .ok state)
    (layout : Layout state owned freeList)
    (run : Run Cluster.step Prudent (.opened state owned freeList) actions cluster) :
    cluster.Safe := by
  have opening := PagerState.openWithPool_spec opened
  obtain ⟨solo, _, allocation⟩ :=
    Run.invariant
      (fun cluster => SoloImages cluster ∧ ∃ content, cluster.Allocation content)
      (fun ⟨solo, _, allocation⟩ prudent taken =>
        ⟨solo.step prudent.solo taken, allocation.step (prudent.careful solo) taken⟩)
      run ⟨soloImages_opened opening owned freeList, _, layout.allocation opening⟩
  exact allocation.safe solo

theorem layout_created
    {state : PagerState}
    (count : state.metadata.pageCount = 1)
    (head : state.metadata.freelistHead = 0) :
    Layout state (fun _ => ∅) [] where
  linked := head
  nodup := List.nodup_nil
  apart := fun _ member => absurd member (Finset.notMem_empty _)
  unlinked := nofun
  free := nofun
  owned := fun member => absurd member (Finset.notMem_empty _)
  count := by
    rw [count]
    decide

/-- A page committed, and another allocated and rolled back. -/
def recycledPage : List (Nat × PagerAction) :=
  [(0, .allocPage), (0, .commit [1]), (0, .allocPage), (0, .rollback [2] [2])]

/-- A page allocated in vain is given out again. -/
theorem recycled_page_safe :
    ∃ state cluster,
      Pager.openWithPool { file := .empty, logs := [] } (.withCapacity 4) = .ok state ∧
        Run Cluster.step Prudent (.opened state (fun _ => ∅) []) recycledPage cluster ∧
        cluster.Safe := by
  have evaluated :
      ((createdWith 4).bind fun state =>
        ((Cluster.opened state (fun _ => ∅) []).step (0, .allocPage)).bind fun first =>
          (first.step (0, .commit [1])).bind fun second =>
            (second.step (0, .allocPage)).bind fun third =>
              (third.step (0, .rollback [2] [2])).map fun _ =>
                (decide (state.metadata.pageCount = 1 ∧ state.metadata.freelistHead = 0),
                  (first.pagers 0).wal.appended.isEmpty,
                  decide (second.shared.metadata.pageCount = 2),
                  decide (third.freeList = [] ∧ third.allocated 0 = {2} ∧
                    third.committed 0 = {1}))) =
        some (true, true, true, true) := by
    decide +kernel
  obtain ⟨state, created, evaluated⟩ := Option.bind_eq_some_iff.mp evaluated
  obtain ⟨first, one, evaluated⟩ := Option.bind_eq_some_iff.mp evaluated
  obtain ⟨second, two, evaluated⟩ := Option.bind_eq_some_iff.mp evaluated
  obtain ⟨third, three, evaluated⟩ := Option.bind_eq_some_iff.mp evaluated
  obtain ⟨final, four, values⟩ := Option.map_eq_some_iff.mp evaluated
  simp only [Prod.mk.injEq, decide_eq_true_eq, List.isEmpty_iff] at values
  obtain ⟨⟨count, head⟩, logEmpty, secondCount, ⟨nothing, allocated, committed⟩⟩ := values
  have opened := openWithPool_of_createdWith created
  have allocates : Prudent (.opened state (fun _ => ∅) []) (0, .allocPage) := by
    refine {
      solo := rfl, owns := by rintro _ ⟨⟩, room := fun _ _ _ => ?_,
      logged := by rintro _ ⟨⟩, undone := by rintro _ _ ⟨⟩ }
    change state.metadata.pageCount + 1 ≠ 0
    rw [count]
    decide
  have commits : Prudent first (0, .commit [1]) := by
    refine {
      solo := rfl, owns := by rintro _ ⟨⟩, room := by rintro ⟨⟩, undone := by rintro _ _ ⟨⟩,
      logged := fun _ _ no image _ _ _ inLog => ?_ }
    have notInLog : first.spilled 0 no = none := by
      rw [spilled, Pager.spilled, logEmpty]
      rfl
    rw [notInLog] at inLog
    cases inLog
  have allocatesAgain : Prudent second (0, .allocPage) := by
    refine {
      solo := rfl, owns := by rintro _ ⟨⟩, room := fun _ _ _ => ?_,
      logged := by rintro _ ⟨⟩, undone := by rintro _ _ ⟨⟩ }
    rw [secondCount]
    decide
  have rollsBack : Prudent third (0, .rollback [2] [2]) := by
    refine {
      solo := rfl, owns := by rintro _ ⟨⟩, room := by rintro ⟨⟩, logged := by rintro _ ⟨⟩,
      undone := fun _ _ _ => ⟨fun no _ => ?_, ?_⟩ }
    · rw [free, nothing]
      exact List.not_mem_nil
    · intro no taken kept
      rw [allocated, Finset.mem_singleton] at taken
      rw [committed, Finset.mem_singleton, taken] at kept
      exact absurd kept (by decide)
  have run : Run Cluster.step Prudent (.opened state (fun _ => ∅) []) recycledPage final :=
    ((((Run.nil _).snoc allocates one).snoc commits two).snoc allocatesAgain three).snoc
      rollsBack four
  exact ⟨state, final, opened, run,
    allocator_safe opened (layout_created count head) run⟩

/-- A committed page is freed, the free is rolled back, and the page is read. -/
def freedAndRolledBack : List (Nat × PagerAction) :=
  [(0, .allocPage), (0, .writePage 1 (filled 0xAA)), (0, .commit [1]), (0, .freePage 1),
    (0, .rollback [1] []), (0, .readPage 1)]

/-- The next allocation hands out the committed page. -/
theorem rollback_leaves_page_free :
    ∃ state cluster next,
      Pager.openWithPool { file := .empty, logs := [] } (.withCapacity 4) = .ok state ∧
        Run Cluster.step Cluster.Solo (.opened state (fun _ => ∅) []) freedAndRolledBack
          cluster ∧
        1 ∈ cluster.inUse 0 ∧ 1 ∈ cluster.committed 0 ∧
        (cluster.view 0).allocPage = some (.ok 1, next) ∧
        ¬ cluster.Safe := by
  have evaluated :
      ((createdWith 4).bind fun state =>
        (replay Cluster.step Cluster.Solo (.opened state (fun _ => ∅) [])
          freedAndRolledBack).map fun cluster =>
            (decide (1 ∈ cluster.inUse 0 ∧ 1 ∈ cluster.committed 0),
              (cluster.view 0).allocPage.map fun answer => answer.1.toOption)) =
        some (true, some (some 1)) := by
    decide +kernel
  obtain ⟨state, created, replayed⟩ := Option.bind_eq_some_iff.mp evaluated
  obtain ⟨cluster, result, values⟩ := Option.map_eq_some_iff.mp replayed
  obtain ⟨pages, handsOut⟩ := Prod.mk.inj values
  obtain ⟨used, committed⟩ := of_decide_eq_true pages
  obtain ⟨⟨answer, next⟩, allocated, isOne⟩ := Option.map_eq_some_iff.mp handsOut
  cases answer with
  | error error => cases isOne
  | ok no =>
      obtain rfl : no = 1 := Option.some.inj isOne
      exact ⟨state, cluster, next, openWithPool_of_createdWith created, run_of_replay result,
        used, committed, allocated, fun safe => safe.fresh 1 next allocated used⟩

end Cluster

end PrehniteDB
