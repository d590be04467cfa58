import PrehniteDB.PagerOpening

namespace PrehniteDB

open TransitionRun

/-!
# What a commit makes durable

The runs of one pager are the runs of the cluster in which only pager 0 acts.
At a commit every staged image is in the cache or in the log.  A page that was
spilled and then staged again has both, and the commit writes the spilled image.
-/

namespace Cluster

/-- Only the first pager acts. -/
def Solo (_ : Cluster) (action : Nat × PagerAction) : Prop := action.1 = 0

instance (cluster : Cluster) (action : Nat × PagerAction) : Decidable (Solo cluster action) :=
  inferInstanceAs (Decidable (_ = _))

/-- The images are tracked and no other pager staged any. -/
structure SoloImages (cluster : Cluster) : Prop where
  images : Images cluster
  others : ∀ who, who ≠ 0 → cluster.staged who = fun _ => none

/-- One pager alone is at peace with its peers. -/
theorem SoloImages.peaceful
    {cluster : Cluster}
    (solo : SoloImages cluster)
    (action : PagerAction) :
    Peaceful cluster (0, action) where
  evicts _ _ _ _ _ := fun other different => congrFun (solo.others other different) _
  admits _ _ _ := fun other different => congrFun (solo.others other different) _

/-- Every step keeps the images in step with the log and the file. -/
theorem SoloImages.step
    {cluster next : Cluster}
    {action : Nat × PagerAction}
    (solo : SoloImages cluster)
    (own : Solo cluster action)
    (taken : cluster.step action = some next) :
    SoloImages next := by
  obtain ⟨who, action⟩ := action
  obtain rfl : who = 0 := own
  have effect := step_effect (solo.images.coherent 0) taken
  refine ⟨solo.images.effect (solo.peaceful action) effect, fun who different => ?_⟩
  have same : next.staged who = cluster.staged who :=
    congrArg Ledger.staged (effect_others effect different).2
  exact same.trans (solo.others who different)

theorem SoloImages.run
    {start cluster : Cluster}
    {actions : List (Nat × PagerAction)}
    (run : Run Cluster.step Solo start actions cluster)
    (solo : SoloImages start) :
    SoloImages cluster :=
  Run.invariant SoloImages (fun images own taken => images.step own taken) run solo

theorem soloImages_opened
    {state : PagerState}
    (opened : state.Opened)
    (owned : Nat → Finset UInt32)
    (freeList : List (UInt32 × UInt32)) :
    SoloImages (Cluster.opened state owned freeList) :=
  ⟨images_opened opened owned freeList, fun _ _ => rfl⟩

end Cluster

namespace PagerState

/-- A read returns the image, unless every frame of the shard is pinned. -/
def ReadsBack (state : PagerState) (no : UInt32) (image : Page) : Prop :=
  match (state.readPage no).1 with
  | .ok frame => frame.page = image
  | .error error => ∃ message, error = .exhausted message

/-- After a close and reopen with any cache the first read returns the image. -/
def SurvivesReopen (state : PagerState) (no : UInt32) (image : Page) : Prop :=
  ∀ capacity,
    ∃ reopened frame,
      Pager.openWithPool state.close (.withCapacity capacity) = .ok reopened ∧
        (reopened.readPage no).1 = .ok frame ∧ frame.page = image

/-- What a reopen finds of a page. -/
theorem survivesReopen_iff
    {state : PagerState}
    (nonempty : state.file.length ≠ 0)
    (header : decodeHeader (state.file.pages 0) = .ok state.metadata)
    (no : UInt32)
    (image : Page) :
    state.SurvivesReopen no image ↔
      no < state.metadata.pageCount ∧ state.file.pages no = image := by
  constructor
  · intro survives
    obtain ⟨opened, frame, result, read, same⟩ := survives 1
    obtain rfl : reopened state.file state.metadata 1 = opened :=
      Except.ok.inj ((openWithPool_file 1 nonempty header).symm.trans result)
    by_cases inside : no < state.metadata.pageCount
    · obtain ⟨other, again, fromFile⟩ :=
        readPage_reopened state.file state.metadata 1 inside
      obtain rfl := Except.ok.inj (again.symm.trans read)
      exact ⟨inside, fromFile.symm.trans same⟩
    · exact absurd read
        (readPage_reopened_past state.file state.metadata 1 (UInt32.not_lt.mp inside) frame)
  · rintro ⟨inside, rfl⟩ capacity
    obtain ⟨frame, read, same⟩ :=
      readPage_reopened state.file state.metadata capacity inside
    exact ⟨_, frame, openWithPool_file capacity nonempty header, read, same⟩

section Commit

variable {state next : PagerState} {order : List UInt32}

/-- The file page a commit leaves is the staged image unless an older one was spilled. -/
theorem committed_page_iff
    (coherent : state.Coherent)
    (committed : Committed state order next)
    {no : UInt32}
    {image : Page}
    (listed : no ≠ 0 → no ∈ order)
    (held :
      state.pool.resident no = some (image, true) ∨
        (state.pool.resident no = none ∧ state.spilled no = some image)) :
    next.file.pages no = image ↔
      (no = 0 → image = encodeHeader state.metadata) ∧
        (no ≠ 0 → ∀ offset,
          state.walIndex.lookup no = some offset →
            state.wal.readPageAt offset = some image) := by
  rw [committed.page coherent no]
  by_cases header : no = 0
  · rw [if_pos header]
    constructor
    · intro same
      exact ⟨fun _ => same.symm, fun different => absurd header different⟩
    · intro same
      exact (same.1 header).symm
  · rw [if_neg header]
    cases found : state.walIndex.lookup no with
    | some offset =>
        obtain ⟨-, old, read, last⟩ := coherent.pager.indexed found
        rw [last]
        constructor
        · rintro rfl
          refine ⟨fun isHeader => absurd isHeader header, fun _ other same => ?_⟩
          cases same
          exact read
        · intro both
          have again := both.2 header offset rfl
          rw [read] at again
          exact Option.some.inj again
    | none =>
        rw [coherent.pager.unindexed found]
        have cached : state.pool.resident no = some (image, true) := by
          rcases held with cached | ⟨-, inLog⟩
          · exact cached
          · rw [coherent.pager.unindexed found] at inLog
            cases inLog
        dsimp only
        rw [if_pos (listed header), cached]
        exact ⟨fun _ => ⟨fun isHeader => absurd isHeader header, nofun⟩, fun _ => rfl⟩

theorem committed_readsBack
    (committed : Committed state order next)
    {no : UInt32}
    {image : Page}
    (held :
      state.pool.resident no = some (image, true) ∨
        (state.pool.resident no = none ∧ state.spilled no = some image))
    (inside : no < state.metadata.pageCount)
    (written : next.file.pages no = image) :
    next.ReadsBack no image := by
  unfold ReadsBack
  rcases readPage_spec committed.coherent no with
    ⟨frame, after, result, fetched⟩ | ⟨error, after, result, -, -, why⟩
  · rw [result]
    cases fetched with
    | cached present still =>
        rw [committed.resident] at present
        dsimp only at present
        rcases held with cached | ⟨absent, -⟩
        · split at present
          · rw [cached] at present
            exact (Prod.mk.inj (Option.some.inj present)).1.symm
          · rw [cached] at present
            exact (Prod.mk.inj (Option.some.inj present)).1.symm
        · split at present
          · rw [absent] at present
            cases present
          · rw [absent] at present
            cases present
    | unspilled absent inLog admitted =>
        rw [committed.spilled] at inLog
        cases inLog
    | fromFile absent notInLog below same admitted => exact same.trans written
  · rw [result]
    rcases why with exhausted | ⟨-, past⟩
    · exact exhausted
    · rw [committed.metadata] at past
      exact absurd past (UInt32.not_le.mpr inside)

end Commit

end PagerState

/-- The first pager on a brand-new file. -/
def createdWith (capacity : Nat) : Option PagerState :=
  (Pager.openWithPool { file := .empty, logs := [] } (.withCapacity capacity)).toOption

theorem openWithPool_of_createdWith
    {capacity : Nat}
    {state : PagerState}
    (created : createdWith capacity = some state) :
    Pager.openWithPool { file := .empty, logs := [] } (.withCapacity capacity) =
      .ok state := by
  unfold createdWith at created
  cases result : Pager.openWithPool { file := .empty, logs := [] }
      (.withCapacity capacity) with
  | error error =>
      rw [result] at created
      cases created
  | ok opened =>
      rw [result] at created
      cases created
      rfl

/--
After a commit every staged page reads back as its last image, in the process and
after a reopen, exactly when each lies below the page count, is the header only
as the header's own image, and has no older image in the log.
-/
theorem commit_persists_iff
    {disk : Disk}
    {capacity : Nat}
    {state next : PagerState}
    {owned : Nat → Finset UInt32}
    {freeList : List (UInt32 × UInt32)}
    {actions : List (Nat × PagerAction)}
    {cluster : Cluster}
    {order : List UInt32}
    (opened : Pager.openWithPool disk (.withCapacity capacity) = .ok state)
    (run : Run Cluster.step Cluster.Solo (.opened state owned freeList) actions cluster)
    (enumerates :
      PagerState.Enumerates order ((cluster.pagers 0).dirtyPages.erase 0))
    (committed : (cluster.view 0).commit order = (.ok (), next)) :
    (∀ no image,
        (cluster.ledgers 0).staged no = some image →
          next.ReadsBack no image ∧ next.SurvivesReopen no image) ↔
      ∀ no image,
        (cluster.ledgers 0).staged no = some image →
          no < cluster.shared.metadata.pageCount ∧
            (no = 0 → image = encodeHeader cluster.shared.metadata) ∧
            (no ≠ 0 → ∀ offset,
              (cluster.pagers 0).walIndex.lookup no = some offset →
                (cluster.pagers 0).wal.readPageAt offset = some image) := by
  have images :=
    (Cluster.SoloImages.run run
      (Cluster.soloImages_opened (PagerState.openWithPool_spec opened) owned freeList)).images
  have coherent := images.coherent 0
  rcases PagerState.commit_spec coherent order with
    ⟨clean, -, -⟩ | ⟨after, result, done⟩ | ⟨error, after, no, result, -⟩
  · -- Nothing was staged, so both sides hold of nothing.
    have nothing : ∀ {no image}, (cluster.ledgers 0).staged no ≠ some image := by
      intro no image staging
      have listed := (@Cluster.Images.dirty _ images 0 no).mpr
        (Cluster.staged_ne_none staging)
      rw [show (cluster.pagers 0).dirtyPages = ∅ from clean] at listed
      exact absurd listed (Finset.notMem_empty no)
    exact ⟨fun _ _ _ staging => absurd staging nothing,
      fun _ _ _ staging => absurd staging nothing⟩
  · obtain rfl : after = next := (Prod.mk.inj (result.symm.trans committed)).2
    obtain ⟨nonempty, header⟩ := done.opens
    have listed :
        ∀ {no image},
          (cluster.ledgers 0).staged no = some image → no ≠ 0 → no ∈ order := by
      intro no image staging nonzero
      exact (images.listed_iff enumerates).mpr
        ⟨nonzero, Cluster.staged_ne_none staging⟩
    constructor
    · intro persists no image staging
      obtain ⟨inside, written⟩ :=
        (PagerState.survivesReopen_iff nonempty header no image).mp
          (persists no image staging).2
      rw [done.metadata] at inside
      exact ⟨inside, (PagerState.committed_page_iff coherent done (listed staging)
        (images.tracks.held staging)).mp written⟩
    · intro condition no image staging
      obtain ⟨inside, latest⟩ := condition no image staging
      have held := images.tracks.held staging
      have written :=
        (PagerState.committed_page_iff coherent done (listed staging) held).mpr latest
      refine ⟨PagerState.committed_readsBack done held inside written, ?_⟩
      refine (PagerState.survivesReopen_iff nonempty header no image).mpr ⟨?_, written⟩
      rw [done.metadata]
      exact inside
  · cases result.symm.trans committed

/-- With room for every page a written page survives. -/
theorem commit_persists_page :
    ∃ state cluster next image,
      Pager.openWithPool { file := .empty, logs := [] } (.withCapacity 4) = .ok state ∧
        Run Cluster.step Cluster.Solo (.opened state (fun _ => ∅) [])
          [(0, .allocPage), (0, .writePage 1 (filled 0xAA))] cluster ∧
        (cluster.view 0).commit [1] = (.ok (), next) ∧
        (cluster.ledgers 0).staged 1 = some image ∧
        next.ReadsBack 1 image ∧ next.SurvivesReopen 1 image := by
  have evaluated :
      ((createdWith 4).bind fun state =>
        (replay Cluster.step Cluster.Solo (.opened state (fun _ => ∅) [])
          [(0, .allocPage), (0, .writePage 1 (filled 0xAA))]).map fun cluster =>
            (((cluster.ledgers 0).staged 1).isSome,
              decide ((cluster.pagers 0).dirtyPages = {1} ∧
                (cluster.pagers 0).walIndex = [] ∧
                cluster.shared.metadata.pageCount = 2),
              ((cluster.view 0).commit [1]).1.toOption)) =
        some (true, true, some ()) := by
    decide +kernel
  obtain ⟨state, created, replayed⟩ := Option.bind_eq_some_iff.mp evaluated
  obtain ⟨cluster, result, values⟩ := Option.map_eq_some_iff.mp replayed
  simp only [Prod.mk.injEq, Option.isSome_iff_exists, decide_eq_true_eq] at values
  obtain ⟨⟨image, staged⟩, ⟨dirtyPages, walIndex, pageCount⟩, ok⟩ := values
  have opened := openWithPool_of_createdWith created
  have run := run_of_replay result
  have images :=
    (Cluster.SoloImages.run run
      (Cluster.soloImages_opened (PagerState.openWithPool_spec opened) _ _)).images
  have enumerates :
      PagerState.Enumerates [1] ((cluster.pagers 0).dirtyPages.erase 0) := by
    rw [dirtyPages]
    decide
  have only : ∀ {no found}, (cluster.ledgers 0).staged no = some found → no = 1 := by
    intro no found staging
    have listed := (@Cluster.Images.dirty _ images 0 no).mpr
      (Cluster.staged_ne_none staging)
    rw [dirtyPages] at listed
    exact Finset.mem_singleton.mp listed
  cases done : (cluster.view 0).commit [1] with
  | mk answer next =>
      rw [done] at ok
      cases answer with
      | error error => cases ok
      | ok _ =>
          have persists :=
            (commit_persists_iff opened run enumerates done).mpr fun no found staging => by
              obtain rfl := only staging
              rw [pageCount, walIndex]
              exact ⟨by decide, nofun, nofun⟩
          exact ⟨state, cluster, next, image, opened, run, done, staged,
            persists 1 image staged⟩

/-- Page 1 is evicted between two writes of it by the only other page. -/
def rewrittenPage : List (Nat × PagerAction) :=
  [(0, .allocPage), (0, .writePage 1 (filled 0xAA)), (0, .allocPage),
    (0, .writePage 1 (filled 0xBB))]

/-- The commit that follows keeps the image the page had when it was evicted. -/
theorem commit_keeps_evicted_image :
    ∃ state cluster next image,
      Pager.openWithPool { file := .empty, logs := [] } (.withCapacity 1) = .ok state ∧
        Run Cluster.step Cluster.Solo (.opened state (fun _ => ∅) []) rewrittenPage
          cluster ∧
        PagerState.Enumerates [1, 2] ((cluster.pagers 0).dirtyPages.erase 0) ∧
        (cluster.view 0).commit [1, 2] = (.ok (), next) ∧
        (cluster.ledgers 0).staged 1 = some image ∧
        ¬next.SurvivesReopen 1 image := by
  have evaluated :
      ((createdWith 1).bind fun state =>
        (replay Cluster.step Cluster.Solo (.opened state (fun _ => ∅) []) rewrittenPage).map
          fun cluster =>
            (((cluster.ledgers 0).staged 1).map fun image => image.slice 0 0,
              decide (PagerState.Enumerates [1, 2]
                ((cluster.pagers 0).dirtyPages.erase 0)),
              ((cluster.view 0).commit [1, 2]).1.toOption,
              (((cluster.view 0).commit [1, 2]).2.file.pages 1).slice 0 0)) =
        some (some 0xBB, true, some (), 0xAA) := by
    decide +kernel
  obtain ⟨state, created, replayed⟩ := Option.bind_eq_some_iff.mp evaluated
  obtain ⟨cluster, result, values⟩ := Option.map_eq_some_iff.mp replayed
  simp only [Prod.mk.injEq, Option.map_eq_some_iff, decide_eq_true_eq] at values
  obtain ⟨⟨image, staged, newByte⟩, enumerates, ok, oldByte⟩ := values
  have opened := openWithPool_of_createdWith created
  have run := run_of_replay result
  have images :=
    (Cluster.SoloImages.run run
      (Cluster.soloImages_opened (PagerState.openWithPool_spec opened) _ _)).images
  rcases PagerState.commit_spec (images.coherent 0) [1, 2] with
    ⟨clean, -, -⟩ | ⟨next, done, committed⟩ | ⟨error, next, no, done, -⟩
  · have clean : (cluster.pagers 0).dirtyPages = ∅ := clean
    rw [clean] at enumerates
    exact absurd enumerates (by decide)
  · refine ⟨state, cluster, next, image, opened, run, enumerates, done, staged, ?_⟩
    obtain ⟨nonempty, header⟩ := committed.opens
    rw [PagerState.survivesReopen_iff nonempty header]
    rintro ⟨-, same⟩
    rw [done, same, newByte] at oldByte
    exact absurd oldByte (by decide)
  · rw [done] at ok
    cases ok

end PrehniteDB
