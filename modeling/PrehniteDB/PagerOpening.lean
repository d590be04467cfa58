import PrehniteDB.StagedImages

namespace PrehniteDB

/-!
# Opening and reopening a file

A freshly opened pager has nothing staged and an empty cache but for the header,
and its first read of a page returns what the file holds.
-/

namespace SharedPool

variable {capacity : Nat}

theorem withCapacity_room (capacity shard : Nat) :
    ∃ room, 0 < room ∧ (withCapacity capacity).shards shard = .new room := by
  refine ⟨_, ?_, rfl⟩
  have shards : 0 < min (max capacity 1) POOL_SHARDS := by
    simp only [POOL_SHARDS]
    omega
  have share : 0 < max capacity 1 / min (max capacity 1) POOL_SHARDS :=
    Nat.div_pos (Nat.min_le_left _ _) shards
  omega

/-- A new pool admits its first page and evicts nothing. -/
theorem put_withCapacity
    (capacity : Nat)
    (no : UInt32)
    (page : Page)
    (dirty : Bool) :
    ((withCapacity capacity).put no page dirty).1 =
      .ok ((withCapacity capacity).newFrame no page, none) := by
  obtain ⟨room, positive, empty⟩ :=
    withCapacity_room capacity ((withCapacity capacity).shardOf no)
  have admitted :
      ∀ frame, ((BufferPool.new room).put (withCapacity capacity).handles frame dirty).1 =
        .ok none := by
    intro frame
    have absent : (BufferPool.new room).index frame.no = none := rfl
    rw [BufferPool.put_room _ dirty absent positive]
  calc ((withCapacity capacity).put no page dirty).1
      = (((withCapacity capacity).shards ((withCapacity capacity).shardOf no)).put
          (withCapacity capacity).handles ((withCapacity capacity).newFrame no page)
          dirty).1.map ((withCapacity capacity).newFrame no page, ·) := rfl
    _ = .ok ((withCapacity capacity).newFrame no page, none) := by
        rw [empty, admitted]
        rfl

end SharedPool

namespace PagerState

/-- What a closed pager leaves: `drop` empties and deletes its log. -/
def close (state : PagerState) : Disk where
  file := state.file
  logs := []

/-- A pager over a file whose header it has just decoded. -/
def reopened (file : DbFile) (metadata : Meta) (capacity : Nat) : PagerState where
  file := file
  metadata := metadata
  pool := .withCapacity capacity
  toPager := .fresh

theorem reopened_coherent (file : DbFile) (metadata : Meta) (capacity : Nat) :
    (reopened file metadata capacity).Coherent :=
  ⟨SharedPool.wellFormed_withCapacity capacity, Pager.coherent_fresh⟩

theorem openWithPool_file
    {file : DbFile}
    {metadata : Meta}
    (capacity : Nat)
    (nonempty : file.length ≠ 0)
    (header : decodeHeader (file.pages 0) = .ok metadata) :
    Pager.openWithPool { file := file, logs := [] } (.withCapacity capacity) =
      .ok (reopened file metadata capacity) := by
  simp only [Pager.openWithPool, recoverLogs, if_neg nonempty, header]
  rfl

/-- An admission that evicts nothing returns the new frame. -/
theorem admit_answer
    {state : PagerState}
    {no : UInt32}
    {page : Page}
    {dirty : Bool}
    {frame : Frame}
    (admitted : (state.pool.put no page dirty).1 = .ok (frame, none)) :
    (state.admitPage no page dirty).1 = .ok frame := by
  cases put : state.pool.put no page dirty with
  | mk answer pool =>
      rw [put] at admitted
      simp only at admitted
      subst admitted
      simp only [admitPage, put]

theorem readPage_reopened
    (file : DbFile)
    (metadata : Meta)
    (capacity : Nat)
    {no : UInt32}
    (inside : no < metadata.pageCount) :
    ∃ frame,
      ((reopened file metadata capacity).readPage no).1 = .ok frame ∧
        frame.page = file.pages no := by
  have coherent := reopened_coherent file metadata capacity
  rcases readPage_spec coherent no with
    ⟨frame, next, result, fetched⟩ | ⟨error, next, result, -, -, -⟩
  · refine ⟨frame, by rw [result], ?_⟩
    cases fetched with
    | cached present still => cases present
    | unspilled absent inLog admitted => cases inLog
    | fromFile absent notInLog below same admitted => exact same
  · have missed : (SharedPool.withCapacity capacity).get no =
        (none, .withCapacity capacity) :=
      Prod.ext (SharedPool.get_frame _ no) (SharedPool.get_miss (SharedPool.get_frame _ no))
    have admitted := SharedPool.put_withCapacity capacity no (file.pages no) false
    have notPast : ¬metadata.pageCount ≤ no := UInt32.not_le.mpr inside
    have read :
        ((reopened file metadata capacity).readPage no).1 =
          .ok ((SharedPool.withCapacity capacity).newFrame no (file.pages no)) := by
      have fromFile :
          (reopened file metadata capacity).readPage no =
            (reopened file metadata capacity).admitPage no (file.pages no) false :=
        readPage_fromFile missed rfl notPast
      rw [fromFile]
      exact admit_answer admitted
    rw [result] at read
    cases read

theorem readPage_reopened_past
    (file : DbFile)
    (metadata : Meta)
    (capacity : Nat)
    {no : UInt32}
    (past : metadata.pageCount ≤ no)
    (frame : Frame) :
    ((reopened file metadata capacity).readPage no).1 ≠ .ok frame := by
  intro result
  rcases readPage_spec (reopened_coherent file metadata capacity) no with
    ⟨other, next, -, fetched⟩ | ⟨error, next, failed, -⟩
  · cases fetched with
    | cached present still => cases present
    | unspilled absent inLog admitted => cases inLog
    | fromFile absent notInLog below same admitted =>
        exact absurd past (UInt32.not_le.mpr below)
  · rw [failed] at result
    cases result

theorem Committed.opens
    {state next : PagerState}
    {order : List UInt32}
    (committed : Committed state order next) :
    next.file.length ≠ 0 ∧ decodeHeader (next.file.pages 0) = .ok next.metadata := by
  rw [committed.file, DbFile.writePage_pages, Function.update_self, committed.metadata]
  exact ⟨DbFile.writePage_nonempty _ _ _, decodeHeader_encodeHeader _⟩

/-- What a successful open leaves. -/
structure Opened (state : PagerState) : Prop where
  pager : state.toPager = .fresh
  pool : state.pool.WellFormed
  onlyHeader : ∀ no, no ≠ 0 → state.pool.resident no = none
  nonempty : state.file.length ≠ 0
  header : decodeHeader (state.file.pages 0) = .ok state.metadata

/-- What a pager finds in a file it opens. -/
theorem openWithPool_spec
    {disk : Disk}
    {capacity : Nat}
    {state : PagerState}
    (opened : Pager.openWithPool disk (.withCapacity capacity) = .ok state) :
    Opened state := by
  unfold Pager.openWithPool at opened
  dsimp only at opened
  split at opened
  · -- A brand-new file: the header was staged and committed.
    split at opened
    · cases opened
    · next written wrote =>
        split at opened
        · cases opened
        · next committed flushed =>
            cases opened
            rcases writePage_spec (reopened_coherent _ initialMeta capacity) 0
                (encodeHeader initialMeta) with
              ⟨staged, result, stages⟩ | ⟨message, next, result, -, -⟩
            · obtain rfl : staged = written :=
                (Prod.mk.inj (result.symm.trans wrote)).2
              rcases commit_spec stages.coherent [] with
                ⟨clean, -, -⟩ | ⟨next, done, leaves⟩ | ⟨error, next, no, -, -, listed, -⟩
              · rw [stages.dirtyPages] at clean
                exact absurd clean (Finset.insert_ne_empty _ _)
              · obtain rfl : next = state := (Prod.mk.inj (done.symm.trans flushed)).2
                exact {
                  pager := by
                    have wal := leaves.wal
                    have walIndex := leaves.walIndex
                    have dirtyPages := leaves.dirtyPages
                    have allocatedPages := leaves.allocatedPages
                    have pendingFreelist :=
                      leaves.pendingFreelist.trans stages.pendingFreelist
                    obtain ⟨shared, pager⟩ := next
                    obtain ⟨_, _, _, _, _⟩ := pager
                    simp only at wal walIndex dirtyPages allocatedPages pendingFreelist
                    subst wal walIndex dirtyPages allocatedPages pendingFreelist
                    rfl
                  pool := leaves.pool
                  onlyHeader := by
                    intro no different
                    rw [leaves.resident]
                    simp only [List.not_mem_nil, if_false]
                    have moves := stages.moves
                    generalize staged.pool.resident = residentNext at moves ⊢
                    generalize staged.spilled = spilledNext at moves
                    cases moves with
                    | replaced present => cases present
                    | inserted absent =>
                        rw [Function.update_of_ne different]
                        rfl
                    | dropped absent present => cases present
                    | stolen absent present evicted => cases present
                  nonempty := leaves.opens.1
                  header := leaves.opens.2 }
              · cases listed
            · cases result.symm.trans wrote
  · next nonempty =>
      split at opened
      · cases opened
      · next metadata header =>
          cases opened
          exact {
            pager := rfl
            pool := SharedPool.wellFormed_withCapacity capacity
            onlyHeader := fun _ _ => rfl
            nonempty := nonempty
            header := header }

end PagerState

namespace Cluster

/-- Every pager of a freshly opened file has staged nothing. -/
theorem images_opened
    {state : PagerState}
    (opened : state.Opened)
    (owned : Nat → Finset UInt32)
    (freeList : List (UInt32 × UInt32)) :
    Images (Cluster.opened state owned freeList) := by
  have fresh :
      ∀ who, (Cluster.opened state owned freeList).pagers who = .fresh := by
    intro who
    by_cases first : who = 0
    · subst first
      simp only [Cluster.opened, Function.update_self, opened.pager]
    · simp only [Cluster.opened, Function.update_of_ne first]
  exact {
    pool := opened.pool
    pagers := by
      intro who
      rw [fresh]
      exact Pager.coherent_fresh
    tracks := {
      held := nofun
      alone := fun staging => absurd rfl staging
      clean := by
        intro no image dirty nonzero _ cached
        have empty := opened.onlyHeader no nonzero
        rw [show (Cluster.opened state owned freeList).shared.pool.resident no = none
          from empty] at cached
        cases cached
      unspilled := by
        intro who no _ _
        rw [spilled, fresh]
        rfl }
    dirty := by
      intro who no
      rw [fresh]
      simp [staged, Cluster.opened, Pager.fresh] }

/-- An operation leaves the other pagers and their ledgers alone. -/
theorem effect_others
    {cluster next : Cluster}
    {who other : Nat}
    {action : PagerAction}
    (effect : Effect cluster who action next)
    (different : other ≠ who) :
    next.pagers other = cluster.pagers other ∧ next.ledgers other = cluster.ledgers other := by
  cases effect <;>
    exact ⟨Function.update_of_ne different _ _, Function.update_of_ne different _ _⟩

end Cluster

end PrehniteDB
