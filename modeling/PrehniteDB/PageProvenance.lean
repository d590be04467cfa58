import PrehniteDB.CommitCrash

namespace PrehniteDB

/-!
# Where a page image comes from

One pager and the statement it runs.  A dirty frame or a spilled image is one the
statement has staged; a clean frame and the file hold images that were there
before it or that an earlier commit has written.  The header page stands apart.
-/

/-- Page images by page number. -/
abbrev PageImages := Set (UInt32 × Page)

/-- Dirty and spilled images are the statement's own, clean ones are settled. -/
structure Provenance
    (settled own : PageImages)
    (resident : Residency)
    (spilled : UInt32 → Option Page) : Prop where
  dirty : ∀ {no image}, no ≠ 0 → resident no = some (image, true) → (no, image) ∈ own
  clean : ∀ {no image}, no ≠ 0 → resident no = some (image, false) → (no, image) ∈ settled
  spilled : ∀ {no image}, no ≠ 0 → spilled no = some image → (no, image) ∈ own

namespace Provenance

variable
  {settled own : PageImages}
  {resident : Residency}
  {spilled : UInt32 → Option Page}

/-- A statement that has staged more. -/
theorem mono
    (provenance : Provenance settled own resident spilled)
    {more : PageImages}
    (grows : own ⊆ more) :
    Provenance settled more resident spilled where
  dirty nonzero cached := grows (provenance.dirty nonzero cached)
  clean := provenance.clean
  spilled nonzero inLog := grows (provenance.spilled nonzero inLog)

theorem cached
    (provenance : Provenance settled own resident spilled)
    {no : UInt32}
    {image : Page}
    {dirty : Bool}
    (nonzero : no ≠ 0)
    (present : resident no = some (image, dirty)) :
    (no, image) ∈ settled ∨ (no, image) ∈ own := by
  cases dirty with
  | true => exact .inr (provenance.dirty nonzero present)
  | false => exact .inl (provenance.clean nonzero present)

theorem install
    (provenance : Provenance settled own resident spilled)
    {no : UInt32}
    {page : Page}
    {dirty : Bool}
    (origin : no ≠ 0 → if dirty then (no, page) ∈ own else (no, page) ∈ settled) :
    Provenance settled own (Function.update resident no (some (page, dirty))) spilled where
  dirty := by
    intro other image nonzero present
    by_cases same : other = no
    · subst same
      rw [Function.update_self, Option.some.injEq, Prod.mk.injEq] at present
      obtain ⟨rfl, rfl⟩ := present
      simpa using origin nonzero
    · rw [Function.update_of_ne same] at present
      exact provenance.dirty nonzero present
  clean := by
    intro other image nonzero present
    by_cases same : other = no
    · subst same
      rw [Function.update_self, Option.some.injEq, Prod.mk.injEq] at present
      obtain ⟨rfl, rfl⟩ := present
      simpa using origin nonzero
    · rw [Function.update_of_ne same] at present
      exact provenance.clean nonzero present
  spilled := provenance.spilled

/-- Dropping a frame. -/
theorem evict
    (provenance : Provenance settled own resident spilled)
    (victim : UInt32) :
    Provenance settled own (Function.update resident victim none) spilled where
  dirty := by
    intro other image nonzero present
    by_cases same : other = victim
    · subst same
      rw [Function.update_self] at present
      cases present
    · rw [Function.update_of_ne same] at present
      exact provenance.dirty nonzero present
  clean := by
    intro other image nonzero present
    by_cases same : other = victim
    · subst same
      rw [Function.update_self] at present
      cases present
    · rw [Function.update_of_ne same] at present
      exact provenance.clean nonzero present
  spilled := provenance.spilled

/-- A dirty frame goes to the log. -/
theorem spill
    (provenance : Provenance settled own resident spilled)
    {victim : UInt32}
    {image : Page}
    (present : resident victim = some (image, true)) :
    Provenance settled own resident (Function.update spilled victim (some image)) where
  dirty := provenance.dirty
  clean := provenance.clean
  spilled := by
    intro other found nonzero inLog
    by_cases same : other = victim
    · subst same
      rw [Function.update_self, Option.some.injEq] at inLog
      exact inLog ▸ provenance.dirty nonzero present
    · rw [Function.update_of_ne same] at inLog
      exact provenance.spilled nonzero inLog

/-- Admitting a page of the right kind; a clean page is admitted only when it is not cached. -/
theorem moves
    (provenance : Provenance settled own resident spilled)
    {evictee : Option UInt32}
    {no : UInt32}
    {page : Page}
    {dirty : Bool}
    {residentNext : Residency}
    {spilledNext : UInt32 → Option Page}
    (moves :
      PagerState.Moves evictee resident spilled no page dirty residentNext spilledNext)
    (origin : no ≠ 0 → if dirty then (no, page) ∈ own else (no, page) ∈ settled)
    (missed : dirty = false → resident no = none) :
    Provenance settled own residentNext spilledNext := by
  cases moves with
  | @replaced old wasDirty present =>
      cases dirty with
      | true =>
          rw [Bool.or_true]
          exact provenance.install origin
      | false =>
          rw [missed rfl] at present
          cases present
  | inserted absent => exact provenance.install origin
  | dropped absent present => exact (provenance.evict _).install origin
  | stolen absent present evicted => exact ((provenance.spill present).evict _).install origin

end Provenance

namespace Cluster

/-- What the statement of the only pager has staged, and what was there before it. -/
structure Sourced (cluster : Cluster) (settled own : PageImages) : Prop where
  solo : SoloImages cluster
  held : Provenance settled own cluster.shared.pool.resident (cluster.pagers 0).spilled
  file : ∀ no, no ≠ 0 → (no, cluster.shared.file.pages no) ∈ settled
  staged : ∀ {no image}, (cluster.ledgers 0).staged no = some image → (no, image) ∈ own

variable {cluster next : Cluster} {settled own : PageImages}

/-- The images staged after a step, beside those staged before it. -/
def stagedToo (own : PageImages) (next : Cluster) : PageImages :=
  own ∪ {write | (next.ledgers 0).staged write.1 = some write.2}

theorem Sourced.mono
    (sourced : Sourced cluster settled own)
    {more : PageImages}
    (grows : own ⊆ more) :
    Sourced cluster settled more where
  solo := sourced.solo
  held := sourced.held.mono grows
  file := sourced.file
  staged staging := grows (sourced.staged staging)

/-- A read brings in an image of the log or of the file. -/
theorem Sourced.fetched
    (sourced : Sourced cluster settled own)
    {no : UInt32}
    {image : Page}
    {state : PagerState}
    (fetched : PagerState.Fetched (cluster.view 0) no image state) :
    Provenance settled own state.pool.resident state.spilled := by
  cases fetched with
  | cached present still =>
      rw [still.resident, still.spilled]
      exact sourced.held
  | unspilled absent inLog admitted =>
      exact sourced.held.moves admitted.moves
        (fun nonzero => sourced.held.spilled nonzero inLog) nofun
  | fromFile absent notInLog inside same admitted =>
      exact sourced.held.moves admitted.moves
        (fun nonzero => by
          rw [same]
          exact sourced.file no nonzero)
        fun _ => absent

theorem staged_provenance
    {ready state : PagerState}
    {no : UInt32}
    {page : Page}
    (stages : PagerState.Staged ready no page state)
    (held : Provenance settled own ready.pool.resident ready.spilled)
    (listed : (no, page) ∈ own) :
    Provenance settled own state.pool.resident state.spilled :=
  held.moves stages.moves (fun _ => listed) nofun

/-- A read returns a settled image or one of the statement's own. -/
theorem Sourced.reads
    (sourced : Sourced cluster settled own)
    {no : UInt32}
    {frame : Frame}
    (nonzero : no ≠ 0)
    (read : ((cluster.view 0).readPage no).1 = .ok frame) :
    (no, frame.page) ∈ settled ∨ (no, frame.page) ∈ own := by
  rcases PagerState.readPage_spec (sourced.solo.images.coherent 0) no with
    ⟨found, state, result, fetched⟩ | ⟨error, state, result, -⟩
  · rw [result] at read
    obtain rfl := Except.ok.inj read
    cases fetched with
    | cached present still => exact sourced.held.cached nonzero present
    | unspilled absent inLog admitted => exact .inr (sourced.held.spilled nonzero inLog)
    | fromFile absent notInLog inside same admitted =>
        rw [same]
        exact .inl (sourced.file no nonzero)
  · rw [result] at read
    cases read

/-- The executor's operations: neither a commit nor a rollback. -/
def Executes : PagerAction → Prop
  | .commit _ | .rollback _ _ => False
  | _ => True

instance (action : PagerAction) : Decidable (Executes action) := by
  cases action <;> unfold Executes <;> infer_instance

/-- What an operation of the executor does to cached and spilled images. -/
theorem Sourced.held_effect
    (sourced : Sourced cluster settled own)
    {action : PagerAction}
    (executes : Executes action)
    (effect : Effect cluster 0 action next) :
    Provenance settled (stagedToo own next) next.shared.pool.resident
      (next.pagers 0).spilled := by
  have held := sourced.held.mono (Set.subset_union_left : own ⊆ stagedToo own next)
  have wider := sourced.mono (Set.subset_union_left : own ⊆ stagedToo own next)
  have listed :
      ∀ {no page}, (next.ledgers 0).staged no = some page → (no, page) ∈ stagedToo own next :=
    fun staging => .inr staging
  cases effect with
  | still still =>
      simp only [set, Function.update_self]
      rw [still.resident, still.spilled]
      exact held
  | fetched fetched =>
      simp only [set, Function.update_self]
      exact wider.fetched fetched
  | @staged no page state stages =>
      have here := @listed no page (by simp [set, Ledger.stage])
      simp only [set, Function.update_self]
      exact staged_provenance stages held here
  | @allocated no state allocated =>
      have here := @listed no zeroPage (by simp [set, Ledger.stage, Ledger.take])
      obtain ⟨ready, staged, obtained, stages, rfl⟩ := allocated
      simp only [set, Function.update_self]
      refine staged_provenance stages ?_ here
      cases obtained with
      | pending listed same =>
          subst same
          exact held
      | popped exhausted head nonzero cachedOrSpilled fetched header same =>
          subst same
          have read := wider.fetched fetched
          exact read
      | bumped exhausted empty count header same =>
          subst same
          exact held
  | allocFailed failed =>
      simp only [set, Function.update_self]
      cases failed with
      | unread still =>
          rw [still.resident, still.spilled]
          exact held
      | unstaged obtained notPopped still =>
          rw [still.resident, still.spilled]
          cases obtained with
          | pending listed same =>
              subst same
              exact held
          | popped exhausted head nonzero cachedOrSpilled fetched header same =>
              subst same
              have read := wider.fetched fetched
              exact read
          | bumped exhausted empty count header same =>
              subst same
              exact held
  | @freed no state stages =>
      have here := @listed no (linkPage cluster.shared.metadata.freelistHead)
        (by simp [set, Ledger.stage, Ledger.release])
      simp only [set, Function.update_self]
      exact staged_provenance stages held here
  | idleCommit clean unspilled => exact absurd executes id
  | committed enumerates committed => exact absurd executes id
  | vanished enumerates file listed unspilled absent => exact absurd executes id
  | rolledBack drops drains => exact absurd executes id
  | header pageCount freelistHead =>
      simp only [set, Function.update_self]
      exact held

/-- An operation of the executor. -/
theorem Sourced.execute
    (sourced : Sourced cluster settled own)
    {action : PagerAction}
    (executes : Executes action)
    (taken : cluster.step (0, action) = some next) :
    Sourced next settled (stagedToo own next) := by
  have effect := step_effect (sourced.solo.images.coherent 0) taken
  have own : Solo cluster (0, action) := rfl
  refine ⟨sourced.solo.step own taken, sourced.held_effect executes effect, ?_,
    fun staging => .inr staging⟩
  have same : next.shared.file = cluster.shared.file := by
    cases effect with
    | still still => exact still.keeps.file
    | fetched fetched => exact (fetched_keeps fetched).2.file
    | staged stages => exact stages.file
    | allocated allocated =>
        obtain ⟨ready, staged, obtained, stages, rfl⟩ := allocated
        refine stages.file.trans ?_
        cases obtained with
        | pending listed same => exact same ▸ rfl
        | popped exhausted head nonzero cachedOrSpilled fetched header same =>
            subst same
            exact (fetched_keeps fetched).2.file
        | bumped exhausted empty count header same => exact same ▸ rfl
    | allocFailed failed =>
        cases failed with
        | unread still => exact still.keeps.file
        | unstaged obtained notPopped still =>
            refine still.keeps.file.trans ?_
            cases obtained with
            | pending listed same => exact same ▸ rfl
            | popped exhausted head nonzero cachedOrSpilled fetched header same =>
                subst same
                exact (fetched_keeps fetched).2.file
            | bumped exhausted empty count header same => exact same ▸ rfl
    | freed stages => exact stages.file
    | idleCommit clean unspilled => exact absurd executes id
    | committed enumerates committed => exact absurd executes id
    | vanished enumerates file listed unspilled absent => exact absurd executes id
    | rolledBack drops drains => exact absurd executes id
    | header pageCount freelistHead => rfl
  rw [same]
  exact sourced.file

/-- Once nothing is staged only the header frame can be dirty. -/
theorem Sourced.cleared
    {resident : Residency}
    {more : PageImages}
    (images : Images next)
    (unstaged : (next.ledgers 0).staged = fun _ => none)
    (others : ∀ who, who ≠ 0 → next.staged who = fun _ => none)
    (here : next.shared.pool.resident = resident)
    (clean : ∀ {no image}, no ≠ 0 → resident no = some (image, false) → (no, image) ∈ more) :
    Provenance more ∅ next.shared.pool.resident (next.pagers 0).spilled := by
  have nobody : ∀ who no, next.staged who no = none := by
    intro who no
    by_cases first : who = 0
    · subst first
      exact congrFun unstaged no
    · exact congrFun (others who first) no
  constructor
  · intro no image nonzero present
    cases images.tracks.clean nonzero (fun who => nobody who no) present
  · intro no image nonzero present
    exact clean nonzero (here ▸ present)
  · intro no image nonzero inLog
    have absent : (next.pagers 0).spilled no = none :=
      images.tracks.unspilled nonzero (nobody 0 no)
    rw [absent] at inLog
    cases inLog

/-- A statement that has staged nothing. -/
theorem Sourced.done
    (sourced : Sourced cluster settled own)
    (unstaged : (cluster.ledgers 0).staged = fun _ => none) :
    Sourced cluster (settled ∪ own) ∅ := by
  refine ⟨sourced.solo,
    Sourced.cleared sourced.solo.images unstaged sourced.solo.others rfl ?_, ?_, ?_⟩
  · exact fun nonzero present => .inl (sourced.held.clean nonzero present)
  · exact fun no nonzero => .inl (sourced.file no nonzero)
  · intro no image staging
    rw [unstaged] at staging
    cases staging

theorem Sourced.setNextTxId
    (sourced : Sourced cluster settled own)
    {id : UInt64}
    (taken : cluster.step (0, .setNextTxId id) = some next) :
    Sourced next settled own ∧ next.ledgers 0 = cluster.ledgers 0 := by
  have mine : Solo cluster (0, .setNextTxId id) := rfl
  have solo := sourced.solo.step mine taken
  obtain rfl := Option.some.inj taken
  have ledger :
      (cluster.set 0 ((cluster.view 0).setNextTxId id) (cluster.ledgers 0)).ledgers 0 =
        cluster.ledgers 0 := by
    simp [set]
  refine ⟨⟨solo, ?_, sourced.file, ?_⟩, ledger⟩
  · simp only [set, Function.update_self]
    exact sourced.held
  · rw [ledger]
    exact sourced.staged

theorem Sourced.rollback
    (sourced : Sourced cluster settled own)
    {dropOrder drainOrder : List UInt32}
    (taken : cluster.step (0, .rollback dropOrder drainOrder) = some next) :
    Sourced next settled ∅ ∧ (next.ledgers 0).staged = fun _ => none := by
  have mine : Solo cluster (0, .rollback dropOrder drainOrder) := rfl
  have solo := sourced.solo.step mine taken
  simp only [step] at taken
  split_ifs at taken with orders
  obtain rfl := Option.some.inj taken
  obtain ⟨coherent, resident, spilled⟩ :=
    PagerState.rollback_spec (sourced.solo.images.coherent 0) dropOrder drainOrder
  have unstaged :
      ((cluster.set 0 ((cluster.view 0).rollback dropOrder drainOrder)
        (cluster.ledgers 0).rollback).ledgers 0).staged = fun _ => none := by
    simp [set, Ledger.rollback]
  refine ⟨⟨solo, Sourced.cleared solo.images unstaged solo.others resident ?_, sourced.file, ?_⟩,
    unstaged⟩
  · intro no image nonzero present
    split_ifs at present
    exact sourced.held.clean nonzero present
  · intro no image staging
    rw [unstaged] at staging
    cases staging

theorem Sourced.committed_page
    (sourced : Sourced cluster settled own)
    {order : List UInt32}
    {state : PagerState}
    (enumerates : PagerState.Enumerates order ((cluster.pagers 0).dirtyPages.erase 0))
    (committed : PagerState.Committed (cluster.view 0) order state)
    {no : UInt32}
    (nonzero : no ≠ 0) :
    ((cluster.ledgers 0).staged no = none → state.file.pages no = cluster.shared.file.pages no) ∧
      ((cluster.ledgers 0).staged no ≠ none → (no, state.file.pages no) ∈ own) := by
  have images := sourced.solo.images
  rw [committed.page (images.coherent 0) no, if_neg nonzero]
  constructor
  · intro unstaged
    have notListed : no ∉ order := fun member =>
      (images.listed_iff enumerates |>.mp member).2 unstaged
    have absent : (cluster.view 0).spilled no = none := images.tracks.unspilled nonzero unstaged
    rw [absent]
    simp only [if_neg notListed]
    rfl
  · intro staged
    have listed : no ∈ order := (images.listed_iff enumerates).mpr ⟨nonzero, staged⟩
    obtain ⟨image, staging⟩ := Option.ne_none_iff_exists'.mp staged
    cases inLog : (cluster.view 0).spilled no with
    | some older => exact sourced.held.spilled nonzero inLog
    | none =>
        rcases images.tracks.held staging with cached | ⟨-, spilled⟩
        · have cached : (cluster.view 0).pool.resident no = some (image, true) := cached
          simp only [if_pos listed, cached]
          exact sourced.staged staging
        · have spilled : (cluster.view 0).spilled no = some image := spilled
          rw [inLog] at spilled
          cases spilled

theorem Sourced.commit_result
    (sourced : Sourced cluster settled own)
    {order : List UInt32}
    (enumerates : PagerState.Enumerates order ((cluster.pagers 0).dirtyPages.erase 0)) :
    ((cluster.view 0).Idle ∧ (cluster.view 0).commit order = (.ok (), cluster.view 0)) ∨
      ∃ state, (cluster.view 0).commit order = (.ok (), state) ∧
        PagerState.Committed (cluster.view 0) order state := by
  have images := sourced.solo.images
  rcases PagerState.commit_spec (images.coherent 0) order with
    ⟨clean, unspilled, result⟩ | done | ⟨error, state, no, result, -, listed, lost, gone⟩
  · exact .inl ⟨⟨clean, unspilled⟩, result⟩
  · exact .inr done
  · rcases images.found (images.listed_iff enumerates |>.mp listed).2 with inLog | cached
    · exact absurd lost inLog
    · exact absurd gone cached

theorem Sourced.commit
    (sourced : Sourced cluster settled own)
    {order : List UInt32}
    (taken : cluster.step (0, .commit order) = some next) :
    ((cluster.view 0).commit order).1 = .ok () ∧ Sourced next (settled ∪ own) ∅ ∧
      (next.ledgers 0).staged = fun _ => none := by
  have mine : Solo cluster (0, .commit order) := rfl
  have solo := sourced.solo.step mine taken
  simp only [step] at taken
  split_ifs at taken with enumerates
  rcases sourced.commit_result enumerates with ⟨idle, result⟩ | ⟨state, result, committed⟩
  · rw [result] at taken ⊢
    obtain rfl := Option.some.inj taken
    have unstaged :
        ((cluster.set 0 (cluster.view 0) (cluster.ledgers 0).commit).ledgers 0).staged =
          fun _ => none := by
      simp [set, Ledger.commit]
    refine ⟨rfl, ⟨solo, Sourced.cleared solo.images unstaged solo.others rfl ?_, ?_, ?_⟩,
      unstaged⟩
    · exact fun nonzero present => .inl (sourced.held.clean nonzero present)
    · exact fun no nonzero => .inl (sourced.file no nonzero)
    · intro no image staging
      rw [unstaged] at staging
      cases staging
  · rw [result] at taken ⊢
    obtain rfl := Option.some.inj taken
    have unstaged :
        ((cluster.set 0 state (cluster.ledgers 0).commit).ledgers 0).staged = fun _ => none := by
      simp [set, Ledger.commit]
    refine ⟨rfl, ⟨solo, Sourced.cleared solo.images unstaged solo.others committed.resident ?_,
      ?_, ?_⟩, unstaged⟩
    · intro no image nonzero present
      split_ifs at present with listed
      · obtain ⟨⟨kept, dirty⟩, cached, same⟩ := Option.map_eq_some_iff.mp present
        cases same
        exact sourced.held.cached nonzero cached
      · exact .inl (sourced.held.clean nonzero present)
    · intro no nonzero
      obtain ⟨unchanged, written⟩ := sourced.committed_page enumerates committed nonzero
      by_cases staged : (cluster.ledgers 0).staged no = none
      · have same := unchanged staged
        change (no, state.file.pages no) ∈ _
        rw [same]
        exact .inl (sourced.file no nonzero)
      · exact .inr (written staged)
    · intro no image staging
      rw [unstaged] at staging
      cases staging

/-- A crash after `count` writes of a commit leaves every page as it was, or exactly the pages
the statement has staged changed, to images of its own. -/
def CommitsOwn (cluster : Cluster) (own : PageImages) (order : List UInt32) (count : Nat) : Prop :=
  let disk := (cluster.view 0).crashAfter order count
  let recovered := recoverLogs disk.logs disk.file
  (∀ no, no ≠ 0 → recovered.pages no = cluster.shared.file.pages no) ∨
    ∀ no, no ≠ 0 →
      ((cluster.ledgers 0).staged no = none →
          recovered.pages no = cluster.shared.file.pages no) ∧
        ((cluster.ledgers 0).staged no ≠ none → (no, recovered.pages no) ∈ own)

theorem Sourced.commitsOwn_idle
    (sourced : Sourced cluster settled own)
    (idle : (cluster.view 0).Idle)
    (order : List UInt32)
    (count : Nat) :
    cluster.CommitsOwn own order count := by
  have coherent := sourced.solo.images.coherent 0
  have nothing : (cluster.view 0).commitWrites order = [] := by
    rw [PagerState.commitWrites, if_pos idle]
  left
  intro no nonzero
  simp only [PagerState.crashAfter, nothing, List.take_nil, Media.performAll, Media.crashed,
    PagerState.media]
  rw [recoverLogs_unsealed coherent.pager.wal.scan_false]
  rfl

theorem Sourced.commitsOwn
    (sourced : Sourced cluster settled own)
    {order : List UInt32}
    (enumerates : PagerState.Enumerates order ((cluster.pagers 0).dirtyPages.erase 0))
    (count : Nat) :
    cluster.CommitsOwn own order count := by
  have coherent := sourced.solo.images.coherent 0
  rcases sourced.commit_result enumerates with ⟨idle, -⟩ | ⟨state, -, committed⟩
  · exact sourced.commitsOwn_idle idle order count
  · by_cases idle : (cluster.view 0).Idle
    · exact sourced.commitsOwn_idle idle order count
    · have page := fun no (nonzero : no ≠ 0) =>
        sourced.committed_page enumerates committed nonzero
      by_cases early : count ≤ ((cluster.view 0).flushed order).length
      · left
        intro no _
        rw [PagerState.recovered_unsealed coherent early idle]
        rfl
      · right
        by_cases unfinished : count < ((cluster.view 0).commitWrites order).length
        · have replayed :=
            PagerState.recovered_sealed coherent idle (Nat.lt_of_not_le early) unfinished
          intro no nonzero
          have same : state.file.pages no =
              WriteLog.replay ((cluster.view 0).commitLog order) (cluster.view 0).file.pages no := by
            rw [committed.file, DbFile.writePage_pages, Function.update_of_ne nonzero,
              DbFile.writeAll_pages]
          rw [replayed no, if_neg nonzero, ← same]
          exact page no nonzero
        · intro no nonzero
          have whole : (cluster.view 0).crashAfter order count = state.media.crashed := by
            rw [PagerState.crashAfter, List.take_of_length_le (Nat.le_of_not_lt unfinished),
              PagerState.commitWrites_perform coherent idle committed]
          have recovered : recoverLogs state.media.crashed.logs state.media.crashed.file =
              state.file := by
            simp only [Media.crashed, PagerState.media]
            rw [recoverLogs_unsealed committed.coherent.pager.wal.scan_false]
          rw [whole, recovered]
          exact page no nonzero

end Cluster

end PrehniteDB
