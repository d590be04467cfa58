import PrehniteDB.Pager

namespace PrehniteDB

/-!
# What the pager operations can do

A page image can be cached, spilled to the log, or both.  Every operation moves
images between these places in one of a few ways.
-/

/-- The cached image of every page and whether it is dirty. -/
abbrev Residency := UInt32 → Option (Page × Bool)

/-- The cached images, frame identities left out. -/
def SharedPool.resident (pool : SharedPool) : Residency :=
  fun no => (pool.cached no).map fun entry => (entry.1.page, entry.2)

/-- The last image of every page in the open transaction's part of the log. -/
def Pager.spilled (pager : Pager) : UInt32 → Option Page :=
  fun no => WriteLog.lastWrite no pager.wal.appended

/-- The index names the last image of every page the log holds. -/
structure Pager.Coherent (pager : Pager) : Prop where
  wal : pager.wal.Unsealed
  indexed :
    ∀ {no offset},
      pager.walIndex.lookup no = some offset →
        offset < pager.wal.cursor ∧
          ∃ image, pager.wal.readPageAt offset = some image ∧ pager.spilled no = some image
  unindexed : ∀ {no}, pager.walIndex.lookup no = none → pager.spilled no = none

theorem Pager.coherent_fresh : Pager.fresh.Coherent where
  wal := .ofFresh
  indexed := nofun
  unindexed := fun _ => rfl

namespace PagerState

/-- The pool and the pager keep their books. -/
structure Coherent (state : PagerState) : Prop where
  pool : state.pool.WellFormed
  pager : state.toPager.Coherent

/-- How one admission of `page` as page `no` moves images. -/
inductive Moves
    (evictee : Option UInt32)
    (resident : Residency)
    (spilled : UInt32 → Option Page)
    (no : UInt32)
    (page : Page)
    (dirty : Bool) :
    Residency → (UInt32 → Option Page) → Prop where
  | replaced
      {old : Page}
      {wasDirty : Bool}
      (present : resident no = some (old, wasDirty)) :
      Moves evictee resident spilled no page dirty
        (Function.update resident no (some (page, wasDirty || dirty))) spilled
  | inserted
      (absent : resident no = none) :
      Moves evictee resident spilled no page dirty
        (Function.update resident no (some (page, dirty))) spilled
  | dropped
      {victim : UInt32}
      {image : Page}
      (absent : resident no = none)
      (present : resident victim = some (image, false)) :
      Moves evictee resident spilled no page dirty
        (Function.update (Function.update resident victim none) no (some (page, dirty)))
        spilled
  | stolen
      {victim : UInt32}
      {image : Page}
      (absent : resident no = none)
      (present : resident victim = some (image, true))
      (evicted : evictee = some victim) :
      Moves evictee resident spilled no page dirty
        (Function.update (Function.update resident victim none) no (some (page, dirty)))
        (Function.update spilled victim (some image))

/-- Only the pool, the log and its index changed. -/
structure Keeps (state next : PagerState) : Prop where
  file : next.file = state.file
  metadata : next.metadata = state.metadata
  dirtyPages : next.dirtyPages = state.dirtyPages
  allocatedPages : next.allocatedPages = state.allocatedPages
  pendingFreelist : next.pendingFreelist = state.pendingFreelist

theorem Keeps.refl (state : PagerState) : Keeps state state :=
  ⟨rfl, rfl, rfl, rfl, rfl⟩

/-- A step that moved no image. -/
structure Still (state next : PagerState) : Prop where
  coherent : next.Coherent
  keeps : Keeps state next
  resident : next.pool.resident = state.pool.resident
  spilled : next.spilled = state.spilled

/-- A page was admitted. -/
structure Admitted
    (state : PagerState)
    (no : UInt32)
    (page : Page)
    (dirty : Bool)
    (next : PagerState) : Prop where
  coherent : next.Coherent
  keeps : Keeps state next
  moves :
    Moves (state.pool.evictee no) state.pool.resident state.spilled no page dirty
      next.pool.resident next.spilled

section Admit

variable {state next : PagerState} {no : UInt32} {page : Page} {dirty : Bool}

theorem resident_update
    (cached : Cached)
    (no : UInt32)
    (entry : Option (Frame × Bool)) :
    (fun other =>
        (Function.update cached no entry other).map fun found => (found.1.page, found.2)) =
      Function.update
        (fun other => (cached other).map fun found => (found.1.page, found.2))
        no (entry.map fun found => (found.1.page, found.2)) := by
  funext other
  by_cases same : other = no
  · subst same
    rw [Function.update_self, Function.update_self]
  · rw [Function.update_of_ne same, Function.update_of_ne same]

theorem spill_coherent
    {pager : Pager}
    (coherent : pager.Coherent)
    (victim : UInt32)
    (image : Page) :
    Pager.Coherent { pager with
        wal := (pager.wal.appendPage victim image).2
        walIndex := (victim, pager.wal.cursor) :: pager.walIndex } ∧
      Pager.spilled { pager with
        wal := (pager.wal.appendPage victim image).2
        walIndex := (victim, pager.wal.cursor) :: pager.walIndex } =
        Function.update pager.spilled victim (some image) := by
  have spilled :
      Pager.spilled { pager with
        wal := (pager.wal.appendPage victim image).2
        walIndex := (victim, pager.wal.cursor) :: pager.walIndex } =
        Function.update pager.spilled victim (some image) := by
    funext other
    simp only [Pager.spilled, coherent.wal.appended_appendPage, WriteLog.lastWrite_snoc]
    by_cases same : other = victim
    · subst same
      rw [if_pos rfl, Function.update_self]
    · rw [if_neg (Ne.symm same), Function.update_of_ne same]
      rfl
  refine ⟨⟨coherent.wal.appendPage victim image, ?_, ?_⟩, spilled⟩
  · intro other offset found
    rw [spilled]
    by_cases same : other = victim
    · subst same
      simp only [List.lookup_cons_self, Option.some.injEq] at found
      subst found
      refine ⟨Nat.lt_succ_self _, image, coherent.wal.readPageAt_appendPage other image, ?_⟩
      rw [Function.update_self]
    · have notVictim : (other == victim) = false := beq_false_of_ne same
      simp only [List.lookup_cons, notVictim] at found
      obtain ⟨below, old, read, last⟩ := coherent.indexed found
      refine ⟨Nat.lt_succ_of_lt below, old, ?_, ?_⟩
      · exact (coherent.wal.readPageAt_appendPage_of_lt below victim image).trans read
      · rw [Function.update_of_ne same, last]
  · intro other found
    rw [spilled]
    by_cases same : other = victim
    · subst same
      simp only [List.lookup_cons_self, reduceCtorEq] at found
    · have notVictim : (other == victim) = false := beq_false_of_ne same
      simp only [List.lookup_cons, notVictim] at found
      rw [Function.update_of_ne same]
      exact coherent.unindexed found

/-- An admission either moves images or fails with every frame pinned. -/
theorem admit_spec
    (coherent : state.Coherent)
    (no : UInt32)
    (page : Page)
    (dirty : Bool) :
    (∃ frame next,
        state.admitPage no page dirty = (.ok frame, next) ∧
          frame.page = page ∧ Admitted state no page dirty next) ∨
      (∃ message next,
        state.admitPage no page dirty = (.error (.exhausted message), next) ∧
          state.pool.resident no = none ∧ Still state next) := by
  obtain ⟨wellFormed, result, answered, admission⟩ :=
    SharedPool.put_spec coherent.pool no page dirty
  cases put : state.pool.put no page dirty with
  | mk answer pool =>
      rw [put] at wellFormed answered admission
      simp only at wellFormed answered admission
      have frameNo : (state.pool.newFrame no page).no = no := rfl
      have nextResident :
          pool.resident =
            fun other => (pool.cached other).map fun entry => (entry.1.page, entry.2) :=
        rfl
      generalize pool.cached = cachedNext at admission nextResident
      cases admission with
      | @replaced old wasDirty present =>
          subst answered
          rw [resident_update] at nextResident
          refine .inl ⟨_, { state with pool := pool }, by simp only [admitPage, put]; rfl, rfl,
            ⟨wellFormed, coherent.pager⟩, ⟨rfl, rfl, rfl, rfl, rfl⟩, ?_⟩
          have wasPresent : state.pool.resident no = some (old.page, wasDirty) := by
            rw [frameNo] at present
            simp only [SharedPool.resident, present, Option.map_some]
          exact nextResident ▸ .replaced wasPresent
      | inserted absent =>
          subst answered
          rw [resident_update] at nextResident
          refine .inl ⟨_, { state with pool := pool }, by simp only [admitPage, put]; rfl, rfl,
            ⟨wellFormed, coherent.pager⟩, ⟨rfl, rfl, rfl, rfl, rfl⟩, ?_⟩
          have wasAbsent : state.pool.resident no = none := by
            rw [frameNo] at absent
            simp only [SharedPool.resident, absent, Option.map_none]
          exact nextResident ▸ .inserted wasAbsent
      | @evicted victim wasDirty absent present unpinned =>
          rw [resident_update, resident_update] at nextResident
          have wasAbsent : state.pool.resident no = none := by
            rw [frameNo] at absent
            simp only [SharedPool.resident, absent, Option.map_none]
          have wasPresent :
              state.pool.resident victim.no = some (victim.page, wasDirty) := by
            simp only [SharedPool.resident, present, Option.map_some]
          cases wasDirty with
          | false =>
              subst answered
              refine .inl ⟨_, { state with pool := pool }, by simp only [admitPage, put]; rfl, rfl,
                ⟨wellFormed, coherent.pager⟩, ⟨rfl, rfl, rfl, rfl, rfl⟩, ?_⟩
              exact nextResident ▸ .dropped wasAbsent wasPresent
          | true =>
              obtain ⟨pagerCoherent, nextSpilled⟩ :=
                spill_coherent coherent.pager victim.no victim.page
              have evicted : state.pool.evictee no = some victim.no :=
                SharedPool.evictee_of_put (by rw [put]; exact answered)
              simp only [if_true, Except.map] at answered
              subst answered
              refine .inl ⟨_, { state with
                pool := pool
                wal := (state.wal.appendPage victim.no victim.page).2
                walIndex := (victim.no, state.wal.cursor) :: state.walIndex },
                by simp only [admitPage, put]; rfl, rfl,
                ⟨wellFormed, pagerCoherent⟩, ⟨rfl, rfl, rfl, rfl, rfl⟩, ?_⟩
              exact nextResident ▸ nextSpilled ▸ .stolen wasAbsent wasPresent evicted
      | exhausted absent capacity =>
          subst answered
          have wasAbsent : state.pool.resident no = none := by
            rw [frameNo] at absent
            simp only [SharedPool.resident, absent, Option.map_none]
          exact .inr ⟨_, { state with pool := pool }, by simp only [admitPage, put]; rfl, wasAbsent,
            ⟨wellFormed, coherent.pager⟩, ⟨rfl, rfl, rfl, rfl, rfl⟩, nextResident, rfl⟩

end Admit

/-- Where `read_page` found the image of page `no`. -/
inductive Fetched
    (state : PagerState)
    (no : UInt32)
    (image : Page)
    (next : PagerState) : Prop where
  | cached
      {dirty : Bool}
      (present : state.pool.resident no = some (image, dirty))
      (still : Still state next)
  | unspilled
      (absent : state.pool.resident no = none)
      (inLog : state.spilled no = some image)
      (admitted : Admitted state no image true next)
  | fromFile
      (absent : state.pool.resident no = none)
      (notInLog : state.spilled no = none)
      (inside : no < state.metadata.pageCount)
      (same : image = state.file.pages no)
      (admitted : Admitted state no image false next)

section Operations

variable {state next : PagerState}

theorem resident_of_get
    {pool : SharedPool}
    {no : UInt32}
    {frame : Frame}
    (hit : (pool.get no).1 = some frame) :
    ∃ dirty, pool.resident no = some (frame.page, dirty) := by
  rw [SharedPool.get_frame] at hit
  obtain ⟨entry, present, rfl⟩ := Option.map_eq_some_iff.mp hit
  exact ⟨entry.2, by simp only [SharedPool.resident, present, Option.map_some]⟩

theorem resident_of_get_none
    {pool : SharedPool}
    {no : UInt32}
    (missed : (pool.get no).1 = none) :
    pool.resident no = none := by
  rw [SharedPool.get_frame, Option.map_eq_none_iff] at missed
  simp only [SharedPool.resident, missed, Option.map_none]

/-- Looking a page up moves no image. -/
theorem get_still
    (coherent : state.Coherent)
    (no : UInt32) :
    Still state { state with pool := (state.pool.get no).2 } where
  coherent := ⟨coherent.pool.get no, coherent.pager⟩
  keeps := ⟨rfl, rfl, rfl, rfl, rfl⟩
  resident := by
    funext other
    simp only [SharedPool.resident, SharedPool.get_cached]
  spilled := rfl

theorem readPage_fromFile
    {no : UInt32}
    (missed : state.pool.get no = (none, state.pool))
    (notIndexed : state.walIndex.lookup no = none)
    (inside : ¬state.metadata.pageCount ≤ no) :
    state.readPage no = state.admitPage no (state.file.pages no) false := by
  simp only [readPage, missed, notIndexed, if_neg inside]

/-- `read_page` returns the cached image, else the spilled one, else the file's. -/
theorem readPage_spec
    (coherent : state.Coherent)
    (no : UInt32) :
    (∃ frame next,
        state.readPage no = (.ok frame, next) ∧ Fetched state no frame.page next) ∨
      (∃ error next,
        state.readPage no = (.error error, next) ∧
          Still state next ∧
          state.pool.resident no = none ∧
          ((∃ message, error = .exhausted message) ∨
            (state.spilled no = none ∧ state.metadata.pageCount ≤ no))) := by
  have still := get_still coherent no
  cases hit : (state.pool.get no).1 with
  | some frame =>
      obtain ⟨dirty, present⟩ := resident_of_get hit
      refine .inl ⟨frame, { state with pool := (state.pool.get no).2 }, ?_,
        .cached present still⟩
      rw [readPage, ← Prod.eta (state.pool.get no), hit]
  | none =>
      have absent := resident_of_get_none hit
      have missed : state.pool.get no = (none, state.pool) :=
        Prod.ext hit (SharedPool.get_miss hit)
      cases found : state.walIndex.lookup no with
      | some offset =>
          obtain ⟨-, image, read, last⟩ := coherent.pager.indexed found
          have result : state.readPage no = state.admitPage no image true := by
            simp only [readPage, missed, found, read]
          rcases admit_spec coherent no image true with
            ⟨frame, next, admitted, rfl, moved⟩ | ⟨message, next, refused, -, unmoved⟩
          · exact .inl ⟨frame, next, result.trans admitted, .unspilled absent last moved⟩
          · exact .inr ⟨_, next, result.trans refused, unmoved, absent, .inl ⟨message, rfl⟩⟩
      | none =>
          have notInLog := coherent.pager.unindexed found
          by_cases outside : state.metadata.pageCount ≤ no
          · have result :
                state.readPage no =
                  (.error (.corruption
                    s!"read of page {no}, past the end of a {state.metadata.pageCount}-page database"),
                    state) := by
              simp only [readPage, missed, found, if_pos outside]
            have unmoved : Still state state := ⟨coherent, .refl state, rfl, rfl⟩
            exact .inr ⟨_, state, result, unmoved, absent, .inr ⟨notInLog, outside⟩⟩
          · have result := readPage_fromFile missed found outside
            have inside : no < state.metadata.pageCount := by
              simpa only [UInt32.not_le] using outside
            rcases admit_spec coherent no (state.file.pages no) false with
              ⟨frame, next, admitted, same, moved⟩ | ⟨message, next, refused, -, unmoved⟩
            · exact .inl ⟨frame, next, result.trans admitted,
                .fromFile absent notInLog inside same (same ▸ moved)⟩
            · exact .inr ⟨_, next, result.trans refused, unmoved, absent,
                .inl ⟨message, rfl⟩⟩

/-- A page was staged: its image is cached dirty and the page is noted. -/
structure Staged
    (state : PagerState)
    (no : UInt32)
    (page : Page)
    (next : PagerState) : Prop where
  coherent : next.Coherent
  file : next.file = state.file
  metadata : next.metadata = state.metadata
  dirtyPages : next.dirtyPages = insert no state.dirtyPages
  allocatedPages : next.allocatedPages = state.allocatedPages
  pendingFreelist : next.pendingFreelist = state.pendingFreelist
  moves :
    Moves (state.pool.evictee no) state.pool.resident state.spilled no page true
      next.pool.resident next.spilled

theorem writePage_spec
    (coherent : state.Coherent)
    (no : UInt32)
    (page : Page) :
    (∃ next, state.writePage no page = (.ok (), next) ∧ Staged state no page next) ∨
      (∃ message next,
        state.writePage no page = (.error (.exhausted message), next) ∧
          state.pool.resident no = none ∧ Still state next) := by
  rcases admit_spec coherent no page true with
    ⟨frame, next, admitted, -, moved⟩ | ⟨message, next, refused, absent, unmoved⟩
  · refine .inl ⟨{ next with dirtyPages := insert no next.dirtyPages }, ?_, ?_⟩
    · simp only [writePage, admitted]
    · exact {
        coherent := ⟨moved.coherent.pool, moved.coherent.pager.wal,
          moved.coherent.pager.indexed, moved.coherent.pager.unindexed⟩
        file := moved.keeps.file
        metadata := moved.keeps.metadata
        dirtyPages := congrArg (insert no) moved.keeps.dirtyPages
        allocatedPages := moved.keeps.allocatedPages
        pendingFreelist := moved.keeps.pendingFreelist
        moves := moved.moves }
  · exact .inr ⟨message, next, by simp only [writePage, refused], absent, unmoved⟩

/-- Nothing but the header and the list of rolled-back pages differs. -/
theorem Coherent.setHeader
    (coherent : state.Coherent)
    (metadata : Meta)
    (pending : List UInt32) :
    Coherent { state with metadata := metadata, pendingFreelist := pending } :=
  ⟨coherent.pool, coherent.pager.wal, coherent.pager.indexed, coherent.pager.unindexed⟩

/-- How `alloc_page` came by page `no`: the state it staged the zero page in. -/
inductive Obtained (state : PagerState) (no : UInt32) (ready : PagerState) : Prop where
  | pending
      {rest : List UInt32}
      (listed : state.pendingFreelist = rest ++ [no])
      (same : ready = { state with pendingFreelist := rest })
  | popped
      {image : Page}
      {read : PagerState}
      {metadata : Meta}
      (exhausted : state.pendingFreelist = [])
      (head : state.metadata.freelistHead = no)
      (nonzero : no ≠ 0)
      (cachedOrSpilled : state.pool.resident no ≠ none ∨ state.spilled no ≠ none)
      (fetched : Fetched state no image read)
      (header : metadata = { read.metadata with freelistHead := nextPointer image })
      (same : ready = { read with metadata := metadata })
  | bumped
      {metadata : Meta}
      (exhausted : state.pendingFreelist = [])
      (empty : state.metadata.freelistHead = 0)
      (count : state.metadata.pageCount = no)
      (header : metadata = { state.metadata with pageCount := no + 1 })
      (same : ready = { state with metadata := metadata })

/-- `alloc_page` returned page `no`. -/
structure Allocated (state : PagerState) (no : UInt32) (next : PagerState) : Prop where
  intro ::
  stages :
    ∃ ready staged,
      Obtained state no ready ∧
        Staged ready no zeroPage staged ∧
        next = { staged with allocatedPages := insert no staged.allocatedPages }

/-- How a failed `alloc_page` leaves the pager. -/
inductive AllocFailed (state next : PagerState) : Prop where
  | unread
      (still : Still state next)
  | unstaged
      {no : UInt32}
      {ready : PagerState}
      (obtained : Obtained state no ready)
      (notPopped : state.pendingFreelist ≠ [] ∨ state.metadata.freelistHead = 0)
      (still : Still ready next)

theorem obtained_coherent
    {no : UInt32}
    {ready : PagerState}
    (coherent : state.Coherent)
    (obtained : Obtained state no ready) :
    ready.Coherent := by
  cases obtained with
  | pending listed same =>
      subst same
      exact coherent.setHeader _ _
  | popped exhausted head nonzero cachedOrSpilled fetched header same =>
      subst same
      cases fetched with
      | cached present still => exact still.coherent.setHeader _ _
      | unspilled absent inLog admitted => exact admitted.coherent.setHeader _ _
      | fromFile absent notInLog inside same admitted =>
          exact admitted.coherent.setHeader _ _
  | bumped exhausted empty count header same =>
      subst same
      exact coherent.setHeader _ _

theorem Fetched.resident
    {no : UInt32}
    {image : Page}
    (fetched : Fetched state no image next) :
    next.pool.resident no ≠ none := by
  have installed :
      ∀ {dirty evictee after log} {resident : Residency} {spilled},
        Moves evictee resident spilled no image dirty after log →
          after no ≠ none := by
    intro dirty evictee after log resident spilled moves
    cases moves <;>
      · rw [Function.update_self]
        exact Option.some_ne_none _
  cases fetched with
  | cached present still =>
      rw [still.resident, present]
      exact Option.some_ne_none _
  | unspilled absent inLog admitted => exact installed admitted.moves
  | fromFile absent notInLog inside same admitted => exact installed admitted.moves

/-- A page popped off the free list is cached when it is staged. -/
theorem popped_resident
    {no : UInt32}
    {ready : PagerState}
    (obtained : Obtained state no ready)
    (exhausted : state.pendingFreelist = [])
    (nonzero : state.metadata.freelistHead ≠ 0) :
    ready.pool.resident no ≠ none := by
  cases obtained with
  | pending listed same =>
      rw [exhausted] at listed
      exact absurd listed.symm (List.append_ne_nil_of_right_ne_nil _ (List.cons_ne_nil _ _))
  | popped exhausted head nonzero cachedOrSpilled fetched header same =>
      subst same
      exact fetched.resident
  | bumped exhausted empty count header same => exact absurd empty nonzero

theorem stageAllocated_ok
    {no : UInt32}
    {staged : PagerState}
    (wrote : state.writePage no zeroPage = (.ok (), staged)) :
    state.stageAllocated no =
      (.ok no, { staged with allocatedPages := insert no staged.allocatedPages }) := by
  simp only [stageAllocated, wrote]

theorem stageAllocated_error
    {no : UInt32}
    {error : Error}
    (failed : state.writePage no zeroPage = (.error error, next)) :
    state.stageAllocated no = (.error error, next) := by
  simp only [stageAllocated, failed]

theorem allocPage_pending
    {rest : List UInt32}
    {no : UInt32}
    (listed : state.pendingFreelist = rest ++ [no]) :
    state.allocPage = some ({ state with pendingFreelist := rest }.stageAllocated no) := by
  have last : state.pendingFreelist.getLast? = some no := by
    rw [listed, List.getLast?_concat]
  have front : state.pendingFreelist.dropLast = rest := by
    rw [listed, List.dropLast_concat]
  simp only [allocPage, last, front]

theorem allocPage_bump
    (exhausted : state.pendingFreelist = [])
    (empty : state.metadata.freelistHead = 0) :
    state.allocPage =
      some ({ state with
        metadata := { state.metadata with
          pageCount := state.metadata.pageCount + 1 } }.stageAllocated
            state.metadata.pageCount) := by
  have last : state.pendingFreelist.getLast? = none := by
    rw [exhausted, List.getLast?_nil]
  have noHead : ¬state.metadata.freelistHead ≠ 0 := not_not_intro empty
  simp only [allocPage, last, if_neg noHead]

theorem allocPage_blocked
    (exhausted : state.pendingFreelist = [])
    (nonzero : state.metadata.freelistHead ≠ 0)
    (blocked : state.readsHeader state.metadata.freelistHead = true) :
    state.allocPage = none := by
  have last : state.pendingFreelist.getLast? = none := by
    rw [exhausted, List.getLast?_nil]
  simp only [allocPage, last, if_pos nonzero, if_pos blocked]

theorem allocPage_pop
    {frame : Frame}
    {read : PagerState}
    (exhausted : state.pendingFreelist = [])
    (nonzero : state.metadata.freelistHead ≠ 0)
    (free : state.readsHeader state.metadata.freelistHead = false)
    (readOk : state.readPage state.metadata.freelistHead = (.ok frame, read)) :
    state.allocPage =
      some ({ read with
        metadata := { read.metadata with
          freelistHead := nextPointer frame.page } }.stageAllocated
            state.metadata.freelistHead) := by
  have last : state.pendingFreelist.getLast? = none := by
    rw [exhausted, List.getLast?_nil]
  have notBlocked : ¬state.readsHeader state.metadata.freelistHead = true := by
    rw [free]
    exact Bool.false_ne_true
  simp only [allocPage, last, if_pos nonzero, if_neg notBlocked, readOk]

theorem allocPage_unread
    {error : Error}
    (exhausted : state.pendingFreelist = [])
    (nonzero : state.metadata.freelistHead ≠ 0)
    (free : state.readsHeader state.metadata.freelistHead = false)
    (failed : state.readPage state.metadata.freelistHead = (.error error, next)) :
    state.allocPage = some (.error error, next) := by
  have last : state.pendingFreelist.getLast? = none := by
    rw [exhausted, List.getLast?_nil]
  have notBlocked : ¬state.readsHeader state.metadata.freelistHead = true := by
    rw [free]
    exact Bool.false_ne_true
  simp only [allocPage, last, if_pos nonzero, if_neg notBlocked, failed]

theorem stageAllocated_spec
    {no : UInt32}
    {ready : PagerState}
    (coherent : state.Coherent)
    (obtained : Obtained state no ready)
    (result : state.allocPage = some (ready.stageAllocated no)) :
    (∃ next, state.allocPage = some (.ok no, next) ∧ Allocated state no next) ∨
      (∃ error next,
        state.allocPage = some (.error error, next) ∧
          ready.pool.resident no = none ∧ Still ready next) := by
  rcases writePage_spec (obtained_coherent coherent obtained) no zeroPage with
    ⟨staged, wrote, stages⟩ | ⟨message, next, refused, absent, still⟩
  · exact .inl ⟨_, result.trans (congrArg some (stageAllocated_ok wrote)),
      ⟨ready, staged, obtained, stages, rfl⟩⟩
  · exact .inr ⟨_, next, result.trans (congrArg some (stageAllocated_error refused)),
      absent, still⟩

/-- An allocated page comes from the free list, the head or the end. -/
theorem allocPage_spec (coherent : state.Coherent) :
    (∃ no next, state.allocPage = some (.ok no, next) ∧ Allocated state no next) ∨
      (∃ error next,
        state.allocPage = some (.error error, next) ∧ AllocFailed state next) ∨
      (state.allocPage = none ∧ state.pendingFreelist = [] ∧
        state.metadata.freelistHead ≠ 0 ∧
        state.pool.resident state.metadata.freelistHead = none ∧
        state.spilled state.metadata.freelistHead = none) := by
  rcases List.eq_nil_or_concat state.pendingFreelist with exhausted | ⟨rest, no, listed⟩
  · by_cases empty : state.metadata.freelistHead = 0
    · have obtained := Obtained.bumped exhausted empty rfl rfl rfl
      rcases stageAllocated_spec coherent obtained (allocPage_bump exhausted empty) with
        ⟨next, result, allocated⟩ | ⟨error, next, result, -, still⟩
      · exact .inl ⟨_, next, result, allocated⟩
      · exact .inr (.inl ⟨error, next, result, .unstaged obtained (.inr empty) still⟩)
    · cases header : state.readsHeader state.metadata.freelistHead with
      | true =>
          have result := allocPage_blocked exhausted empty header
          simp only [readsHeader, Bool.and_eq_true, Option.isNone_iff_eq_none] at header
          exact .inr (.inr ⟨result, exhausted, empty, resident_of_get_none header.1,
            coherent.pager.unindexed header.2⟩)
      | false =>
          have cachedOrSpilled :
              state.pool.resident state.metadata.freelistHead ≠ none ∨
                state.spilled state.metadata.freelistHead ≠ none := by
            simp only [readsHeader, Bool.and_eq_false_iff, Option.isNone_eq_false_iff,
              Option.isSome_iff_exists] at header
            rcases header with ⟨frame, hit⟩ | ⟨offset, found⟩
            · obtain ⟨dirty, present⟩ := resident_of_get hit
              exact .inl (present ▸ Option.some_ne_none _)
            · obtain ⟨-, image, -, last⟩ := coherent.pager.indexed found
              exact .inr (last ▸ Option.some_ne_none _)
          rcases readPage_spec coherent state.metadata.freelistHead with
            ⟨frame, read, readOk, fetched⟩ | ⟨error, next, failed, still, -, -⟩
          · have obtained :=
              Obtained.popped exhausted rfl empty cachedOrSpilled fetched rfl rfl
            rcases stageAllocated_spec coherent obtained
                (allocPage_pop exhausted empty header readOk) with
              ⟨next, result, allocated⟩ | ⟨error, next, -, absent, -⟩
            · exact .inl ⟨_, next, result, allocated⟩
            · exact absurd absent (popped_resident obtained exhausted empty)
          · exact .inr (.inl ⟨error, next,
              allocPage_unread exhausted empty header failed, .unread still⟩)
  · rw [List.concat_eq_append] at listed
    have obtained := Obtained.pending listed rfl
    have nonempty : state.pendingFreelist ≠ [] := by
      rw [listed]
      exact List.append_ne_nil_of_right_ne_nil _ (List.cons_ne_nil _ _)
    rcases stageAllocated_spec coherent obtained (allocPage_pending listed) with
      ⟨next, result, allocated⟩ | ⟨error, next, result, -, still⟩
    · exact .inl ⟨_, next, result, allocated⟩
    · exact .inr (.inl ⟨error, next, result, .unstaged obtained (.inl nonempty) still⟩)

/-- A freed page becomes the head of the list. -/
theorem freePage_spec
    (coherent : state.Coherent)
    (no : UInt32) :
    (∃ staged,
        state.freePage no =
          (.ok (), { staged with
            metadata := { staged.metadata with freelistHead := no } }) ∧
          Staged state no (linkPage state.metadata.freelistHead) staged) ∨
      (∃ error next, state.freePage no = (.error error, next) ∧ Still state next) := by
  rcases writePage_spec coherent no (linkPage state.metadata.freelistHead) with
    ⟨staged, wrote, stages⟩ | ⟨message, next, refused, -, still⟩
  · exact .inl ⟨staged, by simp only [freePage, wrote], stages⟩
  · exact .inr ⟨.exhausted message, next, by simp only [freePage, refused], still⟩

/-! ## Commit and rollback -/

/-- The records `flush` appends: the cached images of the pages that were not spilled. -/
def flushed (state : PagerState) (order : List UInt32) : List (UInt32 × Page) :=
  order.filterMap fun no =>
    if (state.walIndex.lookup no).isSome then none
    else (state.pool.resident no).map fun entry => (no, entry.1)

/-- The log a commit seals. -/
def commitLog (state : PagerState) (order : List UInt32) : List (UInt32 × Page) :=
  state.wal.appended ++ state.flushed order

/-- Only the clock bits of the pool and the log differ. -/
structure Flushed (state : PagerState) (order : List UInt32) (next : PagerState) : Prop where
  pool : next.pool.WellFormed
  wal : next.wal.Unsealed
  resident : next.pool.resident = state.pool.resident
  appended : next.wal.appended = state.commitLog order
  keeps : Keeps state next

/-- `flush` logs every dirty page or meets one that is neither cached nor spilled. -/
theorem flush_spec
    (pool : state.pool.WellFormed)
    (wal : state.wal.Unsealed)
    (order : List UInt32) :
    (∃ next, flush order state = (.ok (), next) ∧ Flushed state order next) ∨
      (∃ error next no,
        flush order state = (.error error, next) ∧ Keeps state next ∧ no ∈ order ∧
          state.walIndex.lookup no = none ∧ state.pool.resident no = none) := by
  induction order generalizing state with
  | nil =>
      refine .inl ⟨state, rfl, pool, wal, rfl, ?_, .refl state⟩
      simp [commitLog, flushed]
  | cons no rest inductionHypothesis =>
      cases found : state.walIndex.lookup no with
      | some offset =>
          have skip : flush (no :: rest) state = flush rest state := by
            simp only [flush, found]
          have same : state.commitLog (no :: rest) = state.commitLog rest := by
            simp only [commitLog, flushed, List.filterMap_cons, found, Option.isSome_some,
              if_true]
          rcases inductionHypothesis pool wal with
            ⟨next, result, done⟩ | ⟨error, next, missing, result, keeps, member, lost⟩
          · exact .inl ⟨next, skip.trans result, done.pool, done.wal, done.resident,
              done.appended.trans same.symm, done.keeps⟩
          · exact .inr ⟨error, next, missing, skip.trans result, keeps,
              List.mem_cons_of_mem _ member, lost⟩
      | none =>
          have wellFormed := pool.get no
          have moved : (state.pool.get no).2.resident = state.pool.resident := by
            funext other
            simp only [SharedPool.resident, SharedPool.get_cached]
          cases looked : state.pool.get no with
          | mk hit looking =>
          rw [looked] at wellFormed moved
          cases hit with
          | none =>
              have result :
                  flush (no :: rest) state =
                    (.error (.corruption
                      s!"dirty page {no} vanished from pool without WAL spill"),
                      { state with pool := looking }) := by
                simp only [flush, found, looked]
              exact .inr ⟨_, _, no, result, ⟨rfl, rfl, rfl, rfl, rfl⟩, List.mem_cons_self,
                found, resident_of_get_none (congrArg Prod.fst looked)⟩
          | some frame =>
              obtain ⟨dirty, present⟩ := resident_of_get (congrArg Prod.fst looked)
              have step :
                  flush (no :: rest) state =
                    flush rest { state with
                      pool := looking
                      wal := (state.wal.appendPage no frame.page).2 } := by
                simp only [flush, found, looked]
              have log :
                  commitLog { state with
                      pool := looking
                      wal := (state.wal.appendPage no frame.page).2 } rest =
                    state.commitLog (no :: rest) := by
                simp only at moved
                simp only [commitLog, flushed, wal.appended_appendPage, moved,
                  List.filterMap_cons, found, Option.isSome_none, Bool.false_eq_true,
                  if_false, present, Option.map_some, List.append_assoc,
                  List.singleton_append]
              rcases @inductionHypothesis { state with
                  pool := looking
                  wal := (state.wal.appendPage no frame.page).2 }
                  wellFormed (wal.appendPage no frame.page) with
                ⟨next, result, done⟩ | ⟨error, next, missing, result, keeps, member, lost, gone⟩
              · exact .inl ⟨next, step.trans result, done.pool, done.wal,
                  done.resident.trans moved, done.appended.trans log,
                  ⟨done.keeps.file, done.keeps.metadata, done.keeps.dirtyPages,
                    done.keeps.allocatedPages, done.keeps.pendingFreelist⟩⟩
              · refine .inr ⟨error, next, missing, step.trans result,
                  ⟨keeps.file, keeps.metadata, keeps.dirtyPages, keeps.allocatedPages,
                    keeps.pendingFreelist⟩, List.mem_cons_of_mem _ member, lost, ?_⟩
                exact moved ▸ gone

/-- What a commit that had something to do leaves. -/
structure Committed (state : PagerState) (order : List UInt32) (next : PagerState) : Prop where
  pool : next.pool.WellFormed
  resident :
    next.pool.resident = fun no =>
      if no ∈ order then (state.pool.resident no).map fun entry => (entry.1, false)
      else state.pool.resident no
  file :
    next.file =
      (state.file.writeAll (state.commitLog order)).writePage 0 (encodeHeader state.metadata)
  metadata : next.metadata = state.metadata
  wal : next.wal = .fresh
  walIndex : next.walIndex = []
  dirtyPages : next.dirtyPages = ∅
  allocatedPages : next.allocatedPages = ∅
  pendingFreelist : next.pendingFreelist = state.pendingFreelist

/-- `commit` has nothing to do, writes its log to the file, or misses a dirty page. -/
theorem commit_spec
    (coherent : state.Coherent)
    (order : List UInt32) :
    (state.dirtyPages = ∅ ∧ state.walIndex = [] ∧
        state.commit order = (.ok (), state)) ∨
      (∃ next, state.commit order = (.ok (), next) ∧ Committed state order next) ∨
      (∃ error next no,
        state.commit order = (.error error, next) ∧ next.file = state.file ∧ no ∈ order ∧
          state.spilled no = none ∧ state.pool.resident no = none) := by
  by_cases idle : state.dirtyPages = ∅ ∧ state.walIndex = []
  · exact .inl ⟨idle.1, idle.2, by simp only [commit, if_pos idle]⟩
  · right
    rcases @flush_spec { state with dirtyPages := state.dirtyPages.erase 0 }
        coherent.pool coherent.pager.wal order with
      ⟨next, result, done⟩ | ⟨error, next, no, result, keeps, member, lost, gone⟩
    · refine .inl ⟨_, by simp only [commit, if_neg idle, result]; rfl, ?_⟩
      obtain ⟨wellFormed, cleaned⟩ := SharedPool.markClean_spec done.pool order
      exact {
        pool := wellFormed
        resident := by
          funext no
          simp only [SharedPool.resident, cleaned]
          have sameResident := congrFun done.resident no
          simp only [SharedPool.resident] at sameResident
          by_cases member : no ∈ order
          · rw [if_pos member, if_pos member, ← sameResident, Option.map_map, Option.map_map]
            rfl
          · rw [if_neg member, if_neg member, sameResident]
        file := by
          simp only [done.wal.apply_seal, done.appended, done.keeps.file, done.keeps.metadata]
          rfl
        metadata := done.keeps.metadata
        wal := rfl
        walIndex := rfl
        dirtyPages := rfl
        allocatedPages := rfl
        pendingFreelist := done.keeps.pendingFreelist }
    · exact .inr ⟨error, next, no, by simp only [commit, if_neg idle, result], keeps.file,
        member, coherent.pager.unindexed lost, gone⟩

theorem lastWrite_flushed
    (state : PagerState)
    (order : List UInt32)
    (no : UInt32) :
    WriteLog.lastWrite no (state.flushed order) =
      if no ∈ order ∧ state.walIndex.lookup no = none then
        (state.pool.resident no).map Prod.fst
      else none := by
  induction order with
  | nil => simp [flushed]
  | cons first rest inductionHypothesis =>
      have unfolded :
          state.flushed (first :: rest) =
            (if (state.walIndex.lookup first).isSome then []
              else ((state.pool.resident first).map fun entry => (first, entry.1)).toList) ++
              state.flushed rest := by
        simp only [flushed, List.filterMap_cons]
        cases (state.walIndex.lookup first).isSome
        · cases state.pool.resident first <;> rfl
        · rfl
      rw [unfolded, WriteLog.lastWrite_append, inductionHypothesis]
      by_cases same : first = no
      · subst same
        cases found : state.walIndex.lookup first with
        | some offset => simp
        | none =>
            cases present : state.pool.resident first with
            | none => simp
            | some entry => by_cases again : first ∈ rest <;> simp [WriteLog.lastWrite, again]
      · have other :
            WriteLog.lastWrite no
                (if (state.walIndex.lookup first).isSome then []
                  else ((state.pool.resident first).map fun entry =>
                    (first, entry.1)).toList) = none := by
          split
          · rfl
          · cases state.pool.resident first <;> simp [WriteLog.lastWrite, same]
        have member : no ∈ first :: rest ↔ no ∈ rest := by
          simp [Ne.symm same]
        simp only [other, Option.or_none, member]

theorem Committed.coherent
    {order : List UInt32}
    (committed : Committed state order next) :
    next.Coherent where
  pool := committed.pool
  pager := {
    wal := committed.wal ▸ .ofFresh
    indexed := by
      rw [committed.walIndex]
      nofun
    unindexed := by
      intro no _
      rw [Pager.spilled, committed.wal]
      rfl }

theorem Committed.spilled
    {order : List UInt32}
    (committed : Committed state order next) :
    next.spilled = fun _ => none := by
  funext no
  rw [Pager.spilled, committed.wal]
  rfl

theorem Committed.page
    {order : List UInt32}
    (coherent : state.Coherent)
    (committed : Committed state order next)
    (no : UInt32) :
    next.file.pages no =
      if no = 0 then encodeHeader state.metadata
      else
        match state.spilled no with
        | some image => image
        | none =>
            if no ∈ order then
              match state.pool.resident no with
              | some entry => entry.1
              | none => state.file.pages no
            else state.file.pages no := by
  rw [committed.file, DbFile.writePage_pages, DbFile.writeAll_pages]
  by_cases header : no = 0
  · rw [if_pos header, header, Function.update_self]
  · rw [if_neg header, Function.update_of_ne header, WriteLog.replay_apply, commitLog,
      WriteLog.lastWrite_append]
    rw [lastWrite_flushed]
    cases found : state.walIndex.lookup no with
    | some offset =>
        obtain ⟨-, image, -, last⟩ := coherent.pager.indexed found
        rw [if_neg (fun both => nomatch both.2), last]
        simp only [Pager.spilled] at last
        rw [last]
        rfl
    | none =>
        have notInLog := coherent.pager.unindexed found
        rw [notInLog]
        simp only [Pager.spilled] at notInLog
        rw [notInLog]
        by_cases member : no ∈ order
        · rw [if_pos ⟨member, rfl⟩]
          dsimp only
          rw [if_pos member]
          cases state.pool.resident no <;> rfl
        · rw [if_neg (fun both => member both.1)]
          dsimp only
          rw [if_neg member]
          rfl

/-- A rollback drops the frames it is given. -/
theorem rollback_spec
    (coherent : state.Coherent)
    (dropOrder drainOrder : List UInt32) :
    (state.rollback dropOrder drainOrder).Coherent ∧
      (state.rollback dropOrder drainOrder).pool.resident =
        (fun no => if no ∈ dropOrder then none else state.pool.resident no) ∧
      (state.rollback dropOrder drainOrder).spilled = fun _ => none := by
  obtain ⟨wellFormed, dropped⟩ := SharedPool.dropPages_spec coherent.pool dropOrder
  refine ⟨⟨wellFormed, ⟨coherent.pager.wal.discard, nofun, fun _ => rfl⟩⟩, ?_, rfl⟩
  funext no
  change ((state.pool.dropPages dropOrder).cached no).map _ = _
  rw [dropped]
  dsimp only
  by_cases member : no ∈ dropOrder
  · rw [if_pos member, if_pos member, Option.map_none]
  · rw [if_neg member, if_neg member]
    rfl

end Operations

end PagerState

end PrehniteDB
