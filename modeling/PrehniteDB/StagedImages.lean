import PrehniteDB.PagerCluster

namespace PrehniteDB

/-!
# Where staged images are

As long as no pager admits a page a peer has staged, nor evicts one, the last
image of a staged page is cached dirty, or it is spilled to its own pager's log
and not cached.
-/

/-- Every staged image can be found, and nothing else is dirty or spilled. -/
structure Tracks
    (staged spilled : Nat → UInt32 → Option Page)
    (resident : Residency) : Prop where
  held :
    ∀ {who no image},
      staged who no = some image →
        resident no = some (image, true) ∨
          (resident no = none ∧ spilled who no = some image)
  alone :
    ∀ {who other no}, staged who no ≠ none → staged other no ≠ none → who = other
  clean :
    ∀ {no image dirty},
      no ≠ 0 →
      (∀ who, staged who no = none) →
      resident no = some (image, dirty) →
      dirty = false
  unspilled :
    ∀ {who no}, no ≠ 0 → staged who no = none → spilled who no = none

/-- No peer of `who` has staged page `no`. -/
def Apart (staged : Nat → UInt32 → Option Page) (who : Nat) (no : UInt32) : Prop :=
  ∀ other, other ≠ who → staged other no = none

namespace Tracks

variable
  {staged spilled : Nat → UInt32 → Option Page}
  {resident : Residency}
  {who : Nat}
  {no victim : UInt32}
  {page image : Page}
  {dirty : Bool}

/-- A clean frame is no staged image, so it can be dropped. -/
theorem drop
    (tracks : Tracks staged spilled resident)
    (present : resident victim = some (image, false)) :
    Tracks staged spilled (Function.update resident victim none) where
  held := by
    intro other no staging here
    rcases tracks.held here with cached | ⟨absent, inLog⟩
    · by_cases same : no = victim
      · rw [same, present] at cached
        cases cached
      · exact .inl ((Function.update_of_ne same _ _).trans cached)
    · by_cases same : no = victim
      · rw [same, present] at absent
        cases absent
      · exact .inr ⟨(Function.update_of_ne same _ _).trans absent, inLog⟩
  alone := tracks.alone
  clean := by
    intro no staging wasDirty nonzero unstaged cached
    by_cases same : no = victim
    · rw [same, Function.update_self] at cached
      cases cached
    · exact tracks.clean nonzero unstaged
        ((Function.update_of_ne same _ _).symm.trans cached)
  unspilled := tracks.unspilled

/-- Evicting a dirty frame no peer staged spills it to the log of the pager that wrote it. -/
theorem steal
    (tracks : Tracks staged spilled resident)
    (present : resident victim = some (image, true))
    (apart : Apart staged who victim) :
    Tracks staged
      (Function.update spilled who (Function.update (spilled who) victim (some image)))
      (Function.update resident victim none) where
  held := by
    intro other no staging here
    by_cases same : no = victim
    · subst same
      have own : other = who := by
        by_contra different
        rw [apart other different] at here
        cases here
      subst own
      rcases tracks.held here with cached | ⟨absent, -⟩
      · rw [present] at cached
        cases cached
        refine .inr ⟨Function.update_self _ _ _, ?_⟩
        rw [Function.update_self, Function.update_self]
      · rw [present] at absent
        cases absent
    · rcases tracks.held here with cached | ⟨absent, inLog⟩
      · exact .inl ((Function.update_of_ne same _ _).trans cached)
      · refine .inr ⟨(Function.update_of_ne same _ _).trans absent, ?_⟩
        by_cases own : other = who
        · subst own
          rw [Function.update_self, Function.update_of_ne same, inLog]
        · rw [Function.update_of_ne own, inLog]
  alone := tracks.alone
  clean := by
    intro no staging wasDirty nonzero unstaged cached
    by_cases same : no = victim
    · rw [same, Function.update_self] at cached
      cases cached
    · exact tracks.clean nonzero unstaged
        ((Function.update_of_ne same _ _).symm.trans cached)
  unspilled := by
    intro other no nonzero unstaged
    by_cases own : other = who
    · subst own
      rw [Function.update_self]
      by_cases same : no = victim
      · subst same
        have nobody : ∀ peer, staged peer no = none := by
          intro peer
          by_cases isOwn : peer = other
          · rw [isOwn, unstaged]
          · exact apart peer isOwn
        cases tracks.clean nonzero nobody present
      · rw [Function.update_of_ne same]
        exact tracks.unspilled nonzero unstaged
    · rw [Function.update_of_ne own]
      exact tracks.unspilled nonzero unstaged

theorem install
    (tracks : Tracks staged spilled resident)
    (apart : Apart staged who no) :
    Tracks (Function.update staged who (Function.update (staged who) no (some page)))
      spilled (Function.update resident no (some (page, true))) where
  held := by
    intro other number staging here
    by_cases same : number = no
    · subst same
      by_cases own : other = who
      · subst own
        rw [Function.update_self, Function.update_self] at here
        cases here
        exact .inl (Function.update_self _ _ _)
      · rw [Function.update_of_ne own, apart other own] at here
        cases here
    · have before : staged other number = some staging := by
        by_cases own : other = who
        · subst own
          rwa [Function.update_self, Function.update_of_ne same] at here
        · rwa [Function.update_of_ne own] at here
      rw [Function.update_of_ne same]
      exact tracks.held before
  alone := by
    intro first second number one two
    have before :
        ∀ {peer},
          Function.update staged who (Function.update (staged who) no (some page))
              peer number ≠ none →
            peer = who ∨ (number ≠ no ∧ staged peer number ≠ none) := by
      intro peer staging
      by_cases own : peer = who
      · exact .inl own
      · rw [Function.update_of_ne own] at staging
        refine .inr ⟨?_, staging⟩
        rintro rfl
        exact staging (apart peer own)
    have back :
        ∀ {peer},
          peer = who → number ≠ no →
          Function.update staged who (Function.update (staged who) no (some page))
              peer number ≠ none →
            staged peer number ≠ none := by
      rintro peer rfl different staging
      rwa [Function.update_self, Function.update_of_ne different] at staging
    rcases before one with firstOwn | ⟨different, firstStaged⟩
    · rcases before two with secondOwn | ⟨different, secondStaged⟩
      · exact firstOwn.trans secondOwn.symm
      · exact tracks.alone (back firstOwn different one) secondStaged
    · rcases before two with secondOwn | ⟨-, secondStaged⟩
      · exact tracks.alone firstStaged (back secondOwn different two)
      · exact tracks.alone firstStaged secondStaged
  clean := by
    intro number staging wasDirty nonzero unstaged cached
    by_cases same : number = no
    · subst same
      have own := unstaged who
      rw [Function.update_self, Function.update_self] at own
      cases own
    · rw [Function.update_of_ne same] at cached
      refine tracks.clean nonzero (fun peer => ?_) cached
      have later := unstaged peer
      by_cases own : peer = who
      · subst own
        rwa [Function.update_self, Function.update_of_ne same] at later
      · rwa [Function.update_of_ne own] at later
  unspilled := by
    intro other number nonzero unstaged
    refine tracks.unspilled nonzero ?_
    by_cases own : other = who
    · subst own
      rw [Function.update_self] at unstaged
      by_cases same : number = no
      · rw [same, Function.update_self] at unstaged
        cases unstaged
      · rwa [Function.update_of_ne same] at unstaged
    · rwa [Function.update_of_ne own] at unstaged

/-- Reading a spilled page back installs the spilled image dirty. -/
theorem reload
    (tracks : Tracks staged spilled resident)
    (absent : resident no = none)
    (inLog : spilled who no = some image)
    (apart : Apart staged who no) :
    Tracks staged spilled (Function.update resident no (some (image, true))) where
  held := by
    intro other number staging here
    by_cases same : number = no
    · subst same
      have own : other = who := by
        by_contra different
        rw [apart other different] at here
        cases here
      subst own
      rcases tracks.held here with cached | ⟨-, last⟩
      · rw [absent] at cached
        cases cached
      · rw [inLog] at last
        cases last
        exact .inl (Function.update_self _ _ _)
    · rw [Function.update_of_ne same]
      exact tracks.held here
  alone := tracks.alone
  clean := by
    intro number staging wasDirty nonzero unstaged cached
    by_cases same : number = no
    · subst same
      rw [tracks.unspilled nonzero (unstaged who)] at inLog
      cases inLog
    · rw [Function.update_of_ne same] at cached
      exact tracks.clean nonzero unstaged cached
  unspilled := tracks.unspilled

/-- Reading a page nobody staged installs it clean. -/
theorem load
    (tracks : Tracks staged spilled resident)
    (absent : resident no = none)
    (notInLog : spilled who no = none)
    (apart : Apart staged who no) :
    Tracks staged spilled (Function.update resident no (some (image, false))) where
  held := by
    intro other number staging here
    by_cases same : number = no
    · subst same
      have own : other = who := by
        by_contra different
        rw [apart other different] at here
        cases here
      subst own
      rcases tracks.held here with cached | ⟨-, last⟩
      · rw [absent] at cached
        cases cached
      · rw [notInLog] at last
        cases last
    · rw [Function.update_of_ne same]
      exact tracks.held here
  alone := tracks.alone
  clean := by
    intro number staging wasDirty nonzero unstaged cached
    by_cases same : number = no
    · subst same
      rw [Function.update_self] at cached
      cases cached
      rfl
    · rw [Function.update_of_ne same] at cached
      exact tracks.clean nonzero unstaged cached
  unspilled := tracks.unspilled

/-- A commit cleans the frames of the pages it wrote. -/
theorem commit
    (tracks : Tracks staged spilled resident)
    {order : List UInt32}
    (lists : ∀ {no}, no ∈ order ↔ no ≠ 0 ∧ staged who no ≠ none) :
    Tracks (Function.update staged who fun _ => none)
      (Function.update spilled who fun _ => none)
      (fun no =>
        if no ∈ order then (resident no).map fun entry => (entry.1, false)
        else resident no) where
  held := by
    intro other number staging here
    by_cases own : other = who
    · rw [own, Function.update_self] at here
      cases here
    · rw [Function.update_of_ne own] at here
      have notListed : number ∉ order := by
        intro member
        exact own (tracks.alone (here ▸ Option.some_ne_none _) (lists.mp member).2)
      rw [if_neg notListed, Function.update_of_ne own]
      exact tracks.held here
  alone := by
    intro first second number one two
    have back :
        ∀ {peer},
          Function.update staged who (fun _ => none) peer number ≠ none →
            staged peer number ≠ none := by
      intro peer staging
      by_cases own : peer = who
      · rw [own, Function.update_self] at staging
        exact absurd rfl staging
      · rwa [Function.update_of_ne own] at staging
    exact tracks.alone (back one) (back two)
  clean := by
    intro number staging wasDirty nonzero unstaged cached
    by_cases member : number ∈ order
    · rw [if_pos member] at cached
      obtain ⟨entry, -, same⟩ := Option.map_eq_some_iff.mp cached
      cases same
      rfl
    · rw [if_neg member] at cached
      refine tracks.clean nonzero (fun peer => ?_) cached
      by_cases own : peer = who
      · by_contra staging
        exact member (lists.mpr ⟨nonzero, own ▸ staging⟩)
      · have later := unstaged peer
        rwa [Function.update_of_ne own] at later
  unspilled := by
    intro other number nonzero unstaged
    by_cases own : other = who
    · rw [own, Function.update_self]
    · rw [Function.update_of_ne own] at unstaged ⊢
      exact tracks.unspilled nonzero unstaged

/-- A rollback drops the frames of the pages it wrote. -/
theorem rollback
    (tracks : Tracks staged spilled resident)
    {order : List UInt32}
    (lists : ∀ {no}, no ∈ order ↔ staged who no ≠ none) :
    Tracks (Function.update staged who fun _ => none)
      (Function.update spilled who fun _ => none)
      (fun no => if no ∈ order then none else resident no) where
  held := by
    intro other number staging here
    by_cases own : other = who
    · rw [own, Function.update_self] at here
      cases here
    · rw [Function.update_of_ne own] at here
      have notListed : number ∉ order := by
        intro member
        exact own (tracks.alone (here ▸ Option.some_ne_none _) (lists.mp member))
      rw [if_neg notListed, Function.update_of_ne own]
      exact tracks.held here
  alone := by
    intro first second number one two
    have back :
        ∀ {peer},
          Function.update staged who (fun _ => none) peer number ≠ none →
            staged peer number ≠ none := by
      intro peer staging
      by_cases own : peer = who
      · rw [own, Function.update_self] at staging
        exact absurd rfl staging
      · rwa [Function.update_of_ne own] at staging
    exact tracks.alone (back one) (back two)
  clean := by
    intro number staging wasDirty nonzero unstaged cached
    by_cases member : number ∈ order
    · rw [if_pos member] at cached
      cases cached
    · rw [if_neg member] at cached
      refine tracks.clean nonzero (fun peer => ?_) cached
      by_cases own : peer = who
      · by_contra staging
        exact member (lists.mpr (own ▸ staging))
      · have later := unstaged peer
        rwa [Function.update_of_ne own] at later
  unspilled := by
    intro other number nonzero unstaged
    by_cases own : other = who
    · rw [own, Function.update_self]
    · rw [Function.update_of_ne own] at unstaged ⊢
      exact tracks.unspilled nonzero unstaged

section Admission

variable
  {evictee : Option UInt32}
  {residentNext : Residency}
  {spilledNext : UInt32 → Option Page}

theorem makeRoom
    (tracks : Tracks staged spilled resident)
    (absent : resident no = none)
    (moves :
      PagerState.Moves evictee resident (spilled who) no page dirty residentNext spilledNext)
    (evicts : ∀ found ∈ evictee, Apart staged who found) :
    ∃ room,
      Tracks staged (Function.update spilled who spilledNext) room ∧
        room no = none ∧ spilledNext no = spilled who no ∧
        residentNext = Function.update room no (some (page, dirty)) := by
  have other : ∀ {found entry}, resident found = some entry → found ≠ no := by
    rintro found entry present rfl
    rw [absent] at present
    cases present
  cases moves with
  | replaced present =>
      rw [absent] at present
      cases present
  | inserted _ =>
      rw [Function.update_eq_self]
      exact ⟨resident, tracks, absent, rfl, rfl⟩
  | dropped _ present =>
      rw [Function.update_eq_self]
      refine ⟨_, tracks.drop present, ?_, rfl, rfl⟩
      rw [Function.update_of_ne (other present).symm, absent]
  | stolen _ present evicted =>
      refine ⟨_, tracks.steal present (evicts _ evicted), ?_, ?_, rfl⟩
      · rw [Function.update_of_ne (other present).symm, absent]
      · rw [Function.update_of_ne (other present).symm]

theorem moves_install
    (tracks : Tracks staged spilled resident)
    (moves :
      PagerState.Moves evictee resident (spilled who) no page true residentNext spilledNext)
    (evicts : resident no = none → ∀ found ∈ evictee, Apart staged who found)
    (apart : Apart staged who no) :
    Tracks (Function.update staged who (Function.update (staged who) no (some page)))
      (Function.update spilled who spilledNext) residentNext := by
  cases cached : resident no with
  | some entry =>
      cases moves with
      | @replaced old wasDirty present =>
          rw [Function.update_eq_self, Bool.or_true]
          exact tracks.install apart
      | inserted absent =>
          rw [cached] at absent
          cases absent
      | dropped absent =>
          rw [cached] at absent
          cases absent
      | stolen absent =>
          rw [cached] at absent
          cases absent
  | none =>
      obtain ⟨room, tracked, -, -, rfl⟩ := tracks.makeRoom cached moves (evicts cached)
      exact tracked.install apart

/-- `read_page` keeps track of every image. -/
theorem fetch
    {state next : PagerState}
    (tracks : Tracks staged spilled state.pool.resident)
    (log : state.spilled = spilled who)
    (fetched : PagerState.Fetched state no image next)
    (evicts :
      state.pool.resident no = none →
        ∀ found ∈ state.pool.evictee no, Apart staged who found)
    (apart : state.pool.resident no = none → Apart staged who no) :
    Tracks staged (Function.update spilled who next.spilled) next.pool.resident := by
  cases fetched with
  | cached present still =>
      rw [still.resident, still.spilled, log, Function.update_eq_self]
      exact tracks
  | unspilled absent inLog admitted =>
      obtain ⟨room, tracked, empty, same, result⟩ :=
        tracks.makeRoom absent (log ▸ admitted.moves) (evicts absent)
      rw [result]
      refine tracked.reload empty ?_ (apart absent)
      rw [Function.update_self, same, ← log, inLog]
  | fromFile absent notInLog inside same admitted =>
      obtain ⟨room, tracked, empty, kept, result⟩ :=
        tracks.makeRoom absent (log ▸ admitted.moves) (evicts absent)
      rw [result]
      refine @Tracks.load _ _ _ who _ _ tracked empty ?_ (apart absent)
      rw [Function.update_self, kept, ← log, notInLog]

theorem stage
    {state next : PagerState}
    (tracks : Tracks staged spilled state.pool.resident)
    (log : state.spilled = spilled who)
    (stages : PagerState.Staged state no page next)
    (evicts :
      state.pool.resident no = none →
        ∀ found ∈ state.pool.evictee no, Apart staged who found)
    (apart : Apart staged who no) :
    Tracks (Function.update staged who (Function.update (staged who) no (some page)))
      (Function.update spilled who next.spilled) next.pool.resident :=
  tracks.moves_install (log ▸ stages.moves) evicts apart

end Admission

end Tracks

/-! ## The cluster -/

namespace Cluster

/-- The staged images of every pager. -/
def staged (cluster : Cluster) : Nat → UInt32 → Option Page :=
  fun who => (cluster.ledgers who).staged

/-- The spilled images of every pager. -/
def spilled (cluster : Cluster) : Nat → UInt32 → Option Page :=
  fun who => (cluster.pagers who).spilled

/-- The pool and the pagers keep their books, and staged images can be found. -/
structure Images (cluster : Cluster) : Prop where
  pool : cluster.shared.pool.WellFormed
  pagers : ∀ who, (cluster.pagers who).Coherent
  tracks : Tracks cluster.staged cluster.spilled cluster.shared.pool.resident
  dirty : ∀ {who no}, no ∈ (cluster.pagers who).dirtyPages ↔ cluster.staged who no ≠ none

/-- The action admits no page a peer has staged and evicts none. -/
structure Peaceful (cluster : Cluster) (action : Nat × PagerAction) : Prop where
  evicts :
    ∀ no ∈ cluster.admits action,
      cluster.shared.pool.resident no = none →
        ∀ victim ∈ cluster.shared.pool.evictee no, Apart cluster.staged action.1 victim
  admits :
    ∀ no ∈ cluster.admits action,
      (action.2 = .readPage no → cluster.shared.pool.resident no = none) →
        Apart cluster.staged action.1 no

section Set

variable {cluster : Cluster} {who : Nat} {state : PagerState} {ledger : Ledger}

theorem set_staged :
    (cluster.set who state ledger).staged =
      Function.update cluster.staged who ledger.staged := by
  funext other
  by_cases own : other = who
  · subst own
    simp only [staged, set, Function.update_self]
  · simp only [staged, set, Function.update_of_ne own]

theorem set_spilled :
    (cluster.set who state ledger).spilled =
      Function.update cluster.spilled who state.spilled := by
  funext other
  by_cases own : other = who
  · subst own
    simp only [spilled, set, Function.update_self]
  · simp only [spilled, set, Function.update_of_ne own]

theorem Images.coherent
    (images : Images cluster)
    (who : Nat) :
    (cluster.view who).Coherent :=
  ⟨images.pool, images.pagers who⟩

theorem Images.set
    (images : Images cluster)
    (coherent : state.Coherent)
    (tracks :
      Tracks (Function.update cluster.staged who ledger.staged)
        (Function.update cluster.spilled who state.spilled) state.pool.resident)
    (dirty : ∀ {no}, no ∈ state.dirtyPages ↔ ledger.staged no ≠ none) :
    Images (cluster.set who state ledger) where
  pool := coherent.pool
  pagers := by
    intro other
    by_cases own : other = who
    · subst own
      simp only [Cluster.set, Function.update_self]
      exact coherent.pager
    · simp only [Cluster.set, Function.update_of_ne own]
      exact images.pagers other
  tracks := by
    rw [set_staged, set_spilled]
    exact tracks
  dirty := by
    intro other no
    rw [set_staged]
    by_cases own : other = who
    · subst own
      simp only [Cluster.set, Function.update_self]
      exact dirty
    · simp only [Cluster.set, Function.update_of_ne own]
      exact images.dirty

/-- A step that moved no image and staged none. -/
theorem Images.unmoved
    (images : Images cluster)
    (coherent : state.Coherent)
    (resident : state.pool.resident = cluster.shared.pool.resident)
    (spilled : state.spilled = (cluster.pagers who).spilled)
    (dirtyPages : state.dirtyPages = (cluster.pagers who).dirtyPages) :
    Images (cluster.set who state (cluster.ledgers who)) := by
  refine images.set coherent ?_ ?_
  · have sameStaged : (cluster.ledgers who).staged = cluster.staged who := rfl
    have sameSpilled : state.spilled = cluster.spilled who := spilled
    rw [sameStaged, sameSpilled, Function.update_eq_self, Function.update_eq_self, resident]
    exact images.tracks
  · intro no
    rw [dirtyPages]
    exact images.dirty

theorem Images.still
    (images : Images cluster)
    (still : PagerState.Still (cluster.view who) state) :
    Images (cluster.set who state (cluster.ledgers who)) :=
  images.unmoved still.coherent still.resident still.spilled still.keeps.dirtyPages

end Set

section Step

variable {cluster next : Cluster} {who : Nat} {action : PagerAction}

theorem admits_allocPage
    {no : UInt32}
    {ready : PagerState}
    (obtained : PagerState.Obtained (cluster.view who) no ready) :
    no ∈ cluster.admits (who, .allocPage) := by
  cases obtained with
  | @pending rest listed same =>
      have listed : (cluster.pagers who).pendingFreelist = rest ++ [no] := listed
      simp only [admits, listed, List.getLast?_concat, Option.mem_def]
  | popped exhausted head nonzero cachedOrSpilled fetched header same =>
      have exhausted : (cluster.pagers who).pendingFreelist = [] := exhausted
      have head : cluster.shared.metadata.freelistHead = no := head
      simp only [admits, exhausted, List.getLast?_nil, head, if_pos nonzero, Option.mem_def]
  | bumped exhausted empty count header same =>
      have exhausted : (cluster.pagers who).pendingFreelist = [] := exhausted
      have empty : cluster.shared.metadata.freelistHead = 0 := empty
      have count : cluster.shared.metadata.pageCount = no := count
      simp only [admits, exhausted, List.getLast?_nil, empty, ne_eq, not_true_eq_false,
        if_false, count, Option.mem_def]

theorem dirty_stage
    {ledger : Ledger}
    {dirtyPages : Finset UInt32}
    (agree : ∀ {no}, no ∈ dirtyPages ↔ ledger.staged no ≠ none)
    (written : UInt32)
    (page : Page)
    {no : UInt32} :
    no ∈ insert written dirtyPages ↔ (ledger.stage written page).staged no ≠ none := by
  rw [Finset.mem_insert, agree]
  by_cases same : no = written
  · subst same
    simp [Ledger.stage]
  · simp [Ledger.stage, same]

/-- The pages a commit lists are the staged ones, the header apart. -/
theorem Images.listed_iff
    (images : Images cluster)
    {order : List UInt32}
    (enumerates :
      PagerState.Enumerates order ((cluster.pagers who).dirtyPages.erase 0))
    {no : UInt32} :
    no ∈ order ↔ no ≠ 0 ∧ cluster.staged who no ≠ none := by
  rw [enumerates.mem_iff, Finset.mem_erase, images.dirty]

theorem staged_ne_none
    {no : UInt32}
    {image : Page}
    (staging : (cluster.ledgers who).staged no = some image) :
    cluster.staged who no ≠ none := by
  rw [staged, staging]
  exact Option.some_ne_none _

/-- No commit misses a dirty page. -/
theorem Images.found
    (images : Images cluster)
    {no : UInt32}
    (staging : cluster.staged who no ≠ none) :
    (cluster.pagers who).spilled no ≠ none ∨ cluster.shared.pool.resident no ≠ none := by
  obtain ⟨image, here⟩ := Option.ne_none_iff_exists'.mp staging
  rcases images.tracks.held here with cached | ⟨-, inLog⟩
  · exact .inr (cached ▸ Option.some_ne_none _)
  · have inLog : (cluster.pagers who).spilled no = some image := inLog
    exact .inl (inLog ▸ Option.some_ne_none _)

/-- Nothing but the header and the list of rolled-back pages differs from `state`. -/
theorem Images.stage
    (images : Images cluster)
    {no : UInt32}
    {page : Page}
    {ready state : PagerState}
    (tracks :
      Tracks cluster.staged (Function.update cluster.spilled who ready.spilled)
        ready.pool.resident)
    (dirtyPages : ready.dirtyPages = (cluster.pagers who).dirtyPages)
    (stages : PagerState.Staged ready no page state)
    (evicts :
      ready.pool.resident no = none →
        ∀ found ∈ ready.pool.evictee no, Apart cluster.staged who found)
    (apart : Apart cluster.staged who no) :
    Images (cluster.set who state ((cluster.ledgers who).stage no page)) := by
  refine images.set stages.coherent ?_ ?_
  · have log : ready.spilled = Function.update cluster.spilled who ready.spilled who := by
      rw [Function.update_self]
    have later := tracks.stage log stages evicts apart
    rwa [Function.update_idem] at later
  · intro number
    rw [stages.dirtyPages, dirtyPages]
    exact dirty_stage images.dirty no page

theorem Images.tracks_view
    (images : Images cluster)
    (who : Nat) :
    Tracks cluster.staged
      (Function.update cluster.spilled who (cluster.view who).spilled)
      cluster.shared.pool.resident := by
  have same : (cluster.view who).spilled = cluster.spilled who := rfl
  rw [same, Function.update_eq_self]
  exact images.tracks

theorem fetched_keeps
    {state read : PagerState}
    {no : UInt32}
    {image : Page}
    (fetched : PagerState.Fetched state no image read) :
    read.Coherent ∧ PagerState.Keeps state read := by
  cases fetched with
  | cached present still => exact ⟨still.coherent, still.keeps⟩
  | unspilled absent inLog admitted => exact ⟨admitted.coherent, admitted.keeps⟩
  | fromFile absent notInLog inside same admitted =>
      exact ⟨admitted.coherent, admitted.keeps⟩

theorem Images.allocated
    (images : Images cluster)
    (peaceful : Peaceful cluster (who, .allocPage))
    {no : UInt32}
    {state : PagerState}
    (allocated : PagerState.Allocated (cluster.view who) no state) :
    Images (cluster.set who state (((cluster.ledgers who).stage no zeroPage).take no)) := by
  obtain ⟨ready, staged, obtained, stages, rfl⟩ := allocated
  have admitted := admits_allocPage obtained
  have apart : Apart cluster.staged who no := peaceful.admits no admitted nofun
  have evicts := peaceful.evicts no admitted
  have tracks :
      Tracks cluster.staged (Function.update cluster.spilled who ready.spilled)
        ready.pool.resident := by
    cases obtained with
    | pending listed same =>
        subst same
        exact images.tracks_view who
    | popped exhausted head nonzero cachedOrSpilled fetched header same =>
        subst same
        have log : (cluster.view who).spilled = cluster.spilled who := rfl
        have tracked := images.tracks.fetch log fetched evicts fun _ => apart
        exact tracked
    | bumped exhausted empty count header same =>
        subst same
        exact images.tracks_view who
  have dirtyPages : ready.dirtyPages = (cluster.pagers who).dirtyPages := by
    cases obtained with
    | pending listed same =>
        subst same
        rfl
    | popped exhausted head nonzero cachedOrSpilled fetched header same =>
        subst same
        exact (fetched_keeps fetched).2.dirtyPages
    | bumped exhausted empty count header same =>
        subst same
        rfl
  have evictsReady :
      ready.pool.resident no = none →
        ∀ found ∈ ready.pool.evictee no, Apart cluster.staged who found := by
    cases obtained with
    | pending listed same =>
        subst same
        exact evicts
    | popped exhausted head nonzero cachedOrSpilled fetched header same =>
        subst same
        exact fun absent => absurd absent fetched.resident
    | bumped exhausted empty count header same =>
        subst same
        exact evicts
  have whole := images.stage tracks dirtyPages stages evictsReady apart
  have coherent := stages.coherent
  refine images.set ⟨coherent.pool, coherent.pager.wal, coherent.pager.indexed,
    coherent.pager.unindexed⟩ ?_ ?_
  · have later := whole.tracks
    rwa [set_staged, set_spilled] at later
  · intro number
    have dirty := @Images.dirty _ whole who number
    simpa only [Cluster.set, Cluster.staged, Function.update_self, Ledger.take] using dirty

/-- A peaceful step keeps track of every staged image. -/
theorem Images.effect
    (images : Images cluster)
    (peaceful : Peaceful cluster (who, action))
    (effect : Effect cluster who action next) :
    Images next := by
  cases effect with
  | still still => exact images.still still
  | @fetched no image state fetched =>
      have tracks :=
        images.tracks.fetch rfl fetched (peaceful.evicts no rfl)
          fun absent => peaceful.admits no rfl fun _ => absent
      obtain ⟨coherent, keeps⟩ := fetched_keeps fetched
      refine images.set coherent ?_ ?_
      · have same : (cluster.ledgers who).staged = cluster.staged who := rfl
        rw [same, Function.update_eq_self]
        exact tracks
      · intro number
        rw [keeps.dirtyPages]
        exact images.dirty
  | @staged no page state stages =>
      exact images.stage (images.tracks_view who) rfl stages (peaceful.evicts no rfl)
        (peaceful.admits no rfl nofun)
  | allocated allocated =>
      have later := images.allocated peaceful allocated
      exact ⟨later.pool, later.pagers, later.tracks, later.dirty⟩
  | allocFailed failed =>
      cases failed with
      | unread still => exact images.still still
      | unstaged obtained notPopped still =>
          cases obtained with
          | pending listed same =>
              subst same
              exact images.unmoved still.coherent still.resident still.spilled
                still.keeps.dirtyPages
          | popped exhausted head nonzero cachedOrSpilled fetched header same =>
              rcases notPopped with pending | empty
              · exact absurd exhausted pending
              · exact absurd (head.symm.trans empty) nonzero
          | bumped exhausted empty count header same =>
              subst same
              exact images.unmoved still.coherent still.resident still.spilled
                still.keeps.dirtyPages
  | @freed no state stages =>
      have later :=
        images.stage (images.tracks_view who) rfl stages (peaceful.evicts no rfl)
          (peaceful.admits no rfl nofun)
      have coherent := stages.coherent
      have freed :
          Images (cluster.set who
            { state with metadata := { state.metadata with freelistHead := no } }
            (((cluster.ledgers who).stage no
              (linkPage cluster.shared.metadata.freelistHead)).release no)) := by
        refine images.set ⟨coherent.pool, coherent.pager⟩ ?_ ?_
        · have tracks := later.tracks
          rwa [set_staged, set_spilled] at tracks
        · intro number
          have dirty := @Images.dirty _ later who number
          simpa only [Cluster.set, Cluster.staged, Function.update_self, Ledger.release]
            using dirty
      exact ⟨freed.pool, freed.pagers, freed.tracks, freed.dirty⟩
  | idleCommit clean unspilled =>
      have nothing : (cluster.ledgers who).staged = fun _ => none := by
        funext no
        by_contra staging
        have listed := (@Images.dirty _ images who no).mpr staging
        rw [clean] at listed
        exact absurd listed (Finset.notMem_empty no)
      refine images.set (images.coherent who) ?_ ?_
      · have same : (cluster.ledgers who).commit.staged = cluster.staged who := nothing.symm
        rw [same, Function.update_eq_self]
        exact images.tracks_view who
      · intro no
        have same : (cluster.ledgers who).commit.staged = (cluster.ledgers who).staged :=
          nothing.symm
        rw [same]
        exact images.dirty
  | committed enumerates committed =>
      refine images.set committed.coherent ?_ ?_
      · rw [committed.spilled, committed.resident]
        exact images.tracks.commit (images.listed_iff enumerates)
      · intro no
        rw [committed.dirtyPages]
        simp [Ledger.commit]
  | vanished enumerates file listed unspilled absent =>
      rcases images.found (images.listed_iff enumerates |>.mp listed).2 with inLog | cached
      · exact absurd unspilled inLog
      · exact absurd absent cached
  | @rolledBack dropOrder drainOrder drops drains =>
      obtain ⟨coherent, resident, spilled⟩ :=
        PagerState.rollback_spec (images.coherent who) dropOrder drainOrder
      refine images.set coherent ?_ ?_
      · rw [resident, spilled]
        exact images.tracks.rollback fun {no} => drops.mem_iff.trans images.dirty
      · intro no
        have empty :
            ((cluster.view who).rollback dropOrder drainOrder).dirtyPages = ∅ := rfl
        rw [empty]
        simp [Ledger.rollback]
  | header pageCount freelistHead =>
      have coherent := images.coherent who
      exact images.unmoved ⟨coherent.pool, coherent.pager⟩ rfl rfl rfl

end Step

end Cluster

end PrehniteDB
