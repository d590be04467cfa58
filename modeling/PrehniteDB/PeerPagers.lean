import PrehniteDB.CommitDurability

namespace PrehniteDB

open TransitionRun

/-!
# Peer pagers on one pool

A frame has no owner, so a pager that evicts, drops or cleans a frame its peer
has written disturbs the peer.  Beside the cluster stands what each pager still
has to find at its commit: the images written to a page from its own last write
of that page on.
-/

namespace PagerState

/-! ## The pool after one operation -/

section Pool

variable {state : PagerState} {no : UInt32} {page : Page} {dirty : Bool}

theorem admitPage_pool
    (state : PagerState)
    (no : UInt32)
    (page : Page)
    (dirty : Bool) :
    (state.admitPage no page dirty).2.pool = (state.pool.put no page dirty).2 := by
  unfold admitPage
  split
  · next error pool put => rw [put]
  · next frame pool put => rw [put]
  · next frame evicted pool put => rw [put]

theorem writePage_pool
    (state : PagerState)
    (no : UInt32)
    (page : Page) :
    (state.writePage no page).2.pool = (state.pool.put no page true).2 := by
  rw [← admitPage_pool]
  unfold writePage
  split
  · next error next admitted => rw [admitted]
  · next frame next admitted => rw [admitted]

theorem readPage_pool
    (absent : state.pool.resident no = none) :
    (state.readPage no).2.pool = state.pool ∨
      ∃ page dirty, (state.readPage no).2.pool = (state.pool.put no page dirty).2 := by
  have missed : state.pool.get no = (none, state.pool) := by
    have frame : (state.pool.get no).1 = none := by
      rw [SharedPool.get_frame, Option.map_eq_none_iff]
      exact Option.map_eq_none_iff.mp absent
    exact Prod.ext frame (SharedPool.get_miss frame)
  unfold readPage
  rw [missed]
  dsimp only
  split
  · split
    · exact .inl rfl
    · next image read => exact .inr ⟨image, true, admitPage_pool _ _ _ _⟩
  · split
    · exact .inl rfl
    · exact .inr ⟨_, false, admitPage_pool _ _ _ _⟩

end Pool

/-! ## One admission, page by page -/

namespace Moves

variable
  {evictee : Option UInt32}
  {resident residentNext : Residency}
  {spilled spilledNext : UInt32 → Option Page}
  {no other : UInt32}
  {page : Page}
  {dirty : Bool}

theorem here
    (moves : Moves evictee resident spilled no page dirty residentNext spilledNext) :
    ∃ flag, residentNext no = some (page, flag) := by
  cases moves with
  | replaced present => exact ⟨_, Function.update_self _ _ _⟩
  | inserted absent => exact ⟨_, Function.update_self _ _ _⟩
  | dropped absent present => exact ⟨_, Function.update_self _ _ _⟩
  | stolen absent present evicted => exact ⟨_, Function.update_self _ _ _⟩

theorem fresh
    (moves : Moves evictee resident spilled no page dirty residentNext spilledNext)
    (absent : resident no = none) :
    residentNext no = some (page, dirty) := by
  cases moves with
  | replaced present =>
      rw [absent] at present
      cases present
  | inserted absent => exact Function.update_self _ _ _
  | dropped absent present => exact Function.update_self _ _ _
  | stolen absent present evicted => exact Function.update_self _ _ _

/-- Another page keeps its place, is dropped clean, or is spilled dirty. -/
theorem elsewhere
    (moves : Moves evictee resident spilled no page dirty residentNext spilledNext)
    (different : other ≠ no) :
    (residentNext other = resident other ∧ spilledNext other = spilled other) ∨
      (residentNext other = none ∧ spilledNext other = spilled other ∧
        ∃ image, resident other = some (image, false)) ∨
      ∃ image,
        residentNext other = none ∧ spilledNext other = some image ∧
          resident other = some (image, true) := by
  cases moves with
  | replaced present => exact .inl ⟨Function.update_of_ne different _ _, rfl⟩
  | inserted absent => exact .inl ⟨Function.update_of_ne different _ _, rfl⟩
  | @dropped victim image absent present =>
      rw [Function.update_of_ne different]
      by_cases same : other = victim
      · subst same
        exact .inr (.inl ⟨Function.update_self _ _ _, rfl, image, present⟩)
      · exact .inl ⟨Function.update_of_ne same _ _, rfl⟩
  | @stolen victim image absent present evicted =>
      rw [Function.update_of_ne different]
      by_cases same : other = victim
      · subst same
        exact .inr (.inr ⟨image, Function.update_self _ _ _, Function.update_self _ _ _,
          present⟩)
      · exact .inl ⟨Function.update_of_ne same _ _, Function.update_of_ne same _ _⟩

theorem log
    (moves : Moves evictee resident spilled no page dirty residentNext spilledNext) :
    spilledNext no = spilled no := by
  cases moves with
  | replaced present => rfl
  | inserted absent => rfl
  | dropped absent present => rfl
  | stolen absent present evicted =>
      apply Function.update_of_ne
      rintro rfl
      rw [absent] at present
      cases present

end Moves

end PagerState

/-! ## Images that can be found -/

/-- Every page a pager wrote can be found with an image at least as new as its write. -/
structure Findable
    (written : Nat → Finset UInt32)
    (since : Nat → UInt32 → List Page)
    (spilled : Nat → UInt32 → Option Page)
    (resident : Residency) : Prop where
  held :
    ∀ {who no},
      no ∈ written who →
        ∃ image ∈ since who no,
          (∃ dirty, resident no = some (image, dirty)) ∨
            (resident no = none ∧ spilled who no = some image)
  owned : ∀ {who no}, no ≠ 0 → spilled who no ≠ none → no ∈ written who
  dirty :
    ∀ {no image},
      no ≠ 0 → resident no = some (image, true) → ∃ who, no ∈ written who

namespace Findable

variable
  {written writtenNext : Nat → Finset UInt32}
  {since sinceNext : Nat → UInt32 → List Page}
  {spilled : Nat → UInt32 → Option Page}
  {resident residentNext : Residency}
  {spilledNext : UInt32 → Option Page}
  {evictee : Option UInt32}
  {who : Nat}
  {no : UInt32}
  {page : Page}
  {dirty : Bool}

/-- An admission that evicts nobody else's page and cleans none of its own. -/
theorem admission
    (findable : Findable written since spilled resident)
    (moves :
      PagerState.Moves evictee resident (spilled who) no page dirty residentNext spilledNext)
    (evicts :
      ∀ victim,
        resident victim ≠ none → residentNext victim = none →
          (∀ other, other ≠ who → victim ∉ written other) ∧
            (victim ∈ written who → ∃ image, resident victim = some (image, true)))
    (elsewhere :
      ∀ other number,
        number ≠ no →
          sinceNext other number = since other number ∧
            (number ∈ writtenNext other ↔ number ∈ written other))
    (latest : ∀ other, no ∈ writtenNext other → page ∈ sinceNext other no)
    (grows : ∀ other, no ∈ written other → no ∈ writtenNext other)
    (claimed :
      ∀ image,
        no ≠ 0 → residentNext no = some (image, true) → ∃ other, no ∈ writtenNext other) :
    Findable writtenNext sinceNext (Function.update spilled who spilledNext) residentNext where
  held := by
    intro other number member
    by_cases same : number = no
    · subst same
      exact ⟨page, latest other member, .inl moves.here⟩
    · obtain ⟨sameSince, sameWritten⟩ := elsewhere other number same
      have before := sameWritten.mp member
      rw [sameSince]
      obtain ⟨image, listed, place⟩ := findable.held before
      refine ⟨image, listed, ?_⟩
      rcases moves.elsewhere same with
        ⟨kept, keptLog⟩ | ⟨gone, keptLog, old, clean⟩ | ⟨old, gone, spilt, wasDirty⟩
      · rw [kept]
        rcases place with cached | ⟨absent, inLog⟩
        · exact .inl cached
        · refine .inr ⟨absent, ?_⟩
          by_cases own : other = who
          · subst own
            rw [Function.update_self, keptLog, inLog]
          · rw [Function.update_of_ne own, inLog]
      · -- A clean frame that leaves is a page nobody has to find.
        obtain ⟨foreign, own⟩ := evicts number (clean ▸ Option.some_ne_none _) gone
        by_cases isOwn : other = who
        · subst isOwn
          obtain ⟨_, present⟩ := own before
          rw [clean] at present
          cases present
        · exact absurd before (foreign other isOwn)
      · obtain ⟨foreign, _⟩ := evicts number (wasDirty ▸ Option.some_ne_none _) gone
        have own : other = who := by
          by_contra different
          exact foreign other different before
        subst own
        rw [Function.update_self]
        rcases place with ⟨flag, cached⟩ | ⟨absent, _⟩
        · rw [wasDirty] at cached
          obtain ⟨rfl, _⟩ := Prod.mk.inj (Option.some.inj cached)
          exact .inr ⟨gone, spilt⟩
        · rw [wasDirty] at absent
          cases absent
  owned := by
    intro other number nonzero inLog
    have kept : number ∈ written other → number ∈ writtenNext other := by
      intro member
      by_cases same : number = no
      · exact same ▸ grows other (same ▸ member)
      · exact (elsewhere other number same).2.mpr member
    apply kept
    by_cases own : other = who
    · subst own
      rw [Function.update_self] at inLog
      by_cases same : number = no
      · rw [same, moves.log, ← same] at inLog
        exact findable.owned nonzero inLog
      · rcases moves.elsewhere same with
          ⟨_, keptLog⟩ | ⟨_, keptLog, _⟩ | ⟨old, gone, _, wasDirty⟩
        · rw [keptLog] at inLog
          exact findable.owned nonzero inLog
        · rw [keptLog] at inLog
          exact findable.owned nonzero inLog
        · obtain ⟨foreign, _⟩ := evicts number (wasDirty ▸ Option.some_ne_none _) gone
          obtain ⟨writer, member⟩ := findable.dirty nonzero wasDirty
          have isOwn : writer = other := by
            by_contra different
            exact foreign writer different member
          exact isOwn ▸ member
    · rw [Function.update_of_ne own] at inLog
      exact findable.owned nonzero inLog
  dirty := by
    intro number image nonzero cached
    by_cases same : number = no
    · subst same
      exact claimed image nonzero cached
    · rcases moves.elsewhere same with ⟨kept, _⟩ | ⟨gone, _⟩ | ⟨_, gone, _⟩
      · obtain ⟨writer, member⟩ := findable.dirty nonzero (kept.symm.trans cached)
        exact ⟨writer, (elsewhere writer number same).2.mpr member⟩
      · rw [gone] at cached
        cases cached
      · rw [gone] at cached
        cases cached

/-- A commit cleans the frames of what its pager wrote and empties its log. -/
theorem commit
    (findable : Findable written since spilled resident)
    {order : List UInt32}
    (lists : ∀ {number}, number ∈ order ↔ number ≠ 0 ∧ number ∈ written who) :
    Findable (Function.update written who ∅) (Function.update since who fun _ => [])
      (Function.update spilled who fun _ => none)
      (fun number =>
        if number ∈ order then (resident number).map fun entry => (entry.1, false)
        else resident number) where
  held := by
    intro other number member
    by_cases own : other = who
    · rw [own, Function.update_self] at member
      cases member
    · rw [Function.update_of_ne own] at member
      rw [Function.update_of_ne own, Function.update_of_ne own]
      obtain ⟨image, listed, place⟩ := findable.held member
      refine ⟨image, listed, ?_⟩
      rcases place with ⟨flag, cached⟩ | ⟨absent, inLog⟩
      · rw [cached]
        split
        · exact .inl ⟨false, rfl⟩
        · exact .inl ⟨flag, rfl⟩
      · rw [absent]
        exact .inr ⟨ite_self none, inLog⟩
  owned := by
    intro other number nonzero inLog
    by_cases own : other = who
    · rw [own, Function.update_self] at inLog
      exact absurd rfl inLog
    · rw [Function.update_of_ne own] at inLog ⊢
      exact findable.owned nonzero inLog
  dirty := by
    intro number image nonzero cached
    split at cached
    · obtain ⟨entry, _, same⟩ := Option.map_eq_some_iff.mp cached
      cases same
    · next unlisted =>
        obtain ⟨writer, member⟩ := findable.dirty nonzero cached
        refine ⟨writer, ?_⟩
        have foreign : writer ≠ who := by
          rintro rfl
          exact unlisted (lists.mpr ⟨nonzero, member⟩)
        rw [Function.update_of_ne foreign]
        exact member

/-- A rollback drops the frames of what its pager alone wrote. -/
theorem rollback
    (findable : Findable written since spilled resident)
    {order : List UInt32}
    (lists : ∀ {number}, number ∈ order ↔ number ∈ written who)
    (apart : ∀ number ∈ written who, ∀ other, other ≠ who → number ∉ written other) :
    Findable (Function.update written who ∅) (Function.update since who fun _ => [])
      (Function.update spilled who fun _ => none)
      (fun number => if number ∈ order then none else resident number) where
  held := by
    intro other number member
    by_cases own : other = who
    · rw [own, Function.update_self] at member
      cases member
    · rw [Function.update_of_ne own] at member
      rw [Function.update_of_ne own, Function.update_of_ne own]
      have unlisted : number ∉ order := fun listed =>
        apart number (lists.mp listed) other own member
      rw [if_neg unlisted]
      exact findable.held member
  owned := by
    intro other number nonzero inLog
    by_cases own : other = who
    · rw [own, Function.update_self] at inLog
      exact absurd rfl inLog
    · rw [Function.update_of_ne own] at inLog ⊢
      exact findable.owned nonzero inLog
  dirty := by
    intro number image nonzero cached
    split at cached
    · cases cached
    · next unlisted =>
        obtain ⟨writer, member⟩ := findable.dirty nonzero cached
        refine ⟨writer, ?_⟩
        have foreign : writer ≠ who := by
          rintro rfl
          exact unlisted (lists.mpr member)
        rw [Function.update_of_ne foreign]
        exact member

end Findable

/-! ## The cluster and what its pagers have to find -/

structure Watched where
  cluster : Cluster
  /-- The images written to a page from the pager's own last write of it on. -/
  since : Nat → UInt32 → List Page

namespace Watched

/-- Pager `who` has written page `no`. -/
def wrote (watched : Watched) (who : Nat) (no : UInt32) (page : Page) :
    Nat → UInt32 → List Page :=
  fun other number =>
    if number = no then
      if other = who then [page]
      else if watched.since other no = [] then []
      else watched.since other no ++ [page]
    else watched.since other number

/-- Pager `who` has committed or rolled back. -/
def ended (watched : Watched) (who : Nat) : Nat → UInt32 → List Page :=
  Function.update watched.since who fun _ => []

/-- What the pagers have to find after one operation. -/
def sinceAfter (watched : Watched) (who : Nat) : PagerAction → Nat → UInt32 → List Page
  | .writePage no page =>
      match ((watched.cluster.view who).writePage no page).1 with
      | .ok _ => watched.wrote who no page
      | .error _ => watched.since
  | .commit order =>
      match ((watched.cluster.view who).commit order).1 with
      | .ok _ => watched.ended who
      | .error _ => watched.since
  | .rollback _ _ => watched.ended who
  | _ => watched.since

def step (watched : Watched) (action : Nat × PagerAction) : Option Watched :=
  (watched.cluster.step action).map fun next =>
    { cluster := next, since := watched.sinceAfter action.1 action.2 }

/-- Pagers on a file just opened. -/
def opened (state : PagerState) : Watched where
  cluster := .opened state (fun _ => ∅) []
  since := fun _ _ => []

/-- The pages pager `who` wrote since its last commit or rollback. -/
def written (watched : Watched) (who : Nat) : Finset UInt32 :=
  (watched.cluster.pagers who).dirtyPages

/-- Page reads and writes, commits and rollbacks. -/
def Basic : PagerAction → Prop
  | .readPage _ | .release _ | .writePage _ _ | .commit _ | .rollback _ _ => True
  | _ => False

/-- The step takes nothing from under a peer. -/
structure Undisturbed (watched : Watched) (action : Nat × PagerAction) : Prop where
  basic : Basic action.2
  /-- A frame it evicts holds no page a peer wrote, nor a page of its own that a peer cleaned. -/
  evicts :
    ∀ no ∈ watched.cluster.admits action,
      ∀ victim,
        watched.cluster.shared.pool.Displaces no victim →
          (∀ other, other ≠ action.1 → victim ∉ watched.written other) ∧
            (victim ∈ watched.written action.1 →
              ∃ image,
                watched.cluster.shared.pool.resident victim = some (image, true))
  /-- A page it reads past the cache is not one a peer wrote and evicted. -/
  rereads :
    ∀ no,
      action.2 = .readPage no →
        watched.cluster.shared.pool.resident no = none →
          ∀ other, other ≠ action.1 → no ∉ watched.written other
  /-- A page it rolls back is not one a peer wrote too. -/
  drops :
    ∀ dropOrder drainOrder,
      action.2 = .rollback dropOrder drainOrder →
        ∀ no ∈ watched.written action.1,
          ∀ other, other ≠ action.1 → no ∉ watched.written other

/-- No pager loses a write to a peer, nor does one commit what only a peer wrote. -/
structure Kept (watched : Watched) : Prop where
  commits :
    ∀ who order,
      PagerState.Enumerates order ((watched.written who).erase 0) →
        ∃ next,
          (watched.cluster.view who).commit order = (.ok (), next) ∧
            (∀ no ∈ watched.written who,
              no ≠ 0 →
                next.file.pages no ∈ watched.since who no ∨
                  (watched.cluster.pagers who).spilled no = some (next.file.pages no)) ∧
            ∀ no,
              no ∉ watched.written who →
                no ≠ 0 → next.file.pages no = watched.cluster.shared.file.pages no
  reads :
    ∀ who reader no frame next,
      no ∈ watched.written who →
        (reader ≠ who → watched.cluster.shared.pool.resident no ≠ none) →
          (watched.cluster.view reader).readPage no = (.ok frame, next) →
            frame.page ∈ watched.since who no

/-- The books are kept and every written page can be found. -/
structure Tracked (watched : Watched) : Prop where
  pool : watched.cluster.shared.pool.WellFormed
  pagers : ∀ who, (watched.cluster.pagers who).Coherent
  since : ∀ {who no}, no ∉ watched.written who → watched.since who no = []
  findable :
    Findable watched.written watched.since watched.cluster.spilled
      watched.cluster.shared.pool.resident

theorem Tracked.coherent
    {watched : Watched}
    (tracked : watched.Tracked)
    (who : Nat) :
    (watched.cluster.view who).Coherent :=
  ⟨tracked.pool, tracked.pagers who⟩

/-! ## Commits and reads in a tracked state -/

section Outcome

variable {watched : Watched} {who : Nat}

/-- Nothing `commit` has to flush is missing. -/
theorem Tracked.found
    (tracked : watched.Tracked)
    {no : UInt32}
    (member : no ∈ watched.written who)
    (unspilled : (watched.cluster.pagers who).spilled no = none) :
    ∃ image ∈ watched.since who no,
      ∃ dirty, watched.cluster.shared.pool.resident no = some (image, dirty) := by
  obtain ⟨image, listed, place⟩ := tracked.findable.held member
  rcases place with cached | ⟨_, inLog⟩
  · exact ⟨image, listed, cached⟩
  · have inLog : (watched.cluster.pagers who).spilled no = some image := inLog
    rw [unspilled] at inLog
    cases inLog

theorem Tracked.commits
    (tracked : watched.Tracked)
    {order : List UInt32}
    (enumerates : PagerState.Enumerates order ((watched.written who).erase 0)) :
    ∃ next,
      (watched.cluster.view who).commit order = (.ok (), next) ∧
        (∀ no ∈ watched.written who,
          no ≠ 0 →
            next.file.pages no ∈ watched.since who no ∨
              (watched.cluster.pagers who).spilled no = some (next.file.pages no)) ∧
        ∀ no,
          no ∉ watched.written who →
            no ≠ 0 → next.file.pages no = watched.cluster.shared.file.pages no := by
  have coherent := tracked.coherent who
  rcases PagerState.commit_spec coherent order with
    ⟨clean, _, result⟩ | ⟨next, result, committed⟩ |
      ⟨error, next, no, _, _, listed, unspilled, absent⟩
  · refine ⟨_, result, fun no member => ?_, fun _ _ _ => rfl⟩
    have nothing : watched.written who = ∅ := clean
    rw [nothing] at member
    cases member
  · refine ⟨next, result, fun no member nonzero => ?_, fun no foreign nonzero => ?_⟩
    · have page := committed.page coherent no
      rw [if_neg nonzero] at page
      cases inLog : (watched.cluster.view who).spilled no with
      | some image =>
          rw [inLog] at page
          right
          rw [page]
          exact inLog
      | none =>
          obtain ⟨image, since, dirty, cached⟩ := tracked.found member inLog
          have cached : (watched.cluster.view who).pool.resident no = some (image, dirty) :=
            cached
          have listed : no ∈ order :=
            enumerates.mem_iff.mpr (Finset.mem_erase.mpr ⟨nonzero, member⟩)
          rw [inLog, cached] at page
          dsimp only at page
          rw [if_pos listed] at page
          left
          rw [page]
          exact since
    · have page := committed.page coherent no
      have unspilled : (watched.cluster.view who).spilled no = none := by
        by_contra inLog
        exact foreign (tracked.findable.owned nonzero inLog)
      have unlisted : no ∉ order := fun listed =>
        foreign (Finset.mem_of_mem_erase (enumerates.mem_iff.mp listed))
      rw [if_neg nonzero, unspilled] at page
      dsimp only at page
      rw [if_neg unlisted] at page
      exact page
  · have member : no ∈ watched.written who :=
      Finset.mem_of_mem_erase (enumerates.mem_iff.mp listed)
    obtain ⟨image, _, dirty, cached⟩ := tracked.found member unspilled
    have absent : watched.cluster.shared.pool.resident no = none := absent
    rw [absent] at cached
    cases cached

theorem Tracked.reads
    (tracked : watched.Tracked)
    {reader : Nat}
    {no : UInt32}
    {frame : Frame}
    {next : PagerState}
    (member : no ∈ watched.written who)
    (cachedForPeer :
      reader ≠ who → watched.cluster.shared.pool.resident no ≠ none)
    (read : (watched.cluster.view reader).readPage no = (.ok frame, next)) :
    frame.page ∈ watched.since who no := by
  obtain ⟨image, listed, place⟩ := tracked.findable.held member
  rcases PagerState.readPage_spec (tracked.coherent reader) no with
    ⟨other, after, result, fetched⟩ | ⟨error, after, result, _⟩
  · obtain ⟨sameFrame, rfl⟩ := Prod.mk.inj (read.symm.trans result)
    obtain rfl := Except.ok.inj sameFrame
    have absentOwn :
        watched.cluster.shared.pool.resident no = none →
          reader = who ∧ watched.cluster.spilled who no = some image := by
      intro absent
      refine ⟨?_, ?_⟩
      · by_contra peer
        exact cachedForPeer peer absent
      · rcases place with ⟨dirty, cached⟩ | ⟨_, inLog⟩
        · rw [absent] at cached
          cases cached
        · exact inLog
    cases fetched with
    | cached present still =>
        have present : watched.cluster.shared.pool.resident no = some (frame.page, _) := present
        rcases place with ⟨dirty, cached⟩ | ⟨absent, _⟩
        · rw [present] at cached
          obtain ⟨same, _⟩ := Prod.mk.inj (Option.some.inj cached)
          exact same ▸ listed
        · rw [present] at absent
          cases absent
    | unspilled absent inLog admitted =>
        obtain ⟨rfl, own⟩ := absentOwn absent
        have inLog : watched.cluster.spilled reader no = some frame.page := inLog
        rw [own] at inLog
        exact Option.some.inj inLog ▸ listed
    | fromFile absent notInLog inside same admitted =>
        obtain ⟨rfl, own⟩ := absentOwn absent
        have notInLog : watched.cluster.spilled reader no = none := notInLog
        rw [own] at notInLog
        cases notInLog
  · cases read.symm.trans result

theorem Tracked.kept (tracked : watched.Tracked) : watched.Kept where
  commits _ _ enumerates := tracked.commits enumerates
  reads _ _ _ _ _ member cachedForPeer read := tracked.reads member cachedForPeer read

end Outcome

/-! ## One step -/

section Step

variable
  {watched next : Watched}
  {who : Nat}
  {state : PagerState}
  {ledger : Ledger}
  {since : Nat → UInt32 → List Page}

theorem Tracked.move
    (tracked : watched.Tracked)
    (coherent : state.Coherent)
    (unwritten :
      ∀ {other no},
        no ∉ Function.update watched.written who state.dirtyPages other →
          since other no = [])
    (findable :
      Findable (Function.update watched.written who state.dirtyPages) since
        (Function.update watched.cluster.spilled who state.spilled) state.pool.resident) :
    Tracked { cluster := watched.cluster.set who state ledger, since := since } := by
  have written :
      Watched.written { cluster := watched.cluster.set who state ledger, since := since } =
        Function.update watched.written who state.dirtyPages := by
    funext other
    by_cases own : other = who
    · subst own
      simp only [Watched.written, Cluster.set, Function.update_self]
    · simp only [Watched.written, Cluster.set, Function.update_of_ne own]
  exact {
    pool := coherent.pool
    pagers := by
      intro other
      by_cases own : other = who
      · subst own
        simp only [Cluster.set, Function.update_self]
        exact coherent.pager
      · simp only [Cluster.set, Function.update_of_ne own]
        exact tracked.pagers other
    since := by
      rw [written]
      exact unwritten
    findable := by
      rw [written, Cluster.set_spilled]
      exact findable }

/-- No image moved and no page was written. -/
theorem Tracked.still
    (tracked : watched.Tracked)
    (still : PagerState.Still (watched.cluster.view who) state) :
    Tracked { cluster := watched.cluster.set who state ledger, since := watched.since } := by
  have written : Function.update watched.written who state.dirtyPages = watched.written := by
    rw [still.keeps.dirtyPages]
    exact Function.update_eq_self _ _
  have spilled :
      Function.update watched.cluster.spilled who state.spilled =
        watched.cluster.spilled := by
    rw [still.spilled]
    exact Function.update_eq_self _ _
  apply tracked.move still.coherent
  · rw [written]
    exact tracked.since
  · rw [written, spilled, still.resident]
    exact tracked.findable

theorem displaced
    {pool : SharedPool}
    {no victim : UInt32}
    {page : Page}
    {dirty : Bool}
    (wellFormed : pool.WellFormed)
    (present : pool.resident victim ≠ none)
    (gone : (pool.put no page dirty).2.resident victim = none) :
    pool.Displaces no victim :=
  wellFormed.displaces (fun absent => present (Option.map_eq_none_iff.mpr absent))
    (Option.map_eq_none_iff.mp gone)

theorem Tracked.readPage
    (tracked : watched.Tracked)
    {no : UInt32}
    (undisturbed : watched.Undisturbed (who, .readPage no))
    (taken : watched.step (who, .readPage no) = some next) :
    next.Tracked := by
  obtain ⟨cluster, stepped, rfl⟩ := Option.map_eq_some_iff.mp taken
  have coherent := tracked.coherent who
  rcases PagerState.readPage_spec coherent no with
    ⟨frame, after, result, fetched⟩ | ⟨error, after, result, still, _⟩
  · simp only [Cluster.step, result, Option.some.injEq] at stepped
    subst stepped
    have pool : after.pool = ((watched.cluster.view who).readPage no).2.pool := by
      rw [result]
    have evicts :
        watched.cluster.shared.pool.resident no = none →
          ∀ victim,
            watched.cluster.shared.pool.resident victim ≠ none →
              after.pool.resident victim = none →
                (∀ other, other ≠ who → victim ∉ watched.written other) ∧
                  (victim ∈ watched.written who →
                    ∃ image,
                      watched.cluster.shared.pool.resident victim = some (image, true)) := by
      intro absent victim present gone
      apply undisturbed.evicts no rfl
      have missed : (watched.cluster.view who).pool.resident no = none := absent
      rcases PagerState.readPage_pool missed with same | ⟨page, dirty, same⟩
      · rw [pool, same] at gone
        exact absurd gone present
      · rw [pool, same] at gone
        exact displaced tracked.pool present gone
    have ownLog :
        watched.cluster.shared.pool.resident no = none →
          ∀ other,
            no ∈ watched.written other →
              other = who ∧
                ∃ image ∈ watched.since other no,
                  watched.cluster.spilled who no = some image := by
      intro absent other member
      have own : other = who := by
        by_contra different
        exact undisturbed.rereads no rfl absent other different member
      subst own
      obtain ⟨image, listed, place⟩ := tracked.findable.held member
      rcases place with ⟨dirty, cached⟩ | ⟨_, inLog⟩
      · rw [absent] at cached
        cases cached
      · exact ⟨rfl, image, listed, inLog⟩
    have written :
        ∀ {read : PagerState},
          PagerState.Keeps (watched.cluster.view who) read →
            Function.update watched.written who read.dirtyPages = watched.written := by
      intro read keeps
      rw [keeps.dirtyPages]
      exact Function.update_eq_self _ _
    -- Where the page was found decides what the pool gains.
    cases Cluster.fetched_pin fetched frame with
    | cached present still => exact tracked.still still
    | unspilled absent inLog admitted =>
        have inLog : watched.cluster.spilled who no = some frame.page := inLog
        have same := written admitted.keeps
        apply tracked.move admitted.coherent
        · rw [same]
          exact tracked.since
        · rw [same]
          refine tracked.findable.admission admitted.moves (evicts absent)
            (fun _ _ _ => ⟨rfl, Iff.rfl⟩) ?_ (fun _ member => member) ?_
          · intro other member
            obtain ⟨_, image, listed, last⟩ := ownLog absent other member
            rw [inLog] at last
            exact Option.some.inj last ▸ listed
          · intro image nonzero _
            exact ⟨who, tracked.findable.owned nonzero (inLog ▸ Option.some_ne_none _)⟩
    | fromFile absent notInLog inside image admitted =>
        have notInLog : watched.cluster.spilled who no = none := notInLog
        have same := written admitted.keeps
        apply tracked.move admitted.coherent
        · rw [same]
          exact tracked.since
        · rw [same]
          refine tracked.findable.admission admitted.moves (evicts absent)
            (fun _ _ _ => ⟨rfl, Iff.rfl⟩) ?_ (fun _ member => member) ?_
          · intro other member
            obtain ⟨_, _, _, last⟩ := ownLog absent other member
            rw [notInLog] at last
            cases last
          · intro other nonzero cached
            rw [admitted.moves.fresh absent] at cached
            cases cached
  · simp only [Cluster.step, result, Option.some.injEq] at stepped
    subst stepped
    exact tracked.still still

theorem wrote_elsewhere
    {no number : UInt32}
    {page : Page}
    (different : number ≠ no)
    (other : Nat) :
    watched.wrote who no page other number = watched.since other number := by
  rw [wrote, if_neg different]

theorem Tracked.writePage
    (tracked : watched.Tracked)
    {no : UInt32}
    {page : Page}
    (undisturbed : watched.Undisturbed (who, .writePage no page))
    (taken : watched.step (who, .writePage no page) = some next) :
    next.Tracked := by
  obtain ⟨cluster, stepped, rfl⟩ := Option.map_eq_some_iff.mp taken
  have coherent := tracked.coherent who
  rcases PagerState.writePage_spec coherent no page with
    ⟨after, result, stages⟩ | ⟨message, after, result, _, still⟩
  · simp only [Cluster.step, result, Option.some.injEq] at stepped
    subst stepped
    have since :
        watched.sinceAfter who (.writePage no page) = watched.wrote who no page := by
      simp only [sinceAfter, result]
    rw [since]
    have pool :
        after.pool = (watched.cluster.shared.pool.put no page true).2 := by
      have same := PagerState.writePage_pool (watched.cluster.view who) no page
      rw [result] at same
      exact same
    have member :
        ∀ other number,
          number ∈ Function.update watched.written who after.dirtyPages other ↔
            (other = who ∧ number = no) ∨ number ∈ watched.written other := by
      intro other number
      by_cases own : other = who
      · subst own
        rw [Function.update_self, stages.dirtyPages, Finset.mem_insert]
        exact or_congr (and_iff_right rfl).symm Iff.rfl
      · rw [Function.update_of_ne own]
        exact ⟨.inr, fun either => either.resolve_left fun both => own both.1⟩
    apply tracked.move stages.coherent
    · intro other number foreign
      have before : number ∉ watched.written other := fun listed =>
        foreign ((member other number).mpr (.inr listed))
      by_cases same : number = no
      · subst same
        have peer : other ≠ who := fun own => foreign ((member other number).mpr (.inl ⟨own, rfl⟩))
        rw [wrote, if_pos rfl, if_neg peer, if_pos (tracked.since before)]
      · rw [wrote_elsewhere same]
        exact tracked.since before
    · refine tracked.findable.admission stages.moves ?_ ?_ ?_ ?_ ?_
      · intro victim present gone
        rw [pool] at gone
        exact undisturbed.evicts no rfl victim (displaced tracked.pool present gone)
      · intro other number different
        refine ⟨wrote_elsewhere different other, (member other number).trans ?_⟩
        exact ⟨fun either => either.resolve_left fun both => different both.2, .inr⟩
      · intro other listed
        rw [wrote, if_pos rfl]
        by_cases own : other = who
        · rw [if_pos own]
          exact List.mem_singleton_self page
        · rw [if_neg own]
          have before : no ∈ watched.written other :=
            ((member other no).mp listed).resolve_left fun both => own both.1
          obtain ⟨image, since, _⟩ := tracked.findable.held before
          rw [if_neg (List.ne_nil_of_mem since)]
          exact List.mem_append_right _ (List.mem_singleton_self page)
      · exact fun other listed => (member other no).mpr (.inr listed)
      · exact fun _ _ _ => ⟨who, (member who no).mpr (.inl ⟨rfl, rfl⟩)⟩
  · simp only [Cluster.step, result, Option.some.injEq] at stepped
    subst stepped
    have since : watched.sinceAfter who (.writePage no page) = watched.since := by
      simp only [sinceAfter, result]
    rw [since]
    exact tracked.still still

/-- The pager forgets what it wrote; what its peers wrote stays as it was. -/
theorem unwritten_ended
    (tracked : watched.Tracked)
    {other : Nat}
    {no : UInt32}
    (foreign : no ∉ Function.update watched.written who ∅ other) :
    watched.ended who other no = [] := by
  by_cases own : other = who
  · subst own
    rw [ended, Function.update_self]
  · rw [Function.update_of_ne own] at foreign
    rw [ended, Function.update_of_ne own]
    exact tracked.since foreign

theorem Tracked.commit
    (tracked : watched.Tracked)
    {order : List UInt32}
    (taken : watched.step (who, .commit order) = some next) :
    next.Tracked := by
  obtain ⟨cluster, stepped, rfl⟩ := Option.map_eq_some_iff.mp taken
  simp only [Cluster.step] at stepped
  split at stepped
  case isFalse => cases stepped
  case isTrue enumerates =>
    have enumerates : PagerState.Enumerates order ((watched.written who).erase 0) := enumerates
    have coherent := tracked.coherent who
    rcases PagerState.commit_spec coherent order with
      ⟨clean, unlogged, result⟩ | ⟨after, result, committed⟩ |
        ⟨error, after, no, result, _⟩
    · simp only [result, Option.some.injEq] at stepped
      subst stepped
      have since : watched.sinceAfter who (.commit order) = watched.ended who := by
        simp only [sinceAfter, result]
      have nothing : watched.since who = fun _ => [] := by
        funext no
        apply tracked.since
        have empty : watched.written who = ∅ := clean
        rw [empty]
        exact Finset.notMem_empty no
      have same : watched.ended who = watched.since := by
        rw [ended, ← nothing]
        exact Function.update_eq_self _ _
      rw [since, same]
      exact tracked.still ⟨coherent, .refl _, rfl, rfl⟩
    · simp only [result, Option.some.injEq] at stepped
      subst stepped
      have since : watched.sinceAfter who (.commit order) = watched.ended who := by
        simp only [sinceAfter, result]
      rw [since]
      have lists :
          ∀ {no}, no ∈ order ↔ no ≠ 0 ∧ no ∈ watched.written who := by
        intro no
        rw [enumerates.mem_iff, Finset.mem_erase]
      apply tracked.move committed.coherent
      · rw [committed.dirtyPages]
        exact unwritten_ended tracked
      · rw [committed.dirtyPages, committed.spilled, committed.resident]
        exact tracked.findable.commit lists
    · obtain ⟨flushed, ok, _⟩ := tracked.commits enumerates
      cases result.symm.trans ok

theorem Tracked.rollback
    (tracked : watched.Tracked)
    {dropOrder drainOrder : List UInt32}
    (undisturbed : watched.Undisturbed (who, .rollback dropOrder drainOrder))
    (taken : watched.step (who, .rollback dropOrder drainOrder) = some next) :
    next.Tracked := by
  obtain ⟨cluster, stepped, rfl⟩ := Option.map_eq_some_iff.mp taken
  simp only [Cluster.step] at stepped
  split at stepped
  case isFalse => cases stepped
  case isTrue enumerates =>
    obtain rfl := Option.some.inj stepped
    obtain ⟨coherent, resident, spilled⟩ :=
      PagerState.rollback_spec (tracked.coherent who) dropOrder drainOrder
    have dirtyPages :
        ((watched.cluster.view who).rollback dropOrder drainOrder).dirtyPages = ∅ := rfl
    apply tracked.move coherent
    · rw [dirtyPages]
      exact unwritten_ended tracked
    · rw [dirtyPages, spilled, resident]
      exact tracked.findable.rollback enumerates.1.mem_iff
        (undisturbed.drops dropOrder drainOrder rfl)

theorem Tracked.release
    (tracked : watched.Tracked)
    {id : Nat}
    (taken : watched.step (who, .release id) = some next) :
    next.Tracked := by
  obtain ⟨cluster, stepped, rfl⟩ := Option.map_eq_some_iff.mp taken
  obtain rfl := Option.some.inj stepped
  have coherent := tracked.coherent who
  exact tracked.still
    (Cluster.still_of_handles coherent (coherent.pool.release id) rfl)

/-- Every undisturbed step keeps the peers' pages in the cache or on disk. -/
theorem Tracked.step
    {action : Nat × PagerAction}
    (tracked : watched.Tracked)
    (undisturbed : watched.Undisturbed action)
    (taken : watched.step action = some next) :
    next.Tracked := by
  obtain ⟨who, action⟩ := action
  cases action with
  | readPage no => exact tracked.readPage undisturbed taken
  | release id => exact tracked.release taken
  | writePage no page => exact tracked.writePage undisturbed taken
  | commit order => exact tracked.commit taken
  | rollback dropOrder drainOrder => exact tracked.rollback undisturbed taken
  | allocPage | freePage _ | setCatalogRoot _ | setNextTxId _ =>
      exact undisturbed.basic.elim

end Step

theorem tracked_opened
    {state : PagerState}
    (opened : state.Opened) :
    (Watched.opened state).Tracked := by
  have images := Cluster.images_opened opened (fun _ => ∅) []
  have written : (Watched.opened state).written = fun _ => ∅ := by
    funext who
    apply Finset.eq_empty_of_forall_notMem
    intro no member
    exact (@Cluster.Images.dirty _ images who no).mp member rfl
  exact {
    pool := images.pool
    pagers := images.pagers
    since := fun _ => rfl
    findable := {
      held := by
        intro who no member
        rw [written] at member
        cases member
      owned := by
        intro who no nonzero inLog
        exact absurd (images.tracks.unspilled nonzero rfl) inLog
      dirty := by
        intro no image nonzero cached
        cases images.tracks.clean nonzero (fun _ => rfl) cached } }

/--
In every run in which no pager evicts, reads past the cache or rolls back what a
peer has written, every commit succeeds, keeps its pager's writes and writes no
page its pager has not written.
-/
theorem peer_pages_kept
    {disk : Disk}
    {capacity : Nat}
    {state : PagerState}
    {actions : List (Nat × PagerAction)}
    {watched : Watched}
    (opened : Pager.openWithPool disk (.withCapacity capacity) = .ok state)
    (run : Run step Undisturbed (.opened state) actions watched) :
    watched.Kept :=
  (Run.invariant Tracked
    (fun tracked undisturbed taken => tracked.step undisturbed taken) run
    (tracked_opened (PagerState.openWithPool_spec opened))).kept

/-- A step while no pager has written a page. -/
theorem undisturbed_of_clean
    {watched : Watched}
    {action : Nat × PagerAction}
    (basic : Basic action.2)
    (clean : ∀ who, watched.written who = ∅) :
    watched.Undisturbed action where
  basic := basic
  evicts := by
    intro _ _ victim _
    rw [clean]
    exact ⟨fun other _ => clean other ▸ Finset.notMem_empty victim, nofun⟩
  rereads := fun no _ _ other _ => clean other ▸ Finset.notMem_empty no
  drops := fun _ _ _ no _ other _ => clean other ▸ Finset.notMem_empty no

theorem undisturbed_of_cached
    {watched : Watched}
    {who : Nat}
    {action : PagerAction}
    {no : UInt32}
    (wellFormed : watched.cluster.shared.pool.WellFormed)
    (touches : action = .readPage no ∨ ∃ page, action = .writePage no page)
    (cached : watched.cluster.shared.pool.resident no ≠ none) :
    watched.Undisturbed (who, action) := by
  have admitted : watched.cluster.admits (who, action) = some no := by
    rcases touches with rfl | ⟨page, rfl⟩ <;> rfl
  exact {
    basic := by rcases touches with rfl | ⟨page, rfl⟩ <;> trivial
    evicts := by
      intro other member victim displaces
      rw [admitted] at member
      obtain rfl := Option.mem_some_iff.mp member
      have absent := wellFormed.displaces_absent displaces
      exact absurd (Option.map_eq_none_iff.mpr absent) cached
    rereads := by
      intro other same absent
      rcases touches with rfl | ⟨page, rfl⟩
      · cases same
        exact absurd absent cached
      · cases same
    drops := by
      intro dropOrder drainOrder same
      rcases touches with rfl | ⟨page, rfl⟩ <;> cases same }

/-- A database file of two pages. -/
def twoPages : DbFile :=
  (DbFile.empty.writePage 0 (encodeHeader { initialMeta with pageCount := 2 })).writePage 1
    zeroPage

/-- The first pager on it. -/
def onTwoPages : PagerState :=
  PagerState.reopened twoPages { initialMeta with pageCount := 2 } 4

theorem openWithPool_twoPages :
    Pager.openWithPool { file := twoPages, logs := [] } (.withCapacity 4) =
      .ok onTwoPages := by
  apply PagerState.openWithPool_file
  · exact DbFile.writePage_nonempty _ _ _
  · have header :
        twoPages.pages 0 = encodeHeader { initialMeta with pageCount := 2 } := by
      have first : (0 : UInt32) ≠ 1 := by decide
      simp only [twoPages, DbFile.writePage_pages, Function.update_of_ne first,
        Function.update_self]
    rw [header]
    exact decodeHeader_encodeHeader _

/-- Both pagers write page 1 and the first commits it. -/
def sharedPage : List (Nat × PagerAction) :=
  [(0, .writePage 1 (filled 0xAA)), (1, .readPage 1), (1, .writePage 1 (filled 0xBB)),
    (0, .commit [1])]

/-- Two pagers write one page, the first one commits. -/
theorem shared_page_kept :
    ∃ watched,
      Run step Undisturbed (.opened onTwoPages) sharedPage watched ∧ watched.Kept := by
  have evaluated :
      ((step (.opened onTwoPages) (0, .writePage 1 (filled 0xAA))).bind fun first =>
        (step first (1, .readPage 1)).bind fun second =>
          (step second (1, .writePage 1 (filled 0xBB))).bind fun third =>
            (step third (0, .commit [1])).map fun _ =>
              (first.cluster.shared.pool.resident 1).isSome &&
                (second.cluster.shared.pool.resident 1).isSome) =
        some true := by
    decide +kernel
  obtain ⟨first, one, evaluated⟩ := Option.bind_eq_some_iff.mp evaluated
  obtain ⟨second, two, evaluated⟩ := Option.bind_eq_some_iff.mp evaluated
  obtain ⟨third, three, evaluated⟩ := Option.bind_eq_some_iff.mp evaluated
  obtain ⟨final, four, values⟩ := Option.map_eq_some_iff.mp evaluated
  obtain ⟨firstCached, secondCached⟩ := Bool.and_eq_true_iff.mp values
  have opened := PagerState.openWithPool_spec openWithPool_twoPages
  have start := tracked_opened opened
  have clean : ∀ who, (Watched.opened onTwoPages).written who = ∅ := by
    intro who
    match who with
    | 0 => rfl
    | _ + 1 => rfl
  have writes :
      (Watched.opened onTwoPages).Undisturbed (0, .writePage 1 (filled 0xAA)) :=
    undisturbed_of_clean trivial clean
  have afterFirst := start.step writes one
  have reads : first.Undisturbed (1, .readPage 1) :=
    undisturbed_of_cached afterFirst.pool (.inl rfl) (Option.isSome_iff_ne_none.mp firstCached)
  have afterSecond := afterFirst.step reads two
  have rewrites : second.Undisturbed (1, .writePage 1 (filled 0xBB)) :=
    undisturbed_of_cached afterSecond.pool (.inr ⟨_, rfl⟩)
      (Option.isSome_iff_ne_none.mp secondCached)
  have commits : third.Undisturbed (0, .commit [1]) :=
    { basic := trivial, evicts := nofun, rereads := nofun, drops := nofun }
  have run : Run step Undisturbed (.opened onTwoPages) sharedPage final :=
    ((((Run.nil _).snoc writes one).snoc reads two).snoc rewrites three).snoc commits four
  exact ⟨final, run, peer_pages_kept openWithPool_twoPages run⟩

/-- Both pagers read and write page 1 and the first rolls back. -/
def rolledBackUnderPeer : List (Nat × PagerAction) :=
  [(0, .readPage 1), (0, .writePage 1 (filled 0xAA)), (1, .readPage 1),
    (1, .writePage 1 (filled 0xBB)), (0, .rollback [1] [])]

/-- The second pager's commit finds its page gone. -/
theorem rollback_drops_peer_page :
    ∃ watched,
      Run step unrestricted (.opened onTwoPages) rolledBackUnderPeer watched ∧
        PagerState.Enumerates [1] ((watched.written 1).erase 0) ∧
        ((watched.cluster.view 1).commit [1]).1.toOption = none ∧
        ¬ watched.Kept := by
  have evaluated :
      (replay step unrestricted (.opened onTwoPages) rolledBackUnderPeer).map
          (fun watched =>
            (decide (PagerState.Enumerates [1] ((watched.written 1).erase 0)),
              ((watched.cluster.view 1).commit [1]).1.toOption)) =
        some (true, none) := by
    decide +kernel
  obtain ⟨watched, replayed, values⟩ := Option.map_eq_some_iff.mp evaluated
  obtain ⟨lists, failed⟩ := Prod.mk.inj values
  have enumerates := of_decide_eq_true lists
  refine ⟨watched, run_of_replay replayed, enumerates, failed, fun kept => ?_⟩
  obtain ⟨next, committed, _⟩ := kept.commits 1 [1] enumerates
  rw [committed] at failed
  cases failed

end Watched

end PrehniteDB
