import PrehniteDB.PagerEffect
import PrehniteDB.TransitionRun

namespace PrehniteDB

/-!
# Every pager on one file

The pagers share the file, the header and the pool and run their operations one
after another.  Beside each pager stands a ledger of what its caller knows: the
images it staged and the pages it uses.  No operation reads a ledger.
-/

/-- What the caller of one pager knows. -/
structure Ledger where
  /-- The last image written to a page since the last commit or rollback. -/
  staged : UInt32 → Option Page
  /-- Pages in use: allocated or owned, and not freed. -/
  inUse : Finset UInt32
  /-- Pages in use at the last commit. -/
  committed : Finset UInt32
  /-- The image of every page as of the last commit. -/
  base : UInt32 → Page

namespace Ledger

def stage (ledger : Ledger) (no : UInt32) (page : Page) : Ledger :=
  { ledger with staged := Function.update ledger.staged no (some page) }

def take (ledger : Ledger) (no : UInt32) : Ledger :=
  { ledger with inUse := insert no ledger.inUse }

def release (ledger : Ledger) (no : UInt32) : Ledger :=
  { ledger with inUse := ledger.inUse.erase no }

def commit (ledger : Ledger) : Ledger where
  staged := fun _ => none
  inUse := ledger.inUse
  committed := ledger.inUse
  base := fun no => (ledger.staged no).getD (ledger.base no)

def rollback (ledger : Ledger) : Ledger :=
  { ledger with staged := fun _ => none, inUse := ledger.committed }

end Ledger

inductive PagerAction where
  | readPage (no : UInt32)
  /-- Drop a `PageRef`. -/
  | release (id : Nat)
  | writePage (no : UInt32) (page : Page)
  | allocPage
  | freePage (no : UInt32)
  | commit (order : List UInt32)
  | rollback (dropOrder drainOrder : List UInt32)
  | setCatalogRoot (root : UInt32)
  | setNextTxId (id : UInt64)

structure Cluster where
  shared : Shared
  pagers : Nat → Pager
  ledgers : Nat → Ledger
  /-- Free pages, the head first, each with the link `free_page` wrote into it. -/
  freeList : List (UInt32 × UInt32)

namespace Cluster

/-- The cluster as pager `who` sees it. -/
def view (cluster : Cluster) (who : Nat) : PagerState :=
  { toShared := cluster.shared, toPager := cluster.pagers who }

/-- Pager `who` has moved to `state`. -/
def set (cluster : Cluster) (who : Nat) (state : PagerState) (ledger : Ledger) : Cluster :=
  { cluster with
    shared := state.toShared
    pagers := Function.update cluster.pagers who state.toPager
    ledgers := Function.update cluster.ledgers who ledger }

/-- The free list once `alloc_page` has returned a page. -/
def listAfterAlloc (cluster : Cluster) (who : Nat) : List (UInt32 × UInt32) :=
  if (cluster.pagers who).pendingFreelist = [] ∧ cluster.shared.metadata.freelistHead ≠ 0 then
    cluster.freeList.tail
  else cluster.freeList

/-- One operation of one pager, `none` when it never returns or its orders are no orders. -/
def step (cluster : Cluster) : Nat × PagerAction → Option Cluster
  | (who, .readPage no) =>
      match (cluster.view who).readPage no with
      | (.error _, next) => some (cluster.set who next (cluster.ledgers who))
      | (.ok frame, next) =>
          some (cluster.set who { next with pool := next.pool.pin frame }
            (cluster.ledgers who))
  | (who, .release id) =>
      let state := cluster.view who
      some (cluster.set who { state with pool := state.pool.release id }
        (cluster.ledgers who))
  | (who, .writePage no page) =>
      match (cluster.view who).writePage no page with
      | (.error _, next) => some (cluster.set who next (cluster.ledgers who))
      | (.ok _, next) => some (cluster.set who next ((cluster.ledgers who).stage no page))
  | (who, .allocPage) =>
      match (cluster.view who).allocPage with
      | none => none
      | some (.error _, next) => some (cluster.set who next (cluster.ledgers who))
      | some (.ok no, next) =>
          some { cluster.set who next (((cluster.ledgers who).stage no zeroPage).take no) with
            freeList := cluster.listAfterAlloc who }
  | (who, .freePage no) =>
      match (cluster.view who).freePage no with
      | (.error _, next) => some (cluster.set who next (cluster.ledgers who))
      | (.ok _, next) =>
          let head := cluster.shared.metadata.freelistHead
          some { cluster.set who next
              (((cluster.ledgers who).stage no (linkPage head)).release no) with
            freeList := (no, head) :: cluster.freeList }
  | (who, .commit order) =>
      if PagerState.Enumerates order ((cluster.pagers who).dirtyPages.erase 0) then
        match (cluster.view who).commit order with
        | (.error _, next) => some (cluster.set who next (cluster.ledgers who))
        | (.ok _, next) => some (cluster.set who next (cluster.ledgers who).commit)
      else none
  | (who, .rollback dropOrder drainOrder) =>
      if PagerState.Enumerates dropOrder (cluster.pagers who).dirtyPages ∧
          PagerState.Enumerates drainOrder (cluster.pagers who).allocatedPages then
        some (cluster.set who ((cluster.view who).rollback dropOrder drainOrder)
          (cluster.ledgers who).rollback)
      else none
  | (who, .setCatalogRoot root) =>
      some (cluster.set who ((cluster.view who).setCatalogRoot root) (cluster.ledgers who))
  | (who, .setNextTxId id) =>
      some (cluster.set who ((cluster.view who).setNextTxId id) (cluster.ledgers who))

/-- The first pager has opened the file; its peers have staged nothing. -/
def opened
    (state : PagerState)
    (owned : Nat → Finset UInt32)
    (freeList : List (UInt32 × UInt32)) : Cluster where
  shared := state.toShared
  pagers := Function.update (fun _ => .fresh) 0 state.toPager
  ledgers := fun who => {
    staged := fun _ => none
    inUse := owned who
    committed := owned who
    base := state.file.pages }
  freeList := freeList

/-- The page an action brings into the pool, if it brings one. -/
def admits (cluster : Cluster) : Nat × PagerAction → Option UInt32
  | (_, .readPage no) => some no
  | (_, .writePage no _) => some no
  | (who, .allocPage) =>
      match (cluster.pagers who).pendingFreelist.getLast? with
      | some no => some no
      | none =>
          if cluster.shared.metadata.freelistHead ≠ 0 then
            some cluster.shared.metadata.freelistHead
          else some cluster.shared.metadata.pageCount
  | (_, .freePage no) => some no
  | _ => none

@[simp]
theorem view_set_self
    (cluster : Cluster)
    (who : Nat)
    (state : PagerState)
    (ledger : Ledger) :
    (cluster.set who state ledger).view who = state := by
  simp only [view, set, Function.update_self]

/-- What one operation of pager `who` can do. -/
inductive Effect (cluster : Cluster) (who : Nat) : PagerAction → Cluster → Prop where
  | still
      {action : PagerAction}
      {state : PagerState}
      (still : PagerState.Still (cluster.view who) state) :
      Effect cluster who action (cluster.set who state (cluster.ledgers who))
  | fetched
      {no : UInt32}
      {image : Page}
      {state : PagerState}
      (fetched : PagerState.Fetched (cluster.view who) no image state) :
      Effect cluster who (.readPage no) (cluster.set who state (cluster.ledgers who))
  | staged
      {no : UInt32}
      {page : Page}
      {state : PagerState}
      (stages : PagerState.Staged (cluster.view who) no page state) :
      Effect cluster who (.writePage no page)
        (cluster.set who state ((cluster.ledgers who).stage no page))
  | allocated
      {no : UInt32}
      {state : PagerState}
      (allocated : PagerState.Allocated (cluster.view who) no state) :
      Effect cluster who .allocPage
        { cluster.set who state (((cluster.ledgers who).stage no zeroPage).take no) with
          freeList := cluster.listAfterAlloc who }
  | allocFailed
      {state : PagerState}
      (failed : PagerState.AllocFailed (cluster.view who) state) :
      Effect cluster who .allocPage (cluster.set who state (cluster.ledgers who))
  | freed
      {no : UInt32}
      {state : PagerState}
      (stages :
        PagerState.Staged (cluster.view who) no
          (linkPage cluster.shared.metadata.freelistHead) state) :
      Effect cluster who (.freePage no)
        { cluster.set who
            { state with metadata := { state.metadata with freelistHead := no } }
            (((cluster.ledgers who).stage no
              (linkPage cluster.shared.metadata.freelistHead)).release no) with
          freeList := (no, cluster.shared.metadata.freelistHead) :: cluster.freeList }
  | idleCommit
      {order : List UInt32}
      (clean : (cluster.pagers who).dirtyPages = ∅)
      (unspilled : (cluster.pagers who).walIndex = []) :
      Effect cluster who (.commit order)
        (cluster.set who (cluster.view who) (cluster.ledgers who).commit)
  | committed
      {order : List UInt32}
      {state : PagerState}
      (enumerates : PagerState.Enumerates order ((cluster.pagers who).dirtyPages.erase 0))
      (committed : PagerState.Committed (cluster.view who) order state) :
      Effect cluster who (.commit order)
        (cluster.set who state (cluster.ledgers who).commit)
  | vanished
      {order : List UInt32}
      {state : PagerState}
      {no : UInt32}
      (enumerates : PagerState.Enumerates order ((cluster.pagers who).dirtyPages.erase 0))
      (file : state.file = cluster.shared.file)
      (listed : no ∈ order)
      (unspilled : (cluster.pagers who).spilled no = none)
      (absent : cluster.shared.pool.resident no = none) :
      Effect cluster who (.commit order) (cluster.set who state (cluster.ledgers who))
  | rolledBack
      {dropOrder drainOrder : List UInt32}
      (drops : PagerState.Enumerates dropOrder (cluster.pagers who).dirtyPages)
      (drains : PagerState.Enumerates drainOrder (cluster.pagers who).allocatedPages) :
      Effect cluster who (.rollback dropOrder drainOrder)
        (cluster.set who ((cluster.view who).rollback dropOrder drainOrder)
          (cluster.ledgers who).rollback)
  | header
      {action : PagerAction}
      {metadata : Meta}
      (pageCount : metadata.pageCount = cluster.shared.metadata.pageCount)
      (freelistHead : metadata.freelistHead = cluster.shared.metadata.freelistHead) :
      Effect cluster who action
        (cluster.set who { cluster.view who with metadata := metadata }
          (cluster.ledgers who))

/-- Pinning or releasing a frame moves no image. -/
theorem still_of_handles
    {state : PagerState}
    {pool : SharedPool}
    (coherent : state.Coherent)
    (wellFormed : pool.WellFormed)
    (resident : pool.resident = state.pool.resident) :
    PagerState.Still state { state with pool := pool } :=
  ⟨⟨wellFormed, coherent.pager⟩, ⟨rfl, rfl, rfl, rfl, rfl⟩, resident, rfl⟩

theorem fetched_pin
    {state next : PagerState}
    {no : UInt32}
    {image : Page}
    (fetched : PagerState.Fetched state no image next)
    (frame : Frame) :
    PagerState.Fetched state no image { next with pool := next.pool.pin frame } := by
  have admitted :
      ∀ {dirty},
        PagerState.Admitted state no image dirty next →
          PagerState.Admitted state no image dirty
            { next with pool := next.pool.pin frame } := by
    intro dirty admitted
    exact ⟨⟨admitted.coherent.pool.pin frame, admitted.coherent.pager⟩,
      ⟨admitted.keeps.file, admitted.keeps.metadata, admitted.keeps.dirtyPages,
        admitted.keeps.allocatedPages, admitted.keeps.pendingFreelist⟩, admitted.moves⟩
  cases fetched with
  | cached present still =>
      exact .cached present
        ⟨⟨still.coherent.pool.pin frame, still.coherent.pager⟩,
          ⟨still.keeps.file, still.keeps.metadata, still.keeps.dirtyPages,
            still.keeps.allocatedPages, still.keeps.pendingFreelist⟩,
          still.resident, still.spilled⟩
  | unspilled absent inLog moved => exact .unspilled absent inLog (admitted moved)
  | fromFile absent notInLog inside same moved =>
      exact .fromFile absent notInLog inside same (admitted moved)

/-- What a step of one pager does to the cluster. -/
theorem step_effect
    {cluster next : Cluster}
    {who : Nat}
    {action : PagerAction}
    (coherent : (cluster.view who).Coherent)
    (taken : cluster.step (who, action) = some next) :
    Effect cluster who action next := by
  cases action with
  | readPage no =>
      rcases PagerState.readPage_spec coherent no with
        ⟨frame, state, result, fetched⟩ | ⟨error, state, result, still, -, -⟩
      · simp only [step, result, Option.some.injEq] at taken
        subst taken
        exact .fetched (fetched_pin fetched frame)
      · simp only [step, result, Option.some.injEq] at taken
        subst taken
        exact .still still
  | release id =>
      simp only [step, Option.some.injEq] at taken
      subst taken
      exact .still (still_of_handles coherent (coherent.pool.release id) rfl)
  | writePage no page =>
      rcases PagerState.writePage_spec coherent no page with
        ⟨state, result, stages⟩ | ⟨message, state, result, -, still⟩
      · simp only [step, result, Option.some.injEq] at taken
        subst taken
        exact .staged stages
      · simp only [step, result, Option.some.injEq] at taken
        subst taken
        exact .still still
  | allocPage =>
      rcases PagerState.allocPage_spec coherent with
        ⟨no, state, result, allocated⟩ | ⟨error, state, result, failed⟩ | ⟨result, -⟩
      · simp only [step, result, Option.some.injEq] at taken
        subst taken
        exact .allocated allocated
      · simp only [step, result, Option.some.injEq] at taken
        subst taken
        exact .allocFailed failed
      · simp only [step, result, reduceCtorEq] at taken
  | freePage no =>
      rcases PagerState.freePage_spec coherent no with
        ⟨state, result, stages⟩ | ⟨error, state, result, still⟩
      · simp only [step, result, Option.some.injEq] at taken
        subst taken
        exact .freed stages
      · simp only [step, result, Option.some.injEq] at taken
        subst taken
        exact .still still
  | commit order =>
      simp only [step] at taken
      split at taken
      · next enumerates =>
          rcases PagerState.commit_spec coherent order with
            ⟨clean, unspilled, result⟩ | ⟨state, result, committed⟩ |
              ⟨error, state, no, result, file, listed, unspilled, absent⟩
          · simp only [result, Option.some.injEq] at taken
            subst taken
            exact .idleCommit clean unspilled
          · simp only [result, Option.some.injEq] at taken
            subst taken
            exact .committed enumerates committed
          · simp only [result, Option.some.injEq] at taken
            subst taken
            exact .vanished enumerates file listed unspilled absent
      · cases taken
  | rollback dropOrder drainOrder =>
      simp only [step] at taken
      split at taken
      · next enumerates =>
          simp only [Option.some.injEq] at taken
          subst taken
          exact .rolledBack enumerates.1 enumerates.2
      · cases taken
  | setCatalogRoot root =>
      simp only [step, Option.some.injEq] at taken
      subst taken
      exact .header rfl rfl
  | setNextTxId id =>
      simp only [step, Option.some.injEq] at taken
      subst taken
      exact .header rfl rfl

end Cluster

end PrehniteDB
