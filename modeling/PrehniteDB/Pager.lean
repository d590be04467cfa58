import PrehniteDB.SharedPool
import PrehniteDB.WalLog
import Mathlib.Data.Finset.Basic

namespace PrehniteDB

/-!
# The pager

The operations of one pager on the file, the header and the pool it shares with
its peers.  An operation that fails keeps what it did before the failure.  The
iteration order of a hash set is a parameter of the operation that iterates.
-/

/-- What every pager on one file shares. -/
structure Shared where
  file : DbFile
  metadata : Meta
  pool : SharedPool

/-- What a pager keeps for itself. -/
structure Pager where
  wal : Wal
  /-- The offset of the latest spilled image of a page, the last insertion first. -/
  walIndex : List (UInt32 × Nat)
  /-- Pages written since the last commit or rollback. -/
  dirtyPages : Finset UInt32
  /-- Pages allocated since the last commit. -/
  allocatedPages : Finset UInt32
  /-- Pages allocated and then rolled back. -/
  pendingFreelist : List UInt32

/-- A pager with nothing staged. -/
def Pager.fresh : Pager where
  wal := .fresh
  walIndex := []
  dirtyPages := ∅
  allocatedPages := ∅
  pendingFreelist := []

/-- One pager and what it shares. -/
structure PagerState extends Shared, Pager

namespace PagerState

/-- The source's `admit`: a page enters the pool, a dirty evictee is spilled to the log. -/
def admitPage
    (state : PagerState)
    (no : UInt32)
    (page : Page)
    (dirty : Bool) : Except Error Frame × PagerState :=
  match state.pool.put no page dirty with
  | (.error error, pool) => (.error error, { state with pool := pool })
  | (.ok (frame, none), pool) => (.ok frame, { state with pool := pool })
  | (.ok (frame, some evicted), pool) =>
      let (offset, wal) := state.wal.appendPage evicted.no evicted.page
      (.ok frame, { state with
        pool := pool
        wal := wal
        walIndex := (evicted.no, offset) :: state.walIndex })

def readPage (state : PagerState) (no : UInt32) : Except Error Frame × PagerState :=
  match state.pool.get no with
  | (some frame, pool) => (.ok frame, { state with pool := pool })
  | (none, pool) =>
      let missed := { state with pool := pool }
      match state.walIndex.lookup no with
      | some offset =>
          -- Dirty, but evicted to the log.
          match state.wal.readPageAt offset with
          | none => (.error (.io "failed to fill whole buffer"), missed)
          | some page => missed.admitPage no page true
      | none =>
          let count := state.metadata.pageCount
          if count ≤ no then
            (.error (.corruption
              s!"read of page {no}, past the end of a {count}-page database"), missed)
          else missed.admitPage no (state.file.pages no) false

/-- Stage a page to be written on the next commit. -/
def writePage
    (state : PagerState)
    (no : UInt32)
    (page : Page) : Except Error Unit × PagerState :=
  match state.admitPage no page true with
  | (.error error, next) => (.error error, next)
  | (.ok _, next) => (.ok (), { next with dirtyPages := insert no next.dirtyPages })

/-- The end of `alloc_page`: stage page `no` as zeros and note it as allocated. -/
def stageAllocated (state : PagerState) (no : UInt32) : Except Error UInt32 × PagerState :=
  match state.writePage no zeroPage with
  | (.error error, next) => (.error error, next)
  | (.ok _, next) => (.ok no, { next with allocatedPages := insert no next.allocatedPages })

/-- `read_page` asks the shared header for the page count. -/
def readsHeader (state : PagerState) (no : UInt32) : Bool :=
  (state.pool.get no).1.isNone && (state.walIndex.lookup no).isNone

/--
`alloc_page`, `none` when the call never returns: it reads the head of the free
list while it holds the header lock, which `read_page` takes once more for a page
that is neither cached nor spilled.
-/
def allocPage (state : PagerState) : Option (Except Error UInt32 × PagerState) :=
  match state.pendingFreelist.getLast? with
  | some no =>
      some ({ state with
        pendingFreelist := state.pendingFreelist.dropLast }.stageAllocated no)
  | none =>
      let head := state.metadata.freelistHead
      if head ≠ 0 then
        if state.readsHeader head then none
        else
          match state.readPage head with
          | (.error error, next) => some (.error error, next)
          | (.ok frame, next) =>
              some ({ next with
                metadata := { next.metadata with
                  freelistHead := nextPointer frame.page } }.stageAllocated head)
      else
        let no := state.metadata.pageCount
        some ({ state with
          metadata := { state.metadata with pageCount := no + 1 } }.stageAllocated no)

/-- Return a page to the shared free list. -/
def freePage (state : PagerState) (no : UInt32) : Except Error Unit × PagerState :=
  match state.writePage no (linkPage state.metadata.freelistHead) with
  | (.error error, next) => (.error error, next)
  | (.ok _, next) =>
      (.ok (), { next with metadata := { next.metadata with freelistHead := no } })

/-- The flush of `commit`: append the dirty pages that were not spilled. -/
def flush : List UInt32 → PagerState → Except Error Unit × PagerState
  | [], state => (.ok (), state)
  | no :: rest, state =>
      match state.walIndex.lookup no with
      | some _ => flush rest state
      | none =>
          match state.pool.get no with
          | (none, pool) =>
              (.error (.corruption
                s!"dirty page {no} vanished from pool without WAL spill"),
                { state with pool := pool })
          | (some frame, pool) =>
              flush rest { state with
                pool := pool
                wal := (state.wal.appendPage no frame.page).2 }

/-- Durably commit every staged page; `order` lists the dirty pages but the header. -/
def commit (state : PagerState) (order : List UInt32) : Except Error Unit × PagerState :=
  if state.dirtyPages = ∅ ∧ state.walIndex = [] then (.ok (), state)
  else
    -- The header page is never flushed through the log.
    match flush order { state with dirtyPages := state.dirtyPages.erase 0 } with
    | (.error error, next) => (.error error, next)
    | (.ok _, next) =>
        let log := next.wal.seal
        let applied := log.apply next.file
        (.ok (), { next with
          file := applied.writePage 0 (encodeHeader next.metadata)
          wal := log.reset
          pool := next.pool.markClean order
          dirtyPages := ∅
          allocatedPages := ∅
          walIndex := [] })

/-- Discard every staged page; the shared header is not reverted. -/
def rollback (state : PagerState) (dropOrder drainOrder : List UInt32) : PagerState :=
  { state with
    pool := state.pool.dropPages dropOrder
    pendingFreelist := state.pendingFreelist ++ drainOrder
    allocatedPages := ∅
    dirtyPages := ∅
    walIndex := []
    wal := state.wal.discard }

def setCatalogRoot (state : PagerState) (root : UInt32) : PagerState :=
  { state with metadata := { state.metadata with catalogRoot := root } }

/-- `bump_next_tx_id_to`. -/
def setNextTxId (state : PagerState) (id : UInt64) : PagerState :=
  { state with
    metadata := { state.metadata with
      nextTxId := if state.metadata.nextTxId < id then id else state.metadata.nextTxId } }

/-- `order` is an iteration order of the set. -/
def Enumerates (order : List UInt32) (pages : Finset UInt32) : Prop :=
  order.Nodup ∧ order.toFinset = pages

instance (order : List UInt32) (pages : Finset UInt32) : Decidable (Enumerates order pages) :=
  inferInstanceAs (Decidable (_ ∧ _))

theorem Enumerates.mem_iff
    {order : List UInt32}
    {pages : Finset UInt32}
    (enumerates : Enumerates order pages)
    {no : UInt32} :
    no ∈ order ↔ no ∈ pages := by
  rw [← enumerates.2, List.mem_toFinset]

end PagerState

/-! ## Opening a file -/

/-- What a process leaves on disk: the database file and the log files beside it. -/
structure Disk where
  file : DbFile
  /-- The leftover logs in the order recovery replays them. -/
  logs : List (List WalRecord)

/-- Replay every leftover log. -/
def recoverLogs : List (List WalRecord) → DbFile → DbFile
  | [], file => file
  | log :: rest, file =>
      let orphan : Wal := { file := log, cursor := 0, records := 0 }
      recoverLogs rest (orphan.recover file).2.2

/-- The header of an empty database. -/
def initialMeta : Meta where
  pageCount := 1
  freelistHead := 0
  catalogRoot := 0
  nextTxId := 1

def Pager.openWithPool (disk : Disk) (pool : SharedPool) : Except Error PagerState :=
  let file := recoverLogs disk.logs disk.file
  if file.length = 0 then
    let created : PagerState :=
      { file := file, metadata := initialMeta, pool := pool, toPager := .fresh }
    -- A brand-new file: lay down the header page and flush it.
    match created.writePage 0 (encodeHeader initialMeta) with
    | (.error error, _) => .error error
    | (.ok _, written) =>
        match written.commit [] with
        | (.error error, _) => .error error
        | (.ok _, committed) => .ok committed
  else
    match decodeHeader (file.pages 0) with
    | .error error => .error error
    | .ok metadata =>
        .ok { file := file, metadata := metadata, pool := pool, toPager := .fresh }

end PrehniteDB
