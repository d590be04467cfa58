import PrehniteDB.BufferPool

namespace PrehniteDB

/-!
# The shared buffer pool

A page is routed to a shard by its number.  Seen through `cached` the shards are
one cache, and every operation changes what is cached for the pages it names and
for the one page it evicts.
-/

def POOL_CAPACITY : Nat := 1024

def POOL_SHARDS : Nat := 16

structure SharedPool where
  shardCount : Nat
  /-- The shards, those below `shardCount`. -/
  shards : Nat → BufferPool
  /-- The frames live `PageRef`s hold, one entry a handle. -/
  handles : List Nat
  nextFrame : Nat

namespace SharedPool

/-- An empty pool whose shards together hold `capacity` frames. -/
def withCapacity (capacity : Nat) : SharedPool :=
  let total := max capacity 1
  let shardCount := min total POOL_SHARDS
  { shardCount := shardCount
    shards := fun shard =>
      .new (total / shardCount + if shard < total % shardCount then 1 else 0)
    handles := []
    nextFrame := 0 }

/-- `SharedPool::new`. -/
def new : SharedPool := withCapacity POOL_CAPACITY

variable (pool : SharedPool)

/-- The shard that owns page `no`. -/
def shardOf (no : UInt32) : Nat :=
  no.toNat % pool.shardCount

def setShard (shard : Nat) (changed : BufferPool) : SharedPool :=
  { pool with shards := Function.update pool.shards shard changed }

/-- The frame of page `no` if it is resident, marked as recently used. -/
def get (no : UInt32) : Option Frame × SharedPool :=
  let (frame, changed) := (pool.shards (pool.shardOf no)).lookup no
  (frame, pool.setShard (pool.shardOf no) changed)

/-- Admit a page as a new frame, with the dirty evictee if there is one. -/
def put
    (no : UInt32)
    (page : Page)
    (dirty : Bool) : Except Error (Frame × Option Frame) × SharedPool :=
  let frame : Frame := { id := pool.nextFrame, no := no, page := page }
  let (result, changed) :=
    (pool.shards (pool.shardOf no)).put pool.handles frame dirty
  (result.map (frame, ·),
    { pool.setShard (pool.shardOf no) changed with nextFrame := pool.nextFrame + 1 })

/-- Mark these pages clean. -/
def markClean : List UInt32 → SharedPool → SharedPool
  | [], pool => pool
  | no :: rest, pool =>
      markClean rest
        (pool.setShard (pool.shardOf no) ((pool.shards (pool.shardOf no)).clean no))

/-- Drop these pages. -/
def dropPages : List UInt32 → SharedPool → SharedPool
  | [], pool => pool
  | no :: rest, pool =>
      dropPages rest
        (pool.setShard (pool.shardOf no) ((pool.shards (pool.shardOf no)).drop no))

/-- A new `PageRef` to a frame. -/
def pin (frame : Frame) : SharedPool :=
  { pool with handles := frame.id :: pool.handles }

/-- Drop one `PageRef`. -/
def release (id : Nat) : SharedPool :=
  { pool with handles := pool.handles.erase id }

/-- What is cached for every page. -/
def cached : Cached :=
  fun no => (pool.shards (pool.shardOf no)).cached no

/-- Each shard keeps its books and caches only the pages routed to it. -/
structure WellFormed : Prop where
  indexed : ∀ shard, (pool.shards shard).Indexed
  routed :
    ∀ {shard no},
      (pool.shards shard).cached no ≠ none → pool.shardOf no = shard

section Shards

variable {pool : SharedPool} {shard : Nat} {changed : BufferPool}

theorem setShard_cached
    (pool : SharedPool)
    (shard : Nat)
    (changed : BufferPool) :
    (pool.setShard shard changed).cached =
      fun no => if pool.shardOf no = shard then changed.cached no else pool.cached no := by
  funext no
  change (Function.update pool.shards shard changed (pool.shardOf no)).cached no = _
  by_cases here : pool.shardOf no = shard
  · rw [if_pos here, here, Function.update_self]
  · rw [if_neg here, Function.update_of_ne here]
    rfl

theorem WellFormed.setShard
    (wellFormed : pool.WellFormed)
    (indexed : changed.Indexed)
    (routed : ∀ {no}, changed.cached no ≠ none → pool.shardOf no = shard) :
    (pool.setShard shard changed).WellFormed where
  indexed := by
    intro other
    change (Function.update pool.shards shard changed other).Indexed
    by_cases same : other = shard
    · rw [same, Function.update_self]
      exact indexed
    · rw [Function.update_of_ne same]
      exact wellFormed.indexed other
  routed := by
    intro other no present
    change (Function.update pool.shards shard changed other).cached no ≠ none at present
    by_cases same : other = shard
    · rw [same, Function.update_self] at present
      exact (routed present).trans same.symm
    · rw [Function.update_of_ne same] at present
      exact wellFormed.routed present

/-- A change of one page in its shard is a change of that page in the pool. -/
theorem merge_update
    {no : UInt32}
    {cachedShard cached : Cached}
    (here : pool.shardOf no = shard)
    (entry : Option (Frame × Bool)) :
    (fun other =>
        if pool.shardOf other = shard then Function.update cachedShard no entry other
        else cached other) =
      Function.update
        (fun other => if pool.shardOf other = shard then cachedShard other else cached other)
        no entry := by
  funext other
  by_cases same : other = no
  · subst same
    rw [Function.update_self, Function.update_self, if_pos here]
  · rw [Function.update_of_ne same, Function.update_of_ne same]

theorem merge_self
    (pool : SharedPool)
    (shard : Nat) :
    (fun other =>
        if pool.shardOf other = shard then (pool.shards shard).cached other
        else pool.cached other) =
      pool.cached := by
  funext other
  by_cases here : pool.shardOf other = shard
  · rw [if_pos here, ← here]
    rfl
  · rw [if_neg here]

end Shards

theorem wellFormed_withCapacity (capacity : Nat) : (withCapacity capacity).WellFormed where
  indexed := fun _ => BufferPool.indexed_new _
  routed := fun present => absurd rfl present

variable {pool}

theorem get_frame (pool : SharedPool) (no : UInt32) :
    (pool.get no).1 = (pool.cached no).map Prod.fst :=
  BufferPool.lookup_frame _ no

theorem get_cached (pool : SharedPool) (no : UInt32) :
    (pool.get no).2.cached = pool.cached := by
  have touched := BufferPool.lookup_touched (pool.shards (pool.shardOf no)) no
  calc (pool.get no).2.cached
      = fun other =>
          if pool.shardOf other = pool.shardOf no then
            ((pool.shards (pool.shardOf no)).lookup no).2.cached other
          else pool.cached other := setShard_cached _ _ _
    _ = pool.cached := by
        rw [touched.cached]
        exact merge_self pool (pool.shardOf no)

theorem get_miss
    {no : UInt32}
    (missed : (pool.get no).1 = none) :
    (pool.get no).2 = pool := by
  have unchanged :
      ((pool.shards (pool.shardOf no)).lookup no).2 = pool.shards (pool.shardOf no) :=
    BufferPool.lookup_miss missed
  calc (pool.get no).2
      = pool.setShard (pool.shardOf no)
          ((pool.shards (pool.shardOf no)).lookup no).2 := rfl
    _ = pool := by
        rw [unchanged, setShard, Function.update_eq_self]

theorem WellFormed.get
    (wellFormed : pool.WellFormed)
    (no : UInt32) :
    (pool.get no).2.WellFormed := by
  have touched := BufferPool.lookup_touched (pool.shards (pool.shardOf no)) no
  refine wellFormed.setShard (touched.indexed (wellFormed.indexed _)) fun present => ?_
  exact wellFormed.routed (touched.cached ▸ present)

/-- The frame `put` makes of a page. -/
def newFrame (pool : SharedPool) (no : UInt32) (page : Page) : Frame :=
  { id := pool.nextFrame, no := no, page := page }

theorem cached_eq_shard
    {no : UInt32}
    {shard : Nat}
    (here : pool.shardOf no = shard) :
    pool.cached no = (pool.shards shard).cached no := by
  rw [← here]
  rfl

theorem admission_merge
    (wellFormed : pool.WellFormed)
    {shard : Nat}
    {frame : Frame}
    {dirty : Bool}
    {result : Except Error (Option Frame)}
    {after : Cached}
    (here : pool.shardOf frame.no = shard)
    (admission :
      BufferPool.Admission (pool.shards shard).cached pool.handles frame dirty result after) :
    (∀ {other}, after other ≠ none → pool.shardOf other = shard) ∧
      BufferPool.Admission pool.cached pool.handles frame dirty result
        (fun other =>
          if pool.shardOf other = shard then after other else pool.cached other) := by
  have routed :
      ∀ {other entry},
        Function.update (pool.shards shard).cached frame.no entry other ≠ none →
          pool.shardOf other = shard := by
    intro other entry present
    by_cases same : other = frame.no
    · rw [same, here]
    · rw [Function.update_of_ne same] at present
      exact wellFormed.routed present
  cases admission with
  | replaced resident =>
      refine ⟨routed, ?_⟩
      rw [merge_update here, merge_self]
      exact .replaced ((cached_eq_shard here).trans resident)
  | inserted absent =>
      refine ⟨routed, ?_⟩
      rw [merge_update here, merge_self]
      exact .inserted ((cached_eq_shard here).trans absent)
  | @evicted victim wasDirty absent resident unpinned =>
      have victimHere : pool.shardOf victim.no = shard :=
        wellFormed.routed (resident ▸ Option.some_ne_none _)
      constructor
      · intro other present
        by_cases same : other = frame.no
        · rw [same, here]
        · rw [Function.update_of_ne same] at present
          by_cases isVictim : other = victim.no
          · rw [isVictim, victimHere]
          · rw [Function.update_of_ne isVictim] at present
            exact wellFormed.routed present
      · rw [merge_update here, merge_update victimHere, merge_self]
        exact .evicted ((cached_eq_shard here).trans absent)
          ((cached_eq_shard victimHere).trans resident) unpinned
  | exhausted absent capacity =>
      refine ⟨wellFormed.routed, ?_⟩
      rw [merge_self]
      exact .exhausted ((cached_eq_shard here).trans absent) capacity

theorem put_spec
    (wellFormed : pool.WellFormed)
    (no : UInt32)
    (page : Page)
    (dirty : Bool) :
    (pool.put no page dirty).2.WellFormed ∧
      ∃ result,
        (pool.put no page dirty).1 = result.map (pool.newFrame no page, ·) ∧
          BufferPool.Admission pool.cached pool.handles (pool.newFrame no page) dirty
            result (pool.put no page dirty).2.cached := by
  obtain ⟨indexed, admission⟩ :=
    BufferPool.put_spec (wellFormed.indexed (pool.shardOf no)) pool.handles
      (pool.newFrame no page) dirty
  have here : pool.shardOf (pool.newFrame no page).no = pool.shardOf no := rfl
  obtain ⟨routed, merged⟩ := admission_merge wellFormed here admission
  have set := wellFormed.setShard indexed routed
  refine ⟨⟨set.indexed, set.routed⟩, _, rfl, ?_⟩
  exact setShard_cached pool _ _ ▸ merged

/-- `markClean` clears the dirty bits of these pages and changes nothing else. -/
theorem markClean_spec
    (wellFormed : pool.WellFormed)
    (pages : List UInt32) :
    (markClean pages pool).WellFormed ∧
      (markClean pages pool).cached = fun no =>
        if no ∈ pages then (pool.cached no).map fun entry => (entry.1, false)
        else pool.cached no := by
  induction pages generalizing pool with
  | nil => exact ⟨wellFormed, by simp [markClean]⟩
  | cons page rest inductionHypothesis =>
      obtain ⟨indexed, cleaned⟩ :=
        BufferPool.clean_spec (wellFormed.indexed (pool.shardOf page)) page
      have set :
          (pool.setShard (pool.shardOf page)
            ((pool.shards (pool.shardOf page)).clean page)).WellFormed := by
        refine wellFormed.setShard indexed fun {other} present => ?_
        rw [cleaned] at present
        by_cases same : other = page
        · rw [same]
        · rw [Function.update_of_ne same] at present
          exact wellFormed.routed present
      have setCached :
          (pool.setShard (pool.shardOf page)
            ((pool.shards (pool.shardOf page)).clean page)).cached =
              Function.update pool.cached page
                ((pool.cached page).map fun entry => (entry.1, false)) := by
        rw [setShard_cached, cleaned, merge_update rfl, merge_self]
        rfl
      obtain ⟨nextWellFormed, nextCached⟩ := inductionHypothesis set
      refine ⟨nextWellFormed, ?_⟩
      funext no
      rw [markClean, nextCached, setCached]
      by_cases same : no = page
      · subst same
        simp [Option.map_map, Function.comp_def]
      · simp [same]

/-- `dropPages` forgets these pages and no others. -/
theorem dropPages_spec
    (wellFormed : pool.WellFormed)
    (pages : List UInt32) :
    (dropPages pages pool).WellFormed ∧
      (dropPages pages pool).cached = fun no =>
        if no ∈ pages then none else pool.cached no := by
  induction pages generalizing pool with
  | nil => exact ⟨wellFormed, by simp [dropPages]⟩
  | cons page rest inductionHypothesis =>
      obtain ⟨indexed, dropped⟩ :=
        BufferPool.drop_spec (wellFormed.indexed (pool.shardOf page)) page
      have set :
          (pool.setShard (pool.shardOf page)
            ((pool.shards (pool.shardOf page)).drop page)).WellFormed := by
        refine wellFormed.setShard indexed fun {other} present => ?_
        rw [dropped] at present
        by_cases same : other = page
        · rw [same]
        · rw [Function.update_of_ne same] at present
          exact wellFormed.routed present
      have setCached :
          (pool.setShard (pool.shardOf page)
            ((pool.shards (pool.shardOf page)).drop page)).cached =
              Function.update pool.cached page none := by
        rw [setShard_cached, dropped, merge_update rfl, merge_self]
      obtain ⟨nextWellFormed, nextCached⟩ := inductionHypothesis set
      refine ⟨nextWellFormed, ?_⟩
      funext no
      rw [dropPages, nextCached, setCached]
      by_cases same : no = page
      · subst same
        simp
      · simp [same]

theorem WellFormed.pin
    (wellFormed : pool.WellFormed)
    (frame : Frame) :
    (pool.pin frame).WellFormed :=
  ⟨wellFormed.indexed, wellFormed.routed⟩

theorem WellFormed.release
    (wellFormed : pool.WellFormed)
    (id : Nat) :
    (pool.release id).WellFormed :=
  ⟨wellFormed.indexed, wellFormed.routed⟩

/-- The page whose dirty frame an admission of page `no` would evict. -/
def evictee (pool : SharedPool) (no : UInt32) : Option UInt32 :=
  match (pool.put no zeroPage false).1 with
  | .ok (_, some victim) => some victim.no
  | _ => none

theorem evictee_of_put
    {no : UInt32}
    {page : Page}
    {dirty : Bool}
    {frame victim : Frame}
    (evicted : (pool.put no page dirty).1 = .ok (frame, some victim)) :
    pool.evictee no = some victim.no := by
  have answer :
      ∀ page dirty,
        (pool.put no page dirty).1 =
          ((pool.shards (pool.shardOf no)).put pool.handles
            (pool.newFrame no page) dirty).1.map (pool.newFrame no page, ·) :=
    fun _ _ => rfl
  have same :
      ((pool.shards (pool.shardOf no)).put pool.handles
          (pool.newFrame no zeroPage) false).1 =
        ((pool.shards (pool.shardOf no)).put pool.handles
          (pool.newFrame no page) dirty).1 :=
    BufferPool.put_answer rfl
  rw [answer] at evicted
  unfold evictee
  rw [answer, same]
  cases result : ((pool.shards (pool.shardOf no)).put pool.handles
      (pool.newFrame no page) dirty).1 with
  | error error =>
      rw [result] at evicted
      cases evicted
  | ok answered =>
      rw [result] at evicted
      obtain ⟨-, rfl⟩ := Prod.mk.inj (Except.ok.inj evicted)
      rfl

/-- An admission of page `no` would evict the frame of page `victim`, dirty or not. -/
def Displaces (pool : SharedPool) (no victim : UInt32) : Prop :=
  pool.cached victim ≠ none ∧ (pool.put no zeroPage false).2.cached victim = none

theorem WellFormed.displaces_absent
    {no victim : UInt32}
    (wellFormed : pool.WellFormed)
    (displaces : pool.Displaces no victim) :
    pool.cached no = none := by
  obtain ⟨present, gone⟩ := displaces
  obtain ⟨_, result, _, admission⟩ := put_spec wellFormed no zeroPage false
  have number : (pool.newFrame no zeroPage).no = no := rfl
  generalize (pool.put no zeroPage false).2.cached = after at admission gone
  cases admission with
  | replaced resident =>
      rw [number] at gone
      by_cases same : victim = no
      · rw [same, Function.update_self] at gone
        cases gone
      · rw [Function.update_of_ne same] at gone
        exact absurd gone present
  | inserted absent => exact absent
  | evicted absent resident unpinned => exact absent
  | exhausted absent capacity => exact absent

/-- Which page leaves the cache does not depend on the image admitted. -/
theorem WellFormed.displaces
    {no victim : UInt32}
    {page : Page}
    {dirty : Bool}
    (wellFormed : pool.WellFormed)
    (present : pool.cached victim ≠ none)
    (gone : (pool.put no page dirty).2.cached victim = none) :
    pool.Displaces no victim := by
  refine ⟨present, ?_⟩
  by_cases here : pool.shardOf victim = pool.shardOf no
  · have shard :
        ∀ page dirty,
          (pool.put no page dirty).2.shards (pool.shardOf victim) =
            ((pool.shards (pool.shardOf no)).put pool.handles
              (pool.newFrame no page) dirty).2 := by
      intro page dirty
      rw [here]
      exact Function.update_self _ _ _
    have position :
        ∀ page dirty,
          (pool.put no page dirty).2.cached victim = none ↔
            ((pool.shards (pool.shardOf no)).put pool.handles
              (pool.newFrame no page) dirty).2.index victim = none := by
      intro page dirty
      have indexed :=
        ((put_spec wellFormed no page dirty).1.indexed (pool.shardOf victim))
      rw [shard] at indexed
      rw [← BufferPool.cached_eq_none_iff indexed, ← shard]
      rfl
    rw [position] at gone ⊢
    have sameIndex :
        ((pool.shards (pool.shardOf no)).put pool.handles
            (pool.newFrame no zeroPage) false).2.index =
          ((pool.shards (pool.shardOf no)).put pool.handles
            (pool.newFrame no page) dirty).2.index :=
      BufferPool.put_index rfl
    exact (congrFun sameIndex victim).trans gone
  · have kept : (pool.put no page dirty).2.cached victim = pool.cached victim := by
      have shard :
          (pool.put no page dirty).2.shards (pool.shardOf victim) =
            pool.shards (pool.shardOf victim) :=
        Function.update_of_ne here _ _
      exact congrArg (fun changed : BufferPool => changed.cached victim) shard
    exact absurd (kept.symm.trans gone) present

end SharedPool

end PrehniteDB
