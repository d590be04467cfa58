import PrehniteDB.AllocatorSafety
import PrehniteDB.OverflowChains

namespace PrehniteDB

/-!
# The pager as a store of pages

A pager that no peer disturbs keeps the images its caller last wrote, whatever it evicts,
and hands out no page in use, so a tree may rely on it.
-/

open PagedStore

/-- The image of a page as the caller left it. -/
def Ledger.image (ledger : Ledger) (no : UInt32) : Page := (ledger.staged no).getD (ledger.base no)

namespace Cluster

/-- Only the first pager has acted, and since the last commit as in the ledger. -/
structure Alone (settled : Ledger) (cluster : Cluster) : Prop where
  solo : SoloImages cluster
  allocation : ∃ content, cluster.Allocation content
  committed : (cluster.ledgers 0).committed = settled.committed
  base : (cluster.ledgers 0).base = settled.base

/-- An operation of the first pager, which answers so. -/
def asks
    {Result : Type}
    (action : PagerAction)
    (answer : Cluster → Except Error Result) : Ask Cluster BTree.Halt Result := fun cluster =>
  match answer cluster, cluster.step (0, action) with
  | .error failure, _ => .error (.pager failure)
  | .ok _, none => .error .hangs
  | .ok result, some next => .ok (result, next)

/-- The first pager under a tree, which looks at a page and lets its frame go. -/
def pages : BTree.Pages Cluster where
  readPage no := do
    let frame ← asks (.readPage no) fun cluster => ((cluster.view 0).readPage no).1
    asks (.release frame.id) fun _ => .ok ()
    pure frame.page
  writePage no page :=
    asks (.writePage no page) fun cluster => ((cluster.view 0).writePage no page).1
  allocPage := fun cluster =>
    if cluster.pending 0 = [] ∧ cluster.shared.metadata.freelistHead = 0 ∧
        cluster.shared.metadata.pageCount + 1 = 0 then .error .full
    else
      match (cluster.view 0).allocPage with
      | none => .error .hangs
      | some outcome => asks .allocPage (fun _ => outcome.1) cluster
  freePage no := asks (.freePage no) fun cluster => ((cluster.view 0).freePage no).1

theorem outcome_eq
    {Result State : Type}
    {outcome : Except Error Result × State}
    {result : Result}
    (answered : outcome.1 = .ok result) :
    ∃ state, outcome = (.ok result, state) :=
  ⟨outcome.2, Prod.ext answered rfl⟩

section Alone

variable {settled : Ledger} {cluster next : Cluster} {no : UInt32} {action : PagerAction}

/-- The pager reads the image its caller left. -/
theorem Alone.image_eq
    (alone : Alone settled cluster)
    (used : no ∈ cluster.inUse 0) :
    (cluster.view 0).image no = (cluster.ledgers 0).image no := by
  obtain ⟨content, allocation⟩ := alone.allocation
  have nonzero := (allocation.divided.known_used used).1
  rw [allocation.image_eq alone.solo nonzero, Ledger.image]
  cases staged : (cluster.ledgers 0).staged no with
  | some image => exact allocation.latest used staged
  | none =>
      have unwritten : no ∉ cluster.written 0 := fun wrote => allocation.dirty.mp wrote staged
      have kept := (allocation.divided.kept used fun new =>
        unwritten (allocation.divided.allocated_written new)).1
      have nobody : ∀ who, no ∉ cluster.written who := by
        intro who
        by_cases own : who = 0
        · exact own ▸ unwritten
        · exact alone.solo.unwritten own no
      rw [← (allocation.stored.clean nonzero nobody).1]
      exact allocation.base kept

/-- A prudent step of the only pager keeps images and allocation. -/
theorem Alone.step
    (alone : Alone settled cluster)
    (prudent : cluster.Prudent (0, action))
    (taken : cluster.step (0, action) = some next) :
    SoloImages next ∧ ∃ content, next.Allocation content := by
  obtain ⟨content, allocation⟩ := alone.allocation
  exact ⟨alone.solo.step prudent.solo taken,
    allocation.step (prudent.careful alone.solo) taken⟩

/-- An operation that changes the ledger so, but not what was committed. -/
theorem Alone.asks
    {Result : Type}
    {answer : Cluster → Except Error Result}
    {ledger : Result → Ledger}
    (alone : Alone settled cluster)
    (prudent : cluster.Prudent (0, action))
    (keeps : ∀ result, (ledger result).committed = (cluster.ledgers 0).committed ∧
      (ledger result).base = (cluster.ledgers 0).base)
    (moves : ∀ result next, answer cluster = .ok result → cluster.step (0, action) = some next →
      next.ledgers 0 = ledger result) :
    Ensures BTree.Halt.isForeign (asks action answer) cluster fun result next =>
      answer cluster = .ok result ∧ Alone settled next ∧ next.ledgers 0 = ledger result := by
  unfold Ensures Cluster.asks
  split
  · trivial
  · trivial
  · next result next answered taken =>
      obtain ⟨committed, base⟩ := keeps result
      obtain ⟨solo, allocation⟩ := alone.step prudent taken
      have moved := moves result next answered taken
      exact ⟨answered, ⟨solo, allocation, by rw [moved, committed, alone.committed],
        by rw [moved, base, alone.base]⟩, moved⟩

theorem prudent_plain
    (owns : ∀ no ∈ changes action, no ∈ cluster.inUse 0)
    (room : action = .allocPage → cluster.pending 0 = [] →
      cluster.shared.metadata.freelistHead = 0 → cluster.shared.metadata.pageCount + 1 ≠ 0)
    (commits : ∀ order, action ≠ .commit order)
    (rolls : ∀ dropOrder drainOrder, action ≠ .rollback dropOrder drainOrder) :
    cluster.Prudent (0, action) where
  solo := rfl
  owns := owns
  room := room
  logged := fun order same => absurd same (commits order)
  undone := fun dropOrder drainOrder same => absurd same (rolls dropOrder drainOrder)

theorem reads
    (alone : Alone settled cluster)
    (used : no ∈ cluster.inUse 0) :
    Ensures BTree.Halt.isForeign (pages.readPage no) cluster fun page next =>
      page = (cluster.ledgers 0).image no ∧ Alone settled next ∧
        next.ledgers 0 = cluster.ledgers 0 := by
  have prudent : cluster.Prudent (0, .readPage no) :=
    prudent_plain (by simp [changes]) (by simp) (by simp) (by simp)
  apply (@Alone.asks settled cluster (.readPage no) _ _ (fun _ => cluster.ledgers 0) alone prudent
    (by simp) ?_).bind
  · rintro frame read ⟨answered, aloneRead, same⟩
    have prudentRead : read.Prudent (0, .release frame.id) :=
      prudent_plain (by simp [changes]) (by simp) (by simp) (by simp)
    apply (@Alone.asks settled read (.release frame.id) _ _ (fun _ => read.ledgers 0) aloneRead
      prudentRead (by simp) ?_).bind
    · rintro _ next ⟨-, aloneNext, sameNow⟩
      refine ⟨?_, aloneNext, sameNow.trans same⟩
      rcases PagerState.readPage_spec (alone.solo.images.coherent 0) no with
        ⟨found, state, result, fetched⟩ | ⟨error, state, result, -⟩
      · rw [result] at answered
        rw [← alone.image_eq used, ← Except.ok.inj answered]
        exact fetched.image
      · rw [result] at answered
        cases answered
    · intro _ next _ taken
      rw [← Option.some.inj taken]
      simp [set]
  · intro frame next answered taken
    obtain ⟨state, result⟩ := outcome_eq answered
    simp only [Cluster.step, result, Option.some.injEq] at taken
    simp [← taken, set]

theorem writes
    (page : Page)
    (alone : Alone settled cluster)
    (used : no ∈ cluster.inUse 0) :
    Ensures BTree.Halt.isForeign (pages.writePage no page) cluster fun _ next =>
      Alone settled next ∧ next.ledgers 0 = (cluster.ledgers 0).stage no page := by
  have prudent : cluster.Prudent (0, .writePage no page) :=
    prudent_plain (by simp [changes, used]) (by simp) (by simp) (by simp)
  refine (@Alone.asks settled cluster _ _ _ (fun _ => (cluster.ledgers 0).stage no page) alone
    prudent (by simp [Ledger.stage]) ?_).mono fun _ _ outcome => outcome.2
  intro _ next answered taken
  obtain ⟨state, result⟩ := outcome_eq answered
  simp only [Cluster.step, result, Option.some.injEq] at taken
  simp [← taken, set]

theorem allocs (alone : Alone settled cluster) :
    Ensures BTree.Halt.isForeign pages.allocPage cluster fun no next =>
      no ∉ cluster.inUse 0 ∧ Alone settled next ∧
        next.ledgers 0 = ((cluster.ledgers 0).stage no zeroPage).take no := by
  unfold Ensures
  simp only [pages]
  split
  · trivial
  next roomy =>
  have prudent : cluster.Prudent (0, .allocPage) :=
    prudent_plain (by simp [changes]) (fun _ exhausted empty full => roomy ⟨exhausted, empty, full⟩)
      (by simp) (by simp)
  split
  · trivial
  next outcome result =>
  obtain ⟨answer, state⟩ := outcome
  refine (@Alone.asks settled cluster .allocPage _ (fun _ => answer)
    (fun no => ((cluster.ledgers 0).stage no zeroPage).take no) alone prudent
    (by simp [Ledger.stage, Ledger.take]) ?_).mono ?_
  · rintro no next rfl taken
    simp only [Cluster.step, result, Option.some.injEq] at taken
    simp [← taken, set]
  · rintro no next ⟨rfl, holds⟩
    obtain ⟨content, allocation⟩ := alone.allocation
    exact ⟨(allocation.safe alone.solo).fresh no state result, holds⟩

theorem frees
    (alone : Alone settled cluster)
    (used : no ∈ cluster.inUse 0) :
    Ensures BTree.Halt.isForeign (pages.freePage no) cluster fun _ next =>
      Alone settled next ∧ next.ledgers 0 = ((cluster.ledgers 0).stage no
        (linkPage cluster.shared.metadata.freelistHead)).release no := by
  have prudent : cluster.Prudent (0, .freePage no) :=
    prudent_plain (by simp [changes, used]) (by simp) (by simp) (by simp)
  refine (@Alone.asks settled cluster _ _ _ (fun _ => ((cluster.ledgers 0).stage no
    (linkPage cluster.shared.metadata.freelistHead)).release no) alone prudent
    (by simp [Ledger.stage, Ledger.release]) ?_).mono fun _ _ outcome => outcome.2
  intro _ next answered taken
  obtain ⟨state, result⟩ := outcome_eq answered
  simp only [Cluster.step, result, Option.some.injEq] at taken
  simp [← taken, set]

end Alone

/-- The pager, since its last commit, is a store of pages. -/
def laws (settled : Ledger) : Laws BTree.Halt.isForeign pages 0 where
  Valid := Alone settled
  image cluster := (cluster.ledgers 0).image
  Used cluster no := no ∈ (cluster.ledgers 0).inUse
  used_ne := by
    intro cluster no alone used
    obtain ⟨content, allocation⟩ := alone.allocation
    exact (allocation.divided.known_used used).1
  read := fun alone used => (reads alone used).mono fun page next outcome => by
    rw [outcome.2.2]
    exact ⟨outcome.1, outcome.2.1, fun _ => Iff.rfl, fun _ _ => rfl⟩
  write := fun page alone used => (writes page alone used).mono fun _ next outcome => by
    rw [outcome.2]
    refine ⟨outcome.1, fun _ => Iff.rfl, by simp [Ledger.image, Ledger.stage], ?_⟩
    intro other _ different
    simp [Ledger.image, Ledger.stage, different]
  alloc := fun {cluster} alone => (allocs alone).mono fun no next outcome => by
    obtain ⟨fresh, aloneNext, same⟩ := outcome
    rw [same]
    refine ⟨aloneNext, fresh, by simp [Ledger.take, Ledger.stage], fun other used => ?_⟩
    have different : other ≠ no := by
      rintro rfl
      exact fresh used
    simp [Ledger.image, Ledger.take, Ledger.stage, different]
  free := fun alone used => (frees alone used).mono fun _ next outcome => by
    rw [outcome.2]
    refine ⟨outcome.1, by simp [Ledger.release, Ledger.stage, and_comm], fun other used => ?_⟩
    have different : other ≠ _ := (Finset.mem_erase.mp used).1
    simp [Ledger.image, Ledger.release, Ledger.stage, different]

end Cluster

end PrehniteDB
