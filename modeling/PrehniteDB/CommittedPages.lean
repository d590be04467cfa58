import PrehniteDB.AllocationSteps
import PrehniteDB.LogRecovery

namespace PrehniteDB

open TransitionRun

/-!
# Committed pages under peers that reuse pages

A pager puts a freed page on the shared list before the free is committed.  The
page may be handed to a peer at once, and the peer may commit it first; the file
then has the peer's image where the first pager's last commit still refers to.
-/

/-- Logs without a marker replay nothing. -/
theorem recoverLogs_open
    {logs : List (List WalRecord)}
    (unsealed : ∀ log ∈ logs, scan 0 log = false)
    (file : DbFile) :
    recoverLogs logs file = file := by
  induction logs generalizing file with
  | nil => rfl
  | cons log rest inductionHypothesis =>
      rw [← List.singleton_append, LogRecovery.recoverLogs_append,
        recoverLogs_unsealed (unsealed log List.mem_cons_self)]
      exact inductionHypothesis (fun other member => unsealed other (List.mem_cons_of_mem _ member)) file

namespace Cluster

/-- A log file a crash leaves beside the database file. -/
def Leaves (cluster : Cluster) (log : List WalRecord) : Prop :=
  ∃ who, log = (cluster.pagers who).wal.file

/-- The pages of every pager's last commit survive a crash, and the free list links what was freed. -/
structure Intact (cluster : Cluster) : Prop where
  /-- A crash between two operations. -/
  between :
    ∀ who, ∀ no ∈ cluster.committed who,
      ∀ logs,
        (∀ log ∈ logs, cluster.Leaves log) →
          (recoverLogs logs cluster.shared.file).pages no = (cluster.ledgers who).base no
  /-- A crash after some of the writes of a peer's commit. -/
  inside :
    ∀ peer order,
      cluster.Careful (peer, .commit order) →
        PagerState.Enumerates order ((cluster.pagers peer).dirtyPages.erase 0) →
          ∀ count who,
            who ≠ peer →
              ∀ no ∈ cluster.committed who,
                ∀ earlier later,
                  (∀ log ∈ earlier ++ later, cluster.Leaves log) →
                    (recoverLogs
                        (earlier ++ ((cluster.view peer).crashAfter order count).logs ++ later)
                        ((cluster.view peer).crashAfter order count).file).pages no =
                      (cluster.ledgers who).base no
  /-- A page popped off the list leaves the link that was written when it was freed. -/
  follows :
    ∀ who no next,
      cluster.pending who = [] →
        cluster.shared.metadata.freelistHead ≠ 0 →
          (cluster.view who).allocPage = some (.ok no, next) →
            ∃ link rest,
              cluster.freeList = (no, link) :: rest ∧ next.metadata.freelistHead = link

section Crash

variable {cluster : Cluster} {content : UInt32 → Page}

theorem Allocation.open_logs
    (allocation : cluster.Allocation content)
    {logs : List (List WalRecord)}
    (left : ∀ log ∈ logs, cluster.Leaves log) :
    ∀ log ∈ logs, scan 0 log = false := by
  intro log member
  obtain ⟨who, rfl⟩ := left log member
  exact (allocation.pagers who).wal.scan_false

theorem Allocation.crash_commit
    (allocation : cluster.Allocation content)
    {peer who : Nat}
    {order : List UInt32}
    {no : UInt32}
    (careful : cluster.Careful (peer, .commit order))
    (enumerates : PagerState.Enumerates order ((cluster.pagers peer).dirtyPages.erase 0))
    (count : Nat)
    (foreign : who ≠ peer)
    (member : no ∈ cluster.committed who) :
    (recoverLogs ((cluster.view peer).crashAfter order count).logs
        ((cluster.view peer).crashAfter order count).file).pages no =
      (cluster.ledgers who).base no := by
  have coherent := allocation.coherent peer
  have nonzero := (allocation.divided.known_committed member).1
  have unwritten := allocation.committed_foreign careful foreign member
  rw [← allocation.base member]
  by_cases idle : (cluster.view peer).Idle
  · have nothing : (cluster.view peer).commitWrites order = [] := if_pos idle
    simp only [PagerState.crashAfter, nothing, List.take_nil, Media.performAll, Media.crashed]
    exact congrArg (fun file => file.pages no)
      (recoverLogs_unsealed coherent.pager.wal.scan_false (cluster.view peer).file)
  · by_cases early : count ≤ ((cluster.view peer).flushed order).length
    · rw [PagerState.recovered_unsealed coherent early idle]
      rfl
    · rcases PagerState.commit_spec coherent order with
        ⟨clean, unlogged, _⟩ | ⟨after, result, committed⟩ |
          ⟨error, after, lost, result, _, listed, unspilled, absent⟩
      · exact absurd ⟨clean, unlogged⟩ idle
      · have kept : after.file.pages no = cluster.shared.file.pages no := by
          rw [allocation.committed_page careful enumerates committed nonzero,
            if_neg unwritten]
        by_cases finished : ((cluster.view peer).commitWrites order).length ≤ count
        · -- The log is reset, so the file is what the commit leaves.
          have whole :
              (cluster.view peer).crashAfter order count = after.media.crashed := by
            rw [PagerState.crashAfter, List.take_of_length_le finished,
              PagerState.commitWrites_perform coherent idle committed]
          rw [whole, ← kept]
          exact congrArg (fun file => file.pages no)
            (recoverLogs_unsealed committed.coherent.pager.wal.scan_false after.file)
        · rw [PagerState.recovered_sealed coherent idle (by omega) (by omega), if_neg nonzero,
            WriteLog.replay_apply, ← PagerState.committed_pages committed nonzero]
          exact kept
      · have lostMember := Finset.mem_erase.mp (enumerates.mem_iff.mp listed)
        have unspilled : cluster.spilled peer lost = none := unspilled
        have absent : cluster.shared.pool.resident lost = none := absent
        rcases allocation.written_found lostMember.1 lostMember.2 with
          ⟨dirty, cached⟩ | ⟨_, inLog⟩
        · rw [absent] at cached
          cases cached
        · rw [unspilled] at inLog
          cases inLog

theorem Allocation.popped_link
    (allocation : cluster.Allocation content)
    {who : Nat}
    {no : UInt32}
    {next : PagerState}
    (exhausted : cluster.pending who = [])
    (nonempty : cluster.shared.metadata.freelistHead ≠ 0)
    (result : (cluster.view who).allocPage = some (.ok no, next)) :
    ∃ link rest,
      cluster.freeList = (no, link) :: rest ∧ next.metadata.freelistHead = link := by
  rcases PagerState.allocPage_spec (allocation.coherent who) with
    ⟨page, after, same, ⟨ready, staged, obtained, stages, rfl⟩⟩ |
      ⟨error, after, same, _⟩ | ⟨same, _⟩
  · obtain ⟨samePage, rfl⟩ := Prod.mk.inj (Option.some.inj (result.symm.trans same))
    obtain rfl := Except.ok.inj samePage
    cases obtained with
    | pending listed _ =>
        have listed : cluster.pending who = _ ++ [no] := listed
        rw [exhausted] at listed
        exact absurd listed.symm
          (List.append_ne_nil_of_right_ne_nil _ (List.cons_ne_nil _ _))
    | bumped _ empty _ _ _ => exact absurd empty nonempty
    | @popped image read metadata _ head nonzero cachedOrSpilled fetched header same =>
        have head : cluster.shared.metadata.freelistHead = no := head
        have isLatest : image = content no := by
          cases fetched with
          | cached present _ => exact allocation.stored.cached nonzero present
          | unspilled absent inLog _ =>
              have inLog : cluster.spilled who no = some image := inLog
              exact allocation.stored.logged nonzero absent inLog
          | fromFile absent notInLog _ _ _ =>
              exact absurd notInLog (cachedOrSpilled.resolve_left (not_not_intro absent))
        have linked := allocation.linked
        cases listed : cluster.freeList with
        | nil =>
            rw [listed, head] at linked
            exact absurd linked nonzero
        | cons entry rest =>
            obtain ⟨first, link⟩ := entry
            rw [listed, head] at linked
            obtain ⟨rfl, _, link, _⟩ := linked
            refine ⟨_, rest, rfl, ?_⟩
            change staged.metadata.freelistHead = _
            rw [stages.metadata, same]
            change metadata.freelistHead = _
            rw [header]
            change nextPointer image = _
            rw [isLatest, link]
  · cases result.symm.trans same
  · cases result.symm.trans same

theorem Allocation.intact
    (allocation : cluster.Allocation content) :
    cluster.Intact where
  between := by
    intro who no member logs left
    rw [recoverLogs_open (allocation.open_logs left)]
    exact allocation.base member
  inside := by
    intro peer order careful enumerates count who foreign no member earlier later left
    have open_logs := allocation.open_logs left
    rw [LogRecovery.recoverLogs_append, LogRecovery.recoverLogs_append,
      recoverLogs_open fun log listed => open_logs log (List.mem_append_left _ listed),
      recoverLogs_open fun log listed => open_logs log (List.mem_append_right _ listed)]
    exact allocation.crash_commit careful enumerates count foreign member
  follows := fun _ _ _ exhausted nonempty result =>
    allocation.popped_link exhausted nonempty result

end Crash

/--
In every run in which no pager disturbs what a peer wrote and none commits a page
that a peer has freed and not committed, the pages of every pager's last commit
survive a crash at any point, and a page popped off the free list leaves the link
that was written when it was freed.
-/
theorem committed_pages_intact
    {disk : Disk}
    {capacity : Nat}
    {state : PagerState}
    {owned : Nat → Finset UInt32}
    {freeList : List (UInt32 × UInt32)}
    {actions : List (Nat × PagerAction)}
    {cluster : Cluster}
    (opened : Pager.openWithPool disk (.withCapacity capacity) = .ok state)
    (layout : Layout state owned freeList)
    (run : Run Cluster.step Careful (.opened state owned freeList) actions cluster) :
    cluster.Intact := by
  obtain ⟨_, allocation⟩ := layout.run (PagerState.openWithPool_spec opened) run
  exact allocation.intact

/-- A step while no pager has written a page. -/
theorem careful_of_clean
    {cluster : Cluster}
    {action : Nat × PagerAction}
    (clean : ∀ who, cluster.written who = ∅)
    (owns : ∀ no ∈ changes action.2, no ∈ cluster.inUse action.1)
    (room :
      action.2 = .allocPage →
        cluster.pending action.1 = [] →
          cluster.shared.metadata.freelistHead = 0 →
            cluster.shared.metadata.pageCount + 1 ≠ 0)
    (changing : ∀ dropOrder drainOrder, action.2 ≠ .rollback dropOrder drainOrder) :
    cluster.Careful action where
  evicts := by
    intro _ _ victim _
    rw [clean]
    exact ⟨fun other _ => clean other ▸ Finset.notMem_empty victim, nofun⟩
  rereads := fun no _ _ other _ => clean other ▸ Finset.notMem_empty no
  owns := owns
  room := room
  logged := by
    intro _ _ no _ _ _ member
    rw [clean] at member
    cases member
  settled := fun _ _ no _ other _ => clean other ▸ Finset.notMem_empty no
  undone := fun dropOrder drainOrder same => absurd same (changing dropOrder drainOrder)

/-- A commit by the only pager that has written a page, nothing having been spilled. -/
theorem careful_commit
    {cluster : Cluster}
    {who : Nat}
    {order : List UInt32}
    (others : ∀ other, other ≠ who → cluster.written other = ∅)
    (unspilled : (cluster.pagers who).wal.appended = []) :
    cluster.Careful (who, .commit order) where
  evicts := nofun
  rereads := nofun
  owns := nofun
  room := nofun
  logged := by
    intro _ _ no _ _ _ _ inLog
    have notInLog : cluster.spilled who no = none := by
      rw [spilled, Pager.spilled, unspilled]
      rfl
    rw [notInLog] at inLog
    cases inLog
  settled := fun _ _ no _ other foreign => others other foreign ▸ Finset.notMem_empty no
  undone := nofun

theorem written_others
    {cluster next : Cluster}
    {content : UInt32 → Page}
    {who other : Nat}
    {action : PagerAction}
    (allocation : cluster.Allocation content)
    (taken : cluster.step (who, action) = some next)
    (foreign : other ≠ who) :
    next.written other = cluster.written other :=
  congrArg Pager.dirtyPages
    (effect_others (step_effect (allocation.coherent who) taken) foreign).1

/-- The first pager frees its page and commits, and the second allocates it and commits. -/
def passedPage : List (Nat × PagerAction) :=
  [(0, .freePage 1), (0, .commit [1]), (1, .allocPage), (1, .commit [1])]

/-- The first pager owns page 1. -/
def firstOwns (who : Nat) : Finset UInt32 := if who = 0 then {1} else ∅

theorem layout_twoPages : Layout Watched.onTwoPages firstOwns [] where
  linked := rfl
  nodup := List.nodup_nil
  apart := by
    intro who other no different member otherMember
    unfold firstOwns at member otherMember
    split at member
    · next first =>
        rw [if_neg fun second => different (first.trans second.symm)] at otherMember
        exact Finset.notMem_empty no otherMember
    · exact Finset.notMem_empty no member
  unlinked := nofun
  free := nofun
  owned := by
    intro who no member
    unfold firstOwns at member
    split at member
    · obtain rfl := Finset.mem_singleton.mp member
      exact ⟨by decide, by decide⟩
    · cases member
  count := by decide

/-- A page that one pager frees and commits goes to another pager. -/
theorem passed_page_intact :
    ∃ cluster,
      Run Cluster.step Careful (.opened Watched.onTwoPages firstOwns []) passedPage cluster ∧
        cluster.committed 1 = {1} ∧ cluster.Intact := by
  have evaluated :
      ((Cluster.opened Watched.onTwoPages firstOwns []).step (0, .freePage 1)).bind
          (fun first =>
            (first.step (0, .commit [1])).bind fun second =>
              (second.step (1, .allocPage)).bind fun third =>
                (third.step (1, .commit [1])).map fun final =>
                  ((first.pagers 0).wal.appended.isEmpty,
                    decide (second.written 0 = ∅ ∧ second.shared.metadata.freelistHead = 1),
                    (third.pagers 1).wal.appended.isEmpty,
                    decide (final.committed 1 = {1}))) =
        some (true, true, true, true) := by
    decide +kernel
  obtain ⟨first, one, evaluated⟩ := Option.bind_eq_some_iff.mp evaluated
  obtain ⟨second, two, evaluated⟩ := Option.bind_eq_some_iff.mp evaluated
  obtain ⟨third, three, evaluated⟩ := Option.bind_eq_some_iff.mp evaluated
  obtain ⟨final, four, values⟩ := Option.map_eq_some_iff.mp evaluated
  simp only [Prod.mk.injEq, decide_eq_true_eq, List.isEmpty_iff] at values
  obtain ⟨firstLog, ⟨secondClean, head⟩, thirdLog, owner⟩ := values
  have start :=
    layout_twoPages.allocation (PagerState.openWithPool_spec Watched.openWithPool_twoPages)
  have clean : ∀ who, (Cluster.opened Watched.onTwoPages firstOwns []).written who = ∅ := by
    intro who
    match who with
    | 0 => rfl
    | _ + 1 => rfl
  have frees : (Cluster.opened Watched.onTwoPages firstOwns []).Careful (0, .freePage 1) := by
    refine careful_of_clean clean (fun no named => ?_) nofun fun _ _ same => ?_
    · obtain rfl := Option.mem_some_iff.mp named
      exact Finset.mem_singleton_self 1
    · cases same
  obtain ⟨_, afterFirst⟩ := start.step frees one
  have firstOthers : ∀ other, other ≠ 0 → first.written other = ∅ :=
    fun other foreign => (written_others start one foreign).trans (clean other)
  have commits : first.Careful (0, .commit [1]) := careful_commit firstOthers firstLog
  obtain ⟨_, afterSecond⟩ := afterFirst.step commits two
  have secondAll : ∀ who, second.written who = ∅ := by
    intro who
    by_cases own : who = 0
    · rw [own]
      exact secondClean
    · exact (written_others afterFirst two own).trans (firstOthers who own)
  have allocates : second.Careful (1, .allocPage) := by
    refine careful_of_clean secondAll (fun no named => ?_) (fun _ _ empty => ?_)
      fun _ _ same => ?_
    · cases named
    · rw [head] at empty
      exact absurd empty (by decide)
    · cases same
  have thirdOthers : ∀ other, other ≠ 1 → third.written other = ∅ :=
    fun other foreign => (written_others afterSecond three foreign).trans (secondAll other)
  have commitsLast : third.Careful (1, .commit [1]) := careful_commit thirdOthers thirdLog
  have run :
      Run Cluster.step Careful (.opened Watched.onTwoPages firstOwns []) passedPage final :=
    ((((Run.nil _).snoc frees one).snoc commits two).snoc allocates three).snoc commitsLast
      four
  exact ⟨final, run, owner,
    committed_pages_intact Watched.openWithPool_twoPages layout_twoPages run⟩

/-- The second pager commits a page the first has freed and not committed. -/
def reusedBeforeCommit : List (Nat × PagerAction) :=
  [(0, .writePage 1 (filled 0xAA)), (0, .commit [1]), (0, .freePage 1), (1, .allocPage),
    (1, .writePage 1 (filled 0xBB)), (1, .commit [1])]

/-- After a crash the first pager's committed page has the second one's image. -/
theorem reuse_replaces_committed_page :
    ∃ cluster,
      Run Cluster.step unrestricted (.opened Watched.onTwoPages firstOwns [])
          reusedBeforeCommit cluster ∧
        1 ∈ cluster.committed 0 ∧
        (recoverLogs [(cluster.pagers 0).wal.file, (cluster.pagers 1).wal.file]
            cluster.shared.file).pages 1 ≠ (cluster.ledgers 0).base 1 ∧
        ¬ cluster.Intact := by
  have evaluated :
      (replay Cluster.step unrestricted (.opened Watched.onTwoPages firstOwns [])
          reusedBeforeCommit).map
          (fun cluster =>
            (decide (1 ∈ cluster.committed 0),
              ((recoverLogs [(cluster.pagers 0).wal.file, (cluster.pagers 1).wal.file]
                cluster.shared.file).pages 1).slice 0 0,
              ((cluster.ledgers 0).base 1).slice 0 0)) =
        some (true, 0xBB, 0xAA) := by
    decide +kernel
  obtain ⟨cluster, replayed, values⟩ := Option.map_eq_some_iff.mp evaluated
  simp only [Prod.mk.injEq, decide_eq_true_eq] at values
  obtain ⟨member, peerByte, ownByte⟩ := values
  have different :
      (recoverLogs [(cluster.pagers 0).wal.file, (cluster.pagers 1).wal.file]
          cluster.shared.file).pages 1 ≠ (cluster.ledgers 0).base 1 := by
    intro same
    rw [same, ownByte] at peerByte
    exact absurd peerByte (by decide)
  refine ⟨cluster, run_of_replay replayed, member, different, fun intact => different ?_⟩
  apply intact.between 0 1 member
  intro log listed
  rcases List.mem_cons.mp listed with rfl | listed
  · exact ⟨0, rfl⟩
  · obtain rfl := List.mem_singleton.mp listed
    exact ⟨1, rfl⟩

end Cluster

end PrehniteDB
