import Mathlib.Data.Finset.Basic
import Mathlib.Data.Finset.Dedup
import Mathlib.Logic.Function.Basic

namespace PageDivision

/-!
# Dividing a store's pages among its users

Users share a free list and keep a list of recycled pages each.  Besides the
pages in use, each user has the pages in use at its last commit, and since then
the pages it allocated and the pages it wrote.  A commit keeps the division as
long as no page it allocated was written by a user with an open transaction.
-/

variable {Page : Type} [DecidableEq Page]

structure Divided
    (free : List Page)
    (pending : Nat → List Page)
    (inUse committed allocated written : Nat → Finset Page)
    (known : Page → Prop) : Prop where
  free_nodup : free.Nodup
  pending_nodup : ∀ {who}, (pending who).Nodup
  free_pending : ∀ {who no}, no ∈ free → no ∉ pending who
  pending_apart : ∀ {who other no}, who ≠ other → no ∈ pending who → no ∉ pending other
  free_used : ∀ {who no}, no ∈ free → no ∉ inUse who
  pending_used : ∀ {who other no}, no ∈ pending who → no ∉ inUse other
  used_apart : ∀ {who other no}, who ≠ other → no ∈ inUse who → no ∉ inUse other
  /-- A page kept since the last commit was written by no other user. -/
  kept :
    ∀ {who no},
      no ∈ inUse who → no ∉ allocated who →
        no ∈ committed who ∧ ∀ other, other ≠ who → no ∉ written other
  /-- A page given back since the last commit was written. -/
  freed :
    ∀ {who no},
      no ∈ committed who → no ∉ inUse who ∨ no ∈ allocated who → no ∈ written who
  /-- A page of a user's last commit is another user's only by allocation. -/
  taken :
    ∀ {who other no},
      no ∈ committed who → other ≠ who → no ∈ written other ∨ no ∈ inUse other →
        no ∈ allocated other
  allocated_written : ∀ {who no}, no ∈ allocated who → no ∈ written who
  committed_apart :
    ∀ {who other no}, who ≠ other → no ∈ committed who → no ∉ committed other
  committed_pending : ∀ {who other no}, no ∈ committed who → no ∉ pending other
  allocated_pending : ∀ {who other no}, no ∈ allocated who → no ∉ pending other
  known_free : ∀ {no}, no ∈ free → known no
  known_pending : ∀ {who no}, no ∈ pending who → known no
  known_used : ∀ {who no}, no ∈ inUse who → known no
  known_committed : ∀ {who no}, no ∈ committed who → known no
  known_allocated : ∀ {who no}, no ∈ allocated who → known no

namespace Divided

variable
  {free : List Page}
  {pending : Nat → List Page}
  {inUse committed allocated written : Nat → Finset Page}
  {known : Page → Prop}
  {who : Nat}
  {no : Page}

theorem write
    (divided : Divided free pending inUse committed allocated written known)
    (owned : no ∈ inUse who) :
    Divided free pending inUse committed allocated
      (Function.update written who (insert no (written who))) known := by
  have writes :
      ∀ {user page},
        page ∈ Function.update written who (insert no (written who)) user ↔
          (user = who ∧ page = no) ∨ page ∈ written user := by
    grind [Function.update_apply]
  refine { divided with kept := ?_, freed := ?_, taken := ?_, allocated_written := ?_ }
  · intro user page used old
    obtain ⟨committed, apart⟩ := divided.kept used old
    refine ⟨committed, fun other different member => ?_⟩
    rcases writes.mp member with ⟨rfl, rfl⟩ | before
    · exact divided.used_apart different owned used
    · exact apart other different before
  · exact fun member given => writes.mpr (.inr (divided.freed member given))
  · intro user other page member different touches
    rcases touches with wrote | used
    · rcases writes.mp wrote with ⟨rfl, rfl⟩ | before
      · exact divided.taken member different (.inr owned)
      · exact divided.taken member different (.inl before)
    · exact divided.taken member different (.inr used)
  · exact fun member => writes.mpr (.inr (divided.allocated_written member))

/-- Giving a page in use back puts it on the free list. -/
theorem release
    (divided : Divided free pending inUse committed allocated written known)
    (owned : no ∈ inUse who) :
    Divided (no :: free) pending (Function.update inUse who ((inUse who).erase no))
      committed allocated (Function.update written who (insert no (written who))) known := by
  have wrote := divided.write owned
  have uses :
      ∀ {user page},
        page ∈ Function.update inUse who ((inUse who).erase no) user ↔
          page ∈ inUse user ∧ ¬ (user = who ∧ page = no) := by
    grind [Function.update_apply]
  have writes : no ∈ Function.update written who (insert no (written who)) who := by
    rw [Function.update_self]
    exact Finset.mem_insert_self no _
  refine { wrote with
    free_nodup := ?_, free_pending := ?_, free_used := ?_, pending_used := ?_,
    used_apart := ?_, kept := ?_, freed := ?_, taken := ?_, known_free := ?_,
    known_used := ?_ }
  · exact List.nodup_cons.mpr
      ⟨fun listed => divided.free_used listed owned, divided.free_nodup⟩
  · intro user page member
    rcases List.mem_cons.mp member with rfl | before
    · exact fun listed => divided.pending_used listed owned
    · exact divided.free_pending before
  · intro user page member used
    obtain ⟨before, notReleased⟩ := uses.mp used
    rcases List.mem_cons.mp member with rfl | listed
    · by_cases own : user = who
      · exact notReleased ⟨own, rfl⟩
      · exact divided.used_apart own before owned
    · exact divided.free_used listed before
  · exact fun listed used => divided.pending_used listed (uses.mp used).1
  · exact fun different used other =>
      divided.used_apart different (uses.mp used).1 (uses.mp other).1
  · exact fun used old => wrote.kept (uses.mp used).1 old
  · intro user page member given
    by_cases released : user = who ∧ page = no
    · obtain ⟨rfl, rfl⟩ := released
      exact writes
    · refine wrote.freed member (given.imp_left fun unused used => ?_)
      exact unused (uses.mpr ⟨used, released⟩)
  · exact fun member different touches =>
      wrote.taken member different (touches.imp_right fun used => (uses.mp used).1)
  · intro page member
    rcases List.mem_cons.mp member with rfl | listed
    · exact divided.known_used owned
    · exact divided.known_free listed
  · exact fun used => divided.known_used (uses.mp used).1

omit [DecidableEq Page] in
/-- Pages may leave the free list and the lists of recycled pages, and new pages appear. -/
theorem shrink
    {freeNext : List Page}
    {pendingNext : Nat → List Page}
    {knownNext : Page → Prop}
    (divided : Divided free pending inUse committed allocated written known)
    (fewer : freeNext.Sublist free)
    (fewerPending : ∀ other, (pendingNext other).Sublist (pending other))
    (more : ∀ {other}, known other → knownNext other) :
    Divided freeNext pendingNext inUse committed allocated written knownNext where
  free_nodup := fewer.nodup divided.free_nodup
  pending_nodup := (fewerPending _).nodup divided.pending_nodup
  free_pending member listed :=
    divided.free_pending (fewer.subset member) ((fewerPending _).subset listed)
  pending_apart different member listed :=
    divided.pending_apart different ((fewerPending _).subset member)
      ((fewerPending _).subset listed)
  free_used member := divided.free_used (fewer.subset member)
  pending_used member := divided.pending_used ((fewerPending _).subset member)
  used_apart := divided.used_apart
  kept := divided.kept
  freed := divided.freed
  taken := divided.taken
  allocated_written := divided.allocated_written
  committed_apart := divided.committed_apart
  committed_pending member listed :=
    divided.committed_pending member ((fewerPending _).subset listed)
  allocated_pending member listed :=
    divided.allocated_pending member ((fewerPending _).subset listed)
  known_free member := more (divided.known_free (fewer.subset member))
  known_pending member := more (divided.known_pending ((fewerPending _).subset member))
  known_used member := more (divided.known_used member)
  known_committed member := more (divided.known_committed member)
  known_allocated member := more (divided.known_allocated member)

/-- Allocating a page nobody has. -/
theorem take
    (divided : Divided free pending inUse committed allocated written known)
    (notFree : no ∉ free)
    (notPending : ∀ other, no ∉ pending other)
    (unused : ∀ other, no ∉ inUse other)
    (knownPage : known no) :
    Divided free pending (Function.update inUse who (insert no (inUse who))) committed
      (Function.update allocated who (insert no (allocated who)))
      (Function.update written who (insert no (written who))) known := by
  have gains :
      ∀ {sets : Nat → Finset Page} {user page},
        page ∈ Function.update sets who (insert no (sets who)) user ↔
          (user = who ∧ page = no) ∨ page ∈ sets user := by
    grind [Function.update_apply]
  refine { divided with
    free_used := ?_, pending_used := ?_, used_apart := ?_, kept := ?_, freed := ?_,
    taken := ?_, allocated_written := ?_, allocated_pending := ?_, known_used := ?_,
    known_allocated := ?_ }
  · intro user page member used
    rcases gains.mp used with ⟨_, rfl⟩ | before
    · exact notFree member
    · exact divided.free_used member before
  · intro user other page member used
    rcases gains.mp used with ⟨_, rfl⟩ | before
    · exact notPending user member
    · exact divided.pending_used member before
  · intro user other page different used otherUsed
    rcases gains.mp used with ⟨rfl, rfl⟩ | before
    · rcases gains.mp otherUsed with ⟨same, _⟩ | otherBefore
      · exact different same.symm
      · exact unused other otherBefore
    · rcases gains.mp otherUsed with ⟨_, rfl⟩ | otherBefore
      · exact unused user before
      · exact divided.used_apart different before otherBefore
  · intro user page used old
    have notNew : ¬ (user = who ∧ page = no) := fun new => old (gains.mpr (.inl new))
    have before := (gains.mp used).resolve_left notNew
    obtain ⟨committed, apart⟩ :=
      divided.kept before fun listed => old (gains.mpr (.inr listed))
    refine ⟨committed, fun other different member => ?_⟩
    rcases gains.mp member with ⟨_, rfl⟩ | wrote
    · exact unused user before
    · exact apart other different wrote
  · intro user page member given
    by_cases new : user = who ∧ page = no
    · exact gains.mpr (.inl new)
    · refine gains.mpr (.inr (divided.freed member ?_))
      rcases given with unusedNow | listed
      · exact .inl fun used => unusedNow (gains.mpr (.inr used))
      · exact .inr ((gains.mp listed).resolve_left new)
  · intro user other page member different touches
    rcases touches with wrote | used
    · rcases gains.mp wrote with new | before
      · exact gains.mpr (.inl new)
      · exact gains.mpr (.inr (divided.taken member different (.inl before)))
    · rcases gains.mp used with new | before
      · exact gains.mpr (.inl new)
      · exact gains.mpr (.inr (divided.taken member different (.inr before)))
  · exact fun listed => gains.mpr ((gains.mp listed).imp_right divided.allocated_written)
  · intro user other page listed
    rcases gains.mp listed with ⟨_, rfl⟩ | before
    · exact notPending other
    · exact divided.allocated_pending before
  · intro user page used
    rcases gains.mp used with ⟨_, rfl⟩ | before
    · exact knownPage
    · exact divided.known_used before
  · intro user page listed
    rcases gains.mp listed with ⟨_, rfl⟩ | before
    · exact knownPage
    · exact divided.known_allocated before

/-- A page of the user's last commit that it no longer keeps was written by it. -/
theorem written_of_committed
    (divided : Divided free pending inUse committed allocated written known)
    {other : Nat}
    (member : no ∈ committed who)
    (different : other ≠ who)
    (touches : no ∈ written other ∨ no ∈ inUse other) :
    no ∈ written who := by
  by_cases stays : no ∈ inUse who ∧ no ∉ allocated who
  · obtain ⟨_, apart⟩ := divided.kept stays.1 stays.2
    rcases touches with wrote | used
    · exact absurd wrote (apart other different)
    · exact absurd used (divided.used_apart different.symm stays.1)
  · apply divided.freed member
    by_cases used : no ∈ inUse who
    · exact .inr (by_contra fun old => stays ⟨used, old⟩)
    · exact .inl used

theorem commit
    (divided : Divided free pending inUse committed allocated written known)
    (settled : ∀ {other page}, other ≠ who → page ∈ allocated who → page ∉ written other) :
    Divided free pending inUse (Function.update committed who (inUse who))
      (Function.update allocated who ∅) (Function.update written who ∅) known := by
  -- What the user has in use was written by nobody else, and is no one else's.
  have quiet :
      ∀ {other page}, page ∈ inUse who → other ≠ who → page ∉ written other := by
    intro other page used different
    by_cases new : page ∈ allocated who
    · exact settled different new
    · exact (divided.kept used new).2 other different
  have foreign :
      ∀ {other page}, page ∈ inUse who → other ≠ who → page ∉ committed other := by
    intro other page used different member
    have wrote := divided.written_of_committed member different.symm (.inr used)
    exact quiet used different wrote
  have untaken :
      ∀ {other page},
        page ∈ committed other → other ≠ who → page ∉ allocated who := by
    intro other page member different new
    have touched := divided.allocated_written new
    have wrote := divided.written_of_committed member different.symm (.inl touched)
    exact settled different new wrote
  constructor <;> intros <;> grind [Divided, Function.update_apply]

theorem rollback
    {drained : List Page}
    (divided : Divided free pending inUse committed allocated written known)
    (apart : ∀ {other page}, other ≠ who → page ∈ written who → page ∉ written other)
    (unlinked : ∀ {page}, page ∈ free → page ∉ written who)
    (created : ∀ {page}, page ∈ allocated who → page ∉ committed who)
    (nodup : drained.Nodup)
    (drains : ∀ {page}, page ∈ drained ↔ page ∈ allocated who) :
    Divided free (Function.update pending who (pending who ++ drained))
      (Function.update inUse who (committed who)) committed
      (Function.update allocated who ∅) (Function.update written who ∅) known := by
  -- What the user has at its last commit is back in its hands and in nobody else's.
  have foreign :
      ∀ {other page},
        page ∈ committed who → other ≠ who → page ∉ written other ∧ page ∉ inUse other := by
    intro other page member different
    have notWritten : page ∉ written other := fun wrote =>
      apart different (divided.written_of_committed member different (.inl wrote)) wrote
    refine ⟨notWritten, fun used => ?_⟩
    have new := divided.taken member different (.inr used)
    exact notWritten (divided.allocated_written new)
  have unlisted : ∀ {page}, page ∈ committed who → page ∉ free := by
    intro page member listed
    exact unlinked listed (divided.freed member (.inl (divided.free_used listed)))
  -- What it allocated is in nobody else's hands either.
  have recycled :
      ∀ {other page},
        page ∈ allocated who → other ≠ who →
          page ∉ inUse other ∧ page ∉ committed other ∧ page ∉ allocated other := by
    intro other page new different
    have touched := divided.allocated_written new
    have notAllocated : page ∉ allocated other := fun listed =>
      apart different touched (divided.allocated_written listed)
    refine ⟨fun used => ?_, fun member => ?_, notAllocated⟩
    · exact (divided.kept used notAllocated).2 who different.symm touched
    · exact apart different touched
        (divided.written_of_committed member different.symm (.inl touched))
  constructor <;> intros <;> grind [Divided, Function.update_apply]

end Divided

end PageDivision
