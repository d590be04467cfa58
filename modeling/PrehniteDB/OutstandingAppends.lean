import PrehniteDB.GroupCommit

namespace PrehniteDB.GroupCommit

open TransitionRun ClogFile

/-!
# Appends that have not been published

A record that is queued, or in the hands of a leader, belongs to a call that has
not returned, and its ticket lies above the published watermark.
-/

namespace State

theorem threads_enqueue
    (state : State)
    (thread : Nat)
    (record : Record) :
    (state.enqueue thread record).threads =
      Function.update state.threads thread (.waiting { lsn := state.nextLsn + 1, record }) :=
  rfl

theorem threads_drain
    (state : State)
    (thread : Nat)
    (own : Entry) :
    (state.drain thread own).threads =
      Function.update state.threads thread (.leading own state.pending state.nextLsn) :=
  rfl

theorem threads_publish
    (state : State)
    (thread : Nat)
    (own : Entry)
    (batch : List Entry)
    (snapshotLsn : Nat)
    (result : Except Error Unit) :
    (state.publish thread own batch snapshotLsn result).threads =
      Function.update (fun other => (state.threads other).notified) thread
        (.returned own result) :=
  rfl

/-- The record is queued, or in the batch of a leader that has not published it. -/
def Outstanding (state : State) (entry : Entry) : Prop :=
  entry ∈ state.pending ∨
    ∃ leader batch snapshotLsn,
      (state.threads leader).lead = some (batch, snapshotLsn) ∧ entry ∈ batch

theorem outstanding_congr
    {state next : State}
    (pending : next.pending = state.pending)
    (leads : ∀ leader, (next.threads leader).lead = (state.threads leader).lead)
    (entry : Entry) :
    next.Outstanding entry ↔ state.Outstanding entry := by
  unfold Outstanding
  simp only [pending, leads]

theorem outstanding_drain
    {state : State}
    {thread : Nat}
    {own : Entry}
    (queued : state.Queued)
    (slot : state.flushing = false)
    (entry : Entry) :
    (state.drain thread own).Outstanding entry ↔ state.Outstanding entry := by
  have threads := state.threads_drain thread own
  constructor
  · rintro (member | ⟨leader, batch, snapshotLsn, leads, member⟩)
    · cases member
    · by_cases here : leader = thread
      · subst here
        rw [threads, Function.update_self] at leads
        obtain ⟨rfl, rfl⟩ := Prod.mk.inj (Option.some.inj leads)
        exact .inl member
      · rw [threads, Function.update_of_ne here, queued.unled slot leader] at leads
        cases leads
  · rintro (member | ⟨leader, batch, snapshotLsn, leads, _⟩)
    · refine .inr ⟨thread, state.pending, state.nextLsn, ?_, member⟩
      rw [threads, Function.update_self]
      rfl
    · rw [queued.unled slot leader] at leads
      cases leads

theorem outstanding_enqueue
    {state : State}
    {thread : Nat}
    {record : Record}
    (unleading : (state.threads thread).lead = none)
    (entry : Entry) :
    (state.enqueue thread record).Outstanding entry ↔
      state.Outstanding entry ∨ entry = { lsn := state.nextLsn + 1, record } := by
  have leads :
      ∀ leader,
        ((state.enqueue thread record).threads leader).lead = (state.threads leader).lead := by
    intro leader
    rw [threads_enqueue]
    by_cases here : leader = thread
    · subst here
      rw [Function.update_self, unleading]
      rfl
    · rw [Function.update_of_ne here]
  have pending :
      (state.enqueue thread record).pending =
        state.pending ++ [{ lsn := state.nextLsn + 1, record }] := rfl
  unfold Outstanding
  simp only [leads, pending, List.mem_append, List.mem_singleton]
  exact or_right_comm

structure Awaited (state : State) : Prop where
  /-- Some call that has not returned waits for the record. -/
  called :
    ∀ entry,
      state.Outstanding entry → ∃ thread, (state.threads thread).call = some entry
  ahead : ∀ entry, state.Outstanding entry → state.durableLsn < entry.lsn

namespace Awaited

variable
  {state next : State}
  {thread : Nat}

theorem opened
    (floor : UInt64)
    (records : List Record) :
    (State.opened floor records).Awaited where
  called := by
    rintro entry (member | ⟨leader, batch, snapshotLsn, leads, _⟩)
    · cases member
    · cases leads
  ahead := by
    rintro entry (member | ⟨leader, batch, snapshotLsn, leads, _⟩)
    · cases member
    · cases leads

/-- Threads move on, and no call that anything outstanding waits for disappears. -/
theorem rephase
    (awaited : state.Awaited)
    (outstanding : ∀ entry, next.Outstanding entry → state.Outstanding entry)
    (watermark : next.durableLsn = state.durableLsn)
    (calls :
      ∀ thread entry,
        (state.threads thread).call = some entry →
          next.Outstanding entry → (next.threads thread).call = some entry) :
    next.Awaited where
  called := by
    intro entry still
    obtain ⟨thread, calling⟩ := awaited.called entry (outstanding entry still)
    exact ⟨thread, calls thread entry calling still⟩
  ahead := by
    intro entry still
    rw [watermark]
    exact awaited.ahead entry (outstanding entry still)

theorem outstanding_setThread
    {phase : Phase}
    (unleading : phase.lead = none)
    {entry : Entry}
    (outstanding : (state.setThread thread phase).Outstanding entry) :
    state.Outstanding entry := by
  rcases outstanding with queued | ⟨leader, batch, snapshotLsn, leads, member⟩
  · exact .inl queued
  · by_cases here : leader = thread
    · subst here
      rw [setThread_self, unleading] at leads
      cases leads
    · rw [setThread_other here] at leads
      exact .inr ⟨leader, batch, snapshotLsn, leads, member⟩

theorem append
    {record : Record}
    (awaited : state.Awaited)
    (queued : state.Queued)
    (unleading : (state.threads thread).lead = none)
    (uncalled : (state.threads thread).call = none) :
    (state.enqueue thread record).Awaited := by
  have threads := state.threads_enqueue thread record
  have split := fun entry => (@outstanding_enqueue state thread record unleading entry).mp
  constructor
  · intro entry outstanding
    rcases split entry outstanding with before | rfl
    · obtain ⟨other, calling⟩ := awaited.called entry before
      refine ⟨other, ?_⟩
      have here : other ≠ thread := by
        rintro rfl
        rw [uncalled] at calling
        cases calling
      rwa [threads, Function.update_of_ne here]
    · exact ⟨thread, by rw [threads, Function.update_self]; rfl⟩
  · intro entry outstanding
    rcases split entry outstanding with before | rfl
    · exact awaited.ahead entry before
    · exact Nat.lt_succ_of_le queued.durable

/-- Draining moves the queue into the leader's hands. -/
theorem drain
    {entry : Entry}
    (awaited : state.Awaited)
    (queued : state.Queued)
    (phase : state.threads thread = .waiting entry)
    (slot : state.flushing = false) :
    (state.drain thread entry).Awaited := by
  have threads := state.threads_drain thread entry
  refine awaited.rephase (fun other => (outstanding_drain queued slot other).mp) rfl ?_
  · intro other called calling _
    rw [threads]
    by_cases here : other = thread
    · subst here
      rw [phase] at calling
      rw [Function.update_self]
      exact calling
    · rwa [Function.update_of_ne here]

/-- A leader keeps its call and its batch while it writes. -/
theorem wrote
    {entry : Entry}
    {batch : List Entry}
    {snapshotLsn : Nat}
    {result : Except Error Unit}
    (awaited : state.Awaited)
    (phase : state.threads thread = .leading entry batch snapshotLsn)
    (threads :
      next.threads =
        Function.update state.threads thread (.flushed entry batch snapshotLsn result))
    (pending : next.pending = state.pending)
    (watermark : next.durableLsn = state.durableLsn) :
    next.Awaited := by
  refine awaited.rephase ?_ watermark ?_
  · rintro other (member | ⟨leader, drained, lsn, leads, member⟩)
    · exact .inl (pending ▸ member)
    · refine .inr ⟨leader, drained, lsn, ?_, member⟩
      rw [threads] at leads
      by_cases here : leader = thread
      · subst here
        rw [Function.update_self] at leads
        rw [phase]
        exact leads
      · rwa [Function.update_of_ne here] at leads
  · intro other called calling _
    rw [threads]
    by_cases here : other = thread
    · subst here
      rw [phase] at calling
      rw [Function.update_self]
      exact calling
    · rwa [Function.update_of_ne here]

/-- What is left after a publication was queued behind the leader's watermark. -/
theorem publish
    {own : Entry}
    {batch : List Entry}
    {snapshotLsn : Nat}
    {result : Except Error Unit}
    (awaited : state.Awaited)
    (queued : state.Queued)
    (phase : state.threads thread = .flushed own batch snapshotLsn result) :
    (state.publish thread own batch snapshotLsn result).Awaited := by
  have pending : (state.publish thread own batch snapshotLsn result).pending = state.pending := by
    cases result <;> rfl
  have left :
      ∀ entry,
        (state.publish thread own batch snapshotLsn result).Outstanding entry →
          entry ∈ state.pending := by
    rintro entry (member | ⟨leader, drained, lsn, leads, _⟩)
    · rwa [pending] at member
    · rw [(queued.publish_threads phase leader).1] at leads
      cases leads
  obtain ⟨_, _, _, behind⟩ :=
    queued.watermark thread batch snapshotLsn (congrArg Phase.lead phase)
  constructor
  · intro entry outstanding
    have member := left entry outstanding
    obtain ⟨other, calling⟩ := awaited.called entry (.inl member)
    refine ⟨other, ?_⟩
    have foreign : other ≠ thread := by
      rintro rfl
      have covered := queued.own other entry batch snapshotLsn calling (congrArg Phase.lead phase)
      exact absurd covered (Nat.not_le.mpr (behind entry member))
    rw [threads_publish, Function.update_of_ne foreign, Phase.call_notified]
    exact calling
  · intro entry outstanding
    have member := left entry outstanding
    cases result with
    | ok _ => exact behind entry member
    | error _ => exact awaited.ahead entry (.inl member)

theorem step
    {action : Action}
    (awaited : state.Awaited)
    (queued : state.Queued)
    (stepped : state.step action = some next) :
    next.Awaited := by
  cases step_effect stepped with
  | @append thread record unleading =>
      refine awaited.append queued unleading ?_
      -- Only a thread that is idle or has returned starts a call.
      cases phase : state.threads thread with
      | idle => rfl
      | returned _ _ => rfl
      | _ =>
          simp only [State.step, phase] at stepped
          cases stepped
  | @covered thread entry phase durable =>
      refine awaited.rephase (fun _ => outstanding_setThread rfl) rfl ?_
      intro other called calling outstanding
      have before := outstanding_setThread rfl outstanding
      have here : other ≠ thread := by
        rintro rfl
        rw [phase] at calling
        obtain rfl := Option.some.inj calling
        exact absurd durable (Nat.not_le.mpr (awaited.ahead entry before))
      rwa [setThread_other here]
  | @park thread entry phase =>
      refine awaited.rephase (fun _ => outstanding_setThread rfl) rfl ?_
      intro other called calling _
      by_cases here : other = thread
      · subst here
        rw [phase] at calling
        rwa [setThread_self]
      · rwa [setThread_other here]
  | drain phase slot => exact awaited.drain queued phase slot
  | @wake thread entry phase =>
      refine awaited.rephase (fun _ => outstanding_setThread rfl) rfl ?_
      intro other called calling _
      by_cases here : other = thread
      · subst here
        rw [phase] at calling
        rwa [setThread_self]
      · rwa [setThread_other here]
  | skip phase => exact awaited.wrote phase rfl rfl rfl
  | write phase => exact awaited.wrote phase rfl rfl rfl
  | publish phase => exact awaited.publish queued phase

end Awaited

end State

end PrehniteDB.GroupCommit
