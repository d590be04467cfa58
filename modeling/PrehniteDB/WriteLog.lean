import Mathlib.Logic.Function.Basic
import Mathlib.Data.List.Basic

namespace WriteLog

/-!
# Logs of keyed writes

A log is a list of writes to a store, the oldest first.  Only the last write of
a key is visible after a replay, so replaying a log again, or over a prefix of
itself, changes nothing, and logs that share no key may be replayed in any order.
-/

variable {Key Value : Type} [DecidableEq Key]

/-- Apply the writes in order. -/
def replay : List (Key × Value) → (Key → Value) → Key → Value
  | [], store => store
  | (key, value) :: rest, store => replay rest (Function.update store key value)

/-- The last value a log writes to `key`. -/
def lastWrite (key : Key) : List (Key × Value) → Option Value
  | [] => none
  | (written, value) :: rest =>
      (lastWrite key rest).or (if written = key then some value else none)

@[simp]
theorem replay_nil (store : Key → Value) :
    replay [] store = store :=
  rfl

@[simp]
theorem lastWrite_nil (key : Key) :
    lastWrite key ([] : List (Key × Value)) = none :=
  rfl

theorem lastWrite_append
    (key : Key)
    (log later : List (Key × Value)) :
    lastWrite key (log ++ later) = (lastWrite key later).or (lastWrite key log) := by
  induction log with
  | nil => simp
  | cons write rest inductionHypothesis =>
      simp only [List.cons_append, lastWrite, inductionHypothesis, Option.or_assoc]

theorem lastWrite_snoc
    (key written : Key)
    (value : Value)
    (log : List (Key × Value)) :
    lastWrite key (log ++ [(written, value)]) =
      if written = key then some value else lastWrite key log := by
  rw [lastWrite_append]
  by_cases same : written = key
  · simp [lastWrite, same]
  · simp [lastWrite, same]

theorem replay_apply
    (log : List (Key × Value))
    (store : Key → Value)
    (key : Key) :
    replay log store key = (lastWrite key log).getD (store key) := by
  induction log generalizing store with
  | nil => rfl
  | cons write rest inductionHypothesis =>
      obtain ⟨written, value⟩ := write
      simp only [replay, inductionHypothesis, lastWrite]
      cases later : lastWrite key rest with
      | some value => rfl
      | none =>
          by_cases same : written = key
          · simp [same]
          · simp [same, Function.update_of_ne (Ne.symm same)]

theorem lastWrite_eq_none_iff
    {key : Key}
    {log : List (Key × Value)} :
    lastWrite key log = none ↔ ∀ write ∈ log, write.1 ≠ key := by
  induction log with
  | nil => simp
  | cons write rest inductionHypothesis =>
      simp [lastWrite, Option.or_eq_none_iff, inductionHypothesis, and_comm]

theorem replay_after_prefix
    (log : List (Key × Value))
    (store : Key → Value)
    (count : Nat) :
    replay log (replay (log.take count) store) = replay log store := by
  funext key
  rw [replay_apply, replay_apply, replay_apply]
  cases last : lastWrite key log with
  | some value => rfl
  | none =>
      have untouched : lastWrite key (log.take count) = none :=
        lastWrite_eq_none_iff.mpr fun write member =>
          lastWrite_eq_none_iff.mp last write (List.mem_of_mem_take member)
      rw [untouched, Option.getD_none, Option.getD_none]

end WriteLog
