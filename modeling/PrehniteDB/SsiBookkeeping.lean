import PrehniteDB.TransactionState

namespace PrehniteDB

/-!
# What a statement does to the SSI map

Every `record_*` call keeps the transactions the map holds entries for, only
adds locks, only raises flags, and touches no entry of a transaction the map
has dropped.  The entry a transaction had when it was removed is therefore
what any later argument about it may read.
-/

/-- A read set and its flags only grow. -/
structure SsiTxState.Grows (before after : SsiTxState) : Prop where
  locks : ∀ lock ∈ before.readSet, lock ∈ after.readSet
  outFlag : before.outConflict = true → after.outConflict = true
  inFlag : before.inConflict = true → after.inConflict = true

namespace SsiTxState.Grows

theorem refl (state : SsiTxState) : state.Grows state where
  locks := fun _ held => held
  outFlag := id
  inFlag := id

theorem trans
    {first second third : SsiTxState}
    (earlier : first.Grows second)
    (later : second.Grows third) :
    first.Grows third where
  locks := fun lock held => later.locks lock (earlier.locks lock held)
  outFlag := later.outFlag ∘ earlier.outFlag
  inFlag := later.inFlag ∘ earlier.inFlag

theorem addLock
    (state : SsiTxState)
    (lock : ReadLock) :
    state.Grows (state.addLock lock) where
  locks := fun _ held => List.mem_cons_of_mem _ held
  outFlag := id
  inFlag := id

theorem markOut (state : SsiTxState) : state.Grows state.markOut where
  locks := fun _ held => held
  outFlag := fun _ => rfl
  inFlag := id

theorem markIn (state : SsiTxState) : state.Grows state.markIn where
  locks := fun _ held => held
  outFlag := id
  inFlag := fun _ => rfl

end SsiTxState.Grows

/-- The same transactions, with grown entries; dropped entries are untouched. -/
structure SsiMap.Extends (before after : SsiMap) : Prop where
  keys : after.keys = before.keys
  grows : ∀ txId, (before.entry txId).Grows (after.entry txId)
  dropped : ∀ txId, txId ∉ before.keys → after.entry txId = before.entry txId

namespace SsiMap

namespace Extends

theorem refl (ssi : SsiMap) : ssi.Extends ssi where
  keys := rfl
  grows := fun _ => .refl _
  dropped := fun _ _ => rfl

theorem trans
    {first second third : SsiMap}
    (earlier : first.Extends second)
    (later : second.Extends third) :
    first.Extends third where
  keys := later.keys.trans earlier.keys
  grows := fun txId => (earlier.grows txId).trans (later.grows txId)
  dropped := by
    intro txId absent
    rw [later.dropped txId (by rwa [earlier.keys]), earlier.dropped txId absent]

end Extends

variable {ssi : SsiMap}

theorem modify_entry_self
    {txId : Nat}
    {change : SsiTxState → SsiTxState}
    (present : txId ∈ ssi.keys) :
    (ssi.modify txId change).entry txId = change (ssi.entry txId) := by
  simp [modify, present]

theorem modify_extends
    (txId : Nat)
    {change : SsiTxState → SsiTxState}
    (growing : ∀ state : SsiTxState, state.Grows (change state)) :
    ssi.Extends (ssi.modify txId change) := by
  by_cases present : txId ∈ ssi.keys
  · simp only [modify, present, if_true]
    refine ⟨rfl, ?_, ?_⟩
    · intro other
      by_cases same : other = txId
      · subst same
        simpa using growing (ssi.entry other)
      · simpa [same] using SsiTxState.Grows.refl (ssi.entry other)
    · intro other absent
      have different : other ≠ txId := by
        rintro rfl
        exact absent present
      simp [different]
  · simp only [modify, present, if_false]
    exact .refl ssi

theorem markReaders_extends
    (writer : Nat)
    (covers : ReadLock → Bool) :
    ssi.Extends (ssi.markReaders writer covers) := by
  unfold markReaders
  by_cases none : ssi.readers writer covers = ∅
  · simp only [none, if_true]
    exact .refl ssi
  · simp only [none, if_false]
    refine (modify_extends writer SsiTxState.Grows.markIn).trans ⟨rfl, ?_, ?_⟩
    · intro txId
      by_cases reader : txId ∈ ssi.readers writer covers
      · simpa [reader] using SsiTxState.Grows.markOut _
      · simpa [reader] using SsiTxState.Grows.refl _
    · intro txId absent
      rw [(modify_extends writer SsiTxState.Grows.markIn).keys] at absent
      have unread : txId ∉ ssi.readers writer covers := by
        intro reader
        exact absent (Finset.mem_filter.mp reader).1
      simp [unread]

theorem markReaders_out
    {writer reader : Nat}
    {covers : ReadLock → Bool}
    (found : reader ∈ ssi.readers writer covers) :
    ((ssi.markReaders writer covers).entry reader).outConflict = true := by
  have nonempty : ssi.readers writer covers ≠ ∅ :=
    Finset.ne_empty_of_mem found
  simp [markReaders, nonempty, found, SsiTxState.markOut]

/-- A writer still in the map gets its in flag when the walk finds a reader. -/
theorem markReaders_in
    {writer reader : Nat}
    {covers : ReadLock → Bool}
    (found : reader ∈ ssi.readers writer covers)
    (present : writer ∈ ssi.keys) :
    ((ssi.markReaders writer covers).entry writer).inConflict = true := by
  have nonempty : ssi.readers writer covers ≠ ∅ :=
    Finset.ne_empty_of_mem found
  have notReader : writer ∉ ssi.readers writer covers := by
    simp [readers]
  simp [markReaders, nonempty, notReader, modify_entry_self present,
    SsiTxState.markIn]

theorem mem_readers
    {writer reader : Nat}
    {covers : ReadLock → Bool}
    {lock : ReadLock}
    (present : reader ∈ ssi.keys)
    (different : reader ≠ writer)
    (held : lock ∈ (ssi.entry reader).readSet)
    (covered : covers lock = true) :
    reader ∈ ssi.readers writer covers := by
  simp only [readers, Finset.mem_filter, List.any_eq_true]
  exact ⟨present, different, lock, held, covered⟩

theorem recordRead_extends
    (ownTx : Option Nat)
    (tableRoot : UInt32)
    (rowidKey : Nat)
    (tombstoneBy : Option Nat) :
    ssi.Extends (ssi.recordRead ownTx tableRoot rowidKey tombstoneBy) := by
  cases ownTx with
  | none => exact .refl ssi
  | some txId =>
      have locked : ssi.Extends
          (ssi.modify txId (·.addLock (.tuple tableRoot rowidKey))) :=
        modify_extends txId fun state => .addLock state _
      cases tombstoneBy with
      | none => exact locked
      | some peer =>
          simp only [recordRead]
          split_ifs
          · exact (locked.trans (modify_extends txId .markOut)).trans
              (modify_extends peer .markIn)
          · exact locked

theorem recordRelationRead_extends
    (ownTx : Option Nat)
    (tableRoot : UInt32) :
    ssi.Extends (ssi.recordRelationRead ownTx tableRoot) := by
  cases ownTx with
  | none => exact .refl ssi
  | some txId => exact modify_extends txId fun state => .addLock state _

theorem recordIndexRangeRead_extends
    (ownTx : Option Nat)
    (indexRoot : UInt32)
    (lower : List UInt8)
    (upper : Option (List UInt8)) :
    ssi.Extends (ssi.recordIndexRangeRead ownTx indexRoot lower upper) := by
  cases ownTx with
  | none => exact .refl ssi
  | some txId => exact modify_extends txId fun state => .addLock state _

theorem recordWrite_extends
    (ownTx : Option Nat)
    (tableRoot : UInt32)
    (rowidKey : Nat) :
    ssi.Extends (ssi.recordWrite ownTx tableRoot rowidKey) := by
  cases ownTx with
  | none => exact .refl ssi
  | some writer => exact markReaders_extends writer _

theorem recordInsert_extends
    (ownTx : Option Nat)
    (tableRoot : UInt32) :
    ssi.Extends (ssi.recordInsert ownTx tableRoot) := by
  cases ownTx with
  | none => exact .refl ssi
  | some writer => exact markReaders_extends writer _

theorem recordIndexWrite_extends
    (ownTx : Option Nat)
    (indexRoot : UInt32)
    (encodedKey : List UInt8) :
    ssi.Extends (ssi.recordIndexWrite ownTx indexRoot encodedKey) := by
  cases ownTx with
  | none => exact .refl ssi
  | some writer => exact markReaders_extends writer _

/-- A walk over any list extends the map when each step does. -/
theorem foldl_extends
    {Item : Type}
    {change : SsiMap → Item → SsiMap}
    (growing : ∀ map item, SsiMap.Extends map (change map item))
    (items : List Item) :
    ssi.Extends (items.foldl change ssi) := by
  induction items generalizing ssi with
  | nil => exact .refl ssi
  | cons item rest inductionHypothesis =>
      exact (growing ssi item).trans inductionHypothesis

theorem foldl_establishes
    {Item : Type}
    {change : SsiMap → Item → SsiMap}
    (growing : ∀ map item, SsiMap.Extends map (change map item))
    (property : SsiMap → Prop)
    (kept : ∀ {before after : SsiMap},
      before.Extends after → property before → property after)
    {items : List Item}
    {item : Item}
    (member : item ∈ items)
    (established : ∀ map, ssi.Extends map → property (change map item)) :
    property (items.foldl change ssi) := by
  induction items generalizing ssi with
  | nil => cases member
  | cons head rest inductionHypothesis =>
      rcases List.mem_cons.mp member with rfl | later
      · exact kept (foldl_extends growing rest)
          (established ssi (.refl ssi))
      · exact inductionHypothesis later fun map extended =>
          established map ((growing ssi head).trans extended)

theorem recordRelationRead_lock
    {txId : Nat}
    (tableRoot : UInt32)
    (present : txId ∈ ssi.keys) :
    ReadLock.relation tableRoot ∈
      ((ssi.recordRelationRead (some txId) tableRoot).entry txId).readSet := by
  simp [recordRelationRead, modify_entry_self present, SsiTxState.addLock]

theorem recordIndexRangeRead_lock
    {txId : Nat}
    (indexRoot : UInt32)
    (lower : List UInt8)
    (upper : Option (List UInt8))
    (present : txId ∈ ssi.keys) :
    ReadLock.indexRange indexRoot lower upper ∈
      ((ssi.recordIndexRangeRead (some txId) indexRoot lower upper).entry
        txId).readSet := by
  simp [recordIndexRangeRead, modify_entry_self present, SsiTxState.addLock]

theorem recordRead_lock
    {txId : Nat}
    (tableRoot : UInt32)
    (rowidKey : Nat)
    (tombstoneBy : Option Nat)
    (present : txId ∈ ssi.keys) :
    ReadLock.tuple tableRoot rowidKey ∈
      ((ssi.recordRead (some txId) tableRoot rowidKey tombstoneBy).entry
        txId).readSet := by
  have locked :
      ReadLock.tuple tableRoot rowidKey ∈
        ((ssi.modify txId (·.addLock (.tuple tableRoot rowidKey))).entry
          txId).readSet := by
    simp [modify_entry_self present, SsiTxState.addLock]
  cases tombstoneBy with
  | none => exact locked
  | some peer =>
      simp only [recordRead]
      split_ifs
      · exact ((modify_extends txId SsiTxState.Grows.markOut).trans
          (modify_extends peer SsiTxState.Grows.markIn)).grows txId |>.locks _ locked
      · exact locked

/-- Reading a version a transaction in the map has tombstoned raises both flags. -/
theorem recordRead_flags
    {txId peer : Nat}
    (tableRoot : UInt32)
    (rowidKey : Nat)
    (present : txId ∈ ssi.keys)
    (peerPresent : peer ∈ ssi.keys)
    (different : peer ≠ txId) :
    ((ssi.recordRead (some txId) tableRoot rowidKey (some peer)).entry
        txId).outConflict = true ∧
      ((ssi.recordRead (some txId) tableRoot rowidKey (some peer)).entry
        peer).inConflict = true := by
  have locked : ssi.Extends
      (ssi.modify txId (·.addLock (.tuple tableRoot rowidKey))) :=
    modify_extends txId fun state => .addLock state _
  have keys := locked.keys
  have marked :
      SsiMap.Extends
        (ssi.modify txId (·.addLock (.tuple tableRoot rowidKey)))
        ((ssi.modify txId (·.addLock (.tuple tableRoot rowidKey))).modify txId
          .markOut) :=
    modify_extends txId SsiTxState.Grows.markOut
  have condition : peer ≠ txId ∧
      peer ∈ (ssi.modify txId (·.addLock (.tuple tableRoot rowidKey))).keys :=
    ⟨different, keys ▸ peerPresent⟩
  simp only [recordRead, if_pos condition]
  constructor
  · apply ((modify_extends peer SsiTxState.Grows.markIn).grows txId).outFlag
    rw [modify_entry_self (keys ▸ present)]
    rfl
  · rw [modify_entry_self (by rw [marked.keys]; exact condition.2)]
    rfl

end SsiMap

end PrehniteDB
