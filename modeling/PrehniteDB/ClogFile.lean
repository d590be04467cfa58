import PrehniteDB.LittleEndian
import PrehniteDB.TransactionState
import PrehniteDB.TransitionRun

namespace PrehniteDB

open TransitionRun

/-!
# The commit log file

A header and then one record of nine bytes after another, with no frame around
a record.  `Clog::open` reads whole records until the file ends; appends go to
the end of the file.
-/

namespace ClogFile

def RECORD_SIZE : Nat := 9

def STATUS_COMMITTED : UInt8 := 1
def STATUS_ROLLED_BACK : UInt8 := 2

/-- `b"PREHCLG1"`. -/
def CLOG_MAGIC : List UInt8 := [80, 82, 69, 72, 67, 76, 71, 49]

def HEADER_SIZE : Nat := 16

/-- `to_le_bytes` of a `u64`. -/
def leBytes (number : UInt64) : List UInt8 :=
  (List.range 8).map (LittleEndian.byte number.toNat)

/-- `from_le_bytes` of the first eight bytes. -/
def fromLeBytes (bytes : List UInt8) : UInt64 :=
  UInt64.ofNat (LittleEndian.value (fun position => bytes.getD position 0) 8)

/-- One transaction outcome. -/
structure Record where
  txId : UInt64
  status : Status
  deriving Repr, DecidableEq

def statusTag : Status → UInt8
  | .committed => STATUS_COMMITTED
  | .rolledBack => STATUS_ROLLED_BACK

def Record.encode (record : Record) : List UInt8 :=
  leBytes record.txId ++ [statusTag record.status]

def encodeBatch (batch : List Record) : List UInt8 :=
  batch.flatMap Record.encode

/-- The magic and the truncation floor. -/
def writeHeader (minTxId : UInt64) : List UInt8 :=
  CLOG_MAGIC ++ leBytes minTxId

def readHeader (file : List UInt8) : Except Error UInt64 :=
  if file.length < HEADER_SIZE then
    .error (.corruption ("clog file is too short to hold the v0.57 header " ++
      "(failed to fill whole buffer); " ++
      "pre-v0.57 clog files are not supported — see README"))
  else if file.take 8 ≠ CLOG_MAGIC then
    .error (.corruption ("clog file lacks the v0.57 magic — pre-v0.57 clog files " ++
      "are not supported; see README's pre-1.0 format-stability note"))
  else .ok (fromLeBytes (file.drop 8))

/-- One cell of the file. -/
def decodeRecord (cell : List UInt8) : Except Error Record :=
  let tag := cell.getD 8 0
  if tag = STATUS_COMMITTED then
    .ok { txId := fromLeBytes cell, status := .committed }
  else if tag = STATUS_ROLLED_BACK then
    .ok { txId := fromLeBytes cell, status := .rolledBack }
  else .error (.corruption s!"unknown clog status tag {tag}")

/-- The read loop over `count` cells. -/
def readCells : Nat → List UInt8 → Except Error (List Record)
  | 0, _ => .ok []
  | count + 1, bytes =>
      match decodeRecord (bytes.take RECORD_SIZE) with
      | .error error => .error error
      | .ok record =>
          match readCells count (bytes.drop RECORD_SIZE) with
          | .error error => .error error
          | .ok records => .ok (record :: records)

/-- Every cell the file fills; a partial one ends the loop. -/
def readRecords (bytes : List UInt8) : Except Error (List Record) :=
  readCells (bytes.length / RECORD_SIZE) bytes

/-! ## Reading back what was written -/

@[simp]
theorem leBytes_length (number : UInt64) : (leBytes number).length = 8 := by
  simp [leBytes]

theorem leBytes_getElem?
    {number : UInt64}
    {position : Nat}
    (inside : position < 8) :
    (leBytes number)[position]? = some (LittleEndian.byte number.toNat position) := by
  simp [leBytes, inside]

/-- Reading a number back ignores what follows it. -/
@[simp]
theorem fromLeBytes_leBytes
    (number : UInt64)
    (rest : List UInt8) :
    fromLeBytes (leBytes number ++ rest) = number := by
  have bytes :
      LittleEndian.value (fun position => (leBytes number ++ rest).getD position 0) 8 =
        LittleEndian.value (LittleEndian.byte number.toNat) 8 := by
    apply LittleEndian.value_congr
    intro position inside
    have within : position < (leBytes number).length := by simpa using inside
    simp only [List.getD_eq_getElem?_getD, List.getElem?_append_left within,
      leBytes_getElem? inside, Option.getD_some]
  unfold fromLeBytes
  rw [bytes, LittleEndian.value_byte_of_lt number.toNat_lt]
  exact UInt64.ofNat_toNat

@[simp]
theorem encode_length (record : Record) : record.encode.length = RECORD_SIZE := by
  simp [Record.encode, RECORD_SIZE]

theorem encode_getD
    (record : Record)
    {position : Nat}
    (inside : position < 8) :
    record.encode.getD position 0 = LittleEndian.byte record.txId.toNat position := by
  have within : position < (leBytes record.txId).length := by simpa using inside
  simp only [Record.encode, List.getD_eq_getElem?_getD, List.getElem?_append_left within,
    leBytes_getElem? inside, Option.getD_some]

@[simp]
theorem decodeRecord_encode (record : Record) : decodeRecord record.encode = .ok record := by
  have tag : record.encode.getD 8 0 = statusTag record.status := by
    simp [Record.encode, List.getD_eq_getElem?_getD]
  have number : fromLeBytes record.encode = record.txId :=
    fromLeBytes_leBytes record.txId [statusTag record.status]
  unfold decodeRecord
  simp only [tag, number]
  rcases record with ⟨txId, _ | _⟩ <;> rfl

/-- A cell whose last byte is no status tag. -/
theorem decodeRecord_unknown
    {cell : List UInt8}
    (notCommitted : cell.getD 8 0 ≠ STATUS_COMMITTED)
    (notRolledBack : cell.getD 8 0 ≠ STATUS_ROLLED_BACK) :
    decodeRecord cell =
      .error (.corruption s!"unknown clog status tag {cell.getD 8 0}") := by
  simp only [decodeRecord, if_neg notCommitted, if_neg notRolledBack]

@[simp]
theorem encodeBatch_nil : encodeBatch [] = [] := rfl

@[simp]
theorem encodeBatch_cons
    (record : Record)
    (rest : List Record) :
    encodeBatch (record :: rest) = record.encode ++ encodeBatch rest := rfl

@[simp]
theorem encodeBatch_append (first second : List Record) :
    encodeBatch (first ++ second) = encodeBatch first ++ encodeBatch second :=
  List.flatMap_append

@[simp]
theorem encodeBatch_length (batch : List Record) :
    (encodeBatch batch).length = RECORD_SIZE * batch.length := by
  induction batch with
  | nil => rfl
  | cons record rest inductionHypothesis =>
      rw [encodeBatch_cons, List.length_append, encode_length, inductionHypothesis,
        List.length_cons]
      ring

/-- The loop reads the records in front of it and goes on behind them. -/
theorem readCells_encodeBatch
    (batch : List Record)
    (count : Nat)
    (rest : List UInt8) :
    readCells (batch.length + count) (encodeBatch batch ++ rest) =
      match readCells count rest with
      | .error error => .error error
      | .ok records => .ok (batch ++ records) := by
  induction batch with
  | nil =>
      simp only [List.length_nil, Nat.zero_add, encodeBatch_nil, List.nil_append]
      cases readCells count rest <;> rfl
  | cons record tail inductionHypothesis =>
      have cells : (record :: tail).length + count = tail.length + count + 1 := by
        rw [List.length_cons]
        omega
      have head :
          (encodeBatch (record :: tail) ++ rest).take RECORD_SIZE = record.encode := by
        rw [encodeBatch_cons, List.append_assoc, List.take_left' (encode_length record)]
      have behind :
          (encodeBatch (record :: tail) ++ rest).drop RECORD_SIZE =
            encodeBatch tail ++ rest := by
        rw [encodeBatch_cons, List.append_assoc, List.drop_left' (encode_length record)]
      rw [cells, readCells, head, behind, decodeRecord_encode, inductionHypothesis]
      cases readCells count rest <;> rfl

/-- Whole records in front of a partial cell. -/
theorem readRecords_short
    (batch : List Record)
    {tail : List UInt8}
    (short : tail.length < RECORD_SIZE) :
    readRecords (encodeBatch batch ++ tail) = .ok batch := by
  have cells : (encodeBatch batch ++ tail).length / RECORD_SIZE = batch.length + 0 := by
    rw [List.length_append, encodeBatch_length]
    simp only [RECORD_SIZE] at short ⊢
    omega
  rw [readRecords, cells, readCells_encodeBatch]
  simp [readCells]

@[simp]
theorem writeHeader_length (minTxId : UInt64) :
    (writeHeader minTxId).length = HEADER_SIZE := by
  simp [writeHeader, CLOG_MAGIC, HEADER_SIZE]

@[simp]
theorem readHeader_writeHeader
    (minTxId : UInt64)
    (rest : List UInt8) :
    readHeader (writeHeader minTxId ++ rest) = .ok minTxId := by
  have long : ¬(writeHeader minTxId ++ rest).length < HEADER_SIZE := by
    rw [List.length_append, writeHeader_length]
    omega
  have magic : (writeHeader minTxId ++ rest).take 8 = CLOG_MAGIC := rfl
  have floor : (writeHeader minTxId ++ rest).drop 8 = leBytes minTxId ++ rest := rfl
  rw [readHeader, if_neg long, if_neg (not_not.mpr magic), floor, fromLeBytes_leBytes]

/-- The bytes a torn write of a batch leaves. -/
theorem take_encodeBatch
    {batch : List Record}
    {cut : Nat}
    (inside : cut ≤ (encodeBatch batch).length) :
    ∃ tail,
      (encodeBatch batch).take cut = encodeBatch (batch.take (cut / RECORD_SIZE)) ++ tail ∧
        tail.length = cut % RECORD_SIZE := by
  have whole :
      (encodeBatch (batch.take (cut / RECORD_SIZE))).length =
        RECORD_SIZE * (cut / RECORD_SIZE) := by
    rw [encodeBatch_length] at inside
    rw [encodeBatch_length, List.length_take]
    simp only [RECORD_SIZE] at inside ⊢
    omega
  refine ⟨(encodeBatch (batch.drop (cut / RECORD_SIZE))).take (cut % RECORD_SIZE), ?_, ?_⟩
  · have halves :
        encodeBatch batch =
          encodeBatch (batch.take (cut / RECORD_SIZE)) ++
            encodeBatch (batch.drop (cut / RECORD_SIZE)) := by
      rw [← encodeBatch_append, List.take_append_drop]
    have before : cut - RECORD_SIZE * (cut / RECORD_SIZE) = cut % RECORD_SIZE := by
      have divided := Nat.div_add_mod cut RECORD_SIZE
      omega
    rw [halves, List.take_append, whole, before, List.take_of_length_le]
    rw [whole]
    exact Nat.mul_div_le cut RECORD_SIZE
  · rw [encodeBatch_length] at inside
    rw [List.length_take, encodeBatch_length, List.length_drop]
    simp only [RECORD_SIZE] at inside ⊢
    omega

end ClogFile

/-- `map.insert` for every record of a batch, in order. -/
def Clog.insertAll (clog : Clog) (batch : List ClogFile.Record) : Clog :=
  batch.foldl (fun earlier record => earlier.append record.txId.toNat record.status) clog

namespace Clog

variable {clog : Clog}

theorem insertAll_append (first second : List ClogFile.Record) :
    clog.insertAll (first ++ second) = (clog.insertAll first).insertAll second :=
  List.foldl_append

@[simp]
theorem insertAll_minTxId (batch : List ClogFile.Record) :
    (clog.insertAll batch).minTxId = clog.minTxId := by
  induction batch generalizing clog with
  | nil => rfl
  | cons record rest inductionHypothesis => exact inductionHypothesis

/-- An id no record of the batch names keeps its entry. -/
theorem insertAll_map_other
    {batch : List ClogFile.Record}
    {txId : Nat}
    (unnamed : ∀ record ∈ batch, record.txId.toNat ≠ txId) :
    (clog.insertAll batch).map txId = clog.map txId := by
  induction batch generalizing clog with
  | nil => rfl
  | cons record rest inductionHypothesis =>
      have here : txId ≠ record.txId.toNat :=
        (unnamed record List.mem_cons_self).symm
      calc ((clog.append record.txId.toNat record.status).insertAll rest).map txId
          = (clog.append record.txId.toNat record.status).map txId :=
            inductionHypothesis fun later member =>
              unnamed later (List.mem_cons_of_mem record member)
        _ = clog.map txId := Function.update_of_ne here _ _

theorem insertAll_map_mem
    {batch : List ClogFile.Record}
    {record : ClogFile.Record}
    (once : (batch.map ClogFile.Record.txId).Nodup)
    (member : record ∈ batch) :
    (clog.insertAll batch).map record.txId.toNat = some record.status := by
  induction batch generalizing clog with
  | nil => cases member
  | cons first rest inductionHypothesis =>
      obtain ⟨fresh, onceLater⟩ := List.nodup_cons.mp once
      rcases List.mem_cons.mp member with rfl | later
      · have unnamed : ∀ other ∈ rest, other.txId.toNat ≠ record.txId.toNat := by
          intro other otherMember same
          have sameId : other.txId = record.txId := UInt64.toNat.inj same
          exact fresh (sameId ▸ List.mem_map_of_mem otherMember)
        calc ((clog.append record.txId.toNat record.status).insertAll rest).map
              record.txId.toNat
            = (clog.append record.txId.toNat record.status).map record.txId.toNat :=
              insertAll_map_other unnamed
          _ = some record.status := Function.update_self _ _ _
      · exact inductionHypothesis onceLater later

end Clog

/-- The in-memory log and the file behind it; appends go to the end of the file. -/
structure ClogStore where
  clog : Clog
  file : List UInt8

namespace ClogStore

open ClogFile

/-- `Clog::open` on a file with these bytes; an empty file is a new one. -/
def openFile (file : List UInt8) : Except Error ClogStore :=
  if file.length = 0 then
    .ok { clog := .fresh, file := writeHeader 0 }
  else
    match readHeader file with
    | .error error => .error error
    | .ok minTxId =>
        match readRecords (file.drop HEADER_SIZE) with
        | .error error => .error error
        | .ok records =>
            .ok {
              clog := Clog.insertAll { map := fun _ => none, minTxId := minTxId.toNat } records
              file := file }

/-- `write_and_fsync` of one batch, and its publication in the map. -/
def append (store : ClogStore) (batch : List Record) : ClogStore where
  clog := store.clog.insertAll batch
  file := store.file ++ encodeBatch batch

/-- One append after another. -/
def appendBatches (store : ClogStore) (batches : List (List Record)) : ClogStore :=
  batches.foldl append store

/-- `truncate_below`; `kept` is the map from the floor on, in iteration order. -/
def truncateBelow (store : ClogStore) (floor : UInt64) (kept : List Record) : ClogStore :=
  if floor = 0 then store
  else if floor.toNat ≤ store.clog.minTxId then store
  else {
    clog := store.clog.truncateBelow floor.toNat
    file := writeHeader floor ++ encodeBatch kept }

/-- What happens to a commit log file between its creation and a crash. -/
inductive Action where
  | reopen
  | append (batch : List Record)
  | truncateBelow (floor : UInt64) (kept : List Record)

/-- One step, `none` when it fails. -/
def step (store : ClogStore) : Action → Option ClogStore
  | .reopen => (openFile store.file).toOption
  | .append batch => some (store.append batch)
  | .truncateBelow floor kept => some (store.truncateBelow floor kept)

/-- An iteration over the map visits every entry at or above the floor once, in any order. -/
def Iterates (store : ClogStore) : Action → Prop
  | .truncateBelow floor kept =>
      (kept.map Record.txId).Nodup ∧
        ∀ record, record ∈ kept ↔
          floor ≤ record.txId ∧ store.clog.map record.txId.toNat = some record.status
  | _ => True

/-- A file that has just been created. -/
def created : ClogStore where
  clog := .fresh
  file := writeHeader 0

/-- The log a file of whole records opens to. -/
def opened (floor : UInt64) (records : List Record) : Clog :=
  Clog.insertAll { map := fun _ => none, minTxId := floor.toNat } records

/-- Records behind the header and at most a partial cell behind them. -/
theorem openFile_framed
    (floor : UInt64)
    (records : List Record)
    {tail : List UInt8}
    (short : tail.length < RECORD_SIZE) :
    openFile (writeHeader floor ++ encodeBatch records ++ tail) =
      .ok {
        clog := opened floor records
        file := writeHeader floor ++ encodeBatch records ++ tail } := by
  have nonempty : (writeHeader floor ++ encodeBatch records ++ tail).length ≠ 0 := by
    simp only [List.length_append, writeHeader_length, HEADER_SIZE]
    omega
  rw [openFile, if_neg nonempty, List.append_assoc, readHeader_writeHeader,
    List.drop_left' (writeHeader_length floor)]
  simp only [readRecords_short records short]
  rfl

theorem openFile_whole
    (floor : UInt64)
    (records : List Record) :
    openFile (writeHeader floor ++ encodeBatch records) =
      .ok { clog := opened floor records, file := writeHeader floor ++ encodeBatch records } := by
  have short : ([] : List UInt8).length < RECORD_SIZE := by decide
  simpa using openFile_framed floor records short

/-- The file holds whole records, and the map is what they spell. -/
def Framed (store : ClogStore) : Prop :=
  ∃ floor records,
    store.file = writeHeader floor ++ encodeBatch records ∧
      store.clog = opened floor records

namespace Framed

variable {store next : ClogStore}

theorem created : Framed .created :=
  ⟨0, [], rfl, rfl⟩

theorem append
    (framed : store.Framed)
    (batch : List Record) :
    (store.append batch).Framed := by
  obtain ⟨floor, records, file, clog⟩ := framed
  refine ⟨floor, records ++ batch, ?_, ?_⟩
  · simp only [ClogStore.append, file, encodeBatch_append, List.append_assoc]
  · simp only [ClogStore.append, clog, opened, Clog.insertAll_append]

theorem appendBatches
    (framed : store.Framed)
    (batches : List (List Record)) :
    (store.appendBatches batches).Framed := by
  induction batches generalizing store with
  | nil => exact framed
  | cons batch rest inductionHypothesis => exact inductionHypothesis (framed.append batch)

/-- A reopen of whole records changes nothing. -/
theorem openFile (framed : store.Framed) : openFile store.file = .ok store := by
  obtain ⟨floor, records, file, clog⟩ := framed
  rcases store with ⟨_, _⟩
  subst file clog
  exact openFile_whole floor records

theorem map_bounded
    (framed : store.Framed)
    {txId : Nat}
    {status : Status}
    (entry : store.clog.map txId = some status) :
    ∃ id : UInt64, id.toNat = txId := by
  obtain ⟨floor, records, _, clog⟩ := framed
  by_contra absent
  push Not at absent
  rw [clog, opened, Clog.insertAll_map_other fun record _ => absent record.txId] at entry
  cases entry

/-- The rewritten file opens to the truncated map. -/
theorem truncateBelow
    {floor : UInt64}
    {kept : List Record}
    (framed : store.Framed)
    (iterates : store.Iterates (.truncateBelow floor kept)) :
    (store.truncateBelow floor kept).Framed := by
  obtain ⟨once, visits⟩ := iterates
  unfold ClogStore.truncateBelow
  split_ifs with zero stale
  · exact framed
  · exact framed
  · refine ⟨floor, kept, rfl, ?_⟩
    have nonzero : floor.toNat ≠ 0 := fun none => zero (UInt64.toNat.inj none)
    have map : (store.clog.truncateBelow floor.toNat).map = (opened floor kept).map := by
      funext txId
      simp only [Clog.truncateBelow, if_neg nonzero, if_neg stale]
      by_cases named : ∃ record ∈ kept, record.txId.toNat = txId
      · obtain ⟨record, member, rfl⟩ := named
        obtain ⟨above, entry⟩ := (visits record).mp member
        rw [if_pos (UInt64.le_iff_toNat_le.mp above), entry]
        exact (Clog.insertAll_map_mem once member).symm
      · push Not at named
        rw [opened, Clog.insertAll_map_other named]
        split_ifs with above
        · cases entry : store.clog.map txId with
          | none => rfl
          | some status =>
              obtain ⟨id, rfl⟩ := framed.map_bounded entry
              have member : { txId := id, status := status } ∈ kept :=
                (visits _).mpr ⟨UInt64.le_iff_toNat_le.mpr above, entry⟩
              exact absurd rfl (named _ member)
        · rfl
    have minTxId :
        (store.clog.truncateBelow floor.toNat).minTxId = (opened floor kept).minTxId := by
      rw [opened, Clog.insertAll_minTxId]
      simp only [Clog.truncateBelow, if_neg nonzero, if_neg stale]
    exact congrArg₂ Clog.mk map minTxId

/-- Every step leaves the file framed. -/
theorem step
    {action : Action}
    (framed : store.Framed)
    (iterates : store.Iterates action)
    (stepped : store.step action = some next) :
    next.Framed := by
  cases action with
  | reopen =>
      rw [ClogStore.step, framed.openFile] at stepped
      obtain rfl := Option.some.inj stepped
      exact framed
  | append batch =>
      obtain rfl := Option.some.inj stepped
      exact framed.append batch
  | truncateBelow floor kept =>
      obtain rfl := Option.some.inj stepped
      exact framed.truncateBelow iterates

/-- The file is framed after every run. -/
theorem reachable
    {actions : List Action}
    (run : Run ClogStore.step Iterates .created actions store) :
    store.Framed :=
  run.invariant Framed (fun framed iterates stepped => framed.step iterates stepped) created

end Framed

/-! ## A torn append -/

/-- What a crash leaves after `cut` bytes of an append. -/
def torn (store : ClogStore) (batch : List Record) (cut : Nat) : List UInt8 :=
  store.file ++ (encodeBatch batch).take cut

/--
The next open finds the complete records, and whatever is appended after it, the
open after that finds the old records and the new ones.
-/
def SurvivesTear (store : ClogStore) (batch : List Record) (cut : Nat) : Prop :=
  ∃ reopened,
    openFile (store.torn batch cut) = .ok reopened ∧
      reopened.clog = store.clog.insertAll (batch.take (cut / RECORD_SIZE)) ∧
      ∀ further,
        ∃ again,
          openFile (reopened.appendBatches further).file = .ok again ∧
            ∀ txId,
              again.clog.status txId =
                (reopened.clog.insertAll further.flatten).status txId

theorem appendBatches_clog
    (store : ClogStore)
    (batches : List (List Record)) :
    (store.appendBatches batches).clog = store.clog.insertAll batches.flatten := by
  induction batches generalizing store with
  | nil => rfl
  | cons batch rest inductionHypothesis =>
      rw [List.flatten_cons, Clog.insertAll_append]
      exact inductionHypothesis (store.append batch)

variable
  {store : ClogStore}
  {batch : List Record}
  {cut : Nat}

theorem openFile_torn
    (framed : store.Framed)
    (inside : cut ≤ (encodeBatch batch).length) :
    openFile (store.torn batch cut) =
      .ok {
        clog := store.clog.insertAll (batch.take (cut / RECORD_SIZE))
        file := store.torn batch cut } := by
  obtain ⟨floor, records, file, clog⟩ := framed
  obtain ⟨tail, taken, length⟩ := take_encodeBatch inside
  have short : tail.length < RECORD_SIZE := by
    rw [length]
    exact Nat.mod_lt _ (by decide)
  have bytes :
      store.torn batch cut =
        writeHeader floor ++ encodeBatch (records ++ batch.take (cut / RECORD_SIZE)) ++
          tail := by
    simp only [torn, file, taken, encodeBatch_append, List.append_assoc]
  rw [bytes, openFile_framed floor _ short, clog, opened, opened, Clog.insertAll_append]

/-- A cut between two records leaves a file of whole records. -/
theorem torn_whole
    (framed : store.Framed)
    (inside : cut ≤ (encodeBatch batch).length)
    (aligned : cut % RECORD_SIZE = 0) :
    Framed {
      clog := store.clog.insertAll (batch.take (cut / RECORD_SIZE))
      file := store.torn batch cut } := by
  obtain ⟨tail, taken, length⟩ := take_encodeBatch inside
  obtain rfl := List.eq_nil_of_length_eq_zero (length.trans aligned)
  have bytes :
      store.torn batch cut =
        (store.append (batch.take (cut / RECORD_SIZE))).file := by
    simp only [torn, taken, List.append_nil, append]
  rw [bytes]
  exact framed.append (batch.take (cut / RECORD_SIZE))

/-- Id 3 has no byte that is a status tag. -/
def misreadRecord : Record where
  txId := 3
  status := .committed

/-- Behind a partial cell of any length its bytes end in an unknown tag. -/
theorem decodeRecord_misaligned
    {tail : List UInt8}
    (nonempty : 0 < tail.length)
    (short : tail.length < RECORD_SIZE) :
    ∃ error, decodeRecord ((tail ++ misreadRecord.encode).take RECORD_SIZE) = .error error := by
  have last :
      ((tail ++ misreadRecord.encode).take RECORD_SIZE).getD 8 0 =
        LittleEndian.byte 3 (8 - tail.length) := by
    have behind : tail.length ≤ 8 := Nat.le_of_lt_succ short
    have inNumber : 8 - tail.length < 8 := by omega
    rw [List.getD_eq_getElem?_getD, List.getElem?_take_of_lt (by decide),
      List.getElem?_append_right behind, ← List.getD_eq_getElem?_getD,
      encode_getD misreadRecord inNumber]
    rfl
  have noTag :
      ∀ position < 8,
        LittleEndian.byte 3 position ≠ STATUS_COMMITTED ∧
          LittleEndian.byte 3 position ≠ STATUS_ROLLED_BACK := by
    decide
  have position : 8 - tail.length < 8 := by omega
  obtain ⟨notCommitted, notRolledBack⟩ := noTag _ position
  rw [← last] at notCommitted notRolledBack
  exact ⟨_, decodeRecord_unknown notCommitted notRolledBack⟩

/-- One more record behind a partial cell makes the file unreadable. -/
theorem openFile_misaligned
    (floor : UInt64)
    (records : List Record)
    {tail : List UInt8}
    (nonempty : 0 < tail.length)
    (short : tail.length < RECORD_SIZE) :
    ∃ error,
      openFile (writeHeader floor ++
        (encodeBatch records ++ (tail ++ misreadRecord.encode))) = .error error := by
  have long :
      (writeHeader floor ++
        (encodeBatch records ++ (tail ++ misreadRecord.encode))).length ≠ 0 := by
    simp only [List.length_append, writeHeader_length, HEADER_SIZE]
    omega
  have cells :
      (encodeBatch records ++ (tail ++ misreadRecord.encode)).length / RECORD_SIZE =
        records.length + 1 := by
    rw [List.length_append, List.length_append, encodeBatch_length, encode_length]
    simp only [RECORD_SIZE] at short ⊢
    omega
  obtain ⟨error, misread⟩ := decodeRecord_misaligned nonempty short
  refine ⟨error, ?_⟩
  rw [openFile, if_neg long, readHeader_writeHeader,
    List.drop_left' (writeHeader_length floor), readRecords, cells, readCells_encodeBatch]
  simp only [readCells, misread]

/--
A torn append does no harm exactly when the cut falls between two records: `open`
keeps the partial cell in the file, and the next append goes behind it.
-/
theorem torn_append_survives_iff
    {actions : List Action}
    (run : Run step Iterates created actions store)
    (inside : cut ≤ (encodeBatch batch).length) :
    store.SurvivesTear batch cut ↔ cut % RECORD_SIZE = 0 := by
  have framed := Framed.reachable run
  have found := openFile_torn framed inside
  constructor
  · rintro ⟨reopened, opens, _, later⟩
    obtain rfl := Except.ok.inj (found.symm.trans opens)
    by_contra misaligned
    obtain ⟨again, opensAgain, _⟩ := later [[misreadRecord]]
    obtain ⟨floor, records, file, _⟩ := framed
    obtain ⟨tail, taken, length⟩ := take_encodeBatch inside
    have nonempty : 0 < tail.length := by omega
    have short : tail.length < RECORD_SIZE := by
      rw [length]
      exact Nat.mod_lt _ (by decide)
    obtain ⟨error, fails⟩ :=
      openFile_misaligned floor (records ++ batch.take (cut / RECORD_SIZE)) nonempty short
    have bytes :
        store.torn batch cut ++ encodeBatch [misreadRecord] =
          writeHeader floor ++
            (encodeBatch (records ++ batch.take (cut / RECORD_SIZE)) ++
              (tail ++ misreadRecord.encode)) := by
      simp only [torn, file, taken, encodeBatch_append, encodeBatch_cons, encodeBatch_nil,
        List.append_assoc, List.append_nil]
    simp only [appendBatches, List.foldl_cons, List.foldl_nil, append, bytes, fails] at opensAgain
    cases opensAgain
  · intro aligned
    have whole := torn_whole framed inside aligned
    refine ⟨_, found, rfl, fun further => ?_⟩
    refine ⟨_, (whole.appendBatches further).openFile, fun txId => ?_⟩
    rw [appendBatches_clog]

/-- One whole record of two is on disk. -/
theorem torn_append_between_records :
    SurvivesTear (created.append [{ txId := 1, status := .committed }])
      [{ txId := 2, status := .rolledBack }, { txId := 4, status := .committed }] 9 := by
  have run :
      Run step Iterates created [.append [{ txId := 1, status := .committed }]]
        (created.append [{ txId := 1, status := .committed }]) :=
    (Run.nil created).snoc trivial rfl
  exact (torn_append_survives_iff run (by decide)).mpr (by decide)

/--
The crash keeps one record and four bytes of the next; after one more commit the
log no longer opens.
-/
theorem torn_append_corrupts :
    Run step Iterates created [] created ∧
      ¬SurvivesTear created
        [{ txId := 1, status := .committed }, { txId := 2, status := .committed }] 13 := by
  refine ⟨.nil created, ?_⟩
  rintro ⟨reopened, opens, _, later⟩
  have found :
      openFile (created.torn
        [{ txId := 1, status := .committed }, { txId := 2, status := .committed }] 13) =
      .ok {
        clog := created.clog.insertAll [{ txId := 1, status := .committed }]
        file := created.torn
          [{ txId := 1, status := .committed }, { txId := 2, status := .committed }] 13 } :=
    openFile_torn .created (by decide)
  obtain rfl := Except.ok.inj (found.symm.trans opens)
  obtain ⟨again, opensAgain, _⟩ := later [[misreadRecord]]
  obtain ⟨error, fails⟩ :=
    @openFile_misaligned 0 [{ txId := 1, status := .committed }] [2, 0, 0, 0]
      (by decide) (by decide)
  have bytes :
      created.torn
          [{ txId := 1, status := .committed }, { txId := 2, status := .committed }] 13 ++
        encodeBatch [misreadRecord] =
      writeHeader 0 ++ (encodeBatch [{ txId := 1, status := .committed }] ++
        ([2, 0, 0, 0] ++ misreadRecord.encode)) := by
    decide
  simp only [appendBatches, List.foldl_cons, List.foldl_nil, append, bytes, fails] at opensAgain
  cases opensAgain

end ClogStore

end PrehniteDB
