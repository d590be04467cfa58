import PrehniteDB.WalBytes
import PrehniteDB.WalLog

namespace PrehniteDB

open WalBytes (PAGE_RECORD_LEN WalFile commitRecord imageBytes leBytes pageRecord writeAt)

/-!
# The log of records and its bytes

The pagers count their logs in records.  On disk a record is its bytes, an offset is a
multiple of the size of a page record, and behind a marker the bytes of an abandoned
transaction may stand.  Each operation does the same to both.
-/

def WalRecord.bytes : WalRecord → List UInt8
  | .page no image => pageRecord no image
  | .commit count => commitRecord count

def spelling (log : List WalRecord) : List UInt8 := log.flatMap WalRecord.bytes

/-- The file spells the log, up to what stands behind a marker. -/
structure Wal.Spelled (wal : Wal) (onDisk : WalFile) : Prop where
  file :
    ∃ stale, onDisk.file = spelling wal.file ++ stale ∧ (PagesOnly wal.file → stale = [])
  cursor : PagesOnly wal.file → onDisk.cursor = wal.cursor * PAGE_RECORD_LEN
  records : onDisk.records = wal.records

variable {log : List WalRecord}

theorem spelling_append (log later : List WalRecord) :
    spelling (log ++ later) = spelling log ++ spelling later :=
  List.flatMap_append

theorem PagesOnly.tail
    {record : WalRecord}
    (pagesOnly : PagesOnly (record :: log)) :
    PagesOnly log :=
  fun other member => pagesOnly other (List.mem_cons_of_mem _ member)

theorem PagesOnly.take_spelling (pagesOnly : PagesOnly log) (count : Nat) :
    (spelling log).take (count * PAGE_RECORD_LEN) = spelling (log.take count) := by
  induction count generalizing log with
  | zero => rw [Nat.zero_mul, List.take_zero, List.take_zero]; rfl
  | succ count inductionHypothesis =>
      cases log with
      | nil => exact List.take_nil
      | cons record rest =>
          obtain ⟨no, image, rfl⟩ := pagesOnly record List.mem_cons_self
          rw [List.take_succ_cons, spelling, spelling, List.flatMap_cons, List.flatMap_cons,
            Nat.succ_mul, Nat.add_comm, WalRecord.bytes, List.take_append,
            List.take_of_length_le (by rw [WalBytes.pageRecord_length]; omega),
            WalBytes.pageRecord_length, Nat.add_sub_cancel_left]
          exact congrArg _ (inductionHypothesis pagesOnly.tail)

theorem PagesOnly.drop_spelling (pagesOnly : PagesOnly log) (count : Nat) :
    (spelling log).drop (count * PAGE_RECORD_LEN) = spelling (log.drop count) := by
  induction count generalizing log with
  | zero => rw [Nat.zero_mul, List.drop_zero, List.drop_zero]
  | succ count inductionHypothesis =>
      cases log with
      | nil => exact List.drop_nil
      | cons record rest =>
          obtain ⟨no, image, rfl⟩ := pagesOnly record List.mem_cons_self
          rw [List.drop_succ_cons, spelling, List.flatMap_cons, Nat.succ_mul, Nat.add_comm,
            ← List.drop_drop, WalRecord.bytes,
            List.drop_left' (WalBytes.pageRecord_length no image)]
          exact inductionHypothesis pagesOnly.tail

theorem PagesOnly.length_spelling (pagesOnly : PagesOnly log) :
    (spelling log).length = log.length * PAGE_RECORD_LEN := by
  induction log with
  | nil => exact (Nat.zero_mul _).symm
  | cons record rest inductionHypothesis =>
      obtain ⟨no, image, rfl⟩ := pagesOnly record List.mem_cons_self
      rw [spelling, List.flatMap_cons, List.length_append, List.length_cons, Nat.succ_mul,
        Nat.add_comm, WalRecord.bytes, WalBytes.pageRecord_length]
      exact congrArg (· + PAGE_RECORD_LEN) (inductionHypothesis pagesOnly.tail)

/-- A record written at the cursor of a log without a marker. -/
theorem writeAt_spelling
    (pagesOnly : PagesOnly log)
    {cursor : Nat}
    (inside : cursor ≤ log.length)
    (bytes : List UInt8) :
    writeAt (spelling log) (cursor * PAGE_RECORD_LEN) bytes =
      spelling (log.take cursor) ++ bytes ++
        (spelling log).drop (cursor * PAGE_RECORD_LEN + bytes.length) := by
  have within : cursor * PAGE_RECORD_LEN - (spelling log).length = 0 := by
    rw [pagesOnly.length_spelling]
    exact Nat.sub_eq_zero_of_le (Nat.mul_le_mul_right _ inside)
  rw [writeAt, pagesOnly.take_spelling, within, List.replicate_zero, List.append_nil]

namespace Wal.Spelled

variable {wal : Wal} {onDisk : WalFile}

theorem ofFresh : fresh.Spelled (.opened []) where
  file := ⟨[], rfl, fun _ => rfl⟩
  cursor _ := (Nat.zero_mul _).symm
  records := rfl

theorem whole
    (spelled : wal.Spelled onDisk)
    (unsealed : wal.Unsealed) :
    onDisk.file = spelling wal.file := by
  obtain ⟨stale, file, none⟩ := spelled.file
  rw [file, none unsealed.pagesOnly, List.append_nil]

theorem appendPage
    (spelled : wal.Spelled onDisk)
    (unsealed : wal.Unsealed)
    (no : UInt32)
    (image : Page) :
    (wal.appendPage no image).2.Spelled (onDisk.appendPage no image).2 where
  file := by
    refine ⟨[], ?_, fun _ => rfl⟩
    have next : wal.cursor * PAGE_RECORD_LEN + PAGE_RECORD_LEN =
        (wal.cursor + 1) * PAGE_RECORD_LEN := (Nat.succ_mul _ _).symm
    simp only [WalFile.appendPage, Wal.appendPage]
    rw [spelled.whole unsealed, spelled.cursor unsealed.pagesOnly,
      writeAt_spelling unsealed.pagesOnly unsealed.cursor_le, WalBytes.pageRecord_length, next,
      unsealed.pagesOnly.drop_spelling, spelling_append, List.append_nil, List.append_assoc]
    rfl
  cursor _ := by
    simp only [WalFile.appendPage, Wal.appendPage]
    rw [spelled.cursor unsealed.pagesOnly, Nat.succ_mul]
  records := congrArg (· + 1) spelled.records

theorem sealLog
    (spelled : wal.Spelled onDisk)
    (unsealed : wal.Unsealed) :
    wal.seal.Spelled onDisk.seal := by
  have marked : ¬ PagesOnly wal.seal.file := by
    intro pagesOnly
    obtain ⟨no, image, same⟩ := pagesOnly (.commit wal.records) (by simp [Wal.seal])
    cases same
  have behind :
      onDisk.seal.file =
        spelling wal.seal.file ++
          (spelling wal.file).drop
            (wal.cursor * PAGE_RECORD_LEN + (commitRecord wal.records).length) := by
    simp only [WalFile.seal, Wal.seal]
    rw [spelled.whole unsealed, spelled.cursor unsealed.pagesOnly, spelled.records,
      writeAt_spelling unsealed.pagesOnly unsealed.cursor_le, spelling_append]
    simp only [spelling, List.flatMap_cons, List.flatMap_nil, List.append_nil, WalRecord.bytes]
  exact
    { file := ⟨_, behind, fun pagesOnly => absurd pagesOnly marked⟩
      cursor := fun pagesOnly => absurd pagesOnly marked
      records := spelled.records }

theorem discard
    (spelled : wal.Spelled onDisk) :
    wal.discard.Spelled onDisk.discard where
  file := spelled.file
  cursor _ := (Nat.zero_mul _).symm
  records := rfl

theorem reset : wal.reset.Spelled onDisk.reset :=
  ofFresh

/-- The image of a page record is read at its offset. -/
theorem readPageAt
    (spelled : wal.Spelled onDisk)
    (unsealed : wal.Unsealed)
    {offset : Nat}
    {image : Page}
    (read : wal.readPageAt offset = some image) :
    onDisk.readPageAt (offset * PAGE_RECORD_LEN + 1 + 4) = .ok image := by
  obtain ⟨no, record⟩ : ∃ no, wal.file[offset]? = some (.page no image) := by
    simp only [Wal.readPageAt] at read
    split at read
    · exact ⟨_, by rw [‹wal.file[offset]? = _›, Option.some.inj read]⟩
    · cases read
  have here :
      (spelling wal.file).drop (offset * PAGE_RECORD_LEN) =
        pageRecord no image ++ spelling (wal.file.drop (offset + 1)) := by
    rw [unsealed.pagesOnly.drop_spelling,
      List.drop_eq_getElem_cons (List.getElem?_eq_some_iff.mp record).1,
      (List.getElem?_eq_some_iff.mp record).2]
    rfl
  have behind :
      onDisk.file.drop (offset * PAGE_RECORD_LEN + 1 + 4) =
        imageBytes image ++
          (leBytes (WalBytes.crc32 [leBytes no, imageBytes image]) ++
            spelling (wal.file.drop (offset + 1))) := by
    rw [spelled.whole unsealed, Nat.add_assoc, ← List.drop_drop, here]
    simp only [pageRecord, List.cons_append, List.append_assoc]
    exact List.drop_left' (WalBytes.leBytes_length no)
  have image_bytes :
      (onDisk.file.drop (offset * PAGE_RECORD_LEN + 1 + 4)).take PAGE_SIZE = imageBytes image := by
    rw [behind, List.take_left' (WalBytes.imageBytes_length image)]
  have spelt := WalBytes.imageOf_imageBytes image []
  rw [List.append_nil] at spelt
  simp only [WalFile.readPageAt]
  rw [image_bytes, if_neg (by rw [WalBytes.imageBytes_length]; exact Nat.lt_irrefl _), spelt]

end Wal.Spelled

variable {stale : List UInt8}

theorem scan_spelling
    (bare : PagesOnly log → stale = [])
    (records : UInt32) :
    WalBytes.scan records (spelling log ++ stale) = scan records log := by
  induction log generalizing records with
  | nil =>
      rw [bare fun _ member => nomatch member]
      rw [spelling, List.flatMap_nil, List.nil_append, WalBytes.scan, scan]
  | cons record rest inductionHypothesis =>
      rw [spelling, List.flatMap_cons, List.append_assoc]
      cases record with
      | page no image =>
          rw [WalRecord.bytes, WalBytes.scan_pageRecord, scan]
          refine inductionHypothesis (fun pagesOnly => bare ?_) _
          rintro record (_ | ⟨_, member⟩)
          · exact ⟨no, image, rfl⟩
          · exact pagesOnly record member
      | commit count => rw [WalRecord.bytes, WalBytes.scan_commitRecord, scan]

theorem pageWrites_spelling (bare : PagesOnly log → stale = []) :
    WalBytes.pageWrites (spelling log ++ stale) = pageWrites log := by
  induction log with
  | nil =>
      rw [bare fun _ member => nomatch member]
      rw [spelling, List.flatMap_nil, List.nil_append, WalBytes.pageWrites]
      rfl
  | cons record rest inductionHypothesis =>
      rw [spelling, List.flatMap_cons, List.append_assoc]
      cases record with
      | page no image =>
          rw [WalRecord.bytes, WalBytes.pageWrites_pageRecord, pageWrites]
          refine congrArg _ (inductionHypothesis fun pagesOnly => bare ?_)
          rintro record (_ | ⟨_, member⟩)
          · exact ⟨no, image, rfl⟩
          · exact pagesOnly record member
      | commit count =>
          rw [WalRecord.bytes, WalBytes.pageWrites_commitRecord]
          rfl

/-- A recovery replays the same pages from the bytes as from the records. -/
theorem Wal.Spelled.recover
    {wal : Wal}
    {onDisk : WalFile}
    (spelled : wal.Spelled onDisk)
    (db : DbFile) :
    (onDisk.recover db).1 = (wal.recover db).1 ∧
      (wal.recover db).2.1.Spelled (onDisk.recover db).2.1 ∧
        (onDisk.recover db).2.2 = (wal.recover db).2.2 := by
  obtain ⟨stale, file, bare⟩ := spelled.file
  have scanned : WalBytes.scan 0 onDisk.file = scan 0 wal.file := by
    rw [file, scan_spelling bare]
  have applied : onDisk.apply db = wal.apply db := by
    rw [WalFile.apply, Wal.apply, file, pageWrites_spelling bare]
  refine ⟨scanned, Wal.Spelled.ofFresh, ?_⟩
  simp only [WalFile.recover, Wal.recover]
  rw [scanned, applied]

end PrehniteDB
