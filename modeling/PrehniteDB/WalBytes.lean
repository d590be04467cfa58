import PrehniteDB.PageFile

namespace PrehniteDB.WalBytes

/-!
# The bytes of the write-ahead log

Page records have a fixed size and a marker is shorter, so an unsealed log starts
every cell of that size with the tag of a page record, whatever abandoned
transactions have left behind the cursor.
-/

def REC_PAGE : UInt8 := 1
def REC_COMMIT : UInt8 := 2

/-- Tag, page number, image and checksum. -/
def PAGE_RECORD_LEN : Nat := 1 + 4 + PAGE_SIZE + 4

/-- Tag, page count and checksum. -/
def COMMIT_RECORD_LEN : Nat := 1 + 4 + 4

/-- `to_le_bytes` of a `u32`. -/
def leBytes (number : UInt32) : List UInt8 :=
  (List.range 4).map (LittleEndian.byte number.toNat)

/-- `from_le_bytes` of the first four bytes. -/
def fromLeBytes (bytes : List UInt8) : UInt32 :=
  UInt32.ofNat (LittleEndian.value (fun position => bytes.getD position 0) 4)

/-- The bytes of a page image. -/
def imageBytes (image : Page) : List UInt8 :=
  (List.range PAGE_SIZE).map (image.slice 0)

/-- The page image the first bytes spell. -/
def imageOf (bytes : List UInt8) : Page :=
  fun index => bytes.getD index.val 0

/-- One bit of the CRC-32 register. -/
def crcBit (crc : UInt32) : UInt32 :=
  (crc >>> 1) ^^^ (0xEDB88320 &&& (0 - (crc &&& 1)))

def crcByte (crc : UInt32) (byte : UInt8) : UInt32 :=
  Nat.iterate crcBit 8 (crc ^^^ byte.toUInt32)

def crc32 (parts : List (List UInt8)) : UInt32 :=
  ~~~ (parts.foldl (fun crc part => part.foldl crcByte crc) 0xFFFFFFFF)

/-- Tag, page number, image and checksum. -/
def pageRecord (no : UInt32) (image : Page) : List UInt8 :=
  REC_PAGE :: (leBytes no ++ imageBytes image ++ leBytes (crc32 [leBytes no, imageBytes image]))

/-- Tag, page count and checksum. -/
def commitRecord (count : UInt32) : List UInt8 :=
  REC_COMMIT :: (leBytes count ++ leBytes (crc32 [leBytes count]))

/-- A page record's checksum, `rest` starting behind the tag. -/
def pageChecks (rest : List UInt8) : Bool :=
  crc32 [rest.take 4, (rest.drop 4).take PAGE_SIZE] == fromLeBytes (rest.drop (4 + PAGE_SIZE))

/-- A marker's checksum, `rest` starting behind the tag. -/
def commitChecks (rest : List UInt8) : Bool :=
  crc32 [rest.take 4] == fromLeBytes (rest.drop 4)

/-- Stream the log up to a complete, valid marker that carries the record count. -/
def scan (records : UInt32) : List UInt8 → Bool
  | [] => false
  | tag :: rest =>
      if tag = REC_PAGE then
        if rest.length < PAGE_RECORD_LEN - 1 then false
        else if pageChecks rest then scan (records + 1) (rest.drop (PAGE_RECORD_LEN - 1))
        else false
      else if tag = REC_COMMIT then
        if rest.length < COMMIT_RECORD_LEN - 1 then false
        else commitChecks rest && fromLeBytes rest == records
      else false
termination_by bytes => bytes.length
decreasing_by
  simp only [List.length_drop, List.length_cons]
  omega

/-- The images `apply` copies: every page record in front of the first other tag. -/
def pageWrites : List UInt8 → List (UInt32 × Page)
  | [] => []
  | tag :: rest =>
      if tag ≠ REC_PAGE then []
      else if rest.length < PAGE_RECORD_LEN - 1 then []
      else
        (fromLeBytes rest, imageOf (rest.drop 4)) :: pageWrites (rest.drop (PAGE_RECORD_LEN - 1))
termination_by bytes => bytes.length
decreasing_by
  simp only [List.length_drop, List.length_cons]
  omega

/-- `seek` and `write_all`; a gap reads as zeros. -/
def writeAt (file : List UInt8) (offset : Nat) (bytes : List UInt8) : List UInt8 :=
  file.take offset ++ List.replicate (offset - file.length) 0 ++ bytes ++
    file.drop (offset + bytes.length)

/-- The log file, the offset of the next record and the records since the last reset. -/
structure WalFile where
  file : List UInt8
  cursor : Nat
  records : UInt32

/-- Append the commit marker. -/
def WalFile.seal (wal : WalFile) : WalFile :=
  { wal with
    file := writeAt wal.file wal.cursor (commitRecord wal.records)
    cursor := wal.cursor + COMMIT_RECORD_LEN }

namespace WalFile

/-- `Wal::open` on these bytes. -/
def opened (file : List UInt8) : WalFile where
  file := file
  cursor := 0
  records := 0

/-- Append one image; the offset of its bytes comes back. -/
def appendPage (wal : WalFile) (no : UInt32) (image : Page) : Nat × WalFile :=
  (wal.cursor + 1 + 4,
    { file := writeAt wal.file wal.cursor (pageRecord no image)
      cursor := wal.cursor + PAGE_RECORD_LEN
      records := wal.records + 1 })

def readPageAt (wal : WalFile) (offset : Nat) : Except Error Page :=
  let bytes := (wal.file.drop offset).take PAGE_SIZE
  if bytes.length < PAGE_SIZE then .error (.io "failed to fill whole buffer")
  else .ok (imageOf bytes)

def apply (wal : WalFile) (db : DbFile) : DbFile :=
  db.writeAll (pageWrites wal.file)

def reset (_ : WalFile) : WalFile := opened []

/-- Abandon the transaction; the file is left as it is. -/
def discard (wal : WalFile) : WalFile :=
  { wal with cursor := 0, records := 0 }

/-- Replay a complete committed transaction, then empty the log. -/
def recover (wal : WalFile) (db : DbFile) : Bool × WalFile × DbFile :=
  let committed := scan 0 wal.file
  (committed, wal.reset, if committed then wal.apply db else db)

end WalFile

/-! ## Reading back what was written -/

@[simp]
theorem leBytes_length (number : UInt32) : (leBytes number).length = 4 := by
  simp [leBytes]

@[simp]
theorem imageBytes_length (image : Page) : (imageBytes image).length = PAGE_SIZE := by
  simp [imageBytes]

/-- Reading a number back ignores what follows it. -/
@[simp]
theorem fromLeBytes_leBytes
    (number : UInt32)
    (rest : List UInt8) :
    fromLeBytes (leBytes number ++ rest) = number := by
  have bytes :
      LittleEndian.value (fun position => (leBytes number ++ rest).getD position 0) 4 =
        LittleEndian.value (LittleEndian.byte number.toNat) 4 := by
    apply LittleEndian.value_congr
    intro position inside
    have within : position < (leBytes number).length := by simpa using inside
    have byte : (leBytes number)[position]? = some (LittleEndian.byte number.toNat position) := by
      simp [leBytes, inside]
    simp only [List.getD_eq_getElem?_getD, List.getElem?_append_left within, byte,
      Option.getD_some]
  unfold fromLeBytes
  rw [bytes, LittleEndian.value_byte_of_lt number.toNat_lt]
  exact UInt32.ofNat_toNat

theorem imageOf_imageBytes
    (image : Page)
    (rest : List UInt8) :
    imageOf (imageBytes image ++ rest) = image := by
  funext index
  have within : index.val < (imageBytes image).length := by simp
  have byte : (imageBytes image)[index.val]? = some (image index) := by
    simp [imageBytes, Page.slice]
  simp only [imageOf, List.getD_eq_getElem?_getD, List.getElem?_append_left within, byte,
    Option.getD_some]

@[simp]
theorem pageRecord_length (no : UInt32) (image : Page) :
    (pageRecord no image).length = PAGE_RECORD_LEN := by
  simp only [pageRecord, List.length_cons, List.length_append, leBytes_length,
    imageBytes_length, PAGE_RECORD_LEN]
  omega

@[simp]
theorem commitRecord_length (count : UInt32) :
    (commitRecord count).length = COMMIT_RECORD_LEN := by
  simp [commitRecord, COMMIT_RECORD_LEN]

theorem scan_pageRecord
    (records no : UInt32)
    (image : Page)
    (rest : List UInt8) :
    scan records (pageRecord no image ++ rest) = scan (records + 1) rest := by
  have checksum :
      leBytes no ++ imageBytes image ++ leBytes (crc32 [leBytes no, imageBytes image]) ++ rest =
        leBytes no ++ (imageBytes image ++
          (leBytes (crc32 [leBytes no, imageBytes image]) ++ rest)) := by
    simp only [List.append_assoc]
  have long :
      ¬ (leBytes no ++ imageBytes image ++ leBytes (crc32 [leBytes no, imageBytes image]) ++
        rest).length < PAGE_RECORD_LEN - 1 := by
    simp only [List.length_append, leBytes_length, imageBytes_length, PAGE_RECORD_LEN]
    omega
  have behind :
      (leBytes no ++ imageBytes image ++ leBytes (crc32 [leBytes no, imageBytes image]) ++
        rest).drop (PAGE_RECORD_LEN - 1) = rest := by
    apply List.drop_left'
    simp only [List.length_append, leBytes_length, imageBytes_length, PAGE_RECORD_LEN]
    omega
  have checks :
      pageChecks (leBytes no ++ imageBytes image ++
        leBytes (crc32 [leBytes no, imageBytes image]) ++ rest) = true := by
    unfold pageChecks
    rw [checksum, List.take_left' (leBytes_length no), List.drop_left' (leBytes_length no),
      List.take_left' (imageBytes_length image), ← List.append_assoc (leBytes no),
      List.drop_left' (by simp), fromLeBytes_leBytes]
    exact beq_self_eq_true _
  change scan records (REC_PAGE :: (leBytes no ++ imageBytes image ++
    leBytes (crc32 [leBytes no, imageBytes image]) ++ rest)) = _
  rw [scan, if_pos rfl, if_neg long, if_pos checks, behind]

theorem scan_commitRecord
    (records count : UInt32)
    (rest : List UInt8) :
    scan records (commitRecord count ++ rest) = (count == records) := by
  have long :
      ¬ (leBytes count ++ leBytes (crc32 [leBytes count]) ++ rest).length <
        COMMIT_RECORD_LEN - 1 := by
    simp only [List.length_append, leBytes_length, COMMIT_RECORD_LEN]
    omega
  have checks : commitChecks (leBytes count ++ leBytes (crc32 [leBytes count]) ++ rest) = true := by
    unfold commitChecks
    rw [List.append_assoc, List.take_left' (leBytes_length count),
      List.drop_left' (leBytes_length count), fromLeBytes_leBytes]
    exact beq_self_eq_true _
  change scan records (REC_COMMIT :: (leBytes count ++ leBytes (crc32 [leBytes count]) ++ rest)) = _
  rw [scan, if_neg (by decide), if_pos rfl, if_neg long, checks, Bool.true_and, List.append_assoc,
    fromLeBytes_leBytes]

theorem pageWrites_pageRecord
    (no : UInt32)
    (image : Page)
    (rest : List UInt8) :
    pageWrites (pageRecord no image ++ rest) = (no, image) :: pageWrites rest := by
  have long :
      ¬ (leBytes no ++ imageBytes image ++ leBytes (crc32 [leBytes no, imageBytes image]) ++
        rest).length < PAGE_RECORD_LEN - 1 := by
    simp only [List.length_append, leBytes_length, imageBytes_length, PAGE_RECORD_LEN]
    omega
  have behind :
      (leBytes no ++ imageBytes image ++ leBytes (crc32 [leBytes no, imageBytes image]) ++
        rest).drop (PAGE_RECORD_LEN - 1) = rest := by
    apply List.drop_left'
    simp only [List.length_append, leBytes_length, imageBytes_length, PAGE_RECORD_LEN]
    omega
  change pageWrites (REC_PAGE :: (leBytes no ++ imageBytes image ++
    leBytes (crc32 [leBytes no, imageBytes image]) ++ rest)) = _
  rw [pageWrites, if_neg (not_not.mpr rfl), if_neg long, behind]
  simp only [List.append_assoc, fromLeBytes_leBytes, List.drop_left' (leBytes_length no),
    imageOf_imageBytes]

theorem pageWrites_commitRecord
    (count : UInt32)
    (rest : List UInt8) :
    pageWrites (commitRecord count ++ rest) = [] := by
  change pageWrites (REC_COMMIT :: (leBytes count ++ leBytes (crc32 [leBytes count]) ++ rest)) = _
  rw [pageWrites, if_pos (by decide)]

/-- The records of a transaction, one behind the other. -/
def pageRecords (pages : List (UInt32 × Page)) : List UInt8 :=
  pages.flatMap fun page => pageRecord page.1 page.2

theorem pageRecords_snoc
    (pages : List (UInt32 × Page))
    (no : UInt32)
    (image : Page) :
    pageRecords (pages ++ [(no, image)]) = pageRecords pages ++ pageRecord no image := by
  simp [pageRecords]

theorem scan_pageRecords
    (pages : List (UInt32 × Page))
    (records : UInt32)
    (rest : List UInt8) :
    scan records (pageRecords pages ++ rest) =
      scan (records + UInt32.ofNat pages.length) rest := by
  induction pages generalizing records with
  | nil =>
      rw [List.length_nil]
      exact congrArg (scan · rest) (UInt32.add_zero records).symm
  | cons page later inductionHypothesis =>
      have count :
          records + 1 + UInt32.ofNat later.length =
            records + UInt32.ofNat (page :: later).length := by
        rw [List.length_cons, UInt32.ofNat_add, UInt32.add_comm (UInt32.ofNat later.length),
          UInt32.add_assoc]
        rfl
      rw [pageRecords, List.flatMap_cons, List.append_assoc, scan_pageRecord]
      rw [pageRecords] at inductionHypothesis
      rw [inductionHypothesis, count]

theorem pageWrites_pageRecords
    (pages : List (UInt32 × Page))
    (rest : List UInt8) :
    pageWrites (pageRecords pages ++ rest) = pages ++ pageWrites rest := by
  induction pages with
  | nil => rfl
  | cons page later inductionHypothesis =>
      rw [pageRecords, List.flatMap_cons, List.append_assoc, pageWrites_pageRecord]
      rw [pageRecords] at inductionHypothesis
      rw [inductionHypothesis]
      rfl

/-! ## Logs without a marker -/

/-- Every cell of the size of a page record starts with its tag. -/
def Tagged (bytes : List UInt8) : Prop :=
  ∀ cell, cell * PAGE_RECORD_LEN < bytes.length → bytes[cell * PAGE_RECORD_LEN]? = some REC_PAGE

theorem tagged_nil : Tagged [] :=
  fun _ inside => absurd inside (Nat.not_lt_zero _)

theorem Tagged.drop
    {bytes : List UInt8}
    (tagged : Tagged bytes) :
    Tagged (bytes.drop PAGE_RECORD_LEN) := by
  intro cell inside
  rw [List.length_drop] at inside
  have later := tagged (cell + 1) (by rw [Nat.succ_mul]; omega)
  rw [List.getElem?_drop, Nat.add_comm, ← Nat.succ_mul]
  exact later

theorem Tagged.torn
    {bytes : List UInt8}
    (tagged : Tagged bytes)
    (no : UInt32)
    (image : Page)
    {cut : Nat}
    (inside : cut ≤ PAGE_RECORD_LEN) :
    Tagged ((pageRecord no image).take cut ++ bytes.drop cut) := by
  have length : ((pageRecord no image).take cut).length = cut := by
    rw [List.length_take, pageRecord_length, Nat.min_eq_left inside]
  intro cell within
  rw [List.length_append, length, List.length_drop] at within
  by_cases first : cell * PAGE_RECORD_LEN < cut
  · have here : cell = 0 := by
      by_contra later
      have beyond := Nat.le_mul_of_pos_left PAGE_RECORD_LEN (Nat.pos_of_ne_zero later)
      omega
    subst here
    rw [Nat.zero_mul] at first ⊢
    rw [List.getElem?_append_left (by rwa [length]), List.getElem?_take_of_lt first]
    rfl
  · rw [List.getElem?_append_right (by rw [length]; exact Nat.le_of_not_lt first), length,
      List.getElem?_drop, Nat.add_sub_cancel' (Nat.le_of_not_lt first)]
    exact tagged cell (by omega)

theorem Tagged.pageRecord
    {bytes : List UInt8}
    (tagged : Tagged bytes)
    (no : UInt32)
    (image : Page) :
    Tagged (pageRecord no image ++ bytes) := by
  intro cell inside
  cases cell with
  | zero => rfl
  | succ cell =>
      rw [List.length_append, pageRecord_length, Nat.succ_mul] at inside
      rw [List.getElem?_append_right (by rw [pageRecord_length, Nat.succ_mul]; omega),
        pageRecord_length, Nat.succ_mul, Nat.add_sub_cancel]
      exact tagged cell (by omega)

theorem Tagged.pageRecords
    {bytes : List UInt8}
    (tagged : Tagged bytes)
    (pages : List (UInt32 × Page)) :
    Tagged (pageRecords pages ++ bytes) := by
  induction pages with
  | nil => exact tagged
  | cons page rest inductionHypothesis =>
      rw [WalBytes.pageRecords, List.flatMap_cons, List.append_assoc]
      exact inductionHypothesis.pageRecord page.1 page.2

/-- No log without a marker is taken for a committed transaction. -/
theorem scan_tagged
    {bytes : List UInt8}
    (tagged : Tagged bytes)
    (records : UInt32) :
    scan records bytes = false := by
  induction length : bytes.length using Nat.strong_induction_on generalizing bytes records with
  | _ size inductionHypothesis =>
      cases bytes with
      | nil => rw [scan]
      | cons tag rest =>
          have first := tagged 0 (by simp)
          obtain rfl : tag = REC_PAGE := by simpa using first
          rw [scan, if_pos rfl]
          split_ifs with short checks
          · rfl
          · have behind : rest.drop (PAGE_RECORD_LEN - 1) =
                (REC_PAGE :: rest).drop PAGE_RECORD_LEN := rfl
            refine inductionHypothesis _ ?_ (behind ▸ tagged.drop) (records + 1) rfl
            rw [← length, List.length_drop, List.length_cons]
            omega
          · rfl

end PrehniteDB.WalBytes
