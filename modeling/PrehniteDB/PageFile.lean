import PrehniteDB.Error
import PrehniteDB.LittleEndian
import PrehniteDB.WriteLog

namespace PrehniteDB

/-!
# Pages, the header page and the database file
-/

def PAGE_SIZE : Nat := 4096

/-- The bytes of one page. -/
abbrev Page := Fin PAGE_SIZE → UInt8

def zeroPage : Page := fun _ => 0

/-- Every byte the same. -/
def filled (byte : UInt8) : Page := fun _ => byte

namespace Page

/-- The bytes from `offset` on; zeros past the end of the page. -/
def slice (page : Page) (offset position : Nat) : UInt8 :=
  if inside : offset + position < PAGE_SIZE then page ⟨offset + position, inside⟩
  else 0

/-- `copy_from_slice` into the `width` bytes at `offset`. -/
def copyFromSlice
    (page : Page)
    (offset width : Nat)
    (bytes : Nat → UInt8) : Page :=
  fun index =>
    if offset ≤ index.val ∧ index.val < offset + width then bytes (index.val - offset)
    else page index

theorem slice_copyFromSlice_same
    {page : Page}
    {offset width position : Nat}
    {bytes : Nat → UInt8}
    (inside : position < width)
    (fits : offset + width ≤ PAGE_SIZE) :
    (page.copyFromSlice offset width bytes).slice offset position = bytes position := by
  have within : offset + position < PAGE_SIZE := by omega
  have covered : offset ≤ offset + position ∧ offset + position < offset + width := by
    omega
  simp only [slice, dif_pos within, copyFromSlice, if_pos covered, Nat.add_sub_cancel_left]

theorem slice_copyFromSlice_disjoint
    {page : Page}
    {offset width start position : Nat}
    {bytes : Nat → UInt8}
    (apart : start + position < offset ∨ offset + width ≤ start + position) :
    (page.copyFromSlice offset width bytes).slice start position =
      page.slice start position := by
  have uncovered :
      ¬(offset ≤ start + position ∧ start + position < offset + width) := by
    omega
  unfold slice
  split
  · simp only [copyFromSlice, if_neg uncovered]
  · rfl

/-- The little-endian number of `width` bytes at `offset`. -/
def number (page : Page) (offset width : Nat) : Nat :=
  LittleEndian.value (page.slice offset) width

/-- Overwrite `width` bytes at `offset` by a little-endian number. -/
def setNumber (page : Page) (offset width number : Nat) : Page :=
  page.copyFromSlice offset width (LittleEndian.byte number)

theorem number_setNumber_same
    {page : Page}
    {offset width number : Nat}
    (fits : offset + width ≤ PAGE_SIZE)
    (below : number < 256 ^ width) :
    (page.setNumber offset width number).number offset width = number := by
  calc (page.setNumber offset width number).number offset width
      = LittleEndian.value (LittleEndian.byte number) width :=
        LittleEndian.value_congr fun _ inside => slice_copyFromSlice_same inside fits
    _ = number := LittleEndian.value_byte_of_lt below

theorem number_setNumber_disjoint
    {page : Page}
    {offset width start span number : Nat}
    (apart : start + span ≤ offset ∨ offset + width ≤ start) :
    (page.setNumber offset width number).number start span = page.number start span :=
  LittleEndian.value_congr fun _ inside => slice_copyFromSlice_disjoint (by omega)

theorem slice_setNumber_disjoint
    {page : Page}
    {offset width start position number : Nat}
    (apart : start + position < offset ∨ offset + width ≤ start + position) :
    (page.setNumber offset width number).slice start position =
      page.slice start position :=
  slice_copyFromSlice_disjoint apart

end Page

/-- The free-list link in the first four bytes of a free page. -/
def nextPointer (page : Page) : UInt32 :=
  UInt32.ofNat (page.number 0 4)

/-- The image `free_page` writes. -/
def linkPage (head : UInt32) : Page :=
  zeroPage.setNumber 0 4 head.toNat

@[simp]
theorem nextPointer_linkPage (head : UInt32) :
    nextPointer (linkPage head) = head := by
  unfold nextPointer linkPage
  rw [Page.number_setNumber_same (by decide) head.toNat_lt]
  exact UInt32.ofNat_toNat

/-! ## The header page -/

/-- Database-wide metadata, mirrored in page 0. -/
structure Meta where
  pageCount : UInt32
  freelistHead : UInt32
  catalogRoot : UInt32
  nextTxId : UInt64
  deriving Repr, DecidableEq

/-- `b"PREHNDB\x0c"`. -/
def MAGIC : List UInt8 := [80, 82, 69, 72, 78, 68, 66, 12]

def HDR_MAGIC : Nat := 0
def HDR_PAGE_SIZE : Nat := 8
def HDR_PAGE_COUNT : Nat := 12
def HDR_FREELIST : Nat := 16
def HDR_CATALOG : Nat := 20
def HDR_NEXT_TX : Nat := 24

/-- Page 0. -/
def encodeHeader (metadata : Meta) : Page :=
  ((((((zeroPage.copyFromSlice HDR_MAGIC 8 fun position => MAGIC.getD position 0).setNumber
    HDR_PAGE_SIZE 4 PAGE_SIZE).setNumber
    HDR_PAGE_COUNT 4 metadata.pageCount.toNat).setNumber
    HDR_FREELIST 4 metadata.freelistHead.toNat).setNumber
    HDR_CATALOG 4 metadata.catalogRoot.toNat).setNumber
    HDR_NEXT_TX 8 metadata.nextTxId.toNat)

/-- Page 0 read back, magic and page size checked. -/
def decodeHeader (page : Page) : Except Error Meta :=
  if (List.range 8).map (page.slice HDR_MAGIC) ≠ MAGIC then
    .error (.corruption "not a PrehniteDB database file (bad or outdated magic number)")
  else
    let pageSize := page.number HDR_PAGE_SIZE 4
    if pageSize ≠ PAGE_SIZE then
      .error (.corruption
        s!"database uses {pageSize}-byte pages, but this build expects {PAGE_SIZE}")
    else
      .ok {
        pageCount := UInt32.ofNat (page.number HDR_PAGE_COUNT 4)
        freelistHead := UInt32.ofNat (page.number HDR_FREELIST 4)
        catalogRoot := UInt32.ofNat (page.number HDR_CATALOG 4)
        nextTxId := UInt64.ofNat (page.number HDR_NEXT_TX 8) }

@[simp]
theorem decodeHeader_encodeHeader (metadata : Meta) :
    decodeHeader (encodeHeader metadata) = .ok metadata := by
  have magic :
      (List.range 8).map ((encodeHeader metadata).slice HDR_MAGIC) = MAGIC := by
    have bytes :
        ∀ position < 8,
          (encodeHeader metadata).slice HDR_MAGIC position = MAGIC.getD position 0 := by
      intro position inside
      unfold encodeHeader
      simp (disch := simp only [HDR_MAGIC, HDR_PAGE_SIZE, HDR_PAGE_COUNT, HDR_FREELIST,
        HDR_CATALOG, HDR_NEXT_TX]; omega) only [Page.slice_setNumber_disjoint]
      exact Page.slice_copyFromSlice_same inside (by decide)
    calc (List.range 8).map ((encodeHeader metadata).slice HDR_MAGIC)
        = (List.range 8).map fun position => MAGIC.getD position 0 :=
          List.map_congr_left fun position member => bytes position (List.mem_range.mp member)
      _ = MAGIC := by decide
  have pageSize : (encodeHeader metadata).number HDR_PAGE_SIZE 4 = PAGE_SIZE := by
    unfold encodeHeader
    simp (disch := decide) only [Page.number_setNumber_disjoint, Page.number_setNumber_same]
  have pageCount :
      (encodeHeader metadata).number HDR_PAGE_COUNT 4 = metadata.pageCount.toNat := by
    unfold encodeHeader
    simp (disch := decide) only [Page.number_setNumber_disjoint]
    exact Page.number_setNumber_same (by decide) metadata.pageCount.toNat_lt
  have freelistHead :
      (encodeHeader metadata).number HDR_FREELIST 4 = metadata.freelistHead.toNat := by
    unfold encodeHeader
    simp (disch := decide) only [Page.number_setNumber_disjoint]
    exact Page.number_setNumber_same (by decide) metadata.freelistHead.toNat_lt
  have catalogRoot :
      (encodeHeader metadata).number HDR_CATALOG 4 = metadata.catalogRoot.toNat := by
    unfold encodeHeader
    simp (disch := decide) only [Page.number_setNumber_disjoint]
    exact Page.number_setNumber_same (by decide) metadata.catalogRoot.toNat_lt
  have nextTxId :
      (encodeHeader metadata).number HDR_NEXT_TX 8 = metadata.nextTxId.toNat :=
    Page.number_setNumber_same (by decide) metadata.nextTxId.toNat_lt
  simp only [decodeHeader, magic, pageSize, pageCount, freelistHead, catalogRoot, nextTxId,
    UInt32.ofNat_toNat, UInt64.ofNat_toNat, ne_eq, not_true_eq_false, if_false]

/-! ## The database file -/

/-- The database file, page by page; what lies past its end reads as zeros. -/
structure DbFile where
  pages : UInt32 → Page
  /-- Whole pages in the file. -/
  length : Nat
  beyond : ∀ no, length ≤ no.toNat → pages no = zeroPage

namespace DbFile

def empty : DbFile where
  pages := fun _ => zeroPage
  length := 0
  beyond := fun _ _ => rfl

/-- Write one whole page, extending the file when it is short. -/
def writePage (file : DbFile) (no : UInt32) (page : Page) : DbFile where
  pages := Function.update file.pages no page
  length := max file.length (no.toNat + 1)
  beyond := by
    intro other past
    have different : other ≠ no := by
      rintro rfl
      omega
    rw [Function.update_of_ne different]
    exact file.beyond other (by omega)

/-- Write pages in order. -/
def writeAll : List (UInt32 × Page) → DbFile → DbFile
  | [], file => file
  | (no, page) :: rest, file => writeAll rest (file.writePage no page)

@[simp]
theorem writePage_pages (file : DbFile) (no : UInt32) (page : Page) :
    (file.writePage no page).pages = Function.update file.pages no page :=
  rfl

@[simp]
theorem writePage_length (file : DbFile) (no : UInt32) (page : Page) :
    (file.writePage no page).length = max file.length (no.toNat + 1) :=
  rfl

theorem writePage_nonempty (file : DbFile) (no : UInt32) (page : Page) :
    (file.writePage no page).length ≠ 0 := by
  simp only [writePage_length]
  omega

theorem writeAll_pages (log : List (UInt32 × Page)) (file : DbFile) :
    (writeAll log file).pages = WriteLog.replay log file.pages := by
  induction log generalizing file with
  | nil => rfl
  | cons write rest inductionHypothesis =>
      simp only [writeAll, inductionHypothesis, writePage_pages, WriteLog.replay]

theorem length_le_writeAll (log : List (UInt32 × Page)) (file : DbFile) :
    file.length ≤ (writeAll log file).length := by
  induction log generalizing file with
  | nil => exact Nat.le_refl _
  | cons write rest inductionHypothesis =>
      exact Nat.le_trans (Nat.le_max_left _ _)
        (inductionHypothesis (file.writePage write.1 write.2))

end DbFile

end PrehniteDB
