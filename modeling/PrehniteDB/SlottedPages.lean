import Mathlib.Data.List.GetD
import PrehniteDB.BinarySearch
import PrehniteDB.PageFile
import PrehniteDB.ValueOrder

namespace PrehniteDB

/-!
# Slotted pages

A page of cells: an array of slots grows up from the header, the cells grow down
from the end of the page.  An access outside the page is a panic, as `None`.
-/

namespace SlottedPage

def HEADER_SIZE : Nat := 16

/-- Bytes for the slot array and the cells. -/
def USABLE : Nat := PAGE_SIZE - HEADER_SIZE

def MAX_CELL : Nat := USABLE / 2 - 2

def OFF_TYPE : Nat := 0
def OFF_CELL_COUNT : Nat := 2
def OFF_FREE_END : Nat := 4
def OFF_RIGHT_LINK : Nat := 8

def LEAF_CELL_OVERHEAD : Nat := 6
def INTERNAL_CELL_HEADER : Nat := 6
def SLOT_SIZE : Nat := 2

def PAGE_INTERNAL : Nat := 1
def PAGE_LEAF : Nat := 2

/-! ## Bytes of a page -/

/-- The number at an offset, if it lies within the page. -/
def getU16 (page : Page) (offset : Nat) : Option Nat :=
  if offset + 2 ≤ PAGE_SIZE then some (page.number offset 2) else none

def getU32 (page : Page) (offset : Nat) : Option UInt32 :=
  if offset + 4 ≤ PAGE_SIZE then some (UInt32.ofNat (page.number offset 4)) else none

/-- The low 16 bits of the number. -/
def putU16 (page : Page) (offset number : Nat) : Option Page :=
  if offset + 2 ≤ PAGE_SIZE then some (page.setNumber offset 2 number) else none

/-- Write a number, if it fits in the page. -/
def putU32 (page : Page) (offset : Nat) (number : UInt32) : Option Page :=
  if offset + 4 ≤ PAGE_SIZE then some (page.setNumber offset 4 number.toNat) else none

/-- A range of bytes, if it lies within the page. -/
def getBytes (page : Page) (start length : Nat) : Option (List UInt8) :=
  if start + length ≤ PAGE_SIZE then some ((List.range length).map (page.slice start)) else none

/-- Write bytes, if they fit in the page. -/
def putBytes (page : Page) (start : Nat) (bytes : List UInt8) : Option Page :=
  if start + bytes.length ≤ PAGE_SIZE then
    some (page.copyFromSlice start bytes.length fun position => bytes.getD position 0)
  else none

/-! ## Reading a page -/

/-- The first byte tells leaves from internal pages. -/
def pageType (page : Page) : Nat := page.number OFF_TYPE 1

def isLeaf (page : Page) : Bool := pageType page = PAGE_LEAF

def isInternal (page : Page) : Bool := pageType page = PAGE_INTERNAL

def cellCount (page : Page) : Nat := page.number OFF_CELL_COUNT 2

/-- The next leaf in scan order; 0 is none. -/
def rightLink (page : Page) : UInt32 := UInt32.ofNat (page.number OFF_RIGHT_LINK 4)

def setRightLink (page : Page) (link : UInt32) : Page :=
  page.setNumber OFF_RIGHT_LINK 4 link.toNat

/-- Where a cell starts. -/
def slot (page : Page) (position : Nat) : Option Nat :=
  getU16 page (HEADER_SIZE + position * SLOT_SIZE)

/-- The key of the cell at a position of the slot array. -/
def leafKey (page : Page) (position : Nat) : Option (List UInt8) := do
  let offset ← slot page position
  let keyLength ← getU16 page offset
  getBytes page (offset + LEAF_CELL_OVERHEAD) keyLength

/-- The value behind the key. -/
def leafValue (page : Page) (position : Nat) : Option (List UInt8) := do
  let offset ← slot page position
  let keyLength ← getU16 page offset
  let valueLength ← getU32 page (offset + 2)
  getBytes page (offset + LEAF_CELL_OVERHEAD + keyLength) valueLength.toNat

/-- The separator of an internal cell. -/
def internalKey (page : Page) (position : Nat) : Option (List UInt8) := do
  let offset ← slot page position
  let keyLength ← getU16 page (offset + 4)
  getBytes page (offset + INTERNAL_CELL_HEADER) keyLength

/-- The child to the left of the separator. -/
def internalChild (page : Page) (position : Nat) : Option UInt32 := do
  let offset ← slot page position
  getU32 page offset

abbrev LeafEntry := List UInt8 × List UInt8
abbrev InternalEntry := List UInt8 × UInt32

def leafEntry (page : Page) (position : Nat) : Option LeafEntry := do
  let key ← leafKey page position
  let value ← leafValue page position
  pure (key, value)

def internalEntry (page : Page) (position : Nat) : Option InternalEntry := do
  let key ← internalKey page position
  let child ← internalChild page position
  pure (key, child)

/-- Every cell of a leaf, in slot order. -/
def leafEntries (page : Page) : Option (List LeafEntry) :=
  (List.range (cellCount page)).mapM (leafEntry page)

/-- Every cell of an internal page, in slot order. -/
def internalEntries (page : Page) : Option (List InternalEntry) :=
  (List.range (cellCount page)).mapM (internalEntry page)

/-- `Ok` of the slot of the key, or `Err` of the slot at which it would be inserted. -/
def findLeafSlot (page : Page) (key : List UInt8) : Option (Except Nat Nat) :=
  BinarySearch.search (fun position => (leafKey page position).map (compareKeys · key)) 0
    (cellCount page)

/-- A separator that equals the key is passed. -/
def compareSeparator (separator key : List UInt8) : Ordering :=
  if separator ≤ key then .lt else .gt

/-- The last cell whose separator is not above the key, or the first one. -/
def findChild (page : Page) (key : List UInt8) : Option Nat :=
  (BinarySearch.search
    (fun position => (internalKey page position).map (compareSeparator · key)) 0
    (cellCount page)).map fun found =>
      match found with
      | .ok position | .error position => position - 1

/-! ## Building a page -/

/-- How the entries of a page become cells. -/
structure CellFormat (Entry : Type) where
  /-- Bytes of the cell. -/
  length : Entry → Nat
  write : Page → Nat → Entry → Option Page

/-- Each cell below the one before it, with a slot that tells where it starts. -/
def placeCells {Entry : Type} (format : CellFormat Entry) :
    List Entry → Nat → Nat → Page → Option (Nat × Page)
  | [], _, cursor, page => some (cursor, page)
  | entry :: rest, position, cursor, page =>
      if format.length entry ≤ cursor then do
        let start := cursor - format.length entry
        let written ← format.write page start entry
        let linked ← putU16 written (HEADER_SIZE + position * SLOT_SIZE) start
        placeCells format rest (position + 1) start linked
      else none

/-- What the entries take of a page. -/
def body {Entry : Type} (format : CellFormat Entry) (entries : List Entry) : Nat :=
  (entries.map fun entry => SLOT_SIZE + format.length entry).sum

/-- Cells from the end of the page downwards, slots behind the header. -/
def buildPage
    {Entry : Type}
    (format : CellFormat Entry)
    (fresh : Page)
    (full : String)
    (entries : List Entry) : Option (Except Error Page) :=
  if USABLE < body format entries then some (.error (.corruption full))
  else do
    let (cursor, page) ← placeCells format entries 0 PAGE_SIZE fresh
    let counted ← putU16 page OFF_CELL_COUNT entries.length
    let ended ← putU16 counted OFF_FREE_END cursor
    pure (.ok ended)

/-- A page without cells. -/
def emptyPage (type : Nat) : Page :=
  (zeroPage.setNumber OFF_TYPE 1 type).setNumber OFF_FREE_END 2 PAGE_SIZE

def newLeaf : Page := emptyPage PAGE_LEAF

def newInternal : Page := emptyPage PAGE_INTERNAL

/-- The lengths, the key, the value. -/
def writeLeafCell (page : Page) (cursor : Nat) (entry : LeafEntry) : Option Page := do
  let keyed ← putU16 page cursor entry.1.length
  let sized ← putU32 keyed (cursor + 2) (UInt32.ofNat entry.2.length)
  let named ← putBytes sized (cursor + LEAF_CELL_OVERHEAD) entry.1
  putBytes named (cursor + LEAF_CELL_OVERHEAD + entry.1.length) entry.2

/-- The child, the length of the key, the key. -/
def writeInternalCell (page : Page) (cursor : Nat) (entry : InternalEntry) : Option Page := do
  let linked ← putU32 page cursor entry.2
  let sized ← putU16 linked (cursor + 4) entry.1.length
  putBytes sized (cursor + INTERNAL_CELL_HEADER) entry.1

def leafFormat : CellFormat LeafEntry where
  length := fun entry => LEAF_CELL_OVERHEAD + entry.1.length + entry.2.length
  write := writeLeafCell

def internalFormat : CellFormat InternalEntry where
  length := fun entry => INTERNAL_CELL_HEADER + entry.1.length
  write := writeInternalCell

/-- A leaf of these entries, or an error if they do not fit. -/
def buildLeaf (entries : List LeafEntry) (link : UInt32) : Option (Except Error Page) :=
  buildPage leafFormat (setRightLink newLeaf link)
    "build_leaf: entries exceed page capacity" entries

/-- An internal page of these entries. -/
def buildInternal (entries : List InternalEntry) : Option (Except Error Page) :=
  buildPage internalFormat newInternal "build_internal: entries exceed page capacity" entries

/-- The bytes an entry takes, its slot included. -/
def leafFootprint (entry : LeafEntry) : Nat :=
  SLOT_SIZE + LEAF_CELL_OVERHEAD + entry.1.length + entry.2.length

def internalFootprint (entry : InternalEntry) : Nat :=
  SLOT_SIZE + INTERNAL_CELL_HEADER + entry.1.length

/-! ## Bytes that stay -/

def byte (page : Page) (position : Nat) : UInt8 := page.slice position 0

/-- The pages agree from `start` on, up to `finish`. -/
def SameBytes (page other : Page) (start finish : Nat) : Prop :=
  ∀ position, start ≤ position → position < finish → byte other position = byte page position

section Bytes

variable {page other : Page}

theorem SameBytes.mono
    {start finish first last : Nat}
    (same : SameBytes page other start finish)
    (later : start ≤ first)
    (earlier : last ≤ finish) :
    SameBytes page other first last :=
  fun position past before => same position (by omega) (by omega)

theorem SameBytes.trans
    {last : Page}
    {start finish : Nat}
    (first : SameBytes page other start finish)
    (second : SameBytes other last start finish) :
    SameBytes page last start finish :=
  fun position past before => (second position past before).trans (first position past before)

theorem SameBytes.number
    {offset width : Nat}
    (same : SameBytes page other offset (offset + width)) :
    other.number offset width = page.number offset width :=
  LittleEndian.value_congr fun position below =>
    same (offset + position) (by omega) (by omega)

theorem sameBytes_setNumber
    (page : Page)
    {offset width start finish : Nat}
    (number : Nat)
    (apart : finish ≤ offset ∨ offset + width ≤ start) :
    SameBytes page (page.setNumber offset width number) start finish :=
  fun position past before => Page.slice_setNumber_disjoint (by omega)

theorem sameBytes_putBytes
    {start first last : Nat}
    {bytes : List UInt8}
    (written : putBytes page start bytes = some other)
    (apart : last ≤ start ∨ start + bytes.length ≤ first) :
    SameBytes page other first last := by
  unfold putBytes at written
  split at written
  · cases written
    exact fun position past before => Page.slice_copyFromSlice_disjoint (by omega)
  · cases written

theorem putBytes_byte
    {start position : Nat}
    {bytes : List UInt8}
    (written : putBytes page start bytes = some other)
    (inside : position < bytes.length) :
    byte other (start + position) = bytes[position] := by
  unfold putBytes at written
  split at written
  case isTrue fits =>
    cases written
    have copied := @Page.slice_copyFromSlice_same page start bytes.length position
      (fun position => bytes.getD position 0) inside fits
    rw [List.getD_eq_getElem bytes 0 inside] at copied
    exact copied
  case isFalse => cases written

theorem putBytes_fits
    (page : Page)
    {start : Nat}
    {bytes : List UInt8}
    (fits : start + bytes.length ≤ PAGE_SIZE) :
    ∃ written, putBytes page start bytes = some written :=
  ⟨_, if_pos fits⟩

theorem getBytes_of_bytes
    {start : Nat}
    {bytes : List UInt8}
    (fits : start + bytes.length ≤ PAGE_SIZE)
    (held : ∀ position (inside : position < bytes.length),
      byte page (start + position) = bytes[position]) :
    getBytes page start bytes.length = some bytes := by
  unfold getBytes
  rw [if_pos fits, Option.some.injEq]
  refine List.ext_getElem (by simp) fun position inRange inside => ?_
  rw [List.getElem_map, List.getElem_range]
  exact held position inside

end Bytes

/-! ## Cells -/

/-- A cell that is written is there, and stays there while its bytes do. -/
structure CellLaws
    {Entry : Type}
    (format : CellFormat Entry)
    (Holds : Page → Nat → Entry → Prop) : Prop where
  writes : ∀ page start entry, start + format.length entry ≤ PAGE_SIZE →
    ∃ written, format.write page start entry = some written ∧ Holds written start entry ∧
      SameBytes page written 0 start ∧
      SameBytes page written (start + format.length entry) PAGE_SIZE
  stays : ∀ page other start entry, Holds page start entry →
    SameBytes page other start (start + format.length entry) → Holds other start entry

/-- The lengths and the bytes of a leaf cell. -/
structure LeafHolds (page : Page) (start : Nat) (entry : LeafEntry) : Prop where
  keyLength : page.number start 2 = entry.1.length
  valueLength : page.number (start + 2) 4 = entry.2.length
  key : ∀ position (inside : position < entry.1.length),
    byte page (start + LEAF_CELL_OVERHEAD + position) = entry.1[position]
  value : ∀ position (inside : position < entry.2.length),
    byte page (start + LEAF_CELL_OVERHEAD + entry.1.length + position) = entry.2[position]

/-- The bytes from `start` on spell the cell. -/
structure InternalHolds (page : Page) (start : Nat) (entry : InternalEntry) : Prop where
  child : page.number start 4 = entry.2.toNat
  keyLength : page.number (start + 4) 2 = entry.1.length
  key : ∀ position (inside : position < entry.1.length),
    byte page (start + INTERNAL_CELL_HEADER + position) = entry.1[position]

theorem leafLaws : CellLaws leafFormat LeafHolds where
  writes := by
    rintro page start ⟨key, value⟩ fits
    have room : start + (6 + key.length + value.length) ≤ 4096 := fits
    let keyed := page.setNumber start 2 key.length
    let sized := keyed.setNumber (start + 2) 4 (UInt32.ofNat value.length).toNat
    have lengths : (UInt32.ofNat value.length).toNat = value.length := by
      rw [UInt32.toNat_ofNat']
      exact Nat.mod_eq_of_lt (by omega)
    obtain ⟨named, copiedKey⟩ := @putBytes_fits sized (start + 6) key
      (show _ ≤ 4096 by omega)
    obtain ⟨written, copiedValue⟩ := @putBytes_fits named (start + 6 + key.length) value
      (show _ ≤ 4096 by omega)
    have result : writeLeafCell page start (key, value) = some written := by
      have first : putU16 page start key.length = some keyed :=
        if_pos (show _ ≤ 4096 by omega)
      have second : putU32 keyed (start + 2) (UInt32.ofNat value.length) = some sized :=
        if_pos (show _ ≤ 4096 by omega)
      simp only [writeLeafCell, first, second, LEAF_CELL_OVERHEAD, copiedKey, copiedValue,
        Option.bind_eq_bind, Option.bind_some]
    refine ⟨written, result, ⟨?_, ?_, ?_, ?_⟩, ?_, ?_⟩
    · have lengthStays : SameBytes keyed written start (start + 2) :=
        ((sameBytes_setNumber keyed _ (by omega)).trans
          (sameBytes_putBytes copiedKey (by omega))).trans
          (sameBytes_putBytes copiedValue (by omega))
      rw [lengthStays.number]
      exact Page.number_setNumber_same (show _ ≤ 4096 by omega) (by omega)
    · have lengthStays : SameBytes sized written (start + 2) (start + 2 + 4) :=
        (sameBytes_putBytes copiedKey (by omega)).trans
          (sameBytes_putBytes copiedValue (by omega))
      rw [lengthStays.number, ← lengths]
      exact Page.number_setNumber_same (show _ ≤ 4096 by omega)
        (UInt32.toNat_lt _)
    · intro position inside
      change position < key.length at inside
      have keyStays : SameBytes named written (start + 6) (start + 6 + key.length) :=
        sameBytes_putBytes copiedValue (by omega)
      exact (keyStays (start + 6 + position) (by omega) (by omega)).trans
        (putBytes_byte copiedKey inside)
    · exact fun position inside => putBytes_byte copiedValue inside
    · exact (((sameBytes_setNumber page _ (by omega)).trans
        (sameBytes_setNumber keyed _ (by omega))).trans
        (sameBytes_putBytes copiedKey (by omega))).trans
        (sameBytes_putBytes copiedValue (by omega))
    · have behind : start + leafFormat.length (key, value) =
          start + (6 + key.length + value.length) := rfl
      rw [behind]
      exact (((sameBytes_setNumber page _ (by omega)).trans
        (sameBytes_setNumber keyed _ (by omega))).trans
        (sameBytes_putBytes copiedKey (by omega))).trans
        (sameBytes_putBytes copiedValue (by omega))
  stays := by
    rintro page other start ⟨key, value⟩ held same
    have cell : SameBytes page other start (start + (6 + key.length + value.length)) := same
    have header : LEAF_CELL_OVERHEAD = 6 := rfl
    refine ⟨?_, ?_, ?_, ?_⟩
    · rw [(cell.mono (by omega) (by omega)).number]
      exact held.keyLength
    · rw [(cell.mono (by omega) (by omega)).number]
      exact held.valueLength
    · intro position inside
      rw [cell _ (by omega) (by simp only at inside; omega)]
      exact held.key position inside
    · intro position inside
      rw [cell _ (by simp only; omega) (by simp only at inside ⊢; omega)]
      exact held.value position inside

theorem internalLaws : CellLaws internalFormat InternalHolds where
  writes := by
    rintro page start ⟨key, child⟩ fits
    have room : start + (6 + key.length) ≤ 4096 := fits
    let linked := page.setNumber start 4 child.toNat
    let sized := linked.setNumber (start + 4) 2 key.length
    obtain ⟨written, copied⟩ := @putBytes_fits sized (start + 6) key (show _ ≤ 4096 by omega)
    have result : writeInternalCell page start (key, child) = some written := by
      have first : putU32 page start child = some linked := if_pos (show _ ≤ 4096 by omega)
      have second : putU16 linked (start + 4) key.length = some sized :=
        if_pos (show _ ≤ 4096 by omega)
      simp only [writeInternalCell, first, second, INTERNAL_CELL_HEADER, copied,
        Option.bind_eq_bind, Option.bind_some]
    refine ⟨written, result, ⟨?_, ?_, ?_⟩, ?_, ?_⟩
    · have childStays : SameBytes linked written start (start + 4) :=
        (sameBytes_setNumber linked _ (by omega)).trans (sameBytes_putBytes copied (by omega))
      rw [childStays.number]
      exact Page.number_setNumber_same (show _ ≤ 4096 by omega) (UInt32.toNat_lt child)
    · have lengthStays : SameBytes sized written (start + 4) (start + 4 + 2) :=
        sameBytes_putBytes copied (by omega)
      rw [lengthStays.number]
      exact Page.number_setNumber_same (show _ ≤ 4096 by omega) (by omega)
    · exact fun position inside => putBytes_byte copied inside
    · exact ((sameBytes_setNumber page _ (by omega)).trans
        (sameBytes_setNumber linked _ (by omega))).trans (sameBytes_putBytes copied (by omega))
    · have behind : start + internalFormat.length (key, child) = start + (6 + key.length) := rfl
      rw [behind]
      exact ((sameBytes_setNumber page _ (by omega)).trans
        (sameBytes_setNumber linked _ (by omega))).trans (sameBytes_putBytes copied (by omega))
  stays := by
    rintro page other start ⟨key, child⟩ held same
    have cell : SameBytes page other start (start + (6 + key.length)) := same
    have header : INTERNAL_CELL_HEADER = 6 := rfl
    refine ⟨?_, ?_, ?_⟩
    · rw [(cell.mono (by omega) (by omega)).number]
      exact held.child
    · rw [(cell.mono (by omega) (by omega)).number]
      exact held.keyLength
    · intro position inside
      rw [cell _ (by omega) (by simp only at inside; omega)]
      exact held.key position inside

/-! ## Pages of cells -/

section Building

variable {Entry : Type} {format : CellFormat Entry} {Holds : Page → Nat → Entry → Prop}

/-- The entries lie between `low` and `high`, and the slots from `first` on tell where. -/
def Listed
    (format : CellFormat Entry)
    (Holds : Page → Nat → Entry → Prop)
    (page : Page)
    (first low high : Nat)
    (entries : List Entry) : Prop :=
  ∀ index entry, entries[index]? = some entry →
    ∃ start, low ≤ start ∧ start + format.length entry ≤ high ∧
      page.number (HEADER_SIZE + (first + index) * SLOT_SIZE) 2 = start ∧ Holds page start entry

theorem Listed.stays
    (laws : CellLaws format Holds)
    {page other : Page}
    {first low high : Nat}
    {entries : List Entry}
    (listed : Listed format Holds page first low high entries)
    (slots : SameBytes page other (HEADER_SIZE + first * SLOT_SIZE)
      (HEADER_SIZE + (first + entries.length) * SLOT_SIZE))
    (cells : SameBytes page other low high) :
    Listed format Holds other first low high entries := by
  intro index entry found
  obtain ⟨start, above, below, told, held⟩ := listed index entry found
  have inside : index < entries.length := (List.getElem?_eq_some_iff.mp found).1
  refine ⟨start, above, below, ?_, laws.stays page other start entry held
    (cells.mono above below)⟩
  rw [(slots.mono (by simp only [SLOT_SIZE]; omega) (by simp only [SLOT_SIZE]; omega)).number]
  exact told

/-- The room for a list is the room for its first entry and the rest. -/
theorem body_cons (entry : Entry) (rest : List Entry) :
    body format (entry :: rest) = SLOT_SIZE + format.length entry + body format rest :=
  List.sum_cons

theorem length_le_body (entries : List Entry) :
    entries.length * SLOT_SIZE ≤ body format entries := by
  induction entries with
  | nil => exact Nat.zero_le _
  | cons entry rest inductionHypothesis =>
      rw [List.length_cons, body_cons, Nat.succ_mul]
      omega

theorem placeCells_spec
    (laws : CellLaws format Holds)
    (entries : List Entry)
    {first cursor : Nat}
    {page : Page}
    (inside : cursor ≤ PAGE_SIZE)
    (room : HEADER_SIZE + first * SLOT_SIZE + body format entries ≤ cursor) :
    ∃ last placed, placeCells format entries first cursor page = some (last, placed) ∧
      HEADER_SIZE + (first + entries.length) * SLOT_SIZE ≤ last ∧ last ≤ cursor ∧
      SameBytes page placed 0 (HEADER_SIZE + first * SLOT_SIZE) ∧
      SameBytes page placed cursor PAGE_SIZE ∧
      Listed format Holds placed first last cursor entries := by
  induction entries generalizing first cursor page with
  | nil =>
      refine ⟨cursor, page, rfl, ?_, Nat.le_refl _, fun _ _ _ => rfl, fun _ _ _ => rfl, ?_⟩
      · rw [List.length_nil, Nat.add_zero]
        omega
      · exact fun index entry found => by cases found
  | cons entry rest inductionHypothesis =>
      rw [body_cons] at room
      have size : PAGE_SIZE = 4096 := rfl
      have nextSlot : (first + 1) * SLOT_SIZE = first * SLOT_SIZE + 2 := Nat.succ_mul _ _
      have slotSize : SLOT_SIZE = 2 := rfl
      have fits : format.length entry ≤ cursor := by omega
      let start := cursor - format.length entry
      have end_ : start + format.length entry = cursor := Nat.sub_add_cancel fits
      obtain ⟨written, wrote, held, before, behind⟩ :=
        laws.writes page start entry (by omega)
      let linked := written.setNumber (HEADER_SIZE + first * SLOT_SIZE) 2 start
      have linking : putU16 written (HEADER_SIZE + first * SLOT_SIZE) start = some linked :=
        if_pos (by omega)
      obtain ⟨last, placed, ran, above, below, low, high, listed⟩ :=
        @inductionHypothesis (first + 1) start linked (by omega) (by omega)
      have lengths : first + (rest.length + 1) = first + 1 + rest.length := by omega
      have linkedCells : SameBytes written linked start PAGE_SIZE :=
        sameBytes_setNumber written start (by omega)
      refine ⟨last, placed, ?_, ?_, by omega, ?_, ?_, ?_⟩
      · rw [placeCells, if_pos fits]
        simp only [Option.bind_eq_bind]
        rw [show format.write page (cursor - format.length entry) entry = some written from wrote,
          Option.bind_some, show putU16 written (HEADER_SIZE + first * SLOT_SIZE)
            (cursor - format.length entry) = some linked from linking, Option.bind_some]
        exact ran
      · rw [List.length_cons, lengths]
        exact above
      · exact ((before.mono (Nat.le_refl 0) (by omega)).trans
          (sameBytes_setNumber written start (by omega))).trans
          (low.mono (Nat.le_refl 0) (by omega))
      · rw [end_] at behind
        exact (behind.trans (linkedCells.mono (by omega) (Nat.le_refl _))).trans
          (high.mono (by omega) (Nat.le_refl _))
      · intro index other found
        cases index with
        | zero =>
            cases found
            refine ⟨start, below, Nat.le_of_eq end_, ?_, ?_⟩
            · have slotStays : SameBytes linked placed (HEADER_SIZE + first * SLOT_SIZE)
                  (HEADER_SIZE + first * SLOT_SIZE + 2) :=
                low.mono (Nat.zero_le _) (by omega)
              rw [Nat.add_zero, slotStays.number]
              exact Page.number_setNumber_same (by omega) (by omega)
            · refine laws.stays written placed start entry held ?_
              rw [end_]
              exact (linkedCells.mono (Nat.le_refl _) inside).trans
                (high.mono (Nat.le_refl _) inside)
        | succ index =>
            obtain ⟨place, lower, upper, told, there⟩ := listed index other found
            refine ⟨place, lower, by omega, ?_, there⟩
            rw [show first + (index + 1) = first + 1 + index by omega]
            exact told

/-- A page holds these entries, and these alone. -/
structure Carries
    (format : CellFormat Entry)
    (Holds : Page → Nat → Entry → Prop)
    (page : Page)
    (entries : List Entry) : Prop where
  fits : body format entries ≤ USABLE
  count : cellCount page = entries.length
  listed : Listed format Holds page 0 HEADER_SIZE PAGE_SIZE entries

/-- A page is built exactly when its cells fit. -/
theorem buildPage_spec
    (laws : CellLaws format Holds)
    (fresh : Page)
    (full : String)
    (entries : List Entry) :
    if body format entries ≤ USABLE then
      ∃ page, buildPage format fresh full entries = some (.ok page) ∧
        Carries format Holds page entries ∧
        SameBytes fresh page 0 OFF_CELL_COUNT ∧ SameBytes fresh page 6 HEADER_SIZE
    else buildPage format fresh full entries = some (.error (.corruption full)) := by
  split
  case isFalse tooMuch => exact if_pos (Nat.lt_of_not_le tooMuch)
  case isTrue fits =>
    have usable : USABLE = 4080 := rfl
    have header : HEADER_SIZE = 16 := rfl
    have size : PAGE_SIZE = 4096 := rfl
    have slotSize : SLOT_SIZE = 2 := rfl
    have few := @length_le_body Entry format entries
    obtain ⟨last, placed, ran, above, below, low, -, listed⟩ :=
      @placeCells_spec Entry format Holds laws entries 0 PAGE_SIZE fresh (Nat.le_refl _) (by omega)
    let counted := placed.setNumber OFF_CELL_COUNT 2 entries.length
    let ended := counted.setNumber OFF_FREE_END 2 last
    have headerStays : SameBytes placed ended HEADER_SIZE PAGE_SIZE :=
      (sameBytes_setNumber placed _ (.inr (by decide))).trans
        (sameBytes_setNumber counted _ (.inr (by decide)))
    refine ⟨ended, ?_, ⟨fits, ?_, ?_⟩, ?_, ?_⟩
    · have counting : putU16 placed OFF_CELL_COUNT entries.length = some counted :=
        if_pos (by decide)
      have ending : putU16 counted OFF_FREE_END last = some ended := if_pos (by decide)
      rw [buildPage, if_neg (by omega)]
      simp only [ran, counting, ending, Option.bind_eq_bind, Option.bind_some, Option.pure_def]
    · have countStays : SameBytes counted ended OFF_CELL_COUNT (OFF_CELL_COUNT + 2) :=
        sameBytes_setNumber counted _ (.inl (by decide))
      rw [cellCount, countStays.number]
      rw [slotSize] at few
      exact Page.number_setNumber_same (by decide) (by omega)
    · have kept : Listed format Holds ended 0 last PAGE_SIZE entries :=
        listed.stays laws (headerStays.mono (by omega) (by omega))
          (headerStays.mono (by omega) (Nat.le_refl _))
      intro index entry found
      obtain ⟨start, lower, upper, told, held⟩ := kept index entry found
      exact ⟨start, by omega, upper, told, held⟩
    · exact ((low.mono (Nat.le_refl 0) (by simp only [OFF_CELL_COUNT]; omega)).trans
        (sameBytes_setNumber placed _ (.inl (by decide)))).trans
        (sameBytes_setNumber counted _ (.inl (by decide)))
    · exact ((low.mono (Nat.zero_le _) (by omega)).trans
        (sameBytes_setNumber placed _ (.inr (by decide)))).trans
        (sameBytes_setNumber counted _ (.inr (by decide)))

theorem Carries.slot
    {page : Page}
    {entries : List Entry}
    (carries : Carries format Holds page entries)
    {index : Nat}
    {entry : Entry}
    (found : entries[index]? = some entry) :
    ∃ start, start + format.length entry ≤ PAGE_SIZE ∧ slot page index = some start ∧
      Holds page start entry := by
  obtain ⟨start, -, upper, told, held⟩ := carries.listed index entry found
  have inside : index < entries.length := (List.getElem?_eq_some_iff.mp found).1
  have few := @length_le_body Entry format entries
  have fits := carries.fits
  refine ⟨start, upper, ?_, held⟩
  rw [Nat.zero_add] at told
  rw [SlottedPage.slot, getU16, if_pos, told]
  simp only [SLOT_SIZE, USABLE, HEADER_SIZE, PAGE_SIZE] at few fits ⊢
  omega

end Building

end SlottedPage

end PrehniteDB
