import PrehniteDB.PageFile

namespace PrehniteDB

/-!
# The write-ahead log

The log at the granularity of its records.  While a transaction is open every
record below the cursor is a page record of fixed size, so an offset is a record
index here; the bytes behind a commit marker are never read again, so the log
ends at the marker.  Every record is whole and passes its checksum.
-/

inductive WalRecord where
  | page (no : UInt32) (image : Page)
  | commit (count : UInt32)

/-- A log file and the position its pager appends at. -/
structure Wal where
  file : List WalRecord
  cursor : Nat
  records : UInt32

/-- Append the commit marker. -/
def Wal.seal (wal : Wal) : Wal :=
  { wal with
    file := wal.file.take wal.cursor ++ [.commit wal.records]
    cursor := wal.cursor + 1 }

/-- The page images in front of the first marker, in order. -/
def pageWrites : List WalRecord → List (UInt32 × Page)
  | .page no image :: rest => (no, image) :: pageWrites rest
  | _ => []

/-- `scan`: page records up to a marker that carries their count. -/
def scan (records : UInt32) : List WalRecord → Bool
  | [] => false
  | .page _ _ :: rest => scan (records + 1) rest
  | .commit count :: _ => count == records

namespace Wal

/-- An empty log file. -/
def fresh : Wal where
  file := []
  cursor := 0
  records := 0

/-- Write a page record at the cursor, over whatever an abandoned transaction left there. -/
def appendPage (wal : Wal) (no : UInt32) (image : Page) : Nat × Wal :=
  (wal.cursor,
    { file := wal.file.take wal.cursor ++ .page no image :: wal.file.drop (wal.cursor + 1)
      cursor := wal.cursor + 1
      records := wal.records + 1 })

def readPageAt (wal : Wal) (offset : Nat) : Option Page :=
  match wal.file[offset]? with
  | some (.page _ image) => some image
  | _ => none

/-- Copy every page image into the database file. -/
def apply (wal : Wal) (db : DbFile) : DbFile :=
  db.writeAll (pageWrites wal.file)

def reset (_ : Wal) : Wal := fresh

/-- Abandon an unsealed transaction; the file is left as it is. -/
def discard (wal : Wal) : Wal :=
  { wal with cursor := 0, records := 0 }

/-- Replay a complete committed transaction, then empty the log. -/
def recover (wal : Wal) (db : DbFile) : Bool × Wal × DbFile :=
  let committed := scan 0 wal.file
  (committed, wal.reset, if committed then wal.apply db else db)

/-- The images appended since the last reset or discard. -/
def appended (wal : Wal) : List (UInt32 × Page) :=
  pageWrites (wal.file.take wal.cursor)

end Wal

/-! ## Logs of page records -/

/-- Only page records. -/
def PagesOnly (log : List WalRecord) : Prop :=
  ∀ record ∈ log, ∃ no image, record = .page no image

theorem PagesOnly.append
    {log later : List WalRecord}
    (first : PagesOnly log)
    (second : PagesOnly later) :
    PagesOnly (log ++ later) := by
  intro record member
  rcases List.mem_append.mp member with earlier | last
  · exact first record earlier
  · exact second record last

theorem pageWrites_append
    {log : List WalRecord}
    (pagesOnly : PagesOnly log)
    (later : List WalRecord) :
    pageWrites (log ++ later) = pageWrites log ++ pageWrites later := by
  induction log with
  | nil => rfl
  | cons record rest inductionHypothesis =>
      obtain ⟨no, image, rfl⟩ := pagesOnly record List.mem_cons_self
      simp only [List.cons_append, pageWrites]
      rw [inductionHypothesis fun other member =>
        pagesOnly other (List.mem_cons_of_mem _ member)]

theorem scan_of_pagesOnly
    {log : List WalRecord}
    (pagesOnly : PagesOnly log)
    (records : UInt32) :
    scan records log = false := by
  induction log generalizing records with
  | nil => rfl
  | cons record rest inductionHypothesis =>
      obtain ⟨no, image, rfl⟩ := pagesOnly record List.mem_cons_self
      exact inductionHypothesis
        (fun other member => pagesOnly other (List.mem_cons_of_mem _ member)) _

theorem scan_sealed
    {log : List WalRecord}
    (pagesOnly : PagesOnly log)
    (records : UInt32)
    (rest : List WalRecord) :
    scan records (log ++ .commit (records + UInt32.ofNat log.length) :: rest) = true := by
  induction log generalizing records with
  | nil => simp [scan]
  | cons record later inductionHypothesis =>
      obtain ⟨no, image, rfl⟩ := pagesOnly record List.mem_cons_self
      have count :
          records + UInt32.ofNat (WalRecord.page no image :: later).length =
            records + 1 + UInt32.ofNat later.length := by
        simp only [List.length_cons, UInt32.ofNat_add]
        rw [UInt32.add_assoc, UInt32.add_comm 1]
        rfl
      rw [count]
      exact inductionHypothesis
        (fun other member => pagesOnly other (List.mem_cons_of_mem _ member)) _

/-! ## The log between two commits -/

/-- What holds of a log that carries no marker. -/
structure Wal.Unsealed (wal : Wal) : Prop where
  pagesOnly : PagesOnly wal.file
  cursor_le : wal.cursor ≤ wal.file.length
  counted : wal.records = UInt32.ofNat wal.cursor

namespace Wal

namespace Unsealed

variable {wal : Wal}

theorem ofFresh : Unsealed fresh where
  pagesOnly := by simp [PagesOnly, fresh]
  cursor_le := Nat.le_refl _
  counted := rfl

theorem discard (unsealed : wal.Unsealed) : wal.discard.Unsealed where
  pagesOnly := unsealed.pagesOnly
  cursor_le := Nat.zero_le _
  counted := rfl

/-- No crash before the marker replays anything. -/
theorem scan_false (unsealed : wal.Unsealed) : scan 0 wal.file = false :=
  scan_of_pagesOnly unsealed.pagesOnly 0

theorem taken (unsealed : wal.Unsealed) (count : Nat) :
    PagesOnly (wal.file.take count) :=
  fun record member => unsealed.pagesOnly record (List.mem_of_mem_take member)

theorem appendPage
    (unsealed : wal.Unsealed)
    (no : UInt32)
    (image : Page) :
    (wal.appendPage no image).2.Unsealed where
  pagesOnly := by
    refine (unsealed.taken _).append ?_
    intro record member
    rcases List.mem_cons.mp member with rfl | stale
    · exact ⟨no, image, rfl⟩
    · exact unsealed.pagesOnly record (List.mem_of_mem_drop stale)
  cursor_le := by
    have bound := unsealed.cursor_le
    simp only [Wal.appendPage, List.length_append, List.length_take, List.length_cons]
    omega
  counted := by
    simp only [Wal.appendPage, unsealed.counted, UInt32.ofNat_add]
    rfl

theorem take_appendPage
    (unsealed : wal.Unsealed)
    (no : UInt32)
    (image : Page) :
    (wal.appendPage no image).2.file.take (wal.cursor + 1) =
      wal.file.take wal.cursor ++ [.page no image] := by
  have length : (wal.file.take wal.cursor).length = wal.cursor :=
    List.length_take_of_le unsealed.cursor_le
  simp only [Wal.appendPage, List.take_append, length, Nat.add_sub_cancel_left,
    List.take_succ_cons, List.take_zero]
  rw [List.take_of_length_le (by omega)]

theorem appended_appendPage
    (unsealed : wal.Unsealed)
    (no : UInt32)
    (image : Page) :
    (wal.appendPage no image).2.appended = wal.appended ++ [(no, image)] := by
  calc (wal.appendPage no image).2.appended
      = pageWrites ((wal.appendPage no image).2.file.take (wal.cursor + 1)) := rfl
    _ = pageWrites (wal.file.take wal.cursor ++ [.page no image]) :=
        congrArg pageWrites (unsealed.take_appendPage no image)
    _ = wal.appended ++ [(no, image)] := pageWrites_append (unsealed.taken _) _

/-- An earlier record stays where it is. -/
theorem readPageAt_appendPage_of_lt
    (unsealed : wal.Unsealed)
    {offset : Nat}
    (below : offset < wal.cursor)
    (no : UInt32)
    (image : Page) :
    (wal.appendPage no image).2.readPageAt offset = wal.readPageAt offset := by
  have length : (wal.file.take wal.cursor).length = wal.cursor :=
    List.length_take_of_le unsealed.cursor_le
  have same : (wal.appendPage no image).2.file[offset]? = wal.file[offset]? := by
    simp only [Wal.appendPage]
    rw [List.getElem?_append_left (by omega), List.getElem?_take_of_lt below]
  simp only [readPageAt, same]

theorem readPageAt_appendPage
    (unsealed : wal.Unsealed)
    (no : UInt32)
    (image : Page) :
    (wal.appendPage no image).2.readPageAt wal.cursor = some image := by
  have length : (wal.file.take wal.cursor).length = wal.cursor :=
    List.length_take_of_le unsealed.cursor_le
  have record : (wal.appendPage no image).2.file[wal.cursor]? = some (.page no image) := by
    simp only [Wal.appendPage]
    rw [List.getElem?_append_right (by omega), length, Nat.sub_self]
    rfl
  simp only [readPageAt, record]

theorem seal_file (wal : Wal) :
    wal.seal.file = wal.file.take wal.cursor ++ [.commit wal.records] :=
  rfl

theorem scan_seal (unsealed : wal.Unsealed) : scan 0 wal.seal.file = true := by
  have length : (wal.file.take wal.cursor).length = wal.cursor :=
    List.length_take_of_le unsealed.cursor_le
  have sealed := scan_sealed (unsealed.taken wal.cursor) 0 []
  rw [length, UInt32.zero_add, ← unsealed.counted] at sealed
  exact sealed

theorem pageWrites_seal (unsealed : wal.Unsealed) :
    pageWrites wal.seal.file = wal.appended := by
  rw [seal_file, pageWrites_append (unsealed.taken _)]
  exact List.append_nil _

theorem apply_seal
    (unsealed : wal.Unsealed)
    (db : DbFile) :
    wal.seal.apply db = db.writeAll wal.appended :=
  congrArg (fun log => db.writeAll log) unsealed.pageWrites_seal

end Unsealed

end Wal

end PrehniteDB
