import Mathlib.Data.List.Forall2
import PrehniteDB.ByteReader
import PrehniteDB.IndexValues

namespace PrehniteDB

open ByteReader (Reads Takes utf8Bytes)

/-!
# Values as tagged bytes

A tag byte and then a payload.  Stored rows, spilled rows and the wire differ in
the byte order of the numbers and in the texts of their errors.
-/

def TAG_NULL : UInt8 := 0
def TAG_INT : UInt8 := 1
def TAG_REAL : UInt8 := 2
def TAG_TEXT : UInt8 := 3
def TAG_BOOL : UInt8 := 4

structure ValueFormat where
  number : Nat → Nat → List UInt8
  readNumber : Nat → ByteReader Error Nat
  short : Error
  invalid : Error
  unknownTag : UInt8 → Error
  reads : ∀ width value, value < 256 ^ width → Reads (readNumber width) (number width value) value
  takes :
    ∀ width,
      Takes (readNumber width) fun value used =>
        used = number width value ∧ value < 256 ^ width

namespace ValueFormat

variable (format : ValueFormat)

/-- The length of a text is cast to a `u32`. -/
def encodeValue : Value → List UInt8
  | .null => [TAG_NULL]
  | .int number => TAG_INT :: format.number 8 number.toUInt64.toNat
  | .real bits => TAG_REAL :: format.number 8 bits.toNat
  | .text string =>
      TAG_TEXT :: (format.number 4 (utf8Bytes string).length ++ utf8Bytes string)
  | .bool truth => [TAG_BOOL, if truth then 1 else 0]

def u64 : ByteReader Error UInt64 := do
  pure (UInt64.ofNat (← format.readNumber 8))

/-- What follows the tag. -/
def decodePayload (tag : UInt8) : ByteReader Error Value :=
  if tag = TAG_NULL then pure .null
  else if tag = TAG_INT then do
    pure (.int (← format.u64).toInt64)
  else if tag = TAG_REAL then do
    pure (.real (← format.u64))
  else if tag = TAG_TEXT then do
    let length ← format.readNumber 4
    let string ← ByteReader.text format.short format.invalid length
    pure (.text string)
  else if tag = TAG_BOOL then do
    let byte ← ByteReader.byte format.short
    pure (.bool (byte ≠ 0))
  else ByteReader.fail (format.unknownTag tag)

def decodeValue : ByteReader Error Value := do
  let tag ← ByteReader.byte format.short
  format.decodePayload tag

end ValueFormat

/-- A text of less than four gibibytes. -/
def Value.Short : Value → Prop
  | .text string => (utf8Bytes string).length < 2 ^ 32
  | _ => True

namespace ValueFormat

variable {format : ValueFormat}

/-- The bytes that are read as the value: those it is written as, up to the byte of a `TRUE`. -/
def Spells (format : ValueFormat) (value : Value) (bytes : List UInt8) : Prop :=
  bytes = format.encodeValue value ∨
    ∃ byte, byte ≠ 0 ∧ value = .bool true ∧ bytes = [TAG_BOOL, byte]

theorem u64_reads (number : UInt64) :
    Reads format.u64 (format.number 8 number.toNat) number := by
  have read :
      Reads format.u64 (format.number 8 number.toNat) (UInt64.ofNat number.toNat) :=
    (format.reads 8 number.toNat number.toNat_lt).map
  rw [UInt64.ofNat_toNat] at read
  exact read

theorem u64_takes :
    Takes format.u64 fun number used => used = format.number 8 number.toNat := by
  refine ((format.takes 8).map UInt64.ofNat).mono ?_
  rintro number used ⟨value, rfl, rfl, bound⟩
  rw [UInt64.toNat_ofNat_of_lt' bound]

/-! ## Values -/

theorem Spells.reads
    {value : Value}
    {bytes : List UInt8}
    (short : value.Short)
    (spelled : format.Spells value bytes) :
    Reads format.decodeValue bytes value := by
  rcases spelled with rfl | ⟨byte, nonzero, rfl, rfl⟩
  · cases value with
    | null => exact (Reads.byte _ _).bind (Reads.pure _)
    | int number => exact (Reads.byte _ _).bind (u64_reads number.toUInt64).map
    | real bits => exact (Reads.byte _ _).bind (u64_reads bits).map
    | text string =>
        have length := format.reads 4 (utf8Bytes string).length short
        have whole := Reads.text format.short format.invalid (Eq.refl (utf8Bytes string).length)
        exact (Reads.byte _ _).bind (length.bind whole.map)
    | bool truth =>
        cases truth with
        | false => exact (Reads.byte _ _).bind (Reads.byte format.short 0).map
        | true => exact (Reads.byte _ _).bind (Reads.byte format.short 1).map
  · have read :
        Reads (do pure (Value.bool (decide ((← ByteReader.byte format.short) ≠ 0)))) [byte]
          (.bool (decide (byte ≠ 0))) :=
      (Reads.byte format.short byte).map
    rw [decide_eq_true nonzero] at read
    exact (Reads.byte _ _).bind read

theorem decodePayload_takes (tag : UInt8) :
    Takes (format.decodePayload tag) fun value used =>
      format.Spells value (tag :: used) ∧ value.Short := by
  unfold decodePayload
  by_cases null : tag = TAG_NULL
  · rw [if_pos null]
    refine (Takes.pure _).mono ?_
    rintro value used ⟨rfl, rfl⟩
    exact ⟨Or.inl (by rw [null]; rfl), trivial⟩
  by_cases int : tag = TAG_INT
  · rw [if_neg null, if_pos int]
    refine (u64_takes.map fun bits => Value.int bits.toInt64).mono ?_
    rintro value used ⟨bits, rfl, rfl⟩
    exact ⟨Or.inl (by rw [int]; rfl), trivial⟩
  by_cases real : tag = TAG_REAL
  · rw [if_neg null, if_neg int, if_pos real]
    refine (u64_takes.map Value.real).mono ?_
    rintro value used ⟨bits, rfl, rfl⟩
    exact ⟨Or.inl (by rw [real]; rfl), trivial⟩
  by_cases text : tag = TAG_TEXT
  · rw [if_neg null, if_neg int, if_neg real, if_pos text]
    refine ((format.takes 4).bind fun length =>
      (Takes.text format.short format.invalid length).map Value.text).mono ?_
    rintro value used ⟨length, first, second, rfl, ⟨rfl, bound⟩, string, rfl, rfl, rfl⟩
    exact ⟨Or.inl (by rw [text]; rfl), bound⟩
  by_cases bool : tag = TAG_BOOL
  · rw [if_neg null, if_neg int, if_neg real, if_neg text, if_pos bool]
    refine ((Takes.byte format.short).map fun byte => Value.bool (decide (byte ≠ 0))).mono ?_
    rintro value used ⟨byte, rfl, rfl⟩
    refine ⟨?_, trivial⟩
    by_cases zero : byte = 0
    · exact Or.inl (by rw [bool, zero]; rfl)
    · exact Or.inr ⟨byte, zero, by rw [decide_eq_true zero], by rw [bool]⟩
  · rw [if_neg null, if_neg int, if_neg real, if_neg text, if_neg bool]
    exact Takes.fail _

theorem decodeValue_takes :
    Takes format.decodeValue fun value used => format.Spells value used ∧ value.Short := by
  refine ((Takes.byte format.short).bind decodePayload_takes).mono ?_
  rintro value used ⟨tag, first, second, rfl, rfl, spelled⟩
  exact spelled

theorem spells_encodeValue (value : Value) : format.Spells value (format.encodeValue value) :=
  Or.inl rfl

theorem Spells.length
    {value : Value}
    {bytes : List UInt8}
    (spelled : format.Spells value bytes) :
    bytes.length = (format.encodeValue value).length := by
  rcases spelled with rfl | ⟨byte, _, rfl, rfl⟩ <;> rfl

theorem Spells.ne_nil
    {value : Value}
    {bytes : List UInt8}
    (spelled : format.Spells value bytes) :
    bytes ≠ [] := by
  rcases spelled with rfl | ⟨byte, _, _, rfl⟩
  · cases value <;> exact List.cons_ne_nil _ _
  · exact List.cons_ne_nil _ _

theorem Spells.append_inj
    {first second : Value}
    {bytes other later rest : List UInt8}
    (firstSpelled : format.Spells first bytes)
    (secondSpelled : format.Spells second other)
    (firstShort : first.Short)
    (secondShort : second.Short)
    (same : bytes ++ later = other ++ rest) :
    first = second ∧ later = rest := by
  have read := firstSpelled.reads firstShort later
  rw [same, secondSpelled.reads secondShort rest] at read
  obtain ⟨values, bytes⟩ := Prod.mk.inj (Except.ok.inj read)
  exact ⟨values.symm, bytes.symm⟩

/-! ## Lists of values -/

/-- The bytes are made up of parts that spell the values. -/
def SpellsAll (format : ValueFormat) (values : List Value) (bytes : List UInt8) : Prop :=
  ∃ parts, bytes = parts.flatten ∧ List.Forall₂ format.Spells values parts

theorem spellsAll_encode (values : List Value) :
    format.SpellsAll values (values.flatMap format.encodeValue) := by
  refine ⟨values.map format.encodeValue, List.flatMap_def .., ?_⟩
  rw [List.forall₂_map_right_iff]
  exact List.forall₂_same.mpr fun value _ => spells_encodeValue value

theorem SpellsAll.reads
    {values : List Value}
    {bytes : List UInt8}
    (short : ∀ value ∈ values, value.Short)
    (spelled : format.SpellsAll values bytes) :
    Reads (format.decodeValue.times values.length) bytes values := by
  obtain ⟨parts, rfl, each⟩ := spelled
  induction each with
  | nil => exact Reads.pure []
  | cons head _ inductionHypothesis =>
      have rest := inductionHypothesis fun value member =>
        short value (List.mem_cons_of_mem _ member)
      exact (head.reads (short _ List.mem_cons_self)).bind rest.map

theorem SpellsAll.length
    {values : List Value}
    {bytes : List UInt8}
    (spelled : format.SpellsAll values bytes) :
    bytes.length = (values.flatMap format.encodeValue).length := by
  obtain ⟨parts, rfl, each⟩ := spelled
  induction each with
  | nil => rfl
  | cons head _ inductionHypothesis =>
      rw [List.flatten_cons, List.flatMap_cons, List.length_append, List.length_append,
        head.length, inductionHypothesis]

theorem decodeValues_takes (count : Nat) :
    Takes (format.decodeValue.times count) fun values used =>
      values.length = count ∧ format.SpellsAll values used ∧ ∀ value ∈ values, value.Short := by
  refine (decodeValue_takes.times count).mono ?_
  rintro values used ⟨sized, parts, rfl, each⟩
  obtain ⟨short, spelled⟩ := (List.forall₂_and_left _ _).mp (each.imp fun _ _ both => both.symm)
  exact ⟨sized, ⟨parts, rfl, spelled⟩, short⟩

theorem SpellsAll.unique
    {first second : List Value}
    {bytes : List UInt8}
    (firstSpelled : format.SpellsAll first bytes)
    (secondSpelled : format.SpellsAll second bytes)
    (firstShort : ∀ value ∈ first, value.Short)
    (secondShort : ∀ value ∈ second, value.Short) :
    first = second := by
  obtain ⟨parts, rfl, each⟩ := firstSpelled
  obtain ⟨others, same, eachOther⟩ := secondSpelled
  induction each generalizing second others with
  | nil =>
      cases eachOther with
      | nil => rfl
      | cons head _ => exact absurd (List.append_eq_nil_iff.mp same.symm).1 head.ne_nil
  | cons head _ inductionHypothesis =>
      cases eachOther with
      | nil => exact absurd (List.append_eq_nil_iff.mp same).1 head.ne_nil
      | cons otherHead otherRest =>
          obtain ⟨rfl, rests⟩ := head.append_inj otherHead (firstShort _ List.mem_cons_self)
            (secondShort _ List.mem_cons_self) same
          have deeper := inductionHypothesis
            (fun value member => firstShort value (List.mem_cons_of_mem _ member))
            (fun value member => secondShort value (List.mem_cons_of_mem _ member))
            _ rests otherRest
          rw [deeper]

end ValueFormat

end PrehniteDB
