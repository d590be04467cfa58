import PrehniteDB.ValueBytes

namespace PrehniteDB.RowCodec

open ByteReader (Reads Takes littleEndian littleEndianNumber)

/-!
# Stored and spilled rows

A stored row is its two transaction ids and then its values; a spilled row is its
values alone.  The decoder is told the number of columns.
-/

/-- The codec's numbers are little-endian. -/
def valueFormat (invalid : String) : ValueFormat where
  number := littleEndian
  readNumber := littleEndianNumber (.corruption "unexpected end of encoded data")
  short := .corruption "unexpected end of encoded data"
  invalid := .corruption invalid
  unknownTag tag := .corruption ("unknown value tag " ++ toString tag)
  reads _ _ bound := Reads.littleEndian _ bound
  takes width := Takes.littleEndian _ width

def rowFormat : ValueFormat := valueFormat "row holds non-UTF-8 text"

def spillFormat : ValueFormat := valueFormat "spilled row holds non-UTF-8 text"

structure RowRecord where
  txMin : UInt64
  txMax : UInt64
  values : List Value
  deriving Repr, DecidableEq

def encodeRow (txMin txMax : UInt64) (values : List Value) : List UInt8 :=
  littleEndian 8 txMin.toNat ++ (littleEndian 8 txMax.toNat ++
    values.flatMap rowFormat.encodeValue)

def encodeValues (values : List Value) : List UInt8 :=
  values.flatMap spillFormat.encodeValue

/-- All bytes are to be taken. -/
def decodeWhole
    {Item : Type}
    (trailing : String)
    (reader : ByteReader Error Item)
    (bytes : List UInt8) : Except Error Item := do
  let (item, rest) ← reader bytes
  if rest.isEmpty then pure item else throw (.corruption trailing)

/-- What `decode_values` does once its vector is allocated, as it is for the columns of any table. -/
def decodeValuesWithin (bytes : List UInt8) (columnCount : Nat) : Except Error (List Value) :=
  decodeWhole "spilled row has trailing bytes after its columns"
    (spillFormat.decodeValue.times columnCount) bytes

/--
`Vec::with_capacity` panics for more values than memory can hold: at the latest for
those that take more than `isize::MAX` bytes.
-/
def decodeValues
    (capacity : Nat)
    (bytes : List UInt8)
    (columnCount : Nat) : Option (Except Error (List Value)) :=
  if columnCount ≤ capacity then some (decodeValuesWithin bytes columnCount) else none

def readHeader : ByteReader Error (UInt64 × UInt64) := do
  let txMin ← rowFormat.u64
  let txMax ← rowFormat.u64
  pure (txMin, txMax)

def readRow (columnCount : Nat) : ByteReader Error RowRecord := do
  let txMin ← rowFormat.u64
  let txMax ← rowFormat.u64
  let values ← rowFormat.decodeValue.times columnCount
  pure { txMin, txMax, values }

/-- What `decode_row` does once its vector is allocated. -/
def decodeRowWithin (bytes : List UInt8) (columnCount : Nat) : Except Error RowRecord :=
  decodeWhole "row has trailing bytes after its columns" (readRow columnCount) bytes

/-- The header is read before the vector is allocated. -/
def decodeRow
    (capacity : Nat)
    (bytes : List UInt8)
    (columnCount : Nat) : Option (Except Error RowRecord) :=
  if columnCount ≤ capacity then some (decodeRowWithin bytes columnCount)
  else
    match readHeader bytes with
    | .error error => some (.error error)
    | .ok _ => none

/-! ## Whole rows -/

section Whole

variable {Item : Type} {trailing : String} {reader : ByteReader Error Item}

theorem decodeWhole_reads
    {bytes : List UInt8}
    {item : Item}
    (reads : Reads reader bytes item) :
    decodeWhole trailing reader bytes = .ok item := by
  have ran := reads []
  rw [List.append_nil] at ran
  unfold decodeWhole
  rw [ran]
  rfl

theorem decodeWhole_takes
    {relation : Item → List UInt8 → Prop}
    {bytes : List UInt8}
    {item : Item}
    (takes : Takes reader relation)
    (decoded : decodeWhole trailing reader bytes = .ok item) :
    relation item bytes := by
  unfold decodeWhole at decoded
  cases ran : reader bytes with
  | error error => rw [ran] at decoded; cases decoded
  | ok answer =>
      obtain ⟨other, rest⟩ := answer
      obtain ⟨used, rfl, related⟩ := takes bytes other rest ran
      rw [ran] at decoded
      cases rest with
      | nil =>
          cases decoded
          rw [List.append_nil]
          exact related
      | cons byte rest => cases decoded

end Whole

/-- The bytes of a row, up to the bytes that stand for `TRUE`. -/
def SpellsRow (record : RowRecord) (bytes : List UInt8) : Prop :=
  ∃ rest,
    bytes = littleEndian 8 record.txMin.toNat ++ (littleEndian 8 record.txMax.toNat ++ rest) ∧
      rowFormat.SpellsAll record.values rest

theorem SpellsRow.reads
    {record : RowRecord}
    {bytes : List UInt8}
    (short : ∀ value ∈ record.values, value.Short)
    (spelled : SpellsRow record bytes) :
    Reads (readRow record.values.length) bytes record := by
  obtain ⟨rest, rfl, values⟩ := spelled
  exact (ValueFormat.u64_reads record.txMin).bind
    ((ValueFormat.u64_reads record.txMax).bind (values.reads short).map)

theorem readRow_takes (columnCount : Nat) :
    Takes (readRow columnCount) fun record used =>
      record.values.length = columnCount ∧ SpellsRow record used ∧
        ∀ value ∈ record.values, value.Short := by
  refine (ValueFormat.u64_takes.bind fun txMin => ValueFormat.u64_takes.bind fun txMax =>
    (ValueFormat.decodeValues_takes columnCount).map (RowRecord.mk txMin txMax)).mono ?_
  rintro record used
    ⟨txMin, _, _, rfl, rfl, txMax, _, rest, rfl, rfl, values, rfl, sized, spelled, short⟩
  exact ⟨sized, ⟨rest, rfl, spelled⟩, short⟩

theorem SpellsRow.unique
    {record : RowRecord}
    {txMin txMax : UInt64}
    {values : List Value}
    (short : ∀ value ∈ values, value.Short)
    (recordShort : ∀ value ∈ record.values, value.Short)
    (spelled : SpellsRow record (encodeRow txMin txMax values)) :
    record.values = values := by
  obtain ⟨rest, same, recordSpelled⟩ := spelled
  obtain ⟨_, afterMin⟩ := List.append_inj same (by simp)
  obtain ⟨_, rfl⟩ := List.append_inj afterMin (by simp)
  exact recordSpelled.unique (ValueFormat.spellsAll_encode values) recordShort short

/-- Where the values together are short, each text is. -/
theorem short_of_encoded
    {invalid : String}
    {values : List Value}
    (bound : (values.flatMap (valueFormat invalid).encodeValue).length < 2 ^ 32) :
    ∀ value ∈ values, value.Short := by
  intro value member
  cases value with
  | null | int | real | bool => trivial
  | text string =>
      obtain ⟨before, after, rfl⟩ := List.append_of_mem member
      simp only [List.flatMap_append, List.flatMap_cons, List.length_append,
        ValueFormat.encodeValue, List.length_cons] at bound
      change (ByteReader.utf8Bytes string).length < 2 ^ 32
      omega

theorem decodeRowWithin_encode
    (txMin txMax : UInt64)
    {values : List Value}
    (short : ∀ value ∈ values, value.Short) :
    decodeRowWithin (encodeRow txMin txMax values) values.length =
      .ok ⟨txMin, txMax, values⟩ := by
  have spelled : SpellsRow ⟨txMin, txMax, values⟩ (encodeRow txMin txMax values) :=
    ⟨_, rfl, ValueFormat.spellsAll_encode values⟩
  exact decodeWhole_reads (spelled.reads short)

theorem decodeValuesWithin_encode
    {values : List Value}
    (short : ∀ value ∈ values, value.Short) :
    decodeValuesWithin (encodeValues values) values.length = .ok values :=
  decodeWhole_reads ((ValueFormat.spellsAll_encode values).reads short)

/-- No row is read with a count of columns that is not its own. -/
theorem decodeRowWithin_other
    (txMin txMax : UInt64)
    {values : List Value}
    {columnCount : Nat}
    (short : ∀ value ∈ values, value.Short)
    (other : columnCount ≠ values.length) :
    ∃ error, decodeRowWithin (encodeRow txMin txMax values) columnCount = .error error := by
  cases decoded : decodeRowWithin (encodeRow txMin txMax values) columnCount with
  | error error => exact ⟨error, rfl⟩
  | ok record =>
      obtain ⟨sized, spelled, recordShort⟩ :=
        decodeWhole_takes (readRow_takes columnCount) decoded
      rw [spelled.unique short recordShort] at sized
      exact absurd sized.symm other

theorem decodeValuesWithin_other
    {values : List Value}
    {columnCount : Nat}
    (short : ∀ value ∈ values, value.Short)
    (other : columnCount ≠ values.length) :
    ∃ error, decodeValuesWithin (encodeValues values) columnCount = .error error := by
  cases decoded : decodeValuesWithin (encodeValues values) columnCount with
  | error error => exact ⟨error, rfl⟩
  | ok found =>
      obtain ⟨sized, spelled, foundShort⟩ :=
        decodeWhole_takes (ValueFormat.decodeValues_takes columnCount) decoded
      rw [spelled.unique (ValueFormat.spellsAll_encode values) foundShort short] at sized
      exact absurd sized.symm other

theorem readHeader_encode (txMin txMax : UInt64) (values : List Value) :
    readHeader (encodeRow txMin txMax values) =
      .ok ((txMin, txMax), values.flatMap rowFormat.encodeValue) := by
  have read :
      Reads readHeader (littleEndian 8 txMin.toNat ++ littleEndian 8 txMax.toNat)
        (txMin, txMax) :=
    (ValueFormat.u64_reads txMin).bind (ValueFormat.u64_reads txMax).map
  rw [encodeRow, ← List.append_assoc]
  exact read _

/--
Decoding inverts encoding for the right number of columns, fails for any other that
can be allocated, and panics for the rest; and a decoded row was read from its own
encoding, except that a `TRUE` may have been another byte than 1.
-/
theorem row_codec_exact (capacity : Nat) :
    (∀ (txMin txMax : UInt64) (values : List Value) (columnCount : Nat),
      (∀ value ∈ values, value.Short) →
        (columnCount ≤ capacity →
          (columnCount = values.length →
            decodeRow capacity (encodeRow txMin txMax values) columnCount =
                some (.ok ⟨txMin, txMax, values⟩) ∧
              decodeValues capacity (encodeValues values) columnCount = some (.ok values)) ∧
          (columnCount ≠ values.length →
            (∃ error,
              decodeRow capacity (encodeRow txMin txMax values) columnCount =
                some (.error error)) ∧
              ∃ error,
                decodeValues capacity (encodeValues values) columnCount =
                  some (.error error))) ∧
        (capacity < columnCount →
          decodeRow capacity (encodeRow txMin txMax values) columnCount = none ∧
            decodeValues capacity (encodeValues values) columnCount = none)) ∧
    (∀ (bytes : List UInt8) (columnCount : Nat) (record : RowRecord),
      decodeRow capacity bytes columnCount = some (.ok record) → SpellsRow record bytes) ∧
    ∀ (bytes : List UInt8) (columnCount : Nat) (values : List Value),
      decodeValues capacity bytes columnCount = some (.ok values) →
        spillFormat.SpellsAll values bytes := by
  refine ⟨fun txMin txMax values columnCount short => ⟨fun served => ⟨?_, fun other => ?_⟩,
    fun beyond => ?_⟩, fun bytes columnCount record decoded => ?_,
    fun bytes columnCount values decoded => ?_⟩
  · rintro rfl
    rw [decodeRow, decodeValues, if_pos served, if_pos served,
      decodeRowWithin_encode txMin txMax short, decodeValuesWithin_encode short]
    exact ⟨rfl, rfl⟩
  · obtain ⟨rowError, row⟩ := decodeRowWithin_other txMin txMax short other
    obtain ⟨valuesError, spilled⟩ := decodeValuesWithin_other short other
    rw [decodeRow, decodeValues, if_pos served, if_pos served, row, spilled]
    exact ⟨⟨rowError, rfl⟩, valuesError, rfl⟩
  · rw [decodeRow, decodeValues, if_neg (Nat.not_le.mpr beyond),
      if_neg (Nat.not_le.mpr beyond), readHeader_encode]
    exact ⟨rfl, rfl⟩
  · unfold decodeRow at decoded
    split at decoded
    · exact (decodeWhole_takes (readRow_takes columnCount) (Option.some.inj decoded)).2.1
    · split at decoded <;> cases decoded
  · unfold decodeValues at decoded
    split at decoded
    · exact (decodeWhole_takes (ValueFormat.decodeValues_takes columnCount)
        (Option.some.inj decoded)).2.1
    · cases decoded

/-- Two values are read as two columns and not as one. -/
theorem row_codec_pair :
    decodeRow 4 (encodeRow 7 12 [.int (-7), .bool true]) 2 =
        some (.ok ⟨7, 12, [.int (-7), .bool true]⟩) ∧
      ∃ error,
        decodeRow 4 (encodeRow 7 12 [.int (-7), .bool true]) 1 = some (.error error) :=
  have short : ∀ value ∈ [Value.int (-7), .bool true], value.Short := by simp [Value.Short]
  have pair (columnCount : Nat) :=
    (row_codec_exact 4).1 7 12 [.int (-7), .bool true] columnCount short
  ⟨(((pair 2).1 (by decide)).1 rfl).1, (((pair 1).1 (by decide)).2 (by decide)).1⟩

/-- Not every wrong count is an error: a vector of 2^59 values of 24 bytes cannot be asked for. -/
theorem row_codec_panics :
    ¬ ∀ (values : List Value) (columnCount : Nat),
      columnCount ≠ values.length →
        ∃ error,
          decodeRow ((2 ^ 63 - 1) / 24) (encodeRow 1 0 values) columnCount =
            some (.error error) := by
  intro claim
  obtain ⟨error, answered⟩ := claim [] (2 ^ 59) (by decide)
  rw [decodeRow, if_neg (by decide), readHeader_encode] at answered
  cases answered

end PrehniteDB.RowCodec
