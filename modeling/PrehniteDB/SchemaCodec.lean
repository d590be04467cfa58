import PrehniteDB.ReadStatements
import PrehniteDB.RowCodec

namespace PrehniteDB.SchemaCodec

open ByteReader (Reads Takes Yields littleEndian littleEndianNumber utf8Bytes)
open ReadPaths (ColumnType ForeignKeyAction ForeignKeyTarget)
open RowCodec (decodeValuesWithin encodeValues rowFormat spillFormat)

/-!
# Schemas in the catalog

The record of a table: its columns with their statistics, its indexes and its
counters.  Lengths and positions are cast to the sixteen or thirty-two bits of
their fields.
-/

/-- One bucket of an equi-depth histogram. -/
structure HistogramBucket where
  lower : Value
  upper : Value
  count : UInt64
  deriving Repr, DecidableEq

/-- What `ANALYZE` has found in a column. -/
structure ColumnStats where
  nDistinct : UInt64
  nullCount : UInt64
  totalRows : UInt64
  histogram : List HistogramBucket
  deriving Repr, DecidableEq

/-- A column as the catalog stores it. -/
structure Column where
  name : String
  type : ColumnType
  notNull : Bool
  foreignKey : Option ForeignKeyTarget
  stats : Option ColumnStats
  deriving Repr, DecidableEq

/-- An index as the catalog stores it. -/
structure Index where
  name : String
  columns : List Nat
  root : UInt32
  unique : Bool
  isBuilding : Bool
  deriving Repr, DecidableEq

/-- The catalog record of one table. -/
structure Schema where
  name : String
  columns : List Column
  root : UInt32
  nextRowid : UInt64
  rowCount : UInt64
  indexes : List Index
  primaryKeyColumn : Option Nat
  mutationsSinceAnalyze : UInt64
  deriving Repr, DecidableEq

/-! ## Encoding -/

/-- The byte of a column type. -/
def typeTag : ColumnType → UInt8
  | .int => 1
  | .real => 2
  | .text => 3
  | .bool => 4

def fkActionTag : ForeignKeyAction → UInt8
  | .restrict => 1
  | .cascade => 2
  | .setNull => 3

/-- A length of two bytes, then the text. -/
def writeStr (string : String) : List UInt8 :=
  littleEndian 2 (utf8Bytes string).length ++ utf8Bytes string

def flag (set : Bool) : List UInt8 := [if set then 1 else 0]

/-- A presence byte, then the target. -/
def encodeForeignKey : Option ForeignKeyTarget → List UInt8
  | none => [0]
  | some target =>
      [1] ++ (writeStr target.table ++ (writeStr target.column ++ [fkActionTag target.onDelete]))

/-- A bound of a bucket behind the length of its encoding. -/
def encodeBound (value : Value) : List UInt8 :=
  littleEndian 4 (encodeValues [value]).length ++ encodeValues [value]

def encodeBucket (bucket : HistogramBucket) : List UInt8 :=
  encodeBound bucket.lower ++ (encodeBound bucket.upper ++ littleEndian 8 bucket.count.toNat)

/-- A presence byte, then the counts and the histogram. -/
def encodeStats : Option ColumnStats → List UInt8
  | none => [0]
  | some stats =>
      [1] ++ (littleEndian 8 stats.nDistinct.toNat ++ (littleEndian 8 stats.nullCount.toNat ++
        (littleEndian 8 stats.totalRows.toNat ++ (littleEndian 4 stats.histogram.length ++
          stats.histogram.flatMap encodeBucket))))

def encodeColumn (column : Column) : List UInt8 :=
  [typeTag column.type] ++ (writeStr column.name ++ (flag column.notNull ++
    (encodeForeignKey column.foreignKey ++ encodeStats column.stats)))

def encodeIndex (index : Index) : List UInt8 :=
  littleEndian 4 index.root.toNat ++ (littleEndian 2 index.columns.length ++
    (index.columns.flatMap (littleEndian 2) ++ (writeStr index.name ++
      (flag index.unique ++ flag index.isBuilding))))

/-- `u16::MAX` stands for the lack of a primary key. -/
def encodePrimaryKey (primaryKeyColumn : Option Nat) : List UInt8 :=
  littleEndian 2 (primaryKeyColumn.getD 65535)

/-- The whole record. -/
def encodeSchema (schema : Schema) : List UInt8 :=
  littleEndian 4 schema.root.toNat ++ (littleEndian 8 schema.nextRowid.toNat ++
    (writeStr schema.name ++ (littleEndian 2 schema.columns.length ++
      (schema.columns.flatMap encodeColumn ++ (littleEndian 2 schema.indexes.length ++
        (schema.indexes.flatMap encodeIndex ++ (littleEndian 8 schema.rowCount.toNat ++
          (encodePrimaryKey schema.primaryKeyColumn ++
            littleEndian 8 schema.mutationsSinceAnalyze.toNat))))))))

/-! ## Decoding -/

/-- What a read past the end answers. -/
def short : Error := .corruption "unexpected end of encoded data"

def u8 : ByteReader Error UInt8 := ByteReader.byte short

def u16 : ByteReader Error Nat := littleEndianNumber short 2

def u32 : ByteReader Error Nat := littleEndianNumber short 4

def u64 : ByteReader Error UInt64 := rowFormat.u64

def typeFromTag (tag : UInt8) : ByteReader Error ColumnType :=
  if tag = 1 then pure .int
  else if tag = 2 then pure .real
  else if tag = 3 then pure .text
  else if tag = 4 then pure .bool
  else ByteReader.fail (.corruption ("unknown type tag " ++ toString tag))

def fkActionFromTag (tag : UInt8) : ByteReader Error ForeignKeyAction :=
  if tag = 1 then pure .restrict
  else if tag = 2 then pure .cascade
  else if tag = 3 then pure .setNull
  else ByteReader.fail (.corruption ("unknown FK action tag " ++ toString tag))

/-- A text, its length first. -/
def readStr : ByteReader Error String := do
  let length ← u16
  ByteReader.text short (.corruption "schema holds non-UTF-8 text") length

def readFlag : ByteReader Error Bool := do
  pure ((← u8) != 0)

def readTarget : ByteReader Error ForeignKeyTarget := do
  let table ← readStr
  let column ← readStr
  let onDelete ← fkActionFromTag (← u8)
  pure { table, column, onDelete }

def readForeignKey : ByteReader Error (Option ForeignKeyTarget) := do
  let tag ← u8
  if tag = 0 then pure none
  else if tag = 1 then do
    pure (some (← readTarget))
  else
    ByteReader.fail (.corruption ("unknown column foreign-key tag " ++ toString tag))

/-- The bytes hold the one value, and nothing else. -/
def readBound : ByteReader Error Value := do
  let length ← u32
  let bytes ← ByteReader.take short length
  let values ← ByteReader.lift (decodeValuesWithin bytes 1)
  pure (values.headD .null)

def readBucket : ByteReader Error HistogramBucket := do
  let lower ← readBound
  let upper ← readBound
  let count ← u64
  pure { lower, upper, count }

def readColumnStats : ByteReader Error ColumnStats := do
  let nDistinct ← u64
  let nullCount ← u64
  let totalRows ← u64
  let bucketCount ← u32
  let histogram ← readBucket.times bucketCount
  pure { nDistinct, nullCount, totalRows, histogram }

def readStats : ByteReader Error (Option ColumnStats) := do
  let tag ← u8
  if tag = 0 then pure none
  else if tag = 1 then do
    pure (some (← readColumnStats))
  else
    ByteReader.fail (.corruption ("unknown column stats tag " ++ toString tag))

def readColumn : ByteReader Error Column := do
  let type ← typeFromTag (← u8)
  let name ← readStr
  let notNull ← readFlag
  let foreignKey ← readForeignKey
  let stats ← readStats
  pure { name, type, notNull, foreignKey, stats }

def readIndex : ByteReader Error Index := do
  let root ← u32
  let columnCount ← u16
  let columns ← u16.times columnCount
  let name ← readStr
  let unique ← readFlag
  let isBuilding ← readFlag
  pure { name, columns, root := UInt32.ofNat root, unique, isBuilding }

def readPrimaryKey : ByteReader Error (Option Nat) := do
  let tag ← u16
  pure (if tag = 65535 then none else some tag)

/-- The record read back, field by field. -/
def readSchema : ByteReader Error Schema := do
  let root ← u32
  let nextRowid ← u64
  let name ← readStr
  let columnCount ← u16
  let columns ← readColumn.times columnCount
  let indexCount ← u16
  let indexes ← readIndex.times indexCount
  let rowCount ← u64
  let primaryKeyColumn ← readPrimaryKey
  let mutationsSinceAnalyze ← u64
  pure {
    name, columns, root := UInt32.ofNat root, nextRowid, rowCount, indexes, primaryKeyColumn,
    mutationsSinceAnalyze }

/-- What follows the record is not looked at. -/
def decodeSchema (bytes : List UInt8) : Except Error Schema :=
  (readSchema bytes).map Prod.fst

/-! ## Lengths that fit their fields -/

/-- The length of the text fits its two bytes. -/
def Named (string : String) : Prop := (utf8Bytes string).length < 2 ^ 16

instance (string : String) : Decidable (Named string) := inferInstanceAs (Decidable (_ < _))

def ForeignKeyTarget.Fits (target : ForeignKeyTarget) : Prop :=
  Named target.table ∧ Named target.column

/-- With its tag and its length a text has less than four gibibytes. -/
def Bounds (value : Value) : Prop := (encodeValues [value]).length < 2 ^ 32

def HistogramBucket.Fits (bucket : HistogramBucket) : Prop :=
  Bounds bucket.lower ∧ Bounds bucket.upper

structure ColumnStats.Fits (stats : ColumnStats) : Prop where
  buckets : stats.histogram.length < 2 ^ 32
  bounds : ∀ bucket ∈ stats.histogram, bucket.Fits

structure Column.Fits (column : Column) : Prop where
  name : Named column.name
  foreignKey : ∀ target, column.foreignKey = some target → ForeignKeyTarget.Fits target
  stats : ∀ stats, column.stats = some stats → stats.Fits

structure Index.Fits (index : Index) : Prop where
  name : Named index.name
  columns : index.columns.length < 2 ^ 16
  positions : ∀ position ∈ index.columns, position < 2 ^ 16

/-- Every field of the record is wide enough for its value. -/
structure Schema.Fits (schema : Schema) : Prop where
  name : Named schema.name
  columnCount : schema.columns.length < 2 ^ 16
  columns : ∀ column ∈ schema.columns, column.Fits
  indexCount : schema.indexes.length < 2 ^ 16
  indexes : ∀ index ∈ schema.indexes, index.Fits
  primaryKeyColumn : ∀ position, schema.primaryKeyColumn = some position → position < 65535

/-! ## A schema that fits is read back -/

theorem u32_reads (number : UInt32) : Reads u32 (littleEndian 4 number.toNat) number.toNat :=
  Reads.littleEndian _ number.toNat_lt

theorem u64_reads (number : UInt64) : Reads u64 (littleEndian 8 number.toNat) number :=
  ValueFormat.u64_reads number

theorem readStr_reads {string : String} (named : Named string) :
    Reads readStr (writeStr string) string :=
  (Reads.littleEndian short named).bind (Reads.text _ _ rfl)

theorem typeFromTag_reads (type : ColumnType) :
    Reads (typeFromTag (typeTag type)) [] type := by
  cases type <;> exact Reads.pure _

theorem fkActionFromTag_reads (action : ForeignKeyAction) :
    Reads (fkActionFromTag (fkActionTag action)) [] action := by
  cases action <;> exact Reads.pure _

theorem readFlag_reads (set : Bool) : Reads readFlag (flag set) set := by
  cases set with
  | false => exact (Reads.byte short 0).map
  | true => exact (Reads.byte short 1).map

theorem readForeignKey_reads
    {foreignKey : Option ForeignKeyTarget}
    (fits : ∀ target, foreignKey = some target → ForeignKeyTarget.Fits target) :
    Reads readForeignKey (encodeForeignKey foreignKey) foreignKey := by
  cases foreignKey with
  | none => exact (Reads.byte short 0).bind (Reads.pure none)
  | some target =>
      obtain ⟨table, column⟩ := fits target rfl
      have whole : Reads readTarget _ target :=
        (readStr_reads table).bind ((readStr_reads column).bind
          ((Reads.byte short (fkActionTag target.onDelete)).bind
            (fkActionFromTag_reads target.onDelete).map))
      exact (Reads.byte short 1).bind whole.map

theorem Bounds.short {value : Value} (bounds : Bounds value) : value.Short := by
  cases value with
  | text string =>
      have length : (encodeValues [.text string]).length = 5 + (utf8Bytes string).length := by
        simp [encodeValues, spillFormat, RowCodec.valueFormat, ValueFormat.encodeValue]
        omega
      rw [Bounds, length] at bounds
      exact Nat.lt_of_le_of_lt (Nat.le_add_left _ 5) bounds
  | null => trivial
  | int number => trivial
  | real bits => trivial
  | bool truth => trivial

theorem readBound_reads {value : Value} (bounds : Bounds value) :
    Reads readBound (encodeBound value) value := by
  have only : ∀ other ∈ [value], other.Short := by
    simpa using bounds.short
  have decoded : decodeValuesWithin (encodeValues [value]) 1 = .ok [value] :=
    RowCodec.decodeWhole_reads ((ValueFormat.spellsAll_encode [value]).reads only)
  have read :
      Reads readBound
        (littleEndian 4 (encodeValues [value]).length ++ (encodeValues [value] ++ [])) value :=
    (Reads.littleEndian short bounds).bind
      ((Reads.take short rfl).bind (Reads.lift decoded).map)
  rw [List.append_nil] at read
  exact read

theorem readBucket_reads {bucket : HistogramBucket} (fits : bucket.Fits) :
    Reads readBucket (encodeBucket bucket) bucket :=
  (readBound_reads fits.1).bind ((readBound_reads fits.2).bind (u64_reads bucket.count).map)

theorem readStats_reads
    {stats : Option ColumnStats}
    (fits : ∀ found, stats = some found → found.Fits) :
    Reads readStats (encodeStats stats) stats := by
  cases stats with
  | none => exact (Reads.byte short 0).bind (Reads.pure none)
  | some stats =>
      obtain ⟨buckets, bounds⟩ := fits stats rfl
      have histogram := Reads.times fun bucket member => readBucket_reads (bounds bucket member)
      have whole : Reads readColumnStats _ stats :=
        (u64_reads stats.nDistinct).bind ((u64_reads stats.nullCount).bind
          ((u64_reads stats.totalRows).bind
            ((Reads.littleEndian short buckets).bind histogram.map)))
      exact (Reads.byte short 1).bind whole.map

theorem readColumn_reads {column : Column} (fits : column.Fits) :
    Reads readColumn (encodeColumn column) column :=
  (Reads.byte short (typeTag column.type)).bind
    ((typeFromTag_reads column.type).bind
      ((readStr_reads fits.name).bind
        ((readFlag_reads column.notNull).bind
          ((readForeignKey_reads fits.foreignKey).bind (readStats_reads fits.stats).map))))

theorem readIndex_reads {index : Index} (fits : index.Fits) :
    Reads readIndex (encodeIndex index) index := by
  have positions : Reads (u16.times index.columns.length) _ index.columns :=
    Reads.times fun position member => Reads.littleEndian short (fits.positions position member)
  have read :
      Reads readIndex (encodeIndex index) { index with root := UInt32.ofNat index.root.toNat } :=
    (u32_reads index.root).bind
      ((Reads.littleEndian short fits.columns).bind
        (positions.bind
          ((readStr_reads fits.name).bind
            ((readFlag_reads index.unique).bind (readFlag_reads index.isBuilding).map))))
  rw [UInt32.ofNat_toNat] at read
  exact read

theorem readPrimaryKey_reads
    {primaryKeyColumn : Option Nat}
    (fits : ∀ position, primaryKeyColumn = some position → position < 65535) :
    Reads readPrimaryKey (encodePrimaryKey primaryKeyColumn) primaryKeyColumn := by
  cases primaryKeyColumn with
  | none => exact (Reads.littleEndian short (by decide)).map
  | some position =>
      have below := fits position rfl
      have read :
          Reads readPrimaryKey (encodePrimaryKey (some position))
            (if position = 65535 then none else some position) :=
        (Reads.littleEndian short (Nat.lt_of_lt_of_le below (by decide))).map
      rw [if_neg (Nat.ne_of_lt below)] at read
      exact read

theorem decode_of_fits {schema : Schema} (fits : schema.Fits) :
    decodeSchema (encodeSchema schema) = .ok schema := by
  have columns := Reads.times fun column member => readColumn_reads (fits.columns column member)
  have indexes := Reads.times fun index member => readIndex_reads (fits.indexes index member)
  have read :
      Reads readSchema (encodeSchema schema)
        { schema with root := UInt32.ofNat schema.root.toNat } :=
    (u32_reads schema.root).bind
      ((u64_reads schema.nextRowid).bind
        ((readStr_reads fits.name).bind
          ((Reads.littleEndian short fits.columnCount).bind
            (columns.bind
              ((Reads.littleEndian short fits.indexCount).bind
                (indexes.bind
                  ((u64_reads schema.rowCount).bind
                    ((readPrimaryKey_reads fits.primaryKeyColumn).bind
                      (u64_reads schema.mutationsSinceAnalyze).map))))))))
  rw [UInt32.ofNat_toNat] at read
  have ran := read []
  rw [List.append_nil] at ran
  rw [decodeSchema, ran]
  rfl

/-! ## Whatever is read fits -/

theorem number_yields (width : Nat) :
    Yields (littleEndianNumber short width) fun number => number < 256 ^ width :=
  (Takes.littleEndian short width).yields fun _ _ both => both.2

theorem readStr_yields : Yields readStr Named := by
  refine (number_yields 2).bind fun length bound => ?_
  refine (Takes.text _ _ length).yields ?_
  rintro string used ⟨rfl, sized⟩
  rw [Named, sized]
  exact bound

theorem readTarget_yields : Yields readTarget ForeignKeyTarget.Fits :=
  readStr_yields.bind fun _ table =>
    readStr_yields.bind fun _ column =>
      (Yields.any u8).bind fun tag _ =>
        (Yields.any (fkActionFromTag tag)).bind fun _ _ =>
          Yields.pure ⟨table, column⟩

theorem readForeignKey_yields :
    Yields readForeignKey fun foreignKey =>
      ∀ target, foreignKey = some target → ForeignKeyTarget.Fits target := by
  refine (Yields.any u8).bind fun tag _ => ?_
  split
  · exact Yields.pure (by nofun)
  · split
    · refine readTarget_yields.bind fun target fits => Yields.pure ?_
      rintro other ⟨rfl⟩
      exact fits
    · exact nofun

theorem bounds_of_decode
    {bytes : List UInt8}
    {values : List Value}
    (below : bytes.length < 2 ^ 32)
    (decoded : decodeValuesWithin bytes 1 = .ok values) :
    Bounds (values.headD .null) := by
  obtain ⟨sized, ⟨parts, rfl, each⟩, _⟩ :=
    RowCodec.decodeWhole_takes (ValueFormat.decodeValues_takes 1) decoded
  cases each with
  | nil => cases sized
  | @cons value part rest others spelled tail =>
      cases tail with
      | cons _ _ => cases sized
      | nil =>
          have length : (encodeValues [value]).length = part.length := by
            rw [spelled.length, encodeValues, List.flatMap_singleton]
          rw [Bounds, List.headD_cons, length]
          simpa using below

theorem readBound_yields : Yields readBound Bounds := by
  refine (number_yields 4).bind fun length bound => ?_
  have taken : Yields (ByteReader.take short length) fun bytes => bytes.length = length :=
    (Takes.take short length).yields fun _ _ both => both.1 ▸ both.2
  refine taken.bind fun bytes sized => ?_
  have answered : Yields (ByteReader.lift (decodeValuesWithin bytes 1)) fun values =>
      decodeValuesWithin bytes 1 = .ok values :=
    (Takes.lift _).yields fun _ _ both => both.2
  exact answered.bind fun values decoded =>
    Yields.pure (bounds_of_decode (sized ▸ bound) decoded)

theorem readBucket_yields : Yields readBucket HistogramBucket.Fits :=
  readBound_yields.bind fun _ lower =>
    readBound_yields.bind fun _ upper =>
      (Yields.any u64).bind fun _ _ =>
        Yields.pure ⟨lower, upper⟩

theorem readColumnStats_yields : Yields readColumnStats ColumnStats.Fits :=
  (Yields.any u64).bind fun _ _ =>
    (Yields.any u64).bind fun _ _ =>
      (Yields.any u64).bind fun _ _ =>
        (number_yields 4).bind fun count bound =>
          (readBucket_yields.times count).bind fun _ both =>
            Yields.pure ⟨both.1 ▸ bound, both.2⟩

theorem readStats_yields :
    Yields readStats fun stats => ∀ found, stats = some found → found.Fits := by
  refine (Yields.any u8).bind fun tag _ => ?_
  split
  · exact Yields.pure (by nofun)
  · split
    · refine readColumnStats_yields.bind fun stats fits => Yields.pure ?_
      rintro other ⟨rfl⟩
      exact fits
    · exact nofun

theorem readColumn_yields : Yields readColumn Column.Fits :=
  (Yields.any u8).bind fun tag _ =>
    (Yields.any (typeFromTag tag)).bind fun _ _ =>
      readStr_yields.bind fun _ name =>
        (Yields.any readFlag).bind fun _ _ =>
          readForeignKey_yields.bind fun _ foreignKey =>
            readStats_yields.bind fun _ stats =>
              Yields.pure ⟨name, foreignKey, stats⟩

theorem readIndex_yields : Yields readIndex Index.Fits :=
  (Yields.any u32).bind fun _ _ =>
    (number_yields 2).bind fun count bound =>
      ((number_yields 2).times count).bind fun _ positions =>
        readStr_yields.bind fun _ name =>
          (Yields.any readFlag).bind fun _ _ =>
            (Yields.any readFlag).bind fun _ _ =>
              Yields.pure ⟨name, positions.1 ▸ bound, positions.2⟩

theorem readPrimaryKey_yields :
    Yields readPrimaryKey fun primaryKeyColumn =>
      ∀ position, primaryKeyColumn = some position → position < 65535 := by
  refine (number_yields 2).bind fun tag bound => Yields.pure ?_
  intro position named
  split at named
  case isTrue => cases named
  case isFalse other =>
    cases named
    exact Nat.lt_of_le_of_ne (Nat.le_of_lt_succ bound) other

theorem readSchema_yields : Yields readSchema Schema.Fits :=
  (Yields.any u32).bind fun _ _ =>
    (Yields.any u64).bind fun _ _ =>
      readStr_yields.bind fun _ name =>
        (number_yields 2).bind fun columnCount columnBound =>
          (readColumn_yields.times columnCount).bind fun _ columns =>
            (number_yields 2).bind fun indexCount indexBound =>
              (readIndex_yields.times indexCount).bind fun _ indexes =>
                (Yields.any u64).bind fun _ _ =>
                  readPrimaryKey_yields.bind fun _ primaryKeyColumn =>
                    (Yields.any u64).bind fun _ _ =>
                      Yields.pure ⟨name, columns.1 ▸ columnBound, columns.2,
                        indexes.1 ▸ indexBound, indexes.2, primaryKeyColumn⟩

theorem fits_of_decode
    {schema : Schema}
    {bytes : List UInt8}
    (decoded : decodeSchema bytes = .ok schema) :
    schema.Fits := by
  rw [decodeSchema] at decoded
  cases ran : readSchema bytes with
  | error error => rw [ran] at decoded; cases decoded
  | ok answer =>
      rw [ran] at decoded
      cases decoded
      exact readSchema_yields bytes answer.1 answer.2 ran

/-- A schema is read back from its record exactly when all of it fits. -/
theorem decode_encode_iff (schema : Schema) :
    decodeSchema (encodeSchema schema) = .ok schema ↔ schema.Fits :=
  ⟨fits_of_decode, decode_of_fits⟩

end PrehniteDB.SchemaCodec
