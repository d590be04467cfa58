import PrehniteDB.LittleEndian
import PrehniteDB.ReadPaths

namespace PrehniteDB

/-!
# Values and their index keys

The values a column holds and the bytes an index keeps for them.  A `REAL` is
its IEEE-754 bit pattern; only its equality is needed here.
-/

/-- The comparison `==` of two `f64`s, on their bits. -/
def realEqual (left right : UInt64) : Bool :=
  let magnitude : UInt64 → UInt64 := fun bits => bits &&& 0x7FFFFFFFFFFFFFFF
  let isNaN : UInt64 → Bool := fun bits => 0x7FF0000000000000 < magnitude bits
  !isNaN left && !isNaN right &&
    (left = right || (magnitude left = 0 && magnitude right = 0))

inductive Value where
  | null
  | int (number : Int64)
  | real (bits : UInt64)
  | text (string : String)
  | bool (truth : Bool)
  deriving Repr, DecidableEq

/-- Found by name, so that the byte strings of keys compare lawfully everywhere alike. -/
instance bytesLawful : LawfulBEq (List UInt8) := inferInstance

namespace Value

def isNull (value : Value) : Bool := value = .null

def typeName : Value → String
  | .null => "NULL"
  | .int _ => "INT"
  | .real _ => "REAL"
  | .text _ => "TEXT"
  | .bool _ => "BOOL"

/-- The derived `==`: a NaN differs from itself, and the two zeros are equal. -/
def equal : Value → Value → Bool
  | .null, .null => true
  | .int left, .int right => left = right
  | .real left, .real right => realEqual left right
  | .text left, .text right => left = right
  | .bool left, .bool right => left = right
  | _, _ => false

end Value

/-! ## The encoding -/

/-- The eight bytes of `to_be_bytes`. -/
def bigEndian (number : UInt64) : List UInt8 :=
  (List.range 8).map fun position =>
    LittleEndian.byte number.toNat (7 - position)

/-- The order-preserving map of the bits of a `REAL`. -/
def orderedBits (bits : UInt64) : UInt64 :=
  if bits &&& 0x8000000000000000 ≠ 0 then ~~~bits
  else bits ||| 0x8000000000000000

/-- Interior zero bytes are escaped and two zero bytes end the text. -/
def escapeText : List UInt8 → List UInt8
  | [] => [0x00, 0x00]
  | byte :: rest =>
      if byte = 0x00 then 0x00 :: 0x01 :: escapeText rest
      else byte :: escapeText rest

def encodeIndexValue : Value → List UInt8
  | .null => [0x00]
  | .bool truth => [0x01, if truth then 1 else 0]
  | .int number => 0x02 :: bigEndian (number.toUInt64 ^^^ 0x8000000000000000)
  | .real bits => 0x03 :: bigEndian (orderedBits bits)
  | .text string => 0x04 :: escapeText string.toUTF8.data.toList

def rowidKey (rowid : Nat) : List UInt8 :=
  bigEndian (UInt64.ofNat rowid)

/-- The value at a column position. -/
def column (values : List Value) (position : Nat) : Value :=
  values.getD position .null

/-- `encode_index_value_prefix`. -/
def encodeIndexValuePrefix (values : List Value) (columns : List Nat) : List UInt8 :=
  columns.flatMap fun position => encodeIndexValue (column values position)

/--
Whether the duplicate check of an index looks at its keys: the index is unique, no value
is `NULL`, and some value is not the one replaced.
-/
def needsProbe
    (unique : Bool)
    (columns : List Nat)
    (values : List Value)
    (oldValues : Option (List Value)) : Bool :=
  let anyNull := columns.any fun position => (column values position).isNull
  let unchanged := oldValues.any fun old =>
    columns.all fun position => (column values position).equal (column old position)
  unique && !anyNull && !unchanged

theorem unique_of_needsProbe
    {unique : Bool}
    {columns : List Nat}
    {values : List Value}
    {oldValues : Option (List Value)}
    (needed : needsProbe unique columns values oldValues = true) :
    unique = true :=
  (Bool.and_eq_true_iff.mp (Bool.and_eq_true_iff.mp needed).1).1

/-- Whether a child holds a parent's value, by the keys of its index or by its rows. -/
def childHasValue
    (indexed : Option (List (List UInt8)))
    (rows : List (List Value))
    (childIdx : Nat)
    (value : Value) : Bool :=
  match indexed with
  | some keys => ReadPaths.keysHaveValue keys (encodeIndexValue value)
  | none => rows.any fun row => (column row childIdx).equal value

def encodeIndexKey
    (values : List Value)
    (columns : List Nat)
    (rowid : Nat) : List UInt8 :=
  encodeIndexValuePrefix values columns ++ rowidKey rowid

/-! ## Encodings end themselves -/

@[simp] theorem bigEndian_length (number : UInt64) :
    (bigEndian number).length = 8 := by
  simp [bigEndian]

theorem bigEndian_injective
    {first second : UInt64}
    (same : bigEndian first = bigEndian second) :
    first = second := by
  have bytes : ∀ position < 8,
      LittleEndian.byte first.toNat position =
        LittleEndian.byte second.toNat position := by
    intro position below
    have listed := (List.map_inj_left.mp same) (7 - position)
      (List.mem_range.mpr (by omega))
    rwa [show 7 - (7 - position) = position by omega] at listed
  have values := LittleEndian.value_congr bytes
  rw [LittleEndian.value_byte_of_lt first.toNat_lt,
    LittleEndian.value_byte_of_lt second.toNat_lt] at values
  exact UInt64.toNat_inj.mp values

/-- Behind two escaped texts nothing can be read two ways. -/
theorem escapeText_append_inj
    {first second later other : List UInt8}
    (same : escapeText first ++ later = escapeText second ++ other) :
    first = second ∧ later = other := by
  induction first generalizing second with
  | nil =>
      cases second with
      | nil => simpa [escapeText] using same
      | cons byte rest =>
          by_cases zero : byte = 0
          · simp [escapeText, zero] at same
          · simp [escapeText, zero, Ne.symm zero] at same
  | cons byte rest inductionHypothesis =>
      cases second with
      | nil =>
          by_cases zero : byte = 0
          · simp [escapeText, zero] at same
          · simp [escapeText, zero] at same
      | cons head tail =>
          by_cases zero : byte = 0
          · by_cases headZero : head = 0
            · simp only [escapeText, zero, headZero, if_true, List.cons_append,
                List.cons.injEq, true_and] at same
              obtain ⟨rests, laters⟩ := inductionHypothesis same
              exact ⟨by rw [zero, headZero, rests], laters⟩
            · simp [escapeText, zero, headZero, Ne.symm headZero] at same
          · by_cases headZero : head = 0
            · simp [escapeText, zero, headZero] at same
            · simp only [escapeText, zero, headZero, if_false, List.cons_append,
                List.cons.injEq] at same
              obtain ⟨rests, laters⟩ := inductionHypothesis same.2
              exact ⟨by rw [same.1, rests], laters⟩

theorem signBit_getLsbD : ∀ position < 64,
    (0x8000000000000000#64).getLsbD position = decide (position = 63) := by
  decide

/-- The first bit tells the sign. -/
theorem sign_iff (bits : BitVec 64) :
    bits &&& 0x8000000000000000#64 ≠ 0#64 ↔ bits.getLsbD 63 = true := by
  constructor
  · intro nonzero
    by_contra clear
    refine nonzero (BitVec.eq_of_getLsbD_eq fun position below => ?_)
    rw [BitVec.getLsbD_and, signBit_getLsbD position below, BitVec.getLsbD_zero]
    by_cases top : position = 63
    · rw [top, Bool.eq_false_iff.mpr clear, Bool.false_and]
    · rw [decide_eq_false top, Bool.and_false]
  · intro set zero
    have bit := congrArg (BitVec.getLsbD · 63) zero
    simp only [BitVec.getLsbD_and, set, signBit_getLsbD 63 (by decide)] at bit
    cases bit

theorem orderedBits_getLsbD
    (bits : UInt64)
    {position : Nat}
    (below : position < 64) :
    (orderedBits bits).toBitVec.getLsbD position =
      if bits.toBitVec.getLsbD 63 = true then !bits.toBitVec.getLsbD position
      else bits.toBitVec.getLsbD position || decide (position = 63) := by
  have signed :
      bits &&& 0x8000000000000000 ≠ 0 ↔ bits.toBitVec.getLsbD 63 = true := by
    rw [← sign_iff, not_iff_not, ← UInt64.toBitVec_inj]
    exact Iff.rfl
  unfold orderedBits
  by_cases sign : bits.toBitVec.getLsbD 63 = true
  · rw [if_pos (signed.mpr sign), if_pos sign, UInt64.toBitVec_not, BitVec.getLsbD_not]
    simp only [below, decide_true, Bool.true_and]
  · rw [if_neg (mt signed.mp sign), if_neg sign, UInt64.toBitVec_or, BitVec.getLsbD_or]
    exact congrArg _ (signBit_getLsbD position below)

theorem orderedBits_injective
    {first second : UInt64}
    (same : orderedBits first = orderedBits second) :
    first = second := by
  have bit (position : Nat) (below : position < 64) :=
    (orderedBits_getLsbD first below).symm.trans
      ((congrArg (fun bits => bits.toBitVec.getLsbD position) same).trans
        (orderedBits_getLsbD second below))
  have table : ∀ firstSign secondSign left right top : Bool,
      (if firstSign = true then !firstSign else firstSign || true) =
          (if secondSign = true then !secondSign else secondSign || true) →
      (if firstSign = true then !left else left || top) =
          (if secondSign = true then !right else right || top) →
      (top = true → left = firstSign ∧ right = secondSign) →
      left = right := by
    decide
  refine UInt64.toBitVec_inj.mp (BitVec.eq_of_getLsbD_eq fun position below => ?_)
  refine table _ _ _ _ _ (bit 63 (by decide)) (bit position below) fun top => ?_
  rw [of_decide_eq_true top]
  exact ⟨rfl, rfl⟩

/-- Behind two encoded values nothing can be read two ways. -/
theorem encodeIndexValue_append_inj
    {first second : Value}
    {later other : List UInt8}
    (same : encodeIndexValue first ++ later = encodeIndexValue second ++ other) :
    first = second ∧ later = other := by
  have eight {left right : UInt64}
      (together : bigEndian left ++ later = bigEndian right ++ other) :
      left = right ∧ later = other := by
    have split := List.append_inj together (by simp)
    exact ⟨bigEndian_injective split.1, split.2⟩
  cases first <;> cases second <;>
    simp only [encodeIndexValue, List.cons_append, List.cons.injEq, List.nil_append,
      reduceCtorEq, false_and, true_and] at same ⊢
  case null.null => exact same
  case int.int left right =>
    obtain ⟨numbers, laters⟩ := eight same
    have unflipped := congrArg (· ^^^ (0x8000000000000000 : UInt64)) numbers
    simp only [UInt64.xor_assoc, UInt64.xor_self, UInt64.xor_zero] at unflipped
    have bits := congrArg UInt64.toBitVec unflipped
    rw [Int64.toBitVec_toUInt64, Int64.toBitVec_toUInt64] at bits
    exact ⟨congrArg _ (Int64.toBitVec_inj.mp bits), laters⟩
  case real.real left right =>
    obtain ⟨numbers, laters⟩ := eight same
    exact ⟨congrArg _ (orderedBits_injective numbers), laters⟩
  case text.text left right =>
    obtain ⟨bytes, laters⟩ := escapeText_append_inj same
    refine ⟨congrArg _ (String.toByteArray_inj.mp ?_), laters⟩
    exact ByteArray.ext (Array.toList_inj.mp bytes)
  case bool.bool left right =>
    obtain ⟨truths, laters⟩ := same
    refine ⟨?_, laters⟩
    cases left <;> cases right <;> simp at truths ⊢
  all_goals
    exact absurd same.1 (by decide)

/-! ## Ranges of keys -/

namespace ReadPaths

theorem bump_append (bytes : List UInt8) (first : UInt8) :
    prefixUpperBound.bump (bytes ++ [first]) =
      match prefixUpperBound.bump bytes with
      | some bound => some (first :: bound)
      | none => if first ≠ 0xFF then some [first + 1] else none := by
  induction bytes with
  | nil => simp [prefixUpperBound.bump]
  | cons last rest inductionHypothesis =>
      by_cases full : last = 0xFF
      · simp only [List.cons_append, prefixUpperBound.bump, full, ne_eq,
          not_true_eq_false, if_false]
        exact inductionHypothesis
      · simp [prefixUpperBound.bump, full]

theorem prefixUpperBound_cons (first : UInt8) (rest : List UInt8) :
    prefixUpperBound (first :: rest) =
      match prefixUpperBound rest with
      | some bound => some (first :: bound)
      | none => if first ≠ 0xFF then some [first + 1] else none := by
  simp only [prefixUpperBound, List.reverse_cons, bump_append]

theorem inIndexRange_prefixUpperBound
    (encoded key : List UInt8) :
    inIndexRange encoded (prefixUpperBound encoded) key = true ↔
      encoded <+: key := by
  induction encoded generalizing key with
  | nil => simp [inIndexRange, prefixUpperBound, prefixUpperBound.bump]
  | cons first rest inductionHypothesis =>
      cases key with
      | nil => simp [inIndexRange]
      | cons head tail =>
          have deeper := inductionHypothesis tail
          rw [prefixUpperBound_cons, List.cons_prefix_cons, ← deeper]
          cases bounded : prefixUpperBound rest with
          | some bound =>
              simp only [inIndexRange, Option.all_some, Bool.and_eq_true,
                decide_eq_true_eq, List.cons_le_cons_iff, List.cons_lt_cons_iff]
              constructor
              · rintro ⟨below | ⟨rfl, lower⟩, above | ⟨same, upper⟩⟩
                · exact absurd (UInt8.lt_trans below above) (UInt8.lt_irrefl _)
                · exact absurd (same ▸ below) (UInt8.lt_irrefl _)
                · exact absurd above (UInt8.lt_irrefl _)
                · exact ⟨rfl, lower, upper⟩
              · rintro ⟨rfl, lower, upper⟩
                exact ⟨.inr ⟨rfl, lower⟩, .inr ⟨rfl, upper⟩⟩
          | none =>
              simp only [inIndexRange, Option.all_none, Bool.and_true,
                decide_eq_true_eq, List.cons_le_cons_iff]
              by_cases full : first = 0xFF
              · have top : ¬ first < head := by
                  rw [full, UInt8.lt_iff_toNat_lt]
                  exact Nat.not_lt.mpr (Nat.le_of_lt_succ head.toNat_lt)
                rw [if_neg (not_not.mpr full)]
                simp only [top, false_or, Option.all_none, Bool.and_true,
                  decide_eq_true_eq]
              · have next : head < first + 1 ↔ head < first ∨ head = first := by
                  have room : first.toNat < 255 := by
                    have bounded := first.toNat_lt
                    have different : first.toNat ≠ 255 := fun same =>
                      full (UInt8.toNat_inj.mp same)
                    omega
                  rw [UInt8.lt_iff_toNat_lt, UInt8.lt_iff_toNat_lt, ← UInt8.toNat_inj,
                    UInt8.toNat_add]
                  simp only [UInt8.reduceToNat]
                  omega
                rw [if_pos full]
                simp only [Option.all_some, Bool.and_eq_true, decide_eq_true_eq,
                  List.cons_lt_cons_iff, List.not_lt_nil, and_false, or_false, next]
                constructor
                · rintro ⟨below | ⟨rfl, lower⟩, above | same⟩
                  · exact absurd (UInt8.lt_trans below above) (UInt8.lt_irrefl _)
                  · exact absurd (same ▸ below) (UInt8.lt_irrefl _)
                  · exact ⟨rfl, lower⟩
                  · exact ⟨rfl, lower⟩
                · rintro ⟨rfl, lower⟩
                  exact ⟨.inr ⟨rfl, lower⟩, .inr rfl⟩

end ReadPaths

/-- No encoding is a proper prefix of another. -/
theorem encodeIndexValue_isPrefix_iff
    {sought held : Value}
    {later : List UInt8} :
    encodeIndexValue sought <+: encodeIndexValue held ++ later ↔ held = sought := by
  constructor
  · rintro ⟨rest, same⟩
    exact (encodeIndexValue_append_inj same).1.symm
  · rintro rfl
    exact List.prefix_append _ _

end PrehniteDB
