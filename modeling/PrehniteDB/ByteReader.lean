import PrehniteDB.LittleEndian

/-!
# Readers of bytes

A reader takes bytes from the front of a sequence or fails.  `Reads` says that it
takes exactly some bytes, whatever follows them; `Takes` says what can be known of
the bytes that it has taken.
-/

/-- The item that is read, and the bytes that are left. -/
abbrev ByteReader (Failure : Type) := StateT (List UInt8) (Except Failure)

namespace ByteReader

variable {Failure Item Target : Type}

/-- The next `count` bytes. -/
def take (short : Failure) (count : Nat) : ByteReader Failure (List UInt8) := fun bytes =>
  if count ≤ bytes.length then .ok (bytes.take count, bytes.drop count) else .error short

/-- The next byte. -/
def byte (short : Failure) : ByteReader Failure UInt8 := do
  let bytes ← take short 1
  pure (bytes.headD 0)

def fail (failure : Failure) : ByteReader Failure Item := fun _ => .error failure

/-- An answer that takes no bytes. -/
def lift (answer : Except Failure Item) : ByteReader Failure Item := fun bytes =>
  answer.map fun item => (item, bytes)

def utf8Bytes (string : String) : List UInt8 := string.toUTF8.data.toList

theorem utf8Bytes_append (first second : String) :
    utf8Bytes (first ++ second) = utf8Bytes first ++ utf8Bytes second := by
  simp [utf8Bytes]

theorem length_utf8Bytes_replicate (count : Nat) :
    (utf8Bytes (String.ofList (List.replicate count 'a'))).length = count := by
  induction count with
  | zero => rfl
  | succ count inductionHypothesis =>
      have letter : (utf8Bytes (String.singleton 'a')).length = 1 := rfl
      rw [List.replicate_succ, String.ofList_cons, utf8Bytes_append,
        List.length_append, inductionHypothesis, letter, Nat.add_comm]

def decodeUtf8 (invalid : Failure) (raw : List UInt8) : ByteReader Failure String :=
  match String.fromUTF8? ⟨raw.toArray⟩ with
  | some string => pure string
  | none => fail invalid

/-- `count` bytes of UTF-8. -/
def text (short invalid : Failure) (count : Nat) : ByteReader Failure String := do
  let raw ← take short count
  decodeUtf8 invalid raw

/-- The reader `count` times. -/
def times (reader : ByteReader Failure Item) : Nat → ByteReader Failure (List Item)
  | 0 => pure []
  | count + 1 => do
      let item ← reader
      let rest ← times reader count
      pure (item :: rest)

/-! ## Numbers -/

/-- The low `width` bytes of a number, the least significant first. -/
def littleEndian (width number : Nat) : List UInt8 :=
  (List.range width).map (LittleEndian.byte number)

/-- The low `width` bytes of a number, the most significant first. -/
def bigEndian (width number : Nat) : List UInt8 := (littleEndian width number).reverse

def valueOf (bytes : List UInt8) : Nat :=
  LittleEndian.value (fun position => bytes.getD position 0) bytes.length

def littleEndianNumber (short : Failure) (width : Nat) : ByteReader Failure Nat := do
  let bytes ← take short width
  pure (valueOf bytes)

def bigEndianNumber (short : Failure) (width : Nat) : ByteReader Failure Nat := do
  let bytes ← take short width
  pure (valueOf bytes.reverse)

@[simp] theorem length_littleEndian (width number : Nat) :
    (littleEndian width number).length = width := by
  simp [littleEndian]

@[simp] theorem length_bigEndian (width number : Nat) :
    (bigEndian width number).length = width := by
  simp [bigEndian]

theorem valueOf_littleEndian (width number : Nat) :
    valueOf (littleEndian width number) = number % 256 ^ width := by
  rw [valueOf, length_littleEndian, ← LittleEndian.value_byte]
  refine LittleEndian.value_congr fun position below => ?_
  simp [littleEndian, List.getD_eq_getElem?_getD, below]

theorem value_lt (bytes : Nat → UInt8) (width : Nat) :
    LittleEndian.value bytes width < 256 ^ width := by
  induction width with
  | zero => exact Nat.one_pos
  | succ width inductionHypothesis =>
      have byte : (bytes width).toNat < 256 := (bytes width).toNat_lt
      rw [LittleEndian.value, Nat.pow_succ]
      calc
        LittleEndian.value bytes width + (bytes width).toNat * 256 ^ width
          < 256 ^ width + (bytes width).toNat * 256 ^ width :=
            Nat.add_lt_add_right inductionHypothesis _
        _ = ((bytes width).toNat + 1) * 256 ^ width := by ring
        _ ≤ 256 * 256 ^ width := Nat.mul_le_mul_right _ byte
        _ = 256 ^ width * 256 := Nat.mul_comm _ _

theorem valueOf_lt (bytes : List UInt8) : valueOf bytes < 256 ^ bytes.length :=
  value_lt _ _

theorem byte_value
    (bytes : Nat → UInt8)
    {position width : Nat}
    (inside : position < width) :
    LittleEndian.byte (LittleEndian.value bytes width) position = bytes position := by
  induction width with
  | zero => exact absurd inside (Nat.not_lt_zero _)
  | succ width inductionHypothesis =>
      refine UInt8.toNat_inj.mp ?_
      rw [LittleEndian.byte_toNat, LittleEndian.value]
      rcases Nat.lt_succ_iff_lt_or_eq.mp inside with lower | rfl
      · have earlier := congrArg UInt8.toNat (inductionHypothesis lower)
        rw [LittleEndian.byte_toNat] at earlier
        rw [← earlier]
        have split :
            (256 : Nat) ^ width = 256 ^ position * (256 * 256 ^ (width - position - 1)) := by
          rw [← Nat.pow_succ', ← Nat.pow_add]
          congr 1
          omega
        have positive : 0 < (256 : Nat) ^ position := Nat.pow_pos (by decide)
        rw [split, Nat.mul_left_comm, Nat.add_mul_div_left _ _ positive, Nat.mul_left_comm,
          Nat.add_mul_mod_self_left]
      · have positive : 0 < (256 : Nat) ^ position := Nat.pow_pos (by decide)
        rw [Nat.add_mul_div_right _ _ positive, Nat.div_eq_of_lt (value_lt bytes position),
          Nat.zero_add, Nat.mod_eq_of_lt (bytes position).toNat_lt]

theorem littleEndian_valueOf (bytes : List UInt8) :
    littleEndian bytes.length (valueOf bytes) = bytes := by
  refine List.ext_getElem (by simp) fun position inside bound => ?_
  simp only [littleEndian, List.getElem_map, List.getElem_range, valueOf]
  rw [byte_value _ bound]
  simp [List.getD_eq_getElem?_getD, bound]

/-! ## Reading what was written -/

/-- The reader takes these bytes, whatever follows them, for the item. -/
def Reads (reader : ByteReader Failure Item) (bytes : List UInt8) (item : Item) : Prop :=
  ∀ rest, reader (bytes ++ rest) = .ok (item, rest)

namespace Reads

theorem pure (item : Item) : Reads (Pure.pure item : ByteReader Failure Item) [] item :=
  fun _ => rfl

theorem bind
    {reader : ByteReader Failure Item}
    {next : Item → ByteReader Failure Target}
    {first second : List UInt8}
    {item : Item}
    {target : Target}
    (reads : Reads reader first item)
    (later : Reads (next item) second target) :
    Reads (reader >>= next) (first ++ second) target := by
  intro rest
  have head := reads (second ++ rest)
  rw [← List.append_assoc] at head
  calc
    (reader >>= next) (first ++ second ++ rest)
      = (reader (first ++ second ++ rest)).bind fun answer => next answer.1 answer.2 := rfl
    _ = next item (second ++ rest) := by rw [head]; rfl
    _ = .ok (target, rest) := later rest

/-- The last step only makes something of the item. -/
theorem map
    {reader : ByteReader Failure Item}
    {make : Item → Target}
    {bytes : List UInt8}
    {item : Item}
    (reads : Reads reader bytes item) :
    Reads (do Pure.pure (make (← reader))) bytes (make item) := by
  have mapped :
      Reads (reader >>= fun item => Pure.pure (make item)) (bytes ++ []) (make item) :=
    reads.bind (pure (make item))
  rw [List.append_nil] at mapped
  exact mapped

theorem take (short : Failure) {count : Nat} {bytes : List UInt8} (sized : bytes.length = count) :
    Reads (ByteReader.take short count) bytes bytes := by
  intro rest
  simp [ByteReader.take, ← sized]

theorem byte (short : Failure) (byte : UInt8) : Reads (ByteReader.byte short) [byte] byte :=
  (take short (rfl : [byte].length = 1)).map

theorem littleEndian (short : Failure) {width number : Nat} (fits : number < 256 ^ width) :
    Reads (littleEndianNumber short width) (littleEndian width number) number := by
  have read :
      Reads (littleEndianNumber short width) (ByteReader.littleEndian width number)
        (valueOf (ByteReader.littleEndian width number)) :=
    (take short (length_littleEndian width number)).map
  rw [valueOf_littleEndian, Nat.mod_eq_of_lt fits] at read
  exact read

theorem bigEndian (short : Failure) {width number : Nat} (fits : number < 256 ^ width) :
    Reads (bigEndianNumber short width) (bigEndian width number) number := by
  have read :
      Reads (bigEndianNumber short width) (ByteReader.bigEndian width number)
        (valueOf (ByteReader.bigEndian width number).reverse) :=
    (take short (length_bigEndian width number)).map
  simp only [ByteReader.bigEndian, List.reverse_reverse, valueOf_littleEndian,
    Nat.mod_eq_of_lt fits] at read
  exact read

theorem decodeUtf8 (invalid : Failure) (string : String) :
    Reads (ByteReader.decodeUtf8 invalid (utf8Bytes string)) [] string := by
  have whole : String.fromUTF8? ⟨(utf8Bytes string).toArray⟩ = some string := by
    rw [utf8Bytes, Array.toArray_toList]
    exact dif_pos string.isValidUTF8
  rw [ByteReader.decodeUtf8, whole]
  exact pure string

theorem text
    (short invalid : Failure)
    {count : Nat}
    {string : String}
    (sized : (utf8Bytes string).length = count) :
    Reads (ByteReader.text short invalid count) (utf8Bytes string) string := by
  have read := (take short sized).bind (decodeUtf8 invalid string)
  rw [List.append_nil] at read
  exact read

theorem lift
    {answer : Except Failure Item}
    {item : Item}
    (answered : answer = .ok item) :
    Reads (ByteReader.lift answer) [] item := by
  rw [answered]
  exact fun _ => rfl

theorem times
    {reader : ByteReader Failure Item}
    {encode : Item → List UInt8}
    {items : List Item}
    (each : ∀ item ∈ items, Reads reader (encode item) item) :
    Reads (reader.times items.length) (items.flatMap encode) items := by
  induction items with
  | nil => exact pure []
  | cons item rest inductionHypothesis =>
      rw [List.flatMap_cons]
      exact (each item List.mem_cons_self).bind
        (inductionHypothesis fun other member => each other (List.mem_cons_of_mem _ member)).map

end Reads

/-! ## What was read -/

/-- The relation holds between an item that is read and the bytes that were taken for it. -/
def Takes (reader : ByteReader Failure Item) (relation : Item → List UInt8 → Prop) : Prop :=
  ∀ bytes item rest,
    reader bytes = .ok (item, rest) → ∃ used, bytes = used ++ rest ∧ relation item used

namespace Takes

variable
  {reader : ByteReader Failure Item}
  {relation weaker : Item → List UInt8 → Prop}

theorem mono
    (takes : Takes reader relation)
    (implies : ∀ item used, relation item used → weaker item used) :
    Takes reader weaker := by
  intro bytes item rest ran
  obtain ⟨used, split, related⟩ := takes bytes item rest ran
  exact ⟨used, split, implies item used related⟩

theorem pure (item : Item) :
    Takes (Pure.pure item : ByteReader Failure Item) fun other used =>
      other = item ∧ used = [] := by
  intro bytes other rest ran
  cases ran
  exact ⟨[], rfl, rfl, rfl⟩

theorem fail (failure : Failure) : Takes (ByteReader.fail failure) relation := nofun

theorem bind
    {next : Item → ByteReader Failure Target}
    {later : Item → Target → List UInt8 → Prop}
    (takes : Takes reader relation)
    (follows : ∀ item, Takes (next item) (later item)) :
    Takes (reader >>= next) fun target used =>
      ∃ item first second,
        used = first ++ second ∧ relation item first ∧ later item target second := by
  intro bytes target rest ran
  have unfolded : (reader bytes).bind (fun answer => next answer.1 answer.2) = .ok (target, rest) :=
    ran
  cases head : reader bytes with
  | error failure => rw [head] at unfolded; cases unfolded
  | ok answer =>
      obtain ⟨item, middle⟩ := answer
      rw [head] at unfolded
      obtain ⟨first, split, related⟩ := takes bytes item middle head
      obtain ⟨second, splitLater, relatedLater⟩ := follows item middle target rest unfolded
      exact ⟨first ++ second, by rw [split, splitLater, List.append_assoc],
        item, first, second, rfl, related, relatedLater⟩

/-- The last step only makes something of the item. -/
theorem map (takes : Takes reader relation) (make : Item → Target) :
    Takes (do Pure.pure (make (← reader))) fun target used =>
      ∃ item, target = make item ∧ relation item used := by
  refine (takes.bind fun item => pure (make item)).mono ?_
  rintro target used ⟨item, first, second, rfl, related, rfl, rfl⟩
  exact ⟨item, rfl, by rw [List.append_nil]; exact related⟩

theorem take (short : Failure) (count : Nat) :
    Takes (ByteReader.take short count) fun item used => item = used ∧ used.length = count := by
  intro bytes item rest ran
  simp only [ByteReader.take] at ran
  split at ran
  case isTrue enough =>
    cases ran
    exact ⟨bytes.take count, (List.take_append_drop count bytes).symm, rfl, by simp [enough]⟩
  case isFalse => cases ran

theorem byte (short : Failure) :
    Takes (ByteReader.byte short) fun byte used => used = [byte] := by
  refine ((take short 1).map (List.headD · 0)).mono ?_
  rintro byte used ⟨bytes, rfl, rfl, sized⟩
  obtain ⟨only, rfl⟩ := List.length_eq_one_iff.mp sized
  rfl

theorem littleEndian (short : Failure) (width : Nat) :
    Takes (littleEndianNumber short width) fun number used =>
      used = littleEndian width number ∧ number < 256 ^ width := by
  refine ((take short width).map valueOf).mono ?_
  rintro number used ⟨bytes, rfl, rfl, rfl⟩
  exact ⟨(littleEndian_valueOf bytes).symm, valueOf_lt bytes⟩

theorem bigEndian (short : Failure) (width : Nat) :
    Takes (bigEndianNumber short width) fun number used =>
      used = bigEndian width number ∧ number < 256 ^ width := by
  refine ((take short width).map fun bytes => valueOf bytes.reverse).mono ?_
  rintro number used ⟨bytes, rfl, rfl, rfl⟩
  have spelled := littleEndian_valueOf bytes.reverse
  have bound := valueOf_lt bytes.reverse
  rw [List.length_reverse] at spelled bound
  exact ⟨by rw [ByteReader.bigEndian, spelled, List.reverse_reverse], bound⟩

theorem decodeUtf8 (invalid : Failure) (raw : List UInt8) :
    Takes (ByteReader.decodeUtf8 invalid raw) fun string used =>
      used = [] ∧ raw = utf8Bytes string := by
  unfold ByteReader.decodeUtf8
  cases whole : String.fromUTF8? ⟨raw.toArray⟩ with
  | none => exact fail invalid
  | some string =>
      refine (pure string).mono ?_
      rintro other used ⟨rfl, rfl⟩
      simp only [String.fromUTF8?] at whole
      split at whole
      case isTrue valid =>
        cases whole
        exact ⟨rfl, rfl⟩
      case isFalse => cases whole

theorem text (short invalid : Failure) (count : Nat) :
    Takes (ByteReader.text short invalid count) fun string used =>
      used = utf8Bytes string ∧ used.length = count := by
  refine ((take short count).bind (decodeUtf8 invalid)).mono ?_
  rintro string used ⟨raw, first, second, rfl, ⟨rfl, sized⟩, rfl, spelled⟩
  rw [List.append_nil]
  exact ⟨spelled, sized⟩

theorem lift (answer : Except Failure Item) :
    Takes (ByteReader.lift answer) fun item used => used = [] ∧ answer = .ok item := by
  cases answer with
  | error failure => exact fail failure
  | ok found =>
      refine (pure found).mono ?_
      rintro item used ⟨rfl, rfl⟩
      exact ⟨rfl, rfl⟩

theorem times (takes : Takes reader relation) (count : Nat) :
    Takes (reader.times count) fun items used =>
      items.length = count ∧
        ∃ parts, used = parts.flatten ∧ List.Forall₂ relation items parts := by
  induction count with
  | zero =>
      refine (pure []).mono ?_
      rintro items used ⟨rfl, rfl⟩
      exact ⟨rfl, [], rfl, .nil⟩
  | succ count inductionHypothesis =>
      refine (takes.bind fun item => inductionHypothesis.map (item :: ·)).mono ?_
      rintro items used ⟨item, first, second, rfl, related, rest, rfl, sized, parts, rfl, each⟩
      exact ⟨congrArg (· + 1) sized, first :: parts, rfl, .cons related each⟩

end Takes

/-! ## What can be read -/

/-- What the reader answers has the property, whatever bytes it was read from. -/
def Yields (reader : ByteReader Failure Item) (keeps : Item → Prop) : Prop :=
  ∀ bytes item rest, reader bytes = .ok (item, rest) → keeps item

theorem Takes.yields
    {reader : ByteReader Failure Item}
    {relation : Item → List UInt8 → Prop}
    {keeps : Item → Prop}
    (takes : Takes reader relation)
    (implies : ∀ item used, relation item used → keeps item) :
    Yields reader keeps := by
  intro bytes item rest ran
  obtain ⟨used, _, related⟩ := takes bytes item rest ran
  exact implies item used related

namespace Yields

variable {reader : ByteReader Failure Item} {keeps : Item → Prop} {holds : Target → Prop}

theorem any (reader : ByteReader Failure Item) : Yields reader fun _ => True :=
  fun _ _ _ _ => trivial

theorem pure {target : Target} (held : holds target) :
    Yields (Pure.pure target : ByteReader Failure Target) holds := by
  intro bytes item rest ran
  cases ran
  exact held

theorem bind
    {next : Item → ByteReader Failure Target}
    (yields : Yields reader keeps)
    (follows : ∀ item, keeps item → Yields (next item) holds) :
    Yields (reader >>= next) holds := by
  intro bytes target rest ran
  have unfolded : (reader bytes).bind (fun answer => next answer.1 answer.2) = .ok (target, rest) :=
    ran
  cases head : reader bytes with
  | error failure => rw [head] at unfolded; cases unfolded
  | ok answer =>
      rw [head] at unfolded
      exact follows answer.1 (yields bytes answer.1 answer.2 head) _ target rest unfolded

theorem times (yields : Yields reader keeps) (count : Nat) :
    Yields (reader.times count) fun items =>
      items.length = count ∧ ∀ item ∈ items, keeps item := by
  induction count with
  | zero => exact pure ⟨rfl, nofun⟩
  | succ count inductionHypothesis =>
      refine yields.bind fun item kept => inductionHypothesis.bind fun items both => pure ?_
      exact ⟨congrArg (· + 1) both.1, List.forall_mem_cons.mpr ⟨kept, both.2⟩⟩

end Yields

end ByteReader
