import PrehniteDB.WireProtocol

namespace PrehniteDB.WireProtocol

open ByteReader (Reads Takes utf8Bytes)

/-!
# What is written to the wire is read back

However the bytes are delivered, a frame is read as it was written and nothing
beyond it.  Its payload is read back as the message exactly when no count and no
name is too long for its sixteen bits.
-/

/-! ## Frames -/

theorem fill_eq
    {missing : Nat}
    {filled : List UInt8}
    {stream : Stream}
    (enough : missing ≤ (contents stream).length) :
    ∃ next,
      fill missing filled stream =
          .ok (some (filled ++ (contents stream).take missing), next) ∧
        contents next = (contents stream).drop missing := by
  induction stream generalizing missing filled with
  | nil =>
      obtain rfl := Nat.le_zero.mp enough
      exact ⟨[], by simp [fill], rfl⟩
  | cons delivery rest inductionHypothesis =>
      cases missing with
      | zero => exact ⟨delivery :: rest, by simp [fill], rfl⟩
      | succ missing =>
          cases delivery with
          | interrupted => exact inductionHypothesis enough
          | bytes first chunk =>
              simp only [contents, List.length_cons, List.length_append,
                Nat.add_le_add_iff_right] at enough
              rw [fill]
              cases left : chunk.drop missing with
              | nil =>
                  have short : chunk.length ≤ missing := List.drop_eq_nil_iff.mp left
                  obtain ⟨next, ran, after⟩ := @inductionHypothesis (missing - chunk.length)
                    (filled ++ first :: chunk) (by omega)
                  refine ⟨next, ran.trans ?_, after.trans ?_⟩
                  · simp [contents, List.take_append, List.take_of_length_le short]
                  · simp [contents, List.drop_append, left]
              | cons next later =>
                  have long : missing ≤ chunk.length := by
                    have nonempty := congrArg List.length left
                    simp only [List.length_drop, List.length_cons] at nonempty
                    omega
                  refine ⟨.bytes next later :: rest, ?_, ?_⟩
                  · simp [contents, List.take_append_of_le_length long]
                  · simp [contents, List.drop_append_of_le_length long, left]

/-- A frame is taken whole, and nothing beyond it. -/
theorem readFrame_eq
    {tag : UInt8}
    {payload frame later : List UInt8}
    {stream : Stream}
    (written : writeFrame tag payload = .ok frame)
    (holds : contents stream = frame ++ later) :
    ∃ next,
      readFrame stream = .ok (some (tag, payload), next) ∧ contents next = later := by
  unfold writeFrame at written
  split at written
  case isTrue => cases written
  case isFalse fits =>
    obtain rfl := Except.ok.inj written
    have sized : (wireFormat.number 4 payload.length).length = 4 :=
      ByteReader.length_bigEndian 4 payload.length
    have whole : (contents stream).length = 5 + (payload.length + later.length) := by
      rw [holds]
      simp only [List.length_append, List.length_cons, sized]
      omega
    obtain ⟨middle, header, behind⟩ :=
      @fill_eq 5 [] stream (by rw [whole]; exact Nat.le_add_right _ _)
    have headed : (contents stream).take 5 = tag :: wireFormat.number 4 payload.length := by
      rw [holds, List.cons_append, List.take_succ_cons, List.append_assoc,
        List.take_append_of_le_length (by rw [sized]), List.take_of_length_le (by rw [sized])]
    have followed : contents middle = payload ++ later := by
      rw [behind, holds, List.cons_append, List.drop_succ_cons, List.append_assoc,
        List.drop_append_of_le_length (by rw [sized]), List.drop_of_length_le (by rw [sized]),
        List.nil_append]
    obtain ⟨next, body, rest⟩ := @fill_eq payload.length [] middle
      (by rw [followed, List.length_append]; exact Nat.le_add_right _ _)
    rw [followed, List.take_left, List.nil_append] at body
    rw [followed, List.drop_left] at rest
    have length :
        ByteReader.valueOf ((wireFormat.number 4 payload.length)).reverse = payload.length := by
      have small : payload.length < 256 ^ 4 := by
        have bound := Nat.not_lt.mp fits
        exact Nat.lt_of_le_of_lt bound (by decide)
      change ByteReader.valueOf (ByteReader.littleEndian 4 payload.length).reverse.reverse = _
      rw [List.reverse_reverse, ByteReader.valueOf_littleEndian, Nat.mod_eq_of_lt small]
    refine ⟨next, ?_, rest⟩
    rw [headed, List.nil_append] at header
    simp only [readFrame, header, bind, Except.bind, List.drop_succ_cons, List.drop_zero, length,
      if_neg fits, body, List.headD_cons]
    rfl

/-! ## Payloads -/

section Payload

variable {Item : Type} {reader : ByteReader Error Item} {payload : List UInt8} {item : Item}

theorem decodePayload_reads (reads : Reads reader payload item) :
    decodePayload reader payload = .ok item := by
  have ran := reads []
  rw [List.append_nil] at ran
  rw [decodePayload, ran]
  rfl

theorem decodePayload_takes
    {relation : Item → List UInt8 → Prop}
    (takes : Takes reader relation)
    (decoded : decodePayload reader payload = .ok item) :
    ∃ used, relation item used := by
  rw [decodePayload] at decoded
  cases ran : reader payload with
  | error error => rw [ran] at decoded; cases decoded
  | ok answer =>
      rw [ran] at decoded
      cases decoded
      obtain ⟨used, _, related⟩ := takes payload answer.1 answer.2 ran
      exact ⟨used, related⟩

end Payload

theorem utf8_eq (string : String) : utf8 (utf8Bytes string) = .ok string :=
  decodePayload_reads (Reads.decodeUtf8 _ string)

theorem u64_eq (number : UInt64) :
    decodePayload wireFormat.u64 (wireFormat.number 8 number.toNat) = .ok number :=
  decodePayload_reads (ValueFormat.u64_reads number)

theorem readName_reads {name : String} (short : (utf8Bytes name).length < 2 ^ 16) :
    Reads readName (encodeName name) name :=
  (wireFormat.reads 2 _ short).bind (Reads.text _ _ rfl)

theorem readName_takes :
    Takes readName fun name _ => (utf8Bytes name).length < 2 ^ 16 := by
  refine ((wireFormat.takes 2).bind fun length =>
    Takes.text wireFormat.short wireFormat.invalid length).mono ?_
  rintro name used ⟨length, first, second, rfl, ⟨rfl, bound⟩, rfl, rfl⟩
  exact bound

theorem readColumns_reads
    {columns : List String}
    (few : columns.length < 2 ^ 16)
    (short : ∀ name ∈ columns, (utf8Bytes name).length < 2 ^ 16) :
    Reads readColumns (encodeColumns columns) columns :=
  (wireFormat.reads 2 _ few).bind (Reads.times fun name member => readName_reads (short name member))

theorem readColumns_takes :
    Takes readColumns fun columns _ =>
      columns.length < 2 ^ 16 ∧ ∀ name ∈ columns, (utf8Bytes name).length < 2 ^ 16 := by
  refine ((wireFormat.takes 2).bind fun count => readName_takes.times count).mono ?_
  rintro columns used ⟨count, first, second, rfl, ⟨rfl, bound⟩, rfl, parts, rfl, each⟩
  exact ⟨bound, ((List.forall₂_and_left _ parts).mp
    (each.imp fun _ _ short => ⟨short, trivial⟩ : List.Forall₂
      (fun name _ => (utf8Bytes name).length < 2 ^ 16 ∧ True) columns parts)).1⟩

theorem readValues_reads
    {values : List Value}
    (few : values.length < 2 ^ 16)
    (short : ∀ value ∈ values, value.Short) :
    Reads readValues (encodeRow values) values :=
  (wireFormat.reads 2 _ few).bind ((ValueFormat.spellsAll_encode values).reads short)

theorem readValues_takes : Takes readValues fun values _ => values.length < 2 ^ 16 := by
  refine ((wireFormat.takes 2).bind fun count =>
    ValueFormat.decodeValues_takes count).mono ?_
  rintro values used ⟨count, first, second, rfl, ⟨rfl, bound⟩, rfl, _⟩
  exact bound

theorem readExecute_reads
    {handle : UInt64}
    {params : List Value}
    (few : params.length < 2 ^ 16)
    (short : ∀ value ∈ params, value.Short) :
    Reads readExecute (encodeExecute handle params) (.execute handle params) :=
  (ValueFormat.u64_reads handle).bind (readValues_reads few short).map

theorem readExecute_takes :
    Takes readExecute fun request _ =>
      ∃ handle params, request = .execute handle params ∧ params.length < 2 ^ 16 := by
  refine (ValueFormat.u64_takes.bind fun handle =>
    readValues_takes.map (Request.execute handle)).mono ?_
  rintro request used ⟨handle, first, second, rfl, rfl, params, rfl, few⟩
  exact ⟨handle, params, rfl, few⟩

/-- What fits a frame holds no text of four gibibytes. -/
theorem short_of_frame
    {values : List Value}
    (fits : (values.flatMap wireFormat.encodeValue).length ≤ MAX_FRAME) :
    ∀ value ∈ values, value.Short := by
  intro value member
  have within : (wireFormat.encodeValue value).length ≤ MAX_FRAME :=
    ((List.sublist_flatten_of_mem (List.mem_map_of_mem member)).length_le.trans
      (by rw [← List.flatMap_def])).trans fits
  cases value with
  | text string =>
      simp only [ValueFormat.encodeValue, List.length_cons, List.length_append] at within
      exact Nat.lt_of_le_of_lt (by omega : (utf8Bytes string).length ≤ MAX_FRAME) (by decide)
  | _ => trivial

/-! ## Messages -/

/-- The counts and names of a message fit their sixteen bits. -/
def Request.Fits : Request → Prop
  | .execute _ params => params.length < 2 ^ 16
  | _ => True

def Response.Fits : Response → Prop
  | .rowsBegin columns =>
      columns.length < 2 ^ 16 ∧ ∀ name ∈ columns, (utf8Bytes name).length < 2 ^ 16
  | .row values => values.length < 2 ^ 16
  | _ => True

/-- A message is one frame, and reads as itself when it fits. -/
theorem writeRequest_eq (request : Request) :
    ∃ tag payload,
      writeRequest request = writeFrame tag payload ∧
        (payload.length ≤ MAX_FRAME →
          (decodeRequest tag payload = .ok request ↔ request.Fits)) := by
  cases request with
  | query sql =>
      refine ⟨_, _, rfl, fun _ => iff_of_true ?_ trivial⟩
      exact congrArg (Except.map Request.query) (utf8_eq sql)
  | prepare sql =>
      refine ⟨_, _, rfl, fun _ => iff_of_true ?_ trivial⟩
      exact congrArg (Except.map Request.prepare) (utf8_eq sql)
  | deallocate handle =>
      refine ⟨_, _, rfl, fun _ => iff_of_true ?_ trivial⟩
      exact congrArg (Except.map Request.deallocate) (u64_eq handle)
  | execute handle params =>
      refine ⟨_, _, rfl, fun framed => ⟨fun decoded => ?_, fun few => ?_⟩⟩
      · have ran : decodePayload readExecute (encodeExecute handle params) =
            .ok (.execute handle params) := decoded
        obtain ⟨_, _, _, same, few⟩ := decodePayload_takes readExecute_takes ran
        cases same
        exact few
      · refine decodePayload_reads (readExecute_reads few (short_of_frame (le_trans ?_ framed)))
        simp only [encodeExecute, List.length_append]
        omega

theorem writeResponse_eq (response : Response) :
    ∃ tag payload,
      writeResponse response = writeFrame tag payload ∧
        (payload.length ≤ MAX_FRAME →
          (decodeResponse tag payload = .ok response ↔ response.Fits)) := by
  cases response with
  | ack message =>
      refine ⟨_, _, rfl, fun _ => iff_of_true ?_ trivial⟩
      exact congrArg (Except.map Response.ack) (utf8_eq message)
  | error message =>
      refine ⟨_, _, rfl, fun _ => iff_of_true ?_ trivial⟩
      exact congrArg (Except.map Response.error) (utf8_eq message)
  | rowsEnd => exact ⟨_, _, rfl, fun _ => iff_of_true rfl trivial⟩
  | prepared handle =>
      refine ⟨_, _, rfl, fun _ => iff_of_true ?_ trivial⟩
      exact congrArg (Except.map Response.prepared) (u64_eq handle)
  | rowsBegin columns =>
      refine ⟨_, _, rfl, fun _ => ⟨fun decoded => ?_, fun fits => ?_⟩⟩
      · have mapped : (decodePayload readColumns (encodeColumns columns)).map Response.rowsBegin =
            .ok (.rowsBegin columns) := decoded
        cases ran : decodePayload readColumns (encodeColumns columns) with
        | error error => rw [ran] at mapped; cases mapped
        | ok found =>
            rw [ran] at mapped
            cases mapped
            obtain ⟨_, fits⟩ := decodePayload_takes readColumns_takes ran
            exact fits
      · exact congrArg (Except.map Response.rowsBegin)
          (decodePayload_reads (readColumns_reads fits.1 fits.2))
  | row values =>
      refine ⟨_, _, rfl, fun framed => ⟨fun decoded => ?_, fun few => ?_⟩⟩
      · have mapped : (decodePayload readValues (encodeRow values)).map Response.row =
            .ok (.row values) := decoded
        cases ran : decodePayload readValues (encodeRow values) with
        | error error => rw [ran] at mapped; cases mapped
        | ok found =>
            rw [ran] at mapped
            cases mapped
            obtain ⟨_, few⟩ := decodePayload_takes readValues_takes ran
            exact few
      · refine congrArg (Except.map Response.row)
          (decodePayload_reads (readValues_reads few (short_of_frame (le_trans ?_ framed))))
        simp only [encodeRow, List.length_append]
        omega

/-! ## Sequences of messages -/

section Sequences

variable {Message Answer : Type}

def writeAll (write : Message → Except Error (List UInt8)) :
    List Message → Except Error (List UInt8)
  | [] => .ok []
  | message :: rest => do
      let frame ← write message
      let later ← writeAll write rest
      pure (frame ++ later)

/-- Each message is read as it was written, and its frame taken and no more. -/
def Delivers
    (write : Message → Except Error (List UInt8))
    (read : Stream → Except Error (Answer × Stream))
    (answer : Message → Answer) : List Message → Stream → Prop
  | [], _ => True
  | message :: rest, stream =>
      ∃ next frame,
        read stream = .ok (answer message, next) ∧ write message = .ok frame ∧
          contents stream = frame ++ contents next ∧ Delivers write read answer rest next

/-- One message decides about itself, and the frames after it are still in place. -/
theorem delivers_iff
    {write : Message → Except Error (List UInt8)}
    {read : Stream → Except Error (Answer × Stream)}
    {answer : Message → Answer}
    {fits : Message → Prop}
    (one :
      ∀ message frame later stream,
        write message = .ok frame → contents stream = frame ++ later →
          ((∃ next, read stream = .ok (answer message, next)) ↔ fits message) ∧
            ∀ next, read stream = .ok (answer message, next) → contents next = later)
    {messages : List Message}
    {bytes later : List UInt8}
    {stream : Stream}
    (written : writeAll write messages = .ok bytes)
    (holds : contents stream = bytes ++ later) :
    Delivers write read answer messages stream ↔ ∀ message ∈ messages, fits message := by
  induction messages generalizing bytes stream with
  | nil => exact iff_of_true trivial fun _ member => nomatch member
  | cons message rest inductionHypothesis =>
      rw [writeAll] at written
      cases first : write message with
      | error error => rw [first] at written; cases written
      | ok frame =>
          cases others : writeAll write rest with
          | error error =>
              simp only [first, others, bind, Except.bind] at written
              cases written
          | ok behind =>
              simp only [first, others, bind, Except.bind] at written
              obtain rfl : frame ++ behind = bytes := Except.ok.inj written
              rw [List.append_assoc] at holds
              obtain ⟨decided, after⟩ := one message frame _ stream first holds
              rw [List.forall_mem_cons, ← decided]
              constructor
              · rintro ⟨next, _, ran, _, _, delivered⟩
                exact ⟨⟨next, ran⟩, (inductionHypothesis others (after next ran)).mp delivered⟩
              · rintro ⟨⟨next, ran⟩, fitting⟩
                exact ⟨next, frame, ran, first, by rw [holds, after next ran],
                  (inductionHypothesis others (after next ran)).mpr fitting⟩

theorem readRequest_iff
    {request : Request}
    {frame later : List UInt8}
    {stream : Stream}
    (written : writeRequest request = .ok frame)
    (holds : contents stream = frame ++ later) :
    ((∃ next, readRequest stream = .ok (some request, next)) ↔ request.Fits) ∧
      ∀ next, readRequest stream = .ok (some request, next) → contents next = later := by
  obtain ⟨tag, payload, framed, decides⟩ := writeRequest_eq request
  rw [framed] at written
  obtain ⟨next, ran, behind⟩ := readFrame_eq written holds
  have bound : payload.length ≤ MAX_FRAME := by
    by_contra long
    rw [writeFrame, if_pos (Nat.not_le.mp long)] at written
    cases written
  rw [← decides bound]
  simp only [readRequest, ran, bind, Except.bind]
  cases decodeRequest tag payload with
  | error error => exact ⟨iff_of_false nofun nofun, nofun⟩
  | ok found =>
      simp only [pure, Except.pure, Except.ok.injEq, Prod.mk.injEq, Option.some.injEq,
        exists_and_left, exists_eq', and_true, true_and]
      exact fun other both => both.2 ▸ behind

theorem readResponse_iff
    {response : Response}
    {frame later : List UInt8}
    {stream : Stream}
    (written : writeResponse response = .ok frame)
    (holds : contents stream = frame ++ later) :
    ((∃ next, readResponse stream = .ok (response, next)) ↔ response.Fits) ∧
      ∀ next, readResponse stream = .ok (response, next) → contents next = later := by
  obtain ⟨tag, payload, framed, decides⟩ := writeResponse_eq response
  rw [framed] at written
  obtain ⟨next, ran, behind⟩ := readFrame_eq written holds
  have bound : payload.length ≤ MAX_FRAME := by
    by_contra long
    rw [writeFrame, if_pos (Nat.not_le.mp long)] at written
    cases written
  rw [← decides bound]
  simp only [readResponse, ran, bind, Except.bind]
  cases decodeResponse tag payload with
  | error error => exact ⟨iff_of_false nofun nofun, nofun⟩
  | ok found =>
      simp only [pure, Except.pure, Except.ok.injEq, Prod.mk.injEq, exists_and_left, exists_eq',
        and_true, true_and]
      exact fun other both => both.2 ▸ behind

end Sequences

/--
The messages of a sequence that was written come out of it again, each from its
own frame, exactly when none has a count or a name that its sixteen bits cannot
hold.
-/
theorem wire_round_trip_iff
    {bytes later : List UInt8}
    {stream : Stream}
    (holds : contents stream = bytes ++ later) :
    (∀ requests : List Request,
      writeAll writeRequest requests = .ok bytes →
        (Delivers writeRequest readRequest some requests stream ↔
          ∀ request ∈ requests, request.Fits)) ∧
    ∀ responses : List Response,
      writeAll writeResponse responses = .ok bytes →
        (Delivers writeResponse readResponse id responses stream ↔
          ∀ response ∈ responses, response.Fits) :=
  ⟨fun _ written =>
    delivers_iff (fun _ _ _ _ first begins => readRequest_iff first begins) written holds,
  fun _ written =>
    delivers_iff (fun _ _ _ _ first begins => readResponse_iff first begins) written holds⟩

/-- Two requests in three pieces with an interruption between them. -/
theorem wire_round_trip_pieces :
    Delivers writeRequest readRequest some [.deallocate 7, .execute 7 [.bool true]]
      [.bytes 4 [0, 0], .interrupted, .bytes 0 [8, 0, 0, 0, 0, 0, 0, 0, 7, 3, 0, 0],
        .bytes 0 [12, 0, 0, 0, 0, 0, 0, 0, 7, 0, 1, 4, 1]] :=
  ((@wire_round_trip_iff
    [4, 0, 0, 0, 8, 0, 0, 0, 0, 0, 0, 0, 7, 3, 0, 0, 0, 12, 0, 0, 0, 0, 0, 0, 0, 7, 0, 1, 4, 1]
    [] _ rfl).1 _ (by decide)).mpr (by simp [Request.Fits])

theorem length_encodeRow_null (number : Nat) :
    (encodeRow (List.replicate number .null)).length = 2 + number := by
  have each : ((List.replicate number Value.null).flatMap wireFormat.encodeValue).length =
      number := by
    induction number with
    | zero => rfl
    | succ number inductionHypothesis =>
        rw [List.replicate_succ, List.flatMap_cons, List.length_append, inductionHypothesis]
        exact Nat.add_comm 1 number
  rw [encodeRow, List.length_append, each]
  rfl

theorem null_row_shrinks
    {number : Nat}
    (short : 2 + number ≤ MAX_FRAME)
    (wide : 2 ^ 16 ≤ number) :
    ∃ frame,
      writeResponse (.row (List.replicate number .null)) = .ok frame ∧
        ¬ Delivers writeResponse readResponse id [.row (List.replicate number .null)]
          (frame.map fun byte => .bytes byte []) := by
  have accepted : ¬ MAX_FRAME < (encodeRow (List.replicate number .null)).length := by
    rw [length_encodeRow_null]
    exact Nat.not_lt.mpr short
  refine ⟨_, if_neg accepted, fun delivered => ?_⟩
  obtain ⟨next, frame, ran, written, begins, _⟩ := delivered
  have fits := (readResponse_iff written begins).1.mp ⟨next, ran⟩
  have few : (List.replicate number Value.null).length < 2 ^ 16 := fits
  rw [List.length_replicate] at few
  exact absurd few (Nat.not_lt.mpr wide)

/-- The count of a row of 65536 values is written as zero. -/
theorem wide_row_shrinks :
    ∃ frame,
      writeResponse (.row (List.replicate 65536 .null)) = .ok frame ∧
        ¬ Delivers writeResponse readResponse id [.row (List.replicate 65536 .null)]
          (frame.map fun byte => .bytes byte []) :=
  null_row_shrinks (by decide) (by decide)

end PrehniteDB.WireProtocol
