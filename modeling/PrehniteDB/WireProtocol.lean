import PrehniteDB.ValueBytes

namespace PrehniteDB.WireProtocol

open ByteReader (Reads Takes utf8Bytes)

/-!
# The wire protocol

Every message is a frame: a tag, the length of the payload and the payload.  The
transport hands the bytes over in pieces of any size.
-/

def TAG_QUERY : UInt8 := 0x01
def TAG_PREPARE : UInt8 := 0x02
def TAG_EXECUTE : UInt8 := 0x03
def TAG_DEALLOCATE : UInt8 := 0x04
def TAG_ACK : UInt8 := 0x10
def TAG_ROWS_BEGIN : UInt8 := 0x11
def TAG_ERROR : UInt8 := 0x12
def TAG_ROW : UInt8 := 0x13
def TAG_ROWS_END : UInt8 := 0x14
def TAG_PREPARED : UInt8 := 0x15

/-- 64 MiB. -/
def MAX_FRAME : Nat := 64 * 1024 * 1024

/-- What a client sends. -/
inductive Request where
  | query (sql : String)
  | prepare (sql : String)
  | execute (handle : UInt64) (params : List Value)
  | deallocate (handle : UInt64)
  deriving Repr, DecidableEq

/-- What the server answers. -/
inductive Response where
  | ack (message : String)
  | error (message : String)
  | rowsBegin (columns : List String)
  | row (values : List Value)
  | rowsEnd
  | prepared (handle : UInt64)
  deriving Repr, DecidableEq

/-! ## Payloads -/

/-- The numbers on the wire are big-endian. -/
def wireFormat : ValueFormat where
  number := ByteReader.bigEndian
  readNumber := ByteReader.bigEndianNumber (.protocol "frame payload ended unexpectedly")
  short := .protocol "frame payload ended unexpectedly"
  invalid := .protocol "message was not valid UTF-8"
  unknownTag tag := .protocol ("unknown value tag " ++ toString tag)
  reads _ _ bound := Reads.bigEndian _ bound
  takes width := Takes.bigEndian _ width

/-- A length is cast to a `u16`. -/
def encodeName (name : String) : List UInt8 :=
  wireFormat.number 2 (utf8Bytes name).length ++ utf8Bytes name

/-- A count, then the names. -/
def encodeColumns (columns : List String) : List UInt8 :=
  wireFormat.number 2 columns.length ++ columns.flatMap encodeName

/-- A count, then the values. -/
def encodeRow (values : List Value) : List UInt8 :=
  wireFormat.number 2 values.length ++ values.flatMap wireFormat.encodeValue

/-- The handle and the parameters. -/
def encodeExecute (handle : UInt64) (params : List Value) : List UInt8 :=
  wireFormat.number 8 handle.toNat ++ (wireFormat.number 2 params.length ++
    params.flatMap wireFormat.encodeValue)

/-- A name, its length first. -/
def readName : ByteReader Error String := do
  let length ← wireFormat.readNumber 2
  ByteReader.text wireFormat.short wireFormat.invalid length

def readColumns : ByteReader Error (List String) := do
  let count ← wireFormat.readNumber 2
  readName.times count

def readValues : ByteReader Error (List Value) := do
  let count ← wireFormat.readNumber 2
  wireFormat.decodeValue.times count

/-- The handle and the parameters. -/
def readExecute : ByteReader Error Request := do
  let handle ← wireFormat.u64
  let params ← readValues
  pure (.execute handle params)

/-- What the payload holds beyond what is read is not looked at. -/
def decodePayload
    {Item : Type}
    (reader : ByteReader Error Item)
    (payload : List UInt8) : Except Error Item :=
  (reader payload).map Prod.fst

def utf8 (payload : List UInt8) : Except Error String :=
  decodePayload (ByteReader.decodeUtf8 wireFormat.invalid payload) []

/-! ## Frames -/

/-- Tag, length and payload, unless the payload is too long. -/
def writeFrame (tag : UInt8) (payload : List UInt8) : Except Error (List UInt8) :=
  if MAX_FRAME < payload.length then
    .error (.protocol
      ("message of " ++ toString payload.length ++ " bytes exceeds the " ++
        toString MAX_FRAME ++ "-byte frame limit"))
  else .ok (tag :: (wireFormat.number 4 payload.length ++ payload))

/-- What one call of `read` meets: some bytes, or an interruption. -/
inductive Delivery where
  | bytes (first : UInt8) (rest : List UInt8)
  | interrupted
  deriving Repr, DecidableEq

/-- What is still to be delivered before the end of the stream. -/
abbrev Stream := List Delivery

/-- The bytes of a stream, however it is cut. -/
def contents : Stream → List UInt8
  | [] => []
  | .bytes first chunk :: rest => first :: (chunk ++ contents rest)
  | .interrupted :: rest => contents rest

/-- Read `missing` more bytes; `none` when the stream ends before any byte. -/
def fill : Nat → List UInt8 → Stream → Except Error (Option (List UInt8) × Stream)
  | 0, filled, stream => .ok (some filled, stream)
  | _ + 1, filled, [] =>
      if filled.isEmpty then .ok (none, [])
      else .error (.protocol "connection closed mid-frame")
  | missing + 1, filled, .interrupted :: rest => fill (missing + 1) filled rest
  | missing + 1, filled, .bytes first chunk :: rest =>
      match chunk.drop missing with
      | [] => fill (missing - chunk.length) (filled ++ first :: chunk) rest
      | next :: later =>
          .ok (some (filled ++ first :: chunk.take missing), .bytes next later :: rest)

/-- One frame, or `none` where the stream ends between frames. -/
def readFrame (stream : Stream) : Except Error (Option (UInt8 × List UInt8) × Stream) := do
  match ← fill 5 [] stream with
  | (none, stream) => pure (none, stream)
  | (some header, stream) =>
      let length := ByteReader.valueOf (header.drop 1).reverse
      if MAX_FRAME < length then
        throw (.protocol
          ("frame of " ++ toString length ++ " bytes exceeds the " ++ toString MAX_FRAME ++
            "-byte limit"))
      else
        match ← fill length [] stream with
        | (none, _) => throw (.protocol "connection closed in the middle of a frame")
        | (some payload, stream) => pure (some (header.headD 0, payload), stream)

/-! ## Messages -/

def writeRequest : Request → Except Error (List UInt8)
  | .query sql => writeFrame TAG_QUERY (utf8Bytes sql)
  | .prepare sql => writeFrame TAG_PREPARE (utf8Bytes sql)
  | .execute handle params => writeFrame TAG_EXECUTE (encodeExecute handle params)
  | .deallocate handle => writeFrame TAG_DEALLOCATE (wireFormat.number 8 handle.toNat)

/-- The error names the tag in hexadecimal. -/
def unknownTag (kind : String) (tag : UInt8) : Error :=
  let digits := Nat.toDigits 16 tag.toNat
  .protocol ("unknown " ++ kind ++ " tag 0x" ++
    String.ofList (List.replicate (2 - digits.length) '0' ++ digits))

/-- The request of a frame. -/
def decodeRequest (tag : UInt8) (payload : List UInt8) : Except Error Request :=
  if tag = TAG_QUERY then (utf8 payload).map .query
  else if tag = TAG_PREPARE then (utf8 payload).map .prepare
  else if tag = TAG_EXECUTE then decodePayload readExecute payload
  else if tag = TAG_DEALLOCATE then (decodePayload wireFormat.u64 payload).map .deallocate
  else .error (unknownTag "request" tag)

/-- `none` where the peer has closed the connection between messages. -/
def readRequest (stream : Stream) : Except Error (Option Request × Stream) := do
  match ← readFrame stream with
  | (none, stream) => pure (none, stream)
  | (some (tag, payload), stream) =>
      let request ← decodeRequest tag payload
      pure (some request, stream)

def writeResponse : Response → Except Error (List UInt8)
  | .ack message => writeFrame TAG_ACK (utf8Bytes message)
  | .error message => writeFrame TAG_ERROR (utf8Bytes message)
  | .rowsBegin columns => writeFrame TAG_ROWS_BEGIN (encodeColumns columns)
  | .row values => writeFrame TAG_ROW (encodeRow values)
  | .rowsEnd => writeFrame TAG_ROWS_END []
  | .prepared handle => writeFrame TAG_PREPARED (wireFormat.number 8 handle.toNat)

/-- The response of a frame. -/
def decodeResponse (tag : UInt8) (payload : List UInt8) : Except Error Response :=
  if tag = TAG_ACK then (utf8 payload).map .ack
  else if tag = TAG_ERROR then (utf8 payload).map .error
  else if tag = TAG_ROWS_BEGIN then (decodePayload readColumns payload).map .rowsBegin
  else if tag = TAG_ROW then (decodePayload readValues payload).map .row
  else if tag = TAG_ROWS_END then .ok .rowsEnd
  else if tag = TAG_PREPARED then (decodePayload wireFormat.u64 payload).map .prepared
  else .error (unknownTag "response" tag)

/-- A response; the end of the stream is an error. -/
def readResponse (stream : Stream) : Except Error (Response × Stream) := do
  match ← readFrame stream with
  | (none, _) => throw (.protocol "server closed the connection without replying")
  | (some (tag, payload), stream) =>
      let response ← decodeResponse tag payload
      pure (response, stream)

end PrehniteDB.WireProtocol
