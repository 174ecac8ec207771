import RpmaReplica.Lib.Wire

/-!
# The messages of the replication protocol

The message types of `Types.h` with their encoders and decoders of `Types.cc`.  The
encoders are built from the primitives of Ceph's `encoding.h`: little-endian integers,
strings behind a 32-bit length, and the envelope that `ENCODE_START` and `ENCODE_FINISH`
write around the fields of a type (`Wire.envelope`), which `DECODE_START` and
`DECODE_FINISH` check (`Wire.inEnvelope`).

Messages travel in a buffer of fixed size.  A sender copies the encoding over the start of
its buffer and sends the whole buffer, so the receiver sees the encoding followed by
whatever an earlier message left there.
-/

namespace RpmaReplica

open Wire

/-! ### Constants -/

/-- `MSG_SIZE`. -/
def msgSize : ℕ := 4096

/-- `RWL_REPLICA_INIT_REQUEST`. -/
def rwlReplicaInitRequest : Int32 := 0x1

/-- `RWL_REPLICA_INIT_SUCCESSED`. -/
def rwlReplicaInitSuccessed : Int32 := 0x11

/-- `RWL_REPLICA_FINISHED_REQUEST`. -/
def rwlReplicaFinishedRequest : Int32 := 0x2

/-- `RWL_REPLICA_FINISHED_SUCCCESSED`. -/
def rwlReplicaFinishedSucccessed : Int32 := 0x21

/-- `RWL_REPLICA_FINISHED_FAILED`. -/
def rwlReplicaFinishedFailed : Int32 := 0x22

/-! ### Integers on the wire -/

def encodeU32 (x : UInt32) : Bytes := bytesLE 4 x.toNat

def decodeU32 : Decoder UInt32 := do
  let n ← natLE 4
  return UInt32.ofNat n

def encodeU64 (x : UInt64) : Bytes := bytesLE 8 x.toNat

def decodeU64 : Decoder UInt64 := do
  let n ← natLE 8
  return UInt64.ofNat n

/-- An `int` is written as its 32 bits in two's complement. -/
def encodeInt (x : Int32) : Bytes := encodeU32 x.toUInt32

def decodeInt : Decoder Int32 := do
  let u ← decodeU32
  return u.toInt32

@[simp] lemma length_encodeU32 (x : UInt32) : (encodeU32 x).length = 4 := length_bytesLE 4 _

@[simp] lemma length_encodeU64 (x : UInt64) : (encodeU64 x).length = 8 := length_bytesLE 8 _

@[simp] lemma length_encodeInt (x : Int32) : (encodeInt x).length = 4 := length_encodeU32 _

lemma reads_encodeU32 (x : UInt32) : Reads decodeU32 (encodeU32 x) x := by
  have h := (reads_natLE 4 x.toNat x.toNat_lt).map UInt32.ofNat
  rwa [UInt32.ofNat_toNat] at h

lemma reads_encodeU64 (x : UInt64) : Reads decodeU64 (encodeU64 x) x := by
  have h := (reads_natLE 8 x.toNat x.toNat_lt).map UInt64.ofNat
  rwa [UInt64.ofNat_toNat] at h

lemma reads_encodeInt (x : Int32) : Reads decodeInt (encodeInt x) x := by
  have h := (reads_encodeU32 x.toUInt32).map UInt32.toInt32
  rwa [Int32.toInt32_toUInt32] at h

/-! ### The message types -/

/-- `RwlCacheInfo`. -/
structure RwlCacheInfo where
  cacheId : UInt32
  cacheSize : UInt64
  poolName : Bytes
  imageName : Bytes
  deriving DecidableEq, Repr

/-- The fields of a `RwlCacheInfo` between `ENCODE_START` and `ENCODE_FINISH`. -/
def RwlCacheInfo.payload (x : RwlCacheInfo) : Bytes :=
  encodeU32 x.cacheId ++ (encodeU64 x.cacheSize ++ (blob x.poolName ++ blob x.imageName))

def RwlCacheInfo.encode (x : RwlCacheInfo) : Bytes := envelope 1 1 x.payload

def RwlCacheInfo.decode : Decoder RwlCacheInfo := inEnvelope 1 do
  let cacheId ← decodeU32
  let cacheSize ← decodeU64
  let poolName ← readBlob
  let imageName ← readBlob
  return { cacheId, cacheSize, poolName, imageName }

/-- `RpmaConfigDescriptor`. -/
structure RpmaConfigDescriptor where
  mrDescSize : UInt32
  pcfgDescSize : UInt32
  descriptors : Bytes
  deriving DecidableEq, Repr

/-- The fields of a `RpmaConfigDescriptor` inside its envelope. -/
def RpmaConfigDescriptor.payload (x : RpmaConfigDescriptor) : Bytes :=
  encodeU32 x.mrDescSize ++ (encodeU32 x.pcfgDescSize ++ blob x.descriptors)

def RpmaConfigDescriptor.encode (x : RpmaConfigDescriptor) : Bytes := envelope 1 1 x.payload

def RpmaConfigDescriptor.decode : Decoder RpmaConfigDescriptor := inEnvelope 1 do
  let mrDescSize ← decodeU32
  let pcfgDescSize ← decodeU32
  let descriptors ← readBlob
  return { mrDescSize, pcfgDescSize, descriptors }

/-- `RwlReplicaRequest`, the base of all messages. -/
structure RwlReplicaRequest where
  type : Int32
  deriving DecidableEq, Repr

def RwlReplicaRequest.encode (x : RwlReplicaRequest) : Bytes := envelope 1 1 (encodeInt x.type)

def RwlReplicaRequest.decode : Decoder RwlReplicaRequest := inEnvelope 1 do
  let type ← decodeInt
  return { type }

/-- `RwlReplicaInitRequest`. -/
structure RwlReplicaInitRequest extends RwlReplicaRequest where
  info : RwlCacheInfo
  deriving DecidableEq, Repr

def RwlReplicaInitRequest.encode (x : RwlReplicaInitRequest) : Bytes :=
  envelope 1 1 (encodeInt x.type ++ x.info.encode)

def RwlReplicaInitRequest.decode : Decoder RwlReplicaInitRequest := inEnvelope 1 do
  let type ← decodeInt
  let info ← RwlCacheInfo.decode
  return { type, info }

/-- `RwlReplicaInitRequestReply`. -/
structure RwlReplicaInitRequestReply extends RwlReplicaRequest where
  desc : RpmaConfigDescriptor
  deriving DecidableEq, Repr

def RwlReplicaInitRequestReply.encode (x : RwlReplicaInitRequestReply) : Bytes :=
  envelope 1 1 (encodeInt x.type ++ x.desc.encode)

def RwlReplicaInitRequestReply.decode : Decoder RwlReplicaInitRequestReply := inEnvelope 1 do
  let type ← decodeInt
  let desc ← RpmaConfigDescriptor.decode
  return { type, desc }

/-- `RwlReplicaFinishedRequest`, which inherits the codec of its base. -/
structure RwlReplicaFinishedRequest extends RwlReplicaRequest where
  deriving DecidableEq, Repr

def RwlReplicaFinishedRequest.encode (x : RwlReplicaFinishedRequest) : Bytes :=
  x.toRwlReplicaRequest.encode

def RwlReplicaFinishedRequest.decode : Decoder RwlReplicaFinishedRequest := do
  let base ← RwlReplicaRequest.decode
  return ⟨base⟩

/-- `RwlReplicaFinishedRequestReply`, which inherits the codec of its base. -/
structure RwlReplicaFinishedRequestReply extends RwlReplicaRequest where
  deriving DecidableEq, Repr

def RwlReplicaFinishedRequestReply.encode (x : RwlReplicaFinishedRequestReply) : Bytes :=
  x.toRwlReplicaRequest.encode

def RwlReplicaFinishedRequestReply.decode : Decoder RwlReplicaFinishedRequestReply := do
  let base ← RwlReplicaRequest.decode
  return ⟨base⟩

/-! ### Sizes -/

lemma RwlCacheInfo.length_encode (x : RwlCacheInfo) :
    x.encode.length = 26 + (x.poolName.length + x.imageName.length) := by
  simp [RwlCacheInfo.encode, RwlCacheInfo.payload]
  omega

lemma RpmaConfigDescriptor.length_encode (x : RpmaConfigDescriptor) :
    x.encode.length = 18 + x.descriptors.length := by
  simp [RpmaConfigDescriptor.encode, RpmaConfigDescriptor.payload]
  omega

lemma RwlReplicaRequest.length_encode (x : RwlReplicaRequest) : x.encode.length = 10 := by
  simp [RwlReplicaRequest.encode]

lemma RwlReplicaInitRequest.length_encode (x : RwlReplicaInitRequest) :
    x.encode.length = 36 + (x.info.poolName.length + x.info.imageName.length) := by
  simp [RwlReplicaInitRequest.encode, RwlCacheInfo.length_encode]
  omega

lemma RwlReplicaInitRequestReply.length_encode (x : RwlReplicaInitRequestReply) :
    x.encode.length = 28 + x.desc.descriptors.length := by
  simp [RwlReplicaInitRequestReply.encode, RpmaConfigDescriptor.length_encode]
  omega

/-! ### Each decoder reads what its encoder writes -/

lemma RwlCacheInfo.reads_encode (x : RwlCacheInfo) (h : x.encode.length < 256 ^ 4) :
    Reads RwlCacheInfo.decode x.encode x := by
  have hlen := x.length_encode
  refine Reads.envelope ?_ ?_ (by decide)
  · refine (reads_encodeU32 x.cacheId).bind ?_
    refine (reads_encodeU64 x.cacheSize).bind ?_
    refine (reads_blob x.poolName (by omega)).bind ?_
    exact (reads_blob x.imageName (by omega)).map fun imageName => { x with imageName }
  · simp only [RwlCacheInfo.encode, length_envelope] at h
    omega

lemma RpmaConfigDescriptor.reads_encode (x : RpmaConfigDescriptor)
    (h : x.encode.length < 256 ^ 4) : Reads RpmaConfigDescriptor.decode x.encode x := by
  have hlen := x.length_encode
  refine Reads.envelope ?_ ?_ (by decide)
  · refine (reads_encodeU32 x.mrDescSize).bind ?_
    refine (reads_encodeU32 x.pcfgDescSize).bind ?_
    exact (reads_blob x.descriptors (by omega)).map fun descriptors => { x with descriptors }
  · simp only [RpmaConfigDescriptor.encode, length_envelope] at h
    omega

lemma RwlReplicaRequest.reads_encode (x : RwlReplicaRequest) :
    Reads RwlReplicaRequest.decode x.encode x := by
  refine Reads.envelope ?_ (by simp) (by decide)
  exact (reads_encodeInt x.type).map RwlReplicaRequest.mk

lemma RwlReplicaInitRequest.reads_encode (x : RwlReplicaInitRequest)
    (h : x.encode.length < 256 ^ 4) : Reads RwlReplicaInitRequest.decode x.encode x := by
  have hlen : x.encode.length = 10 + x.info.encode.length := by
    simp [RwlReplicaInitRequest.encode]
    omega
  refine Reads.envelope ?_ ?_ (by decide)
  · refine (reads_encodeInt x.type).bind ?_
    exact (x.info.reads_encode (by omega)).map fun info => { x with info }
  · simp only [List.length_append, length_encodeInt]
    omega

lemma RwlReplicaInitRequestReply.reads_encode (x : RwlReplicaInitRequestReply)
    (h : x.encode.length < 256 ^ 4) : Reads RwlReplicaInitRequestReply.decode x.encode x := by
  have hlen : x.encode.length = 10 + x.desc.encode.length := by
    simp [RwlReplicaInitRequestReply.encode]
    omega
  refine Reads.envelope ?_ ?_ (by decide)
  · refine (reads_encodeInt x.type).bind ?_
    exact (x.desc.reads_encode (by omega)).map fun desc => { x with desc }
  · simp only [List.length_append, length_encodeInt]
    omega

/-! ### Reading a message as another type -/

/-- The base reads the type of an INIT request and skips the rest. -/
lemma RwlReplicaInitRequest.reads_base (x : RwlReplicaInitRequest)
    (h : x.encode.length < 256 ^ 4) :
    Reads RwlReplicaRequest.decode x.encode x.toRwlReplicaRequest := by
  refine Reads.envelope_skip ((reads_encodeInt x.type).map RwlReplicaRequest.mk) _ ?_ (by decide)
  simp only [RwlReplicaInitRequest.encode, length_envelope] at h
  omega

/-- Whatever else it makes of a message, the decoder of INIT replies finds the type where the
base wrote it. -/
lemma RwlReplicaInitRequestReply.type_of_decode {x : RwlReplicaRequest} {rest : Bytes}
    {reply : RwlReplicaInitRequestReply} {c : Cursor}
    (h : RwlReplicaInitRequestReply.decode (Cursor.start (x.encode ++ rest)) = .ok (reply, c)) :
    reply.type = x.type := by
  rw [RwlReplicaInitRequestReply.decode, inEnvelope] at h
  obtain ⟨e, c₁, hopen, h⟩ := bind_eq_ok.1 h
  obtain ⟨r, c₂, hbody, h⟩ := bind_eq_ok.1 h
  obtain ⟨-, c₃, -, h⟩ := bind_eq_ok.1 h
  obtain ⟨rfl, -⟩ := pure_eq_ok.1 h
  obtain ⟨type, c₄, htype, hbody⟩ := bind_eq_ok.1 hbody
  obtain ⟨desc, c₅, -, hbody⟩ := bind_eq_ok.1 hbody
  obtain ⟨rfl, -⟩ := pure_eq_ok.1 hbody
  -- behind the header of the envelope stand the four bytes of the type
  obtain ⟨sv, compat, len, hrest, hlen, -⟩ := openEnvelope_eq_ok.1 hopen
  have hsplit : c₁.rest = encodeInt x.type ++ rest := by
    simp only [Cursor.start, RwlReplicaRequest.encode, envelope, List.cons_append,
      List.append_assoc, List.cons.injEq] at hrest
    exact (List.append_inj hrest.2.2 (by simp [hlen])).2.symm
  have hread := reads_encodeInt x.type c₁.off rest
  rw [← hsplit] at hread
  rw [hread] at htype
  exact (Prod.mk.inj (Except.ok.inj htype)).1.symm

/-! ### All message types at once -/

/-- The message types that have a codec. -/
inductive MessageKind
  | cacheInfo
  | configDescriptor
  | request
  | initRequest
  | initRequestReply
  | finishedRequest
  | finishedRequestReply
  deriving DecidableEq, Repr

namespace MessageKind

/-- The values of a message type. -/
def Value : MessageKind → Type
  | cacheInfo => RwlCacheInfo
  | configDescriptor => RpmaConfigDescriptor
  | request => RwlReplicaRequest
  | initRequest => RwlReplicaInitRequest
  | initRequestReply => RwlReplicaInitRequestReply
  | finishedRequest => RwlReplicaFinishedRequest
  | finishedRequestReply => RwlReplicaFinishedRequestReply

/-- The encoder of a message type. -/
def encode : (k : MessageKind) → k.Value → Bytes
  | cacheInfo => RwlCacheInfo.encode
  | configDescriptor => RpmaConfigDescriptor.encode
  | request => RwlReplicaRequest.encode
  | initRequest => RwlReplicaInitRequest.encode
  | initRequestReply => RwlReplicaInitRequestReply.encode
  | finishedRequest => RwlReplicaFinishedRequest.encode
  | finishedRequestReply => RwlReplicaFinishedRequestReply.encode

/-- The decoder of a message type. -/
def decode : (k : MessageKind) → Decoder k.Value
  | cacheInfo => RwlCacheInfo.decode
  | configDescriptor => RpmaConfigDescriptor.decode
  | request => RwlReplicaRequest.decode
  | initRequest => RwlReplicaInitRequest.decode
  | initRequestReply => RwlReplicaInitRequestReply.decode
  | finishedRequest => RwlReplicaFinishedRequest.decode
  | finishedRequestReply => RwlReplicaFinishedRequestReply.decode

lemma reads_encode (k : MessageKind) (x : k.Value) (h : (k.encode x).length < 256 ^ 4) :
    Reads k.decode (k.encode x) x := by
  cases k with
  | cacheInfo => exact RwlCacheInfo.reads_encode x h
  | configDescriptor => exact RpmaConfigDescriptor.reads_encode x h
  | request => exact RwlReplicaRequest.reads_encode x
  | initRequest => exact RwlReplicaInitRequest.reads_encode x h
  | initRequestReply => exact RwlReplicaInitRequestReply.reads_encode x h
  | finishedRequest =>
      exact (RwlReplicaRequest.reads_encode x.toRwlReplicaRequest).map
        RwlReplicaFinishedRequest.mk
  | finishedRequestReply =>
      exact (RwlReplicaRequest.reads_encode x.toRwlReplicaRequest).map
        RwlReplicaFinishedRequestReply.mk

end MessageKind

/-- A message of any type. -/
abbrev Message : Type := (k : MessageKind) × k.Value

/-- The encodings of several messages, written back to back. -/
def encodeAll (ms : List Message) : Bytes := ms.flatMap fun m => m.1.encode m.2

/-- Decode messages of the given types in turn. -/
def decodeAll : List MessageKind → Decoder (List Message)
  | [] => return []
  | k :: ks => do
    let x ← k.decode
    let ms ← decodeAll ks
    return ⟨k, x⟩ :: ms

lemma reads_encodeAll (ms : List Message) (h : (encodeAll ms).length < 256 ^ 4) :
    Reads (decodeAll (ms.map Sigma.fst)) (encodeAll ms) ms := by
  induction ms with
  | nil => exact Reads.ret []
  | cons m ms ih =>
      have hsplit : encodeAll (m :: ms) = m.1.encode m.2 ++ encodeAll ms := rfl
      rw [hsplit, List.length_append] at h
      rw [hsplit]
      refine (m.1.reads_encode m.2 (by omega)).bind ?_
      exact (ih (by omega)).map fun ms => m :: ms

/-! ### The message buffer -/

/-- A buffer of `MSG_SIZE` bytes. -/
structure MsgBuf where
  bytes : Bytes
  length_bytes : bytes.length = msgSize
  deriving DecidableEq

namespace MsgBuf

/-- The buffer of zeros. -/
def zero : MsgBuf := ⟨List.replicate msgSize 0, List.length_replicate⟩

/-- `memcpy` to the start of a buffer: what lies behind the copied bytes stays. -/
def memcpy (buf : MsgBuf) (src : Bytes) (h : src.length ≤ msgSize) : MsgBuf where
  bytes := src ++ buf.bytes.drop src.length
  length_bytes := by
    rw [List.length_append, List.length_drop, buf.length_bytes]
    omega

/-- `cbegin`: the iterator at the start of the buffer. -/
def cbegin (buf : MsgBuf) : Cursor := Cursor.start buf.bytes

lemma cbegin_memcpy (buf : MsgBuf) (src : Bytes) (h : src.length ≤ msgSize) :
    (buf.memcpy src h).cbegin = Cursor.start (src ++ buf.bytes.drop src.length) := rfl

end MsgBuf

/-- What is shorter than a buffer fits it. -/
lemma length_le_msgSize {src : Bytes} (h : src.length < msgSize) : src.length ≤ msgSize := h.le

/-- A buffer in which a message has arrived. -/
def holding (message : Bytes) (h : message.length < msgSize) : MsgBuf :=
  MsgBuf.zero.memcpy message (length_le_msgSize h)

/-- A decoder that reads what was copied into a buffer stops exactly behind it. -/
lemma Wire.Reads.memcpy {α : Type} {d : Decoder α} {src : Bytes} {a : α} (hd : Reads d src a)
    (buf : MsgBuf) (h : src.length ≤ msgSize) :
    d (buf.memcpy src h).cbegin = .ok (a, ⟨src.length, buf.bytes.drop src.length⟩) := by
  rw [MsgBuf.cbegin_memcpy]
  exact hd.start

/-- **Decode undoes encode through the message buffer**, for one message and for any number
of messages written back to back, over whatever the buffer held before; and the two types
with strings fit the buffer exactly up to the stated lengths. -/
theorem decode_encode_through_buffer :
    (∀ (k : MessageKind) (x : k.Value) (buf : MsgBuf) (h : (k.encode x).length < msgSize),
      k.decode (buf.memcpy (k.encode x) h.le).cbegin =
        .ok (x, ⟨(k.encode x).length, buf.bytes.drop (k.encode x).length⟩)) ∧
    (∀ (ms : List Message) (buf : MsgBuf) (h : (encodeAll ms).length ≤ msgSize),
      decodeAll (ms.map Sigma.fst) (buf.memcpy (encodeAll ms) h).cbegin =
        .ok (ms, ⟨(encodeAll ms).length, buf.bytes.drop (encodeAll ms).length⟩)) ∧
    (∀ x : RwlReplicaInitRequest, x.encode.length < msgSize ↔
      x.info.poolName.length + x.info.imageName.length < 4060) ∧
    (∀ x : RwlReplicaInitRequestReply, x.encode.length < msgSize ↔
      x.desc.descriptors.length < 4068) := by
  have hmsg : msgSize < 256 ^ 4 := by decide
  refine ⟨?_, ?_, ?_, ?_⟩
  · intro k x buf h
    exact (k.reads_encode x (h.trans hmsg)).memcpy buf h.le
  · intro ms buf h
    exact (reads_encodeAll ms (h.trans_lt hmsg)).memcpy buf h
  · intro x
    rw [x.length_encode, msgSize]
    omega
  · intro x
    rw [x.length_encode, msgSize]
    omega

end RpmaReplica
