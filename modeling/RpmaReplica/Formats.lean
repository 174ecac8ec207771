import RpmaReplica.Types

/-!
# What the decoders accept

The decoders of `Types.cc` are run on buffers that anybody may have written, and on buffers
that hold leftovers of other messages.  This file says which buffers each of them accepts.

The checks on a nested message are spread out: the inner `DECODE_START` compares its length
with the whole buffer and not with the outer envelope, and a string compares its length with
the whole buffer too.  It is the closing checks that enforce the nesting, and
`Wire.Accepts.envelope` says so once for every body.
-/

namespace RpmaReplica

open Wire

/-! ### The fields -/

lemma accepts_decodeU32 : Accepts decodeU32 fun bs x => bs = encodeU32 x := by
  refine ((accepts_natLE 4).map UInt32.ofNat).congr fun bs x => ?_
  constructor
  · rintro ⟨n, ⟨hn, rfl⟩, rfl⟩
    rw [encodeU32, UInt32.toNat_ofNat_of_lt' hn]
  · rintro rfl
    exact ⟨x.toNat, ⟨x.toNat_lt, rfl⟩, UInt32.ofNat_toNat⟩

lemma accepts_decodeU64 : Accepts decodeU64 fun bs x => bs = encodeU64 x := by
  refine ((accepts_natLE 8).map UInt64.ofNat).congr fun bs x => ?_
  constructor
  · rintro ⟨n, ⟨hn, rfl⟩, rfl⟩
    rw [encodeU64, UInt64.toNat_ofNat_of_lt' hn]
  · rintro rfl
    exact ⟨x.toNat, ⟨x.toNat_lt, rfl⟩, UInt64.ofNat_toNat⟩

lemma accepts_decodeInt : Accepts decodeInt fun bs x => bs = encodeInt x := by
  refine (accepts_decodeU32.map UInt32.toInt32).congr fun bs x => ?_
  constructor
  · rintro ⟨u, rfl, rfl⟩
    rw [encodeInt, UInt32.toUInt32_toInt32]
  · rintro rfl
    exact ⟨x.toUInt32, rfl, Int32.toInt32_toUInt32 x⟩

/-! ### The nested parts -/

/-- An envelope that a reader of version 1 may read, whose payload starts with `payload`. -/
def Enveloped (payload bs : Bytes) : Prop :=
  ∃ v compat more, UInt8.toNat compat ≤ 1 ∧ (payload ++ more).length < 256 ^ 4 ∧
    bs = envelope v compat (payload ++ more)

lemma Enveloped.length_le {payload bs : Bytes} (h : Enveloped payload bs) :
    6 + payload.length ≤ bs.length := by
  obtain ⟨v, compat, more, -, -, rfl⟩ := h
  simp

/-- A body that accepts the payloads of values, inside its envelope. -/
lemma accepts_enveloped {α : Type} {body : Decoder α} {payload : α → Bytes} {Q : α → Prop}
    (h : Accepts body fun bs x => Q x ∧ bs = payload x)
    (hQ : ∀ x, (payload x).length < 256 ^ 4 → Q x) :
    Accepts (inEnvelope 1 body) fun bs x => Enveloped (payload x) bs := by
  refine (h.envelope 1).congr fun bs x => ?_
  constructor
  · rintro ⟨v, compat, p, more, hcompat, hlen, ⟨-, rfl⟩, rfl⟩
    exact ⟨v, compat, more, hcompat, hlen, rfl⟩
  · rintro ⟨v, compat, more, hcompat, hlen, rfl⟩
    have hp : (payload x).length < 256 ^ 4 := by
      rw [List.length_append] at hlen
      omega
    exact ⟨v, compat, _, more, hcompat, hlen, ⟨hQ x hp, rfl⟩, rfl⟩

lemma RwlCacheInfo.accepts_decode :
    Accepts RwlCacheInfo.decode fun bs x => Enveloped x.payload bs := by
  refine accepts_enveloped (Q := fun x => x.poolName.length < 256 ^ 4 ∧
    x.imageName.length < 256 ^ 4) ?_ ?_
  · refine (accepts_decodeU32.bind fun cacheId => accepts_decodeU64.bind fun cacheSize =>
      accepts_blob.bind fun poolName => accepts_blob.map fun imageName =>
        ({ cacheId, cacheSize, poolName, imageName } : RwlCacheInfo)).congr fun bs x => ?_
    constructor
    · rintro ⟨_, _, id, rfl, rfl, _, _, size, rfl, rfl, _, _, pool, rfl, ⟨hpool, rfl⟩, image,
        ⟨himage, rfl⟩, rfl⟩
      exact ⟨⟨hpool, himage⟩, rfl⟩
    · rintro ⟨⟨hpool, himage⟩, rfl⟩
      exact ⟨_, _, x.cacheId, rfl, rfl, _, _, x.cacheSize, rfl, rfl, _, _, x.poolName, rfl,
        ⟨hpool, rfl⟩, x.imageName, ⟨himage, rfl⟩, rfl⟩
  · intro x hx
    simp only [RwlCacheInfo.payload, List.length_append, length_blob] at hx
    omega

lemma RpmaConfigDescriptor.accepts_decode :
    Accepts RpmaConfigDescriptor.decode fun bs x => Enveloped x.payload bs := by
  refine accepts_enveloped (Q := fun x => x.descriptors.length < 256 ^ 4) ?_ ?_
  · refine (accepts_decodeU32.bind fun mrDescSize => accepts_decodeU32.bind fun pcfgDescSize =>
      accepts_blob.map fun descriptors =>
        ({ mrDescSize, pcfgDescSize, descriptors } : RpmaConfigDescriptor)).congr fun bs x => ?_
    constructor
    · rintro ⟨_, _, mr, rfl, rfl, _, _, pcfg, rfl, rfl, ds, ⟨hds, rfl⟩, rfl⟩
      exact ⟨hds, rfl⟩
    · rintro ⟨hds, rfl⟩
      exact ⟨_, _, x.mrDescSize, rfl, rfl, _, _, x.pcfgDescSize, rfl, rfl, x.descriptors,
        ⟨hds, rfl⟩, rfl⟩
  · intro x hx
    simp only [RpmaConfigDescriptor.payload, List.length_append, length_blob] at hx
    omega

/-! ### The messages -/

/-- A message with a nested part: an envelope whose payload starts with a type and behind it
an envelope whose payload starts with the fields `payload`.  Each may hold more bytes than
are listed here. -/
def Framed (type : Int32) (payload bs : Bytes) : Prop :=
  ∃ inner, Enveloped payload inner ∧ Enveloped (encodeInt type ++ inner) bs

/-- A type and a nested part inside an envelope. -/
lemma accepts_framed {α β : Type} {d : Decoder α} {payload : α → Bytes}
    (hd : Accepts d fun bs x => Enveloped (payload x) bs) (mk : Int32 → α → β)
    (type : β → Int32) (part : β → α) (hmk : ∀ t x b, mk t x = b ↔ type b = t ∧ part b = x) :
    Accepts (inEnvelope 1 do
      let t ← decodeInt
      let x ← d
      return mk t x) fun bs b => Framed (type b) (payload (part b)) bs := by
  refine ((accepts_decodeInt.bind fun t => hd.map (mk t)).envelope 1).congr fun bs b => ?_
  constructor
  · rintro ⟨v, compat, _, more, hcompat, hlen, ⟨_, inner, t, rfl, rfl, x, hx, hb⟩, rfl⟩
    obtain ⟨rfl, rfl⟩ := (hmk _ _ _).1 hb
    exact ⟨inner, hx, v, compat, more, hcompat, hlen, rfl⟩
  · rintro ⟨inner, hx, v, compat, more, hcompat, hlen, rfl⟩
    exact ⟨v, compat, _, more, hcompat, hlen,
      ⟨_, inner, _, rfl, rfl, _, hx, (hmk _ _ _).2 ⟨rfl, rfl⟩⟩, rfl⟩

lemma RwlReplicaRequest.accepts_decode :
    Accepts RwlReplicaRequest.decode fun bs x => Enveloped (encodeInt x.type) bs := by
  refine accepts_enveloped (Q := fun _ => True) ?_ fun _ _ => trivial
  refine (accepts_decodeInt.map RwlReplicaRequest.mk).congr fun bs x => ?_
  constructor
  · rintro ⟨t, rfl, rfl⟩
    exact ⟨trivial, rfl⟩
  · rintro ⟨-, rfl⟩
    exact ⟨x.type, rfl, rfl⟩

lemma RwlReplicaInitRequest.accepts_decode :
    Accepts RwlReplicaInitRequest.decode fun bs x => Framed x.type x.info.payload bs := by
  refine accepts_framed RwlCacheInfo.accepts_decode
    (fun type info => ({ type, info } : RwlReplicaInitRequest)) (fun x => x.type)
    (fun x => x.info) ?_
  rintro t info ⟨⟨t'⟩, info'⟩
  simp [eq_comm]

lemma RwlReplicaInitRequestReply.accepts_decode :
    Accepts RwlReplicaInitRequestReply.decode fun bs x => Framed x.type x.desc.payload bs := by
  refine accepts_framed RpmaConfigDescriptor.accepts_decode
    (fun type desc => ({ type, desc } : RwlReplicaInitRequestReply)) (fun x => x.type)
    (fun x => x.desc) ?_
  rintro t desc ⟨⟨t'⟩, desc'⟩
  simp [eq_comm]

/-! ### Which buffers are accepted -/

/-- A decoder of a format, at the start of a buffer. -/
lemma Wire.Accepts.start {α : Type} {d : Decoder α} {F : Bytes → α → Prop} (h : Accepts d F)
    (buf : Bytes) (x : α) (c : Cursor) :
    d (Cursor.start buf) = .ok (x, c) ↔ ∃ bs, F bs x ∧ buf = bs ++ c.rest ∧ c.off = bs.length := by
  rw [h]
  simp [Cursor.start]

/-- A decoder throws on every buffer that does not begin with its format. -/
lemma Wire.Accepts.throws {α : Type} {d : Decoder α} {F : Bytes → α → Prop} (h : Accepts d F)
    {buf : Bytes} (hbuf : ∀ x bs rest, F bs x → buf ≠ bs ++ rest) :
    ∃ e, d (Cursor.start buf) = .error e := by
  rcases hd : d (Cursor.start buf) with e | ⟨x, c⟩
  · exact ⟨e, rfl⟩
  · obtain ⟨bs, hF, hrest, -⟩ := (h.start buf x c).1 hd
    exact absurd hrest (hbuf x bs c.rest hF)

/-- **The decoders accept exactly their format.**  On any buffer, the decoder of INIT requests
succeeds with `x` if and only if the buffer begins with a message of the type and the fields
of `x`, and the iterator then stands exactly behind that message; on every buffer that does
not begin with such a message it throws.  The decoder of INIT replies does the same for its
fields. -/
theorem init_decoders_accept_exactly (buf : Bytes) :
    (∀ x c, RwlReplicaInitRequest.decode (Cursor.start buf) = .ok (x, c) ↔
      ∃ bs, Framed x.type x.info.payload bs ∧ buf = bs ++ c.rest ∧ c.off = bs.length) ∧
    ((∀ (x : RwlReplicaInitRequest) (bs rest : Bytes), Framed x.type x.info.payload bs →
        buf ≠ bs ++ rest) →
      ∃ e, RwlReplicaInitRequest.decode (Cursor.start buf) = .error e) ∧
    (∀ x c, RwlReplicaInitRequestReply.decode (Cursor.start buf) = .ok (x, c) ↔
      ∃ bs, Framed x.type x.desc.payload bs ∧ buf = bs ++ c.rest ∧ c.off = bs.length) ∧
    ((∀ (x : RwlReplicaInitRequestReply) (bs rest : Bytes), Framed x.type x.desc.payload bs →
        buf ≠ bs ++ rest) →
      ∃ e, RwlReplicaInitRequestReply.decode (Cursor.start buf) = .error e) :=
  ⟨RwlReplicaInitRequest.accepts_decode.start buf, RwlReplicaInitRequest.accepts_decode.throws,
    RwlReplicaInitRequestReply.accepts_decode.start buf,
    RwlReplicaInitRequestReply.accepts_decode.throws⟩

/-- Where the numbers of an accepted INIT reply stand in the buffer: the two sizes, and the length
of the string. -/
lemma RwlReplicaInitRequestReply.wordAt_of_decode {buf : Bytes} {x : RwlReplicaInitRequestReply}
    {c : Cursor} (hdec : RwlReplicaInitRequestReply.decode (Cursor.start buf) = .ok (x, c)) :
    wordAt 16 buf = x.desc.mrDescSize.toNat ∧ wordAt 20 buf = x.desc.pcfgDescSize.toNat ∧
      wordAt 24 buf = x.desc.descriptors.length := by
  obtain ⟨bs, ⟨inner, ⟨v', compat', more', -, hlen', rfl⟩, v, compat, more, -, -, rfl⟩, hbuf, -⟩ :=
    (RwlReplicaInitRequestReply.accepts_decode.start buf x c).1 hdec
  have hstring : x.desc.descriptors.length < 256 ^ 4 := by
    simp only [RpmaConfigDescriptor.payload, List.length_append, length_blob] at hlen'
    omega
  -- what stands before the first of the numbers: the outer header, the type and the inner header
  obtain ⟨outer, houter, heq⟩ := envelope_eq_append v compat
    (encodeInt x.type ++ envelope v' compat' (x.desc.payload ++ more') ++ more)
  obtain ⟨nested, hnested, heq'⟩ := envelope_eq_append v' compat' (x.desc.payload ++ more')
  have hpre : (outer ++ (encodeInt x.type ++ nested)).length = 16 := by simp [houter, hnested]
  have hrest : buf = (outer ++ (encodeInt x.type ++ nested)) ++
      (encodeU32 x.desc.mrDescSize ++ (encodeU32 x.desc.pcfgDescSize ++
        (bytesLE 4 x.desc.descriptors.length ++
          (x.desc.descriptors ++ (more' ++ (more ++ c.rest)))))) := by
    rw [hbuf, heq, heq']
    simp only [RpmaConfigDescriptor.payload, blob, List.append_assoc]
  refine ⟨?_, ?_, ?_⟩
  · rw [hrest]
    exact wordAt_append hpre x.desc.mrDescSize.toNat_lt _
  · rw [hrest, ← List.append_assoc]
    exact wordAt_append (by simp [houter, hnested]) x.desc.pcfgDescSize.toNat_lt _
  · rw [hrest, ← List.append_assoc, ← List.append_assoc]
    exact wordAt_append (by simp [houter, hnested]) hstring _

/-! ### Decoding in two stages -/

/-- What is framed is a message of the base as well. -/
lemma Framed.enveloped {type : Int32} {payload bs : Bytes} (h : Framed type payload bs) :
    Enveloped (encodeInt type) bs := by
  obtain ⟨inner, -, v, compat, more, hcompat, hlen, rfl⟩ := h
  rw [List.append_assoc] at hlen ⊢
  exact ⟨v, compat, inner ++ more, hcompat, hlen, rfl⟩

/-- The base reads from a framed message what the derived decoder reads first. -/
lemma base_of_framed {α : Type} {d : Decoder α} {type : α → Int32} {payload : α → Bytes}
    (h : Accepts d fun bs x => Framed (type x) (payload x) bs) {buf : Bytes} {x : α} {c : Cursor}
    (hx : d (Cursor.start buf) = .ok (x, c)) :
    RwlReplicaRequest.decode (Cursor.start buf) = .ok (⟨type x⟩, c) := by
  obtain ⟨bs, hF, hrest, hoff⟩ := (h.start buf x c).1 hx
  exact (RwlReplicaRequest.accepts_decode.start buf ⟨type x⟩ c).2 ⟨bs, hF.enveloped, hrest, hoff⟩

/-- A message of the base has no room for a nested part, whatever stands behind it. -/
lemma not_framed_base (x : RwlReplicaRequest) {stale rest bs payload : Bytes} {type : Int32}
    (h : Framed type payload bs) : x.encode ++ stale ≠ bs ++ rest := by
  intro heq
  obtain ⟨inner, hinner, v, compat, more, -, hlen, rfl⟩ := h
  obtain ⟨hpayload, -⟩ := envelope_inj (by simp) hlen heq
  have hcount := congrArg List.length hpayload
  simp only [length_encodeInt, List.length_append] at hcount
  have := hinner.length_le
  omega

/-- **Two-stage decoding is consistent.**  Where a derived decoder succeeds, the base succeeds
too, with the same type and the same final position; and a message written by the base is
never accepted by a derived decoder, whatever an earlier message left behind it. -/
theorem two_stage_decoding :
    (∀ (buf : Bytes) (x : RwlReplicaInitRequest) (c : Cursor),
      RwlReplicaInitRequest.decode (Cursor.start buf) = .ok (x, c) →
        RwlReplicaRequest.decode (Cursor.start buf) = .ok (⟨x.type⟩, c)) ∧
    (∀ (buf : Bytes) (x : RwlReplicaInitRequestReply) (c : Cursor),
      RwlReplicaInitRequestReply.decode (Cursor.start buf) = .ok (x, c) →
        RwlReplicaRequest.decode (Cursor.start buf) = .ok (⟨x.type⟩, c)) ∧
    (∀ (x : RwlReplicaRequest) (stale : Bytes),
      (∃ e, RwlReplicaInitRequest.decode (Cursor.start (x.encode ++ stale)) = .error e) ∧
      (∃ e, RwlReplicaInitRequestReply.decode (Cursor.start (x.encode ++ stale)) = .error e)) := by
  refine ⟨fun buf x c => base_of_framed RwlReplicaInitRequest.accepts_decode,
    fun buf x c => base_of_framed RwlReplicaInitRequestReply.accepts_decode, fun x stale => ?_⟩
  constructor
  · exact RwlReplicaInitRequest.accepts_decode.throws fun _ _ _ h => not_framed_base x h
  · exact RwlReplicaInitRequestReply.accepts_decode.throws fun _ _ _ h => not_framed_base x h

/-- An INIT request for a replica without a name. -/
def namelessInit : RwlReplicaInitRequest := ⟨⟨rwlReplicaInitRequest⟩, ⟨1, 64, [], []⟩⟩

/-- The base reads the type of an INIT request and stops where the request ends. -/
theorem two_stage_decoding_nameless :
    RwlReplicaInitRequest.decode (Cursor.start (namelessInit.encode ++ [7])) =
        .ok (namelessInit, ⟨36, [7]⟩) ∧
      RwlReplicaRequest.decode (Cursor.start (namelessInit.encode ++ [7])) =
        .ok (⟨rwlReplicaInitRequest⟩, ⟨36, [7]⟩) := by
  have hlen : namelessInit.encode.length = 36 := by
    rw [RwlReplicaInitRequest.length_encode]
    rfl
  have hdec : RwlReplicaInitRequest.decode (Cursor.start (namelessInit.encode ++ [7])) =
      .ok (namelessInit, ⟨36, [7]⟩) := by
    rw [(namelessInit.reads_encode (by rw [hlen]; decide)).start, hlen]
  exact ⟨hdec, two_stage_decoding.1 _ _ _ hdec⟩

end RpmaReplica
