import RpmaReplica.Formats
import RpmaReplica.Agreement

/-!
# What the client reads of a reply

A reply carries two descriptors in one string, and the size of each in front of it.  The three
numbers on the wire, the two sizes and the length of the string, are decoded independently of each
other, and `get_remote_descriptor` hands librpma the ranges that the sizes describe without
comparing them with the string.  The server sends numbers that agree (`Agreement`); for which
replies of anybody the client stays inside the string is settled here, by the numbers as they
stand in the receive buffer (`descriptor_reads_inside_iff`).
-/

namespace RpmaReplica

namespace ClientHandler

open Agreement (receiving sampleRemote)

/-! ### The ranges handed to librpma -/

/-- A range of bytes inside a string. -/
structure Slice where
  src : Bytes
  off : ℕ
  len : ℕ
  deriving DecidableEq, Repr

/-- The range lies within the string. -/
def Slice.Inside (r : Slice) : Prop := r.off + r.len ≤ r.src.length

/-- The range that a call hands to one of the two constructors of librpma. -/
def descriptorSlice : Call → Option Slice
  | .peerCfgFromDescriptor src off len _ => some ⟨src, off, len⟩
  | .mrRemoteFromDescriptor src off len _ => some ⟨src, off, len⟩
  | _ => none

/-- The ranges that a program hands to librpma, in the order in which it does. -/
def handed {ρ : Type} (o : Outcome Call Stop ClientHandler ρ) : List Slice :=
  (o.calls.map Prod.snd).filterMap descriptorSlice

variable {env : RemoteEnv} {h : ClientHandler} {reply : RwlReplicaInitRequestReply}
  {c : Wire.Cursor}

/-- The range of the peer configuration. -/
def pcfgSlice (desc : RpmaConfigDescriptor) : Slice :=
  ⟨desc.descriptors, desc.mrDescSize.toNat, desc.pcfgDescSize.toNat⟩

/-- The range of the region. -/
def mrSlice (desc : RpmaConfigDescriptor) : Slice :=
  ⟨desc.descriptors, 0, desc.mrDescSize.toNat⟩

instance (r : Slice) : Decidable r.Inside := inferInstanceAs (Decidable (_ ≤ _))

/-- **What `get_remote_descriptor` hands to librpma**: the range of the peer configuration, if
there is one, and then the range of the region. -/
lemma handed_getRemoteDescriptor
    (hdec : RwlReplicaInitRequestReply.decode h.recvBl.cbegin = .ok (reply, c))
    (htype : reply.type = rwlReplicaInitSuccessed) :
    handed (getRemoteDescriptor env h) =
      if reply.desc.pcfgDescSize = 0 then [mrSlice reply.desc]
      else [pcfgSlice reply.desc, mrSlice reply.desc] := by
  rw [handed, getRemoteDescriptor_eq hdec htype, pcfgCalls]
  by_cases hsize : reply.desc.pcfgDescSize = 0
  · simp [hsize, descriptorSlice, mrSlice]
  · rw [if_neg hsize, if_neg hsize]
    rfl

/-- All the ranges that are handed over lie within the string if and only if the two sizes
together do not exceed its length. -/
lemma handed_inside_iff
    (hdec : RwlReplicaInitRequestReply.decode h.recvBl.cbegin = .ok (reply, c))
    (htype : reply.type = rwlReplicaInitSuccessed) :
    (∀ r ∈ handed (getRemoteDescriptor env h), r.Inside) ↔
      reply.desc.mrDescSize.toNat + reply.desc.pcfgDescSize.toNat ≤
        reply.desc.descriptors.length := by
  rw [handed_getRemoteDescriptor hdec htype]
  by_cases hsize : reply.desc.pcfgDescSize = 0
  · simp [hsize, Slice.Inside, mrSlice]
  · rw [if_neg hsize, List.forall_mem_cons, List.forall_mem_singleton]
    refine ⟨fun hall => hall.1, fun hinside => ⟨hinside, ?_⟩⟩
    show 0 + reply.desc.mrDescSize.toNat ≤ reply.desc.descriptors.length
    omega

/-- **When the client stays inside the string.**  For every receive buffer on which the decoder
succeeds with a reply that announces a region, whatever librpma answers: the ranges that
`get_remote_descriptor` hands to librpma lie within the decoded string if and only if the numbers
that stand at the offsets 16 and 20 of the buffer add up to no more than the one at 24. -/
theorem descriptor_reads_inside_iff (env : RemoteEnv) (h : ClientHandler)
    {reply : RwlReplicaInitRequestReply} {c : Wire.Cursor}
    (hdec : RwlReplicaInitRequestReply.decode h.recvBl.cbegin = .ok (reply, c))
    (htype : reply.type = rwlReplicaInitSuccessed) :
    (∀ r ∈ handed (getRemoteDescriptor env h), r.src = reply.desc.descriptors ∧ r.Inside) ↔
      Wire.wordAt 16 h.recvBl.bytes + Wire.wordAt 20 h.recvBl.bytes ≤
        Wire.wordAt 24 h.recvBl.bytes := by
  obtain ⟨hmr, hpcfg, hlen⟩ := RwlReplicaInitRequestReply.wordAt_of_decode hdec
  have hinside : (∀ r ∈ handed (getRemoteDescriptor env h), r.Inside) ↔ _ :=
    handed_inside_iff hdec htype
  rw [hmr, hpcfg, hlen, ← hinside]
  -- whatever is handed over is taken from that string
  have hsrc : ∀ r ∈ handed (getRemoteDescriptor env h), r.src = reply.desc.descriptors := by
    rw [handed_getRemoteDescriptor hdec htype]
    intro r hr
    split at hr
    · obtain rfl := List.mem_singleton.1 hr
      rfl
    · rcases List.mem_cons.1 hr with rfl | hr
      · rfl
      · obtain rfl := List.mem_singleton.1 hr
        rfl
  exact ⟨fun hall r hr => (hall r hr).2, fun hall r hr => ⟨hsrc r hr, hall r hr⟩⟩

/-- A client that has received a reply. -/
def replied (x : RwlReplicaInitRequestReply) (hlen : x.encode.length < msgSize) : ClientHandler :=
  receiving created (holding x.encode hlen)

lemma decode_replied (x : RwlReplicaInitRequestReply) (hlen : x.encode.length < msgSize) :
    ∃ c, RwlReplicaInitRequestReply.decode (replied x hlen).recvBl.cbegin = .ok (x, c) :=
  ⟨_, (x.reads_encode (hlen.trans (by decide))).memcpy MsgBuf.zero hlen.le⟩

/-- A reply with three bytes for the region and one for the peer configuration. -/
def sampleReply : RwlReplicaInitRequestReply := ⟨⟨rwlReplicaInitSuccessed⟩, ⟨3, 1, [7, 8, 9, 1]⟩⟩

lemma length_sampleReply : sampleReply.encode.length < msgSize := by
  rw [RwlReplicaInitRequestReply.length_encode]
  decide

/-- The sizes 3 and 1 fit a string of 4 bytes. -/
theorem sampleReply_reads_inside :
    sampleReply.type = rwlReplicaInitSuccessed ∧
      ∀ r ∈ handed (getRemoteDescriptor sampleRemote (replied sampleReply length_sampleReply)),
        r.src = [7, 8, 9, 1] ∧ r.Inside := by
  obtain ⟨c, hdec⟩ := decode_replied sampleReply length_sampleReply
  refine ⟨rfl, (descriptor_reads_inside_iff sampleRemote _ hdec rfl).2 ?_⟩
  obtain ⟨hmr, hpcfg, hlen⟩ := RwlReplicaInitRequestReply.wordAt_of_decode hdec
  rw [hmr, hpcfg, hlen]
  decide

/-- The message of `test_demo.cc`, as a reply: the sizes 10 and 1, and the string `abcdef`. -/
def testReply : RwlReplicaInitRequestReply :=
  ⟨⟨rwlReplicaInitSuccessed⟩, ⟨10, 1, ascii "abcdef"⟩⟩

lemma length_testReply : testReply.encode.length < msgSize := by
  rw [RwlReplicaInitRequestReply.length_encode]
  decide

/-- **A read beyond the end.**  On that reply the client takes the peer configuration from the
offset 10 of a string of 6 bytes. -/
theorem testReply_read_beyond :
    (∃ c, RwlReplicaInitRequestReply.decode (replied testReply length_testReply).recvBl.cbegin =
      .ok (testReply, c)) ∧ testReply.type = rwlReplicaInitSuccessed ∧
    ∃ r ∈ handed (getRemoteDescriptor sampleRemote (replied testReply length_testReply)),
      r = ⟨ascii "abcdef", 10, 1⟩ ∧ ¬r.Inside := by
  obtain ⟨c, hdec⟩ := decode_replied testReply length_testReply
  refine ⟨⟨c, hdec⟩, rfl, pcfgSlice testReply.desc, ?_, rfl, by decide⟩
  rw [handed_getRemoteDescriptor hdec rfl, if_neg (by decide)]
  exact List.mem_cons_self

end ClientHandler

end RpmaReplica
