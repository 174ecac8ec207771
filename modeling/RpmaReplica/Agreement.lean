import RpmaReplica.InitReplica
import RpmaReplica.Serving

/-!
# The two ends agree on the region

The server packs two descriptors into one string with two sizes, and chooses by whether its
memory is persistent both the usage of the region and the direct-write flag of the peer
configuration.  The client takes the string apart and chooses the flush type by the flag.
This file puts `register_mr_to_descriptor` and `get_remote_descriptor` together: the client
hands librpma the very bytes that the server got from it, and its flush type is one that the
region allows.
-/

namespace RpmaReplica

namespace Agreement

open RPMAHandler ClientHandler

/-! ### The packed descriptors -/

/-- Two descriptors in one string. -/
def packed (mr pcfg : Bytes) : RpmaConfigDescriptor :=
  ⟨UInt32.ofNat mr.length, UInt32.ofNat pcfg.length, mr ++ pcfg⟩

section Packed

variable {mr pcfg : Bytes} (hlen : mr.length + pcfg.length < 4068)
include hlen

lemma mrDescSize_packed : (packed mr pcfg).mrDescSize.toNat = mr.length :=
  UInt32.toNat_ofNat_of_lt' (by simp [UInt32.size]; omega)

lemma pcfgDescSize_packed : (packed mr pcfg).pcfgDescSize.toNat = pcfg.length :=
  UInt32.toNat_ofNat_of_lt' (by simp [UInt32.size]; omega)

lemma mrRange_packed (env : RemoteEnv) : mrRange env (packed mr pcfg) = mr := by
  rw [mrRange, mrDescSize_packed hlen, rangeOf_inside (by simp [packed])]
  simp [packed]

lemma pcfgRange_packed (env : RemoteEnv) : pcfgRange env (packed mr pcfg) = pcfg := by
  rw [pcfgRange, mrDescSize_packed hlen, pcfgDescSize_packed hlen,
    rangeOf_inside (by simp [packed])]
  simp [packed]

lemma pcfgDescSize_packed_ne_zero (hpcfg : pcfg ≠ []) : (packed mr pcfg).pcfgDescSize ≠ 0 := by
  intro hzero
  have hsize := pcfgDescSize_packed hlen
  rw [hzero] at hsize
  exact hpcfg (List.eq_nil_of_length_eq_zero hsize.symm)

lemma length_initReply_packed : (initReply (packed mr pcfg)).encode.length < msgSize := by
  rw [RwlReplicaInitRequestReply.length_encode, msgSize]
  simp only [initReply, packed, List.length_append]
  omega

end Packed

/-! ### What is handed to librpma -/

/-- The bytes that a call hands to `rpma_peer_cfg_from_descriptor`, if they lie within the
string it takes them from. -/
def pcfgDescriptor : Call → Option Bytes
  | .peerCfgFromDescriptor src off len _ =>
    if off + len ≤ src.length then some ((src.drop off).take len) else none
  | _ => none

/-- The bytes that a call hands to `rpma_mr_remote_from_descriptor`, if they lie within the
string it takes them from. -/
def mrDescriptor : Call → Option Bytes
  | .mrRemoteFromDescriptor src off len _ =>
    if off + len ≤ src.length then some ((src.drop off).take len) else none
  | _ => none

/-! ### The two functions -/

/-- The librpma calls of both ends succeed, and a peer configuration made from a descriptor
has the flag of the one described. -/
structure Working (server : MrEnv) (client : RemoteEnv) : Prop where
  describes : server.Describes
  getDirectWriteToPmem : client.peerCfgGetDirectWriteToPmem = .ok ()
  recovers : ∀ direct, client.peerCfgFromDescriptor (server.peerCfgDescriptor direct) = .ok direct

variable {env : MrEnv} {d : Bytes} {h : RPMAHandler}

/-- `register_mr_to_descriptor` starts by registering the memory. -/
lemma mem_calls_register (hreg : env.mrReg = .ok d) (op : RpmaOpcode) (h : RPMAHandler) :
    .mrReg h.dataManager.data h.dataManager.size (mrUsage op h.dataManager.isPmem)
      (.ok (newMr h op d)) ∈ (registerMrToDescriptor env op h).calls.map Prod.snd := by
  rw [registerMrToDescriptor]
  simp only [Exec.bind_apply, Exec.read_apply, Exec.call_apply, Outcome.andThen_ok, hreg,
    Except.map, List.nil_append, List.cons_append, List.map_cons, List.mem_cons, true_or]

/-- The message that the server prepares. -/
lemma register_packed (henv : env.Describes) (hreg : env.mrReg = .ok d)
    (hlen : d.length + (env.peerCfgDescriptor h.dataManager.isPmem).length < 4068) :
    (registerMrToDescriptor env .flush h).result = .ok 0 ∧
      (registerMrToDescriptor env .flush h).state =
        { h with
          dataMr := some (newMr h .flush d)
          sendBl := h.sendBl.memcpy
            (initReply (packed d (env.peerCfgDescriptor h.dataManager.isPmem))).encode
            (length_initReply_packed hlen).le } :=
  (registration env .flush h).eq_replied hreg (describe_flush henv _ d hlen)
    (length_initReply_packed hlen)

/-- A client in whose receive buffer a message has arrived. -/
def receiving (client : ClientHandler) (message : MsgBuf) : ClientHandler :=
  { client with recvBl := message }

/-- What the client makes of it: the two ranges are the two descriptors, and the flag is that
of the server. -/
lemma getRemoteDescriptor_packed (remote : RemoteEnv) (client : ClientHandler) {pcfg : Bytes}
    {isPmem : Bool} (hlen : d.length + pcfg.length < 4068) (hpcfg : pcfg ≠ [])
    (hget : remote.peerCfgGetDirectWriteToPmem = .ok ())
    (hflag : remote.peerCfgFromDescriptor pcfg = .ok isPmem) {c : Wire.Cursor}
    (hdec : RwlReplicaInitRequestReply.decode client.recvBl.cbegin =
      .ok (initReply (packed d pcfg), c)) :
    ((getRemoteDescriptor remote client).calls.map Prod.snd).filterMap pcfgDescriptor = [pcfg] ∧
    ((getRemoteDescriptor remote client).calls.map Prod.snd).filterMap mrDescriptor = [d] ∧
    ((getRemoteDescriptor remote client).result = .ok 0 →
      (getRemoteDescriptor remote client).state.flushType =
        if isPmem then .persistent else .visibility) := by
  have hne := pcfgDescSize_packed_ne_zero hlen hpcfg
  have hlook : getRemoteDescriptor remote client = _ := getRemoteDescriptor_eq hdec rfl
  have hcalls : (getRemoteDescriptor remote client).calls.map Prod.snd =
      [.peerCfgFromDescriptor (d ++ pcfg) d.length pcfg.length (.ok isPmem),
        .mrRemoteFromDescriptor (d ++ pcfg) 0 d.length (remote.mrRemoteFromDescriptor d)] := by
    rw [hlook]
    simp only [initReply, pcfgCalls, if_neg hne, mrRange_packed hlen, pcfgRange_packed hlen,
      mrDescSize_packed hlen, pcfgDescSize_packed hlen, hflag]
    rfl
  refine ⟨?_, ?_, ?_⟩
  · simp [hcalls, List.filterMap_cons, pcfgDescriptor]
  · simp [hcalls, List.filterMap_cons, mrDescriptor]
  · rw [hlook]
    show (.ok (lookedRet remote (packed d pcfg) client) : Except Stop ℤ) = .ok 0 →
      (looked remote (packed d pcfg) client).flushType = _
    intro hret
    have hdirect : directWrite remote (packed d pcfg) = isPmem := by
      rw [directWrite, if_neg hne, pcfgRange_packed hlen, hflag, hget]
    -- the other return is -1
    have hsize : ¬(imageMrSize remote (newImageMr remote (packed d pcfg) client.imageMr)).2 <
        client.imageSize := by
      intro hlt
      simp [lookedRet, hlt] at hret
    simp [looked, hsize, hdirect]

/-- **The two ends agree.**  From the message that the server prepares the client takes
exactly the two descriptors, and if it accepts the region, it flushes to persistence exactly
if the server has registered the region for that, which is when the memory is persistent. -/
theorem descriptors_and_flush_type_agree {env : MrEnv} {remote : RemoteEnv}
    (hworking : Working env remote) {d : Bytes} (hreg : env.mrReg = .ok d) (server : RPMAHandler)
    (hpcfg : env.peerCfgDescriptor server.dataManager.isPmem ≠ [])
    (hlen : d.length + (env.peerCfgDescriptor server.dataManager.isPmem).length < 4068)
    (client : ClientHandler) :
    ∃ mr : MrLocal,
      (registerMrToDescriptor env .flush server).result = .ok 0 ∧
      (registerMrToDescriptor env .flush server).state.dataMr = some mr ∧
      mr.descriptor = d ∧
      .mrReg mr.ptr mr.size mr.usage (.ok mr) ∈
        (registerMrToDescriptor env .flush server).calls.map Prod.snd ∧
      let received := getRemoteDescriptor remote
        (receiving client (registerMrToDescriptor env .flush server).state.sendBl)
      (received.calls.map Prod.snd).filterMap mrDescriptor = [d] ∧
      (received.calls.map Prod.snd).filterMap pcfgDescriptor =
        [env.peerCfgDescriptor server.dataManager.isPmem] ∧
      (received.result = .ok 0 → (received.state.flushType = .persistent ↔ mr.Persistent)) ∧
      (mr.Persistent ↔ server.dataManager.isPmem = true) := by
  obtain ⟨hres, hstate⟩ := register_packed hworking.describes hreg hlen
  refine ⟨newMr server .flush d, hres, by rw [hstate], rfl, mem_calls_register hreg .flush server,
    ?_⟩
  rw [hstate]
  have hmsg := length_initReply_packed hlen
  have hdec := (RwlReplicaInitRequestReply.reads_encode
    (initReply (packed d (env.peerCfgDescriptor server.dataManager.isPmem)))
    (hmsg.trans (by decide))).memcpy server.sendBl hmsg.le
  have hpersistent : (newMr server .flush d).Persistent ↔ server.dataManager.isPmem = true :=
    mrUsage_flush_persistent server.dataManager.isPmem
  obtain ⟨hcfg, hmr, hflush⟩ := getRemoteDescriptor_packed remote
    (receiving client (server.sendBl.memcpy
      (initReply (packed d (env.peerCfgDescriptor server.dataManager.isPmem))).encode hmsg.le))
    hlen hpcfg hworking.getDirectWriteToPmem (hworking.recovers _) hdec
  refine ⟨hmr, hcfg, fun hzero => ?_, hpersistent⟩
  rw [hpersistent, hflush hzero]
  cases server.dataManager.isPmem <;> simp

/-- A client whose peer configurations are described by one byte. -/
def sampleRemote : RemoteEnv where
  peerCfgFromDescriptor bs := .ok (bs ≠ [0])
  peerCfgGetDirectWriteToPmem := .ok ()
  mrRemoteFromDescriptor _ := .ok ⟨0, 64⟩
  mrRemoteGetSize := .ok ()
  uninitSize := 0
  beyond _ := 0

/-- A server that has mapped persistent memory. -/
def pmemServer : RPMAHandler :=
  { RPMAHandler.create MsgBuf.zero MsgBuf.zero 0 with dataManager := ⟨some 4096, 64, true, []⟩ }

/-- On persistent memory the client flushes to persistence. -/
theorem pmem_flush_type_agree :
    ∃ mr : MrLocal,
      (registerMrToDescriptor (workingMr [7]) .flush pmemServer).state.dataMr = some mr ∧
      mr.Persistent ∧
      let received := getRemoteDescriptor sampleRemote (receiving ClientHandler.created
        (registerMrToDescriptor (workingMr [7]) .flush pmemServer).state.sendBl)
      (received.calls.map Prod.snd).filterMap mrDescriptor = [[7]] ∧
      received.result = .ok 0 ∧ received.state.flushType = .persistent := by
  have hworking : Working (workingMr [7]) sampleRemote := {
    describes := workingMr_describes [7]
    getDirectWriteToPmem := rfl
    recovers := fun direct => by cases direct <;> rfl }
  obtain ⟨mr, -, hmr, -, -, hbytes, -, hflush, hpersistent⟩ := descriptors_and_flush_type_agree
    hworking rfl pmemServer (by decide) (by decide) ClientHandler.created
  have hmem : mr.Persistent := hpersistent.2 (by simp only [pmemServer])
  have hzero : (getRemoteDescriptor sampleRemote (receiving ClientHandler.created
      (registerMrToDescriptor (workingMr [7]) .flush pmemServer).state.sendBl)).result = .ok 0 := by
    obtain ⟨-, hstate⟩ := register_packed (h := pmemServer) (workingMr_describes [7]) rfl
      (by decide)
    have hmsg : (initReply (packed [7] ((workingMr [7]).peerCfgDescriptor true))).encode.length <
      msgSize := length_initReply_packed (by decide)
    have hdec := (RwlReplicaInitRequestReply.reads_encode _
      (hmsg.trans (by decide))).memcpy MsgBuf.zero hmsg.le
    have hlook : getRemoteDescriptor sampleRemote (receiving ClientHandler.created
      (MsgBuf.zero.memcpy _ hmsg.le)) = _ := getRemoteDescriptor_eq hdec rfl
    rw [hstate]
    exact congrArg Outcome.result hlook
  exact ⟨mr, hmr, hmem, hbytes, hzero, (hflush hzero).2 hmem⟩

end Agreement

end RpmaReplica
