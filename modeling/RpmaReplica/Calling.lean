import RpmaReplica.ClientHandler

/-!
# What the client's calls do

One fact for each function of `ClientHandler` that takes part in a call, so that no later
proof unfolds them: what `get_remote_descriptor` does with a reply, what the callbacks do,
what the waiting loop amounts to, and what the two posts leave behind.
-/

namespace RpmaReplica

namespace ClientHandler

/-! ### What `get_remote_descriptor` does -/

/-- A range inside the string is a piece of it. -/
lemma rangeOf_inside {env : RemoteEnv} {src : Bytes} {off len : ℕ} (h : off + len ≤ src.length) :
    rangeOf env src off len = (src.drop off).take len := by
  refine List.ext_getElem ?_ fun i hi _ => ?_
  · rw [rangeOf, List.length_map, List.length_range, List.length_take, List.length_drop]
    omega
  · have hlt : i < len := by simpa [rangeOf] using hi
    have hsome : src[off + i]? = some src[off + i] := List.getElem?_eq_getElem (by omega)
    simp [rangeOf, hsome]

/-- The bytes of the region's descriptor. -/
def mrRange (env : RemoteEnv) (desc : RpmaConfigDescriptor) : Bytes :=
  rangeOf env desc.descriptors 0 desc.mrDescSize.toNat

/-- The bytes of the peer configuration's descriptor. -/
def pcfgRange (env : RemoteEnv) (desc : RpmaConfigDescriptor) : Bytes :=
  rangeOf env desc.descriptors desc.mrDescSize.toNat desc.pcfgDescSize.toNat

/-- The direct-write flag that the client gets out of a reply. -/
def directWrite (env : RemoteEnv) (desc : RpmaConfigDescriptor) : Bool :=
  if desc.pcfgDescSize = 0 then false
  else
    match env.peerCfgFromDescriptor (pcfgRange env desc), env.peerCfgGetDirectWriteToPmem with
    | .ok direct, .ok _ => direct
    | _, _ => false

/-- The calls by which the peer configuration of a reply is looked at. -/
def pcfgCalls (env : RemoteEnv) (desc : RpmaConfigDescriptor) : List Call :=
  if desc.pcfgDescSize = 0 then []
  else [.peerCfgFromDescriptor desc.descriptors desc.mrDescSize.toNat desc.pcfgDescSize.toNat
    (env.peerCfgFromDescriptor (pcfgRange env desc))]

/-- `_image_mr` after a reply has been looked at. -/
def newImageMr (env : RemoteEnv) (desc : RpmaConfigDescriptor) (old : Option MrRemote) :
    Option MrRemote :=
  match env.mrRemoteFromDescriptor (mrRange env desc) with
  | .ok mr => some mr
  | .error _ => old

variable {env : RemoteEnv} {h : ClientHandler} {desc : RpmaConfigDescriptor}

lemma applyPcfg_eq :
    applyPcfg env desc h = ⟨(pcfgCalls env desc).map fun c => (h, c), h,
      .ok (directWrite env desc)⟩ := by
  rw [applyPcfg, pcfgCalls, directWrite]
  by_cases hsize : desc.pcfgDescSize = 0
  · simp [hsize]
  · simp only [hsize, if_false, Exec.bind_apply, Exec.call_apply, Outcome.andThen_ok]
    rw [← pcfgRange]
    rcases env.peerCfgFromDescriptor (pcfgRange env desc) with e | d <;>
      rcases env.peerCfgGetDirectWriteToPmem with e' | u <;> rfl

lemma createImageMr_eq :
    createImageMr env desc h =
      ⟨[(h, .mrRemoteFromDescriptor desc.descriptors 0 desc.mrDescSize.toNat
          (env.mrRemoteFromDescriptor (mrRange env desc)))],
        { h with imageMr := newImageMr env desc h.imageMr }, .ok ()⟩ := by
  rw [createImageMr, newImageMr]
  simp only [Exec.bind_apply, Exec.call_apply, Outcome.andThen_ok]
  rw [← mrRange]
  cases env.mrRemoteFromDescriptor (mrRange env desc) <;> rfl

/-- The state of the handler after a reply has been looked at to the end: `_image_mr` may be
new, and the flush type is set unless the region is too small. -/
def looked (env : RemoteEnv) (desc : RpmaConfigDescriptor) (h : ClientHandler) : ClientHandler :=
  let imageMr := newImageMr env desc h.imageMr
  if (imageMrSize env imageMr).2 < h.imageSize then { h with imageMr }
  else { h with imageMr, flushType := if directWrite env desc then .persistent else .visibility }

lemma looked_frame (env : RemoteEnv) (desc : RpmaConfigDescriptor) (h : ClientHandler) :
    ∃ flushType, looked env desc h =
      { h with imageMr := newImageMr env desc h.imageMr, flushType } := by
  by_cases hsize : (imageMrSize env (newImageMr env desc h.imageMr)).2 < h.imageSize
  · exact ⟨h.flushType, by simp [looked, hsize]⟩
  · exact ⟨if directWrite env desc then .persistent else .visibility, by simp [looked, hsize]⟩

/-- What `get_remote_descriptor` returns for it. -/
def lookedRet (env : RemoteEnv) (desc : RpmaConfigDescriptor) (h : ClientHandler) : ℤ :=
  let imageMr := newImageMr env desc h.imageMr
  if (imageMrSize env imageMr).2 < h.imageSize then -1 else (imageMrSize env imageMr).1.ret

/-- **What `get_remote_descriptor` does with a reply that announces a region.** -/
lemma getRemoteDescriptor_eq {reply : RwlReplicaInitRequestReply} {c : Wire.Cursor}
    (hdec : RwlReplicaInitRequestReply.decode h.recvBl.cbegin = .ok (reply, c))
    (htype : reply.type = rwlReplicaInitSuccessed) :
    getRemoteDescriptor env h =
      ⟨((pcfgCalls env reply.desc).map fun c => (h, c)) ++
          [(h, .mrRemoteFromDescriptor reply.desc.descriptors 0 reply.desc.mrDescSize.toNat
            (env.mrRemoteFromDescriptor (mrRange env reply.desc)))],
        looked env reply.desc h, .ok (lookedRet env reply.desc h)⟩ := by
  rw [getRemoteDescriptor]
  simp only [Exec.bind_apply, Exec.read_apply, Outcome.andThen_ok]
  rw [decodeFrom_ok hdec]
  simp only [htype, if_true, Outcome.andThen_ok, Exec.bind_apply]
  rw [applyPcfg_eq]
  simp only [Outcome.andThen_ok, Exec.bind_apply]
  rw [createImageMr_eq]
  rw [looked, lookedRet]
  by_cases hsize : (imageMrSize env (newImageMr env reply.desc h.imageMr)).2 < h.imageSize
  · simp [hsize]
  · simp [hsize]

/-- A reply that announces nothing is ignored. -/
lemma getRemoteDescriptor_ignored {reply : RwlReplicaInitRequestReply} {c : Wire.Cursor}
    (hdec : RwlReplicaInitRequestReply.decode h.recvBl.cbegin = .ok (reply, c))
    (htype : reply.type ≠ rwlReplicaInitSuccessed) :
    getRemoteDescriptor env h = ⟨[], h, .ok 0⟩ := by
  rw [getRemoteDescriptor]
  simp only [Exec.bind_apply, Exec.read_apply, Outcome.andThen_ok]
  rw [decodeFrom_ok hdec]
  simp [htype]

/-- A message that is looked at to the end: it can be decoded. -/
def LookedAt (content : MsgBuf) : Prop :=
  ∃ reply c, RwlReplicaInitRequestReply.decode content.cbegin = .ok (reply, c)

/-- The calls made while a reply is looked at. -/
def lookCalls (env : RemoteEnv) (reply : RwlReplicaInitRequestReply) : List Call :=
  if reply.type = rwlReplicaInitSuccessed then
    pcfgCalls env reply.desc ++ [.mrRemoteFromDescriptor reply.desc.descriptors 0
      reply.desc.mrDescSize.toNat (env.mrRemoteFromDescriptor (mrRange env reply.desc))]
  else []

/-- The only region that is made while a reply is looked at is the one it announces. -/
lemma mem_lookCalls {reply : RwlReplicaInitRequestReply} {src : Bytes} {off len : ℕ}
    {mr : MrRemote} (hmem : .mrRemoteFromDescriptor src off len (.ok mr) ∈ lookCalls env reply) :
    env.mrRemoteFromDescriptor (mrRange env reply.desc) = .ok mr := by
  rw [lookCalls, pcfgCalls] at hmem
  split at hmem
  · split at hmem
    · simp only [List.nil_append, List.mem_singleton, Call.mrRemoteFromDescriptor.injEq] at hmem
      exact hmem.2.2.2.symm
    · simp only [List.cons_append, List.nil_append, List.mem_cons, reduceCtorEq, false_or,
        Call.mrRemoteFromDescriptor.injEq, List.not_mem_nil, or_false] at hmem
      exact hmem.2.2.2.symm
  · simp at hmem

/-- What a call of `get_remote_descriptor` that returns has done: apart from `_image_mr` and
the flush type, the handler is as before. -/
structure Looked (env : RemoteEnv) (h : ClientHandler) (reply : RwlReplicaInitRequestReply)
    (o : Outcome Call Stop ClientHandler ℤ) : Prop where
  returned : ∃ ret, o.result = .ok ret
  calls : o.calls.map Prod.snd = lookCalls env reply
  imageMr : o.state.imageMr =
    if reply.type = rwlReplicaInitSuccessed then newImageMr env reply.desc h.imageMr
    else h.imageMr
  base : o.state.toConnectionHandler = h.toConnectionHandler
  locals : o.state.locals = h.locals

/-- `get_remote_descriptor` returns exactly on the messages that are looked at to the end. -/
lemma getRemoteDescriptor_cases (env : RemoteEnv) (h : ClientHandler) :
    (¬LookedAt h.recvBl ∧ ∃ stop, (getRemoteDescriptor env h).result = .error stop) ∨
    (LookedAt h.recvBl ∧ ∃ reply c,
      RwlReplicaInitRequestReply.decode h.recvBl.cbegin = .ok (reply, c) ∧
      Looked env h reply (getRemoteDescriptor env h)) := by
  rcases hdec : RwlReplicaInitRequestReply.decode h.recvBl.cbegin with e | ⟨reply, c⟩
  · left
    refine ⟨?_, .thrown (.bufferError e), ?_⟩
    · rintro ⟨reply, c, hdec'⟩
      simp [hdec] at hdec'
    · rw [getRemoteDescriptor]
      simp only [Exec.bind_apply, Exec.read_apply, Outcome.andThen_ok]
      rw [decodeFrom_error hdec]
      rfl
  right
  refine ⟨⟨reply, c, hdec⟩, reply, c, rfl, ?_⟩
  by_cases htype : reply.type = rwlReplicaInitSuccessed
  · obtain ⟨flushType, hlooked⟩ := looked_frame env reply.desc h
    rw [getRemoteDescriptor_eq hdec htype, hlooked]
    exact {
      returned := ⟨_, rfl⟩
      calls := by simp [lookCalls, htype, Function.comp_def]
      imageMr := by rw [if_pos htype]
      base := rfl
      locals := rfl }
  · rw [getRemoteDescriptor_ignored hdec htype]
    exact {
      returned := ⟨0, rfl⟩
      calls := by simp [lookCalls, htype]
      imageMr := by rw [if_neg htype]
      base := rfl
      locals := rfl }

/-! ### The callbacks -/

/-- The callbacks of a call's receive. -/
def IsReplyOf (call : ℕ) (callback : ClientCallback) : Prop :=
  callback = .initReply call ∨ callback = .finishedReply call

/-- What a reply callback that returns has done to the handler. -/
structure Called (call : ℕ) (h : ClientHandler) (o : Outcome Call Stop ClientHandler Unit) :
    Prop where
  completed : (o.state.locals call).completed = true
  base : o.state.toConnectionHandler = h.toConnectionHandler

/-- The callback of `init_replica` returns exactly on the messages that are looked at to the
end, whatever `get_remote_descriptor` returned. -/
lemma initReply_cases (env : RemoteEnv) (call : ℕ) (h : ClientHandler) :
    (¬LookedAt h.recvBl ∧ ∃ stop, (runCallback env (.initReply call) h).result = .error stop) ∨
    (LookedAt h.recvBl ∧ ∃ reply c,
      RwlReplicaInitRequestReply.decode h.recvBl.cbegin = .ok (reply, c) ∧
      (runCallback env (.initReply call) h).result = .ok () ∧
      (runCallback env (.initReply call) h).calls.map Prod.snd = lookCalls env reply ∧
      (runCallback env (.initReply call) h).state.imageMr =
        (if reply.type = rwlReplicaInitSuccessed then newImageMr env reply.desc h.imageMr
          else h.imageMr) ∧
      Called call h (runCallback env (.initReply call) h)) := by
  simp only [runCallback]
  rw [Exec.bind_apply]
  rcases getRemoteDescriptor_cases env h with ⟨hno, stop, hstop⟩ | ⟨hyes, reply, c, hdec, hl⟩
  · left
    rw [Outcome.andThen_of_error hstop]
    exact ⟨hno, stop, rfl⟩
  · right
    obtain ⟨ret, hret⟩ := hl.returned
    rw [Outcome.andThen_of_ok hret]
    refine ⟨hyes, reply, c, hdec, rfl, ?_, hl.imageMr, ?_, hl.base⟩
    · rw [← hl.calls, List.map_append]
      exact List.append_nil _
    · simp [setLocals]

/-- A reply callback ends by setting the flag of its call, unless it throws. -/
lemma runCallback_called {call : ℕ} {callback : ClientCallback} (hcb : IsReplyOf call callback)
    (env : RemoteEnv) (h : ClientHandler) (hr : (runCallback env callback h).result = .ok ()) :
    Called call h (runCallback env callback h) := by
  rcases hcb with rfl | rfl
  · rcases initReply_cases env call h with ⟨-, stop, hstop⟩ | ⟨-, reply, c, -, -, -, -, hcalled⟩
    · rw [hstop] at hr
      cases hr
    · exact hcalled
  · simp only [runCallback, Exec.bind_apply, Exec.read_apply, Outcome.andThen_ok] at hr ⊢
    rcases hdec : RwlReplicaFinishedRequestReply.decode h.recvBl.cbegin with e | ⟨reply, c⟩
    · rw [decodeFrom_error hdec] at hr
      cases hr
    · rw [decodeFrom_ok hdec]
      exact ⟨by simp [setLocals], rfl⟩

/-- A call waits: its flag is not set, and its receive is posted. -/
structure Pending (call : ℕ) (op : OpId) (callback : ClientCallback) (h : ClientHandler) :
    Prop where
  waiting : (h.locals call).completed = false
  posted : op ∈ h.callbackTable
  alive : h.ops.lookup op = some (some callback)

/-- The handler when the callback of `op` starts to run. -/
def starting (op : OpId) (content : MsgBuf) (h : ClientHandler) : ClientHandler :=
  { h with recvBl := content, callbackTable := h.callbackTable.erase op }

/-- An operation that is alive is handled: its callback runs, and it is destroyed. -/
lemma retire_alive {op : OpId} {callback : ClientCallback} {h : ClientHandler}
    (halive : h.ops.lookup op = some (some callback)) (content : MsgBuf) (env : RemoteEnv) :
    ConnectionHandler.retire base (runCallback env) op { h with recvBl := content } =
      Exec.ensuring (runCallback env callback) (Exec.zoom base (ConnectionHandler.deleteOp op))
        (starting op content h) := by
  rw [ConnectionHandler.retire]
  have hstart : Exec.zoom base (ConnectionHandler.eraseOp op) { h with recvBl := content } =
      ⟨[], starting op content h, .ok ()⟩ := rfl
  have hcb : ConnectionHandler.doCallback base (runCallback env) op (starting op content h) =
      runCallback env callback (starting op content h) := by
    rw [ConnectionHandler.doCallback]
    simp only [Exec.bind_apply, Exec.read_apply, Outcome.andThen_ok, List.nil_append]
    rw [show (base.get (starting op content h)).ops = h.ops from rfl, halive]
  rw [Exec.bind_apply, hstart]
  simp only [Outcome.andThen_ok, List.nil_append, Exec.ensuring_apply, hcb]

/-- What the reactor does with the completion of a receive. -/
lemma deliver_alive {op : OpId} {callback : ClientCallback} {h : ClientHandler}
    (hposted : op ∈ h.callbackTable) (halive : h.ops.lookup op = some (some callback))
    (d : Delivery) :
    deliver op (some d) h =
      Exec.ensuring (runCallback d.env callback) (Exec.zoom base (ConnectionHandler.deleteOp op))
        (starting op d.content h) := by
  rw [← retire_alive halive]
  simp only [deliver, Exec.bind_apply, Exec.read_apply, Outcome.andThen_ok, if_pos hposted,
    Exec.update_apply, List.nil_append]

/-- Once the reply has been handled, the call waits for nothing more. -/
lemma deliver_done {call : ℕ} {op : OpId} {callback : ClientCallback} {h : ClientHandler}
    (hcb : IsReplyOf call callback) (hp : Pending call op callback h) (d : Delivery)
    (hr : (deliver op (some d) h).result = .ok ()) :
    ((deliver op (some d) h).state.locals call).completed = true ∧
      op ∉ (deliver op (some d) h).state.callbackTable := by
  rw [deliver_alive hp.posted hp.alive d] at hr ⊢
  have hcalled := runCallback_called hcb d.env (starting op d.content h) hr
  refine ⟨hcalled.completed, ?_⟩
  have htable : (Exec.ensuring (runCallback d.env callback)
      (Exec.zoom base (ConnectionHandler.deleteOp op))
        (starting op d.content h)).state.callbackTable =
      (runCallback d.env callback (starting op d.content h)).state.callbackTable := rfl
  rw [htable, hcalled.base]
  simp [starting]

/-- The callback of `close_replica` returns on a reply that it can decode. -/
lemma deliver_finishedReply {h : ClientHandler} {op : OpId} {call : ℕ} {d : Delivery}
    {reply : RwlReplicaFinishedRequestReply} {c : Wire.Cursor} (hposted : op ∈ h.callbackTable)
    (halive : h.ops.lookup op = some (some (.finishedReply call)))
    (hdec : RwlReplicaFinishedRequestReply.decode d.content.cbegin = .ok (reply, c)) :
    (deliver op (some d) h).result = .ok () := by
  rw [deliver_alive hposted halive d, Exec.ensuring_apply]
  simp only [runCallback, Exec.bind_apply, Exec.read_apply, Outcome.andThen_ok]
  rw [show (starting op d.content h).recvBl = d.content from rfl, decodeFrom_ok hdec]
  rfl

/-- A receive that is handled leaves the other operations alone. -/
lemma deliver_other {call : ℕ} {op : OpId} {callback : ClientCallback} {h : ClientHandler}
    (hcb : IsReplyOf call callback) (hposted : op ∈ h.callbackTable)
    (halive : h.ops.lookup op = some (some callback)) (d : Delivery)
    (hr : (deliver op (some d) h).result = .ok ()) :
    (deliver op (some d) h).state.nextOp = h.nextOp ∧
      ∀ op' ≠ op, (op' ∈ h.callbackTable → op' ∈ (deliver op (some d) h).state.callbackTable) ∧
        (deliver op (some d) h).state.ops.lookup op' = h.ops.lookup op' := by
  rw [deliver_alive hposted halive d] at hr ⊢
  have hbase := (runCallback_called hcb d.env (starting op d.content h) hr).base
  have hstate : (Exec.ensuring (runCallback d.env callback)
      (Exec.zoom base (ConnectionHandler.deleteOp op)) (starting op d.content h)).state =
      { (runCallback d.env callback (starting op d.content h)).state with
        toConnectionHandler := (ConnectionHandler.deleteOp op
          (runCallback d.env callback
            (starting op d.content h)).state.toConnectionHandler).state } := rfl
  rw [hstate, hbase]
  refine ⟨rfl, fun op' hne => ⟨fun hmem => Finset.mem_erase.2 ⟨hne, hmem⟩, ?_⟩⟩
  exact ConnectionHandler.lookup_filter_ne h.ops hne

lemma deliver_of_notMem {op : OpId} {h : ClientHandler} (hop : op ∉ h.callbackTable)
    (d : Option Delivery) : deliver op d h = ⟨[], h, .ok ()⟩ := by
  cases d with
  | none => rfl
  | some d => simp [deliver, hop]

/-! ### The waiting loop -/

/-- The reply that reaches a call in time: the first that arrives while the loop runs, or the
one that arrives after the last look of the loop. -/
def received (costTime : ℤ) (turns : List Turn) (late : Option Delivery) : Option Delivery :=
  match turns with
  | [] => late
  | turn :: turns =>
    if costTime < 10000000 then
      match turn.reply with
      | some d => some d
      | none => received turn.elapsed turns late
    else late

/-- The loop of a call whose flag is set is left at once. -/
lemma waitCompleted_completed {call : ℕ} {h : ClientHandler}
    (hc : (h.locals call).completed = true) (op : OpId) (costTime : ℤ) (turns : List Turn) :
    waitCompleted call op costTime turns h = ⟨[], h, .ok ()⟩ := by
  cases turns with
  | nil => rfl
  | cons turn turns => simp [waitCompleted, hc]

/-- **The loop of a waiting call** handles one reply, if one arrives in time. -/
lemma waitCompleted_pending {call : ℕ} {op : OpId} {callback : ClientCallback} {h : ClientHandler}
    (hcb : IsReplyOf call callback) (hp : Pending call op callback h) (costTime : ℤ)
    (turns : List Turn) (late : Option Delivery) :
    (waitCompleted call op costTime turns >>= fun _ => deliver op late) h =
      deliver op (received costTime turns late) h := by
  induction turns generalizing costTime with
  | nil => simp [waitCompleted, received]
  | cons turn turns ih =>
      rw [received]
      by_cases htime : costTime < 10000000
      · have hstep : waitCompleted call op costTime (turn :: turns) h =
            (deliver op turn.reply >>= fun _ => waitCompleted call op turn.elapsed turns) h := by
          simp [waitCompleted, hp.waiting, htime]
        rw [if_pos htime, Exec.bind_apply, hstep, ← Exec.bind_apply, Exec.bind_assoc,
          Exec.bind_apply]
        cases turn.reply with
        | none => exact (ih turn.elapsed)
        | some d =>
            cases hr : (deliver op (some d) h).result with
            | error e =>
                rw [Outcome.andThen_of_error hr, ← hr]
            | ok u =>
                -- the flag is set, so the loop ends, and nothing is left to arrive
                obtain ⟨hc, hop⟩ := deliver_done hcb hp d hr
                rw [Outcome.andThen_of_ok hr, Exec.bind_apply, waitCompleted_completed hc]
                simp only [Outcome.andThen_ok, deliver_of_notMem hop, List.append_nil]
                rw [← hr]
      · simp [waitCompleted, htime]

/-- A completion whose operation is gone is not survived. -/
lemma deliver_lost {op : OpId} {h : ClientHandler} (hop : h.ops.lookup op = none)
    (d : Option Delivery) :
    deliver op d h = ⟨[], h, .ok ()⟩ ∨ ∃ e, (deliver op d h).result = .error e := by
  by_cases hmem : op ∈ h.callbackTable
  · cases d with
    | none => exact .inl rfl
    | some d =>
        right
        refine ⟨.undefined, ?_⟩
        simp [deliver, hmem, ConnectionHandler.retire, ConnectionHandler.eraseOp,
          ConnectionHandler.doCallback, base, hop]
  · exact .inl (deliver_of_notMem hmem d)

/-- A call whose receive could not be posted waits in vain. -/
lemma waitCompleted_lost (call : ℕ) {op : OpId} {h : ClientHandler}
    (hop : h.ops.lookup op = none) (costTime : ℤ) (turns : List Turn) (late : Option Delivery) :
    (waitCompleted call op costTime turns >>= fun _ => deliver op late) h = ⟨[], h, .ok ()⟩ ∨
      ∃ e, ((waitCompleted call op costTime turns >>= fun _ => deliver op late) h).result =
        .error e := by
  induction turns generalizing costTime with
  | nil => exact deliver_lost hop late
  | cons turn turns ih =>
      by_cases hc : (h.locals call).completed = false ∧ costTime < 10000000
      · have hstep : waitCompleted call op costTime (turn :: turns) h =
            (deliver op turn.reply >>= fun _ => waitCompleted call op turn.elapsed turns) h := by
          simp [waitCompleted, hc]
        rw [Exec.bind_apply, hstep, ← Exec.bind_apply, Exec.bind_assoc, Exec.bind_apply]
        rcases deliver_lost hop turn.reply with hd | ⟨e, he⟩
        · rw [hd]
          exact ih turn.elapsed
        · right
          exact ⟨e, by rw [Outcome.andThen_of_error he]⟩
      · have hleave : waitCompleted call op costTime (turn :: turns) h = ⟨[], h, .ok ()⟩ := by
          simp only [waitCompleted, Exec.bind_apply, Exec.read_apply, Outcome.andThen_ok, if_neg hc]
          rfl
        rw [Exec.bind_apply, hleave]
        exact deliver_lost hop late

/-! ### A whole call -/

/-- The reply that reaches the receive of a call, if it could be posted. -/
def replyTo (w : Waiting) : Option Delivery :=
  match w.recv with
  | .ok _ => received w.uninitCostTime w.turns w.late
  | .error _ => none

/-- Where a call stands after its two posts. -/
structure Posts (w : Waiting) (callback : ClientCallback) (h h' : ClientHandler) : Prop where
  imageMr : h'.imageMr = h.imageMr
  waiting : (h'.locals h.nextCall).completed = false
  pending : ∀ u, w.recv = .ok u → Pending h.nextCall h.nextOp callback h'
  lost : ∀ e, w.recv = .error e → h'.ops.lookup h.nextOp = none

/-- The two posts of a call whose request fits. -/
lemma postRequest_posts (w : Waiting) {request : Bytes} (hlen : request.length < msgSize)
    (callback : ℕ → ClientCallback) (h : ClientHandler) :
    (postRequest w.recv w.send request callback h).result = .ok () ∧
      Posts w (callback h.nextCall) h (postRequest w.recv w.send request callback h).state := by
  let h0 : ConnectionHandler ClientCallback :=
    { h.toConnectionHandler with sendBl := h.sendBl.memcpy request hlen.le }
  let h1 := (ConnectionHandler.recv w.recv (some (callback h.nextCall)) h0).state
  let h2 := (ConnectionHandler.send w.send none h1).state
  have hstate : (postRequest w.recv w.send request callback h).result = .ok () ∧
      (postRequest w.recv w.send request callback h).state =
        { h with
          toConnectionHandler := h2
          locals := Function.update h.locals h.nextCall ⟨false, false⟩
          nextCall := h.nextCall + 1 } := by
    rw [postRequest]
    simp only [Exec.bind_apply, Exec.read_apply, Exec.update_apply, Outcome.andThen_ok,
      Exec.zoom_apply]
    rw [ConnectionHandler.fillSendBl_of_lt hlen]
    simp only [h2, h1]
    cases w.recv <;> cases w.send <;> exact ⟨rfl, rfl⟩
  have hnext : h1.nextOp = h.nextOp + 1 := by
    simp only [h1]
    cases w.recv <;> rfl
  have hne : h.nextOp ≠ h1.nextOp := by
    rw [hnext]
    exact (Nat.succ_ne_self _).symm
  have hnew := ConnectionHandler.postOp_new (fun op => .rpmaRecv (some op) w.recv) w.recv
    (some (callback h.nextCall)) h0
  have hother := ConnectionHandler.postOp_other (fun op => .rpmaSend (some op) w.send) w.send
    none hne
  refine ⟨hstate.1, ?_⟩
  rw [hstate.2]
  exact {
    imageMr := rfl
    waiting := by simp
    pending := fun u hu => {
      waiting := by simp
      posted := hother.1 (hnew.1 u hu).1
      alive := hother.2.trans (hnew.1 u hu).2 }
    lost := fun e he => hother.2.trans (hnew.2 e he) }

/-- The two posts in full, when both succeed. -/
lemma postRequest_ok {request : Bytes} (hlen : request.length < msgSize)
    (callback : ℕ → ClientCallback) (h : ClientHandler) :
    (postRequest (.ok ()) (.ok ()) request callback h).result = .ok () ∧
    (postRequest (.ok ()) (.ok ()) request callback h).state =
      { h with
        callbackTable := insert (h.nextOp + 1) (insert h.nextOp h.callbackTable)
        ops := (h.nextOp + 1, none) :: (h.nextOp, some (callback h.nextCall)) :: h.ops
        nextOp := h.nextOp + 2
        sendBl := h.sendBl.memcpy request hlen.le
        locals := Function.update h.locals h.nextCall ⟨false, false⟩
        nextCall := h.nextCall + 1 } ∧
    ∃ t, sentBy (postRequest (.ok ()) (.ok ()) request callback h).calls = [(t, .ok ())] ∧
      t.sendBl = h.sendBl.memcpy request hlen.le := by
  rw [postRequest]
  simp only [Exec.bind_apply, Exec.read_apply, Exec.update_apply, Outcome.andThen_ok,
    Exec.zoom_apply]
  rw [ConnectionHandler.fillSendBl_of_lt hlen]
  exact ⟨rfl, rfl, _, rfl, rfl⟩

/-- A call whose request does not fit ends there. -/
lemma postRequest_aborted (w : Waiting) {request : Bytes} (hlen : ¬request.length < msgSize)
    (callback : ℕ → ClientCallback) (h : ClientHandler) :
    (postRequest w.recv w.send request callback h).result = .error .aborted := by
  rw [postRequest]
  simp only [Exec.bind_apply, Exec.read_apply, Exec.update_apply, Outcome.andThen_ok,
    Exec.zoom_apply]
  rw [ConnectionHandler.fillSendBl_of_le hlen]
  rfl

/-- The posts make no remote region. -/
lemma postRequest_only (recv send : Rpma Unit) (request : Bytes) (callback : ℕ → ClientCallback) :
    Exec.Only (fun c => ∀ src off len res, c ≠ .mrRemoteFromDescriptor src off len res)
      (postRequest recv send request callback) := by
  refine .bind .read fun h => .bind (.update _) fun _ => .bind (.zoom _ ?_) fun _ =>
    .bind (.update _) fun _ => .bind (.zoom _ ?_) fun _ => .bind (.zoom _ ?_) fun _ => .ret _
  · exact ConnectionHandler.fillSendBl_only _
  · exact ConnectionHandler.postOp_only (by simp) (by simp) (by simp)
  · exact ConnectionHandler.postOp_only (by simp) (by simp) (by simp)

lemma exchange_eq (w : Waiting) (request : Bytes) (callback : ℕ → ClientCallback)
    (h : ClientHandler) :
    exchange w request callback h =
      (postRequest w.recv w.send request callback >>= fun _ =>
        (waitCompleted h.nextCall h.nextOp w.uninitCostTime w.turns >>= fun _ =>
          deliver h.nextOp w.late) >>= fun _ => Exec.read >>= fun h' =>
            pure (h'.locals h.nextCall)) h := by
  simp only [Exec.bind_assoc]
  rfl

/-- A call whose posts succeed handles the reply that arrives in time, if there is one, and
returns its locals. -/
lemma exchange_posted {w : Waiting} {request : Bytes} {callback : ℕ → ClientCallback}
    (hlen : request.length < msgSize) {u : Unit} (hrecv : w.recv = .ok u)
    (hcb : ∀ call, IsReplyOf call (callback call)) (h : ClientHandler) :
    exchange w request callback h =
      let p := postRequest w.recv w.send request callback h
      let o := deliver h.nextOp (received w.uninitCostTime w.turns w.late) p.state
      ⟨p.calls ++ o.calls, o.state, o.result.map fun _ => o.state.locals h.nextCall⟩ := by
  obtain ⟨hok, hposts⟩ := postRequest_posts w hlen callback h
  rw [exchange_eq, Exec.bind_apply, Outcome.andThen_of_ok hok, Exec.bind_apply,
    waitCompleted_pending (hcb _) (hposts.pending u hrecv)]
  simp only [Outcome.andThen]
  cases (deliver h.nextOp (received w.uninitCostTime w.turns w.late)
    (postRequest w.recv w.send request callback h).state).result with
  | error e => rfl
  | ok u => simp [Except.map]

/-- A call whose receive could not be posted never gets its flag set. -/
lemma exchange_lost {w : Waiting} {request : Bytes} (hlen : request.length < msgSize)
    {e : RpmaError} (hrecv : w.recv = .error e) (callback : ℕ → ClientCallback)
    (h : ClientHandler) :
    (∃ l, (exchange w request callback h).result = .ok l ∧ l.completed = false) ∨
      ∃ e, (exchange w request callback h).result = .error e := by
  obtain ⟨hok, hposts⟩ := postRequest_posts w hlen callback h
  rw [exchange_eq, Exec.bind_apply, Outcome.andThen_of_ok hok, Exec.bind_apply]
  rcases waitCompleted_lost h.nextCall (hposts.lost e hrecv) w.uninitCostTime w.turns w.late with
    hwait | ⟨e', hwait⟩
  · left
    rw [hwait]
    exact ⟨_, rfl, hposts.waiting⟩
  · right
    exact ⟨e', by rw [Outcome.andThen_of_error hwait]⟩

/-- A call whose request does not fit fails its `assert`. -/
lemma exchange_aborted {w : Waiting} {request : Bytes} {callback : ℕ → ClientCallback}
    (hlen : ¬request.length < msgSize) (h : ClientHandler) :
    (exchange w request callback h).result = .error .aborted := by
  rw [exchange_eq, Exec.bind_apply, Outcome.andThen_of_error (postRequest_aborted w hlen _ _)]

/-- What `close_replica` returns when a reply reaches it. -/
lemma closeReplica_replied {w : Waiting} {d : Delivery} {reply : RwlReplicaFinishedRequestReply}
    {c : Wire.Cursor} (hd : replyTo w = some d)
    (hdec : RwlReplicaFinishedRequestReply.decode d.content.cbegin = .ok (reply, c))
    (h : ClientHandler) :
    (closeReplica w h).result =
      .ok (if reply.type = rwlReplicaFinishedSucccessed then 0 else -1) := by
  have hlen : finishedRequest.encode.length < msgSize := by
    rw [RwlReplicaFinishedRequest.encode, RwlReplicaRequest.length_encode]
    decide
  rw [replyTo] at hd
  cases hrecv : w.recv with
  | error e =>
      rw [hrecv] at hd
      exact absurd hd (by simp)
  | ok u =>
      simp only [hrecv] at hd
      obtain ⟨-, hposts⟩ := postRequest_posts w hlen .finishedReply h
      have hp := hposts.pending u hrecv
      rw [closeReplica, Exec.bind_apply, exchange_posted hlen hrecv (fun _ => .inr rfl)]
      simp only [hd, deliver_alive hp.posted hp.alive d, Exec.ensuring_apply, runCallback,
        Exec.bind_apply, Exec.read_apply, Outcome.andThen_ok]
      rw [decodeFrom_ok (by exact hdec)]
      by_cases htype : reply.type = rwlReplicaFinishedSucccessed <;>
        simp [setLocals, ConnectionHandler.deleteOp, base, htype, Except.map]

end ClientHandler

end RpmaReplica
