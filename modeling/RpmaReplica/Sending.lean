import RpmaReplica.Lib.Outbox
import RpmaReplica.Client
import RpmaReplica.Replies
import RpmaReplica.Server

/-!
# Messages while they are sent

Each end of a connection has one buffer for what it sends.  A send that is posted reads
`send_bl` itself, until it is completed, and no completion of a send is waited for: the client
copies the request of its next call into the buffer as soon as the call before has returned, on
its reply or on timeout, and the server copies the reply to the next request.

Both ends are senders in the sense of `Lib.Outbox`.  What is settled here is when they write the
buffer, and from this the runs in which no message is changed while it is sent
(`messages_unchanged_iff`).
-/

namespace RpmaReplica

open Exec ConnectionHandler

/-! ### The buffer -/

/-- Bytes copied to the start of a buffer are not there already, whatever the buffer holds. -/
lemma MsgBuf.exists_memcpy_ne {src : Bytes} (hne : src ≠ []) (h : src.length ≤ msgSize) :
    ∃ b : MsgBuf, b.memcpy src h ≠ b := by
  obtain ⟨x, xs, rfl⟩ := List.exists_cons_of_ne_nil hne
  refine ⟨⟨List.replicate msgSize (x + 1), List.length_replicate⟩, fun heq => ?_⟩
  have hhead := congrArg (fun b : MsgBuf => b.bytes.head?) heq
  simp only [MsgBuf.memcpy, List.cons_append, List.head?_cons, List.head?_replicate, msgSize]
    at hhead
  simp at hhead

/-- What `send_bl` held at the sends that could be posted. -/
def sentContents {σ : Type} (bl : σ → MsgBuf) (calls : List (σ × Call)) : List MsgBuf :=
  (sentBy calls).filterMap fun p => match p.2 with
    | .ok _ => some (bl p.1)
    | .error _ => none

section SentContents

variable {σ : Type} {f : σ → MsgBuf}

lemma sentContents_append (cs ds : List (σ × Call)) :
    sentContents f (cs ++ ds) = sentContents f cs ++ sentContents f ds := by
  rw [sentContents, sentBy_append, List.filterMap_append]
  rfl

/-- Sends that are all of one content. -/
lemma sentContents_replicate {calls : List (σ × Call)} {b : MsgBuf}
    (h : ∀ p ∈ sentBy calls, f p.1 = b) :
    ∃ n, sentContents f calls = List.replicate n b := by
  refine ⟨(sentContents f calls).length, List.eq_replicate_of_mem fun x hx => ?_⟩
  obtain ⟨p, hp, hpx⟩ := List.mem_filterMap.1 hx
  rcases hres : p.2 with e | u
  · rw [hres] at hpx
    cases hpx
  · rw [hres] at hpx
    obtain rfl := Option.some.inj hpx
    exact h p hp

end SentContents

/-! ### The client -/

namespace Client

/-- `send_bl`. -/
def sendBl : Lens Client MsgBuf where
  get c := c.handler.sendBl
  set b c := { c with handler := { c.handler with sendBl := b } }
  get_set _ _ := rfl
  set_get _ := rfl
  set_set _ _ _ := rfl

/-- The client as a sender. -/
def sender : Sender Client ClientAct MsgBuf where
  machine := machine
  buffer := sendBl
  sent c := sentContents (fun h : ClientHandler => h.sendBl) c.trace

/-- What a step does to `send_bl`, and what it sends. -/
structure Sends (c : Client) (request : Option Bytes) (t : Client) : Prop where
  copied : ∀ r (hlen : r.length < msgSize), request = some r →
    t.handler.sendBl = c.handler.sendBl.memcpy r hlen.le
  kept : (∀ r, request = some r → ¬r.length < msgSize) → t.handler.sendBl = c.handler.sendBl
  sent : ∃ ds, t.trace = c.trace ++ ds ∧ ∀ p ∈ sentBy ds, p.1.sendBl = t.handler.sendBl

/-- A step that sends nothing and does not touch `send_bl`. -/
lemma sends_nothing {c t : Client} {ds : List (ClientHandler × Call)}
    (htrace : t.trace = c.trace ++ ds) (hds : sentBy ds = [])
    (hbl : t.handler.sendBl = c.handler.sendBl) : Sends c none t where
  copied _ _ hr := by cases hr
  kept _ := hbl
  sent := ⟨ds, htrace, by simp [hds]⟩

/-- A call that begins copies its request and sends nothing. -/
lemma sends_enter {c : Client} {m : Prog ClientHandler Unit} {r : Bytes}
    (hbegun : ClientHandler.Begun r c.handler (m c.handler)) (callback : ℕ → ClientCallback)
    (costTime : ℤ) : Sends c (some r) (c.enter m callback costTime) := by
  have hstate : (c.enter m callback costTime).handler = (m c.handler).state := rfl
  have htrace : (c.enter m callback costTime).trace = c.trace ++ [] := by
    have hcalls : (zoom own m c).calls = [] := by
      rw [zoom_apply, show (m (own.get c)).calls = [] from hbegun.calls]
      rfl
    rw [enter, after, hcalls]
    rfl
  refine ⟨fun r' hlen hr => ?_, fun hno => ?_, [], htrace, by simp⟩
  · obtain rfl := Option.some.inj hr
    rw [hstate, hbegun.copied hlen]
  · rw [hstate, hbegun.kept (hno r rfl)]

lemma sends_postRecv (c : Client) (f : Frame) (res : Rpma Unit) :
    Sends c none (c.postRecv f res) := by
  cases res <;> exact sends_nothing rfl rfl rfl

/-- The post of the send reads `send_bl` as it is. -/
lemma sends_postSend (c : Client) (f : Frame) (res : Rpma Unit) :
    Sends c none (c.postSend f res) where
  copied _ _ hr := by cases hr
  kept _ := by cases res <;> rfl
  sent := by
    refine ⟨_, rfl, fun p hp => ?_⟩
    cases res <;> exact (List.mem_singleton.1 hp) ▸ rfl

lemma sends_completion (c : Client) (got : Rpma Completion) (content : MsgBuf) (env : RemoteEnv) :
    Sends c none (c.completion got content env) := by
  obtain ⟨h, stale, hstate, hhandled⟩ := completion_handled c got content env
  have htrace : (c.completion got content env).trace =
      c.trace ++ (completionGot conn (callback env) got (c.arrived content)).calls.map
        fun p => (p.1.handler, p.2) := by
    rw [completion, after]
  refine sends_nothing htrace ?_ ?_
  · have honly : Only (fun c => ¬c.IsSend) (completionGot conn (callback env) got) :=
      (completionGot_only env got).mono fun _ h => h.2
    rw [sentBy_map Client.handler, sentBy_eq_nil (honly _)]
    rfl
  · rw [completion, after, hstate]
    exact hhandled.sendBl

/-- What a step of the client does to `send_bl`, and what it sends. -/
lemma sends_step {c t : Client} {a : ClientAct} (h : machine.step c a = some t) :
    Sends c (request a) t := by
  cases (step_cases h).2 with
  | enter costTime ha hrunning hbegun _ => exact ha ▸ sends_enter hbegun _ costTime
  | postRecv _ _ res => exact sends_postRecv c _ res
  | postSend _ _ res => exact sends_postSend c _ res
  | insert _ _ _ => exact sends_nothing rfl rfl rfl
  | turn _ _ _ => exact sends_nothing (List.append_nil _).symm sentBy_nil rfl
  | leave _ _ _ => exact sends_nothing (List.append_nil _).symm sentBy_nil rfl
  | completion _ content env => exact sends_completion c _ content env

lemma sender_lawful : sender.Lawful := by
  intro c a t hstep
  obtain ⟨ds, htrace, hds⟩ := (sends_step hstep).sent
  obtain ⟨n, hn⟩ := sentContents_replicate (f := fun h : ClientHandler => h.sendBl) hds
  refine ⟨n, ?_⟩
  have hsent : sender.sent t = sentContents (fun h : ClientHandler => h.sendBl) t.trace := rfl
  rw [hsent, htrace, sentContents_append, hn]
  rfl

/-- Whether a step can be taken does not depend on what `send_bl` holds. -/
lemma step_set_sendBl {c t : Client} {a : ClientAct} (h : machine.step c a = some t)
    (ha : request a ≠ none) (b : MsgBuf) : ∃ t', machine.step (sendBl.set b c) a = some t' := by
  cases a with
  | initReplica cacheId cacheSize poolName imageName uninitCostTime =>
      simp only [machine, Option.ite_none_right_eq_some, Option.some.injEq] at h
      exact ⟨_, if_pos h.1⟩
  | closeReplica uninitCostTime =>
      simp only [machine, Option.ite_none_right_eq_some, Option.some.injEq] at h
      exact ⟨_, if_pos h.1⟩
  | _ => exact absurd rfl ha

lemma request_ne_nil {a : ClientAct} {r : Bytes} (h : request a = some r) : r ≠ [] := by
  have hlen : 0 < r.length := by
    cases a with
    | initReplica cacheId cacheSize poolName imageName uninitCostTime =>
        obtain rfl := Option.some.inj h
        rw [RwlReplicaInitRequest.length_encode]
        omega
    | closeReplica uninitCostTime =>
        obtain rfl := Option.some.inj h
        rw [RwlReplicaFinishedRequest.encode, RwlReplicaRequest.length_encode]
        decide
    | _ => cases h
  exact List.ne_nil_of_length_pos hlen

/-- **When the client writes `send_bl`**: when a call begins whose request fits. -/
lemma overwrites_iff {c t : Client} {a : ClientAct} (hstep : machine.step c a = some t) :
    sender.Overwrites c a ↔ ∃ r, request a = some r ∧ r.length < msgSize := by
  constructor
  · rintro ⟨b, t', hstep', hne⟩
    by_contra hno
    have hkept := (sends_step hstep').kept fun r hr hlen => hno ⟨r, hr, hlen⟩
    exact hne hkept
  · rintro ⟨r, hr, hlen⟩
    obtain ⟨b, hb⟩ := MsgBuf.exists_memcpy_ne (request_ne_nil hr) hlen.le
    obtain ⟨t', hstep'⟩ := step_set_sendBl hstep (by simp [hr]) b
    have hcopied := (sends_step hstep').copied r hlen hr
    exact ⟨b, t', hstep', fun heq => hb (hcopied.symm.trans heq)⟩

end Client

/-! ### The server -/

namespace RPMAHandler

/-- The request is answered with a reply of its own: it is a FINISHED request, or an INIT request
whose parameters can be decoded, whose memory is there, and whose region can be registered and
described by a reply that fits. -/
inductive WritesReply (env : ServeEnv) (content : MsgBuf) (m : MemoryManager) : Prop
  | finished {req : RwlReplicaRequest} {c : Wire.Cursor}
      (hreq : RwlReplicaRequest.decode content.cbegin = .ok (req, c))
      (htype : req.type = rwlReplicaFinishedRequest)
  | init {req : RwlReplicaRequest} {c c' : Wire.Cursor} {init : RwlReplicaInitRequest} {d : Bytes}
      {desc : RpmaConfigDescriptor}
      (hreq : RwlReplicaRequest.decode content.cbegin = .ok (req, c))
      (htype : req.type = rwlReplicaInitRequest)
      (hinit : RwlReplicaInitRequest.decode content.cbegin = .ok (init, c'))
      (hmem : m.data = none → MemoryManager.CanAllocate env.mem init.info.cacheSize)
      (hreg : env.mr.mrReg = .ok d)
      (hdesc : describe env.mr .flush (pmemFor env.mem m init.info) d = .ok (.ok desc))
      (hlen : (initReply desc).encode.length < msgSize)

/-- Memory that is there, or can be had, is found. -/
lemma exists_allocation {env : MemEnv} {info : RwlCacheInfo} {h : RPMAHandler}
    (hmem : h.dataManager.data = none → MemoryManager.CanAllocate env info.cacheSize) :
    ∃ h', Allocation env info h h' := by
  cases hdata : h.dataManager.data with
  | some a => exact ⟨h, .kept hdata⟩
  | none =>
      cases hacc : MemoryManager.accepted env info.cacheSize with
      | some f => exact ⟨_, .mapped hdata hacc⟩
      | none =>
          cases hmal : env.malloc with
          | some a => exact ⟨_, .allocated hdata hacc hmal⟩
          | none => exact absurd (hmem hdata) (by simp [MemoryManager.CanAllocate, hacc, hmal])

/-- The reply that is written depends only on the request, on the memory and on the outside. -/
lemma WritesReply.copied {env : ServeEnv} {content : MsgBuf} {m : MemoryManager}
    (h : WritesReply env content m) :
    ∃ r, r ≠ [] ∧ ∃ hlen : r.length ≤ msgSize, ∀ g : RPMAHandler, g.recvBl = content →
      g.dataManager = m → (dealRequire env g).state.sendBl = g.sendBl.memcpy r hlen := by
  cases h with
  | finished hreq htype =>
      refine ⟨(closeReply (if m.data = none then 0 else env.mem.remove)).encode, ?_,
        (length_closeReply _).le, ?_⟩
      · refine List.ne_nil_of_length_pos ?_
        rw [RwlReplicaFinishedRequestReply.encode, RwlReplicaRequest.length_encode]
        decide
      · rintro g rfl rfl
        exact ((served env g).of_finished hreq htype).2.1.sendBl
  | @init req c c' init d desc hreq htype hinit hmem hreg hdesc hlen =>
      refine ⟨(initReply desc).encode, ?_, hlen.le, ?_⟩
      · refine List.ne_nil_of_length_pos ?_
        rw [RwlReplicaInitRequestReply.length_encode]
        omega
      · rintro g rfl rfl
        obtain ⟨h', halloc⟩ := exists_allocation hmem
        rw [← halloc.pmemFor.2] at hdesc
        obtain ⟨-, -, hsame⟩ := (served env g).of_init hreq htype hinit halloc hreg hdesc hlen
        rw [hsame.sendBl]
        exact congrArg (fun b : MsgBuf => b.memcpy _ hlen.le)
          (congrArg ConnectionHandler.sendBl halloc.frame.1)

section Kept

variable {env : ServeEnv} {h s : RPMAHandler}

lemma InitAnswer.kept {req : RwlReplicaRequest} {c : Wire.Cursor} {r : Except Stop ℤ}
    (hreq : RwlReplicaRequest.decode h.recvBl.cbegin = .ok (req, c))
    (htype : req.type = rwlReplicaInitRequest) (hans : InitAnswer env h r s)
    (hno : ¬WritesReply env h.recvBl h.dataManager) : s.sendBl = h.sendBl := by
  cases hans with
  | malformed _ => rfl
  | unallocated _ _ _ _ => rfl
  | registered hinit halloc hreg =>
      have hbl := congrArg ConnectionHandler.sendBl halloc.frame.1
      obtain ⟨hmem, hpmem⟩ := halloc.pmemFor
      cases hreg with
      | refused _ => exact hbl
      | undescribed _ _ => exact hbl
      | unconfigured _ _ => exact hbl
      | oversized _ _ _ => exact hbl
      | replied hreg hdesc hlen =>
          rw [hpmem] at hdesc
          exact absurd (.init hreq htype hinit hmem hreg hdesc hlen) hno

lemma Answer.kept {r : Except Stop ℤ} {sends : List (RPMAHandler × Rpma Unit)}
    (hans : Answer env h r s sends) (hno : ¬WritesReply env h.recvBl h.dataManager) :
    s.sendBl = h.sendBl := by
  cases hans with
  | malformed _ => rfl
  | init hreq htype hans _ => exact hans.kept hreq htype hno
  | finished hreq htype _ _ => exact absurd (.finished hreq htype) hno
  | unsupported _ _ _ => rfl

/-- A request that is not answered with a reply of its own leaves `send_bl` as it is. -/
lemma Served.kept {r : Except Stop Unit} {sends : List (RPMAHandler × Rpma Unit)}
    (hserved : Served env h r s sends) (hno : ¬WritesReply env h.recvBl h.dataManager) :
    s.sendBl = h.sendBl := by
  cases hserved with
  | stopped hans => exact hans.kept hno
  | answered hans hsame _ => exact hsame.sendBl.trans (hans.kept hno)

/-- Whatever is sent while a request is served is what `send_bl` holds in the end. -/
lemma Served.sends_sendBl {r : Except Stop Unit} {sends : List (RPMAHandler × Rpma Unit)}
    (hserved : Served env h r s sends) : ∀ p ∈ sends, p.1.sendBl = s.sendBl := by
  cases hserved with
  | stopped hans =>
      obtain rfl := hans.sends_of_error
      simp
  | answered hans hsame hsent =>
      intro p hp
      rcases List.mem_append.1 hp with hp | hp
      · cases hans with
        | init _ _ _ _ => exact absurd hp List.not_mem_nil
        | finished _ _ hs ht =>
            obtain rfl := List.mem_singleton.1 hp
            exact ht.sendBl.trans (hs.trans hsame).sendBl.symm
        | unsupported _ _ _ => exact absurd hp List.not_mem_nil
      · obtain rfl := List.mem_singleton.1 hp
        exact hsent.sendBl.trans hsame.sendBl.symm

end Kept

/-- The destructor sends nothing and does not touch `send_bl`. -/
lemma destroy_sends (h : RPMAHandler) :
    (destroy h).state.sendBl = h.sendBl ∧ sentBy (destroy h).calls = [] := by
  have honly : Only (fun c => ¬c.IsSend) destroy :=
    .bind ((resetDataMr_only none).mono fun _ => Call.not_isSend_of_isRegistration) fun _ =>
      .bind (.zoom _ (MemoryManager.destroy_only.mono fun _ => Call.not_isSend_of_isMemory))
        fun _ => .zoom _ (destroy_only fun _ => id)
  refine ⟨?_, sentBy_eq_nil (honly h)⟩
  obtain ⟨hr₁, hs₁⟩ := resetDataMr_eq none h
  have hr₂ : (zoom manager MemoryManager.destroy { h with dataMr := none }).result = .ok () :=
    (MemoryManager.destroy_eq h.dataManager).1
  rw [destroy, bind_apply, Outcome.andThen_of_ok hr₁, hs₁, bind_apply, Outcome.andThen_of_ok hr₂]
  exact sendBl_destroy h.toConnectionHandler

end RPMAHandler

namespace Session

open RPMAHandler

/-- `send_bl`. -/
def sendBl : Lens Session MsgBuf where
  get s := s.handler.sendBl
  set b s := { s with handler := { s.handler with sendBl := b } }
  get_set _ _ := rfl
  set_get _ := rfl
  set_set _ _ _ := rfl

/-- The server as a sender. -/
def sender : Sender Session SessionAct MsgBuf where
  machine := machine
  buffer := sendBl
  sent s := sentContents (fun h : RPMAHandler => h.sendBl) s.trace

/-- The step answers a request with a reply of its own. -/
def Writes (s : Session) : SessionAct → Prop
  | .request content env => WritesReply env content s.handler.dataManager
  | .destroy => False

/-- What a step sends is what it leaves in `send_bl`, and only a step that writes a reply changes
it. -/
lemma sends_step {s t : Session} {a : SessionAct} (h : machine.step s a = some t) :
    (∃ ds, t.trace = s.trace ++ ds ∧ ∀ p ∈ sentBy ds, p.1.sendBl = t.handler.sendBl) ∧
      (¬s.Writes a → t.handler.sendBl = s.handler.sendBl) := by
  rcases step_cases h with ⟨content, env, rfl, rfl⟩ | ⟨rfl, rfl⟩
  · have hserved := served env (s.receiving content)
    exact ⟨⟨_, rfl, hserved.sends_sendBl⟩, fun hno => hserved.kept hno⟩
  · obtain ⟨hbl, hsends⟩ := destroy_sends s.handler
    exact ⟨⟨_, rfl, by simp [hsends]⟩, fun _ => hbl⟩

lemma sender_lawful : sender.Lawful := by
  intro s a t hstep
  obtain ⟨⟨ds, htrace, hds⟩, -⟩ := sends_step hstep
  obtain ⟨n, hn⟩ := sentContents_replicate (f := fun h : RPMAHandler => h.sendBl) hds
  refine ⟨n, ?_⟩
  have hsent : sender.sent t = sentContents (fun h : RPMAHandler => h.sendBl) t.trace := rfl
  rw [hsent, htrace, sentContents_append, hn]
  rfl

/-- **When the server writes `send_bl`**: when it answers a request with a reply of its own. -/
lemma overwrites_iff {s t : Session} {a : SessionAct} (hstep : machine.step s a = some t) :
    sender.Overwrites s a ↔ s.Writes a := by
  constructor
  · rintro ⟨b, t', hstep', hne⟩
    by_contra hno
    have hno' : ¬(sendBl.set b s).Writes a := by
      cases a <;> exact hno
    exact hne ((sends_step hstep').2 hno')
  · intro hwrites
    cases a with
    | request content env =>
        obtain ⟨r, hr, hlen, hcopied⟩ := hwrites.copied
        obtain ⟨b, hb⟩ := MsgBuf.exists_memcpy_ne hr hlen
        have hended : (sendBl.set b s).ended = false := by
          simp only [machine, Option.ite_none_left_eq_some] at hstep
          exact eq_false_of_ne_true hstep.1
        refine ⟨b, _, machine_request hended content env, fun heq => hb ?_⟩
        exact (hcopied ((sendBl.set b s).receiving content) rfl rfl).symm.trans heq
    | destroy => exact absurd hwrites id

end Session

/-! ### Which runs change no message -/

/-- A call whose request fits begins only when no send of the client is in flight. -/
def Client.CallsWhenIdle (o : Outbox Client MsgBuf) (a : OutboxAct ClientAct) : Prop :=
  ∀ x, a = .act x → (∃ r, request x = some r ∧ r.length < msgSize) → ∀ i, ¬sender.InFlight o i

/-- A request that is answered with a reply of its own arrives only when no send of the server
is in flight. -/
def Session.RepliesWhenIdle (o : Outbox Session MsgBuf) (a : OutboxAct SessionAct) : Prop :=
  ∀ x, a = .act x → o.sender.Writes x → ∀ i, ¬sender.InFlight o i

/-- **Which runs change no message.**  At either end, whatever happens and in whatever order
sends look at the buffer and are completed: `send_bl` is never overwritten while a send is in
flight, and each send delivers what it was posted with, exactly if the client's calls begin, and
the requests that the server answers with a reply of their own arrive, only when no send of that
end is in flight. -/
theorem messages_unchanged_iff (sendBl recvBl : MsgBuf) :
    (∀ (flushType : FlushType) (imageSize : UInt64) (imageMr : Option MrRemote)
      (as : List (OutboxAct ClientAct)) (u : Outbox Client MsgBuf),
      Client.sender.outbox.Run
        (Sender.start (Client.create sendBl recvBl flushType imageSize imageMr)) as u →
      (Client.sender.Unchanged
          (Sender.start (Client.create sendBl recvBl flushType imageSize imageMr)) as ↔
        Client.sender.outbox.Meets Client.CallsWhenIdle
          (Sender.start (Client.create sendBl recvBl flushType imageSize imageMr)) as)) ∧
    (∀ (size : UInt64) (as : List (OutboxAct SessionAct)) (u : Outbox Session MsgBuf),
      Session.sender.outbox.Run (Sender.start (Session.create sendBl recvBl size)) as u →
      (Session.sender.Unchanged (Sender.start (Session.create sendBl recvBl size)) as ↔
        Session.sender.outbox.Meets Session.RepliesWhenIdle
          (Sender.start (Session.create sendBl recvBl size)) as)) := by
  refine ⟨?_, ?_⟩
  · intro flushType imageSize imageMr as u hrun
    exact Client.sender_lawful.unchanged_iff
      (W := fun _ a => ∃ r, Client.request a = some r ∧ r.length < msgSize)
      (fun _ _ _ hstep => Client.overwrites_iff hstep) rfl hrun
  · intro size as u hrun
    exact Session.sender_lawful.unchanged_iff (fun _ _ _ hstep => Session.overwrites_iff hstep)
      rfl hrun

/-! ### A message that is changed -/

lemma Session.sent_afterSample : sender.sent afterSample = [afterSample.handler.sendBl] := by
  obtain ⟨-, ⟨t, ht, hsent⟩, -⟩ := RPMAHandler.served_sample
    (recvBl_receiving (create .zero .zero 0) RPMAHandler.sampleContent) rfl
  have htrace : afterSample.trace = [] ++ (RPMAHandler.dealRequire (RPMAHandler.working [7])
      ((create .zero .zero 0).receiving RPMAHandler.sampleContent)).calls := rfl
  simp only [sender]
  rw [sentContents, htrace, List.nil_append, hsent, afterSample, handler_serve]
  simp only [List.filterMap_cons, List.filterMap_nil, ht.sendBl]

/-- A client that calls `close_replica` once, and a server that serves one request. -/
theorem messages_unchanged_once :
    (∃ u, Client.sender.outbox.Run (Sender.start (Client.create .zero .zero .visibility 0 none))
        (Client.closingActs.map OutboxAct.act ++ [.look 0]) u ∧
      u.seen = [(0, holding ClientHandler.finishedRequest.encode Client.length_finishedRequest)] ∧
      Client.sender.Unchanged (Sender.start (Client.create .zero .zero .visibility 0 none))
        (Client.closingActs.map OutboxAct.act ++ [.look 0])) ∧
    (∃ u, Session.sender.outbox.Run (Sender.start (Session.create .zero .zero 0))
        [.act (.request RPMAHandler.sampleContent (RPMAHandler.working [7])), .look 0] u ∧
      u.seen = [(0, Session.afterSample.handler.sendBl)] ∧
      Session.sender.Unchanged (Sender.start (Session.create .zero .zero 0))
        [.act (.request RPMAHandler.sampleContent (RPMAHandler.working [7])), .look 0]) := by
  refine ⟨?_, ?_⟩
  · obtain ⟨c, hrun, -, -, -, -, -, -, -, -, -, hbl, h, hh, hsent⟩ := Client.run_closingActs
    have hflight : Client.sender.InFlight (Sender.start c) 0 := by
      refine ⟨?_, List.not_mem_nil⟩
      simp only [Sender.start, Client.sender, sentContents, hsent]
      exact Nat.one_pos
    have run := (Sender.run_acts (S := Client.sender) hrun).snoc (Sender.step_look hflight)
    refine ⟨_, run, ?_, ((messages_unchanged_iff _ _).1 _ _ _ _ _ run).2 ?_⟩
    · exact congrArg (fun b => [(0, b)]) hbl
    -- only the first step copies a request, and nothing is in flight then
    · have hacts : Client.closingActs.map OutboxAct.act ++ [.look 0] =
          [.act (.closeReplica 0)] ++ [.act (.post (.ok ())), .act .insert, .act (.post (.ok ())),
            .act .insert, .look 0] := rfl
      rw [hacts]
      refine Machine.Meets.append (Machine.meets_singleton ?_) ?_
      · intro _ _ _ i hi
        exact absurd hi.1 (Nat.not_lt_zero i)
      · rintro a ha t x rfl ⟨r, hr, -⟩
        simp only [List.mem_cons, OutboxAct.act.injEq, List.not_mem_nil, reduceCtorEq,
          or_false] at ha
        rcases ha with rfl | rfl | rfl | rfl <;> cases hr
  · have hstep := Session.run_afterSample.singleton
    have hsent := Session.sent_afterSample
    generalize Session.afterSample = t at hstep hsent ⊢
    have hflight : Session.sender.InFlight (Sender.start t) 0 := by
      refine ⟨?_, List.not_mem_nil⟩
      simp only [Sender.start]
      rw [hsent]
      exact Nat.one_pos
    have run₁ := (Machine.Run.nil (Sender.start (Session.create .zero .zero 0))).snoc
      (Sender.step_act (S := Session.sender) hstep)
    have run₂ := run₁.snoc (Sender.step_look hflight)
    refine ⟨_, run₂, rfl, ((messages_unchanged_iff _ _).2 _ _ _ run₂).2 ?_⟩
    refine Machine.Meets.snoc (Machine.meets_singleton ?_) run₁ ?_
    · intro _ _ _ i hi
      exact absurd hi.1 (Nat.not_lt_zero i)
    · rintro x heq
      cases heq

/-- A FINISHED request. -/
def finishedRequestContent : MsgBuf :=
  holding ClientHandler.finishedRequest.encode Client.length_finishedRequest

/-- The reply to a FINISHED request does not announce a region. -/
lemma Session.serve_finished (s : Session) (env : ServeEnv) :
    ¬RPMAHandler.HoldsSuccess (s.serve finishedRequestContent env).handler.sendBl := by
  obtain ⟨c, hreq⟩ := RPMAHandler.decode_holding_base
    ClientHandler.finishedRequest.toRwlReplicaRequest Client.length_finishedRequest
  obtain ⟨-, hsame, -⟩ := (RPMAHandler.served env
    (s.receiving finishedRequestContent)).of_finished hreq rfl
  rw [handler_serve, hsame.sendBl]
  exact RPMAHandler.not_holdsSuccess_closing env _

/-- **A reply overwritten while it is sent.**  A server answers an INIT request and then a
FINISHED request, which arrives before the first send is completed: if the first send looks at
`send_bl` then, it delivers the reply to the second request. -/
theorem reply_overwritten_in_flight :
    ∃ u posted seen, Session.sender.outbox.Run (Sender.start (Session.create .zero .zero 0))
        [.act (.request RPMAHandler.sampleContent (RPMAHandler.working [7])),
          .act (.request finishedRequestContent (RPMAHandler.working [7])), .look 0] u ∧
      (Session.sender.sent u.sender)[0]? = some posted ∧ u.seen = [(0, seen)] ∧ seen ≠ posted ∧
      ¬Session.sender.Unchanged (Sender.start (Session.create .zero .zero 0))
        [.act (.request RPMAHandler.sampleContent (RPMAHandler.working [7])),
          .act (.request finishedRequestContent (RPMAHandler.working [7])), .look 0] := by
  have hstep := Session.machine_request Session.afterSample_served.1 finishedRequestContent
    (RPMAHandler.working [7])
  have hfinished := Session.afterSample.serve_finished (RPMAHandler.working [7])
  obtain ⟨t, ht⟩ : ∃ t, t = Session.afterSample.serve finishedRequestContent
      (RPMAHandler.working [7]) := ⟨_, rfl⟩
  rw [← ht] at hstep hfinished
  -- what the first send was posted with, and what the buffer holds after the second request
  have hposted : (Session.sender.sent t)[0]? = some Session.afterSample.handler.sendBl := by
    obtain ⟨n, hn⟩ := Session.sender_lawful _ _ _ hstep
    rw [hn, Session.sent_afterSample]
    rfl
  have hdiffers : t.handler.sendBl ≠ Session.afterSample.handler.sendBl := by
    intro heq
    rw [heq] at hfinished
    exact hfinished Session.afterSample_holdsSuccess
  have hflight : Session.sender.InFlight (Sender.start t) 0 :=
    ⟨(List.getElem?_eq_some_iff.1 hposted).1, List.not_mem_nil⟩
  have run₁ := (Machine.Run.nil (Sender.start (Session.create .zero .zero 0))).snoc
    (Sender.step_act (S := Session.sender) Session.run_afterSample.singleton)
  have run₂ := run₁.snoc (Sender.step_act (S := Session.sender) hstep)
  have run₃ := run₂.snoc (Sender.step_look hflight)
  refine ⟨_, _, _, run₃, hposted, rfl, hdiffers, fun hunchanged => hdiffers ?_⟩
  have hseen := (hunchanged.2 _ _ (List.prefix_refl _) run₃).seen (0, t.handler.sendBl)
    (List.mem_singleton.2 rfl)
  exact Option.some.inj (hseen.symm.trans hposted)

end RpmaReplica
