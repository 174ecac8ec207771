import RpmaReplica.Calling
import RpmaReplica.Server
import RpmaReplica.Lib.Machine

/-!
# Client and server together

One `ClientHandler` and the `RPMAHandler` that serves its connection.  The client calls
`init_replica` and `close_replica` in any order, each of which posts a receive and a send;
the server serves the requests in the order in which they were sent, and what it sends
arrives in order in the receives that the client has posted.  No post fails.

Each message in flight carries the number of the request it belongs to, so that one can say
which request a reply that a callback sees was sent for.  The numbers are not part of the
messages, and nothing depends on them.

`Answered` says that each request is answered once and each callback sees the reply to its
own request; `requests_answered_iff` says on which runs that holds.
-/

namespace RpmaReplica

/-! ### The two parties -/

/-- What the client asks for. -/
inductive Request
  | init (cacheId : UInt32) (cacheSize : UInt64) (poolName imageName : Bytes)
  | finished
  deriving DecidableEq, Repr

namespace Request

open ClientHandler

/-- The bytes of a request. -/
def encode : Request → Bytes
  | init cacheId cacheSize poolName imageName =>
    (initRequest cacheId cacheSize poolName imageName).encode
  | finished => finishedRequest.encode

/-- The type of a request. -/
def type : Request → Int32
  | init _ _ _ _ => rwlReplicaInitRequest
  | finished => rwlReplicaFinishedRequest

/-- The callback of the receive that is posted with a request. -/
def callback : Request → ℕ → ClientCallback
  | init _ _ _ _ => .initReply
  | finished => .finishedReply

/-- `init_replica` and `close_replica` up to the waiting loop. -/
def start : Request → Prog ClientHandler Unit
  | init cacheId cacheSize poolName imageName => do
    Exec.update fun h => { h with imageSize := cacheSize }
    postRequest (.ok ()) (.ok ()) (encode (init cacheId cacheSize poolName imageName)) .initReply
  | finished => postRequest (.ok ()) (.ok ()) (encode finished) .finishedReply

end Request

/-- The two parties and what lies between them. -/
structure System where
  client : ClientHandler
  server : RPMAHandler
  /-- The requests of the client so far. -/
  asked : List Request
  /-- The requests in flight. -/
  requests : List (ℕ × MsgBuf)
  /-- How many sends the server has posted for each request it has received. -/
  sends : List ℕ
  /-- The replies in flight. -/
  replies : List (ℕ × MsgBuf)
  /-- The receives that the client has posted and that are still empty. -/
  receives : List OpId
  /-- The replies delivered so far, each with the request it was sent for and the callback that
  saw it. -/
  seen : List (ℕ × Option ClientCallback)
  /-- One of the two has thrown or aborted: no step follows. -/
  ended : Bool

/-- What can happen: a call of the client, a request that is served, a reply that is delivered,
each with what librpma and the system answer. -/
inductive SystemAct
  | call (r : Request)
  | serve (mem : MemEnv) (mr : MrEnv)
  | deliver (env : RemoteEnv)

namespace System

open ClientHandler RPMAHandler

/-- A connection on which nothing has been sent. -/
def start (client : ClientHandler) (server : RPMAHandler) : System where
  client := client
  server := server
  asked := []
  requests := []
  sends := []
  replies := []
  receives := []
  seen := []
  ended := false

/-- Whether a program has failed to return. -/
def stopped {α : Type} : Except Stop α → Bool
  | .ok _ => false
  | .error _ => true

/-- The answers from outside when no post fails. -/
def posting (mem : MemEnv) (mr : MrEnv) : ServeEnv := ⟨mem, mr, .ok (), .ok (), .ok ()⟩

/-- The server when a request has arrived. -/
def arrived (s : System) (content : MsgBuf) : RPMAHandler := { s.server with recvBl := content }

/-- The client makes a call. -/
def call (s : System) (r : Request) : System :=
  let o := r.start s.client
  if stopped o.result then { s with client := o.state, ended := true }
  else
    { s with
      client := o.state
      asked := s.asked ++ [r]
      requests := s.requests ++ (sentBy o.calls).map fun p => (s.asked.length, p.1.sendBl)
      receives := s.receives ++ [s.client.nextOp] }

/-- The server serves the request `n`. -/
def serve (s : System) (n : ℕ) (content : MsgBuf) (requests : List (ℕ × MsgBuf))
    (mem : MemEnv) (mr : MrEnv) : System :=
  let o := dealRequire (posting mem mr) (s.arrived content)
  { s with
    server := o.state
    requests := requests
    sends := s.sends ++ [(sentBy o.calls).length]
    replies := s.replies ++ (sentBy o.calls).map fun p => (n, p.1.sendBl)
    ended := stopped o.result }

/-- A reply to the request `n` is delivered to the receive `op`. -/
def deliver (s : System) (n : ℕ) (content : MsgBuf) (replies : List (ℕ × MsgBuf)) (op : OpId)
    (receives : List OpId) (env : RemoteEnv) : System :=
  let o := ClientHandler.deliver op (some ⟨content, env⟩) s.client
  { s with
    client := o.state
    replies := replies
    receives := receives
    seen := s.seen ++ [(n, (s.client.ops.lookup op).join)]
    ended := stopped o.result }

/-- Any interleaving of calls, served requests and deliveries. -/
def machine : Machine System SystemAct where
  step s a :=
    if s.ended then none
    else
      match a, s.requests, s.replies, s.receives with
      | .call r, _, _, _ => some (s.call r)
      | .serve mem mr, (n, content) :: requests, _, _ =>
        some (s.serve n content requests mem mr)
      | .deliver env, _, (n, content) :: replies, op :: receives =>
        some (s.deliver n content replies op receives env)
      | _, _, _, _ => none

section Steps

variable {s : System}

lemma step_call (hended : s.ended = false) (r : Request) :
    machine.step s (.call r) = some (s.call r) := by
  simp [machine, hended]

lemma step_serve (hended : s.ended = false) {n : ℕ} {content : MsgBuf}
    {requests : List (ℕ × MsgBuf)} (hreq : s.requests = (n, content) :: requests)
    (mem : MemEnv) (mr : MrEnv) :
    machine.step s (.serve mem mr) = some (s.serve n content requests mem mr) := by
  simp [machine, hended, hreq]

lemma step_deliver (hended : s.ended = false) {n : ℕ} {content : MsgBuf}
    {replies : List (ℕ × MsgBuf)} (hrep : s.replies = (n, content) :: replies) {op : OpId}
    {receives : List OpId} (hrec : s.receives = op :: receives) (env : RemoteEnv) :
    machine.step s (.deliver env) = some (s.deliver n content replies op receives env) := by
  simp [machine, hended, hrep, hrec]

end Steps

/-- What a step of the system is. -/
lemma step_cases {s t : System} {a : SystemAct} (h : machine.step s a = some t) :
    s.ended = false ∧
      ((∃ r, a = .call r ∧ t = s.call r) ∨
      (∃ mem mr n content requests, a = .serve mem mr ∧
        s.requests = (n, content) :: requests ∧ t = s.serve n content requests mem mr) ∨
      (∃ env n content replies op receives, a = .deliver env ∧
        s.replies = (n, content) :: replies ∧ s.receives = op :: receives ∧
        t = s.deliver n content replies op receives env)) := by
  simp only [machine] at h
  split at h
  · exact absurd h (by simp)
  · rename_i hended
    refine ⟨by simpa using hended, ?_⟩
    split at h
    · exact .inl ⟨_, rfl, (Option.some.inj h).symm⟩
    · rename_i hreq
      exact .inr (.inl ⟨_, _, _, _, _, rfl, hreq, (Option.some.inj h).symm⟩)
    · rename_i hrep hrec
      exact .inr (.inr ⟨_, _, _, _, _, _, rfl, hrep, hrec, (Option.some.inj h).symm⟩)
    · exact absurd h (by simp)

end System

/-! ### What the client's calls do -/

namespace Request

open ClientHandler

/-- A call of `init_replica` starts as `start` says. -/
lemma initReplica_start (cacheId : UInt32) (cacheSize : UInt64) (poolName imageName : Bytes)
    (costTime : ℤ) (turns : List Turn) (late : Option Delivery) (h : ClientHandler) :
    initReplica ⟨.ok (), .ok (), costTime, turns, late⟩ cacheId cacheSize poolName imageName h =
      (start (init cacheId cacheSize poolName imageName) >>= fun _ =>
        (waitCompleted h.nextCall h.nextOp costTime turns >>= fun _ =>
          ClientHandler.deliver h.nextOp late) >>= fun _ => Exec.read >>= fun h' =>
            pure (if (h'.locals h.nextCall).completed then 0 else -1)) h := by
  simp only [initReplica, start, Exec.bind_assoc, Exec.update_bind]
  rw [Exec.bind_apply, exchange_eq, ← Exec.bind_apply]
  simp only [Exec.bind_assoc, Exec.pure_bind]
  rfl

/-- So does a call of `close_replica`. -/
lemma closeReplica_start (costTime : ℤ) (turns : List Turn) (late : Option Delivery)
    (h : ClientHandler) :
    closeReplica ⟨.ok (), .ok (), costTime, turns, late⟩ h =
      (start finished >>= fun _ =>
        (waitCompleted h.nextCall h.nextOp costTime turns >>= fun _ =>
          ClientHandler.deliver h.nextOp late) >>= fun _ => Exec.read >>= fun h' =>
            pure (if (h'.locals h.nextCall).completed && (h'.locals h.nextCall).successed then 0
              else -1)) h := by
  simp only [closeReplica, start]
  rw [Exec.bind_apply, exchange_eq, ← Exec.bind_apply]
  simp only [Exec.bind_assoc, Exec.pure_bind]
  rfl

/-- What a call that can be posted has done. -/
structure Started (r : Request) (h : ClientHandler) (o : Outcome Call Stop ClientHandler Unit) :
    Prop where
  fits : r.encode.length < msgSize
  result : o.result = .ok ()
  callbackTable : o.state.callbackTable = insert (h.nextOp + 1) (insert h.nextOp h.callbackTable)
  ops : o.state.ops =
    (h.nextOp + 1, none) :: (h.nextOp, some (r.callback h.nextCall)) :: h.ops
  nextOp : o.state.nextOp = h.nextOp + 2
  nextCall : o.state.nextCall = h.nextCall + 1
  sent : ∃ t, sentBy o.calls = [(t, .ok ())] ∧ t.sendBl = h.sendBl.memcpy r.encode fits.le

/-- The operation of the new receive. -/
lemma Started.lookup_new {r : Request} {h : ClientHandler}
    {o : Outcome Call Stop ClientHandler Unit} (hstart : r.Started h o) :
    o.state.ops.lookup h.nextOp = some (some (r.callback h.nextCall)) := by
  have hne : (h.nextOp == h.nextOp + 1) = false :=
    beq_eq_false_iff_ne.2 (Nat.succ_ne_self _).symm
  rw [hstart.ops, List.lookup_cons, hne]
  exact List.lookup_cons_self

/-- The operations that were there before. -/
lemma Started.lookup_old {r : Request} {h : ClientHandler}
    {o : Outcome Call Stop ClientHandler Unit} (hstart : r.Started h o) {op : OpId}
    (hop : op < h.nextOp) : o.state.ops.lookup op = h.ops.lookup op := by
  have hne : (op == h.nextOp) = false := beq_eq_false_iff_ne.2 (Nat.ne_of_lt hop)
  have hne' : (op == h.nextOp + 1) = false :=
    beq_eq_false_iff_ne.2 (Nat.ne_of_lt (Nat.lt_succ_of_lt hop))
  rw [hstart.ops, List.lookup_cons, hne', List.lookup_cons, hne]

lemma callback_isReplyOf (r : Request) (call : ℕ) : IsReplyOf call (r.callback call) := by
  cases r with
  | init => exact .inl rfl
  | finished => exact .inr rfl

/-- A request is read as what it is. -/
lemma decode_encode (r : Request) (buf : MsgBuf) (hlen : r.encode.length < msgSize) :
    ∃ c, RwlReplicaRequest.decode (buf.memcpy r.encode hlen.le).cbegin = .ok (⟨r.type⟩, c) := by
  cases r with
  | init cacheId cacheSize poolName imageName =>
      exact ⟨_, ((initRequest cacheId cacheSize poolName imageName).reads_base
        (hlen.trans (by decide))).memcpy buf hlen.le⟩
  | finished => exact ⟨_, (RwlReplicaRequest.reads_encode ⟨_⟩).memcpy buf hlen.le⟩

lemma start_eq (r : Request) (h : ClientHandler) : ∃ h' : ClientHandler,
    r.start h = postRequest (.ok ()) (.ok ()) r.encode r.callback h' ∧
    h'.toConnectionHandler = h.toConnectionHandler ∧ h'.nextCall = h.nextCall := by
  cases r with
  | init cacheId cacheSize poolName imageName =>
      exact ⟨{ h with imageSize := cacheSize }, Exec.update_bind _ _ _, rfl, rfl⟩
  | finished => exact ⟨h, rfl, rfl, rfl⟩

/-- A call whose request fits is posted. -/
lemma started {r : Request} (hlen : r.encode.length < msgSize) (h : ClientHandler) :
    r.Started h (r.start h) := by
  obtain ⟨h', hstart, hbase, hcall⟩ := r.start_eq h
  rw [hstart]
  obtain ⟨hres, hstate, t, hsent, hbl⟩ := postRequest_ok hlen r.callback h'
  exact {
    fits := hlen
    result := hres
    callbackTable := by rw [hstate, ← hbase]
    ops := by rw [hstate, ← hbase, ← hcall]
    nextOp := by rw [hstate, ← hbase]
    nextCall := by rw [hstate, ← hcall]
    sent := ⟨t, hsent, by rw [hbl, ← hbase]⟩ }

/-- A call is aborted if its request does not fit, and posted otherwise. -/
lemma start_cases (r : Request) (h : ClientHandler) :
    System.stopped (r.start h).result = true ∨ r.Started h (r.start h) := by
  by_cases hlen : r.encode.length < msgSize
  · exact .inr (started hlen h)
  · left
    obtain ⟨h', hstart, -, -⟩ := r.start_eq h
    rw [hstart, postRequest_aborted ⟨.ok (), .ok (), 0, [], none⟩ hlen]
    rfl

end Request

namespace System

open ClientHandler RPMAHandler

/-! ### What the server does with a request -/

variable {mem : MemEnv} {mr : MrEnv} {h : RPMAHandler} {req : RwlReplicaRequest} {c : Wire.Cursor}

/-- A FINISHED request is answered twice: by `close`, and by `deal_require`. -/
lemma sends_finished (hreq : RwlReplicaRequest.decode h.recvBl.cbegin = .ok (req, c))
    (htype : req.type = rwlReplicaFinishedRequest) :
    (sentBy (dealRequire (posting mem mr) h).calls).length = 2 := by
  obtain ⟨-, -, t, u, -, -, hsends⟩ := (served (posting mem mr) h).of_finished hreq htype
  rw [hsends]
  rfl

/-- An INIT request is answered once if `deal_require` returns, and not at all otherwise. -/
lemma sends_init (mem : MemEnv) (mr : MrEnv)
    (hreq : RwlReplicaRequest.decode h.recvBl.cbegin = .ok (req, c))
    (htype : req.type = rwlReplicaInitRequest) :
    (Serviceable (posting mem mr) h.recvBl h.dataManager ∧
      (dealRequire (posting mem mr) h).result = .ok () ∧
      ∃ t, sentBy (dealRequire (posting mem mr) h).calls = [(t, .ok ())]) ∨
    (¬Serviceable (posting mem mr) h.recvBl h.dataManager ∧
      sentBy (dealRequire (posting mem mr) h).calls = []) := by
  have hserved := served (posting mem mr) h
  have hiff := hserved.ok_iff
  generalize (dealRequire (posting mem mr) h).result = r at *
  generalize sentBy (dealRequire (posting mem mr) h).calls = sends at *
  generalize (dealRequire (posting mem mr) h).state = s at *
  cases hserved with
  | stopped hans =>
      right
      exact ⟨fun hok => absurd (hiff.2 hok) (by simp), (hans.of_init hreq htype).2⟩
  | @answered _ _ _ u _ hans _ _ =>
      left
      obtain ⟨-, rfl⟩ := hans.of_init hreq htype
      exact ⟨hiff.1 rfl, rfl, u, rfl⟩

/-! ### Requests and replies in step -/

/-- **What the protocol is for**: each request received has been answered with one send, the
n-th reply delivered was sent for the n-th request, and each callback saw the reply to a
request of its own kind. -/
structure Answered (s : System) : Prop where
  once : ∀ n ∈ s.sends, n = 1
  inOrder : ∀ (n : ℕ) (m : ℕ × Option ClientCallback), s.seen[n]? = some m → m.1 = n
  init : ∀ m ∈ s.seen, ∀ call, m.2 = some (.initReply call) →
    ∃ r, s.asked[m.1]? = some r ∧ r.type = rwlReplicaInitRequest
  finished : ∀ m ∈ s.seen, ∀ call, m.2 = some (.finishedReply call) →
    ∃ r, s.asked[m.1]? = some r ∧ r.type = rwlReplicaFinishedRequest

/-- A request that is served is an INIT request, and one that the server can serve. -/
def ServesInit (s : System) : SystemAct → Prop
  | .serve mem mr => ∀ n content requests, s.requests = (n, content) :: requests →
    (∃ req c, RwlReplicaRequest.decode content.cbegin = .ok (req, c) ∧
      req.type = rwlReplicaInitRequest) ∧
    Serviceable (posting mem mr) content s.server.dataManager
  | _ => True

/-- A receive is posted with the callback for a request. -/
def Waits (client : ClientHandler) (op : OpId) (r : Request) : Prop :=
  op ∈ client.callbackTable ∧ ∃ call, client.ops.lookup op = some (some (r.callback call))

/-- The invariant: the requests fall into those whose replies were seen, those whose replies
are in flight, and those in flight themselves, in this order; and the posted receives are
those of the requests whose replies were not yet seen. -/
structure InStep (s : System) : Prop where
  once : ∀ n ∈ s.sends, n = 1
  received_le : s.sends.length ≤ s.asked.length
  requests : s.requests.map Prod.fst = List.Ico s.sends.length s.asked.length
  carried : ∀ p ∈ s.requests, ∃ r c, s.asked[p.1]? = some r ∧
    RwlReplicaRequest.decode p.2.cbegin = .ok (⟨r.type⟩, c)
  seen_le : s.seen.length ≤ s.sends.length
  replies : s.replies.map Prod.fst = List.Ico s.seen.length s.sends.length
  seen : ∀ (n : ℕ) (m : ℕ × Option ClientCallback), s.seen[n]? = some m →
    m.1 = n ∧ ∃ (r : Request) (call : ℕ), s.asked[n]? = some r ∧ m.2 = some (r.callback call)
  waiting : s.ended = false →
    List.Forall₂ (Waits s.client) s.receives (s.asked.drop s.seen.length)
  fresh : s.ended = false → s.receives.Nodup ∧ ∀ op ∈ s.receives, op < s.client.nextOp

lemma InStep.answered {s : System} (h : s.InStep) : s.Answered where
  once := h.once
  inOrder n m hm := (h.seen n m hm).1
  init := by
    intro m hm call hcall
    obtain ⟨n, hn⟩ := List.mem_iff_getElem?.1 hm
    obtain ⟨rfl, r, call', hr, hcb⟩ := h.seen n m hn
    refine ⟨r, hr, ?_⟩
    rw [hcb] at hcall
    cases r with
    | init => rfl
    | finished => simp [Request.callback] at hcall
  finished := by
    intro m hm call hcall
    obtain ⟨n, hn⟩ := List.mem_iff_getElem?.1 hm
    obtain ⟨rfl, r, call', hr, hcb⟩ := h.seen n m hn
    refine ⟨r, hr, ?_⟩
    rw [hcb] at hcall
    cases r with
    | init => simp [Request.callback] at hcall
    | finished => rfl

lemma inStep_start (client : ClientHandler) (server : RPMAHandler) :
    (start client server).InStep where
  once := by simp [start]
  received_le := le_rfl
  requests := by simp [start]
  carried := by simp [start]
  seen_le := le_rfl
  replies := by simp [start]
  seen := by simp [start]
  waiting _ := .nil
  fresh _ := ⟨List.nodup_nil, by simp [start]⟩

/-! ### Each step keeps them in step -/

/-- The front of a queue that holds the numbers from `a` up to `b`. -/
lemma pop_numbered {a b n : ℕ} {content : MsgBuf} {q : List (ℕ × MsgBuf)}
    (h : ((n, content) :: q).map Prod.fst = List.Ico a b) :
    n = a ∧ a < b ∧ q.map Prod.fst = List.Ico (a + 1) b := by
  have hlt : a < b := by
    by_contra hle
    rw [List.Ico.eq_nil_of_le (by omega)] at h
    exact absurd h (by simp)
  rw [List.Ico.eq_cons hlt, List.map_cons] at h
  obtain ⟨h1, h2⟩ := List.cons.inj h
  exact ⟨h1, hlt, h2⟩

/-- The queue after one more number. -/
lemma push_numbered {a b : ℕ} (content : MsgBuf) {q : List (ℕ × MsgBuf)} (hle : a ≤ b)
    (h : q.map Prod.fst = List.Ico a b) :
    (q ++ [(b, content)]).map Prod.fst = List.Ico a (b + 1) := by
  rw [List.map_append, h, List.Ico.succ_top hle]
  rfl

lemma getElem?_snoc {α : Type} {l : List α} {n : ℕ} {a : α} (h : l[n]? = some a) (b : α) :
    (l ++ [b])[n]? = some a := by
  obtain ⟨hlt, -⟩ := List.getElem?_eq_some_iff.1 h
  rw [List.getElem?_append_left hlt, h]

/-- The receive of a new call waits for the reply to its request. -/
lemma Waits.started {r : Request} {h : ClientHandler} {o : Outcome Call Stop ClientHandler Unit}
    (hstart : r.Started h o) : Waits o.state h.nextOp r :=
  ⟨by rw [hstart.callbackTable]; simp, h.nextCall, hstart.lookup_new⟩

/-- The earlier ones go on waiting. -/
lemma Waits.of_started {r r' : Request} {h : ClientHandler}
    {o : Outcome Call Stop ClientHandler Unit} {op : OpId} (hw : Waits h op r')
    (hstart : r.Started h o) (hop : op < h.nextOp) : Waits o.state op r' := by
  obtain ⟨hmem, call, hlookup⟩ := hw
  refine ⟨?_, call, (hstart.lookup_old hop).trans hlookup⟩
  rw [hstart.callbackTable]
  exact Finset.mem_insert_of_mem (Finset.mem_insert_of_mem hmem)

/-- They also go on waiting when another one is handled. -/
lemma Waits.of_delivered {r r' : Request} {h : ClientHandler} {op op' : OpId} {d : Delivery}
    (hw : Waits h op' r') (hop : Waits h op r) (hne : op' ≠ op)
    (hr : (ClientHandler.deliver op (some d) h).result = .ok ()) :
    Waits (ClientHandler.deliver op (some d) h).state op' r' := by
  obtain ⟨hmem, call, hlookup⟩ := hw
  obtain ⟨hposted, call', halive⟩ := hop
  obtain ⟨hmem', hlookup'⟩ := (deliver_other (r.callback_isReplyOf call') hposted halive d hr).2
    op' hne
  exact ⟨hmem' hmem, call, hlookup'.trans hlookup⟩

variable {s : System}

/-- A call that is posted. -/
lemma call_of_started {r : Request} (hstart : r.Started s.client (r.start s.client)) :
    s.call r =
      { s with
        client := (r.start s.client).state
        asked := s.asked ++ [r]
        requests := s.requests ++
          [(s.asked.length, s.client.sendBl.memcpy r.encode hstart.fits.le)]
        receives := s.receives ++ [s.client.nextOp] } := by
  obtain ⟨t, hsent, hbl⟩ := hstart.sent
  simp [System.call, hstart.result, stopped, hsent, hbl]

lemma InStep.call (h : s.InStep) (hended : s.ended = false) (r : Request) :
    (s.call r).InStep := by
  rcases r.start_cases s.client with hstop | hstart
  · -- the call is aborted: nothing is posted, and nothing follows
    have hcall : s.call r = { s with client := (r.start s.client).state, ended := true } := by
      simp [System.call, hstop]
    rw [hcall]
    exact { h with
      waiting := fun hfalse => absurd hfalse (by simp)
      fresh := fun hfalse => absurd hfalse (by simp) }
  · obtain ⟨c, hdec⟩ := r.decode_encode s.client.sendBl hstart.fits
    have hseen : s.seen.length ≤ s.asked.length := h.seen_le.trans h.received_le
    obtain ⟨hnodup, hlt⟩ := h.fresh hended
    rw [call_of_started hstart]
    exact {
      once := h.once
      received_le := by
        rw [List.length_append]
        exact h.received_le.trans (Nat.le_add_right _ _)
      requests := by
        rw [List.length_append, List.length_singleton]
        exact push_numbered _ h.received_le h.requests
      carried := by
        intro p hp
        rcases List.mem_append.1 hp with hp | hp
        · obtain ⟨r', c', hr', hdec'⟩ := h.carried p hp
          exact ⟨r', c', getElem?_snoc hr' r, hdec'⟩
        · obtain rfl := List.mem_singleton.1 hp
          exact ⟨r, c, List.getElem?_concat_length, hdec⟩
      seen_le := h.seen_le
      replies := h.replies
      seen := by
        intro n m hm
        obtain ⟨hn, r', call, hr', hcb⟩ := h.seen n m hm
        exact ⟨hn, r', call, getElem?_snoc hr' r, hcb⟩
      waiting := by
        intro _
        simp only
        rw [List.drop_append_of_le_length hseen]
        refine List.rel_append ?_ (.cons (.started hstart) .nil)
        exact ((List.forall₂_and_left _ _).2 ⟨hlt, h.waiting hended⟩).imp
          fun op r' hw => hw.2.of_started hstart hw.1
      fresh := by
        intro _
        refine ⟨?_, ?_⟩
        · refine List.nodup_append.2 ⟨hnodup, List.nodup_singleton _, ?_⟩
          intro a ha b hb
          obtain rfl := List.mem_singleton.1 hb
          exact (hlt a ha).ne
        · intro op hop
          rw [hstart.nextOp]
          rcases List.mem_append.1 hop with hop | hop
          · exact (hlt op hop).trans (Nat.lt_add_of_pos_right two_pos)
          · obtain rfl := List.mem_singleton.1 hop
            exact Nat.lt_add_of_pos_right two_pos }

lemma InStep.serve (h : s.InStep) (hended : s.ended = false) {n : ℕ} {content : MsgBuf}
    {requests : List (ℕ × MsgBuf)} (hreq : s.requests = (n, content) :: requests)
    {mem : MemEnv} {mr : MrEnv} (hserves : s.ServesInit (.serve mem mr)) :
    (s.serve n content requests mem mr).InStep := by
  obtain ⟨⟨req, c, hdec, htype⟩, hok⟩ := hserves n content requests hreq
  obtain ⟨-, hres, t, hsent⟩ | ⟨hno, -⟩ :=
    sends_init mem mr (h := s.arrived content) hdec htype
  swap
  · exact absurd hok hno
  have hserve : s.serve n content requests mem mr =
      { s with
        server := (dealRequire (posting mem mr) (s.arrived content)).state
        requests := requests
        sends := s.sends ++ [1]
        replies := s.replies ++ [(n, t.sendBl)]
        ended := false } := by
    simp [System.serve, hres, stopped, hsent]
  have hnums := h.requests
  rw [hreq] at hnums
  obtain ⟨rfl, hlt, hrest⟩ := pop_numbered hnums
  rw [hserve]
  exact {
    once := by
      intro k hk
      rcases List.mem_append.1 hk with hk | hk
      · exact h.once k hk
      · exact List.mem_singleton.1 hk
    received_le := by
      rw [List.length_append]
      exact hlt
    requests := by
      rw [List.length_append]
      exact hrest
    carried := fun p hp => h.carried p (by rw [hreq]; exact List.mem_cons_of_mem _ hp)
    seen_le := by
      rw [List.length_append]
      exact h.seen_le.trans (Nat.le_add_right _ _)
    replies := by
      rw [List.length_append]
      exact push_numbered _ h.seen_le h.replies
    seen := h.seen
    waiting := fun _ => h.waiting hended
    fresh := fun _ => h.fresh hended }

lemma InStep.deliver (h : s.InStep) (hended : s.ended = false) {n : ℕ} {content : MsgBuf}
    {replies : List (ℕ × MsgBuf)} (hrep : s.replies = (n, content) :: replies) {op : OpId}
    {receives : List OpId} (hrec : s.receives = op :: receives) (env : RemoteEnv) :
    (s.deliver n content replies op receives env).InStep := by
  have hnums := h.replies
  rw [hrep] at hnums
  obtain ⟨rfl, hlt, hrest⟩ := pop_numbered hnums
  have hwaiting := h.waiting hended
  obtain ⟨hnodup, hfresh⟩ := h.fresh hended
  rw [hrec] at hwaiting hnodup hfresh
  obtain ⟨r, rest, hop, hothers, hdrop⟩ := List.forall₂_cons_left_iff.1 hwaiting
  obtain ⟨hnotMem, hnodup⟩ := List.nodup_cons.1 hnodup
  obtain ⟨hposted, call, halive⟩ := id hop
  have hasked : s.asked[s.seen.length]? = some r := by
    rw [← List.head?_drop, hdrop]
    rfl
  have hrest' : s.asked.drop (s.seen.length + 1) = rest := by
    rw [← List.tail_drop, hdrop]
    rfl
  have hreturned : ∀ {x : Except Stop Unit}, stopped x = false → x = .ok () := by
    rintro (e | u) hx
    · exact absurd hx (by simp [stopped])
    · rfl
  exact {
    once := h.once
    received_le := h.received_le
    requests := h.requests
    carried := h.carried
    seen_le := by
      simp only [System.deliver, List.length_append, List.length_singleton]
      exact hlt
    replies := by
      simp only [System.deliver, List.length_append, List.length_singleton]
      exact hrest
    seen := by
      intro k m hm
      simp only [System.deliver] at hm
      rcases Nat.lt_or_ge k s.seen.length with hk | hk
      · rw [List.getElem?_append_left hk] at hm
        exact h.seen k m hm
      · rw [List.getElem?_append_right hk] at hm
        obtain ⟨hlen, hval⟩ := List.getElem?_eq_some_iff.1 hm
        rw [List.length_singleton] at hlen
        obtain rfl : k = s.seen.length := by omega
        rw [List.getElem_singleton] at hval
        subst hval
        exact ⟨rfl, r, call, hasked, by simp [halive]⟩
    waiting := by
      intro hgo
      simp only [System.deliver, List.length_append, List.length_singleton, hrest']
      refine ((List.forall₂_and_left _ _).2 ⟨?_, hothers⟩).imp fun op' r' hw =>
        hw.2.of_delivered hop hw.1 (hreturned hgo)
      rintro op' hmem rfl
      exact hnotMem hmem
    fresh := by
      intro hgo
      refine ⟨hnodup, fun op' hop' => ?_⟩
      simp only [System.deliver]
      rw [(deliver_other (r.callback_isReplyOf call) hposted halive _ (hreturned hgo)).1]
      exact hfresh op' (List.mem_cons_of_mem _ hop') }

/-- A step against the condition is seen at once: the request is answered twice, or not at
all. -/
lemma InStep.not_answered (h : s.InStep) {a : SystemAct} {u : System} (hno : ¬s.ServesInit a)
    (hstep : machine.step s a = some u) : ¬u.Answered := by
  rintro ⟨honce, -, -, -⟩
  obtain ⟨-, ⟨r, rfl, -⟩ | ⟨mem, mr, n, content, requests, rfl, hreq, rfl⟩ |
    ⟨env, n, content, replies, op, receives, rfl, -⟩⟩ := step_cases hstep
  · exact hno trivial
  · have hcount := honce (sentBy (dealRequire (posting mem mr) (s.arrived content)).calls).length
      (List.mem_append_right _ (List.mem_singleton_self _))
    obtain ⟨r, c, -, hdec⟩ := h.carried (n, content) (by rw [hreq]; exact List.mem_cons_self)
    cases r with
    | finished =>
        rw [sends_finished (h := s.arrived content) hdec rfl] at hcount
        exact absurd hcount (by decide)
    | init =>
        obtain ⟨hok, -⟩ | ⟨-, hnone⟩ :=
          sends_init mem mr (h := s.arrived content) hdec rfl
        · refine hno fun n' content' requests' hreq' => ?_
          rw [hreq] at hreq'
          obtain ⟨hhead, -⟩ := List.cons.inj hreq'
          obtain ⟨-, rfl⟩ := Prod.mk.inj hhead
          exact ⟨⟨_, c, hdec, rfl⟩, hok⟩
        · rw [hnone] at hcount
          exact absurd hcount (by decide)
  · exact hno trivial

/-- **When requests and replies stay in step.**  Each request is answered once, and each
callback sees the reply to its own request, in every state of a run, exactly if every
request that is served is an INIT request that the server can serve: `close` answers a
FINISHED request and `deal_require` answers it again. -/
theorem requests_answered_iff (client : ClientHandler) (server : RPMAHandler)
    {as : List SystemAct} {u : System} (hrun : machine.Run (start client server) as u) :
    machine.Always Answered (start client server) as ↔
      machine.Meets ServesInit (start client server) as := by
  refine Machine.always_iff InStep (inStep_start client server) ?_ (fun _ h => h.answered)
    (fun _ _ _ h hno hstep => h.not_answered hno hstep) hrun
  intro t a v h hserves hstep
  obtain ⟨hended, ⟨r, rfl, rfl⟩ | ⟨mem, mr, n, content, requests, rfl, hreq, rfl⟩ |
    ⟨env, n, content, replies, op, receives, rfl, hrep, hrec, rfl⟩⟩ := step_cases hstep
  · exact h.call hended r
  · exact h.serve hended hreq hserves
  · exact h.deliver hended hrep hrec env

/-- A call of `init_replica`. -/
def sampleRequest : Request := .init 1 64 [112] [105]

lemma length_sampleRequest : sampleRequest.encode.length < msgSize := length_sampleInit

/-- A client that accepts no descriptor. -/
def quietRemote : RemoteEnv where
  peerCfgFromDescriptor _ := .error .inval
  peerCfgGetDirectWriteToPmem := .ok ()
  mrRemoteFromDescriptor _ := .error .inval
  mrRemoteGetSize := .ok ()
  uninitSize := 0
  beyond _ := 0

/-- A call of `init_replica` that a working server serves, and whose reply is delivered. -/
lemma run_init (client : ClientHandler) (server : RPMAHandler) (env : RemoteEnv) :
    ∃ u, machine.Run (start client server)
        [.call sampleRequest, .serve (working [7]).mem (workingMr [7]), .deliver env] u ∧
      u.sends = [1] ∧ u.seen = [(0, some (.initReply client.nextCall))] ∧
      machine.Meets ServesInit (start client server)
        [.call sampleRequest, .serve (working [7]).mem (workingMr [7]), .deliver env] := by
  have hstart := Request.started length_sampleRequest client
  obtain ⟨c₁, hc₁⟩ : ∃ c₁, c₁ = (sampleRequest.start client).state := ⟨_, rfl⟩
  obtain ⟨b, hb⟩ : ∃ b, b = client.sendBl.memcpy sampleRequest.encode length_sampleRequest.le :=
    ⟨_, rfl⟩
  have hstep₁ : machine.step (start client server) (.call sampleRequest) =
      some ⟨c₁, server, [sampleRequest], [(0, b)], [], [], [client.nextOp], [], false⟩ := by
    rw [step_call rfl, call_of_started hstart, hc₁, hb]
    rfl
  -- the server can serve it
  have hmsg := length_sampleInit.trans (show msgSize < 256 ^ 4 by decide)
  have hbase := (sampleInit.reads_base hmsg).memcpy client.sendBl length_sampleInit.le
  have hinit := (sampleInit.reads_encode hmsg).memcpy client.sendBl length_sampleInit.le
  have hserviceable : Serviceable (posting (working [7]).mem (workingMr [7])) b
      server.dataManager := by
    rw [hb]
    refine ⟨_, _, hbase, fun _ => ⟨sampleInit, _, hinit, fun _ => .inr (by decide), ?_⟩⟩
    refine describable_of_describes (workingMr_describes [7]) fun d hd => ?_
    obtain rfl := Except.ok.inj hd
    simp [posting, workingMr]
  obtain ⟨s₁, hs₁⟩ : ∃ s₁ : System, s₁ = ⟨c₁, server, [sampleRequest], [(0, b)], [], [],
    [client.nextOp], [], false⟩ := ⟨_, rfl⟩
  have hdec : RwlReplicaRequest.decode (s₁.arrived b).recvBl.cbegin = .ok (_, _) := hb ▸ hbase
  obtain ⟨-, hres, t, hsent⟩ | ⟨hno, -⟩ :=
    sends_init (working [7]).mem (workingMr [7]) (h := s₁.arrived b) hdec rfl
  swap
  · rw [hs₁] at hno
    exact absurd hserviceable hno
  have hstep₂ : machine.step s₁ (.serve (working [7]).mem (workingMr [7])) =
      some ⟨c₁, (dealRequire (posting (working [7]).mem (workingMr [7])) (s₁.arrived b)).state,
        [sampleRequest], [], [1], [(0, t.sendBl)], [client.nextOp], [], false⟩ := by
    rw [step_serve (by rw [hs₁]) (by rw [hs₁]) _ _]
    simp only [System.serve, hres, hsent, stopped]
    subst hs₁
    rfl
  have hstep₃ := step_deliver (s := ⟨c₁, (dealRequire (posting (working [7]).mem (workingMr [7]))
    (s₁.arrived b)).state, [sampleRequest], [], [1], [(0, t.sendBl)], [client.nextOp], [], false⟩)
    rfl rfl rfl env
  have run₁ := (Machine.Run.nil _).snoc hstep₁
  rw [← hs₁] at run₁
  have run₂ := run₁.snoc hstep₂
  refine ⟨_, run₂.snoc hstep₃, rfl, ?_, ?_⟩
  · simp only [System.deliver, hc₁, hstart.lookup_new]
    rfl
  · refine (Machine.Meets.snoc (Machine.meets_singleton trivial) run₁ ?_).snoc run₂ trivial
    intro n content requests heq
    rw [hs₁] at heq ⊢
    obtain ⟨hhead, -⟩ := List.cons.inj heq
    obtain ⟨-, rfl⟩ := Prod.mk.inj hhead
    exact ⟨⟨_, _, hb ▸ hbase, rfl⟩, hserviceable⟩

/-- A call of `init_replica` on a new connection is answered once, and its callback sees the
reply. -/
theorem requests_answered_init :
    ∃ u, machine.Run (start ClientHandler.created (RPMAHandler.create .zero .zero 0))
        [.call sampleRequest, .serve (working [7]).mem (workingMr [7]), .deliver quietRemote] u ∧
      u.sends = [1] ∧ u.seen = [(0, some (.initReply 0))] ∧
      machine.Always Answered (start ClientHandler.created (RPMAHandler.create .zero .zero 0))
        [.call sampleRequest, .serve (working [7]).mem (workingMr [7]), .deliver quietRemote] := by
  obtain ⟨u, hrun, hsends, hseen, hmeets⟩ := run_init ClientHandler.created
    (RPMAHandler.create .zero .zero 0) quietRemote
  exact ⟨u, hrun, hsends, hseen, (requests_answered_iff _ _ hrun).2 hmeets⟩

/-- A FINISHED request is served: two replies are on their way. -/
lemma serve_finished {n : ℕ} {content : MsgBuf} {c : Wire.Cursor}
    (hdec : RwlReplicaRequest.decode content.cbegin = .ok (⟨rwlReplicaFinishedRequest⟩, c))
    (requests : List (ℕ × MsgBuf)) (mem : MemEnv) (mr : MrEnv) :
    ∃ server x y reply c', RwlReplicaFinishedRequestReply.decode x.cbegin = .ok (reply, c') ∧
      s.serve n content requests mem mr =
        { s with
          server := server
          requests := requests
          sends := s.sends ++ [2]
          replies := s.replies ++ [(n, x), (n, y)]
          ended := false } := by
  obtain ⟨hres, -, t, u, ht, -, hsends⟩ :=
    (served (posting mem mr) (s.arrived content)).of_finished hdec rfl
  obtain ⟨c', hreply⟩ : ∃ c', RwlReplicaFinishedRequestReply.decode t.sendBl.cbegin =
      .ok (closeReply (removed (posting mem mr) (s.arrived content)), c') := by
    rw [ht.sendBl]
    exact ⟨_, ((RwlReplicaRequest.reads_encode _).map RwlReplicaFinishedRequestReply.mk).memcpy _
      (length_closeReply _).le⟩
  refine ⟨(dealRequire (posting mem mr) (s.arrived content)).state, t.sendBl, u.sendBl, _, c',
    hreply, ?_⟩
  simp only [System.serve, hres, hsends, stopped]
  rfl

/-- `close_replica`, and when it has returned `init_replica`: the callback of the latter sees
the second reply to the former. -/
lemma run_finished (client : ClientHandler) (server : RPMAHandler) (env : RemoteEnv) :
    ∃ u call call', machine.Run (start client server)
        [.call .finished, .serve (working [7]).mem (workingMr [7]), .deliver env,
          .call sampleRequest, .deliver env] u ∧
      u.sends = [2] ∧
      u.seen = [(0, some (.finishedReply call)), (0, some (.initReply call'))] := by
  have hfin : Request.finished.encode.length < msgSize := by
    rw [Request.encode, RwlReplicaFinishedRequest.encode, RwlReplicaRequest.length_encode]
    decide
  obtain ⟨c, hdec⟩ := Request.finished.decode_encode client.sendBl hfin
  -- `close_replica` is called, and its request is served
  have hstart₁ := Request.started hfin client
  obtain ⟨c₁, hc₁⟩ : ∃ c₁, c₁ = (Request.finished.start client).state := ⟨_, rfl⟩
  obtain ⟨b, hb⟩ : ∃ b, b = client.sendBl.memcpy Request.finished.encode hfin.le := ⟨_, rfl⟩
  have hstep₁ : machine.step (start client server) (.call .finished) =
      some ⟨c₁, server, [.finished], [(0, b)], [], [], [client.nextOp], [], false⟩ := by
    rw [step_call rfl, call_of_started hstart₁, hc₁, hb]
    rfl
  rw [← hb] at hdec
  obtain ⟨server', x, y, reply, c', hreply, hserve⟩ := serve_finished
    (s := ⟨c₁, server, [.finished], [(0, b)], [], [], [client.nextOp], [], false⟩) (n := 0) hdec []
    (working [7]).mem (workingMr [7])
  have hstep₂ := step_serve (s := ⟨c₁, server, [.finished], [(0, b)], [], [], [client.nextOp], [],
    false⟩) rfl rfl (working [7]).mem (workingMr [7])
  rw [hserve] at hstep₂
  -- the first reply is delivered
  have hposted : client.nextOp ∈ c₁.callbackTable := by
    rw [hc₁, hstart₁.callbackTable]
    simp
  have halive : c₁.ops.lookup client.nextOp = some (some (.finishedReply client.nextCall)) := by
    rw [hc₁]
    exact hstart₁.lookup_new
  have hok := deliver_finishedReply (d := ⟨x, env⟩) hposted halive hreply
  obtain ⟨c₂, hc₂⟩ : ∃ c₂, c₂ = (ClientHandler.deliver client.nextOp (some ⟨x, env⟩) c₁).state :=
    ⟨_, rfl⟩
  have hstep₃ : machine.step ⟨c₁, server', [.finished], [], [2], [(0, x), (0, y)],
      [client.nextOp], [], false⟩ (.deliver env) =
      some ⟨c₂, server', [.finished], [], [2], [(0, y)], [],
        [(0, some (.finishedReply client.nextCall))], false⟩ := by
    rw [step_deliver rfl rfl rfl env, hc₂]
    simp only [System.deliver, hok, halive]
    rfl
  -- `init_replica` is called, and its receive takes the second one
  have hstart₂ := Request.started length_sampleRequest c₂
  obtain ⟨c₃, hc₃⟩ : ∃ c₃, c₃ = (sampleRequest.start c₂).state := ⟨_, rfl⟩
  obtain ⟨b', hb'⟩ : ∃ b', b' = c₂.sendBl.memcpy sampleRequest.encode length_sampleRequest.le :=
    ⟨_, rfl⟩
  have hstep₄ : machine.step ⟨c₂, server', [.finished], [], [2], [(0, y)], [],
      [(0, some (.finishedReply client.nextCall))], false⟩ (.call sampleRequest) =
      some ⟨c₃, server', [.finished, sampleRequest], [(1, b')], [2], [(0, y)], [c₂.nextOp],
        [(0, some (.finishedReply client.nextCall))], false⟩ := by
    rw [step_call rfl, call_of_started hstart₂, hc₃, hb']
    rfl
  have hstep₅ := step_deliver (s := ⟨c₃, server', [.finished, sampleRequest], [(1, b')], [2],
    [(0, y)], [c₂.nextOp], [(0, some (.finishedReply client.nextCall))], false⟩) rfl rfl rfl env
  refine ⟨_, client.nextCall, c₂.nextCall,
    ((((Machine.Run.nil _).snoc hstep₁).snoc hstep₂).snoc hstep₃).snoc hstep₄ |>.snoc hstep₅,
    rfl, ?_⟩
  simp only [System.deliver, hc₃, hstart₂.lookup_new]
  rfl

/-- `close_replica` is answered twice, and the callback of the `init_replica` that follows sees
the second answer. -/
theorem finished_answered_twice :
    ∃ u call call', machine.Run (start ClientHandler.created (RPMAHandler.create .zero .zero 0))
        [.call .finished, .serve (working [7]).mem (workingMr [7]), .deliver quietRemote,
          .call sampleRequest, .deliver quietRemote] u ∧
      u.sends = [2] ∧
      u.seen = [(0, some (.finishedReply call)), (0, some (.initReply call'))] ∧
      ¬u.Answered := by
  obtain ⟨u, call, call', hrun, hsends, hseen⟩ := run_finished ClientHandler.created
    (RPMAHandler.create .zero .zero 0) quietRemote
  refine ⟨u, call, call', hrun, hsends, hseen, ?_⟩
  intro hans
  have hone := hans.inOrder 1 (0, some (.initReply call')) (by rw [hseen]; rfl)
  exact absurd hone Nat.zero_ne_one

end System

end RpmaReplica
