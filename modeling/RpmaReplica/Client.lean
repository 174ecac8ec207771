import RpmaReplica.Life
import RpmaReplica.Agreement

/-!
# The client's calls and their callbacks

`init_replica` and `close_replica` are called by a thread of the application, one after another;
the callbacks of the receives they post are run by the thread of the reactor, whenever a
completion arrives.  A call returns as soon as its flag is set, or when it has waited long
enough, and then its locals are gone; but the receive that it has posted is still there, with a
callback that refers to them.

The calls of `ClientHandler` are taken apart here, so that a completion of any operation can be
handled between any two steps of the caller, also between the post of an operation and its
insertion in `callback_table`.  The result is which runs are safe: those in which no call returns
before the completion of its receive has been handled, with the receive in the table
(`settled_iff`).
-/

namespace RpmaReplica

open Exec ConnectionHandler

/-! ### What the functions of the client do to operations -/

namespace ClientHandler

/-- `init_replica` up to its loop. -/
def postInit (recv send : Rpma Unit) (cacheId : UInt32) (cacheSize : UInt64)
    (poolName imageName : Bytes) : Prog ClientHandler Unit := do
  Exec.update fun h => { h with imageSize := cacheSize }
  postRequest recv send (initRequest cacheId cacheSize poolName imageName).encode .initReply

/-- `close_replica` up to its loop. -/
def postFinished (recv send : Rpma Unit) : Prog ClientHandler Unit :=
  postRequest recv send finishedRequest.encode .finishedReply

section Callbacks

variable {H : List Call → ConnectionHandler ClientCallback → ℕ → Prop}

/-- A condition on the base object and on the number of calls so far. -/
def Core (H : List Call → ConnectionHandler ClientCallback → ℕ → Prop) (cs : List Call)
    (h : ClientHandler) : Prop := H cs h.toConnectionHandler h.nextCall

/-- Calls that concern no operation are of no concern to the condition. -/
def Overlooks (H : List Call → ConnectionHandler ClientCallback → ℕ → Prop) : Prop :=
  ∀ cs c b n, Call.IsNeutral c → H cs b n → H (cs ++ [c]) b n

lemma logs_neutral (hH : Overlooks H) {c : Call} (hc : c.IsNeutral) :
    Logs (Core H) (Exec.call c : Prog ClientHandler Unit) fun _ => Core H :=
  Logs.call fun cs _ hs => hH cs c _ _ hc hs

lemma logs_applyPcfg (hH : Overlooks H) (env : RemoteEnv) (desc : RpmaConfigDescriptor) :
    Logs (Core H) (applyPcfg env desc) fun _ => Core H := by
  refine Logs.ite (fun _ => Logs.ret fun _ _ hs => hs) fun _ => ?_
  refine Logs.seq (logs_neutral hH ⟨rfl, rfl, rfl⟩) (fun _ => ?_) fun _ _ _ hs => hs
  split <;> exact Logs.ret fun _ _ hs => hs

lemma logs_createImageMr (hH : Overlooks H) (env : RemoteEnv) (desc : RpmaConfigDescriptor) :
    Logs (Core H) (createImageMr env desc) fun _ => Core H := by
  refine Logs.seq (logs_neutral hH ⟨rfl, rfl, rfl⟩) (fun _ => ?_) fun _ _ _ hs => hs
  split
  · exact Logs.update fun _ _ hs => hs
  · exact Logs.ret fun _ _ hs => hs

lemma logs_decodeFrom {α : Type} (d : Wire.Decoder α) (buf : MsgBuf) :
    Logs (Core H) (decodeFrom d buf) fun _ => Core H := by
  rw [decodeFrom]
  split
  · exact Logs.ret fun _ _ hs => hs
  · exact Logs.stop fun _ _ hs => hs

lemma logs_getRemoteDescriptor (hH : Overlooks H) (env : RemoteEnv) :
    Logs (Core H) (getRemoteDescriptor env) fun _ => Core H := by
  refine Logs.read fun h => ?_
  refine Logs.seq ((logs_decodeFrom _ _).conseq (fun _ _ hs => hs.1) fun _ _ _ hs => hs)
    (fun reply => ?_) fun _ _ _ hs => hs
  refine Logs.ite (fun _ => ?_) fun _ => Logs.ret fun _ _ hs => hs
  refine Logs.seq (logs_applyPcfg hH env _) (fun direct => ?_) fun _ _ _ hs => hs
  refine Logs.seq (logs_createImageMr hH env _) (fun _ => ?_) fun _ _ _ hs => hs
  refine Logs.read fun h' => ?_
  refine Logs.ite (fun _ => Logs.ret fun _ _ hs => hs.1) fun _ => ?_
  exact Logs.seq (Logs.update fun _ _ hs => hs.1) (fun _ => Logs.ret fun _ _ hs => hs)
    fun _ _ _ hs => hs

/-- A callback concerns neither the operations nor the base object. -/
lemma logs_runCallback (hH : Overlooks H) (env : RemoteEnv) (callback : ClientCallback) :
    Logs (Core H) (runCallback env callback) fun _ => Core H := by
  cases callback with
  | initReply call =>
      refine Logs.seq (logs_getRemoteDescriptor hH env) (fun _ => ?_) fun _ _ _ hs => hs
      exact Logs.read fun h => Logs.update fun _ _ hs => hs.1
  | finishedReply call =>
      refine Logs.read fun h => ?_
      exact Logs.seq ((logs_decodeFrom _ _).conseq (fun _ _ hs => hs.1) fun _ _ _ hs => hs)
        (fun reply => Logs.update fun _ _ hs => hs) fun _ _ _ hs => hs
  | application id => exact Logs.ret fun _ _ hs => hs

end Callbacks

/-- Whether or not it throws, a callback leaves the base object as it is. -/
lemma runCallback_base (env : RemoteEnv) (callback : ClientCallback) (h : ClientHandler) :
    (runCallback env callback h).state.toConnectionHandler = h.toConnectionHandler ∧
      (runCallback env callback h).state.nextCall = h.nextCall :=
  logs_runCallback (H := fun _ b n => b = h.toConnectionHandler ∧ n = h.nextCall)
    (fun _ _ _ _ _ hs => hs) env callback [] h ⟨rfl, rfl⟩

/-- A callback keeps the books. -/
lemma logs_runCallback_ops {P : List Call → ConnectionHandler ClientCallback → Prop}
    (hP : IsAboutOps P) (env : RemoteEnv) (callback : ClientCallback) :
    Logs (fun cs h => P cs h.toConnectionHandler) (runCallback env callback)
      fun _ cs h => P cs h.toConnectionHandler :=
  logs_runCallback (H := fun cs b _ => P cs b) (fun cs c b _ hc hs => hP.neutral cs c b hc hs)
    env callback

/-- A condition on the operations that the two posts of call `n` keep. -/
lemma logs_postRequest {P : List Call → ConnectionHandler ClientCallback → Prop}
    (hP : IsAboutOps P) {recv send : Rpma Unit} {callback : ℕ → ClientCallback} {n : ℕ}
    (hrecv : Logs P (ConnectionHandler.recv recv (some (callback n))) fun _ => P)
    (hsend : Logs P (ConnectionHandler.send send none) fun _ => P) (request : Bytes) :
    Logs (fun cs h => P cs h.toConnectionHandler ∧ h.nextCall = n)
      (postRequest recv send request callback) fun _ cs h => P cs h.toConnectionHandler := by
  have hfill : Logs P (fillSendBl request) fun _ => P := by
    rw [fillSendBl]
    split
    · exact Logs.update fun cs h hs => hP.congr cs h _ rfl rfl rfl hs
    · exact Logs.stop fun _ _ hs => hs
  refine Logs.read fun h => ?_
  by_cases hn : h.nextCall = n
  · subst hn
    refine Logs.seq (Logs.update fun _ _ hs => hs.1.1) (fun _ => ?_) fun _ _ _ hs => hs
    refine Logs.seq (hfill.zoom base) (fun _ => ?_) fun _ _ _ hs => hs
    refine Logs.seq (Logs.update fun _ _ hs => hs) (fun _ => ?_) fun _ _ _ hs => hs
    refine Logs.seq (hrecv.zoom base) (fun _ => ?_) fun _ _ _ hs => hs
    exact Logs.seq (hsend.zoom base) (fun _ => Logs.ret fun _ _ hs => hs) fun _ _ _ hs => hs
  · intro cs s hs
    exact absurd (hs.2 ▸ hs.1.2) hn

/-- A call up to its posts: the request is put into `send_bl`, and the locals are set. -/
def beginCall (request : Bytes) : Prog ClientHandler Unit := do
  let h ← Exec.read
  Exec.update fun h => { h with nextCall := h.nextCall + 1 }
  Exec.zoom base (ConnectionHandler.fillSendBl request)
  setLocals h.nextCall ⟨false, false⟩

/-- `init_replica` up to its posts. -/
def beginInit (cacheId : UInt32) (cacheSize : UInt64) (poolName imageName : Bytes) :
    Prog ClientHandler Unit := do
  Exec.update fun h => { h with imageSize := cacheSize }
  beginCall (initRequest cacheId cacheSize poolName imageName).encode

/-- `close_replica` up to its posts. -/
def beginFinished : Prog ClientHandler Unit := beginCall finishedRequest.encode

/-- The posts of a call. -/
def posts (recv send : Rpma Unit) (callback : ClientCallback) : Prog ClientHandler Unit := do
  let _ ← Exec.zoom base (ConnectionHandler.recv recv (some callback))
  let _ ← Exec.zoom base (ConnectionHandler.send send none)

lemma postRequest_eq (recv send : Rpma Unit) (request : Bytes) (callback : ℕ → ClientCallback)
    (h : ClientHandler) :
    postRequest recv send request callback h =
      (beginCall request >>= fun _ => posts recv send (callback h.nextCall)) h := by
  simp only [beginCall, Exec.bind_assoc]
  rfl

lemma postInit_eq (recv send : Rpma Unit) (cacheId : UInt32) (cacheSize : UInt64)
    (poolName imageName : Bytes) (h : ClientHandler) :
    postInit recv send cacheId cacheSize poolName imageName h =
      (beginInit cacheId cacheSize poolName imageName >>= fun _ =>
        posts recv send (.initReply h.nextCall)) h := by
  rw [postInit, update_bind, postRequest_eq, beginInit, Exec.bind_assoc, update_bind]

/-- The beginning of a call makes no call to the outside and concerns no operation; the request
is copied into `send_bl` if it fits. -/
structure Begun (request : Bytes) (h : ClientHandler) (o : Outcome Call Stop ClientHandler Unit) :
    Prop where
  calls : o.calls = []
  result : request.length < msgSize → o.result = .ok ()
  copied : ∀ hlen : request.length < msgSize, o.state.sendBl = h.sendBl.memcpy request hlen.le
  kept : ¬request.length < msgSize → o.state.sendBl = h.sendBl
  callbackTable : o.state.callbackTable = h.callbackTable
  ops : o.state.ops = h.ops
  nextOp : o.state.nextOp = h.nextOp
  nextCall : o.state.nextCall = h.nextCall + 1

lemma begun_beginCall (request : Bytes) (h : ClientHandler) :
    Begun request h (beginCall request h) := by
  rw [beginCall]
  simp only [bind_apply, read_apply, update_apply, Outcome.andThen_ok, zoom_apply]
  by_cases hlen : request.length < msgSize
  · rw [fillSendBl_of_lt hlen]
    exact ⟨rfl, fun _ => rfl, fun _ => rfl, fun hno => absurd hlen hno, rfl, rfl, rfl, rfl⟩
  · rw [fillSendBl_of_le hlen]
    exact ⟨rfl, fun hyes => absurd hyes hlen, fun hyes => absurd hyes hlen, fun _ => rfl, rfl, rfl,
      rfl, rfl⟩

lemma begun_beginInit (cacheId : UInt32) (cacheSize : UInt64) (poolName imageName : Bytes)
    (h : ClientHandler) :
    Begun (initRequest cacheId cacheSize poolName imageName).encode h
      (beginInit cacheId cacheSize poolName imageName h) := by
  have hbegun := begun_beginCall (initRequest cacheId cacheSize poolName imageName).encode
    { h with imageSize := cacheSize }
  rw [beginInit, update_bind]
  exact ⟨hbegun.calls, hbegun.result, hbegun.copied, hbegun.kept, hbegun.callbackTable, hbegun.ops,
    hbegun.nextOp, hbegun.nextCall⟩

/-- A callback posts nothing and sends nothing. -/
lemma runCallback_only (env : RemoteEnv) (callback : ClientCallback) :
    Only (fun c => c.posts = none ∧ ¬c.IsSend) (runCallback env callback) := by
  have hpcfg : ∀ desc, Only (fun c => c.posts = none ∧ ¬c.IsSend) (applyPcfg env desc) := by
    intro desc
    refine .ite (.ret _) (.bind (.call ⟨rfl, id⟩) fun _ => ?_)
    split <;> exact .ret _
  have hmr : ∀ desc, Only (fun c => c.posts = none ∧ ¬c.IsSend) (createImageMr env desc) := by
    intro desc
    refine .bind (.call ⟨rfl, id⟩) fun _ => ?_
    split
    · exact .update _
    · exact .ret _
  cases callback with
  | initReply call =>
      refine .bind (.bind .read fun h => .bind (decodeFrom_only _ _) fun reply => .ite ?_ (.ret _))
        fun _ => .bind .read fun h => .update _
      refine .bind (hpcfg _) fun _ => .bind (hmr _) fun _ => .bind .read fun h => .ite (.ret _) ?_
      exact .bind (.update _) fun _ => .ret _
  | finishedReply call =>
      exact .bind .read fun h => .bind (decodeFrom_only _ _) fun reply => .update _
  | application id => exact .ret _

end ClientHandler

/-! ### The machine -/

/-- The call whose locals a callback refers to. -/
def ClientCallback.owner : ClientCallback → Option ℕ
  | .initReply call | .finishedReply call => some call
  | .application _ => none

/-- Where a call is: before the post of its receive, between the post and the insertion in
`callback_table`, the same for its send, and in its loop. -/
inductive CallPlace
  | recv
  | recvPosted (op : OpId)
  | send
  | sendPosted (op : OpId)
  | loop
  deriving DecidableEq, Repr

/-- The operation that is posted and not yet in the table. -/
def CallPlace.unentered : CallPlace → List OpId
  | .recvPosted op | .sendPosted op => [op]
  | .recv | .send | .loop => []

/-- The stack frame of a call: its number, the callback of its receive, the receives it has
posted, the time it has waited, and where it is. -/
structure Frame where
  call : ℕ
  callback : ClientCallback
  receives : List OpId
  costTime : ℤ
  place : CallPlace
  deriving DecidableEq, Repr

/-- A client: its handler, the calls made to the outside, each with the state it was made in,
the completions taken from the queue, the operations whose completions were handled before they
were in the table, the call that is under way, the calls that have returned, and the callbacks
that have run although the call they refer to had returned. -/
structure Client where
  handler : ClientHandler
  trace : List (ClientHandler × Call)
  taken : List Completion
  early : List OpId
  running : Option Frame
  returned : List Frame
  stale : List ClientCallback
  /-- The process is gone: no step follows. -/
  ended : Bool

/-- What can happen at a client. -/
inductive ClientAct
  /-- `init_replica` is called, and its uninitialised local `cost_time` holds some value. -/
  | initReplica (cacheId : UInt32) (cacheSize : UInt64) (poolName imageName : Bytes)
      (uninitCostTime : ℤ)
  /-- `close_replica` is called. -/
  | closeReplica (uninitCostTime : ℤ)
  /-- The call that is under way creates its next operation, the receive or the send, and posts
  it. -/
  | post (res : Rpma Unit)
  /-- It inserts the operation that it has posted in `callback_table`. -/
  | insert
  /-- It makes one turn of its loop and reads the time. -/
  | turn (elapsed : ℤ)
  /-- It leaves the loop and returns. -/
  | leave
  /-- The reactor calls `handle_completion`, in which `rpma_conn_completion_wait` fails or
  `rpma_conn_completion_get` returns `got`; `recv_bl` holds `content` by then. -/
  | completion (got : Rpma Completion) (content : MsgBuf) (env : RemoteEnv)

namespace Client

/-- The handler. -/
def own : Lens Client ClientHandler where
  get := handler
  set h c := { c with handler := h }
  get_set _ _ := rfl
  set_get _ := rfl
  set_set _ _ _ := rfl

/-- The base object of the handler. -/
def conn : Lens Client (ConnectionHandler ClientCallback) where
  get c := c.handler.toConnectionHandler
  set b c := { c with handler := { c.handler with toConnectionHandler := b } }
  get_set _ _ := rfl
  set_get _ := rfl
  set_set _ _ _ := rfl

/-- A new client, with the contents its buffers and the members that its constructor does not
set happen to have. -/
def create (sendBl recvBl : MsgBuf) (flushType : FlushType) (imageSize : UInt64)
    (imageMr : Option MrRemote) : Client where
  handler :=
    { ClientHandler.created with
      toConnectionHandler := ConnectionHandler.create sendBl recvBl
      flushType := flushType
      imageSize := imageSize
      imageMr := imageMr }
  trace := []
  taken := []
  early := []
  running := none
  returned := []
  stale := []
  ended := false

/-- The calls made to the outside. -/
def calls (c : Client) : List Call := c.trace.map Prod.snd

/-- The operations whose completions have been taken from the queue. -/
def completed (c : Client) : List OpId := c.taken.filterMap Completion.opContext

/-- The operations that have been completed with success. -/
def answered (c : Client) : List OpId := (c.taken.filter (·.success)).filterMap Completion.opContext

/-- The operation that a completion says has succeeded. -/
def succeeds : Rpma Completion → List OpId
  | .ok ⟨some op, _, true⟩ => [op]
  | _ => []

/-- The operations that are posted and not completed. -/
def outstanding (c : Client) : List OpId := (postedOps c.calls).filter (· ∉ c.completed)

/-- The operation that the call under way has posted and not yet inserted in the table. -/
def unentered (c : Client) : List OpId := c.running.toList.flatMap fun f => f.place.unentered

/-- The calls under way and the calls that have returned. -/
def frames (c : Client) : List Frame := c.running.toList ++ c.returned

/-- The condition of the loop in the call `f`. -/
def Waits (c : Client) (f : Frame) : Prop :=
  (c.handler.locals f.call).completed = false ∧ f.costTime < 10000000

instance (c : Client) (f : Frame) : Decidable (c.Waits f) := inferInstanceAs (Decidable (_ ∧ _))

/-- What a program has done to a client. -/
def after {ρ : Type} (c : Client) (o : Outcome Call Stop Client ρ) : Client :=
  { o.state with
    trace := c.trace ++ o.calls.map fun p => (p.1.handler, p.2)
    ended := !Session.survives o.result }

/-- A call is entered: it runs up to its posts. -/
def enter (c : Client) (m : Prog ClientHandler Unit) (callback : ℕ → ClientCallback)
    (costTime : ℤ) : Client :=
  { c.after (zoom own m c) with
    running := some ⟨c.handler.nextCall, callback c.handler.nextCall, [], costTime, .recv⟩ }

/-- The first half of `recv`: the operation is created and posted, and destroyed if the post
fails. -/
def postRecv (c : Client) (f : Frame) (res : Rpma Unit) : Client :=
  { c.after (zoom conn (createAndPost (fun op => .rpmaRecv (some op) res) res (some f.callback))
      c) with
    running := some (match res with
      | .ok _ => { f with
          receives := f.receives ++ [c.handler.nextOp]
          place := .recvPosted c.handler.nextOp }
      | .error _ => { f with place := .send }) }

/-- The first half of `send`. -/
def postSend (c : Client) (f : Frame) (res : Rpma Unit) : Client :=
  { c.after (zoom conn (createAndPost (fun op => .rpmaSend (some op) res) res none) c) with
    running := some (match res with
      | .ok _ => { f with place := .sendPosted c.handler.nextOp }
      | .error _ => { f with place := .loop }) }

/-- The second half of either: the operation is inserted in the table. -/
def insertPosted (c : Client) (f : Frame) (op : OpId) (next : CallPlace) : Client :=
  { c.after (zoom conn (insertOp op) c) with running := some { f with place := next } }

/-- A callback runs; it is stale if the call it refers to has returned. -/
def callback (env : RemoteEnv) (k : ClientCallback) : Prog Client Unit := do
  Exec.update fun c =>
    { c with stale := c.stale ++ if ∃ f ∈ c.returned, k.owner = some f.call then [k] else [] }
  Exec.zoom own (ClientHandler.runCallback env k)

/-- The state in which a completion is handled. -/
def arrived (c : Client) (content : MsgBuf) : Client :=
  { c with handler := { c.handler with recvBl := content } }

def completion (c : Client) (got : Rpma Completion) (content : MsgBuf) (env : RemoteEnv) : Client :=
  { c.after (completionGot conn (callback env) got (c.arrived content)) with
    taken := c.taken ++ got.toOption.toList
    early := c.early ++ (succeeds got).filter (· ∈ c.unentered) }

/-- Any calls, one after another, each with any results of its posts and any clock, and any
completions of the operations posted, at any time. -/
def machine : Machine Client ClientAct where
  step c
    | .initReplica cacheId cacheSize poolName imageName uninitCostTime =>
      if c.ended = false ∧ c.running = none then
        some (c.enter (ClientHandler.beginInit cacheId cacheSize poolName imageName) .initReply
          uninitCostTime)
      else none
    | .closeReplica uninitCostTime =>
      if c.ended = false ∧ c.running = none then
        some (c.enter ClientHandler.beginFinished .finishedReply uninitCostTime)
      else none
    | .post res =>
      c.running.bind fun f =>
        if c.ended = false then
          match f.place with
          | .recv => some (c.postRecv f res)
          | .send => some (c.postSend f res)
          | .recvPosted _ | .sendPosted _ | .loop => none
        else none
    | .insert =>
      c.running.bind fun f =>
        if c.ended = false then
          match f.place with
          | .recvPosted op => some (c.insertPosted f op .send)
          | .sendPosted op => some (c.insertPosted f op .loop)
          | .recv | .send | .loop => none
        else none
    | .turn elapsed =>
      c.running.bind fun f =>
        if c.ended = false ∧ f.place = .loop ∧ c.Waits f then
          some { c with running := some { f with costTime := elapsed } }
        else none
    | .leave =>
      c.running.bind fun f =>
        if c.ended = false ∧ f.place = .loop ∧ ¬c.Waits f then
          some { c with running := none, returned := c.returned ++ [f] }
        else none
    | .completion got content env =>
      if c.ended = false ∧ ∀ op ∈ Life.completes got, op ∈ c.outstanding then
        some (c.completion got content env)
      else none

/-- The request that a call sends. -/
def request : ClientAct → Option Bytes
  | .initReplica cacheId cacheSize poolName imageName _ =>
    some (ClientHandler.initRequest cacheId cacheSize poolName imageName).encode
  | .closeReplica _ => some ClientHandler.finishedRequest.encode
  | .post _ | .insert | .turn _ | .leave | .completion _ _ _ => none

/-- What a step of a client is. -/
inductive Step (c : Client) : ClientAct → Client → Prop
  | enter {a : ClientAct} {r : Bytes} {m : Prog ClientHandler Unit}
      {callback : ℕ → ClientCallback} (costTime : ℤ) (ha : request a = some r)
      (hrunning : c.running = none) (hbegun : ClientHandler.Begun r c.handler (m c.handler))
      (hcallback : ∀ n, ClientHandler.IsReplyOf n (callback n)) :
      Step c a (c.enter m callback costTime)
  | postRecv {f : Frame} (hrunning : c.running = some f) (hplace : f.place = .recv)
      (res : Rpma Unit) : Step c (.post res) (c.postRecv f res)
  | postSend {f : Frame} (hrunning : c.running = some f) (hplace : f.place = .send)
      (res : Rpma Unit) : Step c (.post res) (c.postSend f res)
  | insert {f : Frame} {op : OpId} {next : CallPlace} (hrunning : c.running = some f)
      (hplace : f.place.unentered = [op]) (hnext : next.unentered = []) :
      Step c .insert (c.insertPosted f op next)
  | turn {f : Frame} (hrunning : c.running = some f) (hplace : f.place = .loop) (elapsed : ℤ) :
      Step c (.turn elapsed) { c with running := some { f with costTime := elapsed } }
  | leave {f : Frame} (hrunning : c.running = some f) (hplace : f.place = .loop)
      (hwaits : ¬c.Waits f) :
      Step c .leave { c with running := none, returned := c.returned ++ [f] }
  | completion {got : Rpma Completion} (hgot : ∀ op ∈ Life.completes got, op ∈ c.outstanding)
      (content : MsgBuf) (env : RemoteEnv) :
      Step c (.completion got content env) (c.completion got content env)

lemma step_cases {c u : Client} {a : ClientAct} (h : machine.step c a = some u) :
    c.ended = false ∧ c.Step a u := by
  cases a with
  | initReplica cacheId cacheSize poolName imageName uninitCostTime =>
      simp only [machine, Option.ite_none_right_eq_some, Option.some.injEq] at h
      obtain ⟨⟨hended, hrunning⟩, rfl⟩ := h
      exact ⟨hended, .enter _ rfl hrunning (ClientHandler.begun_beginInit _ _ _ _ _)
        fun _ => .inl rfl⟩
  | closeReplica uninitCostTime =>
      simp only [machine, Option.ite_none_right_eq_some, Option.some.injEq] at h
      obtain ⟨⟨hended, hrunning⟩, rfl⟩ := h
      exact ⟨hended, .enter _ rfl hrunning (ClientHandler.begun_beginCall _ _)
        fun _ => .inr rfl⟩
  | post res =>
      simp only [machine, Option.bind_eq_some_iff, Option.ite_none_right_eq_some] at h
      obtain ⟨f, hf, hended, h⟩ := h
      refine ⟨hended, ?_⟩
      cases hplace : f.place with
      | recv =>
          rw [hplace] at h
          obtain rfl := Option.some.inj h
          exact .postRecv hf hplace res
      | send =>
          rw [hplace] at h
          obtain rfl := Option.some.inj h
          exact .postSend hf hplace res
      | _ => simp [hplace] at h
  | insert =>
      simp only [machine, Option.bind_eq_some_iff, Option.ite_none_right_eq_some] at h
      obtain ⟨f, hf, hended, h⟩ := h
      refine ⟨hended, ?_⟩
      cases hplace : f.place with
      | recvPosted op =>
          rw [hplace] at h
          obtain rfl := Option.some.inj h
          exact .insert hf (by rw [hplace]; rfl) rfl
      | sendPosted op =>
          rw [hplace] at h
          obtain rfl := Option.some.inj h
          exact .insert hf (by rw [hplace]; rfl) rfl
      | _ => simp [hplace] at h
  | turn elapsed =>
      simp only [machine, Option.bind_eq_some_iff, Option.ite_none_right_eq_some,
        Option.some.injEq] at h
      obtain ⟨f, hf, ⟨hended, hplace, -⟩, rfl⟩ := h
      exact ⟨hended, .turn hf hplace elapsed⟩
  | leave =>
      simp only [machine, Option.bind_eq_some_iff, Option.ite_none_right_eq_some,
        Option.some.injEq] at h
      obtain ⟨f, hf, ⟨hended, hplace, hwaits⟩, rfl⟩ := h
      exact ⟨hended, .leave hf hplace hwaits⟩
  | completion got content env =>
      simp only [machine, Option.ite_none_right_eq_some, Option.some.injEq] at h
      obtain ⟨⟨hended, hgot⟩, rfl⟩ := h
      exact ⟨hended, .completion hgot content env⟩

/-! ### What a completion does -/

@[simp] lemma calls_after {ρ : Type} (c : Client) (o : Outcome Call Stop Client ρ) :
    (c.after o).calls = c.calls ++ log o := by
  simp [calls, after, log, Function.comp_def]

lemma mem_outstanding {c : Client} {op : OpId} :
    op ∈ c.outstanding ↔ op ∈ postedOps c.calls ∧ op ∉ c.completed := by
  simp [outstanding]

lemma completed_of_answered {c : Client} {op : OpId} (hop : op ∈ c.answered) :
    op ∈ c.completed := by
  obtain ⟨cmpl, hcmpl, hctx⟩ := List.mem_filterMap.1 hop
  exact List.mem_filterMap.2 ⟨cmpl, (List.mem_filter.1 hcmpl).1, hctx⟩

/-- A completion that is passed over says of no operation that it has succeeded. -/
lemma succeeds_passed {cmpl : Completion} (h : cmpl.success = false ∨ cmpl.opContext = none) :
    succeeds (.ok cmpl) = [] := by
  rcases cmpl with ⟨_ | op, oc, _ | _⟩
  · rfl
  · rfl
  · rfl
  · simp at h

lemma completes_of_succeeds {got : Rpma Completion} {op : OpId} (h : op ∈ succeeds got) :
    op ∈ Life.completes got := by
  rcases got with e | ⟨_ | op', oc, _ | _⟩
  · exact absurd h List.not_mem_nil
  · exact absurd h List.not_mem_nil
  · exact absurd h List.not_mem_nil
  · exact absurd h List.not_mem_nil
  · exact h

@[simp] lemma answered_completion (c : Client) (got : Rpma Completion) (content : MsgBuf)
    (env : RemoteEnv) : (c.completion got content env).answered = c.answered ++ succeeds got := by
  simp only [answered, completion, List.filter_append, List.filterMap_append]
  congr 1
  rcases got with e | ⟨_ | op, oc, _ | _⟩ <;> rfl

/-- The callback that runs when the completion of `op` is handled, if it is stale. -/
def staleOn (c : Client) (op : OpId) : List ClientCallback :=
  match c.handler.ops.lookup op with
  | some (some k) => if ∃ f ∈ c.returned, k.owner = some f.call then [k] else []
  | _ => []

/-- What is left of a client when the completion of an operation has been handled. -/
lemma retire_state (env : RemoteEnv) (op : OpId) (c : Client) :
    ∃ h, (retire conn (callback env) op c).state =
        { c with handler := h, stale := c.stale ++ c.staleOn op } ∧
      h.callbackTable = c.handler.callbackTable.erase op ∧
      h.ops = c.handler.ops.filter (·.1 ≠ op) ∧ h.nextCall = c.handler.nextCall ∧
      h.sendBl = c.handler.sendBl ∧ h.nextOp = c.handler.nextOp := by
  have herase : (zoom conn (eraseOp op) c).result = .ok () := rfl
  have hlookup : (conn.get (zoom conn (eraseOp op) c).state).ops.lookup op =
      c.handler.ops.lookup op := rfl
  rw [retire, bind_apply, Outcome.andThen_of_ok herase]
  simp only [ensuring_apply, doCallback, bind_apply, read_apply, Outcome.andThen_ok]
  rw [hlookup, staleOn]
  have hsame : ∃ h, (zoom conn (deleteOp op) (zoom conn (eraseOp op) c).state).state =
        { c with handler := h, stale := c.stale ++ [] } ∧
      h.callbackTable = c.handler.callbackTable.erase op ∧
      h.ops = c.handler.ops.filter (·.1 ≠ op) ∧ h.nextCall = c.handler.nextCall ∧
      h.sendBl = c.handler.sendBl ∧ h.nextOp = c.handler.nextOp := by
    refine ⟨{ c.handler with
      callbackTable := c.handler.callbackTable.erase op
      ops := c.handler.ops.filter (·.1 ≠ op) }, ?_, rfl, rfl, rfl, rfl, rfl⟩
    rw [List.append_nil]
    rfl
  rcases c.handler.ops.lookup op with _ | _ | k
  · exact hsame
  · exact hsame
  · -- the callback leaves the base object alone, whether or not it throws
    obtain ⟨hbase, hnext⟩ := ClientHandler.runCallback_base env k
      (zoom conn (eraseOp op) c).state.handler
    let h' := (ClientHandler.runCallback env k (zoom conn (eraseOp op) c).state.handler).state
    refine ⟨{ h' with toConnectionHandler := (deleteOp op h'.toConnectionHandler).state }, rfl,
      ?_, ?_, hnext, ?_, ?_⟩
    · exact congrArg ConnectionHandler.callbackTable hbase
    · exact congrArg (fun b : ConnectionHandler ClientCallback => b.ops.filter (·.1 ≠ op)) hbase
    · have hbl := congrArg ConnectionHandler.sendBl hbase
      exact hbl
    · have hop := congrArg ConnectionHandler.nextOp hbase
      exact hop

/-- The handler, and the stale callbacks that have run, after a call of `handle_completion`: only
a successful completion of an operation changes the operations. -/
structure Handled (c : Client) (got : Rpma Completion) (h : ClientHandler)
    (stale : List ClientCallback) : Prop where
  ops : ∀ p ∈ h.ops, p ∈ c.handler.ops
  nextCall : h.nextCall = c.handler.nextCall
  sendBl : h.sendBl = c.handler.sendBl
  nextOp : h.nextOp = c.handler.nextOp
  table : ∀ op, op ∈ h.callbackTable ↔ op ∈ c.handler.callbackTable ∧ op ∉ succeeds got
  stale : stale = (succeeds got).flatMap c.staleOn

lemma completion_handled (c : Client) (got : Rpma Completion) (content : MsgBuf)
    (env : RemoteEnv) :
    ∃ h stale, (completionGot conn (callback env) got (c.arrived content)).state =
      { c with handler := h, stale := c.stale ++ stale } ∧ Handled c got h stale := by
  -- everything but the successful completion of an operation
  have hother : ∀ h : ClientHandler, succeeds got = [] →
      (completionGot conn (callback env) got (c.arrived content)).state = { c with handler := h } →
      h.callbackTable = c.handler.callbackTable → h.ops = c.handler.ops →
      h.nextCall = c.handler.nextCall → h.sendBl = c.handler.sendBl →
      h.nextOp = c.handler.nextOp →
      ∃ h stale, (completionGot conn (callback env) got (c.arrived content)).state =
        { c with handler := h, stale := c.stale ++ stale } ∧ Handled c got h stale := by
    intro h hgot hstate htable hops hnext hbl hop
    refine ⟨h, [], ?_, fun p hp => hops ▸ hp, hnext, hbl, hop, ?_, ?_⟩
    · rw [hstate, List.append_nil]
    · simp [hgot, htable]
    · simp [hgot]
  rcases completionGot_cases conn (callback env) got with ⟨e, rfl, heq⟩ | ⟨cmpl, rfl, hcmpl, heq⟩ |
    ⟨op, oc, rfl, heq⟩
  · by_cases he : e = .noCompletion
    · refine hother (c.arrived content).handler rfl ?_ rfl rfl rfl rfl rfl
      rw [heq, completionFailed, if_pos he]
      rfl
    · refine hother { (c.arrived content).handler with
        conn := { c.handler.conn with disconnected := true } } rfl ?_ rfl rfl rfl rfl rfl
      rw [heq, completionFailed, if_neg he]
      rfl
  · refine hother (c.arrived content).handler (succeeds_passed hcmpl) ?_ rfl rfl rfl rfl rfl
    rw [heq]
    rfl
  · obtain ⟨h, hstate, htable, hops, hnext, hbl, hnextOp⟩ := retire_state env op (c.arrived content)
    refine ⟨h, c.staleOn op, ?_, ?_, hnext, hbl, hnextOp, ?_, ?_⟩
    · rw [heq, bind_apply, andThen_pure]
      exact hstate
    · intro p hp
      rw [hops] at hp
      exact (List.mem_filter.1 hp).1
    · intro op'
      rw [htable, Finset.mem_erase, and_comm, succeeds, List.mem_singleton]
      rfl
    · simp [succeeds]

/-- Handling a completion posts nothing and sends nothing. -/
lemma completionGot_only (env : RemoteEnv) (got : Rpma Completion) :
    Only (fun c => c.posts = none ∧ ¬c.IsSend) (completionGot conn (callback env) got) := by
  rcases completionGot_cases conn (callback env) got with ⟨e, -, heq⟩ | ⟨cmpl, -, -, heq⟩ |
    ⟨op, oc, -, heq⟩
  · rw [heq]
    exact .ite (.ret _)
      (.bind (.zoom _ (.bind (.update _) fun _ => .call ⟨rfl, id⟩)) fun _ => .ret _)
  · rw [heq]
    exact .ret _
  · rw [heq]
    have hcallback : Only (fun c => c.posts = none ∧ ¬c.IsSend)
        (doCallback conn (callback env) op) := by
      refine .bind .read fun s => ?_
      split
      · exact .bind (.update _) fun _ => .zoom _ (ClientHandler.runCallback_only env _)
      · exact .ret _
      · exact .stop _
    refine .bind (.bind (.zoom _ (.update _)) fun _ => hcallback.ensuring ?_) fun _ => .ret _
    exact .zoom _ (.bind (.call ⟨rfl, id⟩) fun _ => .update _)

lemma postedOps_completion (c : Client) (got : Rpma Completion) (content : MsgBuf)
    (env : RemoteEnv) : postedOps (c.completion got content env).calls = postedOps c.calls := by
  have hcalls : (c.completion got content env).calls =
      c.calls ++ log (completionGot conn (callback env) got (c.arrived content)) :=
    calls_after c _
  have hnone : postedOps (log (completionGot conn (callback env) got (c.arrived content))) =
      [] := by
    refine List.filterMap_eq_nil_iff.2 fun d hd => ?_
    obtain ⟨p, hp, rfl⟩ := List.mem_map.1 hd
    exact (completionGot_only env got _ p hp).1
  rw [hcalls, postedOps_append, hnone, List.append_nil]

/-! ### Which runs are safe -/

/-- No call that has returned has left a receive behind, and no callback has run that refers to
the locals of such a call. -/
def Settled (c : Client) : Prop :=
  (∀ f ∈ c.returned, ∀ op ∈ f.receives, op ∉ c.handler.callbackTable) ∧ c.stale = []

/-- A call returns only when the receive that it has posted, if it could be posted, has been
completed with success, and that completion was handled when the receive was in the table
already, not between its post and its insertion. -/
def ReturnsAnswered (c : Client) (a : ClientAct) : Prop :=
  a = .leave → ∀ f, c.running = some f → ∀ op ∈ f.receives, op ∈ c.answered ∧ op ∉ c.early

/-- The calls under way and returned: they have numbers of their own, they own the operations
whose callbacks refer to their locals, and the receives of those that have returned were answered
in time. -/
structure Owned (c : Client) : Prop where
  numbers : (c.frames.map Frame.call).Nodup
  numbers_lt : ∀ f ∈ c.frames, f.call < c.handler.nextCall
  callback : ∀ f, c.running = some f → ClientHandler.IsReplyOf f.call f.callback
  owner : ∀ op k n, (op, some k) ∈ c.handler.ops → k.owner = some n →
    ∃ f ∈ c.frames, f.call = n ∧ op ∈ f.receives
  posted : ∀ f ∈ c.frames, ∀ op ∈ f.receives, op ∈ postedOps c.calls
  settled : ∀ f ∈ c.returned, ∀ op ∈ f.receives, op ∈ c.answered ∧ op ∉ c.early

/-- The invariant of the runs in which calls return answered.  The table holds what is posted,
less what is not inserted yet and what was answered in time; an operation that was answered too
early is there although it is destroyed. -/
structure Inv (c : Client) : Prop where
  table : ∀ op, op ∈ c.handler.callbackTable ↔
    op ∈ postedOps c.calls ∧ op ∉ c.unentered ∧ (op ∈ c.answered → op ∈ c.early)
  posted_lt : ∀ op ∈ postedOps c.calls, op < c.handler.nextOp
  unentered_posted : ∀ op ∈ c.unentered, op ∈ postedOps c.calls
  unentered_early : ∀ op ∈ c.unentered, op ∈ c.answered → op ∈ c.early
  answered_posted : ∀ op ∈ c.answered, op ∈ postedOps c.calls
  early_answered : ∀ op ∈ c.early, op ∈ c.answered
  owned : c.Owned
  stale : c.stale = []

lemma create_inv (sendBl recvBl : MsgBuf) (flushType : FlushType) (imageSize : UInt64)
    (imageMr : Option MrRemote) : Inv (create sendBl recvBl flushType imageSize imageMr) where
  table := by simp [create, ConnectionHandler.create, calls, postedOps]
  posted_lt := by simp [create, calls, postedOps]
  unentered_posted := by simp [create, unentered]
  unentered_early := by simp [create, unentered]
  answered_posted := by simp [create, answered]
  early_answered := by simp [create]
  owned := {
    numbers := List.nodup_nil
    numbers_lt := by simp [create, frames]
    callback := by simp [create]
    owner := by simp [create, ConnectionHandler.create]
    posted := by simp [create, frames]
    settled := by simp [create] }
  stale := rfl

variable {c : Client}

lemma mem_frames {f : Frame} : f ∈ c.frames ↔ c.running = some f ∨ f ∈ c.returned := by
  simp [frames]

lemma Inv.holds (h : c.Inv) : c.Settled := by
  refine ⟨fun f hf op hop hmem => ?_, h.stale⟩
  obtain ⟨hanswered, hearly⟩ := h.owned.settled f hf op hop
  exact hearly (((h.table op).1 hmem).2.2 hanswered)

/-- The callback of an operation that is not answered refers to no call that has returned. -/
lemma Inv.not_stale (h : c.Inv) {op : OpId} (hop : op ∉ c.answered) : c.staleOn op = [] := by
  rw [staleOn]
  rcases hlookup : c.handler.ops.lookup op with _ | _ | k
  · rfl
  · rfl
  · refine if_neg ?_
    rintro ⟨g, hg, howner⟩
    obtain ⟨f, hf, hcall, hrecv⟩ := h.owned.owner op k g.call (mem_of_lookup hlookup) howner
    -- calls have numbers of their own, so it is the call that has returned that posted it
    obtain rfl : f = g := List.inj_on_of_nodup_map h.owned.numbers hf (mem_frames.2 (.inr hg)) hcall
    exact hop (h.owned.settled f hg op hrecv).1

/-! ### The steps of a call -/

/-- A step of the call that is under way, which is then the frame `g` instead of `f`. -/
structure Advances (c : Client) (f g : Frame) (u : Client) : Prop where
  before : c.running = some f
  after : u.running = some g
  call : g.call = f.call
  callback : g.callback = f.callback
  receives : ∀ op ∈ f.receives, op ∈ g.receives
  returned : u.returned = c.returned
  nextCall : u.handler.nextCall = c.handler.nextCall
  taken : u.taken = c.taken
  early : u.early = c.early
  stale : u.stale = c.stale

section Advances

variable {f g : Frame} {u : Client}

lemma Advances.frames (h : Advances c f g u) :
    c.frames = f :: c.returned ∧ u.frames = g :: c.returned := by
  refine ⟨?_, ?_⟩
  · rw [Client.frames, h.before]
    rfl
  · rw [Client.frames, h.after, h.returned]
    rfl

lemma Advances.answered (h : Advances c f g u) : u.answered = c.answered := by
  rw [Client.answered, Client.answered, h.taken]

lemma Advances.unentered (h : Advances c f g u) : u.unentered = g.place.unentered := by
  rw [Client.unentered, h.after]
  exact List.append_nil _

/-- What a call owns it keeps owning, if a receive that is new to it is posted, and so is an
operation that is new to the handler. -/
lemma Advances.owned (h : Advances c f g u) (hc : c.Owned)
    (hops : ∀ op k n, (op, some k) ∈ u.handler.ops → k.owner = some n →
      (op, some k) ∈ c.handler.ops ∨ (g.call = n ∧ op ∈ g.receives))
    (hposted : ∀ op ∈ postedOps c.calls, op ∈ postedOps u.calls)
    (hreceives : ∀ op ∈ g.receives, op ∈ f.receives ∨ op ∈ postedOps u.calls) : u.Owned := by
  obtain ⟨hold, hnew⟩ := h.frames
  have hnumbers := hc.numbers
  have hlt := hc.numbers_lt
  rw [hold] at hnumbers hlt
  refine ⟨?_, ?_, ?_, ?_, ?_, ?_⟩
  · rw [hnew, List.map_cons, h.call]
    exact hnumbers
  · intro x hx
    rw [h.nextCall]
    rw [hnew] at hx
    rcases List.mem_cons.1 hx with rfl | hx
    · rw [h.call]
      exact hlt f List.mem_cons_self
    · exact hlt x (List.mem_cons_of_mem _ hx)
  · intro x hx
    obtain rfl := Option.some.inj (h.after.symm.trans hx)
    rw [h.call, h.callback]
    exact hc.callback f h.before
  · intro op k n hmem howner
    rw [hnew]
    rcases hops op k n hmem howner with hmem | hown
    · obtain ⟨x, hx, hxn, hrecv⟩ := hc.owner op k n hmem howner
      rw [hold] at hx
      rcases List.mem_cons.1 hx with rfl | hx
      · exact ⟨g, List.mem_cons_self, h.call.trans hxn, h.receives op hrecv⟩
      · exact ⟨x, List.mem_cons_of_mem _ hx, hxn, hrecv⟩
    · exact ⟨g, List.mem_cons_self, hown⟩
  · intro x hx op hop
    rw [hnew] at hx
    rcases List.mem_cons.1 hx with rfl | hx
    · rcases hreceives op hop with hop | hop
      · exact hposted op (hc.posted f (hold ▸ List.mem_cons_self) op hop)
      · exact hop
    · exact hposted op (hc.posted x (hold ▸ List.mem_cons_of_mem _ hx) op hop)
  · rw [h.returned, h.answered, h.early]
    exact hc.settled

end Advances

lemma Inv.enter (h : c.Inv) (hrunning : c.running = none) {r : Bytes}
    {m : Prog ClientHandler Unit} {callback : ℕ → ClientCallback}
    (hbegun : ClientHandler.Begun r c.handler (m c.handler))
    (hcallback : ∀ n, ClientHandler.IsReplyOf n (callback n)) (costTime : ℤ) :
    (c.enter m callback costTime).Inv := by
  obtain ⟨u, hu⟩ : ∃ u, u = c.enter m callback costTime := ⟨_, rfl⟩
  have hcalls : u.calls = c.calls := by
    have hlog : log (zoom own m c) = [] := by
      rw [log_zoom, log]
      exact congrArg (List.map Prod.snd) hbegun.calls
    rw [hu]
    refine (calls_after c (zoom own m c)).trans ?_
    rw [hlog, List.append_nil]
  have hhandler : u.handler = (m c.handler).state := by rw [hu]; rfl
  have hframes : u.frames =
      ⟨c.handler.nextCall, callback c.handler.nextCall, [], costTime, .recv⟩ :: c.returned := by
    rw [hu]
    rfl
  have hold : c.frames = c.returned := by simp [frames, hrunning]
  have hnone : u.unentered = c.unentered := by
    rw [unentered, unentered, hrunning, hu]
    rfl
  have hsame : u.answered = c.answered ∧ u.early = c.early ∧ u.returned = c.returned ∧
      u.stale = c.stale := by
    rw [hu]
    exact ⟨rfl, rfl, rfl, rfl⟩
  obtain ⟨hanswered, hearly, hreturned, hstale⟩ := hsame
  rw [← hu]
  refine ⟨?_, ?_, ?_, ?_, ?_, ?_, ⟨?_, ?_, ?_, ?_, ?_, ?_⟩, ?_⟩
  · rw [hhandler, hbegun.callbackTable, hcalls, hnone, hanswered, hearly]
    exact h.table
  · rw [hhandler, hbegun.nextOp, hcalls]
    exact h.posted_lt
  · rw [hnone, hcalls]
    exact h.unentered_posted
  · rw [hnone, hanswered, hearly]
    exact h.unentered_early
  · rw [hanswered, hcalls]
    exact h.answered_posted
  · rw [hearly, hanswered]
    exact h.early_answered
  · rw [hframes, List.map_cons, List.nodup_cons]
    refine ⟨fun hmem => ?_, hold ▸ h.owned.numbers⟩
    obtain ⟨f, hf, hcall⟩ := List.mem_map.1 hmem
    exact (h.owned.numbers_lt f (hold ▸ hf)).ne hcall
  · intro f hf
    rw [hframes] at hf
    rw [hhandler, hbegun.nextCall]
    rcases List.mem_cons.1 hf with rfl | hf
    · exact Nat.lt_succ_self _
    · exact Nat.lt_succ_of_lt (h.owned.numbers_lt f (hold ▸ hf))
  · intro f hf
    rw [hu] at hf
    obtain rfl := Option.some.inj hf
    exact hcallback _
  · intro op k n hmem howner
    rw [hhandler, hbegun.ops] at hmem
    obtain ⟨f, hf, hfn⟩ := h.owned.owner op k n hmem howner
    exact ⟨f, hframes ▸ List.mem_cons_of_mem _ (hold ▸ hf), hfn⟩
  · intro f hf op hop
    rw [hframes] at hf
    rw [hcalls]
    rcases List.mem_cons.1 hf with rfl | hf
    · exact absurd hop List.not_mem_nil
    · exact h.owned.posted f (hold ▸ hf) op hop
  · rw [hreturned, hanswered, hearly]
    exact h.owned.settled
  · rw [hstale]
    exact h.stale

/-- An operation that is posted and not yet inserted. -/
lemma Inv.posted (h : c.Inv) {u : Client} {f g : Frame} (hadv : Advances c f g u)
    (hunentered : c.unentered = []) (hplace : g.place.unentered = [c.handler.nextOp])
    (htable : u.handler.callbackTable = c.handler.callbackTable)
    (hnext : u.handler.nextOp = c.handler.nextOp + 1)
    (hposted : postedOps u.calls = postedOps c.calls ++ [c.handler.nextOp]) (howned : u.Owned) :
    u.Inv := by
  have hunentered' : u.unentered = [c.handler.nextOp] := hadv.unentered.trans hplace
  have hfresh : c.handler.nextOp ∉ postedOps c.calls := fun hmem => (h.posted_lt _ hmem).ne rfl
  have hmem : ∀ op, op ∈ postedOps u.calls ↔ op ∈ postedOps c.calls ∨ op = c.handler.nextOp := by
    intro op
    rw [hposted, List.mem_append, List.mem_singleton]
  refine ⟨fun op => ?_, ?_, ?_, ?_, ?_, ?_, howned, ?_⟩
  · rw [htable, h.table, hmem, hunentered, hunentered', hadv.answered, hadv.early,
      List.mem_singleton]
    constructor
    · rintro ⟨hop, -, hearly⟩
      exact ⟨.inl hop, fun heq => hfresh (heq ▸ hop), hearly⟩
    · rintro ⟨hop, hne, hearly⟩
      exact ⟨hop.resolve_right hne, List.not_mem_nil, hearly⟩
  · intro op hop
    rw [hnext]
    rcases (hmem op).1 hop with hop | rfl
    · exact Nat.lt_succ_of_lt (h.posted_lt op hop)
    · exact Nat.lt_succ_self _
  · intro op hop
    rw [hunentered'] at hop
    exact (hmem op).2 (.inr (List.mem_singleton.1 hop))
  · intro op hop hanswered
    rw [hunentered'] at hop
    rw [hadv.answered, List.mem_singleton.1 hop] at hanswered
    exact absurd (h.answered_posted _ hanswered) hfresh
  · intro op hop
    rw [hadv.answered] at hop
    exact (hmem op).2 (.inl (h.answered_posted op hop))
  · rw [hadv.early, hadv.answered]
    exact h.early_answered
  · rw [hadv.stale]
    exact h.stale

/-- A step of the call that leaves what is posted, the table and the operations alone. -/
lemma Inv.idle (h : c.Inv) {u : Client} {f g : Frame} (hadv : Advances c f g u)
    (hunentered : c.unentered = []) (hplace : g.place.unentered = [])
    (htable : u.handler.callbackTable = c.handler.callbackTable)
    (hnext : c.handler.nextOp ≤ u.handler.nextOp)
    (hposted : postedOps u.calls = postedOps c.calls) (howned : u.Owned) : u.Inv := by
  have hsame : u.unentered = c.unentered := by rw [hadv.unentered, hplace, hunentered]
  refine ⟨?_, ?_, ?_, ?_, ?_, ?_, howned, ?_⟩
  · rw [htable, hposted, hsame, hadv.answered, hadv.early]
    exact h.table
  · rw [hposted]
    exact fun op hop => (h.posted_lt op hop).trans_le hnext
  · rw [hsame, hposted]
    exact h.unentered_posted
  · rw [hsame, hadv.answered, hadv.early]
    exact h.unentered_early
  · rw [hadv.answered, hposted]
    exact h.answered_posted
  · rw [hadv.early, hadv.answered]
    exact h.early_answered
  · rw [hadv.stale]
    exact h.stale

lemma unentered_of_place {f : Frame} (hrunning : c.running = some f) :
    c.unentered = f.place.unentered := by
  rw [unentered, hrunning]
  exact List.append_nil _

/-- What `createAndPost` adds to what is posted, whether or not the post succeeds. -/
lemma postedOps_createAndPost (c : Client) (post : OpId → Call) (res : Rpma Unit)
    (cb : Option ClientCallback) :
    postedOps (c.after (zoom conn (createAndPost post res cb) c)).calls =
      postedOps c.calls ++ (post c.handler.nextOp).posts.toList := by
  have hlog : log (zoom conn (createAndPost post res cb) c) =
      [.opNew c.handler.nextOp, post c.handler.nextOp] ++
        (match res with | .ok _ => [] | .error _ => [.opDelete c.handler.nextOp]) := by
    cases res <;> rfl
  have hnew : (Call.opNew c.handler.nextOp).posts = none := rfl
  have hdelete : (Call.opDelete c.handler.nextOp).posts = none := rfl
  rw [calls_after, postedOps_append, hlog]
  cases res <;> cases hpost : (post c.handler.nextOp).posts <;>
    simp [postedOps, hnew, hdelete, hpost]

lemma Inv.postRecv (h : c.Inv) {f : Frame} (hrunning : c.running = some f)
    (hplace : f.place = .recv) (res : Rpma Unit) : (c.postRecv f res).Inv := by
  have hunentered : c.unentered = [] := by rw [unentered_of_place hrunning, hplace]; rfl
  have hadded :=
    postedOps_createAndPost c (fun op => .rpmaRecv (some op) res) res (some f.callback)
  cases res with
  | ok r =>
      have hposted : postedOps (c.postRecv f (.ok r)).calls =
          postedOps c.calls ++ [c.handler.nextOp] := hadded
      have hadv : Advances c f { f with
          receives := f.receives ++ [c.handler.nextOp]
          place := .recvPosted c.handler.nextOp } (c.postRecv f (.ok r)) :=
        ⟨hrunning, rfl, rfl, rfl, fun op hop => List.mem_append_left _ hop, rfl, rfl, rfl, rfl, rfl⟩
      refine h.posted hadv hunentered rfl rfl rfl hposted (hadv.owned h.owned ?_ ?_ ?_)
      · intro op k n hmem howner
        rcases List.mem_cons.1 hmem with heq | hmem
        · obtain ⟨rfl, hk⟩ := Prod.mk.inj heq
          obtain rfl := Option.some.inj hk
          refine .inr ⟨?_, List.mem_append_right _ (List.mem_singleton_self _)⟩
          rcases h.owned.callback f hrunning with hcb | hcb
          · rw [hcb] at howner
            exact Option.some.inj howner
          · rw [hcb] at howner
            exact Option.some.inj howner
        · exact .inl hmem
      · intro op hop
        rw [hposted]
        exact List.mem_append_left _ hop
      · intro op hop
        rw [hposted]
        exact (List.mem_append.1 hop).imp id (List.mem_append_right _)
  | error e =>
      have hposted : postedOps (c.postRecv f (.error e)).calls = postedOps c.calls :=
        hadded.trans (List.append_nil _)
      have hadv : Advances c f { f with place := .send } (c.postRecv f (.error e)) :=
        ⟨hrunning, rfl, rfl, rfl, fun op hop => hop, rfl, rfl, rfl, rfl, rfl⟩
      refine h.idle hadv hunentered rfl rfl (Nat.le_succ _) hposted (hadv.owned h.owned ?_ ?_ ?_)
      · intro op k n hmem _
        obtain ⟨hcons, hne⟩ := List.mem_filter.1 hmem
        refine .inl ((List.mem_cons.1 hcons).resolve_left fun heq => ?_)
        simp [(Prod.mk.inj heq).1] at hne
      · exact fun op hop => hposted ▸ hop
      · exact fun op hop => .inl hop

lemma Inv.postSend (h : c.Inv) {f : Frame} (hrunning : c.running = some f)
    (hplace : f.place = .send) (res : Rpma Unit) : (c.postSend f res).Inv := by
  have hunentered : c.unentered = [] := by rw [unentered_of_place hrunning, hplace]; rfl
  have hadded := postedOps_createAndPost c (fun op => .rpmaSend (some op) res) res none
  cases res with
  | ok r =>
      have hposted : postedOps (c.postSend f (.ok r)).calls =
          postedOps c.calls ++ [c.handler.nextOp] := hadded
      have hadv : Advances c f { f with place := .sendPosted c.handler.nextOp }
          (c.postSend f (.ok r)) :=
        ⟨hrunning, rfl, rfl, rfl, fun op hop => hop, rfl, rfl, rfl, rfl, rfl⟩
      refine h.posted hadv hunentered rfl rfl rfl hposted (hadv.owned h.owned ?_ ?_ ?_)
      · intro op k n hmem _
        exact .inl ((List.mem_cons.1 hmem).resolve_left (by simp))
      · intro op hop
        rw [hposted]
        exact List.mem_append_left _ hop
      · exact fun op hop => .inl hop
  | error e =>
      have hposted : postedOps (c.postSend f (.error e)).calls = postedOps c.calls :=
        hadded.trans (List.append_nil _)
      have hadv : Advances c f { f with place := .loop } (c.postSend f (.error e)) :=
        ⟨hrunning, rfl, rfl, rfl, fun op hop => hop, rfl, rfl, rfl, rfl, rfl⟩
      refine h.idle hadv hunentered rfl rfl (Nat.le_succ _) hposted (hadv.owned h.owned ?_ ?_ ?_)
      · intro op k n hmem _
        exact .inl ((List.mem_cons.1 (List.mem_filter.1 hmem).1).resolve_left (by simp))
      · exact fun op hop => hposted ▸ hop
      · exact fun op hop => .inl hop

/-- The operation that was posted is inserted, whether or not it is still alive. -/
lemma Inv.insertPosted (h : c.Inv) {f : Frame} {op : OpId} {next : CallPlace}
    (hrunning : c.running = some f) (hplace : f.place.unentered = [op])
    (hnext : next.unentered = []) : (c.insertPosted f op next).Inv := by
  have hunentered : c.unentered = [op] := (unentered_of_place hrunning).trans hplace
  have hcalls : (c.insertPosted f op next).calls = c.calls :=
    (calls_after c _).trans (List.append_nil _)
  have hadv : Advances c f { f with place := next } (c.insertPosted f op next) :=
    ⟨hrunning, rfl, rfl, rfl, fun x hx => hx, rfl, rfl, rfl, rfl, rfl⟩
  have hunentered' : (c.insertPosted f op next).unentered = [] := hadv.unentered.trans hnext
  have hown : op ∈ postedOps c.calls ∧ (op ∈ c.answered → op ∈ c.early) :=
    ⟨h.unentered_posted op (hunentered ▸ List.mem_singleton_self op),
      h.unentered_early op (hunentered ▸ List.mem_singleton_self op)⟩
  refine ⟨fun x => ?_, ?_, ?_, ?_, ?_, ?_, hadv.owned h.owned ?_ ?_ ?_, h.stale⟩
  · have htable : (c.insertPosted f op next).handler.callbackTable =
        insert op c.handler.callbackTable := rfl
    rw [htable, Finset.mem_insert, h.table, hcalls, hunentered, hunentered', hadv.answered,
      hadv.early, List.mem_singleton]
    constructor
    · rintro (rfl | ⟨hx, -, hearly⟩)
      · exact ⟨hown.1, List.not_mem_nil, hown.2⟩
      · exact ⟨hx, List.not_mem_nil, hearly⟩
    · rintro ⟨hx, -, hearly⟩
      exact (eq_or_ne x op).imp id fun hne => ⟨hx, hne, hearly⟩
  · rw [hcalls]
    exact h.posted_lt
  · rw [hunentered']
    exact fun x hx => absurd hx List.not_mem_nil
  · rw [hunentered']
    exact fun x hx => absurd hx List.not_mem_nil
  · rw [hcalls]
    exact h.answered_posted
  · exact h.early_answered
  · exact fun x k n hmem _ => .inl hmem
  · exact fun x hx => hcalls ▸ hx
  · exact fun x hx => .inl hx

lemma Inv.turn (h : c.Inv) {f : Frame} (hrunning : c.running = some f) (hplace : f.place = .loop)
    (elapsed : ℤ) : Inv { c with running := some { f with costTime := elapsed } } := by
  have hunentered : c.unentered = [] := by rw [unentered_of_place hrunning, hplace]; rfl
  have hadv : Advances c f { f with costTime := elapsed }
      { c with running := some { f with costTime := elapsed } } :=
    ⟨hrunning, rfl, rfl, rfl, fun op hop => hop, rfl, rfl, rfl, rfl, rfl⟩
  refine h.idle hadv hunentered ?_ rfl le_rfl rfl (hadv.owned h.owned ?_ ?_ ?_)
  · rw [hplace]
    rfl
  · exact fun op k n hmem _ => .inl hmem
  · exact fun op hop => hop
  · exact fun op hop => .inl hop

lemma Inv.leave (h : c.Inv) {f : Frame} (hrunning : c.running = some f) (hplace : f.place = .loop)
    (hanswered : ∀ op ∈ f.receives, op ∈ c.answered ∧ op ∉ c.early) :
    Inv { c with running := none, returned := c.returned ++ [f] } := by
  have hunentered : unentered { c with running := none, returned := c.returned ++ [f] } =
      c.unentered := by
    rw [unentered_of_place hrunning, hplace]
    rfl
  have hframes : frames { c with running := none, returned := c.returned ++ [f] } =
      c.returned ++ [f] := rfl
  have hold : c.frames = f :: c.returned := by simp [frames, hrunning]
  have hperm : (c.returned ++ [f]).Perm c.frames := by
    rw [hold]
    exact List.perm_append_singleton f c.returned
  refine ⟨?_, h.posted_lt, ?_, ?_, h.answered_posted, h.early_answered, ⟨?_, ?_, ?_, ?_, ?_, ?_⟩,
    h.stale⟩
  · rw [hunentered]
    exact h.table
  · rw [hunentered]
    exact h.unentered_posted
  · rw [hunentered]
    exact h.unentered_early
  · rw [hframes]
    exact (hperm.map Frame.call).nodup_iff.2 h.owned.numbers
  · rw [hframes]
    exact fun g hg => h.owned.numbers_lt g (hperm.mem_iff.1 hg)
  · intro g hg
    cases hg
  · intro op k n hmem howner
    obtain ⟨g, hg, hgn⟩ := h.owned.owner op k n hmem howner
    exact ⟨g, hperm.mem_iff.2 hg, hgn⟩
  · rw [hframes]
    exact fun g hg => h.owned.posted g (hperm.mem_iff.1 hg)
  · intro g hg op hop
    rcases List.mem_append.1 hg with hg | hg
    · exact h.owned.settled g hg op hop
    · obtain rfl := List.mem_singleton.1 hg
      exact hanswered op hop

lemma Inv.completion (h : c.Inv) {got : Rpma Completion}
    (hgot : ∀ op ∈ Life.completes got, op ∈ c.outstanding) (content : MsgBuf) (env : RemoteEnv) :
    (c.completion got content env).Inv := by
  obtain ⟨h', stale, hstate, hhandled⟩ := completion_handled c got content env
  have hposted := postedOps_completion c got content env
  have hanswered := answered_completion c got content env
  have hearly : (c.completion got content env).early =
      c.early ++ (succeeds got).filter (· ∈ c.unentered) := rfl
  obtain ⟨u, hu⟩ : ∃ u, u = c.completion got content env := ⟨_, rfl⟩
  have hsame : u.handler = h' ∧ u.running = c.running ∧ u.returned = c.returned ∧
      u.stale = c.stale ++ stale := by
    rw [hu]
    simp only [Client.completion, after, hstate, and_self]
  rw [← hu] at hposted hanswered hearly ⊢
  obtain ⟨hhandler, hrunning, hreturned, hstale⟩ := hsame
  have hframes : u.frames = c.frames := by rw [frames, frames, hrunning, hreturned]
  have hunentered : u.unentered = c.unentered := by rw [unentered, unentered, hrunning]
  -- what is completed was posted, and was not completed before
  have hnew : ∀ op ∈ succeeds got, op ∈ postedOps c.calls ∧ op ∉ c.answered := by
    intro op hop
    obtain ⟨hop, hcompleted⟩ := mem_outstanding.1 (hgot op (completes_of_succeeds hop))
    exact ⟨hop, fun hmem => hcompleted (completed_of_answered hmem)⟩
  have hmem_answered : ∀ op, op ∈ u.answered ↔ op ∈ c.answered ∨ op ∈ succeeds got := by
    intro op
    rw [hanswered, List.mem_append]
  have hmem_early : ∀ op, op ∈ u.early ↔
      op ∈ c.early ∨ (op ∈ succeeds got ∧ op ∈ c.unentered) := by
    intro op
    rw [hearly, List.mem_append, List.mem_filter, decide_eq_true_eq]
  refine ⟨fun op => ?_, ?_, ?_, ?_, ?_, ?_, ⟨?_, ?_, ?_, ?_, ?_, ?_⟩, ?_⟩
  · rw [hhandler, hhandled.table, h.table, hposted, hunentered, hmem_answered, hmem_early]
    constructor
    · rintro ⟨⟨hop, hne, himp⟩, hnot⟩
      exact ⟨hop, hne, fun hans => .inl (himp (hans.resolve_right hnot))⟩
    · rintro ⟨hop, hne, himp⟩
      have hnot : op ∉ succeeds got := by
        intro hs
        rcases himp (.inr hs) with hearly' | ⟨-, hin⟩
        · exact (hnew op hs).2 (h.early_answered op hearly')
        · exact hne hin
      refine ⟨⟨hop, hne, fun hans => ?_⟩, hnot⟩
      exact (himp (.inl hans)).resolve_right fun hs => hnot hs.1
  · rw [hposted, hhandler, hhandled.nextOp]
    exact h.posted_lt
  · rw [hunentered, hposted]
    exact h.unentered_posted
  · intro op hop hans
    rw [hunentered] at hop
    rw [hmem_early]
    exact ((hmem_answered op).1 hans).imp (h.unentered_early op hop) fun hs => ⟨hs, hop⟩
  · intro op hop
    rw [hposted]
    exact ((hmem_answered op).1 hop).elim (h.answered_posted op) fun hs => (hnew op hs).1
  · intro op hop
    rw [hmem_answered]
    exact ((hmem_early op).1 hop).imp (h.early_answered op) fun hs => hs.1
  · rw [hframes]
    exact h.owned.numbers
  · rw [hframes, hhandler, hhandled.nextCall]
    exact h.owned.numbers_lt
  · rw [hrunning]
    exact h.owned.callback
  · intro op k n hmem howner
    rw [hhandler] at hmem
    rw [hframes]
    exact h.owned.owner op k n (hhandled.ops _ hmem) howner
  · rw [hframes, hposted]
    exact h.owned.posted
  · intro f hf op hop
    rw [hreturned] at hf
    obtain ⟨hans, hnot⟩ := h.owned.settled f hf op hop
    refine ⟨(hmem_answered op).2 (.inl hans), fun hmem => ?_⟩
    rcases (hmem_early op).1 hmem with hmem | ⟨hs, -⟩
    · exact hnot hmem
    · exact (hnew op hs).2 hans
  · have hnone : (succeeds got).flatMap c.staleOn = [] := by
      rw [List.flatMap_eq_nil_iff]
      exact fun op hop => h.not_stale (hnew op hop).2
    rw [hstale, hhandled.stale, hnone, h.stale, List.append_nil]

/-- **Which runs are safe.**  Calls one after another, with any results of their posts and any
clock, and completions at any time, also between the post of an operation and its insertion in the
table: no call that has returned has left a receive in the table, and no callback runs that refers
to the locals of such a call, exactly if every call returns only when the receive that it has
posted has been completed with success, and was in the table when that completion was handled. -/
theorem settled_iff (sendBl recvBl : MsgBuf) (flushType : FlushType) (imageSize : UInt64)
    (imageMr : Option MrRemote) (as : List ClientAct) (u : Client)
    (hrun : machine.Run (create sendBl recvBl flushType imageSize imageMr) as u) :
    machine.Always Settled (create sendBl recvBl flushType imageSize imageMr) as ↔
      machine.Meets ReturnsAnswered (create sendBl recvBl flushType imageSize imageMr) as := by
  refine Machine.always_iff Inv (create_inv _ _ _ _ _) ?_ (fun _ h => h.holds) ?_ hrun
  · intro c a u h hC hstep
    cases (step_cases hstep).2 with
    | enter costTime _ hrunning hbegun hcallback => exact h.enter hrunning hbegun hcallback costTime
    | postRecv hrunning hplace res => exact h.postRecv hrunning hplace res
    | postSend hrunning hplace res => exact h.postSend hrunning hplace res
    | insert hrunning hplace hnext => exact h.insertPosted hrunning hplace hnext
    | turn hrunning hplace elapsed => exact h.turn hrunning hplace elapsed
    | leave hrunning hplace _ => exact h.leave hrunning hplace (hC rfl _ hrunning)
    | completion hgot content env => exact h.completion hgot content env
  · -- a call that returns unanswered, or answered too early, leaves its receive in the table
    intro c a u h hC hstep hsettled
    simp only [ReturnsAnswered, Classical.not_imp, not_forall] at hC
    obtain ⟨rfl, f, hf, op, hop, hanswered⟩ := hC
    cases (step_cases hstep).2 with
    | enter _ ha _ _ _ => cases ha
    | leave hrunning hplace _ =>
        obtain rfl := Option.some.inj (hf.symm.trans hrunning)
        have hmem : op ∈ c.handler.callbackTable := by
          have hposted := h.owned.posted f (mem_frames.2 (.inl hf)) op hop
          refine (h.table op).2 ⟨hposted, ?_, fun hans => ?_⟩
          · rw [unentered_of_place hf, hplace]
            exact List.not_mem_nil
          · by_contra hearly
            exact hanswered ⟨hans, hearly⟩
        exact hsettled.1 f (List.mem_append_right _ (List.mem_singleton.2 rfl)) op hop hmem

/-! ### A call that is not interrupted -/

/-- What follows a post: the operation is inserted if the post has succeeded. -/
def insertions : Rpma Unit → List ClientAct
  | .ok _ => [.insert]
  | .error _ => []

/-- The steps of a call between its beginning and its loop. -/
def postActs (recv send : Rpma Unit) : List ClientAct :=
  .post recv :: insertions recv ++ .post send :: insertions send

/-- The receive that a call has posted, if it could be posted. -/
def received : Rpma Unit → OpId → List OpId
  | .ok _, op => [op]
  | .error _, _ => []

/-- The client `u` is `c` after a program with the outcome `o`, in the call `f`. -/
structure Undisturbed (c : Client) (o : Outcome Call Stop ClientHandler Unit) (f : Frame)
    (u : Client) : Prop where
  handler : u.handler = o.state
  trace : u.trace = c.trace ++ o.calls
  running : u.running = some f
  taken : u.taken = c.taken
  early : u.early = c.early
  returned : u.returned = c.returned
  stale : u.stale = c.stale
  ended : u.ended = false

/-- The posts of a call, one step after another, do what `recv` and `send` do. -/
lemma run_posts {c : Client} {f : Frame} (hended : c.ended = false) (hrunning : c.running = some f)
    (hplace : f.place = .recv) (recv send : Rpma Unit) :
    ∃ u, machine.Run c (postActs recv send) u ∧
      c.Undisturbed (ClientHandler.posts recv send f.callback c.handler) { f with
        receives := f.receives ++ received recv c.handler.nextOp
        place := .loop } u := by
  have step₁ : machine.step c (.post recv) = some (c.postRecv f recv) := by
    simp only [machine, hrunning, Option.bind_some, hended, if_true, hplace]
  cases recv with
  | ok r =>
      have step₂ : machine.step (c.postRecv f (.ok r)) .insert =
          some ((c.postRecv f (.ok r)).insertPosted { f with
            receives := f.receives ++ [c.handler.nextOp]
            place := .recvPosted c.handler.nextOp } c.handler.nextOp .send) := rfl
      have run₂ := ((Machine.Run.nil c).snoc step₁).snoc step₂
      cases send with
      | ok r' =>
          have run₃ := run₂.snoc (a := ClientAct.post (.ok r')) rfl
          have run := run₃.snoc (a := ClientAct.insert) rfl
          refine ⟨_, run, rfl, ?_, rfl, rfl, rfl, rfl, rfl, rfl⟩
          simp only [insertPosted, postSend, postRecv, after, List.append_assoc]
          rfl
      | error e =>
          have run := run₂.snoc (a := ClientAct.post (.error e)) rfl
          refine ⟨_, run, rfl, ?_, rfl, rfl, rfl, rfl, rfl, rfl⟩
          simp only [insertPosted, postSend, postRecv, after, List.append_assoc]
          rfl
  | error e =>
      have run₁ := (Machine.Run.nil c).snoc step₁
      cases send with
      | ok r' =>
          have run₃ := run₁.snoc (a := ClientAct.post (.ok r')) rfl
          have run := run₃.snoc (a := ClientAct.insert) rfl
          refine ⟨_, run, rfl, ?_, ?_, rfl, rfl, rfl, rfl, rfl⟩
          · simp only [insertPosted, postSend, postRecv, after, List.append_assoc]
            rfl
          · simp [insertPosted, postSend, postRecv, received]
      | error e' =>
          have run := run₁.snoc (a := ClientAct.post (.error e')) rfl
          refine ⟨_, run, rfl, ?_, ?_, rfl, rfl, rfl, rfl, rfl⟩
          · simp only [postSend, postRecv, after, List.append_assoc]
            rfl
          · simp [postSend, postRecv, received]

/-- A call that nothing interrupts does what it does as one program. -/
lemma run_call {c : Client} {a : ClientAct} {r : Bytes} {m : Prog ClientHandler Unit}
    {callback : ℕ → ClientCallback} {costTime : ℤ}
    (hstep : machine.step c a = some (c.enter m callback costTime))
    (hbegun : ClientHandler.Begun r c.handler (m c.handler)) (hlen : r.length < msgSize)
    (recv send : Rpma Unit) :
    ∃ u, machine.Run c (a :: postActs recv send) u ∧
      c.Undisturbed ((m >>= fun _ =>
          ClientHandler.posts recv send (callback c.handler.nextCall)) c.handler)
        ⟨c.handler.nextCall, callback c.handler.nextCall, received recv c.handler.nextOp, costTime,
          .loop⟩ u := by
  have hstate : (c.enter m callback costTime).handler = (m c.handler).state := rfl
  have htrace : (c.enter m callback costTime).trace = c.trace := by
    rw [enter, after, zoom_apply, show (m (own.get c)).calls = [] from hbegun.calls]
    exact List.append_nil _
  have hended : (c.enter m callback costTime).ended = false := by
    have hsurvives : (c.enter m callback costTime).ended = !Session.survives (m c.handler).result :=
      rfl
    rw [hsurvives, hbegun.result hlen]
    rfl
  obtain ⟨u, run, hu⟩ := run_posts hended rfl rfl recv send
  have hprog : (m >>= fun _ => ClientHandler.posts recv send (callback c.handler.nextCall))
      c.handler =
        ClientHandler.posts recv send (callback c.handler.nextCall) (m c.handler).state := by
    rw [bind_apply, Outcome.andThen_of_ok (hbegun.result hlen), hbegun.calls]
    rfl
  refine ⟨u, ((Machine.Run.nil c).snoc hstep).append run, ?_⟩
  rw [hprog]
  refine ⟨hu.handler, ?_, ?_, hu.taken, hu.early, hu.returned, hu.stale, hu.ended⟩
  · rw [hu.trace, htrace]
    rfl
  · rw [hu.running, hstate, hbegun.nextOp]
    rfl

/-- **`init_replica` in steps.**  Where no completion is handled in between, the steps of the call
up to its loop do what `postInit` does. -/
theorem run_initReplica {c : Client} (hended : c.ended = false) (hrunning : c.running = none)
    {cacheId : UInt32} {cacheSize : UInt64} {poolName imageName : Bytes}
    (hlen : (ClientHandler.initRequest cacheId cacheSize poolName imageName).encode.length <
      msgSize) (recv send : Rpma Unit) (uninitCostTime : ℤ) :
    ∃ u, machine.Run c (.initReplica cacheId cacheSize poolName imageName uninitCostTime ::
        postActs recv send) u ∧
      c.Undisturbed
        (ClientHandler.postInit recv send cacheId cacheSize poolName imageName c.handler)
        ⟨c.handler.nextCall, .initReply c.handler.nextCall, received recv c.handler.nextOp,
          uninitCostTime, .loop⟩ u := by
  have hstep : machine.step c
      (.initReplica cacheId cacheSize poolName imageName uninitCostTime) =
        some (c.enter (ClientHandler.beginInit cacheId cacheSize poolName imageName) .initReply
          uninitCostTime) := if_pos ⟨hended, hrunning⟩
  rw [ClientHandler.postInit_eq]
  exact run_call hstep (ClientHandler.begun_beginInit _ _ _ _ _) hlen recv send

lemma length_finishedRequest : ClientHandler.finishedRequest.encode.length < msgSize := by
  rw [RwlReplicaFinishedRequest.encode, RwlReplicaRequest.length_encode]
  decide

/-- **`close_replica` in steps.** -/
theorem run_closeReplica {c : Client} (hended : c.ended = false) (hrunning : c.running = none)
    (recv send : Rpma Unit) (uninitCostTime : ℤ) :
    ∃ u, machine.Run c (.closeReplica uninitCostTime :: postActs recv send) u ∧
      c.Undisturbed (ClientHandler.postFinished recv send c.handler)
        ⟨c.handler.nextCall, .finishedReply c.handler.nextCall, received recv c.handler.nextOp,
          uninitCostTime, .loop⟩ u := by
  have hstep : machine.step c (.closeReplica uninitCostTime) =
      some (c.enter ClientHandler.beginFinished .finishedReply uninitCostTime) :=
    if_pos ⟨hended, hrunning⟩
  rw [ClientHandler.postFinished, ClientHandler.postRequest_eq]
  exact run_call hstep (ClientHandler.begun_beginCall _ _) length_finishedRequest recv send

/-! ### A call that is answered and calls that are not -/

/-- What the reactor does with the completion of an operation is `retire`. -/
lemma completion_retire (c : Client) (op : OpId) (oc : RpmaOpcode) (content : MsgBuf)
    (env : RemoteEnv) :
    (c.completion (.ok ⟨some op, oc, true⟩) content env).handler =
        (retire ClientHandler.base (ClientHandler.runCallback env) op
          (c.arrived content).handler).state ∧
      (c.completion (.ok ⟨some op, oc, true⟩) content env).ended =
        !Session.survives (retire ClientHandler.base (ClientHandler.runCallback env) op
          (c.arrived content).handler).result := by
  have hretire : (retire conn (callback env) op (c.arrived content)).state.handler =
        (retire ClientHandler.base (ClientHandler.runCallback env) op
          (c.arrived content).handler).state ∧
      (retire conn (callback env) op (c.arrived content)).result =
        (retire ClientHandler.base (ClientHandler.runCallback env) op
          (c.arrived content).handler).result := by
    have hlookup : (conn.get (zoom conn (eraseOp op) (c.arrived content)).state).ops.lookup op =
        c.handler.ops.lookup op := rfl
    have hlookup' : (ClientHandler.base.get (zoom ClientHandler.base (eraseOp op)
        (c.arrived content).handler).state).ops.lookup op = c.handler.ops.lookup op := rfl
    have herase : (zoom conn (eraseOp op) (c.arrived content)).result = .ok () := rfl
    have herase' : (zoom ClientHandler.base (eraseOp op) (c.arrived content).handler).result =
        .ok () := rfl
    rw [retire, retire, bind_apply, bind_apply, Outcome.andThen_of_ok herase,
      Outcome.andThen_of_ok herase']
    simp only [ensuring_apply, doCallback, bind_apply, read_apply, Outcome.andThen_ok]
    rw [hlookup, hlookup']
    rcases c.handler.ops.lookup op with _ | _ | k <;> exact ⟨rfl, rfl⟩
  have hgot : completionGot conn (callback env) (.ok ⟨some op, oc, true⟩) (c.arrived content) =
      ⟨(retire conn (callback env) op (c.arrived content)).calls,
        (retire conn (callback env) op (c.arrived content)).state,
        (retire conn (callback env) op (c.arrived content)).result.map fun _ => 0⟩ :=
    andThen_pure _ _
  refine ⟨?_, ?_⟩
  · rw [← hretire.1, completion, after, hgot]
  · rw [← hretire.2, completion, after, hgot]
    exact congrArg not (Session.survives_map _ _)

/-- The completion of the receive of `close_replica`, with a reply that can be decoded. -/
lemma completion_finished {c : Client} {op : OpId} {call : ℕ} {content : MsgBuf}
    {reply : RwlReplicaFinishedRequestReply} {d : Wire.Cursor}
    (halive : c.handler.ops.lookup op = some (some (.finishedReply call)))
    (hdec : RwlReplicaFinishedRequestReply.decode content.cbegin = .ok (reply, d))
    (env : RemoteEnv) :
    (c.completion (.ok ⟨some op, .recv, true⟩) content env).ended = false ∧
      ((c.completion (.ok ⟨some op, .recv, true⟩) content env).handler.locals call).completed =
        true := by
  obtain ⟨hhandler, hended⟩ := completion_retire c op .recv content env
  have hretire := ClientHandler.retire_alive halive content env
  have hres : (ClientHandler.runCallback env (.finishedReply call)
      (ClientHandler.starting op content c.handler)).result = .ok () := by
    simp only [ClientHandler.runCallback, bind_apply, read_apply, Outcome.andThen_ok]
    rw [show (ClientHandler.starting op content c.handler).recvBl = content from rfl,
      decodeFrom_ok hdec]
    rfl
  have hcalled := ClientHandler.runCallback_called (.inr rfl) env
    (ClientHandler.starting op content c.handler) hres
  have harrived : (c.arrived content).handler = { c.handler with recvBl := content } := rfl
  rw [hended, hhandler, harrived, hretire, ensuring_apply, hres]
  exact ⟨rfl, hcalled.completed⟩

/-- What handling the completion of a receive leaves of the rest of a client. -/
lemma completion_frame (c : Client) (op : OpId) (content : MsgBuf) (env : RemoteEnv) :
    (c.completion (.ok ⟨some op, .recv, true⟩) content env).running = c.running ∧
    (c.completion (.ok ⟨some op, .recv, true⟩) content env).returned = c.returned ∧
    (c.completion (.ok ⟨some op, .recv, true⟩) content env).answered = c.answered ++ [op] ∧
    (c.completion (.ok ⟨some op, .recv, true⟩) content env).stale = c.stale ++ c.staleOn op := by
  obtain ⟨h, stale, hstate, hhandled⟩ :=
    completion_handled c (.ok ⟨some op, .recv, true⟩) content env
  refine ⟨?_, ?_, answered_completion _ _ _ _, ?_⟩
  · rw [completion, after, hstate]
  · rw [completion, after, hstate]
  · rw [completion, after, hstate, hhandled.stale]
    simp [succeeds]

/-- `close_replica` comes to its loop, with both posts. -/
def closingActs : List ClientAct := .closeReplica 0 :: postActs (.ok ()) (.ok ())

/-- The client while `close_replica` waits. -/
lemma run_closingActs : ∃ u, machine.Run (create .zero .zero .visibility 0 none) closingActs u ∧
    u.ended = false ∧ u.running = some ⟨0, .finishedReply 0, [0], 0, .loop⟩ ∧ u.returned = [] ∧
    u.early = [] ∧ u.stale = [] ∧ 0 ∈ u.outstanding ∧ 0 ∈ u.handler.callbackTable ∧
    u.handler.ops.lookup 0 = some (some (.finishedReply 0)) ∧
    (u.handler.locals 0).completed = false ∧
    u.handler.sendBl =
      MsgBuf.zero.memcpy ClientHandler.finishedRequest.encode length_finishedRequest.le ∧
    ∃ h : ClientHandler, h.sendBl = u.handler.sendBl ∧ sentBy u.trace = [(h, .ok ())] := by
  obtain ⟨u, run, hu⟩ := run_closeReplica (c := create .zero .zero .visibility 0 none) rfl rfl
    (.ok ()) (.ok ()) 0
  obtain ⟨-, hstate, t, hsent, hbl⟩ := ClientHandler.postRequest_ok length_finishedRequest
    .finishedReply (create .zero .zero .visibility 0 none).handler
  have hhandler := hu.handler.trans hstate
  have hposted : 0 ∈ postedOps u.calls := by
    rw [calls, hu.trace, ClientHandler.postFinished, ClientHandler.postRequest]
    simp only [bind_apply, read_apply, update_apply, Outcome.andThen_ok, zoom_apply]
    rw [fillSendBl_of_lt length_finishedRequest]
    exact List.mem_cons_self
  refine ⟨u, run, hu.ended, hu.running, hu.returned, hu.early, hu.stale, ?_, ?_, ?_, ?_, ?_, t, ?_,
    ?_⟩
  · rw [mem_outstanding, completed, hu.taken]
    exact ⟨hposted, List.not_mem_nil⟩
  · rw [hhandler]
    exact by decide
  · rw [hhandler]
    rfl
  · rw [hhandler]
    rfl
  · rw [hhandler]
    rfl
  · rw [hhandler, hbl]
  · rw [hu.trace, ← hsent]
    rfl

/-- The reply that a server writes to a FINISHED request. -/
def finishedContent : MsgBuf :=
  holding (RPMAHandler.closeReply 0).encode (RPMAHandler.length_closeReply 0)

lemma decode_finishedContent :
    ∃ c, RwlReplicaFinishedRequestReply.decode finishedContent.cbegin =
      .ok (RPMAHandler.closeReply 0, c) :=
  ⟨_, ((RwlReplicaRequest.reads_encode _).map RwlReplicaFinishedRequestReply.mk).memcpy _
    (RPMAHandler.length_closeReply 0).le⟩

/-- The completion of the receive that `close_replica` has posted. -/
def replied : ClientAct :=
  .completion (.ok ⟨some 0, .recv, true⟩) finishedContent Agreement.sampleRemote

/-- A client after that completion. -/
def afterReply (c : Client) : Client :=
  c.completion (.ok ⟨some 0, .recv, true⟩) finishedContent Agreement.sampleRemote

lemma step_replied {c : Client} (hended : c.ended = false) (hout : 0 ∈ c.outstanding) :
    machine.step c replied = some c.afterReply := by
  refine if_pos ⟨hended, fun op hop => ?_⟩
  obtain rfl := List.mem_singleton.1 hop
  exact hout

lemma step_leave {c : Client} {f : Frame} (hended : c.ended = false) (hrunning : c.running = some f)
    (hplace : f.place = .loop) (hwaits : ¬c.Waits f) :
    machine.step c .leave = some { c with running := none, returned := c.returned ++ [f] } := by
  simp only [machine, hrunning, Option.bind_some]
  exact if_pos ⟨hended, hplace, hwaits⟩

/-- A call of `close_replica` that gets its reply and returns is safe. -/
theorem settled_answered :
    ∃ u, machine.Run (create .zero .zero .visibility 0 none)
        (closingActs ++ [replied] ++ [.leave]) u ∧
      u.returned = [⟨0, .finishedReply 0, [0], 0, .loop⟩] ∧ u.Settled := by
  obtain ⟨c, run₁, hended, hrunning, hreturned, hearly, -, hout, hmem, halive, -⟩ := run_closingActs
  obtain ⟨d, hdec⟩ := decode_finishedContent
  have run₂ := run₁.snoc (step_replied hended hout)
  obtain ⟨hended', hflag⟩ := completion_finished halive hdec Agreement.sampleRemote
  obtain ⟨hrunning', hreturned', hanswered, -⟩ :=
    completion_frame c 0 finishedContent Agreement.sampleRemote
  -- the receive was in the table, so its completion was not early
  have hearly' : c.afterReply.early = [] := by
    have hnone : c.unentered = [] := by rw [unentered_of_place hrunning]; rfl
    rw [afterReply, completion, hearly, hnone]
    rfl
  have hstep := step_leave hended' (hrunning'.trans hrunning) rfl
    fun hwaits => absurd (hwaits.1.symm.trans hflag) Bool.false_ne_true
  rw [hreturned', hreturned, List.nil_append] at hstep
  have run₃ := run₂.snoc hstep
  have hmeets : machine.Meets ReturnsAnswered (create .zero .zero .visibility 0 none)
      (closingActs ++ [replied] ++ [.leave]) := by
    refine Machine.Meets.snoc (Machine.meets_of_forall fun a ha t hleave => ?_) run₂ ?_
    · simp only [closingActs, postActs, insertions, replied, List.cons_append, List.nil_append,
        List.mem_cons, List.not_mem_nil, hleave, reduceCtorEq, or_self] at ha
    · intro _ f hf op hop
      have hf' : c.afterReply.running = some f := hf
      rw [afterReply, hrunning', hrunning] at hf'
      obtain rfl := Option.some.inj hf'
      obtain rfl := List.mem_singleton.1 hop
      rw [hearly', afterReply, hanswered]
      exact ⟨List.mem_append_right _ List.mem_cons_self, List.not_mem_nil⟩
  have hsafe := (settled_iff .zero .zero .visibility 0 none _ _ run₃).2 hmeets
  exact ⟨_, run₃, rfl, hsafe _ _ (List.prefix_refl _) run₃⟩

/-- A call of `close_replica` that returns on timeout leaves its receive behind, and the reply
that arrives then runs the callback that refers to its locals. -/
theorem timeout_leaves_callback :
    ∃ c u, machine.Run (create .zero .zero .visibility 0 none)
        (closingActs ++ [.turn 10000001] ++ [.leave]) c ∧
      c.returned = [⟨0, .finishedReply 0, [0], 10000001, .loop⟩] ∧ 0 ∈ c.handler.callbackTable ∧
      machine.step c replied = some u ∧ u.stale = [.finishedReply 0] ∧
      ¬c.Settled ∧ ¬u.Settled := by
  obtain ⟨s, run₁, hended, hrunning, hreturned, -, hstale, hout, hmem, halive, hwaiting, -⟩ :=
    run_closingActs
  have hturn : machine.step s (.turn 10000001) =
      some { s with running := some ⟨0, .finishedReply 0, [0], 10000001, .loop⟩ } := by
    simp only [machine, hrunning, Option.bind_some]
    exact if_pos ⟨hended, trivial, hwaiting, by decide⟩
  have run₂ := run₁.snoc hturn
  have hleave := step_leave
    (c := { s with running := some ⟨0, .finishedReply 0, [0], 10000001, .loop⟩ }) hended rfl rfl
    fun hwaits => absurd hwaits.2 (by decide)
  obtain ⟨c, hc⟩ : ∃ c, c = ({ s with
      running := none
      returned := s.returned ++ [⟨0, .finishedReply 0, [0], 10000001, .loop⟩] } : Client) :=
    ⟨_, rfl⟩
  have run₃ := run₂.snoc hleave
  rw [← hc] at run₃
  have hreturned' : c.returned = [⟨0, .finishedReply 0, [0], 10000001, .loop⟩] := by
    rw [hc, hreturned]
    rfl
  have hhandler : c.handler = s.handler := by rw [hc]
  have hstaleOn : c.staleOn 0 = [.finishedReply 0] := by
    rw [staleOn, hhandler, halive, hreturned']
    rfl
  obtain ⟨-, -, -, hran⟩ := completion_frame c 0 finishedContent Agreement.sampleRemote
  have hstale' : c.afterReply.stale = [.finishedReply 0] := by
    rw [afterReply, hran, hstaleOn, hc, hstale]
    rfl
  rw [← hhandler] at hmem
  refine ⟨c, c.afterReply, run₃, hreturned', hmem, step_replied ?_ ?_, hstale', ?_, ?_⟩
  · rw [hc]
    exact hended
  · rw [hc]
    exact hout
  · intro hsettled
    exact hsettled.1 _ (hreturned' ▸ List.mem_cons_self) 0 List.mem_cons_self hmem
  · intro hsettled
    rw [hsettled.2] at hstale'
    cases hstale'

end Client

end RpmaReplica
