import RpmaReplica.Outside

/-!
# The connection handler

`ConnectionHandler` of `EventOp.cc`, the common base of the two ends of a connection: the
operations it has posted and not yet seen completed (`callback_table`), its two message
buffers, and the completion queue of the connection.

An operation is an object on the heap that holds a callback.  `send` and `recv` create one,
post it with its own address as the context, and leave it to the handler if the post
succeeded; `handle_completion` takes it back, runs its callback and destroys it.  The
callbacks themselves belong to the two ends, so the handler is generic in them.

The completion queue follows the rules of the verbs: a completion that arrives while the
queue is armed raises one event on the completion fd and disarms the queue;
`rpma_conn_completion_wait` consumes an event and arms the queue again;
`rpma_conn_completion_get` removes one completion.
-/

namespace RpmaReplica

/-! ### The completion queue -/

/-- The completion queue of a connection and the events pending on its fd. -/
structure Cq where
  queue : List Completion
  armed : Bool
  events : ℕ
  deriving DecidableEq, Repr

namespace Cq

/-- The queue of a new connection. -/
def create : Cq where
  queue := []
  armed := true
  events := 0

/-- A completion is added to the queue. -/
def arrive (cq : Cq) (c : Completion) : Cq where
  queue := cq.queue ++ [c]
  armed := false
  events := if cq.armed then cq.events + 1 else cq.events

/-- Completions are added one after another. -/
def arriveAll (cq : Cq) (cs : List Completion) : Cq := cs.foldl arrive cq

/-- `rpma_conn_completion_wait`. -/
def wait (cq : Cq) : Rpma Unit × Cq :=
  if cq.events = 0 then (.error .noCompletion, cq)
  else (.ok (), { cq with events := cq.events - 1, armed := true })

/-- `rpma_conn_completion_get`. -/
def get (cq : Cq) : Rpma Completion × Cq :=
  match cq.queue with
  | [] => (.error .noCompletion, cq)
  | c :: cs => (.ok c, { cq with queue := cs })

/-- `wait`, which fails with `fault` if there is one. -/
def waitOr (fault : Option RpmaError) (cq : Cq) : Rpma Unit × Cq :=
  match fault with
  | some e => (.error e, cq)
  | none => cq.wait

/-- `get`, which fails with `fault` if there is one, with or without having removed a
completion. -/
def getOr (fault : Option (RpmaError × Bool)) (cq : Cq) : Rpma Completion × Cq :=
  match fault with
  | some (e, removed) => (.error e, if removed then cq.get.2 else cq)
  | none => cq.get

end Cq

/-- `RpmaConn`: the connection object, with its completion queue. -/
structure RpmaConn where
  cq : Cq
  disconnected : Bool
  deriving DecidableEq, Repr

/-! ### The handler -/

/-- `ConnectionHandler`, with `κ` the callbacks its operations may hold. -/
structure ConnectionHandler (κ : Type) where
  callbackTable : Finset OpId
  /-- The `RpmaOp` objects that are alive, each with its callback (`none` for a null one). -/
  ops : List (OpId × Option κ)
  nextOp : OpId
  conn : RpmaConn
  sendBl : MsgBuf
  recvBl : MsgBuf
  deriving DecidableEq

namespace ConnectionHandler

variable {κ : Type}

/-- The handler of a new connection, before anything is posted, with the contents its two
buffers happen to have. -/
def create (sendBl recvBl : MsgBuf) : ConnectionHandler κ where
  callbackTable := ∅
  ops := []
  nextOp := 0
  conn := ⟨Cq.create, false⟩
  sendBl := sendBl
  recvBl := recvBl

/-- `init_send_recv_buffer`, with the results of its two registrations. -/
def initSendRecvBuffer (recvMr sendMr : Rpma Unit) : Prog (ConnectionHandler κ) Unit := do
  orThrow "recv memory region registers failed." recvMr
  orThrow "send memory region registers failed." sendMr

/-- `init_conn_fd`, with the results of its two queries. -/
def initConnFd (eventFd completionFd : Rpma Unit) : Prog (ConnectionHandler κ) Unit := do
  orThrow "get the connection's event fd failed" eventFd
  orThrow "get the connection's completion fd failed" completionFd

lemma logs_initSendRecvBuffer {H : List Call → ConnectionHandler κ → Prop}
    (recvMr sendMr : Rpma Unit) :
    Exec.Logs H (initSendRecvBuffer recvMr sendMr) fun _ => H :=
  .seq (logs_orThrow _ _) (fun _ => logs_orThrow _ _) fun _ _ _ hs => hs

lemma logs_initConnFd {H : List Call → ConnectionHandler κ → Prop}
    (eventFd completionFd : Rpma Unit) :
    Exec.Logs H (initConnFd eventFd completionFd) fun _ => H :=
  .seq (logs_orThrow _ _) (fun _ => logs_orThrow _ _) fun _ _ _ hs => hs

/-- Construct an operation (`std::make_unique<..>(callback)`). -/
def newOp (callback : Option κ) : Prog (ConnectionHandler κ) OpId := do
  let h ← Exec.read
  Exec.call (.opNew h.nextOp)
  Exec.update fun h => { h with ops := (h.nextOp, callback) :: h.ops, nextOp := h.nextOp + 1 }
  return h.nextOp

/-- Destroy an operation. -/
def deleteOp (op : OpId) : Prog (ConnectionHandler κ) Unit := do
  Exec.call (.opDelete op)
  Exec.update fun h => { h with ops := h.ops.filter (·.1 ≠ op) }

/-- `callback_table.insert(op)`. -/
def insertOp (op : OpId) : Prog (ConnectionHandler κ) Unit :=
  Exec.update fun h => { h with callbackTable := insert op h.callbackTable }

/-- `callback_table.erase(op)`. -/
def eraseOp (op : OpId) : Prog (ConnectionHandler κ) Unit :=
  Exec.update fun h => { h with callbackTable := h.callbackTable.erase op }

/-- Create an operation and post it.  If the post fails, the `unique_ptr` that owns the
operation destroys it. -/
def createAndPost (post : OpId → Call) (res : Rpma Unit) (callback : Option κ) :
    Prog (ConnectionHandler κ) OpId := do
  let op ← newOp callback
  Exec.call (post op)
  match res with
  | .ok _ => return op
  | .error _ =>
    deleteOp op
    return op

/-- The common body of the posting functions: create and post the operation, and enter it in
the table if the post succeeded (the `unique_ptr` is then released). -/
def postOp (post : OpId → Call) (res : Rpma Unit) (callback : Option κ) :
    Prog (ConnectionHandler κ) ℤ := do
  let op ← createAndPost post res callback
  match res with
  | .ok _ =>
    insertOp op
    return 0
  | .error e => return e.code

def send (res : Rpma Unit) (callback : Option κ) : Prog (ConnectionHandler κ) ℤ :=
  postOp (fun op => .rpmaSend (some op) res) res callback

def recv (res : Rpma Unit) (callback : Option κ) : Prog (ConnectionHandler κ) ℤ :=
  postOp (fun op => .rpmaRecv (some op) res) res callback

/-- `memcpy(send_bl.c_str(), bl.c_str(), bl.length())` behind its `assert`. -/
def fillSendBl (bl : Bytes) : Prog (ConnectionHandler κ) Unit :=
  if h : bl.length < msgSize then
    Exec.update fun s => { s with sendBl := s.sendBl.memcpy bl (length_le_msgSize h) }
  else Exec.stop .aborted

/-- `~ConnectionHandler()`: destroy what the table still holds. -/
def destroy : Prog (ConnectionHandler κ) Unit := do
  let h ← Exec.read
  (h.callbackTable.sort).forM deleteOp
  Exec.update fun h => { h with callbackTable := ∅ }

/-- Destroying several operations. -/
lemma forM_deleteOp (xs : List OpId) (h : ConnectionHandler κ) :
    (xs.forM deleteOp h).result = .ok () ∧ (xs.forM deleteOp h).state.nextOp = h.nextOp ∧
      Exec.log (xs.forM deleteOp h) = xs.map .opDelete := by
  induction xs generalizing h with
  | nil => exact ⟨rfl, rfl, rfl⟩
  | cons x xs ih =>
      obtain ⟨h1, h2, h3⟩ := ih { h with ops := h.ops.filter (·.1 ≠ x) }
      refine ⟨h1, h2, ?_⟩
      have hlog : Exec.log ((x :: xs).forM deleteOp h) =
          .opDelete x :: Exec.log (xs.forM deleteOp { h with ops := h.ops.filter (·.1 ≠ x) }) := rfl
      rw [hlog, h3, List.map_cons]

/-- What the destructor does. -/
lemma destroy_eq (h : ConnectionHandler κ) :
    (destroy h).state.callbackTable = ∅ ∧ (destroy h).state.nextOp = h.nextOp ∧
      Exec.log (destroy h) = h.callbackTable.sort.map .opDelete := by
  obtain ⟨h1, h2, h3⟩ := forM_deleteOp h.callbackTable.sort h
  rw [destroy]
  simp only [List.forM_eq_forM, Exec.bind_apply, Exec.read_apply, Outcome.andThen_ok] at h1 h2 h3 ⊢
  rw [Outcome.andThen_of_ok h1]
  simpa [h2, Exec.log] using h3

/-- The destructor does not touch the buffers. -/
lemma sendBl_destroy (h : ConnectionHandler κ) : (destroy h).state.sendBl = h.sendBl := by
  have hforM : ∀ (xs : List OpId) (h : ConnectionHandler κ),
      (xs.forM deleteOp h).state.sendBl = h.sendBl := by
    intro xs
    induction xs with
    | nil =>
        intro h
        rfl
    | cons x xs ih =>
        intro h
        exact ih { h with ops := h.ops.filter (·.1 ≠ x) }
  obtain ⟨h1, -, -⟩ := forM_deleteOp h.callbackTable.sort h
  have h2 := hforM h.callbackTable.sort h
  rw [destroy]
  simp only [List.forM_eq_forM, Exec.bind_apply, Exec.read_apply, Outcome.andThen_ok] at h1 h2 ⊢
  rw [Outcome.andThen_of_ok h1]
  exact h2

/-- A posting function returns what librpma returned and touches neither the buffers nor the
connection. -/
lemma postOp_frame (post : OpId → Call) (res : Rpma Unit) (callback : Option κ)
    (h : ConnectionHandler κ) :
    (postOp post res callback h).result = .ok res.ret ∧
      (postOp post res callback h).state.sendBl = h.sendBl ∧
      (postOp post res callback h).state.recvBl = h.recvBl ∧
      (postOp post res callback h).state.conn = h.conn := by
  cases res <;> exact ⟨rfl, rfl, rfl, rfl⟩

/-- What a posting function does to the operations: the new one is in the table and alive if
the post succeeded, and gone if it failed. -/
lemma postOp_new (post : OpId → Call) (res : Rpma Unit) (callback : Option κ)
    (h : ConnectionHandler κ) :
    (∀ u, res = .ok u → h.nextOp ∈ (postOp post res callback h).state.callbackTable ∧
      (postOp post res callback h).state.ops.lookup h.nextOp = some callback) ∧
    (∀ e, res = .error e → (postOp post res callback h).state.ops.lookup h.nextOp = none) := by
  refine ⟨?_, ?_⟩
  · rintro u rfl
    refine ⟨Finset.mem_insert_self _ _, ?_⟩
    exact List.lookup_cons_self
  · rintro e rfl
    have hops : (postOp post (.error e) callback h).state.ops =
        ((h.nextOp, callback) :: h.ops).filter (·.1 ≠ h.nextOp) := rfl
    rw [hops, List.lookup_eq_none_iff]
    intro p hp
    have hne : p.1 ≠ h.nextOp := of_decide_eq_true (List.mem_filter.1 hp).2
    exact bne_iff_ne.2 hne.symm

/-- Destroying an operation leaves the others alone. -/
lemma lookup_filter_ne (ops : List (OpId × Option κ)) {op k : OpId} (hop : op ≠ k) :
    (ops.filter (·.1 ≠ k)).lookup op = ops.lookup op := by
  induction ops with
  | nil => rfl
  | cons p ops ih =>
      by_cases hp : p.1 = k
      · rw [List.filter_cons_of_neg (by simp [hp]), ih, List.lookup_cons,
          beq_eq_false_iff_ne.2 (hp ▸ hop)]
      · rw [List.filter_cons_of_pos (by simp [hp]), List.lookup_cons, List.lookup_cons, ih]

/-- What a posting function leaves alone: the other operations. -/
lemma postOp_other (post : OpId → Call) (res : Rpma Unit) (callback : Option κ)
    {h : ConnectionHandler κ} {op : OpId} (hop : op ≠ h.nextOp) :
    (op ∈ h.callbackTable → op ∈ (postOp post res callback h).state.callbackTable) ∧
      (postOp post res callback h).state.ops.lookup op = h.ops.lookup op := by
  have hne : (op == h.nextOp) = false := beq_eq_false_iff_ne.2 hop
  cases res with
  | ok u =>
      refine ⟨fun hmem => Finset.mem_insert_of_mem hmem, ?_⟩
      show ((h.nextOp, callback) :: h.ops).lookup op = _
      rw [List.lookup_cons, hne]
  | error e =>
      refine ⟨fun hmem => hmem, ?_⟩
      show (((h.nextOp, callback) :: h.ops).filter (·.1 ≠ h.nextOp)).lookup op = _
      rw [List.filter_cons_of_neg (by simp), lookup_filter_ne h.ops hop]

/-- The send that `send` posts: the operation exists already, and the buffer is as it was. -/
lemma sentBy_send (res : Rpma Unit) (callback : Option κ) (h : ConnectionHandler κ) :
    sentBy (send res callback h).calls =
      [({ h with ops := (h.nextOp, callback) :: h.ops, nextOp := h.nextOp + 1 }, res)] := by
  cases res <;> rfl

/-- The copy succeeds exactly if the bytes are fewer than the buffer holds. -/
lemma fillSendBl_of_lt {bl : Bytes} (hlen : bl.length < msgSize) (h : ConnectionHandler κ) :
    fillSendBl bl h = ⟨[], { h with sendBl := h.sendBl.memcpy bl hlen.le }, .ok ()⟩ := by
  rw [fillSendBl]
  rw [dif_pos hlen]
  rfl

lemma fillSendBl_of_le {bl : Bytes} (hlen : ¬bl.length < msgSize) (h : ConnectionHandler κ) :
    fillSendBl bl h = ⟨[], h, .error .aborted⟩ := by
  rw [fillSendBl]
  rw [dif_neg hlen]
  rfl

/-- Besides the post itself, a posting function only creates and destroys an operation. -/
lemma postOp_only {K : Call → Prop} {post : OpId → Call} {res : Rpma Unit} {callback : Option κ}
    (hnew : ∀ op, K (.opNew op)) (hdelete : ∀ op, K (.opDelete op)) (hpost : ∀ op, K (post op)) :
    Exec.Only K (postOp post res callback) := by
  have hcreate : Exec.Only K (createAndPost post res callback) := by
    refine .bind (.bind .read fun _ => .bind (.call (hnew _)) fun _ => .bind (.update _) fun _ =>
      .ret _) fun op => .bind (.call (hpost op)) fun _ => ?_
    cases res with
    | ok _ => exact .ret _
    | error _ => exact .bind (.bind (.call (hdelete op)) fun _ => .update _) fun _ => .ret _
  refine .bind hcreate fun op => ?_
  cases res with
  | ok _ => exact .bind (.update _) fun _ => .ret _
  | error _ => exact .ret _

lemma destroy_only {K : Call → Prop} (hdelete : ∀ op, K (.opDelete op)) :
    Exec.Only K (destroy : Prog (ConnectionHandler κ) Unit) :=
  .bind .read fun _ => .bind (.forM (fun op => .bind (.call (hdelete op)) fun _ => .update _) _)
    fun _ => .update _

lemma fillSendBl_only {K : Call → Prop} (bl : Bytes) :
    Exec.Only K (fillSendBl bl : Prog (ConnectionHandler κ) Unit) := by
  rw [fillSendBl]
  split
  · exact .update _
  · exact .stop _

/-! ### `handle_completion` -/

/-- What the outside does during one call of `handle_completion`: which completions arrive
before `wait`, between `wait` and `get`, and after `get`, and how the two calls fail if they
do.  A `get` that fails may or may not have removed a completion. -/
structure CompletionEnv where
  beforeWait : List Completion
  waitFault : Option RpmaError
  beforeGet : List Completion
  getFault : Option (RpmaError × Bool)
  afterGet : List Completion
  deriving DecidableEq

/-- Change the completion queue. -/
def setCq (f : Cq → Cq) : Prog (ConnectionHandler κ) Unit :=
  Exec.update fun h => { h with conn := { h.conn with cq := f h.conn.cq } }

def connCompletionWait (env : CompletionEnv) : Prog (ConnectionHandler κ) (Rpma Unit) := do
  setCq (·.arriveAll env.beforeWait)
  let h ← Exec.read
  setCq fun cq => (cq.waitOr env.waitFault).2
  Exec.call (.connCompletionWait (h.conn.cq.waitOr env.waitFault).1)
  return (h.conn.cq.waitOr env.waitFault).1

def connCompletionGet (env : CompletionEnv) : Prog (ConnectionHandler κ) (Rpma Completion) := do
  setCq (·.arriveAll env.beforeGet)
  let h ← Exec.read
  setCq fun cq => (cq.getOr env.getFault).2.arriveAll env.afterGet
  Exec.call (.connCompletionGet (h.conn.cq.getOr env.getFault).1)
  return (h.conn.cq.getOr env.getFault).1

/-- `RpmaConn::disconnect`. -/
def disconnect : Prog (ConnectionHandler κ) Unit := do
  Exec.update fun h => { h with conn := { h.conn with disconnected := true } }
  Exec.call .connDisconnect

variable {σ : Type} (L : Lens σ (ConnectionHandler κ)) (run : κ → Prog σ Unit)

/-- `RpmaOp::do_callback` on the operation behind a context.  A context that does not name a
live operation is a dangling pointer. -/
def doCallback (op : OpId) : Prog σ Unit := do
  let s ← Exec.read
  match (L.get s).ops.lookup op with
  | some (some callback) => run callback
  | some none => return ()
  | none => Exec.stop .undefined

/-- Take the operation over, forget it, run its callback, and destroy it, also when the
callback throws. -/
def retire (op : OpId) : Prog σ Unit := do
  Exec.zoom L (eraseOp op)
  Exec.ensuring (doCallback L run op) (Exec.zoom L (deleteOp op))

/-- The error exit of both calls: no completion is ready, or disconnect. -/
def completionFailed (e : RpmaError) : Prog σ ℤ :=
  if e = .noCompletion then return 0
  else do
    Exec.zoom L disconnect
    return e.code

/-- What is done with a completion taken from the queue. -/
def completionTaken (cmpl : Completion) : Prog σ ℤ :=
  if cmpl.success = false then return 0
  else
    match cmpl.opContext with
    | some op => do
      retire L run op
      return 0
    | none => return 0

/-- `handle_completion` after `rpma_conn_completion_get`. -/
def completionGot : Rpma Completion → Prog σ ℤ
  | .error e => completionFailed L e
  | .ok cmpl => completionTaken L run cmpl

/-- The three ways to handle what `rpma_conn_completion_get` returned: the error exit, nothing,
and the operation of a successful completion. -/
lemma completionGot_cases (got : Rpma Completion) :
    (∃ e, got = .error e ∧ completionGot L run got = completionFailed L e) ∨
    (∃ cmpl, got = .ok cmpl ∧ (cmpl.success = false ∨ cmpl.opContext = none) ∧
      completionGot L run got = pure 0) ∨
    (∃ op oc, got = .ok ⟨some op, oc, true⟩ ∧ completionGot L run got = do
      retire L run op
      return 0) := by
  rcases got with e | ⟨ctx, oc, success⟩
  · exact .inl ⟨e, rfl, rfl⟩
  · cases success with
    | false => exact .inr (.inl ⟨_, rfl, .inl rfl, rfl⟩)
    | true =>
        cases ctx with
        | none => exact .inr (.inl ⟨_, rfl, .inr rfl, rfl⟩)
        | some op => exact .inr (.inr ⟨op, oc, rfl, rfl⟩)

/-- `handle_completion` after `rpma_conn_completion_wait`. -/
def completionWaited (env : CompletionEnv) : Rpma Unit → Prog σ ℤ
  | .error e => completionFailed L e
  | .ok _ => do
    let got ← Exec.zoom L (connCompletionGet env)
    completionGot L run got

def handleCompletion (env : CompletionEnv) : Prog σ ℤ := do
  let waited ← Exec.zoom L (connCompletionWait env)
  completionWaited L run env waited

end ConnectionHandler

end RpmaReplica
