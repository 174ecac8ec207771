import RpmaReplica.Server
import RpmaReplica.Client

/-!
# Operations whose completions are to come

An operation in `callback_table` waits for its completion; if that has been taken from the queue
and the operation is still in the table, nobody will ever run its callback.  `handle_completion`
has five exits, and one of them does just that: a completion with a failed status is logged and
dropped.

This file follows either end of a connection through any sequence of posts, arrivals of
completions and calls of `handle_completion`, all by one thread.  The runs in which no operation
is abandoned are those in which no failed completion of an operation is taken from the queue of a
connection that is not yet disconnected (`no_op_abandoned_iff`).
-/

namespace RpmaReplica

open Exec

namespace ConnectionHandler

variable {κ σ ε : Type}

/-! ### What the thread runs -/

/-- The books, and what is awaited. -/
def Kept (cur : Option OpId) (done : List OpId) (cs : List Call) (h : ConnectionHandler κ) : Prop :=
  Books cur cs h ∧ Awaited done cs h

lemma kept_isAboutOps (cur : Option OpId) (done : List OpId) :
    IsAboutOps (Kept cur done : List Call → ConnectionHandler κ → Prop) where
  inserted cs c ds h hc hk :=
    ⟨books_isAboutOps.inserted cs c ds h hc hk.1, awaited_isAboutOps.inserted cs c ds h hc hk.2⟩
  congr cs h h' h1 h2 h3 hk :=
    ⟨books_isAboutOps.congr cs h h' h1 h2 h3 hk.1, awaited_isAboutOps.congr cs h h' h1 h2 h3 hk.2⟩

lemma kept_postOp {cur : Option OpId} {done : List OpId} {post : OpId → Call} {res : Rpma Unit}
    (hpost : IsPost post res) (callback : Option κ) :
    Logs (Kept cur done) (postOp post res callback) fun _ => Kept cur done :=
  (logs_postOp hpost callback).and (awaited_postOp hpost callback)

/-- A program of one end of a connection that may post operations, each of which it enters in the
table, and may disconnect, but does not touch the completion queue. -/
structure Routine (L : Lens σ (ConnectionHandler κ)) where
  prog : Prog σ Unit
  kept : ∀ cur done, Logs (fun cs s => Kept cur done cs (L.get s)) prog
    fun _ cs s => Kept cur done cs (L.get s)
  keeps_cq : ∀ s, (L.get (prog s).state).conn.cq = (L.get s).conn.cq
  keeps_disconnected : ∀ s, (L.get s).conn.disconnected = true →
    (L.get (prog s).state).conn.disconnected = true

/-- A program that leaves the connection alone. -/
def Routine.ofConn {L : Lens σ (ConnectionHandler κ)} (prog : Prog σ Unit)
    (kept : ∀ cur done, Logs (fun cs s => Kept cur done cs (L.get s)) prog
      fun _ cs s => Kept cur done cs (L.get s))
    (hconn : ∀ s, (L.get (prog s).state).conn = (L.get s).conn) : Routine L where
  prog := prog
  kept := kept
  keeps_cq s := congrArg RpmaConn.cq (hconn s)
  keeps_disconnected s hs := (congrArg RpmaConn.disconnected (hconn s)).trans hs

/-- A function that leaves the connection alone, called for what it does. -/
def Routine.calling {ρ : Type} {L : Lens σ (ConnectionHandler κ)} (m : Prog σ ρ)
    (kept : ∀ cur done, Logs (fun cs s => Kept cur done cs (L.get s)) m
      fun _ cs s => Kept cur done cs (L.get s))
    (hconn : ∀ s, (L.get (m s).state).conn = (L.get s).conn) : Routine L :=
  .ofConn (do
      let _ ← m
      return ())
    (fun cur done => Logs.seq (kept cur done) (fun _ => Logs.ret fun _ _ hk => hk)
      fun _ _ _ hk => hk)
    fun s => by
      rw [bind_apply, andThen_pure]
      exact hconn s

/-- A posting function leaves the connection alone. -/
lemma logs_postOp_conn (conn : RpmaConn) (post : OpId → Call) (res : Rpma Unit)
    (callback : Option κ) :
    Logs (fun _ h => h.conn = conn) (postOp post res callback) fun _ _ h => h.conn = conn :=
  fun _ h hconn => (postOp_frame post res callback h).2.2.2.trans hconn

/-- A program that runs when a message has arrived in `recv_bl`. -/
def Routine.receiving {L : Lens σ (ConnectionHandler κ)} (content : MsgBuf) (m : Routine L) :
    Routine L where
  prog := do
    zoom L (Exec.update fun h => { h with recvBl := content })
    m.prog
  kept cur done := by
    refine Logs.seq (Logs.zoom L (Logs.update fun cs h hk => ?_)) (fun _ => m.kept cur done)
      fun _ _ _ hk => hk
    exact (kept_isAboutOps cur done).congr cs h _ rfl rfl rfl hk
  keeps_cq s := by simp [m.keeps_cq]
  keeps_disconnected s hs := by
    simp only [bind_apply, zoom_apply, update_apply, Outcome.andThen_ok]
    refine m.keeps_disconnected _ ?_
    rw [L.get_set]
    exact hs

/-- One end of a connection: where the handler is in its state, and the callbacks, which depend on
what the outside does while they run. -/
structure End (σ κ ε : Type) where
  lens : Lens σ (ConnectionHandler κ)
  callback : ε → κ → Routine lens

/-- The callbacks of an end, at one event. -/
def End.callbacks (E : End σ κ ε) (e : ε) : Callbacks σ κ where
  lens := E.lens
  run k := (E.callback e k).prog
  keeps_cq k := (E.callback e k).keeps_cq

/-- `RpmaConn::disconnect`, by whoever calls it. -/
def disconnecting (L : Lens σ (ConnectionHandler κ)) : Routine L where
  prog := zoom L disconnect
  kept cur done := by
    refine Logs.zoom L (Logs.seq (Logs.update fun cs h hk => ?_) (fun _ => Logs.call ?_)
      fun _ _ _ hk => hk)
    · exact (kept_isAboutOps cur done).congr cs h _ rfl rfl rfl hk
    · exact fun cs h hk => (kept_isAboutOps cur done).neutral cs _ h ⟨rfl, rfl, rfl⟩ hk
  keeps_cq s := by simp [disconnect]
  keeps_disconnected s _ := by simp [disconnect]

end ConnectionHandler

/-! ### The two ends -/

open ConnectionHandler (Kept kept_isAboutOps kept_postOp logs_postOp_conn Routine End)

namespace RPMAHandler

/-- The callback of the server's receives. -/
def dealing (env : ServeEnv) : Routine base :=
  .ofConn (dealRequire env)
    (fun cur done => logs_dealRequire (kept_isAboutOps cur done)
      (fun res => kept_postOp (isPost_send res) none) env (kept_postOp (isPost_recv env.recv) _))
    fun h => (served env h).conn

/-- The server's end of a connection. -/
def serverEnd : End RPMAHandler ServerCallback (MsgBuf × ServeEnv) where
  lens := base
  callback := fun ⟨content, env⟩ .dealRequire => .receiving content (dealing env)

/-- The body of the constructor, which posts the first receive. -/
def constructing (env : ConstructEnv) : Routine base :=
  .ofConn (construct env)
    (fun cur done => (logs_construct env
      (kept_postOp (isPost_connReqRecv env.connReqRecv) _ : Logs (Kept cur done) _ _)).conseq
        (fun _ _ hk => hk) fun _ _ _ hk => hk.2.elim id id)
    fun h => (logs_construct env (logs_postOp_conn h.conn _ _ _) [] h rfl).2.elim
      id id

end RPMAHandler

namespace ClientHandler

/-- The callback of an operation of the client. -/
def calledBack (env : RemoteEnv) (callback : ClientCallback) : Routine base :=
  .ofConn (runCallback env callback)
    (fun cur done => logs_runCallback_ops (kept_isAboutOps cur done) env callback)
    fun h => congrArg ConnectionHandler.conn (runCallback_base env callback h).1

/-- The client's end of a connection. -/
def clientEnd : End ClientHandler ClientCallback (MsgBuf × RemoteEnv) where
  lens := base
  callback := fun ⟨content, env⟩ callback => .receiving content (calledBack env callback)

section Data

variable {H : List Call → ConnectionHandler ClientCallback → Prop}

/-- `write` posts an operation, or stops before it. -/
lemma logs_write (hpost : ∀ post res callback, IsPost post res →
      Logs H (ConnectionHandler.postOp post res callback) fun _ => H)
    (res : Rpma Unit) (offset len : UInt64) (callback : Option ℕ) :
    Logs (fun cs h => H cs (base.get h)) (write res offset len callback)
      fun _ cs h => H cs (base.get h) := by
  refine Logs.read fun h => ?_
  cases h.dataMr with
  | none => exact Logs.stop fun _ _ hs => hs.1
  | some src =>
      refine Logs.ite (fun _ => ?_) fun _ => Logs.stop fun _ _ hs => hs.1
      exact ((hpost _ res _ (isPost_rpmaWrite _ _ _ _ _ res)).zoom base).conseq
        (fun _ _ hs => hs.1) fun _ _ _ hs => hs

/-- `flush` posts an operation, or stops before it. -/
lemma logs_flush (hpost : ∀ post res callback, IsPost post res →
      Logs H (ConnectionHandler.postOp post res callback) fun _ => H)
    (res : Rpma Unit) (offset len : UInt64) (callback : Option ℕ) :
    Logs (fun cs h => H cs (base.get h)) (flush res offset len callback)
      fun _ cs h => H cs (base.get h) := by
  refine Logs.read fun h => ?_
  refine Logs.ite (fun _ => Logs.stop fun _ _ hs => hs.1) fun _ => ?_
  exact ((hpost _ res _ (isPost_rpmaFlush _ _ _ _ res)).zoom base).conseq
    (fun _ _ hs => hs.1) fun _ _ _ hs => hs

end Data

/-- `write` by the application. -/
def writing (res : Rpma Unit) (offset len : UInt64) (callback : Option ℕ) : Routine base :=
  .calling (write res offset len callback)
    (fun _ _ => logs_write (fun _ _ callback hpost => kept_postOp hpost callback) res offset len
      callback)
    fun h => logs_write (fun post res callback _ => logs_postOp_conn h.conn post res callback)
      res offset len callback [] h rfl

/-- `flush` by the application. -/
def flushing (res : Rpma Unit) (offset len : UInt64) (callback : Option ℕ) : Routine base :=
  .calling (flush res offset len callback)
    (fun _ _ => logs_flush (fun _ _ callback hpost => kept_postOp hpost callback) res offset len
      callback)
    fun h => logs_flush (fun post res callback _ => logs_postOp_conn h.conn post res callback)
      res offset len callback [] h rfl

end ClientHandler

/-! ### The machine -/

/-- The operations that completions are about. -/
def contexts (cs : List Completion) : List OpId := cs.filterMap Completion.opContext

@[simp] lemma contexts_append (cs ds : List Completion) :
    contexts (cs ++ ds) = contexts cs ++ contexts ds := List.filterMap_append

lemma contexts_cons (c : Completion) (cs : List Completion) :
    contexts (c :: cs) = c.opContext.toList ++ contexts cs := by
  cases h : c.opContext <;> simp [contexts, h]

namespace Cq

/-- The completions that arrive during a call of `handle_completion`: those before `get` and
after it only if it gets that far. -/
def arrivals (env : ConnectionHandler.CompletionEnv) (cq : Cq) : List Completion :=
  match ((cq.arriveAll env.beforeWait).waitOr env.waitFault).1 with
  | .error _ => env.beforeWait
  | .ok _ => env.beforeWait ++ (env.beforeGet ++ env.afterGet)

/-- The completion that a call of `handle_completion` takes from the queue and looks at. -/
def takes (env : ConnectionHandler.CompletionEnv) (cq : Cq) : Option Completion :=
  match (cq.arriveAll env.beforeWait).waitOr env.waitFault with
  | (.error _, _) => none
  | (.ok _, waited) => ((waited.arriveAll env.beforeGet).getOr env.getFault).1.toOption

lemma queue_waitOr (fault : Option RpmaError) (cq : Cq) : (cq.waitOr fault).2.queue = cq.queue := by
  cases fault with
  | some e => rfl
  | none =>
      rw [waitOr, wait]
      split <;> rfl

/-- What `get` does to the queue: it takes the first completion, or fails, and then nothing has
been taken unless the fault says so. -/
lemma getOr_cases (fault : Option (RpmaError × Bool)) (cq : Cq) :
    (∃ c q, cq.getOr fault = (.ok c, q) ∧ cq.queue = c :: q.queue) ∨
    (∃ e q, cq.getOr fault = (.error e, q) ∧ (q.queue = cq.queue ∨ fault = some (e, true))) := by
  rcases fault with _ | ⟨e, removed⟩
  · rw [getOr, get]
    cases hq : cq.queue with
    | nil => exact .inr ⟨.noCompletion, cq, rfl, .inl hq⟩
    | cons c cs => exact .inl ⟨c, _, rfl, rfl⟩
  · cases removed with
    | false => exact .inr ⟨e, cq, rfl, .inl rfl⟩
    | true => exact .inr ⟨e, cq.get.2, rfl, .inr rfl⟩

section Waited

variable {env : ConnectionHandler.CompletionEnv} {cq waited : Cq}

/-- All that has been in the queue during a call that gets as far as `get`. -/
lemma queue_append_arrivals
    (hwait : (cq.arriveAll env.beforeWait).waitOr env.waitFault = (.ok (), waited)) :
    cq.queue ++ cq.arrivals env = (waited.arriveAll env.beforeGet).queue ++ env.afterGet := by
  have hwaited := queue_waitOr env.waitFault (cq.arriveAll env.beforeWait)
  rw [hwait, queue_arriveAll] at hwaited
  have harr : cq.arrivals env = env.beforeWait ++ (env.beforeGet ++ env.afterGet) := by
    rw [arrivals, hwait]
  rw [harr, queue_arriveAll, hwaited]
  simp only [List.append_assoc]

lemma takes_of_waited
    (hwait : (cq.arriveAll env.beforeWait).waitOr env.waitFault = (.ok (), waited)) :
    cq.takes env = ((waited.arriveAll env.beforeGet).getOr env.getFault).1.toOption := by
  rw [takes, hwait]

end Waited

end Cq

/-- One end of a connection, with the calls it has made and the operations whose completions have
been put into the queue. -/
structure Traffic (σ : Type) where
  state : σ
  calls : List Call
  arrived : List OpId

/-- What can happen at one end of a connection. -/
inductive TrafficAct {σ κ ε : Type} (E : ConnectionHandler.End σ κ ε)
  /-- The thread runs something between two events. -/
  | call (m : ConnectionHandler.Routine E.lens)
  /-- A completion arrives between two events. -/
  | arrive (c : Completion)
  /-- The reactor calls `handle_completion`. -/
  | handle (env : ConnectionHandler.CompletionEnv) (e : ε)

namespace Traffic

open ConnectionHandler

variable {σ κ ε : Type} (E : End σ κ ε)

/-- Before anything has happened. -/
def start (s : σ) : Traffic σ := ⟨s, [], []⟩

/-- The connection handler. -/
def handler (t : Traffic σ) : ConnectionHandler κ := E.lens.get t.state

/-- The completion queue. -/
def cq (t : Traffic σ) : Cq := (t.handler E).conn.cq

/-- `RpmaConn::disconnect` has been called. -/
def Disconnected (t : Traffic σ) : Prop := (t.handler E).conn.disconnected = true

/-- The completion of the operation has not arrived yet, or it is in the queue. -/
def ToCome (t : Traffic σ) (op : OpId) : Prop := op ∉ t.arrived ∨ op ∈ contexts (t.cq E).queue

/-- **No operation is abandoned**: whatever is in the table still has its completion to come,
unless the connection has been disconnected. -/
def NoneAbandoned (t : Traffic σ) : Prop :=
  t.Disconnected E ∨ ∀ op ∈ (t.handler E).callbackTable, t.ToCome E op

/-- Completions that can arrive: at most one for each operation that has been posted. -/
def CanArrive (t : Traffic σ) (cs : List Completion) : Prop :=
  (contexts cs).Nodup ∧ ∀ op ∈ contexts cs, op ∈ postedOps t.calls ∧ op ∉ t.arrived

instance (t : Traffic σ) (cs : List Completion) : Decidable (t.CanArrive cs) :=
  inferInstanceAs (Decidable (_ ∧ _))

/-- What a program has done, while some completions arrived. -/
def after {ρ : Type} (t : Traffic σ) (o : Outcome Call Stop σ ρ) (cs : List Completion) :
    Traffic σ := ⟨o.state, t.calls ++ log o, t.arrived ++ contexts cs⟩

/-- Any posts, arrivals and calls of `handle_completion`, in any order, as long as the process
lives.  `rpma_conn_completion_get` has removed nothing if it returns `RPMA_E_NO_COMPLETION`. -/
def machine : Machine (Traffic σ) (TrafficAct E) where
  step t
    | .call m =>
      if Session.survives (m.prog t.state).result then some (t.after (m.prog t.state) []) else none
    | .arrive c =>
      if t.CanArrive [c] then
        some (t.after (zoom E.lens (setCq (·.arrive c)) t.state) [c])
      else none
    | .handle env e =>
      let o := handleCompletion E.lens (E.callbacks e).run env t.state
      if t.CanArrive ((t.cq E).arrivals env) ∧ env.getFault ≠ some (.noCompletion, true) ∧
          Session.survives o.result then
        some (t.after o ((t.cq E).arrivals env))
      else none

/-- The step takes no failed completion of an operation, or the connection has been
disconnected. -/
def TakesNoFailure (t : Traffic σ) : TrafficAct E → Prop
  | .handle env _ => t.Disconnected E ∨
      ∀ c, (t.cq E).takes env = some c → c.opContext ≠ none → c.success = true
  | _ => True

/-! ### One call of `handle_completion` -/

/-- What one call of `handle_completion` can do: nothing is taken but perhaps a completion of no
operation; the connection is disconnected; a failed completion of an operation is dropped; or the
operation of a successful completion is retired.  The last two say what has become of the
queue. -/
inductive Handling (e : ε) (env : CompletionEnv) (s : σ) (o : Outcome Call Stop σ ℤ) : Prop
  | idle (q : Cq) (state : o.state = (E.callbacks e).setCq s q)
      (neutral : ∀ c ∈ log o, c.IsNeutral)
      (queue : contexts ((E.lens.get s).conn.cq.queue ++ (E.lens.get s).conn.cq.arrivals env) =
        contexts q.queue)
      (takes : ∀ c, (E.lens.get s).conn.cq.takes env = some c → c.opContext = none)
  | disconnected (flag : (E.lens.get o.state).conn.disconnected = true)
      (takes : (E.lens.get s).conn.cq.takes env = none)
  | dropped (q : Cq) (op : OpId) (oc : RpmaOpcode) (state : o.state = (E.callbacks e).setCq s q)
      (neutral : ∀ c ∈ log o, c.IsNeutral)
      (queue : contexts ((E.lens.get s).conn.cq.queue ++ (E.lens.get s).conn.cq.arrivals env) =
        op :: contexts q.queue)
      (takes : (E.lens.get s).conn.cq.takes env = some ⟨some op, oc, false⟩)
  | retired (q : Cq) (op : OpId) (oc : RpmaOpcode) (pre : List Call)
      (state : o.state = (retire E.lens (E.callbacks e).run op ((E.callbacks e).setCq s q)).state)
      (calls : log o =
        pre ++ log (retire E.lens (E.callbacks e).run op ((E.callbacks e).setCq s q)))
      (neutral : ∀ c ∈ pre, c.IsNeutral)
      (queue : contexts ((E.lens.get s).conn.cq.queue ++ (E.lens.get s).conn.cq.arrivals env) =
        op :: contexts q.queue)
      (takes : (E.lens.get s).conn.cq.takes env = some ⟨some op, oc, true⟩)

/-- The error exit: nothing, or the connection is disconnected. -/
lemma completionFailed_cases (L : Lens σ (ConnectionHandler κ)) (e : RpmaError) (s : σ) :
    (e = .noCompletion ∧ completionFailed L e s = ⟨[], s, .ok 0⟩) ∨
    (e ≠ .noCompletion ∧ (L.get (completionFailed L e s).state).conn.disconnected = true) := by
  rw [completionFailed]
  by_cases he : e = .noCompletion
  · exact .inl ⟨he, by rw [if_pos he]; rfl⟩
  · exact .inr ⟨he, by simp [he, disconnect]⟩

/-- The calls of `rpma_conn_completion_wait` and `rpma_conn_completion_get` concern no
operation. -/
lemma isNeutral_of_mem {waited : Rpma Unit} {got : Rpma Completion} {c : Call}
    (hc : c ∈ [.connCompletionWait waited, .connCompletionGet got]) : c.IsNeutral := by
  rcases List.mem_cons.1 hc with rfl | hc
  · exact ⟨rfl, rfl, rfl⟩
  · rw [List.mem_singleton.1 hc]
    exact ⟨rfl, rfl, rfl⟩

/-- A call of `handle_completion` in which `rpma_conn_completion_wait` fails. -/
lemma handling_waitFailed {e : ε} {env : CompletionEnv} {s : σ} {err : RpmaError} {waited : Cq}
    (hwait : ((E.lens.get s).conn.cq.arriveAll env.beforeWait).waitOr env.waitFault =
      (.error err, waited)) :
    Handling E e env s (handleCompletion E.lens (E.callbacks e).run env s) := by
  have hqueue := Cq.queue_waitOr env.waitFault ((E.lens.get s).conn.cq.arriveAll env.beforeWait)
  rw [hwait, Cq.queue_arriveAll] at hqueue
  have harr : (E.lens.get s).conn.cq.arrivals env = env.beforeWait := by rw [Cq.arrivals, hwait]
  have htakes : (E.lens.get s).conn.cq.takes env = none := by rw [Cq.takes, hwait]
  obtain ⟨pre, hpre, heq⟩ := (E.callbacks e).handleCompletion_waitFailed hwait
  change handleCompletion E.lens (E.callbacks e).run env s = _ at heq
  rw [heq]
  rcases completionFailed_cases E.lens err ((E.callbacks e).setCq s waited) with
    ⟨-, hfail⟩ | ⟨-, hflag⟩
  · change completionFailed (E.callbacks e).lens err _ = _ at hfail
    rw [hfail]
    refine .idle waited rfl ?_ ?_ ?_
    · intro c hc
      rw [log_mk, List.append_nil, hpre] at hc
      rw [List.mem_singleton.1 hc]
      exact ⟨rfl, rfl, rfl⟩
    · rw [harr]
      exact congrArg contexts hqueue.symm
    · intro c hc
      rw [htakes] at hc
      cases hc
  · exact .disconnected hflag htakes

/-- A call of `handle_completion` that takes a completion. -/
lemma handling_taken {e : ε} {env : CompletionEnv} {s : σ} {waited q : Cq} {c : Completion}
    (hwait : ((E.lens.get s).conn.cq.arriveAll env.beforeWait).waitOr env.waitFault =
      (.ok (), waited))
    (hget : (waited.arriveAll env.beforeGet).getOr env.getFault = (.ok c, q))
    (hq : (waited.arriveAll env.beforeGet).queue = c :: q.queue) :
    Handling E e env s (handleCompletion E.lens (E.callbacks e).run env s) := by
  obtain ⟨pre, hpre, heq⟩ := (E.callbacks e).handleCompletion_got hwait hget
  change handleCompletion E.lens (E.callbacks e).run env s = _ at heq
  have hneutral : ∀ c ∈ pre.map Prod.snd, c.IsNeutral := by
    rw [hpre]
    exact fun c => isNeutral_of_mem
  have htakes := Cq.takes_of_waited hwait
  rw [hget] at htakes
  have hqueue : contexts ((E.lens.get s).conn.cq.queue ++ (E.lens.get s).conn.cq.arrivals env) =
      c.opContext.toList ++ contexts (q.arriveAll env.afterGet).queue := by
    rw [Cq.queue_append_arrivals hwait, hq, Cq.queue_arriveAll, List.cons_append, contexts_cons]
  obtain ⟨ctx, oc, success⟩ := c
  rw [heq]
  cases ctx with
  | none =>
      -- whatever its status, there is nothing to be done
      refine .idle (q.arriveAll env.afterGet) ?_ ?_ hqueue ?_
      · cases success <;> rfl
      · cases success <;> simpa [log, completionGot, completionTaken] using hneutral
      · intro c hc
        obtain rfl := Option.some.inj (htakes.symm.trans hc)
        rfl
  | some op =>
      cases success with
      | false =>
          refine .dropped (q.arriveAll env.afterGet) op oc rfl ?_ hqueue htakes
          simpa [log, completionGot, completionTaken] using hneutral
      | true =>
          refine .retired (q.arriveAll env.afterGet) op oc (pre.map Prod.snd) ?_ ?_ hneutral
            hqueue htakes
          · simp only [completionGot, completionTaken, Bool.true_eq_false, if_false,
              Exec.bind_apply, Exec.andThen_pure]
            rfl
          · simp only [completionGot, completionTaken, Bool.true_eq_false, if_false,
              Exec.bind_apply, Exec.andThen_pure, log, List.map_append]
            rfl

/-- A call of `handle_completion` in which `rpma_conn_completion_get` fails. -/
lemma handling_getFailed {e : ε} {env : CompletionEnv} {s : σ} {waited q : Cq} {err : RpmaError}
    (hwait : ((E.lens.get s).conn.cq.arriveAll env.beforeWait).waitOr env.waitFault =
      (.ok (), waited))
    (hget : (waited.arriveAll env.beforeGet).getOr env.getFault = (.error err, q))
    (hq : err = .noCompletion → q.queue = (waited.arriveAll env.beforeGet).queue) :
    Handling E e env s (handleCompletion E.lens (E.callbacks e).run env s) := by
  obtain ⟨pre, hpre, heq⟩ := (E.callbacks e).handleCompletion_got hwait hget
  change handleCompletion E.lens (E.callbacks e).run env s = _ at heq
  have htakes := Cq.takes_of_waited hwait
  rw [hget] at htakes
  rw [heq]
  rcases completionFailed_cases E.lens err
    ((E.callbacks e).setCq s (q.arriveAll env.afterGet)) with ⟨herr, hfail⟩ | ⟨-, hflag⟩
  · -- nothing has been taken
    change completionGot (E.callbacks e).lens (E.callbacks e).run (.error err) _ = _ at hfail
    rw [hfail]
    refine .idle (q.arriveAll env.afterGet) rfl ?_ ?_ ?_
    · intro c hc
      rw [log_mk, List.append_nil, hpre] at hc
      exact isNeutral_of_mem hc
    · rw [Cq.queue_append_arrivals hwait, ← hq herr, Cq.queue_arriveAll]
    · intro c hc
      cases htakes.symm.trans hc
  · exact .disconnected hflag htakes

/-- **What `handle_completion` does.** -/
lemma handling (e : ε) {env : CompletionEnv} (hfault : env.getFault ≠ some (.noCompletion, true))
    (s : σ) : Handling E e env s (handleCompletion E.lens (E.callbacks e).run env s) := by
  rcases hwait : ((E.lens.get s).conn.cq.arriveAll env.beforeWait).waitOr env.waitFault with
    ⟨err | u, waited⟩
  · exact handling_waitFailed E hwait
  · rcases Cq.getOr_cases env.getFault (waited.arriveAll env.beforeGet) with
      ⟨c, q, hget, hq⟩ | ⟨err, q, hget, hq⟩
    · exact handling_taken E hwait hget hq
    · refine handling_getFailed E hwait hget fun herr => ?_
      exact hq.resolve_right fun hremoved => hfault (herr ▸ hremoved)

/-! ### The invariant -/

/-- All operations are accounted for; `taken` are those whose completions have been taken from
the queue.  Each of them has been destroyed. -/
structure Accounted (taken : List OpId) (t : Traffic σ) : Prop where
  arrived : t.arrived = taken ++ contexts (t.cq E).queue
  nodup : t.arrived.Nodup
  posted : ∀ op ∈ t.arrived, op ∈ postedOps t.calls
  kept : Kept none taken t.calls (t.handler E)
  released : ∀ op ∈ taken, op ∈ opLedger.released t.calls

variable {E} {taken : List OpId} {t : Traffic σ}

lemma accounted_start {s : σ} {sendBl recvBl : MsgBuf} (hs : E.lens.get s = create sendBl recvBl) :
    Accounted E [] (start s) where
  arrived := by
    show [] = [] ++ contexts (E.lens.get s).conn.cq.queue
    rw [hs]
    rfl
  nodup := List.nodup_nil
  posted := by simp [start]
  kept := by
    show Kept none [] [] (E.lens.get s)
    rw [hs]
    exact ⟨books_create sendBl recvBl, by simp [Awaited, postedOps]⟩
  released := by simp

/-- What is taken is destroyed, so that the table holds only what is to come. -/
lemma Accounted.noneAbandoned (ha : Accounted E taken t) : t.NoneAbandoned E := by
  refine .inr fun op hop => ?_
  by_cases harr : op ∈ t.arrived
  · rw [ha.arrived] at harr
    rcases List.mem_append.1 harr with htaken | hqueue
    · exact absurd (ha.released op htaken) ((ha.kept.1.mem_callbackTable op).1 hop).2
    · exact .inr hqueue
  · exact .inl harr

/-- The operation of a completion that is next in the queue, or arrives and is taken at once, is
in the table. -/
lemma Accounted.mem_callbackTable (ha : Accounted E taken t) {cs : List Completion}
    (hcan : t.CanArrive cs) {op : OpId} {rest : List OpId}
    (hqueue : contexts ((t.cq E).queue ++ cs) = op :: rest) :
    op ∈ (t.handler E).callbackTable ∧ op ∉ rest ∧ op ∈ t.arrived ++ contexts cs := by
  have harr : t.arrived ++ contexts cs = taken ++ (op :: rest) := by
    rw [ha.arrived, List.append_assoc, ← contexts_append, hqueue]
  have hnodup : (taken ++ (op :: rest)).Nodup := by
    rw [← harr, List.nodup_append]
    refine ⟨ha.nodup, hcan.1, ?_⟩
    rintro x hx y hy rfl
    exact (hcan.2 x hy).2 hx
  have hmem : op ∈ t.arrived ++ contexts cs := by
    rw [harr]
    exact List.mem_append_right _ List.mem_cons_self
  have hposted : op ∈ postedOps t.calls := by
    rcases List.mem_append.1 hmem with hop | hop
    · exact ha.posted op hop
    · exact (hcan.2 op hop).1
  obtain ⟨-, hcons, hdisj⟩ := List.nodup_append.1 hnodup
  refine ⟨(ha.kept.2 op hposted).resolve_left fun htaken => ?_, (List.nodup_cons.1 hcons).1, hmem⟩
  exact hdisj op htaken op List.mem_cons_self rfl

/-- What has to be shown of a program for the account to stay right. -/
lemma Accounted.after {ρ : Type} (ha : Accounted E taken t) {cs : List Completion}
    (hcan : t.CanArrive cs) {o : Outcome Call Stop σ ρ} {more : List OpId}
    (hqueue : contexts ((t.cq E).queue ++ cs) =
      more ++ contexts (E.lens.get o.state).conn.cq.queue)
    (hkept : Kept none (taken ++ more) (t.calls ++ log o) (E.lens.get o.state))
    (hreleased : ∀ op ∈ more, op ∈ opLedger.released (log o)) :
    Accounted E (taken ++ more) (t.after o cs) where
  arrived := by
    show t.arrived ++ contexts cs = taken ++ more ++ contexts (E.lens.get o.state).conn.cq.queue
    rw [ha.arrived, List.append_assoc, ← contexts_append, hqueue, List.append_assoc]
  nodup := by
    refine List.nodup_append.2 ⟨ha.nodup, hcan.1, ?_⟩
    rintro x hx y hy rfl
    exact (hcan.2 x hy).2 hx
  posted op hop := by
    show op ∈ postedOps (t.calls ++ log o)
    rw [postedOps_append]
    refine List.mem_append_left _ ?_
    rcases List.mem_append.1 hop with hop | hop
    · exact ha.posted op hop
    · exact (hcan.2 op hop).1
  kept := hkept
  released op hop := by
    show op ∈ opLedger.released (t.calls ++ log o)
    rw [Ledger.released_append]
    rcases List.mem_append.1 hop with hop | hop
    · exact List.mem_append_left _ (ha.released op hop)
    · exact List.mem_append_right _ (hreleased op hop)

/-! ### The steps -/

lemma canArrive_nil (t : Traffic σ) : t.CanArrive [] := by simp [CanArrive, contexts]

lemma get_setCq (e : ε) (s : σ) (q : Cq) :
    E.lens.get ((E.callbacks e).setCq s q) =
      { E.lens.get s with conn := { (E.lens.get s).conn with cq := q } } := by
  simp [Callbacks.setCq, End.callbacks]

/-- Another queue and calls that concern no operation leave the books as they are. -/
lemma Accounted.kept_setCq (ha : Accounted E taken t) (e : ε) (q : Cq) {cs : List Call}
    (hcs : ∀ c ∈ cs, c.IsNeutral) :
    Kept none taken (t.calls ++ cs) (E.lens.get ((E.callbacks e).setCq t.state q)) := by
  rw [get_setCq]
  refine (kept_isAboutOps none taken).append hcs ?_
  exact (kept_isAboutOps none taken).congr t.calls (t.handler E) _ rfl rfl rfl ha.kept

/-- What the thread runs between two events. -/
lemma Accounted.call (ha : Accounted E taken t) (m : Routine E.lens) :
    Accounted E (taken ++ []) (t.after (m.prog t.state) []) := by
  refine ha.after (canArrive_nil t) ?_ ?_ (by simp)
  · rw [m.keeps_cq, List.append_nil]
    rfl
  · rw [List.append_nil]
    exact m.kept none taken t.calls t.state ha.kept

/-- A completion arrives. -/
lemma Accounted.arrive (ha : Accounted E taken t) {c : Completion} (hcan : t.CanArrive [c]) :
    Accounted E (taken ++ []) (t.after (zoom E.lens (setCq (·.arrive c)) t.state) [c]) := by
  have hstate : E.lens.get (zoom E.lens (setCq (·.arrive c)) t.state).state =
      { t.handler E with conn := { (t.handler E).conn with cq := (t.cq E).arrive c } } := by
    simp [ConnectionHandler.setCq, handler, cq]
  have hlog : log (zoom E.lens (setCq (·.arrive c)) t.state) = [] := rfl
  refine ha.after hcan ?_ ?_ (by simp)
  · rw [hstate]
    rfl
  · rw [hstate, hlog, List.append_nil, List.append_nil]
    exact (kept_isAboutOps none taken).congr t.calls (t.handler E) _ rfl rfl rfl ha.kept

/-- Retiring an operation destroys it. -/
lemma released_retire (L : Lens σ (ConnectionHandler κ)) (run : κ → Prog σ Unit) (op : OpId)
    (s : σ) : op ∈ opLedger.released (log (retire L run op s)) := by
  have hlog : ∃ cs, log (retire L run op s) = cs ++ [.opDelete op] := by
    rw [retire, bind_apply]
    refine ⟨log (doCallback L run op (zoom L (eraseOp op) s).state), ?_⟩
    simp [log, eraseOp, deleteOp]
  obtain ⟨cs, hcs⟩ := hlog
  rw [hcs, Ledger.released_append]
  exact List.mem_append_right _ (List.mem_singleton.2 rfl)

/-- **The operation of a successful completion is retired.** -/
lemma Accounted.retired (ha : Accounted E taken t) {e : ε} {q : Cq} {op : OpId} {pre : List Call}
    (hpre : ∀ c ∈ pre, c.IsNeutral) (hop : op ∈ (t.handler E).callbackTable) :
    Kept none (taken ++ [op])
      (t.calls ++ (pre ++ log (retire E.lens (E.callbacks e).run op
        ((E.callbacks e).setCq t.state q))))
      (E.lens.get (retire E.lens (E.callbacks e).run op
        ((E.callbacks e).setCq t.state q)).state) := by
  have hkept := ha.kept_setCq e q hpre
  have hop' : op ∈ (E.lens.get ((E.callbacks e).setCq t.state q)).callbackTable := by
    rw [get_setCq]
    exact hop
  rw [← List.append_assoc]
  exact logs_retire_books E.lens op taken
    (fun k => (E.callback e k).kept (some op) (taken ++ [op])) (t.calls ++ pre)
    ((E.callbacks e).setCq t.state q) ⟨⟨hkept.1, hop'⟩, hkept.2⟩

/-- **A call of `handle_completion` that takes no failed completion of an operation** disconnects
or keeps the account. -/
lemma Accounted.handle (ha : Accounted E taken t) {e : ε} {env : CompletionEnv}
    (hcan : t.CanArrive ((t.cq E).arrivals env)) {o : Outcome Call Stop σ ℤ}
    (hh : Handling E e env t.state o)
    (hno : ∀ c, (t.cq E).takes env = some c → c.opContext ≠ none → c.success = true) :
    (t.after o ((t.cq E).arrivals env)).Disconnected E ∨
      ∃ taken', Accounted E taken' (t.after o ((t.cq E).arrivals env)) := by
  cases hh with
  | idle q state neutral queue takes =>
      refine .inr ⟨taken ++ [], ha.after hcan ?_ ?_ (by simp)⟩
      · rw [state, get_setCq]
        exact queue
      · rw [state, List.append_nil]
        exact ha.kept_setCq e q neutral
  | disconnected flag takes => exact .inl flag
  | dropped q op oc state neutral queue takes =>
      have hfalse : false = true := hno _ takes (Option.some_ne_none op)
      cases hfalse
  | retired q op oc pre state calls neutral queue takes =>
      obtain ⟨hop, -, -⟩ := ha.mem_callbackTable hcan queue
      refine .inr ⟨taken ++ [op], ha.after hcan ?_ ?_ ?_⟩
      · have hcq : (E.lens.get (retire E.lens (E.callbacks e).run op
            ((E.callbacks e).setCq t.state q)).state).conn.cq = q :=
          ((E.callbacks e).retire_cq op _).trans ((E.callbacks e).cq_setCq _ q)
        rw [state, hcq]
        exact queue
      · rw [state, calls]
        exact ha.retired neutral hop
      · intro x hx
        obtain rfl := List.mem_singleton.1 hx
        rw [calls, Ledger.released_append]
        exact List.mem_append_right _ (released_retire _ _ x _)

/-- **A failed completion of an operation is taken**: the operation is abandoned. -/
lemma Accounted.abandoned (ha : Accounted E taken t) (hconn : ¬t.Disconnected E) {e : ε}
    {env : CompletionEnv} (hcan : t.CanArrive ((t.cq E).arrivals env))
    {o : Outcome Call Stop σ ℤ} (hh : Handling E e env t.state o) {c : Completion}
    (htakes : (t.cq E).takes env = some c) (hctx : c.opContext ≠ none)
    (hfailed : c.success ≠ true) :
    ¬(t.after o ((t.cq E).arrivals env)).NoneAbandoned E := by
  cases hh with
  | idle q state neutral queue takes => exact absurd (takes c htakes) hctx
  | disconnected flag takes => cases takes.symm.trans htakes
  | retired q op oc pre state calls neutral queue takes =>
      obtain rfl := Option.some.inj (takes.symm.trans htakes)
      exact absurd rfl hfailed
  | dropped q op oc state neutral queue takes =>
      obtain ⟨hop, hrest, harr⟩ := ha.mem_callbackTable hcan queue
      have hhandler : (t.after o ((t.cq E).arrivals env)).handler E =
          { t.handler E with conn := { (t.handler E).conn with cq := q } } := by
        show E.lens.get o.state = _
        rw [state, get_setCq]
        rfl
      rintro (hdis | hall)
      · rw [Disconnected, hhandler] at hdis
        exact hconn hdis
      · rw [hhandler] at hall
        rcases hall op hop with hnot | hqueue
        · exact hnot harr
        · rw [cq, hhandler] at hqueue
          exact hrest hqueue

/-- What a step is. -/
lemma step_cases {u : Traffic σ} {a : TrafficAct E} (hstep : (machine E).step t a = some u) :
    (∃ m, a = .call m ∧ u = t.after (m.prog t.state) []) ∨
    (∃ c, a = .arrive c ∧ t.CanArrive [c] ∧
      u = t.after (zoom E.lens (setCq (·.arrive c)) t.state) [c]) ∨
    (∃ env e o, a = .handle env e ∧ t.CanArrive ((t.cq E).arrivals env) ∧
      Handling E e env t.state o ∧ u = t.after o ((t.cq E).arrivals env)) := by
  cases a with
  | call m =>
      simp only [machine, Option.ite_none_right_eq_some, Option.some.injEq] at hstep
      exact .inl ⟨m, rfl, hstep.2.symm⟩
  | arrive c =>
      simp only [machine, Option.ite_none_right_eq_some, Option.some.injEq] at hstep
      exact .inr (.inl ⟨c, rfl, hstep.1, hstep.2.symm⟩)
  | handle env e =>
      simp only [machine, Option.ite_none_right_eq_some, Option.some.injEq] at hstep
      obtain ⟨⟨hcan, hfault, -⟩, hu⟩ := hstep
      exact .inr (.inr ⟨env, e, _, rfl, hcan, handling E e hfault t.state, hu.symm⟩)

lemma step_arrive {c : Completion} (hcan : t.CanArrive [c]) :
    (machine E).step t (.arrive c) =
      some (t.after (zoom E.lens (setCq (·.arrive c)) t.state) [c]) := if_pos hcan

lemma step_handle {env : CompletionEnv} {e : ε} (hcan : t.CanArrive ((t.cq E).arrivals env))
    (hfault : env.getFault ≠ some (.noCompletion, true))
    (halive : Session.survives (handleCompletion E.lens (E.callbacks e).run env t.state).result) :
    (machine E).step t (.handle env e) = some (t.after
      (handleCompletion E.lens (E.callbacks e).run env t.state) ((t.cq E).arrivals env)) :=
  if_pos ⟨hcan, hfault, halive⟩

/-- Retiring an operation does not connect again. -/
lemma disconnected_retire (e : ε) (op : OpId) {s : σ}
    (hs : (E.lens.get s).conn.disconnected = true) :
    (E.lens.get (retire E.lens (E.callbacks e).run op s).state).conn.disconnected = true := by
  have hcallback : ∀ s, (E.lens.get s).conn.disconnected = true →
      (E.lens.get (doCallback E.lens (E.callbacks e).run op s).state).conn.disconnected = true := by
    intro s hs
    simp only [doCallback, bind_apply, read_apply, Outcome.andThen_ok]
    rcases (E.lens.get s).ops.lookup op with _ | _ | k
    · exact hs
    · exact hs
    · exact (E.callback e k).keeps_disconnected s hs
  have herase : (E.lens.get (zoom E.lens (eraseOp op) s).state).conn.disconnected = true := by
    simpa [eraseOp] using hs
  have h := hcallback _ herase
  simpa [retire, eraseOp, deleteOp] using h

/-- A disconnected connection stays so. -/
lemma disconnected_step {u : Traffic σ} {a : TrafficAct E} (hd : t.Disconnected E)
    (hstep : (machine E).step t a = some u) : u.Disconnected E := by
  have hset : ∀ e q, (E.lens.get ((E.callbacks e).setCq t.state q)).conn.disconnected = true := by
    intro e q
    rw [get_setCq]
    exact hd
  rcases step_cases hstep with ⟨m, -, rfl⟩ | ⟨c, -, -, rfl⟩ | ⟨env, e, o, -, -, hh, rfl⟩
  · exact m.keeps_disconnected t.state hd
  · have hflag : (E.lens.get t.state).conn.disconnected = true := hd
    show (E.lens.get (zoom E.lens _ t.state).state).conn.disconnected = true
    simpa [ConnectionHandler.setCq] using hflag
  · show (E.lens.get o.state).conn.disconnected = true
    cases hh with
    | idle q state neutral queue takes =>
        rw [state]
        exact hset e q
    | disconnected flag takes => exact flag
    | dropped q op oc state neutral queue takes =>
        rw [state]
        exact hset e q
    | retired q op oc pre state calls neutral queue takes =>
        rw [state]
        exact disconnected_retire e op (hset e q)

/-! ### Runs -/

/-- The connection is disconnected, or all operations are accounted for. -/
def Inv (E : End σ κ ε) (t : Traffic σ) : Prop := t.Disconnected E ∨ ∃ taken, Accounted E taken t

lemma inv_step {u : Traffic σ} {a : TrafficAct E} (hinv : Inv E t) (hC : TakesNoFailure E t a)
    (hstep : (machine E).step t a = some u) : Inv E u := by
  rcases hinv with hd | ⟨taken, ha⟩
  · exact .inl (disconnected_step hd hstep)
  rcases step_cases hstep with ⟨m, rfl, rfl⟩ | ⟨c, rfl, hcan, rfl⟩ | ⟨env, e, o, rfl, hcan, hh, rfl⟩
  · exact .inr ⟨_, ha.call m⟩
  · exact .inr ⟨_, ha.arrive hcan⟩
  · rcases hC with hd | hno
    · exact .inl (disconnected_step hd hstep)
    · exact ha.handle hcan hh hno

lemma abandoned_step {u : Traffic σ} {a : TrafficAct E} (hinv : Inv E t)
    (hC : ¬TakesNoFailure E t a) (hstep : (machine E).step t a = some u) : ¬u.NoneAbandoned E := by
  rcases step_cases hstep with ⟨m, rfl, rfl⟩ | ⟨c, rfl, hcan, rfl⟩ | ⟨env, e, o, rfl, hcan, hh, rfl⟩
  · exact absurd trivial hC
  · exact absurd trivial hC
  · simp only [TakesNoFailure, not_or, not_forall] at hC
    obtain ⟨hconn, c, htakes, hctx, hfailed⟩ := hC
    obtain ⟨taken, ha⟩ := hinv.resolve_left hconn
    exact ha.abandoned hconn hcan hh htakes hctx hfailed

/-- **When no operation is abandoned.**  In every run of either end of a connection, from a new
handler, with any posts, any completions and any failures: whatever is in `callback_table` between
two events still has its completion to come, unless the connection has been disconnected, in every
state of the run if and only if no call of `handle_completion` takes a failed completion of an
operation while the connection is not disconnected. -/
theorem no_op_abandoned_iff (E : End σ κ ε) {s : σ} {sendBl recvBl : MsgBuf}
    (hs : E.lens.get s = create sendBl recvBl) {as : List (TrafficAct E)} {t : Traffic σ}
    (hrun : (machine E).Run (start s) as t) :
    (machine E).Always (NoneAbandoned E) (start s) as ↔
      (machine E).Meets (TakesNoFailure E) (start s) as := by
  refine Machine.always_iff (Inv E) (.inr ⟨[], accounted_start hs⟩)
    (fun _ _ _ => inv_step) ?_ (fun _ _ _ => abandoned_step) hrun
  rintro t (hd | ⟨taken, ha⟩)
  · exact .inl hd
  · exact ha.noneAbandoned

/-- A client that has registered 64 bytes to write from. -/
def prepared : ClientHandler :=
  { ClientHandler.created with
    dataMr := some ⟨some 16, 64, ClientHandler.rpmaMrUsageWriteSrc, []⟩ }

/-- The client writes 64 bytes, the completion arrives, and it is handled. -/
def writeRun (success : Bool) : List (TrafficAct ClientHandler.clientEnd) :=
  [.call (ClientHandler.writing (.ok ()) 0 64 (some 5)), .arrive ⟨some 0, .write, success⟩,
    .handle quiet (MsgBuf.zero, Agreement.sampleRemote)]

/-- The write is posted. -/
def written : Traffic ClientHandler :=
  (start prepared).after ((ClientHandler.writing (.ok ()) 0 64 (some 5)).prog prepared) []

/-- Its completion has arrived. -/
def completed (success : Bool) : Traffic ClientHandler :=
  written.after (zoom ClientHandler.base (setCq (·.arrive ⟨some 0, .write, success⟩)) written.state)
    [⟨some 0, .write, success⟩]

lemma run_written : (machine ClientHandler.clientEnd).Run (start prepared)
    [.call (ClientHandler.writing (.ok ()) 0 64 (some 5))] written :=
  Machine.Run.snoc (.nil _) rfl

lemma run_completed (success : Bool) :
    (machine ClientHandler.clientEnd).Run (start prepared)
      [.call (ClientHandler.writing (.ok ()) 0 64 (some 5)), .arrive ⟨some 0, .write, success⟩]
      (completed success) := by
  refine run_written.snoc (step_arrive (?_ : written.CanArrive [⟨some 0, .write, success⟩]))
  refine ⟨List.nodup_singleton 0, ?_⟩
  intro op hop
  obtain rfl := List.mem_singleton.1 hop
  decide

lemma takes_completed (success : Bool) :
    ((completed success).cq ClientHandler.clientEnd).takes quiet =
      some ⟨some 0, .write, success⟩ := rfl

lemma connected_completed (success : Bool) :
    ¬(completed success).Disconnected ClientHandler.clientEnd := by
  have hflag : ((completed success).handler ClientHandler.clientEnd).conn.disconnected = false :=
    rfl
  rw [Disconnected, hflag]
  decide

/-- The completion of the write is handled. -/
lemma step_completed (success : Bool) :
    ∃ u, (machine ClientHandler.clientEnd).step (completed success)
      (.handle quiet (MsgBuf.zero, Agreement.sampleRemote)) = some u := by
  refine ⟨_, step_handle ?_ (by decide) ?_⟩
  · exact canArrive_nil _
  · cases success <;> rfl

/-- A write that succeeds is not abandoned, and neither is the first receive of a server. -/
theorem no_op_abandoned_write :
    (∃ t, (machine ClientHandler.clientEnd).Run (start prepared) (writeRun true) t ∧
      (machine ClientHandler.clientEnd).Always (NoneAbandoned ClientHandler.clientEnd)
        (start prepared) (writeRun true)) ∧
    (∃ t, (machine RPMAHandler.serverEnd).Run (start (RPMAHandler.blank .zero .zero 0))
        [.call (RPMAHandler.constructing .ok)] t ∧
      (machine RPMAHandler.serverEnd).Always (NoneAbandoned RPMAHandler.serverEnd)
        (start (RPMAHandler.blank .zero .zero 0)) [.call (RPMAHandler.constructing .ok)]) := by
  constructor
  · have hnew : ClientHandler.clientEnd.lens.get prepared = create .zero .zero := rfl
    obtain ⟨u, hu⟩ := step_completed true
    have r := (run_completed true).snoc hu
    refine ⟨u, r, (no_op_abandoned_iff ClientHandler.clientEnd hnew r).2 ?_⟩
    have hmeets : (machine ClientHandler.clientEnd).Meets (TakesNoFailure ClientHandler.clientEnd)
        (start prepared) [.call (ClientHandler.writing (.ok ()) 0 64 (some 5)),
          .arrive ⟨some 0, .write, true⟩] :=
      (Machine.meets_singleton trivial).snoc run_written trivial
    refine hmeets.snoc (run_completed true) (.inr fun c hc _ => ?_)
    obtain rfl := Option.some.inj ((takes_completed true).symm.trans hc)
    rfl
  · have hnew : RPMAHandler.serverEnd.lens.get (RPMAHandler.blank .zero .zero 0) =
        create .zero .zero := rfl
    have r : (machine RPMAHandler.serverEnd).Run (start (RPMAHandler.blank .zero .zero 0))
        [.call (RPMAHandler.constructing .ok)] _ := Machine.Run.snoc (.nil _) rfl
    exact ⟨_, r, (no_op_abandoned_iff RPMAHandler.serverEnd hnew r).2
      (Machine.meets_singleton trivial)⟩

/-- **An abandoned write.**  The completion of a write comes back failed.  `handle_completion`
takes it from the queue and returns 0: the operation stays in the table, its completion is neither
to come nor in the queue, and nobody has disconnected. -/
theorem failed_write_abandoned :
    ∃ t, (machine ClientHandler.clientEnd).Run (start prepared) (writeRun false) t ∧
      (0 : OpId) ∈ (t.handler ClientHandler.clientEnd).callbackTable ∧ t.arrived = [0] ∧
      (t.cq ClientHandler.clientEnd).queue = [] ∧ ¬t.Disconnected ClientHandler.clientEnd ∧
      ¬t.NoneAbandoned ClientHandler.clientEnd := by
  refine ⟨_, (run_completed false).snoc (step_handle (canArrive_nil _) (by decide) rfl),
    Finset.mem_insert_self 0 ∅, rfl, rfl, connected_completed false, ?_⟩
  rintro (hd | hall)
  · exact connected_completed false hd
  · rcases hall 0 (Finset.mem_insert_self 0 ∅) with hnot | hqueue
    · exact hnot (List.mem_singleton.2 rfl)
    · cases hqueue

end Traffic

end RpmaReplica
