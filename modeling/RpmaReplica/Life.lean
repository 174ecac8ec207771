import RpmaReplica.Lib.Machine
import RpmaReplica.Operations
import RpmaReplica.Session

/-!
# The life of the server's operations

An `RPMAHandler` is constructed, or its constructor throws; it handles completions, one after
another; and it is destroyed.  Its first receive is posted by the constructor, all the others by
the callback of the one before, and the sends by the same callback.

Two results.  Every operation is destroyed exactly once, its callback is run at most once, and
between two events the table holds just the operations that are posted and not destroyed
(`ops_exactly_once`).  And `recv_bl` is never shared: at most one receive is outstanding, none
while a request is decoded, and exactly one between two events as long as nothing fails
(`one_receive`).
-/

namespace RpmaReplica

open Exec ConnectionHandler

/-! ### What the functions of the server do to operations -/

namespace RPMAHandler

variable {H : List Call → ConnectionHandler ServerCallback → Prop}

/-- The condition on the base object. -/
def OfBase (H : List Call → ConnectionHandler ServerCallback → Prop) (cs : List Call)
    (h : RPMAHandler) : Prop := H cs h.toConnectionHandler

/-- A program of the server that concerns no operation. -/
lemma logs_of_only {ρ : Type} (hH : IsAboutOps H) {m : Prog RPMAHandler ρ}
    (hm : Only Call.IsNeutral m)
    (hstate : ∀ h, (m h).state.callbackTable = h.callbackTable ∧ (m h).state.ops = h.ops ∧
      (m h).state.nextOp = h.nextOp) : Logs (OfBase H) m fun _ => OfBase H :=
  Logs.of_only hm (fun cs c _ hc hb => hH.neutral cs c _ hc hb) fun cs h hb =>
    hH.congr cs _ _ (hstate h).1 (hstate h).2.1 (hstate h).2.2 hb

lemma logs_decodeFrom {α : Type} (hH : IsAboutOps H) (d : Wire.Decoder α) (buf : MsgBuf) :
    Logs (OfBase H) (decodeFrom d buf) fun _ => OfBase H := by
  refine logs_of_only hH (decodeFrom_only d buf) fun h => ?_
  rw [decodeFrom]
  rcases d buf.cbegin with e | ⟨a, c⟩ <;> exact ⟨rfl, rfl, rfl⟩

lemma logs_resetDataMr (hH : IsAboutOps H) (mr : Option MrLocal) :
    Logs (OfBase H) (resetDataMr mr) fun _ => OfBase H := by
  refine logs_of_only hH ((resetDataMr_only mr).mono fun _ => Call.isNeutral_of_isRegistration) ?_
  intro h
  rw [(resetDataMr_eq mr h).2]
  exact ⟨rfl, rfl, rfl⟩

lemma logs_manager {ρ : Type} (hH : IsAboutOps H) {m : Prog MemoryManager ρ}
    (hm : Only Call.IsMemory m) : Logs (OfBase H) (zoom manager m) fun _ => OfBase H :=
  logs_of_only hH ((hm.mono fun _ => Call.isNeutral_of_isMemory).zoom manager)
    fun _ => ⟨rfl, rfl, rfl⟩

lemma Registration.sameOps {env : MrEnv} {op : RpmaOpcode} {h s : RPMAHandler} {r : Except Stop ℤ}
    (hreg : Registration env op h r s) :
    s.callbackTable = h.callbackTable ∧ s.ops = h.ops ∧ s.nextOp = h.nextOp := by
  cases hreg <;> exact ⟨rfl, rfl, rfl⟩

lemma InitAnswer.sameOps {env : ServeEnv} {h s : RPMAHandler} {r : Except Stop ℤ}
    (hans : InitAnswer env h r s) :
    s.callbackTable = h.callbackTable ∧ s.ops = h.ops ∧ s.nextOp = h.nextOp := by
  cases hans with
  | malformed _ => exact ⟨rfl, rfl, rfl⟩
  | unallocated _ _ _ _ => exact ⟨rfl, rfl, rfl⟩
  | registered _ halloc hreg =>
      obtain ⟨h1, h2, h3⟩ := hreg.sameOps
      have hbase := halloc.frame.1
      exact ⟨h1.trans (congrArg callbackTable hbase), h2.trans (congrArg ops hbase),
        h3.trans (congrArg nextOp hbase)⟩

lemma logs_getDescriptorForWrite (hH : IsAboutOps H) (env : ServeEnv) :
    Logs (OfBase H) (getDescriptorForWrite env) fun _ => OfBase H := by
  refine logs_of_only hH ((getDescriptorForWrite_only env).mono ?_) fun h =>
    (initAnswer env h).sameOps
  rintro c (hc | hc)
  · exact Call.isNeutral_of_isMemory hc
  · exact Call.isNeutral_of_isRegistration hc

lemma logs_fillSendBl (hH : IsAboutOps H) (bl : Bytes) :
    Logs (OfBase H) (zoom base (fillSendBl bl)) fun _ => OfBase H := by
  refine logs_of_only hH (.zoom _ (fillSendBl_only bl)) fun h => ?_
  by_cases hlen : bl.length < msgSize
  · simp only [zoom_apply, base, fillSendBl_of_lt hlen]
    exact ⟨trivial, trivial, trivial⟩
  · simp only [zoom_apply, base, fillSendBl_of_le hlen]
    exact ⟨trivial, trivial, trivial⟩

/-- `close`: besides its send, it concerns no operation. -/
lemma logs_close (hH : IsAboutOps H) (hsend : ∀ res, Logs H (send res none) fun _ => H)
    (env : ServeEnv) : Logs (OfBase H) (close env) fun _ => OfBase H := by
  refine Logs.seq (logs_resetDataMr hH none) (fun _ => ?_) fun _ _ _ hs => hs
  refine Logs.seq (logs_manager hH (MemoryManager.closeAndRemove_only _)) (fun removed => ?_)
    fun _ _ _ hs => hs
  refine Logs.seq (logs_fillSendBl hH _) (fun _ => ?_) fun _ _ _ hs => hs
  exact Logs.seq ((hsend env.closeSend).zoom base) (fun _ => Logs.ret fun _ _ hs => hs)
    fun _ _ _ hs => hs

/-- `get_descriptor`: besides the send of `close`, it concerns no operation. -/
lemma logs_getDescriptor (hH : IsAboutOps H) (hsend : ∀ res, Logs H (send res none) fun _ => H)
    (env : ServeEnv) : Logs (OfBase H) (getDescriptor env) fun _ => OfBase H := by
  refine Logs.read fun h => ?_
  refine Logs.seq ((logs_decodeFrom hH _ _).conseq (fun _ _ hs => hs.1) fun _ _ _ hs => hs)
    (fun req => ?_) fun _ _ _ hs => hs
  exact Logs.ite (fun _ => logs_getDescriptorForWrite hH env) fun _ =>
    Logs.ite (fun _ => logs_close hH hsend env) fun _ => Logs.ret fun _ _ hs => hs

/-! ### Construction, requests, destruction -/

/-- The end of `deal_require` is to operations what `recv` is: the send in between, or behind, is
not that of an operation. -/
lemma logs_receiveAndReply {P : List Call → ConnectionHandler ServerCallback → Prop}
    (hP : IsAboutOps P) {res : Rpma Unit} (hrecv : Logs H (recv res (some .dealRequire)) fun _ => P)
    (send : Rpma Unit) : Logs H (receiveAndReply res send) fun _ => P := by
  have hneutral : (Call.rpmaSend none send).IsNeutral := ⟨rfl, rfl, by cases send <;> rfl⟩
  intro cs h hs
  have hp := hrecv cs h hs
  cases res with
  | ok u =>
      have hsent := hP.neutral _ (.rpmaSend none send) _ hneutral hp
      rwa [List.append_assoc] at hsent
  | error e =>
      have hlog : cs ++ log (recv (.error e) (some .dealRequire) h) =
          (cs ++ [.opNew h.nextOp, .rpmaRecv (some h.nextOp) (.error e)]) ++
            [.opDelete h.nextOp] := by
        rw [List.append_assoc]
        rfl
      rw [hlog] at hp
      have hsent := hP.inserted _ (.rpmaSend none send) _ _ hneutral hp
      rwa [List.append_assoc] at hsent

/-- `deal_require`: besides its receive and the send of `close`, it concerns no operation. -/
lemma logs_dealRequire (hH : IsAboutOps H) (hsend : ∀ res, Logs H (send res none) fun _ => H)
    (env : ServeEnv) (hrecv : Logs H (recv env.recv (some .dealRequire)) fun _ => H) :
    Logs (OfBase H) (dealRequire env) fun _ => OfBase H := by
  refine Logs.seq (logs_getDescriptor hH hsend env) (fun _ => ?_) fun _ _ _ hs => hs
  exact (logs_receiveAndReply hH hrecv env.send).zoom base

lemma logs_dealRequire_books {cur : Option OpId} (env : ServeEnv) :
    Logs (OfBase (Books cur)) (dealRequire env) fun _ => OfBase (Books cur) :=
  logs_dealRequire books_isAboutOps (fun res => logs_postOp (isPost_send res) none) env
    (logs_postOp (isPost_recv env.recv) _)

lemma logs_dealRequire_awaited {done : List OpId} (env : ServeEnv) :
    Logs (OfBase (Awaited done)) (dealRequire env) fun _ => OfBase (Awaited done) :=
  logs_dealRequire awaited_isAboutOps (fun res => awaited_postOp (isPost_send res) none) env
    (awaited_postOp (isPost_recv env.recv) _)

/-- The body of the constructor: besides its receive, it concerns no operation; and it returns
only after the receive. -/
lemma logs_construct {H' : List Call → ConnectionHandler ServerCallback → Prop} (env : ConstructEnv)
    (hrecv : Logs H (postOp (fun op => .connReqRecv (some op) env.connReqRecv) env.connReqRecv
      (some .dealRequire)) fun _ => H') :
    Logs (OfBase H) (construct env) fun r cs h =>
      (r.isOk = true → OfBase H' cs h) ∧ (OfBase H cs h ∨ OfBase H' cs h) := by
  refine Logs.seq ((logs_initSendRecvBuffer env.recvMr env.sendMr).zoom base) (fun _ => ?_)
    fun _ _ _ hs => ⟨fun hok => absurd hok Bool.false_ne_true, .inl hs⟩
  refine Logs.seq (logs_orThrow _ _) (fun _ => ?_)
    fun _ _ _ hs => ⟨fun hok => absurd hok Bool.false_ne_true, .inl hs⟩
  refine Logs.seq (hrecv.zoom base) (fun _ => ?_) fun _ _ _ hs => ⟨fun _ => hs, .inr hs⟩
  refine Logs.seq (logs_orThrow _ _) (fun _ => ?_) fun _ _ _ hs => ⟨fun _ => hs, .inr hs⟩
  refine Logs.seq (logs_orThrow _ _) (fun _ => ?_) fun _ _ _ hs => ⟨fun _ => hs, .inr hs⟩
  exact ((logs_initConnFd env.connGetEventFd env.connGetCompletionFd).zoom base).conseq
    (fun _ _ hs => hs) fun _ _ _ hs => ⟨fun _ => hs, .inr hs⟩

/-- The destructor closes the books. -/
lemma logs_destroy_books : Logs (OfBase (Books none)) destroy fun _ => OfBase Closed := by
  refine Logs.seq_ok (logs_resetDataMr books_isAboutOps none)
    (fun h => ⟨(), (resetDataMr_eq none h).1⟩) fun _ => ?_
  refine Logs.seq_ok (logs_manager books_isAboutOps MemoryManager.destroy_only)
    (fun h => ⟨(), (MemoryManager.destroy_eq h.dataManager).1⟩) fun _ => ?_
  exact logs_destroy.zoom base

/-- The constructor keeps the books, or closes them if it throws. -/
lemma logs_new_books {done : List OpId} (env : ConstructEnv) :
    Logs (fun cs h => OfBase (Books none) cs h ∧ OfBase (Awaited done) cs h) (new env) fun r cs h =>
      (r.isOk = true → OfBase (Books none) cs h ∧ OfBase (Awaited done) cs h) ∧
        (r.isOk = false → OfBase Closed cs h) := by
  have hrecv : Logs (Books none) (postOp (fun op => .connReqRecv (some op) env.connReqRecv)
      env.connReqRecv (some ServerCallback.dealRequire)) fun _ => Books none :=
    logs_postOp (isPost_connReqRecv env.connReqRecv) _
  have hrecv' : Logs (Awaited done) (postOp (fun op => .connReqRecv (some op) env.connReqRecv)
      env.connReqRecv (some ServerCallback.dealRequire)) fun _ => Awaited done :=
    awaited_postOp (isPost_connReqRecv env.connReqRecv) _
  have hbody : Logs (fun cs h => OfBase (Books none) cs h ∧ OfBase (Awaited done) cs h)
      (construct env) fun _ cs h => OfBase (Books none) cs h ∧ OfBase (Awaited done) cs h :=
    ((logs_construct env hrecv).and (logs_construct env hrecv')).conseq (fun _ _ hs => hs)
      fun _ _ _ hs => ⟨hs.1.2.elim id id, hs.2.2.elim id id⟩
  exact hbody.unwinding fun _ => logs_destroy_books.conseq (fun _ _ hb => hb.1) fun _ _ _ hb => hb

end RPMAHandler

/-! ### The machine -/

/-- The handler, and a record of the callbacks that have run, by their operations. -/
structure Watched where
  handler : RPMAHandler
  ran : List OpId

namespace Watched

/-- The handler. -/
def rpma : Lens Watched RPMAHandler where
  get := handler
  set h w := { w with handler := h }
  get_set _ _ := rfl
  set_get _ := rfl
  set_set _ _ _ := rfl

/-- The base object of the handler. -/
def conn : Lens Watched (ConnectionHandler ServerCallback) where
  get w := w.handler.toConnectionHandler
  set c w := { w with handler := { w.handler with toConnectionHandler := c } }
  get_set _ _ := rfl
  set_get _ := rfl
  set_set _ _ _ := rfl

/-- A callback runs, for the operation behind the context of a completion. -/
def callback (env : ServeEnv) (op : Option OpId) : ServerCallback → Prog Watched Unit
  | .dealRequire => do
    Exec.update fun w => { w with ran := w.ran ++ op.toList }
    Exec.zoom rpma (RPMAHandler.dealRequire env)

/-- `handle_completion` from `rpma_conn_completion_get` on. -/
def completion (env : ServeEnv) : Rpma Completion → Prog Watched ℤ
  | .error e => completionGot conn (callback env none) (.error e)
  | .ok cmpl => completionGot conn (callback env cmpl.opContext) (.ok cmpl)

end Watched

/-- How far the life of a handler has come.  A failed assertion, or undefined behaviour, ends it
together with the process. -/
inductive Phase
  | unborn
  | alive
  | gone
  | crashed
  deriving DecidableEq, Repr

/-- The life of a handler: the calls made so far, the operations whose completions have been
handled, and whether the completion of a receive or a callback has failed. -/
structure Life where
  watched : Watched
  calls : List Call
  completed : List OpId
  phase : Phase
  recvFailed : Bool
  thrown : Bool

/-- What can happen to a handler. -/
inductive LifeAct
  | construct (env : ConstructEnv)
  /-- `rpma_conn_completion_wait` fails. -/
  | waitFailed (e : RpmaError)
  /-- `rpma_conn_completion_get` returns `got`; `recv_bl` holds `content` by then. -/
  | completion (got : Rpma Completion) (content : MsgBuf) (env : ServeEnv)
  | destroy

namespace Life

/-- Before the constructor runs. -/
def create (sendBl recvBl : MsgBuf) (size : UInt64) : Life where
  watched := ⟨RPMAHandler.blank sendBl recvBl size, []⟩
  calls := []
  completed := []
  phase := .unborn
  recvFailed := false
  thrown := false

/-- The operations that are posted and not completed. -/
def outstanding (l : Life) : List OpId := (postedOps l.calls).filter (· ∉ l.completed)

/-- The receives that are posted and not completed. -/
def receiving (l : Life) : List OpId := (recvOps l.calls).filter (· ∉ l.completed)

/-- A completion with a context is the completion of an outstanding operation. -/
def Awaits (l : Life) : Rpma Completion → Prop
  | .ok ⟨some op, _, _⟩ => op ∈ l.outstanding
  | _ => True

instance (l : Life) (got : Rpma Completion) : Decidable (l.Awaits got) := by
  rcases got with e | ⟨_ | op, oc, su⟩
  · exact isTrue trivial
  · exact isTrue trivial
  · exact inferInstanceAs (Decidable (op ∈ l.outstanding))

/-- The operation that a completion is about. -/
def completes : Rpma Completion → List OpId
  | .ok cmpl => cmpl.opContext.toList
  | .error _ => []

/-- The completion says that a receive has failed. -/
def failsRecv (l : Life) : Rpma Completion → Bool
  | .ok ⟨some op, _, false⟩ => decide (op ∈ recvOps l.calls)
  | _ => false

/-- The state in which a completion is handled. -/
def arrived (l : Life) (content : MsgBuf) : Watched :=
  { l.watched with handler := { l.watched.handler with recvBl := content } }

/-- What a program has done to the life of the handler. -/
def after {ρ : Type} (l : Life) (o : Outcome Call Stop Watched ρ) (phase : Phase) : Life :=
  { l with watched := o.state, calls := l.calls ++ log o, phase := phase }

def construct (l : Life) (env : ConstructEnv) : Life :=
  let o := zoom Watched.rpma (RPMAHandler.new env) l.watched
  l.after o (match o.result with | .ok _ => .alive | .error _ => .gone)

def waitFailed (l : Life) (e : RpmaError) : Life :=
  l.after (completionFailed Watched.conn e l.watched) .alive

def completion (l : Life) (got : Rpma Completion) (content : MsgBuf) (env : ServeEnv) : Life :=
  let o := Watched.completion env got (l.arrived content)
  { l.after o (if Session.survives o.result then .alive else .crashed) with
    completed := l.completed ++ completes got
    recvFailed := l.recvFailed || l.failsRecv got
    thrown := l.thrown || !o.result.isOk }

def destruct (l : Life) : Life :=
  l.after (zoom Watched.rpma RPMAHandler.destroy l.watched) .gone

/-- Any life of a handler. -/
def machine : Machine Life LifeAct where
  step l
    | .construct env => if l.phase = .unborn then some (l.construct env) else none
    | .waitFailed e => if l.phase = .alive then some (l.waitFailed e) else none
    | .completion got content env =>
      if l.phase = .alive ∧ l.Awaits got then some (l.completion got content env) else none
    | .destroy => if l.phase = .alive then some l.destruct else none

/-- What a step of a life is. -/
lemma step_cases {l u : Life} {a : LifeAct} (h : machine.step l a = some u) :
    (∃ env, a = .construct env ∧ l.phase = .unborn ∧ u = l.construct env) ∨
    (∃ e, a = .waitFailed e ∧ l.phase = .alive ∧ u = l.waitFailed e) ∨
    (∃ got content env, a = .completion got content env ∧ l.phase = .alive ∧ l.Awaits got ∧
      u = l.completion got content env) ∨
    (a = .destroy ∧ l.phase = .alive ∧ u = l.destruct) := by
  cases a with
  | construct env =>
      simp only [machine, Option.ite_none_right_eq_some, Option.some.injEq] at h
      exact .inl ⟨env, rfl, h.1, h.2.symm⟩
  | waitFailed e =>
      simp only [machine, Option.ite_none_right_eq_some, Option.some.injEq] at h
      exact .inr (.inl ⟨e, rfl, h.1, h.2.symm⟩)
  | completion got content env =>
      simp only [machine, Option.ite_none_right_eq_some, Option.some.injEq] at h
      exact .inr (.inr (.inl ⟨got, content, env, rfl, h.1.1, h.1.2, h.2.symm⟩))
  | destroy =>
      simp only [machine, Option.ite_none_right_eq_some, Option.some.injEq] at h
      exact .inr (.inr (.inr ⟨rfl, h.1, h.2.symm⟩))

/-! ### Exactly once -/

/-- A condition that a callback keeps if `deal_require` does. -/
lemma logs_callback {H : List Call → ConnectionHandler ServerCallback → Prop} {env : ServeEnv}
    (hH : Logs (RPMAHandler.OfBase H) (RPMAHandler.dealRequire env) fun _ => RPMAHandler.OfBase H)
    (ctx : Option OpId) (k : ServerCallback) :
    Logs (fun cs w => H cs (Watched.conn.get w)) (Watched.callback env ctx k)
      fun _ cs w => H cs (Watched.conn.get w) := by
  cases k
  exact Logs.seq (Logs.update fun cs w hb => hb) (fun _ => hH.zoom Watched.rpma) fun _ _ _ hb => hb

/-- The callback of an operation is run at most once when its completion is handled. -/
lemma retire_ran (env : ServeEnv) (op : OpId) (w : Watched) :
    (retire Watched.conn (Watched.callback env (some op)) op w).state.ran = w.ran ∨
      (retire Watched.conn (Watched.callback env (some op)) op w).state.ran = w.ran ++ [op] := by
  have herase : (zoom Watched.conn (eraseOp op) w).result = .ok () := rfl
  rw [retire, bind_apply, Outcome.andThen_of_ok herase]
  simp only [ensuring_apply, zoom_apply, Watched.conn, doCallback, bind_apply, read_apply,
    Outcome.andThen_ok]
  rcases (eraseOp op w.handler.toConnectionHandler).state.ops.lookup op with _ | _ | k
  · exact .inl rfl
  · exact .inl rfl
  · cases k
    exact .inr rfl

/-- The three ways to handle what `rpma_conn_completion_get` returned. -/
lemma completion_cases (env : ServeEnv) (got : Rpma Completion) :
    (∃ e, got = .error e ∧ Watched.completion env got = completionFailed Watched.conn e) ∨
    (∃ cmpl, got = .ok cmpl ∧ (cmpl.success = false ∨ cmpl.opContext = none) ∧
      Watched.completion env got = pure 0) ∨
    (∃ op oc, got = .ok ⟨some op, oc, true⟩ ∧ Watched.completion env got = do
      retire Watched.conn (Watched.callback env (some op)) op
      return 0) := by
  rcases got with e | cmpl
  · exact .inl ⟨e, rfl, rfl⟩
  · rcases completionGot_cases Watched.conn (Watched.callback env cmpl.opContext) (.ok cmpl) with
      ⟨e, he, -⟩ | hpassed | ⟨op, oc, hop, heq⟩
    · cases he
    · exact .inr (.inl hpassed)
    · obtain rfl := Except.ok.inj hop
      exact .inr (.inr ⟨op, oc, rfl, heq⟩)

/-- What a completion does to the record of callbacks. -/
lemma completion_ran (l : Life) (got : Rpma Completion) (content : MsgBuf) (env : ServeEnv) :
    (l.completion got content env).watched.ran = l.watched.ran ∨
      ∃ op oc, got = .ok ⟨some op, oc, true⟩ ∧
        (l.completion got content env).watched.ran = l.watched.ran ++ [op] := by
  show (Watched.completion env got (l.arrived content)).state.ran = _ ∨
    ∃ op oc, _ ∧ (Watched.completion env got (l.arrived content)).state.ran = _
  rcases completion_cases env got with ⟨e, _, heq⟩ | ⟨cmpl, _, _, heq⟩ | ⟨op, oc, rfl, heq⟩
  · rw [heq, completionFailed]
    split <;> exact .inl rfl
  · rw [heq]
    exact .inl rfl
  · rw [heq, bind_apply, andThen_pure]
    rcases retire_ran env op (l.arrived content) with hran | hran
    · exact .inl hran
    · exact .inr ⟨op, oc, rfl, hran⟩

/-- The invariant: the books are kept, and closed in the end; what is outstanding is in the
table; callbacks have run for completed operations only, and for each of them once. -/
structure Inv (l : Life) : Prop where
  books : l.phase ≠ .gone → Books none l.calls l.watched.handler.toConnectionHandler
  awaited : l.phase ≠ .gone → Awaited l.completed l.calls l.watched.handler.toConnectionHandler
  closed : l.phase = .gone → Closed l.calls l.watched.handler.toConnectionHandler
  ran : ∀ op ∈ l.watched.ran, op ∈ l.completed
  ran_nodup : l.watched.ran.Nodup

lemma create_inv (sendBl recvBl : MsgBuf) (size : UInt64) : Inv (create sendBl recvBl size) where
  books _ := books_create sendBl recvBl
  awaited _ := by simp [Awaited, create, postedOps]
  closed h := by cases h
  ran := by simp [create]
  ran_nodup := List.nodup_nil

lemma mem_outstanding {l : Life} {op : OpId} :
    op ∈ l.outstanding ↔ op ∈ postedOps l.calls ∧ op ∉ l.completed := by
  simp [outstanding]

/-- A handler lives if its constructor returns. -/
lemma phase_construct_ok {l : Life} {env : ConstructEnv} {u : Unit}
    (h : (zoom Watched.rpma (RPMAHandler.new env) l.watched).result = .ok u) :
    (l.construct env).phase = .alive := by
  simp only [Life.construct, after]
  rw [h]

/-- There is no handler if its constructor throws. -/
lemma phase_construct_error {l : Life} {env : ConstructEnv} {e : Stop}
    (h : (zoom Watched.rpma (RPMAHandler.new env) l.watched).result = .error e) :
    (l.construct env).phase = .gone := by
  simp only [Life.construct, after]
  rw [h]

lemma Inv.construct {l : Life} (h : l.Inv) (hphase : l.phase = .unborn) (env : ConstructEnv) :
    (l.construct env).Inv := by
  have hne : l.phase ≠ .gone := by rw [hphase]; decide
  have hnew := (RPMAHandler.logs_new_books env).zoom Watched.rpma l.calls l.watched
    ⟨h.books hne, h.awaited hne⟩
  cases hr : (zoom Watched.rpma (RPMAHandler.new env) l.watched).result with
  | ok u =>
      have hphase' := phase_construct_ok hr
      rw [hr] at hnew
      obtain ⟨hbooks, hawaited⟩ := hnew.1 rfl
      refine ⟨fun _ => hbooks, fun _ => hawaited, fun hgone => ?_, h.ran, h.ran_nodup⟩
      rw [hphase'] at hgone
      cases hgone
  | error e =>
      have hphase' := phase_construct_error hr
      rw [hr] at hnew
      exact ⟨fun hgone => absurd hphase' hgone, fun hgone => absurd hphase' hgone,
        fun _ => hnew.2 rfl, h.ran, h.ran_nodup⟩

lemma Inv.waitFailed {l : Life} (h : l.Inv) (hphase : l.phase = .alive) (e : RpmaError) :
    (l.waitFailed e).Inv := by
  have hne : l.phase ≠ .gone := by rw [hphase]; decide
  have hbooks := logs_completionFailed Watched.conn books_isAboutOps e l.calls l.watched
    (h.books hne)
  have hawaited := logs_completionFailed Watched.conn awaited_isAboutOps e l.calls l.watched
    (h.awaited hne)
  have hran : (l.waitFailed e).watched.ran = l.watched.ran := by
    show (completionFailed Watched.conn e l.watched).state.ran = _
    rw [completionFailed]
    split <;> rfl
  refine ⟨fun _ => hbooks, fun _ => hawaited, fun hgone => (by cases hgone), ?_, ?_⟩
  · rw [hran]
    exact h.ran
  · rw [hran]
    exact h.ran_nodup

/-- The operation of a successful completion is in the table. -/
lemma Inv.mem_callbackTable {l : Life} (h : l.Inv) (hne : l.phase ≠ .gone) {op : OpId}
    (hop : op ∈ l.outstanding) : op ∈ l.watched.handler.callbackTable := by
  obtain ⟨hposted, hcompleted⟩ := mem_outstanding.1 hop
  exact (h.awaited hne op hposted).resolve_left hcompleted

lemma Inv.completion {l : Life} (h : l.Inv) (hphase : l.phase = .alive) {got : Rpma Completion}
    (hgot : l.Awaits got) (content : MsgBuf) (env : ServeEnv) :
    (l.completion got content env).Inv := by
  have hne : l.phase ≠ .gone := by rw [hphase]; decide
  have hbooks₀ : Books none l.calls (Watched.conn.get (l.arrived content)) :=
    (h.books hne).congr rfl rfl rfl
  have hawaited₀ : Awaited l.completed l.calls (Watched.conn.get (l.arrived content)) :=
    h.awaited hne
  -- the books afterwards
  have hbooks : Books none (l.completion got content env).calls
        (l.completion got content env).watched.handler.toConnectionHandler ∧
      Awaited (l.completed ++ completes got) (l.completion got content env).calls
        (l.completion got content env).watched.handler.toConnectionHandler := by
    show Books none (l.calls ++ log (Watched.completion env got (l.arrived content)))
        (Watched.conn.get (Watched.completion env got (l.arrived content)).state) ∧
      Awaited _ (l.calls ++ log (Watched.completion env got (l.arrived content)))
        (Watched.conn.get (Watched.completion env got (l.arrived content)).state)
    rcases completion_cases env got with ⟨e, rfl, heq⟩ | ⟨cmpl, rfl, _, heq⟩ | ⟨op, oc, rfl, heq⟩
    · rw [heq]
      simp only [completes, List.append_nil]
      exact ⟨logs_completionFailed Watched.conn books_isAboutOps e _ _ hbooks₀,
        logs_completionFailed Watched.conn awaited_isAboutOps e _ _ hawaited₀⟩
    · rw [heq]
      simp only [pure_apply, log_mk, List.map_nil, List.append_nil]
      exact ⟨hbooks₀, fun op hop => (hawaited₀ op hop).imp (List.mem_append_left _) id⟩
    · have hretire := logs_retire_books Watched.conn op l.completed (fun k =>
          (logs_callback (RPMAHandler.logs_dealRequire_books env) (some op) k).and
            (logs_callback (RPMAHandler.logs_dealRequire_awaited env) (some op) k))
        l.calls (l.arrived content) ⟨⟨hbooks₀, h.mem_callbackTable hne hgot⟩, hawaited₀⟩
      rw [heq, bind_apply, andThen_pure]
      exact hretire
  have hphase' : (l.completion got content env).phase ≠ .gone := by
    show (if Session.survives _ then Phase.alive else Phase.crashed) ≠ .gone
    split <;> decide
  -- the callback has not been run for this operation before
  have hran : (∀ op ∈ (l.completion got content env).watched.ran,
        op ∈ l.completed ++ completes got) ∧
      (l.completion got content env).watched.ran.Nodup := by
    rcases completion_ran l got content env with heq | ⟨op, oc, rfl, heq⟩
    · rw [heq]
      exact ⟨fun op hop => List.mem_append_left _ (h.ran op hop), h.ran_nodup⟩
    · rw [heq]
      have hnew : op ∉ l.watched.ran := fun hop => (mem_outstanding.1 hgot).2 (h.ran op hop)
      refine ⟨fun x hx => ?_, ?_⟩
      · rcases List.mem_append.1 hx with hx | hx
        · exact List.mem_append_left _ (h.ran x hx)
        · exact List.mem_append_right _ hx
      · refine List.nodup_append.2 ⟨h.ran_nodup, List.nodup_singleton op, ?_⟩
        rintro a ha b hb rfl
        exact hnew (List.mem_singleton.1 hb ▸ ha)
  exact ⟨fun _ => hbooks.1, fun _ => hbooks.2, fun hgone => absurd hgone hphase', hran.1, hran.2⟩

lemma Inv.destruct {l : Life} (h : l.Inv) (hphase : l.phase = .alive) : l.destruct.Inv := by
  have hne : l.phase ≠ .gone := by rw [hphase]; decide
  have hclosed := RPMAHandler.logs_destroy_books.zoom Watched.rpma l.calls l.watched (h.books hne)
  exact ⟨fun hgone => absurd rfl hgone, fun hgone => absurd rfl hgone, fun _ => hclosed, h.ran,
    h.ran_nodup⟩

lemma Inv.step {l u : Life} {a : LifeAct} (h : l.Inv) (hs : machine.step l a = some u) : u.Inv := by
  rcases step_cases hs with ⟨env, _, hphase, rfl⟩ | ⟨e, _, hphase, rfl⟩ |
    ⟨got, content, env, _, hphase, hgot, rfl⟩ | ⟨_, hphase, rfl⟩
  · exact h.construct hphase env
  · exact h.waitFailed hphase e
  · exact h.completion hphase hgot content env
  · exact h.destruct hphase

/-- A callback runs in a step only if this is the successful completion of its operation, which
was posted and not completed, while the handler is alive. -/
lemma step_ran {l u : Life} {a : LifeAct} (hs : machine.step l a = some u) :
    u.watched.ran = l.watched.ran ∨
      ∃ op oc content env, a = .completion (.ok ⟨some op, oc, true⟩) content env ∧
        l.phase = .alive ∧ op ∈ l.outstanding ∧ u.watched.ran = l.watched.ran ++ [op] := by
  rcases step_cases hs with ⟨env, _, _, rfl⟩ | ⟨e, _, _, rfl⟩ |
    ⟨got, content, env, rfl, hphase, hgot, rfl⟩ | ⟨_, _, rfl⟩
  · exact .inl rfl
  · refine .inl ?_
    show (completionFailed Watched.conn e l.watched).state.ran = _
    rw [completionFailed]
    split <;> rfl
  · rcases completion_ran l got content env with heq | ⟨op, oc, rfl, heq⟩
    · exact .inl heq
    · exact .inr ⟨op, oc, content, env, rfl, hphase, hgot, heq⟩
  · exact .inl rfl

/-- **Exactly once.**  In any life of a handler: every operation is created under a number of its
own, at no moment has one been destroyed more often than it was created, and when the handler is
gone each has been destroyed exactly once; no callback has run twice, and a callback runs only in
a successful completion of its operation while the handler is alive; and between two events the
table holds exactly the operations that have been posted and not destroyed. -/
theorem ops_exactly_once (sendBl recvBl : MsgBuf) (size : UInt64) (as : List LifeAct) (l : Life)
    (hrun : machine.Run (create sendBl recvBl size) as l) :
    (opLedger.acquired l.calls).Nodup ∧ opLedger.Sound l.calls ∧
    (l.phase = .gone →
      ∀ op ∈ opLedger.acquired l.calls, (opLedger.released l.calls).count op = 1) ∧
    l.watched.ran.Nodup ∧
    (∀ a u, machine.step l a = some u → u.watched.ran = l.watched.ran ∨
      ∃ op oc content env, a = .completion (.ok ⟨some op, oc, true⟩) content env ∧
        l.phase = .alive ∧ op ∈ l.outstanding ∧ u.watched.ran = l.watched.ran ++ [op]) ∧
    (∀ op, op ∈ l.watched.handler.callbackTable ↔
      op ∈ postedOps l.calls ∧ op ∉ opLedger.released l.calls) := by
  have h : l.Inv := machine.invariant (create_inv sendBl recvBl size)
    (fun t a u ht hs => ht.step hs) hrun
  refine ⟨?_, ?_, fun hgone op hop => (h.closed hgone).released_once hop, h.ran_nodup,
    fun a u hs => step_ran hs, ?_⟩
  · by_cases hgone : l.phase = .gone
    · exact (h.closed hgone).created
    · exact (h.books hgone).created
  · by_cases hgone : l.phase = .gone
    · exact (h.closed hgone).keeps.sound
    · exact (h.books hgone).keeps.sound
  · intro op
    by_cases hgone : l.phase = .gone
    · exact (h.closed hgone).mem_callbackTable op
    · exact (h.books hgone).mem_callbackTable op

/-- The handler when the callback of an operation starts. -/
def atCallback (l : Life) (op : OpId) (content : MsgBuf) : RPMAHandler :=
  { l.watched.handler with
    recvBl := content
    callbackTable := l.watched.handler.callbackTable.erase op }

/-- The successful completion of an operation with a callback ends as `deal_require` does. -/
lemma completion_result {l : Life} {op : OpId} {oc : RpmaOpcode} {k : ServerCallback}
    (hop : l.watched.handler.ops.lookup op = some (some k)) (content : MsgBuf) (env : ServeEnv) :
    (Watched.completion env (.ok ⟨some op, oc, true⟩) (l.arrived content)).result =
      (RPMAHandler.dealRequire env (l.atCallback op content)).result.map fun _ => 0 := by
  cases k
  have hop' : (eraseOp op (l.arrived content).handler.toConnectionHandler).state.ops.lookup op =
      some (some .dealRequire) := hop
  show ((do
    retire Watched.conn (Watched.callback env (some op)) op
    return 0 : Prog Watched ℤ) (l.arrived content)).result = _
  rw [bind_apply, andThen_pure]
  simp only
  congr 1
  have herase : (zoom Watched.conn (eraseOp op) (l.arrived content)).result = .ok () := rfl
  rw [retire, bind_apply, Outcome.andThen_of_ok herase]
  simp only [ensuring_apply, doCallback, bind_apply, read_apply, Outcome.andThen_ok]
  simp only [zoom_apply, Watched.conn] at hop' ⊢
  rw [hop']
  rfl

lemma machine_completion {l : Life} (halive : l.phase = .alive) {got : Rpma Completion}
    (hgot : l.Awaits got) (content : MsgBuf) (env : ServeEnv) :
    machine.step l (.completion got content env) = some (l.completion got content env) := by
  simp [machine, halive, hgot]

/-- A handler that is constructed, serves one request, and is destroyed. -/
theorem ops_exactly_once_served :
    ∃ l, machine.Run (create .zero .zero 0) [.construct .ok,
        .completion (.ok ⟨some 0, .recv, true⟩) RPMAHandler.sampleContent (RPMAHandler.working [7]),
        .destroy] l ∧ l.phase = .gone ∧ 0 ∈ opLedger.acquired l.calls ∧
      ∀ op ∈ opLedger.acquired l.calls, (opLedger.released l.calls).count op = 1 := by
  have run₁ := (Machine.Run.nil (M := machine) (create .zero .zero 0)).snoc
    (a := .construct .ok) (u := (create .zero .zero 0).construct .ok) rfl
  have hposted : 0 ∈ ((create .zero .zero 0).construct .ok).outstanding := by
    rw [mem_outstanding]
    exact ⟨List.mem_cons_self, List.not_mem_nil⟩
  have hawaits : ((create .zero .zero 0).construct .ok).Awaits (.ok ⟨some 0, .recv, true⟩) :=
    hposted
  have run₂ := run₁.snoc (machine_completion rfl hawaits RPMAHandler.sampleContent
    (RPMAHandler.working [7]))
  obtain ⟨l, hl⟩ : ∃ l, l = ((create .zero .zero 0).construct .ok).completion
      (.ok ⟨some 0, .recv, true⟩) RPMAHandler.sampleContent (RPMAHandler.working [7]) := ⟨_, rfl⟩
  rw [← hl] at run₂
  have halive : l.phase = .alive := by
    have hres : (Watched.completion (RPMAHandler.working [7]) (.ok ⟨some 0, .recv, true⟩)
        (((create .zero .zero 0).construct .ok).arrived RPMAHandler.sampleContent)).result =
        .ok 0 := by
      rw [completion_result rfl, (RPMAHandler.served_sample rfl rfl).1]
      rfl
    rw [hl, completion, hres]
    rfl
  have run₃ := run₂.snoc (a := .destroy) (u := l.destruct) (by simp [machine, halive])
  refine ⟨_, run₃, rfl, ?_, (ops_exactly_once .zero .zero 0 _ _ run₃).2.2.1 rfl⟩
  have hcalls : l.destruct.calls = [.opNew 0, .connReqRecv (some 0) (.ok ())] ++
      (log (Watched.completion (RPMAHandler.working [7]) (.ok ⟨some 0, .recv, true⟩)
        (((create .zero .zero 0).construct .ok).arrived RPMAHandler.sampleContent)) ++
      log (zoom Watched.rpma RPMAHandler.destroy l.watched)) := by
    rw [← List.append_assoc, hl]
    rfl
  rw [hcalls, Ledger.acquired_append]
  exact List.mem_append_left _ List.mem_cons_self

end Life

end RpmaReplica
