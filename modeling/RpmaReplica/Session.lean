import RpmaReplica.Lib.Machine
import RpmaReplica.Serving

/-!
# The life of a server's connection

An `RPMAHandler` serves one request after another until it is destroyed.  A session records
every call made on the way, each with the state of the handler in which it was made.

Two objects must stay in step: the memory in `data_manager` and its registration in
`data_mr`.  `Coupled` says how, and `registration_coupled` that it never fails: not between
two requests, not at any call made while one is served, and not while the handler is
destroyed; and that memory is given back only while nothing is registered on it.
-/

namespace RpmaReplica

/-- A connection of the server, and the calls made on it so far. -/
structure Session where
  handler : RPMAHandler
  trace : List (RPMAHandler × Call)
  /-- The handler is destroyed, or the process is: no step follows. -/
  ended : Bool

/-- What can happen to a connection of the server: a receive completes with some content, or
the handler is destroyed. -/
inductive SessionAct
  | request (content : MsgBuf) (env : ServeEnv)
  | destroy

namespace Session

/-- A new connection. -/
def create (sendBl recvBl : MsgBuf) (size : UInt64) : Session where
  handler := RPMAHandler.create sendBl recvBl size
  trace := []
  ended := false

/-- The handler when `deal_require` is called for a request. -/
def receiving (s : Session) (content : MsgBuf) : RPMAHandler :=
  { s.handler with recvBl := content }

/-- Whether the process survives an outcome: an exception may be caught by some caller, but an
abort ends the process, and nothing is known after undefined behaviour. -/
def survives {α : Type} : Except Stop α → Bool
  | .error .aborted | .error .undefined => false
  | .error (.thrown _) | .ok _ => true

lemma survives_map {α β : Type} (f : α → β) (r : Except Stop α) :
    survives (r.map f) = survives r := by
  rcases r with (_ | _ | _) | a <;> rfl

/-- A request is served. -/
def serve (s : Session) (content : MsgBuf) (env : ServeEnv) : Session :=
  let o := RPMAHandler.dealRequire env (s.receiving content)
  { handler := o.state, trace := s.trace ++ o.calls, ended := !survives o.result }

/-- The handler is destroyed. -/
def destruct (s : Session) : Session :=
  let o := RPMAHandler.destroy s.handler
  { handler := o.state, trace := s.trace ++ o.calls, ended := true }

/-- Requests of any content, in any order, with any answers from outside, and destruction at
any point. -/
def machine : Machine Session SessionAct where
  step s
    | .request content env => if s.ended then none else some (s.serve content env)
    | .destroy => if s.ended then none else some s.destruct

lemma machine_request {s : Session} (h : s.ended = false) (content : MsgBuf) (env : ServeEnv) :
    machine.step s (.request content env) = some (s.serve content env) := by
  simp [machine, h]

@[simp] lemma sendBl_create (sendBl recvBl : MsgBuf) (size : UInt64) :
    (create sendBl recvBl size).handler.sendBl = sendBl := rfl

@[simp] lemma recvBl_receiving (s : Session) (content : MsgBuf) :
    (s.receiving content).recvBl = content := rfl

@[simp] lemma sendBl_receiving (s : Session) (content : MsgBuf) :
    (s.receiving content).sendBl = s.handler.sendBl := rfl

@[simp] lemma dataManager_receiving (s : Session) (content : MsgBuf) :
    (s.receiving content).dataManager = s.handler.dataManager := rfl

lemma ended_serve (s : Session) (content : MsgBuf) (env : ServeEnv) :
    (s.serve content env).ended =
      !survives (RPMAHandler.dealRequire env (s.receiving content)).result := rfl

lemma handler_serve (s : Session) (content : MsgBuf) (env : ServeEnv) :
    (s.serve content env).handler =
      (RPMAHandler.dealRequire env (s.receiving content)).state := rfl

/-- What a step of a session is. -/
lemma step_cases {s t : Session} {a : SessionAct} (h : machine.step s a = some t) :
    (∃ content env, a = .request content env ∧ t = s.serve content env) ∨
      (a = .destroy ∧ t = s.destruct) := by
  cases a with
  | request content env =>
      simp only [machine, Option.ite_none_left_eq_some, Option.some.injEq] at h
      exact .inl ⟨content, env, rfl, h.2.symm⟩
  | destroy =>
      simp only [machine, Option.ite_none_left_eq_some, Option.some.injEq] at h
      exact .inr ⟨rfl, h.2.symm⟩

end Session

namespace RPMAHandler

open Exec

/-! ### The memory and its registration -/

/-- What is registered is the memory that is held, all of it, and for the persistent flush
exactly if it is pmem. -/
def Coupled (h : RPMAHandler) : Prop :=
  ∀ mr, h.dataMr = some mr →
    h.dataManager.data ≠ none ∧ mr.ptr = h.dataManager.data ∧ mr.size = h.dataManager.size ∧
      (mr.Persistent ↔ h.dataManager.isPmem = true)

/-- A call that keeps the two in step: memory is given back only while nothing is registered
on it. -/
def Keeps (h : RPMAHandler) (c : Call) : Prop :=
  h.Coupled ∧ (c.Releases → h.dataMr = none)

lemma coupled_of_none {h : RPMAHandler} (hmr : h.dataMr = none) : h.Coupled := by
  intro mr hsome
  rw [hmr] at hsome
  exact absurd hsome (by simp)

lemma keeps_of_none {h : RPMAHandler} (hmr : h.dataMr = none) (c : Call) : h.Keeps c :=
  ⟨coupled_of_none hmr, fun _ => hmr⟩

/-- A registration for `FLUSH` of memory that is held matches it. -/
lemma coupled_newMr {h : RPMAHandler} (hdata : h.dataManager.data ≠ none) (d : Bytes) :
    Coupled { h with dataMr := some (newMr h .flush d) } := by
  intro mr hmr
  obtain rfl := Option.some.inj hmr
  exact ⟨hdata, rfl, rfl, mrUsage_flush_persistent _⟩

/-! ### Each function keeps them in step -/

lemma sat_resetDataMr {h : RPMAHandler} {mr : Option MrLocal}
    (hc : Coupled { h with dataMr := mr }) :
    Sat (· = h) Keeps (resetDataMr mr) fun r s => r = .ok () ∧ s = { h with dataMr := mr } := by
  rintro s rfl
  obtain ⟨hr, hs⟩ := resetDataMr_eq mr s
  refine ⟨?_, hr, hs⟩
  rw [resetDataMr]
  cases hmr : s.dataMr <;> simp [hmr, Keeps, Call.Releases, hc]

lemma sat_resetDataMr_none :
    Sat Coupled Keeps (resetDataMr none) fun _ s => s.dataMr = none := by
  intro h _
  obtain ⟨hcalls, -, hs⟩ := sat_resetDataMr (h := h) (coupled_of_none rfl) h rfl
  exact ⟨hcalls, congrArg dataMr hs⟩

/-- What happens to the memory alone, while nothing is registered. -/
lemma sat_manager {α : Type} (m : Prog MemoryManager α) :
    Sat (fun h => h.dataMr = none) Keeps (zoom manager m) fun _ h => h.dataMr = none := by
  intro h hmr
  refine ⟨?_, hmr⟩
  intro p hp
  simp only [zoom_apply, List.mem_map] at hp
  obtain ⟨q, -, rfl⟩ := hp
  exact keeps_of_none (h := manager.set q.1 h) hmr _

/-- What happens to the base alone, if it gives no memory back. -/
lemma sat_base {α : Type} {m : Prog (ConnectionHandler ServerCallback) α}
    (hm : Only (fun c => ¬c.Releases) m) :
    Sat Coupled Keeps (zoom base m) fun _ h => h.Coupled := by
  intro h hc
  refine ⟨?_, hc⟩
  intro p hp
  simp only [zoom_apply, List.mem_map] at hp
  obtain ⟨q, hq, rfl⟩ := hp
  exact ⟨hc, fun hrel => absurd hrel (hm _ q hq)⟩

lemma sat_register (env : MrEnv) :
    Sat (fun h => h.Coupled ∧ h.dataManager.data ≠ none) Keeps
      (registerMrToDescriptor env .flush) fun _ h => h.Coupled := by
  refine Sat.read fun h hh => ?_
  refine Sat.seq (M := fun s => s = h) (Sat.call ?_ fun s hs => hs) (fun _ => ?_)
    fun _ s hs => hs ▸ hh.1
  · rintro s rfl
    exact ⟨hh.1, fun hrel => absurd hrel id⟩
  cases env.mrReg with
  | error e => exact Sat.ret fun s hs => hs ▸ hh.1
  | ok d =>
      have hnew := coupled_newMr hh.2 d
      refine Sat.seq (M := fun s => s = { h with dataMr := some (newMr h .flush d) })
        ((sat_resetDataMr hnew).conseq (fun s hs => hs) fun _ _ hs => hs.2) (fun _ => ?_)
        fun _ s hs => hs ▸ hnew
      rcases describe env .flush h.dataManager.isPmem d with stop | ret | desc
      · exact Sat.stop fun s hs => hs ▸ hnew
      · exact Sat.ret fun s hs => hs ▸ hnew
      · refine Sat.seq ((sat_base (ConnectionHandler.fillSendBl_only _)).conseq
          (fun s hs => hs ▸ hnew) fun _ _ hs => hs) (fun _ => Sat.ret fun s hs => hs)
          fun _ _ hs => hs

/-- After `init` has returned, memory is held. -/
lemma sat_init (env : MemEnv) (size : UInt64) (path : Bytes) :
    Sat (fun h => h.dataMr = none) Keeps (zoom manager (MemoryManager.init env size path))
      fun r h => h.dataMr = none ∧ (r = .ok () → h.dataManager.data ≠ none) := by
  intro h hmr
  obtain ⟨hcalls, hmr'⟩ := sat_manager (MemoryManager.init env size path) h hmr
  refine ⟨hcalls, hmr', ?_⟩
  simp only [zoom_apply, manager]
  rcases MemoryManager.init_cases env h.dataManager size path with ⟨f, -, -, hst⟩ |
    ⟨a, -, -, -, hst⟩ | ⟨-, -, hres, -⟩
  · simp [hst]
  · simp [hst]
  · simp [hres]

lemma sat_getDescriptorForWrite (env : ServeEnv) :
    Sat Coupled Keeps (getDescriptorForWrite env) fun _ h => h.Coupled := by
  refine Sat.read fun h hc => ?_
  refine Sat.seq (sat_decodeFrom _ _) (fun init => Sat.ite (fun hdata => ?_) fun hdata => ?_)
    fun _ s hs => hs ▸ hc
  · -- no memory, so nothing is registered either
    have hmr : h.dataMr = none := by
      by_contra hne
      obtain ⟨mr, hmr⟩ := Option.ne_none_iff_exists'.1 hne
      exact (hc mr hmr).1 hdata
    refine Sat.bind (M := fun _ s => s.Coupled ∧ s.dataManager.data ≠ none)
      ((sat_init _ _ _).conseq (fun s hs => hs ▸ hmr) ?_) fun _ => sat_register env.mr
    rintro (e | u) s ⟨hs, hdata'⟩
    · exact coupled_of_none hs
    · exact ⟨coupled_of_none hs, hdata' rfl⟩
  · exact (sat_register env.mr).conseq (fun s hs => hs ▸ ⟨hc, hdata⟩) fun _ _ hs => hs

/-- A posting function gives no memory back. -/
lemma sat_postOp {post : OpId → Call} (hpost : ∀ op, ¬(post op).Releases) (res : Rpma Unit)
    (callback : Option ServerCallback) :
    Sat Coupled Keeps (zoom base (ConnectionHandler.postOp post res callback))
      fun _ h => h.Coupled :=
  sat_base (ConnectionHandler.postOp_only (fun _ => id) (fun _ => id) hpost)

lemma sat_close (env : ServeEnv) : Sat Coupled Keeps (close env) fun _ h => h.Coupled := by
  refine Sat.seq sat_resetDataMr_none (fun _ => ?_) fun _ _ => coupled_of_none
  refine Sat.seq (sat_manager _) (fun removed => ?_) fun _ _ => coupled_of_none
  refine Sat.seq ((sat_base (ConnectionHandler.fillSendBl_only _)).conseq
    (fun _ => coupled_of_none) fun _ _ hs => hs) (fun _ => ?_) fun _ _ hs => hs
  exact Sat.seq (sat_postOp (fun _ => id) _ _) (fun _ => Sat.ret fun _ hs => hs) fun _ _ hs => hs

lemma sat_getDescriptor (env : ServeEnv) :
    Sat Coupled Keeps (getDescriptor env) fun _ h => h.Coupled := by
  refine Sat.read fun h hc => ?_
  refine Sat.seq ((sat_decodeFrom _ _).conseq (fun s hs => hs ▸ hc) fun _ _ hs => hs)
    (fun req => ?_) fun _ _ hs => hs
  exact Sat.ite (fun _ => sat_getDescriptorForWrite env) fun _ =>
    Sat.ite (fun _ => sat_close env) fun _ => Sat.ret fun _ hs => hs

lemma sat_dealRequire (env : ServeEnv) :
    Sat Coupled Keeps (dealRequire env) fun _ h => h.Coupled := by
  refine Sat.seq (sat_getDescriptor env) (fun _ => ?_) fun _ _ hs => hs
  exact sat_base (receiveAndReply_only (fun _ => id) (fun _ => id) (fun _ => id) id)

lemma sat_destroy : Sat Coupled Keeps destroy fun _ h => h.Coupled := by
  refine Sat.seq sat_resetDataMr_none (fun _ => ?_) fun _ _ => coupled_of_none
  refine Sat.seq (sat_manager _) (fun _ => ?_) fun _ _ => coupled_of_none
  exact (sat_base (ConnectionHandler.destroy_only fun _ => id)).conseq
    (fun _ => coupled_of_none) fun _ _ hs => hs

end RPMAHandler

namespace Session

open RPMAHandler

/-- The two are in step now, and were at every call so far. -/
def InStep (s : Session) : Prop :=
  s.handler.Coupled ∧ ∀ p ∈ s.trace, p.1.Keeps p.2

lemma InStep.step {s t : Session} {a : SessionAct} (h : s.InStep)
    (hstep : machine.step s a = some t) : t.InStep := by
  rcases step_cases hstep with ⟨content, env, rfl, rfl⟩ | ⟨rfl, rfl⟩
  · obtain ⟨hcalls, hc⟩ := sat_dealRequire env (s.receiving content) h.1
    refine ⟨hc, fun p hp => ?_⟩
    rcases List.mem_append.1 hp with hp | hp
    · exact h.2 p hp
    · exact hcalls p hp
  · obtain ⟨hcalls, hc⟩ := sat_destroy s.handler h.1
    refine ⟨hc, fun p hp => ?_⟩
    rcases List.mem_append.1 hp with hp | hp
    · exact h.2 p hp
    · exact hcalls p hp

/-- **A registered region never outlives or mismatches its memory.**  Whatever requests a
connection serves and whatever the outside answers, destruction included: if a region is
registered, it is registered on the memory that is held, with its length, and for the
persistent flush exactly if the memory is pmem; this is so in every state reached and at
every call made on the way; and memory is only ever given back while no region is
registered. -/
theorem registration_coupled (sendBl recvBl : MsgBuf) (size : UInt64) (as : List SessionAct)
    (t : Session) (hrun : machine.Run (create sendBl recvBl size) as t) :
    (∀ mr, t.handler.dataMr = some mr →
      t.handler.dataManager.data ≠ none ∧ mr.ptr = t.handler.dataManager.data ∧
        mr.size = t.handler.dataManager.size ∧
        (mr.Persistent ↔ t.handler.dataManager.isPmem = true)) ∧
    (∀ p ∈ t.trace, p.1.Coupled) ∧
    (∀ p ∈ t.trace, p.2.Releases → p.1.dataMr = none) := by
  have hinv : t.InStep := by
    refine machine.invariant ?_ (fun s a u h hs => h.step hs) hrun
    exact ⟨coupled_of_none rfl, by simp [create]⟩
  exact ⟨hinv.1, fun p hp => (hinv.2 p hp).1, fun p hp => (hinv.2 p hp).2⟩

/-- A new connection on a working server after its first request. -/
def afterSample : Session := (create .zero .zero 0).serve sampleContent (working [7])

lemma run_afterSample :
    machine.Run (create .zero .zero 0) [.request sampleContent (working [7])] afterSample :=
  (Machine.Run.nil (create .zero .zero 0)).snoc (machine_request rfl sampleContent (working [7]))

lemma afterSample_served :
    afterSample.ended = false ∧
      afterSample.handler.sendBl =
        MsgBuf.zero.memcpy (initReply sampleDesc).encode length_sampleReply.le ∧
      afterSample.handler.dataManager =
        ⟨some 4096, 64, false, MemoryManager.mountPath (poolPath sampleInit.info)⟩ ∧
      afterSample.handler.dataMr = some ⟨some 4096, 64, mrUsage .flush false, [7]⟩ := by
  obtain ⟨hres, -, hbl, hman, hmr⟩ := served_sample
    (recvBl_receiving (create .zero .zero 0) sampleContent) rfl
  rw [sendBl_receiving, sendBl_create] at hbl
  rw [afterSample]
  rw [ended_serve, hres, handler_serve]
  exact ⟨rfl, hbl, hman, hmr⟩

/-- A connection that has served one INIT request holds memory and a registration of it. -/
theorem registration_coupled_after_init :
    ∃ t mr, machine.Run (create .zero .zero 0) [.request sampleContent (working [7])] t ∧
      t.handler.dataMr = some mr ∧ t.handler.dataManager.data ≠ none ∧
      mr.ptr = t.handler.dataManager.data ∧ mr.size = t.handler.dataManager.size := by
  obtain ⟨-, -, -, hset⟩ := afterSample_served
  obtain ⟨hmr, -, -⟩ := registration_coupled .zero .zero 0 _ _ run_afterSample
  obtain ⟨h1, h2, h3, -⟩ := hmr _ hset
  exact ⟨_, _, run_afterSample, hset, h1, h2, h3⟩

end Session

end RpmaReplica
