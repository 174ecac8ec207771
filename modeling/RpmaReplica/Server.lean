import RpmaReplica.Notification
import RpmaReplica.Serving

/-!
# The server

`server.cc` and `Reactor::handle_events`: one thread waits for events and lets the handler
of each event handle it, for ever.  An exception that leaves a handler leaves the reactor
and `main` too, and the server is gone for all its connections.

`Serviceable` is what a request must be so that this does not happen;
`serving_ends_normally_iff` says that it is exactly that.
-/

namespace RpmaReplica

namespace RPMAHandler

/-! ### When serving ends normally -/

/-- The size the string of descriptors gets for the descriptor `d` of a region. -/
def mrDescSize (env : MrEnv) (d : Bytes) : UInt64 :=
  sizeOr env.uninitMrDescSize d.length env.mrGetDescriptorSize

/-- The size it grows by for the descriptor of the peer configuration. -/
def pcfgDescSize (env : MrEnv) (isPmem : Bool) : UInt64 :=
  sizeOr env.uninitPcfgDescSize (env.peerCfgDescriptor isPmem).length
    (onPcfg env env.peerCfgGetDescriptorSize)

/-- The descriptor `d` of a region can be put into a reply: the string can get the size that was
asked for, and a descriptor that is stored fits it.  If the configuration could be set, that of
the peer comes behind it; the sum of the two sizes, which may wrap around, is then not less than
the first, a descriptor that is stored fits what is left, and with the 28 bytes that stand before
them the descriptors fit the buffer. -/
structure Fits (env : MrEnv) (isPmem : Bool) (d : Bytes) : Prop where
  resizable : (mrDescSize env d).toNat ≤ stringMaxSize
  mr : env.mrGetDescriptor = .ok () → d.length ≤ (mrDescSize env d).toNat
  grows : configured env isPmem = .ok () →
    (mrDescSize env d).toNat ≤ (mrDescSize env d + pcfgDescSize env isPmem).toNat
  pcfg : configured env isPmem = .ok () → onPcfg env env.peerCfgGetDescriptor = .ok () →
    (mrDescSize env d).toNat + (env.peerCfgDescriptor isPmem).length ≤
      (mrDescSize env d + pcfgDescSize env isPmem).toNat
  reply : configured env isPmem = .ok () →
    (mrDescSize env d + pcfgDescSize env isPmem).toNat < 4068

/-- Whatever the registration yields, its reply can be built and fits the buffer. -/
def Describable (env : MrEnv) (isPmem : Bool) : Prop :=
  ∀ d, env.mrReg = .ok d → Fits env isPmem d

lemma resize_isOk {s : Bytes} {n : UInt64} (h : n.toNat ≤ stringMaxSize) :
    ∃ t, resize s n = .ok t ∧ t.length = n.toNat := by
  refine ⟨_, if_pos h, ?_⟩
  rw [List.length_append, List.length_take, List.length_replicate]
  omega

/-- When a descriptor, or nothing if the call fails, can be stored. -/
lemma storeAt_isOk (s : Bytes) (off : ℕ) (res : Rpma Unit) (bs : Bytes) :
    (∃ t, storeAt s off (res.map fun _ => bs) = .ok t) ↔
      off ≤ s.length ∧ (res = .ok () → off + bs.length ≤ s.length) := by
  cases res with
  | error e =>
      by_cases h : off ≤ s.length <;> simp [storeAt, Except.map, h]
  | ok u =>
      by_cases h : off + bs.length ≤ s.length
      · simp only [storeAt, Except.map, h, if_true, Except.ok.injEq, exists_eq', true_iff]
        exact ⟨by omega, fun _ => trivial⟩
      · simp [storeAt, Except.map, h]

/-- The first part of the reply, if it can be built: what was asked for, and a descriptor that
fits it. -/
lemma describeMr_fits {env : MrEnv} {d : Bytes} {n : UInt64} {ds : Bytes}
    (h : describeMr env d = .ok (n, ds)) :
    n = mrDescSize env d ∧ n.toNat ≤ stringMaxSize ∧
      (env.mrGetDescriptor = .ok () → d.length ≤ n.toNat) := by
  obtain ⟨s₁, h1, hrest⟩ := except_bind_eq_ok.1 h
  obtain ⟨s₂, h2, h3⟩ := except_bind_eq_ok.1 hrest
  obtain ⟨rfl, rfl⟩ := Prod.mk.inj (Except.ok.inj h3)
  obtain ⟨hle, rfl⟩ := resize_eq_ok h1
  refine ⟨rfl, hle, fun hget => ?_⟩
  have hstored := ((storeAt_isOk _ _ _ _).1 ⟨s₂, h2⟩).2 hget
  simpa using hstored

/-- It can be built if the descriptor fits. -/
lemma describeMr_isOk {env : MrEnv} {d : Bytes} (hle : (mrDescSize env d).toNat ≤ stringMaxSize)
    (hget : env.mrGetDescriptor = .ok () → d.length ≤ (mrDescSize env d).toNat) :
    ∃ ds, describeMr env d = .ok (mrDescSize env d, ds) := by
  obtain ⟨s₁, h1, hlen⟩ := resize_isOk (s := []) hle
  obtain ⟨s₂, h2⟩ := (storeAt_isOk s₁ 0 env.mrGetDescriptor d).2
    ⟨Nat.zero_le _, fun hok => by rw [hlen, Nat.zero_add]; exact hget hok⟩
  exact ⟨s₂, except_bind_eq_ok.2 ⟨s₁, h1, except_bind_eq_ok.2 ⟨s₂, h2, rfl⟩⟩⟩

/-- When the second part can be built and the reply fits the buffer. -/
lemma describePcfg_isOk {env : MrEnv} {isPmem : Bool} {n : UInt64} {ds : Bytes}
    (hcfg : configured env isPmem = .ok ()) :
    (∃ desc, describePcfg env isPmem n ds = .ok (.ok desc) ∧
      (initReply desc).encode.length < msgSize) ↔
    n.toNat ≤ (n + pcfgDescSize env isPmem).toNat ∧
      (onPcfg env env.peerCfgGetDescriptor = .ok () →
        n.toNat + (env.peerCfgDescriptor isPmem).length ≤ (n + pcfgDescSize env isPmem).toNat) ∧
      (n + pcfgDescSize env isPmem).toNat < 4068 := by
  have hlength : ∀ desc : RpmaConfigDescriptor,
      (initReply desc).encode.length < msgSize ↔ desc.descriptors.length < 4068 := by
    intro desc
    rw [RwlReplicaInitRequestReply.length_encode]
    simp only [initReply, msgSize]
    omega
  rw [describePcfg, hcfg]
  constructor
  · rintro ⟨desc, hdesc, hlen⟩
    obtain ⟨s₁, h1, hrest⟩ := except_bind_eq_ok.1 hdesc
    obtain ⟨s₂, h2, h3⟩ := except_bind_eq_ok.1 hrest
    obtain rfl := Except.ok.inj (Except.ok.inj h3)
    obtain ⟨hle, hs₁⟩ := resize_eq_ok h1
    have hsize : s₁.length = (n + pcfgDescSize env isPmem).toNat := by
      rw [hs₁, List.length_append, List.length_take, List.length_replicate, pcfgDescSize]
      omega
    obtain ⟨hoff, hfits⟩ := (storeAt_isOk _ _ _ _).1 ⟨s₂, h2⟩
    rw [hlength, (storeAt_eq_ok h2).2.1, hsize] at hlen
    rw [hsize] at hoff hfits
    exact ⟨hoff, hfits, hlen⟩
  · rintro ⟨hoff, hfits, hlen⟩
    obtain ⟨s₁, h1, hsize⟩ := resize_isOk (s := ds) (n := n + pcfgDescSize env isPmem)
      (by rw [stringMaxSize]; omega)
    rw [← hsize] at hoff hfits
    obtain ⟨s₂, h2⟩ := (storeAt_isOk s₁ _ _ _).2 ⟨hoff, hfits⟩
    refine ⟨_, except_bind_eq_ok.2 ⟨s₁, h1, except_bind_eq_ok.2 ⟨s₂, h2, rfl⟩⟩, ?_⟩
    rw [hlength, (storeAt_eq_ok h2).2.1, hsize]
    exact hlen

/-- `Fits` is when `register_mr_to_descriptor` comes to its end: with the early return, or with
a reply that fits the buffer. -/
lemma fits_iff {env : MrEnv} {isPmem : Bool} {d : Bytes} :
    Fits env isPmem d ↔
      (∃ ret, describe env .flush isPmem d = .ok (.error ret)) ∨
      ∃ desc, describe env .flush isPmem d = .ok (.ok desc) ∧
        (initReply desc).encode.length < msgSize := by
  constructor
  · intro h
    obtain ⟨ds, hds⟩ := describeMr_isOk h.resizable h.mr
    have hdesc : describe env .flush isPmem d =
        describePcfg env isPmem (mrDescSize env d) ds := by
      rw [describe, hds]
      rfl
    rw [hdesc]
    cases hcfg : configured env isPmem with
    | error e => exact .inl ⟨e.code, by rw [describePcfg, hcfg]; rfl⟩
    | ok u => exact .inr ((describePcfg_isOk hcfg).2 ⟨h.grows hcfg, h.pcfg hcfg, h.reply hcfg⟩)
  · intro h
    obtain ⟨r, hr⟩ : ∃ r, describe env .flush isPmem d = .ok r := by
      rcases h with ⟨ret, h⟩ | ⟨desc, h, -⟩
      · exact ⟨_, h⟩
      · exact ⟨_, h⟩
    obtain ⟨⟨n, ds⟩, hds, hrest⟩ := except_bind_eq_ok.1 hr
    obtain ⟨rfl, hresize, hmr⟩ := describeMr_fits hds
    have hsecond : configured env isPmem = .ok () →
        ∃ desc, describePcfg env isPmem (mrDescSize env d) ds = .ok (.ok desc) ∧
          (initReply desc).encode.length < msgSize := by
      intro hcfg
      rcases h with ⟨ret, h⟩ | ⟨desc, h, hfits⟩
      · exact absurd hcfg (describe_error h).1
      · exact ⟨desc, (hrest.trans (hr.symm.trans h)), hfits⟩
    exact ⟨hresize, hmr, fun hcfg => ((describePcfg_isOk hcfg).1 (hsecond hcfg)).1,
      fun hcfg => ((describePcfg_isOk hcfg).1 (hsecond hcfg)).2.1,
      fun hcfg => ((describePcfg_isOk hcfg).1 (hsecond hcfg)).2.2⟩

/-- Descriptors that librpma hands out and that fit can be described. -/
lemma describable_of_describes {env : MrEnv} (henv : env.Describes) {isPmem : Bool}
    (hlen : ∀ d, env.mrReg = .ok d → d.length + (env.peerCfgDescriptor isPmem).length < 4068) :
    Describable env isPmem := by
  intro d hd
  refine fits_iff.2 (.inr ⟨_, describe_flush henv isPmem d (hlen d hd), ?_⟩)
  rw [RwlReplicaInitRequestReply.length_encode]
  simp only [initReply, List.length_append, msgSize]
  have := hlen d hd
  omega

/-- Whether the memory is pmem when an INIT request comes to the registration. -/
def pmemFor (env : MemEnv) (m : MemoryManager) (info : RwlCacheInfo) : Bool :=
  if m.data = none then (MemoryManager.accepted env info.cacheSize).isSome else m.isPmem

/-- The request in a buffer can be served: it can be decoded, and if it is an INIT request, its
parameters can be decoded, the memory it needs is there, and the reply can be built. -/
def Serviceable (env : ServeEnv) (recvBl : MsgBuf) (m : MemoryManager) : Prop :=
  ∃ req c, RwlReplicaRequest.decode recvBl.cbegin = .ok (req, c) ∧
    (req.type = rwlReplicaInitRequest → ∃ init c',
      RwlReplicaInitRequest.decode recvBl.cbegin = .ok (init, c') ∧
      (m.data = none → MemoryManager.CanAllocate env.mem init.info.cacheSize) ∧
      Describable env.mr (pmemFor env.mem m init.info))

lemma Allocation.pmemFor {env : MemEnv} {info : RwlCacheInfo} {h h' : RPMAHandler}
    (halloc : Allocation env info h h') :
    (h.dataManager.data = none → MemoryManager.CanAllocate env info.cacheSize) ∧
      h'.dataManager.isPmem = pmemFor env h.dataManager info := by
  cases halloc with
  | kept hdata => simp [RPMAHandler.pmemFor, hdata]
  | mapped hdata hacc => simp [RPMAHandler.pmemFor, hdata, hacc, MemoryManager.CanAllocate]
  | allocated hdata hacc hmal =>
      simp [RPMAHandler.pmemFor, hdata, hacc, hmal, MemoryManager.CanAllocate]

lemma InitAnswer.ok_iff {env : ServeEnv} {h s : RPMAHandler} {r : Except Stop ℤ}
    (hans : InitAnswer env h r s) :
    (∃ ret, r = .ok ret) ↔ ∃ init c, RwlReplicaInitRequest.decode h.recvBl.cbegin = .ok (init, c) ∧
      (h.dataManager.data = none → MemoryManager.CanAllocate env.mem init.info.cacheSize) ∧
      Describable env.mr (pmemFor env.mem h.dataManager init.info) := by
  cases hans with
  | malformed hinit => simp [hinit]
  | unallocated hinit hdata hacc hmal =>
      simp [hinit, hdata, MemoryManager.CanAllocate, hacc, hmal]
  | @registered init c h' _ _ hinit halloc hreg =>
      obtain ⟨hcan, hpmem⟩ := halloc.pmemFor
      rw [hinit]
      simp only [Except.ok.injEq, Prod.mk.injEq]
      constructor
      · rintro ⟨ret, rfl⟩
        refine ⟨init, c, ⟨rfl, rfl⟩, hcan, fun d hd => ?_⟩
        rw [← hpmem]
        cases hreg with
        | refused hreg => simp [hreg] at hd
        | unconfigured hreg hdesc =>
            obtain rfl := Except.ok.inj (hreg.symm.trans hd)
            exact fits_iff.2 (.inl ⟨_, hdesc⟩)
        | replied hreg hdesc hlen =>
            obtain rfl := Except.ok.inj (hreg.symm.trans hd)
            exact fits_iff.2 (.inr ⟨_, hdesc, hlen⟩)
      · rintro ⟨_, _, ⟨rfl, rfl⟩, -, hdescr⟩
        rw [← hpmem] at hdescr
        cases hreg with
        | refused _ => exact ⟨_, rfl⟩
        | unconfigured _ _ => exact ⟨_, rfl⟩
        | replied _ _ _ => exact ⟨_, rfl⟩
        | undescribed hreg hdesc =>
            rcases fits_iff.1 (hdescr _ hreg) with ⟨ret, h⟩ | ⟨desc, h, -⟩ <;> simp [hdesc] at h
        | oversized hreg hdesc hlen =>
            rcases fits_iff.1 (hdescr _ hreg) with ⟨ret, h⟩ | ⟨desc, h, hlen'⟩
            · simp [hdesc] at h
            · obtain rfl := Except.ok.inj (Except.ok.inj (hdesc.symm.trans h))
              exact absurd hlen' hlen

lemma Answer.ok_iff {env : ServeEnv} {h s : RPMAHandler} {r : Except Stop ℤ}
    {sends : List (RPMAHandler × Rpma Unit)} (hans : Answer env h r s sends) :
    (∃ ret, r = .ok ret) ↔ Serviceable env h.recvBl h.dataManager := by
  rw [Serviceable]
  cases hans with
  | malformed hreq => simp [hreq]
  | init hreq htype hans _ =>
      rw [hans.ok_iff, hreq]
      constructor
      · intro hinit
        exact ⟨_, _, rfl, fun _ => hinit⟩
      · rintro ⟨req, c, heq, hinit⟩
        obtain ⟨rfl, rfl⟩ := Prod.mk.inj (Except.ok.inj heq)
        exact hinit htype
  | finished hreq htype _ _ =>
      refine ⟨fun _ => ⟨_, _, hreq, fun hinit => ?_⟩, fun _ => ⟨_, rfl⟩⟩
      exact absurd (htype.symm.trans hinit) (by decide)
  | unsupported hreq hinit _ =>
      exact ⟨fun _ => ⟨_, _, hreq, fun h => absurd h hinit⟩, fun _ => ⟨_, rfl⟩⟩

/-- When serving a request ends normally. -/
lemma Served.ok_iff {env : ServeEnv} {h s : RPMAHandler} {r : Except Stop Unit}
    {sends : List (RPMAHandler × Rpma Unit)} (hserved : Served env h r s sends) :
    r = .ok () ↔ Serviceable env h.recvBl h.dataManager := by
  cases hserved with
  | stopped hans => simp [← hans.ok_iff]
  | answered hans _ => simp [← hans.ok_iff]

/-- A request that cannot be decoded stops `deal_require`. -/
lemma Served.of_malformed {env : ServeEnv} {h s : RPMAHandler} {r : Except Stop Unit}
    {sends : List (RPMAHandler × Rpma Unit)} {e : Wire.DecodeError}
    (hserved : Served env h r s sends)
    (hreq : RwlReplicaRequest.decode h.recvBl.cbegin = .error e) :
    r = .error (.thrown (.bufferError e)) := by
  have hanswer : ∀ {r s sends}, Answer env h r s sends →
      r = .error (.thrown (.bufferError e)) := by
    rintro r s sends (hreq' | ⟨hreq', _, _, _⟩ | ⟨hreq', _, _, _⟩ | ⟨hreq', _, _⟩)
    · obtain rfl := Except.error.inj (hreq.symm.trans hreq')
      rfl
    all_goals simp [hreq'] at hreq
  cases hserved with
  | stopped hans =>
      obtain rfl := Except.error.inj (hanswer hans)
      rfl
  | answered hans _ => exact absurd (hanswer hans) (by simp)

lemma InitAnswer.conn {env : ServeEnv} {h s : RPMAHandler} {r : Except Stop ℤ}
    (hans : InitAnswer env h r s) : s.conn = h.conn := by
  cases hans with
  | malformed _ => rfl
  | unallocated _ _ _ _ => rfl
  | registered _ halloc hreg =>
      have hbase := congrArg ConnectionHandler.conn halloc.frame.1
      cases hreg <;> exact hbase

/-- `deal_require` leaves the connection alone. -/
lemma Served.conn {env : ServeEnv} {h s : RPMAHandler} {r : Except Stop Unit}
    {sends : List (RPMAHandler × Rpma Unit)} (hserved : Served env h r s sends) :
    s.conn = h.conn := by
  have hanswer : ∀ {r s sends}, Answer env h r s sends → s.conn = h.conn := by
    rintro r s sends (_ | ⟨_, _, hans, _⟩ | ⟨_, _, hs, _⟩ | _)
    · rfl
    · exact hans.conn
    · exact hs.conn
    · rfl
  cases hserved with
  | stopped hans => exact hanswer hans
  | answered hans hsame => exact hsame.conn.trans (hanswer hans)

/-- The callbacks of the server's end of a connection. -/
def callbacks (env : ServeEnv) : ConnectionHandler.Callbacks RPMAHandler ServerCallback where
  lens := base
  run := fun .dealRequire => dealRequire env
  keeps_cq := fun .dealRequire h => congrArg RpmaConn.cq (served env h).conn

/-- If `deal_require` returns, it has called `rpma_recv` with a new operation. -/
lemma recv_of_returned {env : ServeEnv} {h : RPMAHandler}
    (hres : (dealRequire env h).result = .ok ()) :
    ∃ p ∈ (dealRequire env h).calls, ∃ op, p.2 = .rpmaRecv (some op) env.recv := by
  rw [dealRequire] at hres ⊢
  rw [Exec.bind_apply] at hres ⊢
  cases hget : (getDescriptor env h).result with
  | error e => simp [Outcome.andThen_of_error hget] at hres
  | ok ret =>
      rw [Outcome.andThen_of_ok hget]
      have hmem : ∃ p ∈ (Exec.zoom base (receiveAndReply env.recv env.send)
          (getDescriptor env h).state).calls, ∃ op, p.2 = .rpmaRecv (some op) env.recv := by
        cases env.recv <;> exact ⟨_, .tail _ (.head _), _, rfl⟩
      obtain ⟨p, hp, hop⟩ := hmem
      exact ⟨p, List.mem_append_right _ hp, hop⟩

/-- A receive that `deal_require` posts is answered as `rpma_recv` answers it. -/
lemma dealRequire_recv (env : ServeEnv) :
    Exec.Only (fun c => ∀ ctx res, c = .rpmaRecv ctx res → res = env.recv) (dealRequire env) := by
  have hmemory : ∀ c : Call, c.IsMemory → ∀ ctx res, c ≠ .rpmaRecv ctx res := by
    rintro c hc ctx res rfl
    exact hc
  have hregistration : ∀ c : Call, c.IsRegistration → ∀ ctx res, c ≠ .rpmaRecv ctx res := by
    rintro c hc ctx res rfl
    exact hc
  refine .bind (.bind .read fun h => .bind (decodeFrom_only _ _) fun req =>
    .ite ?_ (.ite ?_ (.ret _))) fun _ => .zoom _ (receiveAndReply_only ?_ ?_ ?_ ?_)
  · refine (getDescriptorForWrite_only env).mono fun c hc ctx res heq => ?_
    rcases hc with hc | hc
    · exact absurd heq (hmemory c hc ctx res)
    · exact absurd heq (hregistration c hc ctx res)
  · refine .bind ((resetDataMr_only none).mono fun c hc ctx res heq => ?_) fun _ =>
      .bind (.zoom _ ((MemoryManager.closeAndRemove_only _).mono fun c hc ctx res heq => ?_))
        fun removed => .bind (.zoom _ (ConnectionHandler.fillSendBl_only _)) fun _ =>
          .bind (.zoom _ (ConnectionHandler.postOp_only ?_ ?_ ?_)) fun _ => .ret _
    · exact absurd heq (hregistration c hc ctx res)
    · exact absurd heq (hmemory c hc ctx res)
    all_goals exact fun op ctx res heq => by cases heq
  · exact fun op ctx res heq => by cases heq
  · exact fun op ctx res heq => by cases heq
  · rintro op ctx res ⟨⟩
    rfl
  · exact fun ctx res heq => by cases heq

end RPMAHandler

/-! ### The reactor and `main` -/

/-- The server: its connections, by number, and those whose fds are in the event table, beside
that of the acceptor. -/
structure Server where
  acceptor : Bool
  registered : Finset ℕ
  conns : ℕ → RPMAHandler

namespace Server

open RPMAHandler ConnectionHandler

/-- One of the connections. -/
def conn (i : ℕ) : Lens Server RPMAHandler where
  get s := s.conns i
  set h s := { s with conns := Function.update s.conns i h }
  get_set _ _ := Function.update_self _ _ _
  set_get _ := by simp
  set_set _ _ _ := by simp

/-- What `epoll_wait` can report: an event on the completion fd of a connection, or an event of
another kind, with whatever its handler does. -/
inductive Event
  | completion (i : ℕ) (arrivals : CompletionEnv) (env : ServeEnv)
  | other (handler : Prog Server ℤ)

/-- `event_handle->handler->handle(event_handle->type)`. -/
def handle : Event → Prog Server ℤ
  | .completion i arrivals env =>
    Exec.zoom (conn i) (handleCompletion (callbacks env).lens (callbacks env).run arrivals)
  | .other handler => handler

/-- `Reactor::empty`. -/
def empty (s : Server) : Bool := !s.acceptor && decide (s.registered = ∅)

/-- `Reactor::handle_events`, given the events that `epoll_wait` reports until it times out. -/
def handleEvents : List Event → Prog Server Unit
  | [] => return ()
  | event :: events => do
    let _ ← handle event
    let s ← Exec.read
    if s.empty then return () else handleEvents events

/-- The loop of `main`, for any number of rounds. -/
def mainLoop (rounds : List (List Event)) : Prog Server Unit := rounds.forM handleEvents

/-- The next completion that `handle_completion` takes on a connection is that of a receive
that has delivered a request. -/
def DeliversRequest (h : RPMAHandler) (arrivals : CompletionEnv) : Prop :=
  ∃ waited got op,
    (h.conn.cq.arriveAll arrivals.beforeWait).waitOr arrivals.waitFault = (.ok (), waited) ∧
    (waited.arriveAll arrivals.beforeGet).getOr arrivals.getFault =
      (.ok ⟨some op, .recv, true⟩, got) ∧
    h.ops.lookup op = some (some .dealRequire)

/-- Handling an event ends normally: the handler returns, the next receive is posted, and the
loop of `main` goes on with whatever events come next. -/
structure EndsNormally (s : Server) (i : ℕ) (arrivals : CompletionEnv) (env : ServeEnv) :
    Prop where
  returns : ∃ ret, (handle (.completion i arrivals env) s).result = .ok ret
  recv : ∃ p ∈ (handle (.completion i arrivals env) s).calls,
    ∃ op, p.2 = .rpmaRecv (some op) (.ok ())
  goesOn : ∀ events rounds,
    (mainLoop ((.completion i arrivals env :: events) :: rounds) s).result =
        (mainLoop (events :: rounds) (handle (.completion i arrivals env) s).state).result ∧
      (mainLoop ((.completion i arrivals env :: events) :: rounds) s).state =
        (mainLoop (events :: rounds) (handle (.completion i arrivals env) s).state).state

/-- What the reactor makes of a receive that has delivered a request. -/
lemma handle_eq_dealRequire {h : RPMAHandler} {arrivals : CompletionEnv}
    (hdel : DeliversRequest h arrivals) (env : ServeEnv) :
    ∃ h', h'.recvBl = h.recvBl ∧ h'.dataManager = h.dataManager ∧
      (handleCompletion (callbacks env).lens (callbacks env).run arrivals h).result =
        (dealRequire env h').result.map (fun _ => 0) ∧
      ∀ p ∈ (dealRequire env h').calls,
        p ∈ (handleCompletion (callbacks env).lens (callbacks env).run arrivals h).calls := by
  obtain ⟨waited, got, op, hwait, hget, hop⟩ := hdel
  obtain ⟨pre, hcalls, -, hres⟩ := (callbacks env).handleCompletion_take (s := h) hwait hget rfl rfl
  obtain ⟨hres', hmem⟩ := (callbacks env).retire_eq (k := .dealRequire)
    (s := (callbacks env).setCq h (got.arriveAll arrivals.afterGet)) hop
  refine ⟨_, ?_, ?_, hres.trans (congrArg _ hres'), fun p hp => ?_⟩
  · rfl
  · rfl
  · rw [hcalls]
    exact List.mem_append_right _ (hmem p hp)

lemma result_handle (s : Server) (i : ℕ) (arrivals : CompletionEnv) (env : ServeEnv) :
    (handle (.completion i arrivals env) s).result =
      (handleCompletion (callbacks env).lens (callbacks env).run arrivals (s.conns i)).result :=
  rfl

/-- A receive that is posted while a completion is handled is answered as `rpma_recv` answers
it. -/
lemma handle_recv (i : ℕ) (arrivals : CompletionEnv) (env : ServeEnv) :
    Exec.Only (fun c => ∀ ctx res, c = .rpmaRecv ctx res → res = env.recv)
      (handle (.completion i arrivals env)) := by
  have hfailed : ∀ e, Exec.Only (fun c => ∀ ctx res, c = .rpmaRecv ctx res → res = env.recv)
      (completionFailed (callbacks env).lens e) := fun e =>
    .ite (.ret _) (.bind (.zoom _ (.bind (.update _) fun _ => .call fun _ _ h => by cases h))
      fun _ => .ret _)
  have hretire : ∀ op, Exec.Only (fun c => ∀ ctx res, c = .rpmaRecv ctx res → res = env.recv)
      (retire (callbacks env).lens (callbacks env).run op) := by
    refine fun op => .bind (.zoom _ (.update _)) fun _ => .ensuring (.bind .read fun s => ?_)
      (.zoom _ (.bind (.call fun _ _ h => by cases h) fun _ => .update _))
    rcases ((callbacks env).lens.get s).ops.lookup op with _ | _ | k
    · exact .stop _
    · exact .ret _
    · exact dealRequire_recv env
  refine .zoom _ (.bind (.zoom _ (.bind (.update _) fun _ => .bind .read fun _ =>
    .bind (.update _) fun _ => .bind (.call fun _ _ h => by cases h) fun _ => .ret _))
      fun waited => ?_)
  cases waited with
  | error e => exact hfailed e
  | ok u =>
      refine .bind (.zoom _ (.bind (.update _) fun _ => .bind .read fun _ =>
        .bind (.update _) fun _ => .bind (.call fun _ _ h => by cases h) fun _ => .ret _))
          fun got => ?_
      rcases completionGot_cases (callbacks env).lens (callbacks env).run got with
        ⟨e, -, heq⟩ | ⟨cmpl, -, -, heq⟩ | ⟨op, oc, -, heq⟩
      · rw [heq]
        exact hfailed e
      · rw [heq]
        exact .ret _
      · rw [heq]
        exact .bind (hretire op) fun _ => .ret _

/-- After an event that was handled, `handle_events` goes on with the next. -/
lemma handleEvents_cons {s : Server} {event : Event} {ret : ℤ}
    (hres : (handle event s).result = .ok ret) (hne : (handle event s).state.empty = false)
    (events : List Event) :
    handleEvents (event :: events) s =
      ⟨(handle event s).calls ++ (handleEvents events (handle event s).state).calls,
        (handleEvents events (handle event s).state).state,
        (handleEvents events (handle event s).state).result⟩ := by
  rw [handleEvents, Exec.bind_apply, Outcome.andThen_of_ok hres]
  simp [hne]

lemma mainLoop_cons (events : List Event) (rounds : List (List Event)) (s : Server) :
    mainLoop (events :: rounds) s = (handleEvents events s).andThen fun _ => mainLoop rounds := rfl

/-- **When a client cannot stop the server.**  A receive that has delivered a request, on a
connection that the reactor watches, is handled to its normal end, with the next receive
posted and the server ready for the next event, if and only if the request can be served and
`rpma_recv` succeeds: the request can be decoded, and if it is an INIT request, its parameters
can be decoded, the memory it needs is there, and its reply can be built. -/
theorem serving_ends_normally_iff (s : Server) (i : ℕ) (arrivals : CompletionEnv) (env : ServeEnv)
    (hwatched : i ∈ s.registered) (hdel : DeliversRequest (s.conns i) arrivals) :
    EndsNormally s i arrivals env ↔
      Serviceable env (s.conns i).recvBl (s.conns i).dataManager ∧ env.recv = .ok () := by
  obtain ⟨h', hrecv, hman, hres, hmem⟩ := handle_eq_dealRequire hdel env
  rw [← hrecv, ← hman, ← (served env h').ok_iff]
  have hhandle := (result_handle s i arrivals env).trans hres
  constructor
  · intro hends
    obtain ⟨ret, hret⟩ := hends.returns
    rw [hhandle] at hret
    refine ⟨?_, ?_⟩
    · cases hdeal : (dealRequire env h').result with
      | ok u => rfl
      | error e => simp [hdeal, Except.map] at hret
    · obtain ⟨p, hp, op, hop⟩ := hends.recv
      exact (handle_recv i arrivals env s p hp _ _ hop).symm
  · rintro ⟨hdeal, hrecvOk⟩
    have hret : (handle (.completion i arrivals env) s).result = .ok 0 := by
      rw [hhandle, hdeal]
      rfl
    have hne : (handle (.completion i arrivals env) s).state.empty = false := by
      have hreg : (handle (.completion i arrivals env) s).state.registered = s.registered := rfl
      simp [empty, hreg, Finset.ne_empty_of_mem hwatched]
    refine ⟨⟨0, hret⟩, ?_, fun events rounds => ?_⟩
    · obtain ⟨p, hp, op, hop⟩ := recv_of_returned hdeal
      rw [hrecvOk] at hop
      exact ⟨_, List.mem_map.2 ⟨p, hmem p hp, rfl⟩, op, hop⟩
    · rw [mainLoop_cons, mainLoop_cons, handleEvents_cons hret hne]
      simp only [Outcome.andThen]
      cases (handleEvents events (handle (.completion i arrivals env) s).state).result <;>
        exact ⟨rfl, rfl⟩

/-- A server with one connection, on which a receive has delivered some content. -/
def delivered (content : MsgBuf) : Server where
  acceptor := true
  registered := {0}
  conns := fun _ =>
    { RPMAHandler.create .zero content 0 with
      conn := ⟨Cq.create.arrive ⟨some 0, .recv, true⟩, false⟩ }

/-- Nothing else arrives, and nothing fails. -/
def undisturbed : CompletionEnv := ⟨[], none, [], none, []⟩

lemma delivered_delivers (content : MsgBuf) :
    DeliversRequest ((delivered content).conns 0) undisturbed :=
  ⟨_, _, 0, rfl, rfl, rfl⟩

/-- An INIT request on a server on which every call succeeds. -/
theorem serving_ends_normally_init :
    EndsNormally (delivered sampleContent) 0 undisturbed (working [7]) := by
  refine (serving_ends_normally_iff (delivered sampleContent) 0 undisturbed (working [7])
    (Finset.mem_singleton_self 0) (delivered_delivers sampleContent)).2 ?_
  obtain ⟨⟨c, hreq⟩, c', hinit⟩ := decode_holding_init sampleInit length_sampleInit
  refine ⟨⟨_, c, hreq, fun _ => ⟨sampleInit, c', hinit, fun _ => .inr (by decide), ?_⟩⟩, rfl⟩
  refine describable_of_describes (workingMr_describes [7]) fun d hd => ?_
  obtain rfl := Except.ok.inj hd
  decide

/-- A buffer whose second byte asks for a reader of a newer version. -/
def malformedContent : MsgBuf := holding [1, 2] (by decide)

lemma decode_malformedContent :
    ∃ e, RwlReplicaRequest.decode malformedContent.cbegin = .error e := by
  rcases hdec : RwlReplicaRequest.decode malformedContent.cbegin with e | ⟨req, c⟩
  · exact ⟨e, rfl⟩
  · rw [RwlReplicaRequest.decode, Wire.inEnvelope] at hdec
    obtain ⟨_, _, hopen, -⟩ := Wire.bind_eq_ok.1 hdec
    obtain ⟨sv, compat, len, hrest, -, hcompat, -⟩ := Wire.openEnvelope_eq_ok.1 hopen
    -- the second byte is 2, and a reader of version 1 accepts 0 and 1
    have hbytes : malformedContent.cbegin =
        Wire.Cursor.start ([1, 2] ++ MsgBuf.zero.bytes.drop [1, 2].length) :=
      MsgBuf.cbegin_memcpy MsgBuf.zero [1, 2] (by decide)
    rw [hbytes] at hrest
    simp only [Wire.Cursor.start, List.cons_append, List.cons.injEq] at hrest
    obtain ⟨-, rfl, -⟩ := hrest
    exact absurd hcompat (by decide)

/-- **A client that stops the server.**  A message that the server cannot decode makes
`handle_events` throw, so that no later event is handled. -/
theorem malformed_stops_server :
    ¬EndsNormally (delivered malformedContent) 0 undisturbed (working [7]) ∧
    ∃ e, ∀ events rounds,
      (mainLoop ((.completion 0 undisturbed (working [7]) :: events) :: rounds)
        (delivered malformedContent)).result = .error (.thrown (.bufferError e)) := by
  obtain ⟨e, hreq⟩ := decode_malformedContent
  obtain ⟨h', hrecv, -, hres, -⟩ :=
    handle_eq_dealRequire (delivered_delivers malformedContent) (working [7])
  have hcontent : h'.recvBl = malformedContent := hrecv
  rw [← hcontent] at hreq
  have hhandle : (handle (.completion 0 undisturbed (working [7]))
      (delivered malformedContent)).result = .error (.thrown (.bufferError e)) := by
    rw [result_handle, hres, (served (working [7]) h').of_malformed hreq]
    rfl
  refine ⟨fun hends => ?_, e, fun events rounds => ?_⟩
  · obtain ⟨ret, hret⟩ := hends.returns
    rw [hhandle] at hret
    exact absurd hret (by simp)
  · have hround : (handleEvents (.completion 0 undisturbed (working [7]) :: events)
        (delivered malformedContent)).result = .error (.thrown (.bufferError e)) := by
      rw [handleEvents, Exec.bind_apply, Outcome.andThen_of_error hhandle]
    rw [mainLoop_cons, Outcome.andThen_of_error hround]

end Server

end RpmaReplica
