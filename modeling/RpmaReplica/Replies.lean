import RpmaReplica.Session

/-!
# What the server says

`deal_require` sends `send_bl` whatever `get_descriptor` returned, and `send_bl` keeps its
content from one request to the next.  So a reply is about the request it answers only if
the request wrote it.  This file settles in which runs every announcement of a region is
true, and which region an INIT request that is answered with success is given.
-/

namespace RpmaReplica

namespace RPMAHandler

/-- The buffer announces a region. -/
def HoldsSuccess (buf : MsgBuf) : Prop :=
  ∃ reply c, RwlReplicaInitRequestReply.decode buf.cbegin = .ok (reply, c) ∧
    reply.type = rwlReplicaInitSuccessed

/-- The request in `recv_bl` is an INIT request. -/
def IsInit (h : RPMAHandler) : Prop :=
  ∃ req c, RwlReplicaRequest.decode h.recvBl.cbegin = .ok (req, c) ∧
    req.type = rwlReplicaInitRequest

/-- Whatever is sent while the request in `recv_bl` is served: if it announces a region, then
the request is an INIT request, its registration returned 0, and the announced descriptor is
that of the region registered now. -/
def Truthful (env : ServeEnv) (h : RPMAHandler) : Prop :=
  ∀ p ∈ sentBy (dealRequire env h).calls, ∀ reply c,
    RwlReplicaInitRequestReply.decode p.1.sendBl.cbegin = .ok (reply, c) →
    reply.type = rwlReplicaInitSuccessed →
      h.IsInit ∧ (getDescriptorForWrite env h).result = .ok 0 ∧
      ∃ mr, p.1.dataMr = some mr ∧
        reply.desc.descriptors.take reply.desc.mrDescSize.toNat = mr.descriptor

/-- The memory is registered and the peer configuration set. -/
def Registers (env : MrEnv) (isPmem : Bool) : Prop :=
  (∃ d, env.mrReg = .ok d) ∧ configured env isPmem = .ok ()

/-- The request is answered by a reply of its own.  A FINISHED request always is.  An INIT
request that comes to the registration is if the registration succeeds and the region's
descriptor can be read; if the registration fails, and for any other request, the old
content of `send_bl` is sent, which must not announce a region. -/
def AnswersInKind (env : ServeEnv) (h : RPMAHandler) : Prop :=
  ∀ req c, RwlReplicaRequest.decode h.recvBl.cbegin = .ok (req, c) →
    (req.type = rwlReplicaInitRequest → ∀ init c' h',
      RwlReplicaInitRequest.decode h.recvBl.cbegin = .ok (init, c') →
      Allocation env.mem init.info h h' →
        (Registers env.mr h'.dataManager.isPmem →
          env.mr.mrGetDescriptorSize = .ok () ∧ env.mr.mrGetDescriptor = .ok ()) ∧
        (¬Registers env.mr h'.dataManager.isPmem → ¬HoldsSuccess h.sendBl)) ∧
    (req.type ≠ rwlReplicaInitRequest → req.type ≠ rwlReplicaFinishedRequest →
      ¬HoldsSuccess h.sendBl)

/-- The reply of `close` does not announce a region. -/
lemma not_holdsSuccess_closing (env : ServeEnv) (h : RPMAHandler) :
    ¬HoldsSuccess (closing env h).sendBl := by
  rintro ⟨reply, c, hdec, htype⟩
  have hread := RwlReplicaInitRequestReply.type_of_decode hdec
  rw [htype] at hread
  rw [closeReply] at hread
  split at hread <;> exact absurd hread (by decide)

/-- The content of `send_bl` after a registration that returns, and what it announces. -/
lemma Registration.truthful {env : MrEnv} {h s : RPMAHandler} {ret : ℤ}
    (hreg : Registration env .flush h (.ok ret) s)
    (hworks : Registers env h.dataManager.isPmem →
      env.mrGetDescriptorSize = .ok () ∧ env.mrGetDescriptor = .ok ())
    (hstale : ¬Registers env h.dataManager.isPmem → ¬HoldsSuccess h.sendBl)
    {reply : RwlReplicaInitRequestReply} {c : Wire.Cursor}
    (hdec : RwlReplicaInitRequestReply.decode s.sendBl.cbegin = .ok (reply, c))
    (htype : reply.type = rwlReplicaInitSuccessed) :
    ret = 0 ∧ ∃ mr, s.dataMr = some mr ∧
      reply.desc.descriptors.take reply.desc.mrDescSize.toNat = mr.descriptor := by
  cases hreg with
  | refused hreg =>
      refine absurd ⟨reply, c, hdec, htype⟩ (hstale ?_)
      rintro ⟨⟨d, hd⟩, -⟩
      simp [hreg] at hd
  | unconfigured hreg hdesc =>
      exact absurd ⟨reply, c, hdec, htype⟩ (hstale fun hr => (describe_error hdesc).1 hr.2)
  | @replied d desc hreg hdesc hlen =>
      -- the reply read back is the one that was written
      have hread :=
        (initReply desc).reads_encode (hlen.trans (by decide)) |>.memcpy h.sendBl hlen.le
      obtain rfl : initReply desc = reply := (Prod.mk.inj (Except.ok.inj (hread.symm.trans hdec))).1
      obtain ⟨hsize, hget⟩ := hworks ⟨⟨d, hreg⟩, describe_ok_configured hdesc⟩
      exact ⟨rfl, _, rfl, describe_ok_mr hsize hget hdesc hlen⟩

/-- An outcome that stopped has sent nothing. -/
lemma Answer.sends_of_error {env : ServeEnv} {h s : RPMAHandler} {stop : Stop}
    {sends : List (RPMAHandler × Rpma Unit)} (hans : Answer env h (.error stop) s sends) :
    sends = [] := by
  cases hans <;> rfl

/-- **A request answered in kind is answered truthfully.** -/
lemma Served.truthful {env : ServeEnv} {h t : RPMAHandler} {r : Except Stop Unit}
    {sends : List (RPMAHandler × Rpma Unit)} (hserved : Served env h r t sends)
    (hkind : AnswersInKind env h) :
    ∀ p ∈ sends, ∀ reply c,
      RwlReplicaInitRequestReply.decode p.1.sendBl.cbegin = .ok (reply, c) →
      reply.type = rwlReplicaInitSuccessed →
        h.IsInit ∧ (getDescriptorForWrite env h).result = .ok 0 ∧
        ∃ mr, p.1.dataMr = some mr ∧
          reply.desc.descriptors.take reply.desc.mrDescSize.toNat = mr.descriptor := by
  cases hserved with
  | stopped hans =>
      obtain rfl := hans.sends_of_error
      simp
  | @answered ret s _ u sends hans _ hsame =>
      intro p hp reply c hdec htype
      cases hans with
      | @init req c₀ _ _ hreq htype₀ hans hres =>
          obtain rfl : p = (u, env.send) := by simpa using hp
          simp only [hsame.sendBl, hsame.dataMr] at hdec ⊢
          cases hans with
          | @registered init c₁ h' _ _ hinit halloc hreg =>
              obtain ⟨hworks, hstale⟩ := (hkind req c₀ hreq).1 htype₀ init c₁ h' hinit halloc
              have hbl : h.sendBl = h'.sendBl :=
                (congrArg ConnectionHandler.sendBl halloc.frame.1).symm
              rw [hbl] at hstale
              obtain ⟨rfl, hmr⟩ := hreg.truthful hworks hstale hdec htype
              exact ⟨⟨req, c₀, hreq, htype₀⟩, hres, hmr⟩
      | @finished req c₀ _ t' hreq htype₀ hs ht =>
          have hbl : p.1.sendBl = (closing env h).sendBl := by
            rcases List.mem_cons.1 hp with rfl | hp
            · exact ht.sendBl
            · obtain rfl : p = (u, env.send) := by simpa using hp
              exact (hs.trans hsame).sendBl
          rw [hbl] at hdec
          exact absurd ⟨reply, c, hdec, htype⟩ (not_holdsSuccess_closing env h)
      | @unsupported req c₀ hreq hinit hfin =>
          obtain rfl : p = (u, env.send) := by simpa using hp
          simp only [hsame.sendBl] at hdec
          exact absurd ⟨reply, c, hdec, htype⟩ ((hkind req c₀ hreq).2 hinit hfin)

/-- A request of another type, served while `send_bl` announces a region, announces it again. -/
lemma not_truthful_of_unsupported {env : ServeEnv} {h : RPMAHandler} {req : RwlReplicaRequest}
    {c : Wire.Cursor} (hreq : RwlReplicaRequest.decode h.recvBl.cbegin = .ok (req, c))
    (hinit : req.type ≠ rwlReplicaInitRequest) (hfin : req.type ≠ rwlReplicaFinishedRequest)
    (hstale : HoldsSuccess h.sendBl) : ¬Truthful env h := by
  intro htruth
  obtain ⟨-, -, u, hsame, hsends⟩ := (served env h).of_unsupported hreq hinit hfin
  obtain ⟨reply, c', hdec, htype⟩ := hstale
  rw [← hsame.sendBl] at hdec
  have hmem : (u, env.send) ∈ sentBy (dealRequire env h).calls := by
    rw [hsends]
    exact List.mem_singleton_self _
  obtain ⟨⟨req', c'', hreq', htype'⟩, -⟩ := htruth _ hmem reply c' hdec htype
  obtain ⟨rfl, -⟩ := Prod.mk.inj (Except.ok.inj (hreq.symm.trans hreq'))
  exact hinit htype'

end RPMAHandler

namespace Session

open RPMAHandler

/-- The request is answered by a reply of its own. -/
def InKind (s : Session) : SessionAct → Prop
  | .request content env => AnswersInKind env (s.receiving content)
  | .destroy => True

/-- What is sent for the request is true. -/
def SaysTruth (s : Session) : SessionAct → Prop
  | .request content env => Truthful env (s.receiving content)
  | .destroy => True

/-- **When replies are truthful.**  In a run all of whose requests are answered by a reply of
their own, whenever a message that is sent announces a region, the request it answers is an
INIT request, its registration returned 0, and the announced descriptor is that of the
region registered now. -/
theorem replies_truthful (sendBl recvBl : MsgBuf) (size : UInt64) (as : List SessionAct)
    (hkind : machine.Meets InKind (create sendBl recvBl size) as) :
    machine.Meets SaysTruth (create sendBl recvBl size) as := by
  intro bs a t hbs ht
  have ha := hkind bs a t hbs ht
  cases a with
  | request content env => exact (served env (t.receiving content)).truthful ha
  | destroy => trivial

lemma afterSample_holdsSuccess : HoldsSuccess afterSample.handler.sendBl := by
  rw [afterSample_served.2.1]
  have hread := (initReply sampleDesc).reads_encode (length_sampleReply.trans (by decide))
  exact ⟨initReply sampleDesc, _, hread.memcpy _ length_sampleReply.le, rfl⟩

/-- A FINISHED request. -/
def finishing : RwlReplicaRequest := ⟨rwlReplicaFinishedRequest⟩

lemma length_finishing : finishing.encode.length < msgSize := by
  rw [RwlReplicaRequest.length_encode]
  decide

def finishingContent : MsgBuf := holding finishing.encode length_finishing

/-- A second INIT request, for 128 bytes and another image. -/
def otherInit : RwlReplicaInitRequest := ⟨⟨rwlReplicaInitRequest⟩, ⟨2, 128, [112], [106]⟩⟩

lemma length_otherInit : otherInit.encode.length < msgSize := by
  rw [RwlReplicaInitRequest.length_encode]
  decide

/-- The buffer with that request. -/
def otherContent : MsgBuf := holding otherInit.encode length_otherInit

/-- The connection of `afterSample`, when the FINISHED request has been served. -/
def afterFinishing : Session := afterSample.serve finishingContent (working [7])

lemma run_afterFinishing : machine.Run (create .zero .zero 0)
    [.request sampleContent (working [7]), .request finishingContent (working [7])]
    afterFinishing :=
  run_afterSample.snoc (machine_request afterSample_served.1 _ _)

lemma afterFinishing_served : afterFinishing.ended = false ∧
    afterFinishing.handler.dataManager.data = none := by
  obtain ⟨c, hreq⟩ := decode_holding_base finishing length_finishing
  obtain ⟨hres, hsame, -⟩ :=
    (served (working [7]) (afterSample.receiving finishingContent)).of_finished hreq rfl
  rw [afterFinishing, ended_serve, hres, handler_serve, hsame.dataManager]
  exact ⟨rfl, rfl⟩

/-- Where every call succeeds, an INIT request is answered by a reply of its own. -/
lemma inKind_working (s : Session) {init : RwlReplicaInitRequest}
    (htype : init.type = rwlReplicaInitRequest) (hlen : init.encode.length < msgSize) :
    s.InKind (.request (holding init.encode hlen) (working [7])) := by
  intro req c hreq
  obtain ⟨⟨c', hreq'⟩, -⟩ := decode_holding_init init hlen
  obtain ⟨rfl, -⟩ := Prod.mk.inj (Except.ok.inj (hreq'.symm.trans hreq))
  refine ⟨?_, fun hne => absurd htype hne⟩
  intro _ init c'' h' _ halloc
  refine ⟨fun _ => ⟨rfl, rfl⟩, fun hreg => absurd ?_ hreg⟩
  refine ⟨⟨[7], rfl⟩, ?_⟩
  cases h'.dataManager.isPmem <;> rfl

/-- A connection tells the truth that serves an INIT request, a FINISHED request, and another INIT
request. -/
theorem replies_truthful_after_init :
    ∃ u, machine.Run (create .zero .zero 0) [.request sampleContent (working [7]),
        .request finishingContent (working [7]), .request otherContent (working [7])] u ∧
      machine.Meets SaysTruth (create .zero .zero 0) [.request sampleContent (working [7]),
        .request finishingContent (working [7]), .request otherContent (working [7])] := by
  have run := run_afterFinishing.snoc (machine_request afterFinishing_served.1 otherContent
    (working [7]))
  refine ⟨_, run, replies_truthful .zero .zero 0 _ (Machine.meets_of_forall fun a ha t => ?_)⟩
  simp only [List.mem_cons, List.not_mem_nil, or_false] at ha
  rcases ha with rfl | rfl | rfl
  · exact t.inKind_working rfl length_sampleInit
  · intro req c hreq
    obtain ⟨c', hreq'⟩ := decode_holding_base finishing length_finishing
    obtain ⟨rfl, -⟩ := Prod.mk.inj (Except.ok.inj (hreq'.symm.trans hreq))
    exact ⟨fun htype => absurd htype (by decide), fun _ hne => absurd rfl hne⟩
  · exact t.inKind_working rfl length_otherInit

/-- A request of a type that is not supported. -/
def unsupported : RwlReplicaRequest := ⟨7⟩

lemma length_unsupported : unsupported.encode.length < msgSize := by
  rw [RwlReplicaRequest.length_encode]
  decide

/-- The buffer with such a request. -/
def unsupportedContent : MsgBuf := holding unsupported.encode length_unsupported

/-- **An old success sent again.**  After an INIT request that succeeded, a request of an
unsupported type is answered with the success message of the INIT request. -/
theorem unsupported_answered_with_success :
    ∃ t u, machine.Run (create .zero .zero 0) [.request sampleContent (working [7])] t ∧
      machine.step t (.request unsupportedContent (working [7])) = some u ∧
      ¬t.SaysTruth (.request unsupportedContent (working [7])) := by
  refine ⟨afterSample, _, run_afterSample, machine_request afterSample_served.1 _ _, ?_⟩
  obtain ⟨c, hreq⟩ := decode_holding_base unsupported length_unsupported
  have hreq' : RwlReplicaRequest.decode (afterSample.receiving unsupportedContent).recvBl.cbegin =
      .ok (unsupported, c) := by
    rw [recvBl_receiving]
    exact hreq
  refine not_truthful_of_unsupported hreq' (by decide) (by decide) ?_
  rw [sendBl_receiving]
  exact afterSample_holdsSuccess

/-! ### Which region an INIT request is given -/

/-- The region that a request leaves in place, if `held` was there before: an INIT request
gets memory only if there is none, and a FINISHED request gives it back. -/
def heldAfter (held : Option RwlCacheInfo) : SessionAct → Option RwlCacheInfo
  | .request content env =>
    match RwlReplicaRequest.decode content.cbegin with
    | .error _ => held
    | .ok (req, _) =>
      if req.type = rwlReplicaInitRequest then
        match held with
        | some info => some info
        | none =>
          match RwlReplicaInitRequest.decode content.cbegin with
          | .error _ => none
          | .ok (init, _) =>
            if MemoryManager.CanAllocate env.mem init.info.cacheSize then some init.info else none
      else if req.type = rwlReplicaFinishedRequest then none
      else held
  | .destroy => none

/-- What the region in place after some requests was asked for: by the first INIT request that
got memory since the beginning, or since the last FINISHED request. -/
def heldBy (as : List SessionAct) : Option RwlCacheInfo := as.foldl heldAfter none

/-- The memory manager holds the region that was asked for. -/
def Holds (m : MemoryManager) : Option RwlCacheInfo → Prop
  | none => m.data = none
  | some info => m.data ≠ none ∧ m.size = info.cacheSize ∧
      m.path = MemoryManager.mountPath (poolPath info)

lemma Holds.eq_none {m : MemoryManager} {held : Option RwlCacheInfo} (hheld : Holds m held)
    (hdata : m.data = none) : held = none := by
  cases held with
  | none => rfl
  | some info => exact absurd hdata hheld.1

/-- `get_descriptor_for_write` leaves the region in place, or gets the one that is asked for. -/
lemma holds_initAnswer {env : ServeEnv} {h s : RPMAHandler} {r : Except Stop ℤ}
    {held : Option RwlCacheInfo} {req : RwlReplicaRequest} {c : Wire.Cursor}
    (hans : InitAnswer env h r s) (hheld : Holds h.dataManager held)
    (hreq : RwlReplicaRequest.decode h.recvBl.cbegin = .ok (req, c))
    (htype : req.type = rwlReplicaInitRequest) :
    Holds s.dataManager (heldAfter held (.request h.recvBl env)) := by
  simp only [heldAfter, hreq, htype, if_true]
  cases hans with
  | malformed hinit => cases held <;> simpa [hinit] using hheld
  | unallocated hinit hdata hacc hmal =>
      obtain rfl := hheld.eq_none hdata
      simp [hinit, MemoryManager.CanAllocate, hacc, hmal, Holds]
  | registered hinit halloc hreg =>
      rw [hreg.dataManager]
      cases halloc with
      | kept hdata =>
          cases held with
          | none => simp [Holds, hdata] at hheld
          | some info => exact hheld
      | mapped hdata hacc =>
          obtain rfl := hheld.eq_none hdata
          simp [hinit, MemoryManager.CanAllocate, hacc, Holds]
      | allocated hdata hacc hmal =>
          obtain rfl := hheld.eq_none hdata
          simp [hinit, MemoryManager.CanAllocate, hmal, Holds]

lemma holds_answer {env : ServeEnv} {h s : RPMAHandler} {r : Except Stop ℤ}
    {held : Option RwlCacheInfo} {sends : List (RPMAHandler × Rpma Unit)}
    (hans : Answer env h r s sends) (hheld : Holds h.dataManager held) :
    Holds s.dataManager (heldAfter held (.request h.recvBl env)) := by
  cases hans with
  | malformed hreq => simpa [heldAfter, hreq] using hheld
  | init hreq htype hans _ => exact holds_initAnswer hans hheld hreq htype
  | finished hreq htype hs _ =>
      have hne : ¬rwlReplicaFinishedRequest = rwlReplicaInitRequest := by decide
      simp [heldAfter, hreq, htype, hne, Holds, hs.dataManager, closing]
  | unsupported hreq hinit hfin => simpa [heldAfter, hreq, hinit, hfin] using hheld

lemma holds_served {env : ServeEnv} {h t : RPMAHandler} {r : Except Stop Unit}
    {held : Option RwlCacheInfo} {sends : List (RPMAHandler × Rpma Unit)}
    (hserved : Served env h r t sends) (hheld : Holds h.dataManager held) :
    Holds t.dataManager (heldAfter held (.request h.recvBl env)) := by
  cases hserved with
  | stopped hans => exact holds_answer hans hheld
  | answered hans hsame _ =>
      rw [hsame.dataManager]
      exact holds_answer hans hheld

/-- The region in place is the one that the requests so far have left there. -/
lemma holds_heldBy {sendBl recvBl : MsgBuf} {size : UInt64} {as : List SessionAct} {s : Session}
    (hrun : machine.Run (create sendBl recvBl size) as s) :
    Holds s.handler.dataManager (heldBy as) := by
  generalize hs₀ : create sendBl recvBl size = s₀ at hrun
  induction hrun with
  | nil =>
      subst hs₀
      rfl
  | @snoc t u as a hrun hstep ih =>
      rw [heldBy, List.foldl_append]
      rcases step_cases hstep with ⟨content, env, rfl, rfl⟩ | ⟨rfl, rfl⟩
      · exact holds_served (served env (t.receiving content)) ih
      · exact congrArg MemoryManager.data (RPMAHandler.destroy_eq t.handler).2

/-- **Which region an INIT request is given.**  After any requests, an INIT request that is
answered by 0 is given the region that was asked for by the first INIT request that got
memory since the connection began, or since the last FINISHED request; so it is given the
region it asked for if no region was held when it arrived.  The region is registered as it
is. -/
theorem region_given (sendBl recvBl : MsgBuf) (size : UInt64) (as : List SessionAct) (s : Session)
    (content : MsgBuf) (env : ServeEnv) (init : RwlReplicaInitRequest) (c : Wire.Cursor)
    (hrun : machine.Run (create sendBl recvBl size) as s)
    (htype : (s.receiving content).IsInit)
    (hinit : RwlReplicaInitRequest.decode content.cbegin = .ok (init, c))
    (hret : (getDescriptorForWrite env (s.receiving content)).result = .ok 0) :
    (s.serve content env).handler.dataManager.size = ((heldBy as).getD init.info).cacheSize ∧
    (s.serve content env).handler.dataManager.path =
      MemoryManager.mountPath (poolPath ((heldBy as).getD init.info)) ∧
    (s.handler.dataManager.data = none → heldBy as = none) ∧
    (s.handler.dataManager.data ≠ none →
      (s.serve content env).handler.dataManager = s.handler.dataManager) ∧
    ∃ mr, (s.serve content env).handler.dataMr = some mr ∧
      mr.ptr = (s.serve content env).handler.dataManager.data ∧
      mr.size = (s.serve content env).handler.dataManager.size := by
  obtain ⟨req, c₀, hreq, htype⟩ := htype
  have hheld := holds_heldBy hrun
  obtain ⟨h', d, halloc, hman, hmr⟩ :=
    (served env (s.receiving content)).of_init_zero hreq htype hinit hret
  rw [← handler_serve] at hman hmr
  have hregion : h'.dataManager.size = ((heldBy as).getD init.info).cacheSize ∧
      h'.dataManager.path = MemoryManager.mountPath (poolPath ((heldBy as).getD init.info)) ∧
      (s.handler.dataManager.data ≠ none → h'.dataManager = s.handler.dataManager) := by
    cases halloc with
    | kept hdata =>
        rw [dataManager_receiving] at hdata
        cases hby : heldBy as with
        | none =>
            rw [hby] at hheld
            simp [Holds, hdata] at hheld
        | some info =>
            rw [hby] at hheld
            exact ⟨hheld.2.1, hheld.2.2, fun _ => rfl⟩
    | mapped hdata _ =>
        rw [hheld.eq_none hdata]
        exact ⟨rfl, rfl, fun hne => absurd hdata hne⟩
    | allocated hdata _ _ =>
        rw [hheld.eq_none hdata]
        exact ⟨rfl, rfl, fun hne => absurd hdata hne⟩
  obtain ⟨hsize, hpath, hkept⟩ := hregion
  rw [hman]
  exact ⟨hsize, hpath, fun hdata => hheld.eq_none hdata, hkept, _, hmr, rfl, rfl⟩

/-- The first INIT request after a FINISHED request is given what it asked for, not what was asked
for before. -/
theorem region_given_first :
    ∃ t, machine.Run (create .zero .zero 0)
        [.request sampleContent (working [7]), .request finishingContent (working [7])] t ∧
      (t.serve otherContent (working [7])).handler.dataManager.size = 128 ∧
      (t.serve otherContent (working [7])).handler.dataManager.path =
        MemoryManager.mountPath (poolPath otherInit.info) := by
  obtain ⟨⟨c, hreq⟩, c', hinit⟩ := decode_holding_init otherInit length_otherInit
  have hdata := afterFinishing_served.2
  have hdata' : (afterFinishing.receiving otherContent).dataManager.data = none := by
    rw [dataManager_receiving, hdata]
  have hret : (getDescriptorForWrite (working [7]) (afterFinishing.receiving otherContent)).result =
      .ok 0 := by
    obtain ⟨h', halloc⟩ : ∃ h', Allocation (working [7]).mem otherInit.info
        (afterFinishing.receiving otherContent) h' := ⟨_, .allocated hdata' rfl rfl⟩
    exact getDescriptorForWrite_working hinit halloc (by decide)
  obtain ⟨hsize, hpath, hnone, -⟩ := region_given .zero .zero 0 _ _ otherContent (working [7])
    otherInit c' run_afterFinishing ⟨_, c, hreq, rfl⟩ hinit hret
  rw [hnone hdata] at hsize hpath
  exact ⟨_, run_afterFinishing, hsize, hpath⟩

/-- **A region that was asked for by somebody else.**  After an INIT request for 64 bytes, one
for 128 bytes of another image is answered by 0, and given the 64 bytes of the first. -/
theorem second_init_given_first_region :
    ∃ t c, machine.Run (create .zero .zero 0) [.request sampleContent (working [7])] t ∧
      RwlReplicaInitRequest.decode otherContent.cbegin = .ok (otherInit, c) ∧
      (getDescriptorForWrite (working [7]) (t.receiving otherContent)).result = .ok 0 ∧
      (t.serve otherContent (working [7])).handler.dataManager.size = 64 ∧
      otherInit.info.cacheSize = 128 ∧
      (t.serve otherContent (working [7])).handler.dataManager.path =
        MemoryManager.mountPath (poolPath sampleInit.info) := by
  obtain ⟨⟨c, hreq⟩, c', hinit⟩ := decode_holding_init otherInit length_otherInit
  obtain ⟨-, -, hman, -⟩ := afterSample_served
  have hdata : (afterSample.receiving otherContent).dataManager.data = some 4096 := by
    rw [dataManager_receiving, hman]
  have hret : (getDescriptorForWrite (working [7]) (afterSample.receiving otherContent)).result =
      .ok 0 := getDescriptorForWrite_working hinit (.kept hdata) (by decide)
  obtain ⟨h', d, halloc, hman', -⟩ :=
    (served (working [7]) (afterSample.receiving otherContent)).of_init_zero hreq rfl hinit hret
  obtain rfl := halloc.unique (.kept hdata)
  rw [← handler_serve, dataManager_receiving, hman] at hman'
  exact ⟨afterSample, c', run_afterSample, hinit, hret, by rw [hman'], rfl, by rw [hman']⟩

end Session

end RpmaReplica
