import RpmaReplica.RPMAHandler

/-!
# What serving a request can do

One fact for each function of `RPMAHandler`, so that no later proof unfolds them.
`registration` lists the results and final states of `register_mr_to_descriptor`,
`initAnswer` those of `get_descriptor_for_write`, and `answer` and `served` those of
`get_descriptor` and `deal_require`, with the sends they post.  Each list is an inductive
predicate with one constructor for each way through the code.
-/

namespace RpmaReplica

namespace RPMAHandler

/-! ### The descriptors of a reply -/

lemma resize_eq_ok {s t : Bytes} {n : UInt64} (h : resize s n = .ok t) :
    n.toNat ≤ stringMaxSize ∧ t = s.take n.toNat ++ List.replicate (n.toNat - s.length) 0 := by
  rw [resize] at h
  split at h
  · exact ⟨‹_›, (Except.ok.inj h).symm⟩
  · exact absurd h (by simp)

/-- Storing at an offset keeps the length and what lies before the offset. -/
lemma storeAt_eq_ok {s t : Bytes} {off : ℕ} {src : Rpma Bytes} (h : storeAt s off src = .ok t) :
    off ≤ s.length ∧ t.length = s.length ∧ t.take off = s.take off := by
  simp only [storeAt] at h
  cases src with
  | error e =>
      simp only at h
      split at h
      · obtain rfl := Except.ok.inj h
        exact ⟨‹_›, rfl, rfl⟩
      · exact absurd h (by simp)
  | ok bs =>
      simp only at h
      split at h
      · rename_i hle
        obtain rfl := Except.ok.inj h
        have hoff : (s.take off).length = off := by
          rw [List.length_take]
          omega
        refine ⟨by omega, ?_, ?_⟩
        · simp only [List.length_append, hoff, List.length_drop]
          omega
        · rw [List.append_assoc, List.take_append_of_le_length hoff.ge, List.take_take]
          simp
      · exact absurd h (by simp)

/-- If both calls succeed, the string is the descriptor of the region, and the size its
length. -/
lemma describeMr_eq_ok {env : MrEnv} {mr : Bytes} {n : UInt64} {ds : Bytes}
    (hsize : env.mrGetDescriptorSize = .ok ()) (hget : env.mrGetDescriptor = .ok ())
    (h : describeMr env mr = .ok (n, ds)) : n.toNat = mr.length ∧ ds = mr := by
  rw [describeMr] at h
  rw [hsize, hget] at h
  simp only [except_bind_eq_ok] at h
  obtain ⟨s₁, h1, s₂, h2, h3⟩ := h
  obtain ⟨hn, rfl⟩ := Prod.mk.inj (Except.ok.inj h3)
  obtain ⟨-, hs₁⟩ := resize_eq_ok h1
  have hlen : s₁.length = n.toNat := by
    rw [hs₁, hn]
    simp
  have hmod : n.toNat = mr.length % 2 ^ 64 := by
    rw [← hn]
    exact UInt64.toNat_ofNat'
  simp only [storeAt] at h2
  simp only [Except.map, zero_add] at h2
  split at h2
  · rename_i hle
    -- the size wraps around only if the descriptor does not fit the string
    have hn' : n.toNat = mr.length := by
      have := Nat.mod_le mr.length (2 ^ 64)
      omega
    refine ⟨hn', ?_⟩
    obtain rfl := Except.ok.inj h2
    rw [List.drop_eq_nil_of_le (by omega)]
    simp
  · exact absurd h2 (by simp)

/-- The second part keeps the first, and its early return is never 0. -/
lemma describePcfg_cases {env : MrEnv} {isPmem : Bool} {n : UInt64} {ds : Bytes}
    {r : Except ℤ RpmaConfigDescriptor} (h : describePcfg env isPmem n ds = .ok r) :
    (∃ e : RpmaError, configured env isPmem = .error e ∧ r = .error e.code) ∨
    (∃ desc, configured env isPmem = .ok () ∧ r = .ok desc ∧ desc.mrDescSize = n.toUInt32 ∧
      n.toNat ≤ desc.descriptors.length ∧
      (ds.length = n.toNat → desc.descriptors.take n.toNat = ds)) := by
  rw [describePcfg] at h
  split at h
  · rename_i e he
    exact .inl ⟨e, he, (Except.ok.inj h).symm⟩
  · rename_i u hcfg
    right
    simp only [except_bind_eq_ok] at h
    obtain ⟨s₁, h1, s₂, h2, h3⟩ := h
    obtain rfl := Except.ok.inj h3
    obtain ⟨hle, hlen, htake⟩ := storeAt_eq_ok h2
    refine ⟨_, hcfg, rfl, rfl, hle.trans hlen.ge, fun hds => ?_⟩
    obtain ⟨-, rfl⟩ := resize_eq_ok h1
    -- the string was not cut below the first part, or the second could not have been stored
    simp only [List.length_append, List.length_take, List.length_replicate] at hle
    rw [htake, List.take_append_of_le_length (by rw [List.length_take]; omega), List.take_take,
      ← hds, List.take_of_length_le (by omega)]

/-- The early return of `describe` is the error of the configuration, which is never 0. -/
lemma describe_error {env : MrEnv} {op : RpmaOpcode} {isPmem : Bool} {mr : Bytes} {ret : ℤ}
    (h : describe env op isPmem mr = .ok (.error ret)) :
    configured env isPmem ≠ .ok () ∧ ret ≠ 0 := by
  rw [describe] at h
  obtain ⟨⟨n, ds⟩, -, h⟩ := except_bind_eq_ok.1 h
  simp only at h
  split at h
  · rcases describePcfg_cases h with ⟨e, hcfg, he⟩ | ⟨desc, -, hdesc, -⟩
    · obtain rfl := Except.error.inj he
      exact ⟨by simp [hcfg], e.code_ne_zero⟩
    · exact absurd hdesc (by simp)
  · exact absurd (Except.ok.inj h) (by simp)

/-- A reply for `FLUSH` is built only if the configuration could be set. -/
lemma describe_ok_configured {env : MrEnv} {isPmem : Bool} {mr : Bytes}
    {desc : RpmaConfigDescriptor} (h : describe env .flush isPmem mr = .ok (.ok desc)) :
    configured env isPmem = .ok () := by
  rw [describe] at h
  obtain ⟨⟨n, ds⟩, -, h⟩ := except_bind_eq_ok.1 h
  simp only [if_true] at h
  rcases describePcfg_cases h with ⟨e, -, he⟩ | ⟨desc, hcfg, -⟩
  · exact absurd he (by simp)
  · exact hcfg

/-- A reply built with working descriptor calls starts with the descriptor of the region. -/
lemma describe_ok_mr {env : MrEnv} {op : RpmaOpcode} {isPmem : Bool} {mr : Bytes}
    {desc : RpmaConfigDescriptor} (hsize : env.mrGetDescriptorSize = .ok ())
    (hget : env.mrGetDescriptor = .ok ()) (h : describe env op isPmem mr = .ok (.ok desc))
    (hlen : (initReply desc).encode.length < msgSize) :
    desc.descriptors.take desc.mrDescSize.toNat = mr := by
  rw [describe] at h
  obtain ⟨⟨n, ds⟩, hmr, hrest⟩ := except_bind_eq_ok.1 h
  obtain ⟨hn, rfl⟩ := describeMr_eq_ok hsize hget hmr
  have hsmall : desc.descriptors.length < 4068 := by
    rw [RwlReplicaInitRequestReply.length_encode] at hlen
    simp only [initReply, msgSize] at hlen
    omega
  -- the size fits the 32 bits of the reply's field
  have htrunc : n.toNat < 4068 → n.toUInt32.toNat = n.toNat := by
    intro hlt
    rw [UInt64.toNat_toUInt32]
    omega
  simp only at hrest
  split at hrest
  · rcases describePcfg_cases hrest with ⟨e, -, he⟩ | ⟨desc', -, hdesc, hsz, hle, htake⟩
    · exact absurd he (by simp)
    · obtain rfl := Except.ok.inj hdesc
      rw [hsz, htrunc (by omega)]
      exact htake hn.symm
  · obtain rfl := Except.ok.inj (Except.ok.inj hrest)
    simp only at hsmall ⊢
    rw [htrunc (by omega), hn, List.take_length]

lemma describeMr_of_ok {env : MrEnv} {mr : Bytes} (hsize : env.mrGetDescriptorSize = .ok ())
    (hget : env.mrGetDescriptor = .ok ()) (hlen : mr.length < 4068) :
    describeMr env mr = .ok (UInt64.ofNat mr.length, mr) := by
  have hn : (UInt64.ofNat mr.length).toNat = mr.length :=
    UInt64.toNat_ofNat_of_lt' (by simp [UInt64.size]; omega)
  have hresize : resize [] (UInt64.ofNat mr.length) = .ok (List.replicate mr.length 0) := by
    rw [resize]
    rw [if_pos (by rw [hn, stringMaxSize]; omega), hn]
    simp
  have hstore : storeAt (List.replicate mr.length 0) 0 (.ok mr) = .ok mr := by
    simp [storeAt]
  rw [describeMr]
  rw [hsize, hget]
  refine except_bind_eq_ok.2 ⟨_, hresize, except_bind_eq_ok.2 ⟨mr, hstore, rfl⟩⟩

/-- With working calls the reply holds the two descriptors one behind the other. -/
lemma describe_flush {env : MrEnv} (henv : env.Describes) (isPmem : Bool) (mr : Bytes)
    (hlen : mr.length + (env.peerCfgDescriptor isPmem).length < 4068) :
    describe env .flush isPmem mr =
      .ok (.ok ⟨UInt32.ofNat mr.length, UInt32.ofNat (env.peerCfgDescriptor isPmem).length,
        mr ++ env.peerCfgDescriptor isPmem⟩) := by
  obtain ⟨pcfg, hpcfg⟩ : ∃ pcfg, pcfg = env.peerCfgDescriptor isPmem := ⟨_, rfl⟩
  rw [← hpcfg] at hlen ⊢
  have hset : configured env isPmem = .ok () := by
    cases isPmem <;> simp [configured, onPcfg, henv.peerCfgNew, henv.peerCfgSetDirectWriteToPmem]
  have hn : (UInt64.ofNat mr.length).toNat = mr.length :=
    UInt64.toNat_ofNat_of_lt' (by simp [UInt64.size]; omega)
  have hsum : (UInt64.ofNat mr.length + UInt64.ofNat pcfg.length).toNat =
      mr.length + pcfg.length := by
    rw [← UInt64.ofNat_add]
    exact UInt64.toNat_ofNat_of_lt' (by simp [UInt64.size]; omega)
  have hresize : resize mr (UInt64.ofNat mr.length + UInt64.ofNat pcfg.length) =
      .ok (mr ++ List.replicate pcfg.length 0) := by
    rw [resize]
    rw [if_pos (by rw [hsum, stringMaxSize]; omega), hsum, List.take_of_length_le (by omega)]
    simp
  have hstore : storeAt (mr ++ List.replicate pcfg.length 0) mr.length (.ok pcfg) =
      .ok (mr ++ pcfg) := by
    simp [storeAt]
  rw [describe]
  refine except_bind_eq_ok.2 ⟨_, describeMr_of_ok henv.mrGetDescriptorSize henv.mrGetDescriptor
    (by omega), ?_⟩
  simp only [if_true, describePcfg, hset]
  simp only [onPcfg, henv.peerCfgNew, henv.peerCfgGetDescriptorSize, henv.peerCfgGetDescriptor,
    sizeOr, Except.map, ← hpcfg]
  refine except_bind_eq_ok.2 ⟨_, hresize, except_bind_eq_ok.2 ⟨mr ++ pcfg, ?_, ?_⟩⟩
  · rw [hn]
    exact hstore
  · rw [UInt64.toUInt32_ofNat', UInt64.toUInt32_ofNat']
    rfl

/-! ### What registration can do -/

/-- A region registered for flushing is persistent exactly if its memory is. -/
lemma mrUsage_flush_persistent (isPmem : Bool) :
    mrUsage .flush isPmem &&& rpmaMrUsageFlushTypePersistent ≠ 0 ↔ isPmem = true := by
  cases isPmem <;> decide

lemma resetDataMr_eq (mr : Option MrLocal) (h : RPMAHandler) :
    (resetDataMr mr h).result = .ok () ∧ (resetDataMr mr h).state = { h with dataMr := mr } := by
  rw [resetDataMr]
  cases hmr : h.dataMr <;> simp [hmr]

lemma resetDataMr_only (mr : Option MrLocal) :
    Exec.Only Call.IsRegistration (resetDataMr mr) := by
  refine .bind .read fun h => .bind (.update _) fun _ => ?_
  cases h.dataMr with
  | none => exact .ret _
  | some old => exact .call trivial

lemma register_only (env : MrEnv) (op : RpmaOpcode) :
    Exec.Only Call.IsRegistration (registerMrToDescriptor env op) := by
  refine .bind .read fun h => .bind (.call trivial) fun _ => ?_
  cases env.mrReg with
  | error e => exact .ret _
  | ok d =>
      refine .bind (resetDataMr_only _) fun _ => ?_
      rcases describe env op h.dataManager.isPmem d with stop | ret | desc
      · exact .stop _
      · exact .ret _
      · exact .bind (.zoom _ (ConnectionHandler.fillSendBl_only _)) fun _ => .ret _

/-- The results and final states that `register_mr_to_descriptor` can have. -/
inductive Registration (env : MrEnv) (op : RpmaOpcode) (h : RPMAHandler) :
    Except Stop ℤ → RPMAHandler → Prop
  /-- The memory is not registered. -/
  | refused {e : RpmaError} (hreg : env.mrReg = .error e) : Registration env op h (.ok e.code) h
  /-- A string could not take a descriptor. -/
  | undescribed {d : Bytes} {stop : Stop} (hreg : env.mrReg = .ok d)
      (hdesc : describe env op h.dataManager.isPmem d = .error stop) :
      Registration env op h (.error stop) { h with dataMr := some (newMr h op d) }
  /-- The peer configuration could not be set: an early return. -/
  | unconfigured {d : Bytes} {ret : ℤ} (hreg : env.mrReg = .ok d)
      (hdesc : describe env op h.dataManager.isPmem d = .ok (.error ret)) :
      Registration env op h (.ok ret) { h with dataMr := some (newMr h op d) }
  /-- The reply does not fit the message buffer. -/
  | oversized {d : Bytes} {desc : RpmaConfigDescriptor} (hreg : env.mrReg = .ok d)
      (hdesc : describe env op h.dataManager.isPmem d = .ok (.ok desc))
      (hlen : ¬(initReply desc).encode.length < msgSize) :
      Registration env op h (.error .aborted) { h with dataMr := some (newMr h op d) }
  | replied {d : Bytes} {desc : RpmaConfigDescriptor} (hreg : env.mrReg = .ok d)
      (hdesc : describe env op h.dataManager.isPmem d = .ok (.ok desc))
      (hlen : (initReply desc).encode.length < msgSize) :
      Registration env op h (.ok 0)
        { h with
          dataMr := some (newMr h op d)
          sendBl := h.sendBl.memcpy (initReply desc).encode hlen.le }

/-- **What registration can do.** -/
theorem registration (env : MrEnv) (op : RpmaOpcode) (h : RPMAHandler) :
    Registration env op h (registerMrToDescriptor env op h).result
      (registerMrToDescriptor env op h).state := by
  rw [registerMrToDescriptor]
  simp only [Exec.bind_apply, Exec.read_apply, Exec.call_apply, Outcome.andThen_ok]
  cases hreg : env.mrReg with
  | error e => exact .refused hreg
  | ok d =>
      obtain ⟨hres, hst⟩ := resetDataMr_eq (some (newMr h op d)) h
      simp only [Exec.bind_apply]
      rw [Outcome.andThen_of_ok hres, hst]
      rcases hdesc : describe env op h.dataManager.isPmem d with stop | ret | desc
      · exact .undescribed hreg hdesc
      · exact .unconfigured hreg hdesc
      · by_cases hlen : (initReply desc).encode.length < msgSize
        · have hfill := ConnectionHandler.fillSendBl_of_lt hlen h.toConnectionHandler
          simp only [Exec.bind_apply, Exec.zoom_apply, base, hfill]
          exact .replied hreg hdesc hlen
        · have hfill := ConnectionHandler.fillSendBl_of_le hlen h.toConnectionHandler
          simp only [Exec.bind_apply, Exec.zoom_apply, base, hfill]
          exact .oversized hreg hdesc hlen

/-! ### What an INIT request can lead to -/

/-- The states in which `get_descriptor_for_write` goes on to the registration: the memory
was there already, or it is new. -/
inductive Allocation (env : MemEnv) (info : RwlCacheInfo) (h : RPMAHandler) : RPMAHandler → Prop
  | kept {a : Addr} (hdata : h.dataManager.data = some a) : Allocation env info h h
  | mapped {f : Mapping} (hdata : h.dataManager.data = none)
      (hacc : MemoryManager.accepted env info.cacheSize = some f) :
      Allocation env info h
        { h with dataManager :=
            ⟨some f.addr, info.cacheSize, true, MemoryManager.mountPath (poolPath info)⟩ }
  | allocated {a : Addr} (hdata : h.dataManager.data = none)
      (hacc : MemoryManager.accepted env info.cacheSize = none) (hmal : env.malloc = some a) :
      Allocation env info h
        { h with dataManager :=
            ⟨some a, info.cacheSize, false, MemoryManager.mountPath (poolPath info)⟩ }

/-- The results and final states that `get_descriptor_for_write` can have. -/
inductive InitAnswer (env : ServeEnv) (h : RPMAHandler) : Except Stop ℤ → RPMAHandler → Prop
  | malformed {e : Wire.DecodeError}
      (hinit : RwlReplicaInitRequest.decode h.recvBl.cbegin = .error e) :
      InitAnswer env h (.error (.thrown (.bufferError e))) h
  | unallocated {init : RwlReplicaInitRequest} {c : Wire.Cursor}
      (hinit : RwlReplicaInitRequest.decode h.recvBl.cbegin = .ok (init, c))
      (hdata : h.dataManager.data = none)
      (hacc : MemoryManager.accepted env.mem init.info.cacheSize = none)
      (hmal : env.mem.malloc = none) :
      InitAnswer env h (.error (.thrown (.runtimeError "memory malloc failed")))
        { h with dataManager :=
            ⟨none, init.info.cacheSize, false, MemoryManager.mountPath (poolPath init.info)⟩ }
  | registered {init : RwlReplicaInitRequest} {c : Wire.Cursor} {h' s : RPMAHandler}
      {r : Except Stop ℤ}
      (hinit : RwlReplicaInitRequest.decode h.recvBl.cbegin = .ok (init, c))
      (halloc : Allocation env.mem init.info h h') (hreg : Registration env.mr .flush h' r s) :
      InitAnswer env h r s

/-- **What an INIT request can lead to.** -/
theorem initAnswer (env : ServeEnv) (h : RPMAHandler) :
    InitAnswer env h (getDescriptorForWrite env h).result (getDescriptorForWrite env h).state := by
  rw [getDescriptorForWrite]
  simp only [Exec.bind_apply, Exec.read_apply, Outcome.andThen_ok]
  rcases hinit : RwlReplicaInitRequest.decode h.recvBl.cbegin with e | ⟨init, c⟩
  · rw [decodeFrom_error hinit]
    exact .malformed hinit
  · rw [decodeFrom_ok hinit]
    simp only [Outcome.andThen_ok]
    cases hdata : h.dataManager.data with
    | some a =>
        simp only [reduceCtorEq, if_false]
        exact .registered hinit (.kept hdata) (registration env.mr .flush h)
    | none =>
        simp only [if_true, Exec.bind_apply, Exec.zoom_apply, manager]
        rcases MemoryManager.init_cases env.mem h.dataManager init.info.cacheSize
          (poolPath init.info) with ⟨f, hacc, hres, hst⟩ | ⟨a, hacc, hmal, hres, hst⟩ |
            ⟨hacc, hmal, hres, hst⟩
        · rw [hres, hst]
          exact .registered hinit (.mapped hdata hacc) (registration env.mr .flush _)
        · rw [hres, hst]
          exact .registered hinit (.allocated hdata hacc hmal) (registration env.mr .flush _)
        · rw [hres, hst]
          exact .unallocated hinit hdata hacc hmal

lemma Allocation.unique {env : MemEnv} {info : RwlCacheInfo} {h s t : RPMAHandler}
    (hs : Allocation env info h s) (ht : Allocation env info h t) : s = t := by
  cases hs with
  | kept hdata =>
      cases ht with
      | kept _ => rfl
      | mapped hdata' _ => simp [hdata'] at hdata
      | allocated hdata' _ _ => simp [hdata'] at hdata
  | mapped hdata hacc =>
      cases ht with
      | kept hdata' => simp [hdata'] at hdata
      | mapped _ hacc' =>
          obtain rfl := Option.some.inj (hacc.symm.trans hacc')
          rfl
      | allocated _ hacc' _ => simp [hacc'] at hacc
  | allocated hdata hacc hmal =>
      cases ht with
      | kept hdata' => simp [hdata'] at hdata
      | mapped _ hacc' => simp [hacc'] at hacc
      | allocated _ _ hmal' =>
          obtain rfl := Option.some.inj (hmal.symm.trans hmal')
          rfl

/-- Whichever memory it is, the rest of the handler is as it was. -/
lemma Allocation.frame {env : MemEnv} {info : RwlCacheInfo} {h s : RPMAHandler}
    (hs : Allocation env info h s) :
    s.toConnectionHandler = h.toConnectionHandler ∧ s.dataMr = h.dataMr := by
  cases hs <;> exact ⟨rfl, rfl⟩

/-- An INIT request that could be decoded and whose memory is there comes to the
registration. -/
lemma InitAnswer.registration {env : ServeEnv} {h h' s : RPMAHandler} {r : Except Stop ℤ}
    {init : RwlReplicaInitRequest} {c : Wire.Cursor} (hans : InitAnswer env h r s)
    (hinit : RwlReplicaInitRequest.decode h.recvBl.cbegin = .ok (init, c))
    (halloc : Allocation env.mem init.info h h') : Registration env.mr .flush h' r s := by
  cases hans with
  | malformed hinit' => simp [hinit'] at hinit
  | unallocated hinit' hdata hacc hmal =>
      obtain ⟨rfl, rfl⟩ := Prod.mk.inj (Except.ok.inj (hinit.symm.trans hinit'))
      cases halloc with
      | kept hdata' => simp [hdata'] at hdata
      | mapped _ hacc' => simp [hacc'] at hacc
      | allocated _ _ hmal' => simp [hmal'] at hmal
  | registered hinit' halloc' hreg =>
      obtain ⟨rfl, rfl⟩ := Prod.mk.inj (Except.ok.inj (hinit.symm.trans hinit'))
      rwa [halloc.unique halloc']

lemma Registration.dataManager {env : MrEnv} {op : RpmaOpcode} {h s : RPMAHandler}
    {r : Except Stop ℤ} (hreg : Registration env op h r s) : s.dataManager = h.dataManager := by
  cases hreg <;> rfl

/-- A registration that returns 0 has registered the memory. -/
lemma Registration.of_zero {env : MrEnv} {op : RpmaOpcode} {h s : RPMAHandler}
    {r : Except Stop ℤ} (hreg : Registration env op h r s) (hr : r = .ok 0) :
    ∃ d, s.dataMr = some (newMr h op d) := by
  cases hreg with
  | refused _ => exact absurd (Except.ok.inj hr) (RpmaError.code_ne_zero _)
  | undescribed _ _ => exact absurd hr (by simp)
  | unconfigured _ hdesc => exact absurd (Except.ok.inj hr) (describe_error hdesc).2
  | oversized _ _ _ => exact absurd hr (by simp)
  | replied _ _ _ => exact ⟨_, rfl⟩

/-- A registration none of whose calls fails and whose reply fits. -/
lemma Registration.eq_replied {env : MrEnv} {op : RpmaOpcode} {h s : RPMAHandler}
    {r : Except Stop ℤ} {d : Bytes} {desc : RpmaConfigDescriptor} (hans : Registration env op h r s)
    (hreg : env.mrReg = .ok d) (hdesc : describe env op h.dataManager.isPmem d = .ok (.ok desc))
    (hlen : (initReply desc).encode.length < msgSize) :
    r = .ok 0 ∧ s =
      { h with
        dataMr := some (newMr h op d)
        sendBl := h.sendBl.memcpy (initReply desc).encode hlen.le } := by
  cases hans with
  | refused hreg' => simp [hreg'] at hreg
  | undescribed hreg' hdesc' =>
      obtain rfl := Except.ok.inj (hreg.symm.trans hreg')
      simp [hdesc'] at hdesc
  | unconfigured hreg' hdesc' =>
      obtain rfl := Except.ok.inj (hreg.symm.trans hreg')
      simp [hdesc'] at hdesc
  | oversized hreg' hdesc' hlen' =>
      obtain rfl := Except.ok.inj (hreg.symm.trans hreg')
      obtain rfl := Except.ok.inj (Except.ok.inj (hdesc.symm.trans hdesc'))
      exact absurd hlen hlen'
  | replied hreg' hdesc' _ =>
      obtain rfl := Except.ok.inj (hreg.symm.trans hreg')
      obtain rfl := Except.ok.inj (Except.ok.inj (hdesc.symm.trans hdesc'))
      exact ⟨rfl, rfl⟩

/-! ### What `close` does -/

lemma length_closeReply (removed : ℤ) : (closeReply removed).encode.length < msgSize := by
  rw [RwlReplicaFinishedRequestReply.encode, RwlReplicaRequest.length_encode]
  decide

/-- What `close_and_remove` returns. -/
def removed (env : ServeEnv) (h : RPMAHandler) : ℤ :=
  if h.dataManager.data = none then 0 else env.mem.remove

/-- The state in which `close` sends: no registration, no memory, the reply in `send_bl`. -/
def closing (env : ServeEnv) (h : RPMAHandler) : RPMAHandler :=
  { h with
    sendBl := h.sendBl.memcpy (closeReply (removed env h)).encode (length_closeReply _).le
    dataManager := { h.dataManager with data := none }
    dataMr := none }

/-- **What `close` does.**  It always returns 0, and it sends the reply itself. -/
lemma close_agree (env : ServeEnv) (h : RPMAHandler) :
    Agree (close env h) ((do
      let _ ← Exec.zoom base (ConnectionHandler.send env.closeSend none)
      return 0 : Prog RPMAHandler ℤ) (closing env h)) := by
  obtain ⟨hr₁, hs₁⟩ := resetDataMr_eq none h
  obtain ⟨hr₂, hs₂⟩ := MemoryManager.closeAndRemove_eq env.mem h.dataManager
  have hfill := ConnectionHandler.fillSendBl_of_lt (length_closeReply (removed env h))
    h.toConnectionHandler
  refine (agree_bind hr₁ (sentBy_eq_nil fun p hp =>
    Call.not_isSend_of_isRegistration (resetDataMr_only none h p hp))).trans ?_
  rw [hs₁]
  have hr₃ : (Exec.zoom manager (MemoryManager.closeAndRemove env.mem)
      { h with dataMr := none }).result = .ok (removed env h) := hr₂
  refine (agree_bind hr₃ ?_).trans ?_
  · exact sentBy_eq_nil fun p hp => Call.not_isSend_of_isMemory
      ((MemoryManager.closeAndRemove_only env.mem).zoom manager _ p hp)
  simp only [Exec.zoom_apply, manager, hs₂]
  refine (agree_bind (a := ()) ?_ ?_).trans ?_
  · simp [base, hfill]
  · simp [base, hfill]
  · simp only [Exec.zoom_apply, base, hfill]
    exact ⟨rfl, rfl, rfl⟩

/-! ### What a request can lead to -/

/-- The two states differ in the operations only. -/
structure SameButOps (h s : RPMAHandler) : Prop where
  sendBl : s.sendBl = h.sendBl
  recvBl : s.recvBl = h.recvBl
  conn : s.conn = h.conn
  dataManager : s.dataManager = h.dataManager
  dataMr : s.dataMr = h.dataMr

lemma SameButOps.trans {h s t : RPMAHandler} (hs : SameButOps h s) (ht : SameButOps s t) :
    SameButOps h t :=
  ⟨ht.sendBl.trans hs.sendBl, ht.recvBl.trans hs.recvBl, ht.conn.trans hs.conn,
    ht.dataManager.trans hs.dataManager, ht.dataMr.trans hs.dataMr⟩

lemma SameButOps.symm {h s : RPMAHandler} (hs : SameButOps h s) : SameButOps s h :=
  ⟨hs.sendBl.symm, hs.recvBl.symm, hs.conn.symm, hs.dataManager.symm, hs.dataMr.symm⟩

lemma zoom_send (res : Rpma Unit) (callback : Option ServerCallback) (h : RPMAHandler) :
    ∃ t, (Exec.zoom base (ConnectionHandler.send res callback) h).result = .ok res.ret ∧
      SameButOps h (Exec.zoom base (ConnectionHandler.send res callback) h).state ∧
      SameButOps h t ∧
      sentBy (Exec.zoom base (ConnectionHandler.send res callback) h).calls = [(t, res)] := by
  obtain ⟨hr, h1, h2, h3⟩ := ConnectionHandler.postOp_frame
    (fun op => .rpmaSend (some op) res) res callback h.toConnectionHandler
  refine ⟨{ h with ops := (h.nextOp, callback) :: h.ops, nextOp := h.nextOp + 1 }, hr,
    ⟨h1, h2, h3, rfl, rfl⟩, ⟨rfl, rfl, rfl, rfl, rfl⟩, ?_⟩
  exact (sentBy_map (fun c => base.set c h) _).trans
    (congrArg _ (ConnectionHandler.sentBy_send res callback h.toConnectionHandler))

/-- The end of `deal_require` returns, concerns operations only, and makes one send. -/
lemma zoom_receiveAndReply (recv send : Rpma Unit) (h : RPMAHandler) :
    (Exec.zoom base (receiveAndReply recv send) h).result = .ok () ∧
      SameButOps h (Exec.zoom base (receiveAndReply recv send) h).state ∧
      ∃ t, SameButOps h t ∧
        sentBy (Exec.zoom base (receiveAndReply recv send) h).calls = [(t, send)] := by
  cases recv with
  | ok _ =>
      refine ⟨rfl, ⟨rfl, rfl, rfl, rfl, rfl⟩, _, ?_, rfl⟩
      exact ⟨rfl, rfl, rfl, rfl, rfl⟩
  | error _ =>
      refine ⟨rfl, ⟨rfl, rfl, rfl, rfl, rfl⟩, _, ?_, rfl⟩
      exact ⟨rfl, rfl, rfl, rfl, rfl⟩

lemma receiveAndReply_only {K : Call → Prop} {recv send : Rpma Unit} (hnew : ∀ op, K (.opNew op))
    (hdelete : ∀ op, K (.opDelete op)) (hrecv : ∀ op, K (.rpmaRecv (some op) recv))
    (hsend : K (.rpmaSend none send)) : Exec.Only K (receiveAndReply recv send) := by
  refine .bind (.bind .read fun _ => .bind (.call (hnew _)) fun _ => .bind (.update _) fun _ =>
    .ret _) fun op => .bind (.call (hrecv op)) fun _ => ?_
  cases recv with
  | ok _ => exact .bind (.update _) fun _ => .call hsend
  | error _ => exact .bind (.call hsend) fun _ => .bind (.call (hdelete op)) fun _ => .update _

/-- The reply that `close` sends, and the state it leaves. -/
lemma close_sends (env : ServeEnv) (h : RPMAHandler) :
    (close env h).result = .ok 0 ∧ SameButOps (closing env h) (close env h).state ∧
      ∃ t, SameButOps (closing env h) t ∧ sentBy (close env h).calls = [(t, env.closeSend)] := by
  obtain ⟨hr, hs, hsent⟩ := close_agree env h
  obtain ⟨t, hr', hsame, ht, hsend⟩ := zoom_send env.closeSend none (closing env h)
  rw [hr, hs, hsent, Exec.bind_apply, Outcome.andThen_of_ok hr']
  simp only [Exec.pure_apply, List.append_nil]
  exact ⟨trivial, hsame, t, ht, hsend⟩

/-- The results, final states and sends that `get_descriptor` can have. -/
inductive Answer (env : ServeEnv) (h : RPMAHandler) :
    Except Stop ℤ → RPMAHandler → List (RPMAHandler × Rpma Unit) → Prop
  | malformed {e : Wire.DecodeError}
      (hreq : RwlReplicaRequest.decode h.recvBl.cbegin = .error e) :
      Answer env h (.error (.thrown (.bufferError e))) h []
  | init {req : RwlReplicaRequest} {c : Wire.Cursor} {r : Except Stop ℤ} {s : RPMAHandler}
      (hreq : RwlReplicaRequest.decode h.recvBl.cbegin = .ok (req, c))
      (htype : req.type = rwlReplicaInitRequest) (hans : InitAnswer env h r s)
      (hres : (getDescriptorForWrite env h).result = r) : Answer env h r s []
  | finished {req : RwlReplicaRequest} {c : Wire.Cursor} {s t : RPMAHandler}
      (hreq : RwlReplicaRequest.decode h.recvBl.cbegin = .ok (req, c))
      (htype : req.type = rwlReplicaFinishedRequest)
      (hs : SameButOps (closing env h) s) (ht : SameButOps (closing env h) t) :
      Answer env h (.ok 0) s [(t, env.closeSend)]
  | unsupported {req : RwlReplicaRequest} {c : Wire.Cursor}
      (hreq : RwlReplicaRequest.decode h.recvBl.cbegin = .ok (req, c))
      (hinit : req.type ≠ rwlReplicaInitRequest)
      (hfinished : req.type ≠ rwlReplicaFinishedRequest) :
      Answer env h (.ok (-1)) h []

section Inversion

variable {env : ServeEnv} {h s : RPMAHandler} {r : Except Stop ℤ}
  {sends : List (RPMAHandler × Rpma Unit)} {req : RwlReplicaRequest} {c : Wire.Cursor}

lemma Answer.of_init (hans : Answer env h r s sends)
    (hreq : RwlReplicaRequest.decode h.recvBl.cbegin = .ok (req, c))
    (htype : req.type = rwlReplicaInitRequest) : InitAnswer env h r s ∧ sends = [] := by
  cases hans with
  | malformed hreq' => simp [hreq'] at hreq
  | init _ _ hans _ => exact ⟨hans, rfl⟩
  | finished hreq' htype' =>
      obtain ⟨rfl, -⟩ := Prod.mk.inj (Except.ok.inj (hreq.symm.trans hreq'))
      exact absurd (htype.symm.trans htype') (by decide)
  | unsupported hreq' hinit =>
      obtain ⟨rfl, -⟩ := Prod.mk.inj (Except.ok.inj (hreq.symm.trans hreq'))
      exact absurd htype hinit

lemma Answer.of_finished (hans : Answer env h r s sends)
    (hreq : RwlReplicaRequest.decode h.recvBl.cbegin = .ok (req, c))
    (htype : req.type = rwlReplicaFinishedRequest) :
    r = .ok 0 ∧ SameButOps (closing env h) s ∧
      ∃ t, SameButOps (closing env h) t ∧ sends = [(t, env.closeSend)] := by
  cases hans with
  | malformed hreq' => simp [hreq'] at hreq
  | init hreq' htype' =>
      obtain ⟨rfl, -⟩ := Prod.mk.inj (Except.ok.inj (hreq.symm.trans hreq'))
      exact absurd (htype.symm.trans htype') (by decide)
  | finished _ _ hs ht => exact ⟨rfl, hs, _, ht, rfl⟩
  | unsupported hreq' _ hfin =>
      obtain ⟨rfl, -⟩ := Prod.mk.inj (Except.ok.inj (hreq.symm.trans hreq'))
      exact absurd htype hfin

lemma Answer.of_unsupported (hans : Answer env h r s sends)
    (hreq : RwlReplicaRequest.decode h.recvBl.cbegin = .ok (req, c))
    (hinit : req.type ≠ rwlReplicaInitRequest) (hfin : req.type ≠ rwlReplicaFinishedRequest) :
    r = .ok (-1) ∧ s = h ∧ sends = [] := by
  cases hans with
  | malformed hreq' => simp [hreq'] at hreq
  | init hreq' htype' =>
      obtain ⟨rfl, -⟩ := Prod.mk.inj (Except.ok.inj (hreq.symm.trans hreq'))
      exact absurd htype' hinit
  | finished hreq' htype' =>
      obtain ⟨rfl, -⟩ := Prod.mk.inj (Except.ok.inj (hreq.symm.trans hreq'))
      exact absurd htype' hfin
  | unsupported _ _ _ => exact ⟨rfl, rfl, rfl⟩

end Inversion

lemma getDescriptorForWrite_only (env : ServeEnv) :
    Exec.Only (fun c => c.IsMemory ∨ c.IsRegistration) (getDescriptorForWrite env) := by
  have hreg : Exec.Only (fun c => c.IsMemory ∨ c.IsRegistration)
      (registerMrToDescriptor env.mr .flush) := (register_only _ _).mono fun _ h => .inr h
  refine .bind .read fun h => .bind (decodeFrom_only _ _) fun init => .ite ?_ hreg
  exact .bind (.zoom _ ((MemoryManager.init_only _ _ _).mono fun _ h => .inl h)) fun _ => hreg

/-- **What a request can lead to.** -/
theorem answer (env : ServeEnv) (h : RPMAHandler) :
    Answer env h (getDescriptor env h).result (getDescriptor env h).state
      (sentBy (getDescriptor env h).calls) := by
  rw [getDescriptor]
  simp only [Exec.bind_apply, Exec.read_apply, Outcome.andThen_ok]
  rcases hreq : RwlReplicaRequest.decode h.recvBl.cbegin with e | ⟨req, c⟩
  · rw [decodeFrom_error hreq]
    exact .malformed hreq
  · rw [decodeFrom_ok hreq]
    simp only [Outcome.andThen_ok, List.nil_append]
    by_cases hinit : req.type = rwlReplicaInitRequest
    · rw [if_pos hinit]
      have hsent : sentBy (getDescriptorForWrite env h).calls = [] := by
        refine sentBy_eq_nil fun p hp => ?_
        rcases getDescriptorForWrite_only env h p hp with hc | hc
        · exact Call.not_isSend_of_isMemory hc
        · exact Call.not_isSend_of_isRegistration hc
      rw [hsent]
      exact .init hreq hinit (initAnswer env h) rfl
    · rw [if_neg hinit]
      by_cases hfin : req.type = rwlReplicaFinishedRequest
      · rw [if_pos hfin]
        obtain ⟨hr, hsame, t, ht, hsent⟩ := close_sends env h
        rw [hr, hsent]
        exact .finished hreq hfin hsame ht
      · rw [if_neg hfin]
        exact .unsupported hreq hinit hfin

/-- The results, final states and sends that `deal_require` can have. -/
inductive Served (env : ServeEnv) (h : RPMAHandler) :
    Except Stop Unit → RPMAHandler → List (RPMAHandler × Rpma Unit) → Prop
  | stopped {stop : Stop} {s : RPMAHandler} {sends : List (RPMAHandler × Rpma Unit)}
      (hans : Answer env h (.error stop) s sends) : Served env h (.error stop) s sends
  | answered {ret : ℤ} {s t u : RPMAHandler} {sends : List (RPMAHandler × Rpma Unit)}
      (hans : Answer env h (.ok ret) s sends) (hsame : SameButOps s t) (hsent : SameButOps s u) :
      Served env h (.ok ()) t (sends ++ [(u, env.send)])

/-- **What serving a request can do.**  If `get_descriptor` returns, whatever it returns,
`deal_require` sends `send_bl` as it was left. -/
theorem served (env : ServeEnv) (h : RPMAHandler) :
    Served env h (dealRequire env h).result (dealRequire env h).state
      (sentBy (dealRequire env h).calls) := by
  have hans := answer env h
  rw [dealRequire]
  rw [Exec.bind_apply]
  cases hres : (getDescriptor env h).result with
  | error stop =>
      rw [Outcome.andThen_of_error hres]
      rw [hres] at hans
      exact .stopped hans
  | ok ret =>
      rw [Outcome.andThen_of_ok hres]
      rw [hres] at hans
      obtain ⟨hr, hsame, u, hsent, hsends⟩ :=
        zoom_receiveAndReply env.recv env.send (getDescriptor env h).state
      rw [hr, sentBy_append, hsends]
      exact .answered hans hsame hsent

section Inversion

variable {env : ServeEnv} {h s : RPMAHandler} {r : Except Stop Unit}
  {sends : List (RPMAHandler × Rpma Unit)} {req : RwlReplicaRequest} {c : Wire.Cursor}

/-- An INIT request none of whose calls fails is answered once, with the new region. -/
lemma Served.of_init {h' : RPMAHandler} {init : RwlReplicaInitRequest} {c' : Wire.Cursor}
    {d : Bytes} {desc : RpmaConfigDescriptor} (hserved : Served env h r s sends)
    (hreq : RwlReplicaRequest.decode h.recvBl.cbegin = .ok (req, c))
    (htype : req.type = rwlReplicaInitRequest)
    (hinit : RwlReplicaInitRequest.decode h.recvBl.cbegin = .ok (init, c'))
    (halloc : Allocation env.mem init.info h h') (hreg : env.mr.mrReg = .ok d)
    (hdesc : describe env.mr .flush h'.dataManager.isPmem d = .ok (.ok desc))
    (hlen : (initReply desc).encode.length < msgSize) :
    r = .ok () ∧ (∃ u, SameButOps s u ∧ sends = [(u, env.send)]) ∧ SameButOps
      { h' with
        dataMr := some (newMr h' .flush d)
        sendBl := h'.sendBl.memcpy (initReply desc).encode hlen.le } s := by
  cases hserved with
  | stopped hans =>
      obtain ⟨hans, -⟩ := hans.of_init hreq htype
      obtain ⟨hr, -⟩ := (hans.registration hinit halloc).eq_replied hreg hdesc hlen
      exact absurd hr (by simp)
  | answered hans hsame hsent =>
      obtain ⟨hinitAns, rfl⟩ := hans.of_init hreq htype
      obtain ⟨-, rfl⟩ := (hinitAns.registration hinit halloc).eq_replied hreg hdesc hlen
      exact ⟨rfl, ⟨_, hsame.symm.trans hsent, rfl⟩, hsame⟩

/-- An INIT request for which `get_descriptor_for_write` returns 0 ends with a registration of
the memory it found or got. -/
lemma Served.of_init_zero {init : RwlReplicaInitRequest} {c' : Wire.Cursor}
    (hserved : Served env h r s sends)
    (hreq : RwlReplicaRequest.decode h.recvBl.cbegin = .ok (req, c))
    (htype : req.type = rwlReplicaInitRequest)
    (hinit : RwlReplicaInitRequest.decode h.recvBl.cbegin = .ok (init, c'))
    (hret : (getDescriptorForWrite env h).result = .ok 0) :
    ∃ h' d, Allocation env.mem init.info h h' ∧ s.dataManager = h'.dataManager ∧
      s.dataMr = some (newMr h' .flush d) := by
  have key : ∀ {r' s'}, InitAnswer env h r' s' → r' = .ok 0 →
      ∃ h' d, Allocation env.mem init.info h h' ∧ s'.dataManager = h'.dataManager ∧
        s'.dataMr = some (newMr h' .flush d) := by
    rintro r' s' hans rfl
    cases hans with
    | registered hinit' halloc hreg =>
        obtain ⟨rfl, -⟩ := Prod.mk.inj (Except.ok.inj (hinit.symm.trans hinit'))
        obtain ⟨d, hmr⟩ := hreg.of_zero rfl
        exact ⟨_, d, halloc, hreg.dataManager, hmr⟩
  cases hserved with
  | stopped hans =>
      cases hans with
      | malformed hreq' => simp [hreq'] at hreq
      | init _ _ _ hres => simp [hres] at hret
  | answered hans hsame _ =>
      obtain ⟨hinitAns, rfl⟩ := hans.of_init hreq htype
      cases hans with
      | init _ _ _ hres =>
          obtain ⟨h', d, halloc, hman, hmr⟩ := key hinitAns (hres.symm.trans hret)
          exact ⟨h', d, halloc, hsame.dataManager.trans hman, hsame.dataMr.trans hmr⟩
      | unsupported hreq' hinit' _ =>
          obtain ⟨rfl, -⟩ := Prod.mk.inj (Except.ok.inj (hreq.symm.trans hreq'))
          exact absurd htype hinit'

/-- A FINISHED request is answered twice, both times with the reply of `close`. -/
lemma Served.of_finished (hserved : Served env h r s sends)
    (hreq : RwlReplicaRequest.decode h.recvBl.cbegin = .ok (req, c))
    (htype : req.type = rwlReplicaFinishedRequest) :
    r = .ok () ∧ SameButOps (closing env h) s ∧
      ∃ t u, SameButOps (closing env h) t ∧ SameButOps (closing env h) u ∧
        sends = [(t, env.closeSend), (u, env.send)] := by
  cases hserved with
  | stopped hans =>
      obtain ⟨hr, -⟩ := hans.of_finished hreq htype
      exact absurd hr (by simp)
  | answered hans hsame hsent =>
      obtain ⟨-, hs, t, ht, rfl⟩ := hans.of_finished hreq htype
      exact ⟨rfl, hs.trans hsame, t, _, ht, hs.trans hsent, rfl⟩

/-- Any other request is answered once, with whatever `send_bl` holds. -/
lemma Served.of_unsupported (hserved : Served env h r s sends)
    (hreq : RwlReplicaRequest.decode h.recvBl.cbegin = .ok (req, c))
    (hinit : req.type ≠ rwlReplicaInitRequest) (hfin : req.type ≠ rwlReplicaFinishedRequest) :
    r = .ok () ∧ SameButOps h s ∧ ∃ u, SameButOps h u ∧ sends = [(u, env.send)] := by
  cases hserved with
  | stopped hans =>
      obtain ⟨hr, -⟩ := hans.of_unsupported hreq hinit hfin
      exact absurd hr (by simp)
  | answered hans hsame hsent =>
      obtain ⟨-, rfl, rfl⟩ := hans.of_unsupported hreq hinit hfin
      exact ⟨rfl, hsame, _, hsent, rfl⟩

end Inversion

/-! ### What destruction does -/

lemma destroy_eq (h : RPMAHandler) :
    (destroy h).state.dataMr = none ∧
      (destroy h).state.dataManager = { h.dataManager with data := none } := by
  obtain ⟨hr₁, hs₁⟩ := resetDataMr_eq none h
  obtain ⟨hr₂, hs₂⟩ := MemoryManager.destroy_eq h.dataManager
  have hr₃ : (Exec.zoom manager MemoryManager.destroy { h with dataMr := none }).result = .ok () :=
    hr₂
  rw [destroy]
  rw [Exec.bind_apply, Outcome.andThen_of_ok hr₁, hs₁]
  rw [Exec.bind_apply, Outcome.andThen_of_ok hr₃]
  exact ⟨rfl, hs₂⟩

/-! ### A request as the client writes it -/

lemma decode_holding_init (init : RwlReplicaInitRequest) (h : init.encode.length < msgSize) :
    (∃ c, RwlReplicaRequest.decode (holding init.encode h).cbegin =
      .ok (init.toRwlReplicaRequest, c)) ∧
    ∃ c, RwlReplicaInitRequest.decode (holding init.encode h).cbegin = .ok (init, c) := by
  have hmsg : init.encode.length < 256 ^ 4 := h.trans (by decide)
  exact ⟨⟨_, (init.reads_base hmsg).memcpy _ h.le⟩, ⟨_, (init.reads_encode hmsg).memcpy _ h.le⟩⟩

lemma decode_holding_base (x : RwlReplicaRequest) (h : x.encode.length < msgSize) :
    ∃ c, RwlReplicaRequest.decode (holding x.encode h).cbegin = .ok (x, c) :=
  ⟨_, x.reads_encode.memcpy _ h.le⟩

/-- The librpma calls all succeed, and nothing is uninitialised. -/
def workingMr (descriptor : Bytes) : MrEnv where
  mrReg := .ok descriptor
  mrGetDescriptorSize := .ok ()
  uninitMrDescSize := 0
  mrGetDescriptor := .ok ()
  peerCfgNew := .ok ()
  peerCfgSetDirectWriteToPmem := .ok ()
  peerCfgGetDescriptorSize := .ok ()
  uninitPcfgDescSize := 0
  peerCfgGetDescriptor := .ok ()
  peerCfgDescriptor := fun direct => [if direct then 1 else 0]
  uninitReplyPcfgDescSize := 0

lemma workingMr_describes (descriptor : Bytes) : (workingMr descriptor).Describes :=
  ⟨rfl, rfl, rfl, rfl, rfl, rfl⟩

/-- A server without pmem on which every call succeeds. -/
def working (descriptor : Bytes) : ServeEnv where
  mem := ⟨false, none, some 4096, 0⟩
  mr := workingMr descriptor
  closeSend := .ok ()
  recv := .ok ()
  send := .ok ()

/-- An INIT request that finds memory in place, or gets it, on a server whose librpma calls
work. -/
lemma getDescriptorForWrite_working {h h' : RPMAHandler} {mem : MemEnv}
    {init : RwlReplicaInitRequest} {c : Wire.Cursor} {d : Bytes} {sends : Rpma Unit}
    (hinit : RwlReplicaInitRequest.decode h.recvBl.cbegin = .ok (init, c))
    (halloc : Allocation mem init.info h h') (hd : d.length < 4067) :
    (getDescriptorForWrite ⟨mem, workingMr d, sends, sends, sends⟩ h).result = .ok 0 := by
  have hlen : d.length + ((workingMr d).peerCfgDescriptor h'.dataManager.isPmem).length < 4068 := by
    simp only [workingMr, List.length_singleton]
    omega
  have hdesc := describe_flush (workingMr_describes d) h'.dataManager.isPmem d hlen
  have hans := initAnswer ⟨mem, workingMr d, sends, sends, sends⟩ h
  refine ((hans.registration hinit halloc).eq_replied rfl hdesc ?_).1
  rw [RwlReplicaInitRequestReply.length_encode]
  simp only [initReply, List.length_append, msgSize]
  omega

/-- An INIT request for 64 bytes. -/
def sampleInit : RwlReplicaInitRequest := ⟨⟨rwlReplicaInitRequest⟩, ⟨1, 64, [112], [105]⟩⟩

lemma length_sampleInit : sampleInit.encode.length < msgSize := by
  rw [RwlReplicaInitRequest.length_encode]
  decide

/-- The buffer with that request. -/
def sampleContent : MsgBuf := holding sampleInit.encode length_sampleInit

/-- The reply to that request. -/
def sampleDesc : RpmaConfigDescriptor := ⟨1, 1, [7, 0]⟩

lemma length_sampleReply : (initReply sampleDesc).encode.length < msgSize := by
  rw [RwlReplicaInitRequestReply.length_encode]
  decide

/-- A handler without memory that serves the request on a working server. -/
lemma served_sample {h : RPMAHandler} (hrecv : h.recvBl = sampleContent)
    (hdata : h.dataManager.data = none) :
    (dealRequire (working [7]) h).result = .ok () ∧
      (∃ t, SameButOps (dealRequire (working [7]) h).state t ∧
        sentBy (dealRequire (working [7]) h).calls = [(t, .ok ())]) ∧
      (dealRequire (working [7]) h).state.sendBl =
        h.sendBl.memcpy (initReply sampleDesc).encode length_sampleReply.le ∧
      (dealRequire (working [7]) h).state.dataManager =
        ⟨some 4096, 64, false, MemoryManager.mountPath (poolPath sampleInit.info)⟩ ∧
      (dealRequire (working [7]) h).state.dataMr =
        some ⟨some 4096, 64, mrUsage .flush false, [7]⟩ := by
  obtain ⟨⟨c, hreq⟩, c', hinit⟩ := decode_holding_init sampleInit length_sampleInit
  have hcontent : h.recvBl = holding sampleInit.encode length_sampleInit := hrecv
  rw [← hcontent] at hreq hinit
  obtain ⟨hres, hsends, hsame⟩ := (served (working [7]) h).of_init hreq rfl hinit
    (.allocated hdata rfl rfl) rfl
    (describe_flush (workingMr_describes [7]) false [7] (by decide)) length_sampleReply
  exact ⟨hres, hsends, hsame.sendBl, hsame.dataManager, hsame.dataMr⟩

end RPMAHandler

end RpmaReplica
