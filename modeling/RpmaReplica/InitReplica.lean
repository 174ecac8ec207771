import RpmaReplica.Calling

/-!
# What a returned `init_replica` means

`init_replica` returns 0 as soon as its callback has run, whatever the callback found: the
result of `get_remote_descriptor` is dropped.  `init_replica_usable_iff` says for which
replies the 0 can be relied on.
-/

namespace RpmaReplica

namespace ClientHandler

/-- What a call of `init_replica` that returns 0 has done, with the reply that it got. -/
structure Returned (h : ClientHandler) (d : Delivery) (reply : RwlReplicaInitRequestReply)
    (o : Outcome Call Stop ClientHandler ℤ) : Prop where
  result : o.result = .ok 0
  recvBl : o.state.recvBl = d.content
  imageMr : o.state.imageMr =
    if reply.type = rwlReplicaInitSuccessed then newImageMr d.env reply.desc h.imageMr
    else h.imageMr
  made : ∀ src off len res, .mrRemoteFromDescriptor src off len res ∈ o.calls.map Prod.snd ↔
    .mrRemoteFromDescriptor src off len res ∈ lookCalls d.env reply

lemma initReplica_eq (w : Waiting) (cacheId : UInt32) (cacheSize : UInt64)
    (poolName imageName : Bytes) (h : ClientHandler) :
    initReplica w cacheId cacheSize poolName imageName h =
      let e := exchange w (initRequest cacheId cacheSize poolName imageName).encode .initReply
        { h with imageSize := cacheSize }
      ⟨e.calls, e.state, e.result.map fun l => if l.completed then 0 else -1⟩ := by
  rw [initReplica]
  simp only [Exec.bind_apply, Exec.update_apply, Outcome.andThen_ok, List.nil_append]
  rw [Outcome.andThen]
  cases (exchange w (initRequest cacheId cacheSize poolName imageName).encode .initReply
    { h with imageSize := cacheSize }).result with
  | error e => rfl
  | ok l => simp [Except.map]

/-- What the reply to a waiting `init_replica` does, unless its callback throws. -/
lemma deliver_initReply {call : ℕ} {op : OpId} {h : ClientHandler}
    (hp : Pending call op (.initReply call) h) (d : Delivery) :
    (¬LookedAt d.content ∧ ∃ stop, (deliver op (some d) h).result = .error stop) ∨
    (LookedAt d.content ∧ ∃ reply c,
      RwlReplicaInitRequestReply.decode d.content.cbegin = .ok (reply, c) ∧
      (deliver op (some d) h).result = .ok () ∧
      ((deliver op (some d) h).state.locals call).completed = true ∧
      (deliver op (some d) h).state.recvBl = d.content ∧
      (deliver op (some d) h).state.imageMr =
        (if reply.type = rwlReplicaInitSuccessed then newImageMr d.env reply.desc h.imageMr
          else h.imageMr) ∧
      (deliver op (some d) h).calls.map Prod.snd = lookCalls d.env reply ++ [.opDelete op]) := by
  rw [deliver_alive hp.posted hp.alive d]
  rcases initReply_cases d.env call (starting op d.content h) with
    ⟨hno, stop, hstop⟩ | ⟨hyes, reply, c, hdec, hok, hcalls, hmr, hcalled⟩
  · exact .inl ⟨hno, stop, hstop⟩
  · right
    refine ⟨hyes, reply, c, hdec, hok, hcalled.completed, ?_, hmr, ?_⟩
    · show (runCallback d.env (.initReply call) (starting op d.content h)).state.recvBl = _
      rw [hcalled.base]
      rfl
    · rw [Exec.ensuring_apply, List.map_append, hcalls]
      rfl

/-- **`init_replica` returns 0 exactly if a reply arrives in time and is looked at to the end.** -/
lemma initReplica_cases (w : Waiting) (cacheId : UInt32) (cacheSize : UInt64)
    (poolName imageName : Bytes) (h : ClientHandler) :
    ((initReplica w cacheId cacheSize poolName imageName h).result ≠ .ok 0 ∧
      ¬((initRequest cacheId cacheSize poolName imageName).encode.length < msgSize ∧
        ∃ d, replyTo w = some d ∧ LookedAt d.content)) ∨
    ((initRequest cacheId cacheSize poolName imageName).encode.length < msgSize ∧
      ∃ d reply c, replyTo w = some d ∧ LookedAt d.content ∧
        RwlReplicaInitRequestReply.decode d.content.cbegin = .ok (reply, c) ∧
        Returned h d reply (initReplica w cacheId cacheSize poolName imageName h)) := by
  rw [initReplica_eq]
  set request := (initRequest cacheId cacheSize poolName imageName).encode
  set h0 : ClientHandler := { h with imageSize := cacheSize }
  by_cases hlen : request.length < msgSize
  swap
  · left
    refine ⟨?_, fun hno => hlen hno.1⟩
    simp [exchange_aborted hlen h0, Except.map]
  cases hrecv : w.recv with
  | error e =>
      left
      refine ⟨?_, fun ⟨_, d, hd, _⟩ => by simp [replyTo, hrecv] at hd⟩
      rcases exchange_lost hlen hrecv .initReply h0 with ⟨l, hl, hc⟩ | ⟨e', he⟩
      · simp [hl, hc, Except.map]
      · simp [he, Except.map]
  | ok u =>
      have hreply : replyTo w = received w.uninitCostTime w.turns w.late := by
        simp [replyTo, hrecv]
      have hposts := (postRequest_posts w hlen .initReply h0).2
      rw [exchange_posted hlen hrecv (fun call => .inl rfl) h0, ← hreply]
      simp only
      cases hd : replyTo w with
      | none =>
          left
          refine ⟨?_, by simp⟩
          have hnone : deliver h0.nextOp none
                (postRequest w.recv w.send request .initReply h0).state =
              ⟨[], (postRequest w.recv w.send request .initReply h0).state, .ok ()⟩ := rfl
          rw [hnone]
          simp [Except.map, hposts.waiting]
      | some d =>
          rcases deliver_initReply (hposts.pending u hrecv) d with
            ⟨hno, stop, hstop⟩ | ⟨hyes, reply, c, hdec, hok, hc, hbl, hmr, hcalls⟩
          · left
            refine ⟨?_, ?_⟩
            · simp [hstop, Except.map]
            · rintro ⟨-, d', hd', hlook⟩
              obtain rfl := Option.some.inj hd'
              exact hno hlook
          · right
            refine ⟨hlen, d, reply, c, rfl, hyes, hdec, ?_⟩
            exact {
              result := by simp [hok, hc, Except.map]
              recvBl := by rw [hbl]
              imageMr := by rw [hmr, hposts.imageMr]
              made := by
                intro src off len res
                rw [List.map_append, hcalls]
                have hposted : .mrRemoteFromDescriptor src off len res ∉
                    (postRequest w.recv w.send request .initReply h0).calls.map Prod.snd := by
                  intro hmem
                  obtain ⟨p, hp, hcall⟩ := List.mem_map.1 hmem
                  exact postRequest_only _ _ _ _ h0 p hp src off len res hcall
                simp [hposted] }

/-- The replica can be used: the reply received announces a region, the region was made from
its descriptor in this call and is the one that `write` will use, and it is large enough. -/
def UsableReplica (cacheSize : UInt64) (o : Outcome Call Stop ClientHandler ℤ) : Prop :=
  ∃ reply c mr, RwlReplicaInitRequestReply.decode o.state.recvBl.cbegin = .ok (reply, c) ∧
    reply.type = rwlReplicaInitSuccessed ∧
    .mrRemoteFromDescriptor reply.desc.descriptors 0 reply.desc.mrDescSize.toNat (.ok mr) ∈
      o.calls.map Prod.snd ∧
    o.state.imageMr = some mr ∧ cacheSize ≤ mr.size

/-- A reply announces a region that librpma accepts and that is large enough. -/
def AnnouncesRegion (cacheSize : UInt64) (d : Delivery) : Prop :=
  ∃ reply c mr, RwlReplicaInitRequestReply.decode d.content.cbegin = .ok (reply, c) ∧
    reply.type = rwlReplicaInitSuccessed ∧
    d.env.mrRemoteFromDescriptor (mrRange d.env reply.desc) = .ok mr ∧ cacheSize ≤ mr.size

/-- **When the 0 of `init_replica` can be relied on.**  Nothing that the callback finds out
reaches the result, so it can be relied on exactly if the reply that is looked at is a good
one. -/
theorem init_replica_usable_iff (w : Waiting) (cacheId : UInt32) (cacheSize : UInt64)
    (poolName imageName : Bytes) (h : ClientHandler) :
    ((initReplica w cacheId cacheSize poolName imageName h).result = .ok 0 →
      UsableReplica cacheSize (initReplica w cacheId cacheSize poolName imageName h)) ↔
    ((initRequest cacheId cacheSize poolName imageName).encode.length < msgSize →
      ∀ d, replyTo w = some d → LookedAt d.content → AnnouncesRegion cacheSize d) := by
  rcases initReplica_cases w cacheId cacheSize poolName imageName h with
    ⟨hres, hno⟩ | ⟨hlen, d, reply, c, hd, hlook, hdec, hret⟩
  · -- it does not return 0, and there was no reply to look at
    exact iff_of_true (fun h0 => absurd h0 hres)
      fun hlen d hd hlook => absurd ⟨hlen, d, hd, hlook⟩ hno
  constructor
  · intro husable _ d' hd' _
    obtain rfl := Option.some.inj (hd.symm.trans hd')
    obtain ⟨reply', c', mr, hdec', htype, hmade, -, hsize⟩ := husable hret.result
    rw [hret.recvBl] at hdec'
    obtain ⟨rfl, -⟩ := Prod.mk.inj (Except.ok.inj (hdec.symm.trans hdec'))
    exact ⟨reply, c, mr, hdec, htype, mem_lookCalls ((hret.made _ _ _ _).1 hmade), hsize⟩
  · intro hgood _
    obtain ⟨reply', c', mr, hdec', htype, hmr, hsize⟩ := hgood hlen d hd hlook
    obtain ⟨rfl, -⟩ := Prod.mk.inj (Except.ok.inj (hdec.symm.trans hdec'))
    refine ⟨reply, c, mr, ?_, htype, ?_, ?_, hsize⟩
    · rw [hret.recvBl]
      exact hdec
    · rw [hret.made]
      simp [lookCalls, htype, hmr]
    · rw [hret.imageMr, if_pos htype, newImageMr, hmr]

/-- A reply that announces a region of 64 bytes. -/
def smallReply : RwlReplicaInitRequestReply := ⟨⟨rwlReplicaInitSuccessed⟩, ⟨1, 1, [7, 0]⟩⟩

lemma length_smallReply : smallReply.encode.length < msgSize := by
  rw [RwlReplicaInitRequestReply.length_encode]
  decide

/-- It is looked at with every call succeeding. -/
def smallDelivery : Delivery where
  content := holding smallReply.encode length_smallReply
  env := {
    peerCfgFromDescriptor := fun _ => .ok false
    peerCfgGetDirectWriteToPmem := .ok ()
    mrRemoteFromDescriptor := fun _ => .ok ⟨0, 64⟩
    mrRemoteGetSize := .ok ()
    uninitSize := 0
    beyond := fun _ => 0 }

lemma decode_smallDelivery :
    ∃ c, RwlReplicaInitRequestReply.decode smallDelivery.content.cbegin = .ok (smallReply, c) :=
  ⟨_, (smallReply.reads_encode (length_smallReply.trans (by decide))).memcpy _
    length_smallReply.le⟩

/-- It arrives at the first turn of the loop. -/
def smallWaiting : Waiting where
  recv := .ok ()
  send := .ok ()
  uninitCostTime := 0
  turns := [⟨some smallDelivery, 5⟩]
  late := none

/-- A region of 64 bytes is announced to a client that has asked for 128: `init_replica`
returns 0. -/
theorem init_replica_accepts_small_region :
    (initReplica smallWaiting 1 128 [112] [105] created).result = .ok 0 ∧
      ¬UsableReplica 128 (initReplica smallWaiting 1 128 [112] [105] created) := by
  obtain ⟨c, hdec⟩ := decode_smallDelivery
  have hlook : LookedAt smallDelivery.content := ⟨smallReply, c, hdec⟩
  have hfits : (initRequest 1 128 [112] [105]).encode.length < msgSize := by
    rw [RwlReplicaInitRequest.length_encode]
    decide
  rcases initReplica_cases smallWaiting 1 128 [112] [105] created with
    ⟨-, hno⟩ | ⟨-, d, reply, c', hd, -, hdec', hret⟩
  · exact absurd ⟨hfits, smallDelivery, rfl, hlook⟩ hno
  · obtain rfl : smallDelivery = d := Option.some.inj hd
    obtain ⟨rfl, -⟩ := Prod.mk.inj (Except.ok.inj (hdec.symm.trans hdec'))
    refine ⟨hret.result, ?_⟩
    rintro ⟨reply', c'', mr, -, -, -, hmr, hsize⟩
    have himage := hret.imageMr.symm.trans hmr
    obtain rfl : (⟨0, 64⟩ : MrRemote) = mr := Option.some.inj himage
    exact absurd hsize (by decide)

end ClientHandler

end RpmaReplica
