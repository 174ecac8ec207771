import RpmaReplica.Life

/-!
# Receives of the server

The server has one buffer for what it receives.  Its first receive is posted by the constructor
and each further one by the callback of the one before, after the request has been decoded.
`Receipts` counts the receives that are posted and not completed, in terms of the calls made so
far, and says which of the operations alive are receives: those with a callback.
-/

namespace RpmaReplica

open Exec ConnectionHandler

/-! ### Posts that fail -/

/-- A post that has failed. -/
def Call.PostFailed : Call → Prop
  | rpmaRecv _ (.error _) | connReqRecv _ (.error _) | rpmaSend _ (.error _) => True
  | _ => False

/-- Every post has succeeded. -/
def PostsOk (cs : List Call) : Prop := ∀ c ∈ cs, ¬c.PostFailed

namespace ConnectionHandler

/-- There are `k` receives outstanding, besides those that are done; and the operations alive that
have a callback are receives. -/
structure Receipts (done : List OpId) (k : ℕ) (cs : List Call)
    (h : ConnectionHandler ServerCallback) : Prop where
  count : ((recvOps cs).filter (· ∉ done)).length = k
  done_lt : ∀ op ∈ done, op < h.nextOp
  recv_lt : ∀ op ∈ recvOps cs, op < h.nextOp
  ops_lt : ∀ p ∈ h.ops, p.1 < h.nextOp
  callback : ∀ op cb, (op, some cb) ∈ h.ops → op ∈ recvOps cs
  plain : ∀ op, (op, none) ∈ h.ops → op ∉ recvOps cs

variable {done : List OpId} {k : ℕ} {cs : List Call} {h : ConnectionHandler ServerCallback}

lemma receipts_create (sendBl recvBl : MsgBuf) : Receipts [] 0 [] (create sendBl recvBl) where
  count := rfl
  done_lt := by simp
  recv_lt := by simp [recvOps]
  ops_lt := by simp [create]
  callback := by simp [create]
  plain := by simp [create]

/-- A sequence of calls that posts no receive, on a handler with fewer operations. -/
lemma Receipts.congr {ds : List Call} {h' : ConnectionHandler ServerCallback}
    (hr : Receipts done k cs h) (hds : recvOps ds = []) (hops : ∀ p ∈ h'.ops, p ∈ h.ops)
    (hnext : h.nextOp ≤ h'.nextOp) : Receipts done k (cs ++ ds) h' := by
  have hcs : recvOps (cs ++ ds) = recvOps cs := by rw [recvOps_append, hds, List.append_nil]
  refine ⟨?_, fun op hop => (hr.done_lt op hop).trans_le hnext, ?_,
    fun p hp => (hr.ops_lt p (hops p hp)).trans_le hnext, ?_, ?_⟩
  · rw [hcs]
    exact hr.count
  · rw [hcs]
    exact fun op hop => (hr.recv_lt op hop).trans_le hnext
  · rw [hcs]
    exact fun op cb hop => hr.callback op cb (hops _ hop)
  · rw [hcs]
    exact fun op hop => hr.plain op (hops _ hop)

/-- Only the operations matter. -/
lemma Receipts.of_ops {h' : ConnectionHandler ServerCallback} (hr : Receipts done k cs h)
    (hops : h'.ops = h.ops) (hnext : h'.nextOp = h.nextOp) : Receipts done k cs h' := by
  have hr' := hr.congr (show recvOps [] = [] from rfl) (fun p hp => hops ▸ hp) hnext.ge
  rwa [List.append_nil] at hr'

lemma receipts_isAboutOps : IsAboutOps (Receipts done k) where
  inserted cs c ds h hc hr := by
    have hcs : recvOps (cs ++ c :: ds) = recvOps (cs ++ ds) := by
      simp [recvOps, Call.receives_of_posts hc.posts]
    refine ⟨?_, hr.done_lt, ?_, hr.ops_lt, ?_, ?_⟩
    · rw [hcs]
      exact hr.count
    · rw [hcs]
      exact hr.recv_lt
    · rw [hcs]
      exact hr.callback
    · rw [hcs]
      exact hr.plain
  congr _ _ _ _ hops hnext hr := hr.of_ops hops hnext

/-- A failed post leaves no operation behind. -/
lemma Receipts.postOp_error (hr : Receipts done k cs h) {post : OpId → Call} {e : RpmaError}
    (hpost : IsPost post (.error e)) (callback : Option ServerCallback) :
    Receipts done k (cs ++ log (postOp post (.error e) callback h))
      (postOp post (.error e) callback h).state := by
  have hlog : recvOps [.opNew h.nextOp, post h.nextOp, .opDelete h.nextOp] = [] := by
    have hnone := Call.receives_of_posts (hpost.posts h.nextOp)
    simp [recvOps, hnone]
  refine hr.congr hlog ?_ (Nat.le_succ _)
  · intro p hp
    obtain ⟨hp, hne⟩ := List.mem_filter.1 hp
    rcases List.mem_cons.1 hp with rfl | hp
    · simp at hne
    · exact hp

lemma Receipts.cons_lt (hr : Receipts done k cs h) (callback : Option ServerCallback) :
    ∀ p ∈ (h.nextOp, callback) :: h.ops, p.1 < h.nextOp + 1 := by
  intro p hp
  rcases List.mem_cons.1 hp with rfl | hp
  · exact Nat.lt_succ_self _
  · exact Nat.lt_succ_of_lt (hr.ops_lt p hp)

/-- A send without a callback. -/
lemma receipts_send (res : Rpma Unit) :
    Logs (Receipts done k) (send res none) fun _ => Receipts done k := by
  intro cs h hr
  cases res with
  | error e => exact hr.postOp_error (isPost_send _) none
  | ok u =>
      have hrecv : recvOps (cs ++ [.opNew h.nextOp, .rpmaSend (some h.nextOp) (.ok u)]) =
          recvOps cs := by
        simp [recvOps]
      show Receipts done k (cs ++ [.opNew h.nextOp, .rpmaSend (some h.nextOp) (.ok u)])
        { h with
          callbackTable := insert h.nextOp h.callbackTable
          ops := (h.nextOp, none) :: h.ops
          nextOp := h.nextOp + 1 }
      refine ⟨?_, fun op hop => Nat.lt_succ_of_lt (hr.done_lt op hop), ?_, hr.cons_lt none, ?_, ?_⟩
      · rw [hrecv]
        exact hr.count
      · rw [hrecv]
        exact fun op hop => Nat.lt_succ_of_lt (hr.recv_lt op hop)
      · rw [hrecv]
        intro op cb hop
        rcases List.mem_cons.1 hop with heq | hop
        · cases heq
        · exact hr.callback op cb hop
      · rw [hrecv]
        intro op hop hmem
        rcases List.mem_cons.1 hop with heq | hop
        · obtain rfl : op = h.nextOp := congrArg Prod.fst heq
          exact (hr.recv_lt _ hmem).ne rfl
        · exact hr.plain op hop hmem

/-- A successful receive is one more that is outstanding. -/
lemma Receipts.postOp_recv (hr : Receipts done k cs h) {post : OpId → Call} {u : Unit}
    (hpost : ∀ op, (post op).receives = some op) (cb : ServerCallback) :
    Receipts done (k + 1) (cs ++ log (postOp post (.ok u) (some cb) h))
      (postOp post (.ok u) (some cb) h).state := by
  have hrecv : recvOps (cs ++ [.opNew h.nextOp, post h.nextOp]) = recvOps cs ++ [h.nextOp] := by
    simp [recvOps, List.filterMap_cons, hpost]
  have hfresh : h.nextOp ∉ done := fun hmem => (hr.done_lt _ hmem).ne rfl
  show Receipts done (k + 1) (cs ++ [.opNew h.nextOp, post h.nextOp])
    { h with
      callbackTable := insert h.nextOp h.callbackTable
      ops := (h.nextOp, some cb) :: h.ops
      nextOp := h.nextOp + 1 }
  refine ⟨?_, fun op hop => Nat.lt_succ_of_lt (hr.done_lt op hop), ?_, hr.cons_lt (some cb), ?_, ?_⟩
  · rw [hrecv, List.filter_append, List.length_append, hr.count]
    simp [hfresh]
  · rw [hrecv]
    intro op hop
    rcases List.mem_append.1 hop with hop | hop
    · exact Nat.lt_succ_of_lt (hr.recv_lt op hop)
    · exact List.mem_singleton.1 hop ▸ Nat.lt_succ_self _
  · rw [hrecv]
    intro op cb' hop
    rcases List.mem_cons.1 hop with heq | hop
    · exact List.mem_append_right _ (List.mem_singleton.2 (congrArg Prod.fst heq))
    · exact List.mem_append_left _ (hr.callback op cb' hop)
  · rw [hrecv]
    intro op hop hmem
    rcases List.mem_cons.1 hop with heq | hop
    · cases heq
    · rcases List.mem_append.1 hmem with hmem | hmem
      · exact hr.plain op hop hmem
      · exact (hr.ops_lt _ hop).ne (List.mem_singleton.1 hmem)

/-- After a receive has been posted: it is outstanding, or its post has failed. -/
def Posted (done : List OpId) (cs : List Call) (h : ConnectionHandler ServerCallback) : Prop :=
  Receipts done 1 cs h ∨ (Receipts done 0 cs h ∧ ¬PostsOk cs)

lemma posted_isAboutOps : IsAboutOps (Posted done) where
  inserted cs c ds h hc hp := by
    rcases hp with hr | ⟨hr, hfailed⟩
    · exact .inl (receipts_isAboutOps.inserted cs c ds h hc hr)
    · refine .inr ⟨receipts_isAboutOps.inserted cs c ds h hc hr, fun hok => hfailed fun d hd => ?_⟩
      exact hok d (List.mem_append.2 ((List.mem_append.1 hd).imp_right (List.mem_cons_of_mem c)))
  congr cs h h' htable hops hnext hp :=
    hp.imp (receipts_isAboutOps.congr cs h h' htable hops hnext)
      (And.imp_left (receipts_isAboutOps.congr cs h h' htable hops hnext))

/-- `post` posts a receive. -/
structure IsRecvPost (post : OpId → Call) (res : Rpma Unit) : Prop extends IsPost post res where
  receives : ∀ op u, res = .ok u → (post op).receives = some op
  failed : ∀ op e, res = .error e → (post op).PostFailed

lemma isRecvPost_recv (res : Rpma Unit) :
    IsRecvPost (fun op => .rpmaRecv (some op) res) res where
  toIsPost := isPost_recv res
  receives := by
    rintro op u rfl
    rfl
  failed := by
    rintro op e rfl
    trivial

lemma isRecvPost_connReqRecv (res : Rpma Unit) :
    IsRecvPost (fun op => .connReqRecv (some op) res) res where
  toIsPost := isPost_connReqRecv res
  receives := by
    rintro op u rfl
    rfl
  failed := by
    rintro op e rfl
    trivial

lemma receipts_postOp {post : OpId → Call} {res : Rpma Unit} (hpost : IsRecvPost post res)
    (cb : ServerCallback) :
    Logs (Receipts done 0) (postOp post res (some cb)) fun _ => Posted done := by
  intro cs h hr
  cases res with
  | ok u => exact .inl (hr.postOp_recv (fun op => hpost.receives op u rfl) cb)
  | error e =>
      refine .inr ⟨hr.postOp_error hpost.toIsPost (some cb), fun hok => ?_⟩
      refine hok (post h.nextOp) (List.mem_append_right _ ?_) (hpost.failed h.nextOp e rfl)
      exact List.mem_cons_of_mem _ List.mem_cons_self

/-- One more operation is done with. -/
lemma Receipts.complete (hr : Receipts done k cs h) {op : OpId} (hop : op < h.nextOp) :
    Receipts (done ++ [op]) (((recvOps cs).filter (· ∉ done)).filter (· ≠ op)).length cs h := by
  refine ⟨?_, ?_, hr.recv_lt, hr.ops_lt, hr.callback, hr.plain⟩
  · rw [List.filter_filter]
    congr 1
    refine List.filter_congr fun x _ => ?_
    simp [and_comm]
  · intro x hx
    rcases List.mem_append.1 hx with hx | hx
    · exact hr.done_lt x hx
    · exact List.mem_singleton.1 hx ▸ hop

/-- The only receive that is outstanding is done with. -/
lemma Receipts.complete_recv (hr : Receipts done k cs h) (hk : k ≤ 1) {op : OpId}
    (hop : op ∈ recvOps cs) (hdone : op ∉ done) : Receipts (done ++ [op]) 0 cs h := by
  have hmem : op ∈ (recvOps cs).filter (· ∉ done) := List.mem_filter.2 ⟨hop, by simpa using hdone⟩
  have hlist : (recvOps cs).filter (· ∉ done) = [op] := by
    have hlen : ((recvOps cs).filter (· ∉ done)).length = 1 :=
      le_antisymm (hr.count.trans_le hk) (List.length_pos_of_mem hmem)
    obtain ⟨x, hx⟩ := List.length_eq_one_iff.1 hlen
    rw [hx] at hmem ⊢
    rw [List.mem_singleton.1 hmem]
  have hr' := hr.complete (hr.recv_lt op hop)
  rwa [hlist, List.filter_cons_of_neg (by simp)] at hr'

/-- An operation that is not a receive is done with. -/
lemma Receipts.complete_other (hr : Receipts done k cs h) {op : OpId} (hlt : op < h.nextOp)
    (hop : op ∉ recvOps cs) : Receipts (done ++ [op]) k cs h := by
  have hr' := hr.complete hlt
  have hself : ((recvOps cs).filter (· ∉ done)).filter (· ≠ op) =
      (recvOps cs).filter (· ∉ done) := by
    refine List.filter_eq_self.2 fun x hx => ?_
    have hne : x ≠ op := fun heq => hop (heq ▸ List.mem_of_mem_filter hx)
    simpa using hne
  rwa [hself, hr.count] at hr'

end ConnectionHandler

namespace RPMAHandler

variable {done : List OpId} {k : ℕ}

/-- `get_descriptor` posts no receive. -/
lemma getDescriptor_receives (env : ServeEnv) :
    Only (fun c => c.receives = none) (getDescriptor env) := by
  have hregistration : ∀ c : Call, c.IsRegistration → c.receives = none := fun c hc =>
    Call.receives_of_posts (Call.isNeutral_of_isRegistration hc).posts
  have hmemory : ∀ c : Call, c.IsMemory → c.receives = none := fun c hc =>
    Call.receives_of_posts (Call.isNeutral_of_isMemory hc).posts
  refine .bind .read fun h => .bind (decodeFrom_only _ _) fun req => .ite ?_ (.ite ?_ (.ret _))
  · exact (getDescriptorForWrite_only env).mono fun c hc => hc.elim (hmemory c) (hregistration c)
  · refine .bind ((resetDataMr_only none).mono hregistration) fun _ =>
      .bind (.zoom _ ((MemoryManager.closeAndRemove_only _).mono hmemory)) fun removed =>
      .bind (.zoom _ (fillSendBl_only _)) fun _ => .bind (.zoom _ ?_) fun _ => .ret _
    exact postOp_only (fun _ => rfl) (fun _ => rfl) fun _ => rfl

/-- What `deal_require` does to the receives, from a state in which none is outstanding. -/
lemma logs_dealRequire_receipts (env : ServeEnv) :
    Logs (OfBase (Receipts done 0)) (dealRequire env) fun r cs h =>
      (r = .ok () → OfBase (Posted done) cs h) ∧
        (OfBase (Receipts done 0) cs h ∨ OfBase (Posted done) cs h) := by
  refine Logs.seq (logs_getDescriptor receipts_isAboutOps (fun res => receipts_send res) env)
    (fun _ => ?_) fun _ _ _ hr => ⟨fun hok => (by cases hok), .inl hr⟩
  have hrecv : Logs (Receipts done 0) (recv env.recv (some .dealRequire)) fun _ => Posted done :=
    receipts_postOp (isRecvPost_recv env.recv) .dealRequire
  exact ((logs_receiveAndReply posted_isAboutOps hrecv env.send).zoom base).conseq
    (fun _ _ hr => hr) fun _ _ _ hp => ⟨fun _ => hp, .inr hp⟩

/-- The destructor posts nothing. -/
lemma destroy_receives : Only (fun c => c.receives = none) destroy := by
  refine .bind ((resetDataMr_only none).mono fun c hc => ?_) fun _ =>
    .bind (.zoom _ (MemoryManager.destroy_only.mono fun c hc => ?_)) fun _ =>
    .zoom _ (ConnectionHandler.destroy_only fun _ => rfl)
  · exact Call.receives_of_posts (Call.isNeutral_of_isRegistration hc).posts
  · exact Call.receives_of_posts (Call.isNeutral_of_isMemory hc).posts

/-- What the constructor does to the receives: if it returns, it has posted one, and otherwise at
most one. -/
lemma logs_new_receipts (env : ConstructEnv) :
    Logs (OfBase (Receipts done 0)) (new env) fun r cs h =>
      (r.isOk = true → OfBase (Posted done) cs h) ∧
        (r.isOk = false → ((recvOps cs).filter (· ∉ done)).length ≤ 1) := by
  have hbody := logs_construct env
    (receipts_postOp (isRecvPost_connReqRecv env.connReqRecv) .dealRequire) (H := Receipts done 0)
  have hdestroy : Logs (fun cs _ => ((recvOps cs).filter (· ∉ done)).length ≤ 1) destroy
      fun _ cs _ => ((recvOps cs).filter (· ∉ done)).length ≤ 1 := by
    refine Logs.of_only destroy_receives (fun cs c h hc hle => ?_) fun _ _ hle => hle
    have hcs : recvOps (cs ++ [c]) = recvOps cs := by simp [recvOps, hc]
    rwa [hcs]
  refine (hbody.unwinding fun r => hdestroy.conseq (fun cs h hs => ?_) fun _ _ _ hs => hs).conseq
    (fun _ _ hs => hs) fun r cs h hs => ⟨fun hok => (hs.1 hok).1 hok, hs.2⟩
  rcases hs.2 with hr | hr | ⟨hr, _⟩
  · exact hr.count.trans_le (Nat.zero_le 1)
  · exact hr.count.le
  · exact hr.count.trans_le (Nat.zero_le 1)

end RPMAHandler

namespace Life

/-! ### Handling a completion -/

section Retire

variable (done : List OpId) (k : ℕ) (op : OpId)

/-- The receives while the completion of `op` is handled: none is outstanding if `op` has a
callback, and as many as before if it has none. -/
structure Handling (cs : List Call) (h : ConnectionHandler ServerCallback) : Prop where
  callback : ∀ cb, h.ops.lookup op = some (some cb) → Receipts (done ++ [op]) 0 cs h
  plain : h.ops.lookup op = some none → Receipts (done ++ [op]) k cs h
  alive : h.ops.lookup op ≠ none

/-- The receives after the completion of `op` was handled: at most one is outstanding, and if one
was before, and nothing has failed, one still is. -/
def Handled (r : Except Stop Unit) (cs : List Call) (h : ConnectionHandler ServerCallback) : Prop :=
  ∃ k' ≤ 1, Receipts (done ++ [op]) k' cs h ∧ (r = .ok () → PostsOk cs → k = 1 → k' = 1)

variable {done k op}

lemma handled_of_receipts {r : Except Stop Unit} {cs : List Call}
    {h : ConnectionHandler ServerCallback} (hk : k ≤ 1) (hr : Receipts (done ++ [op]) k cs h) :
    Handled done k op r cs h := ⟨k, hk, hr, fun _ _ hone => hone⟩

/-- The callback has run: `deal_require` has posted the next receive, or it has thrown. -/
lemma handled_of_callback {r : Except Stop Unit} {cs : List Call}
    {h : ConnectionHandler ServerCallback} (hok : r = .ok () → Posted (done ++ [op]) cs h)
    (hr : Receipts (done ++ [op]) 0 cs h ∨ Posted (done ++ [op]) cs h) :
    Handled done k op r cs h := by
  have hposted : Posted (done ++ [op]) cs h → Handled done k op r cs h := by
    rintro (hr | ⟨hr, hfailed⟩)
    · exact ⟨1, le_rfl, hr, fun _ _ _ => rfl⟩
    · exact ⟨0, Nat.zero_le 1, hr, fun _ hposts => absurd hposts hfailed⟩
  rcases hr with hr | hr
  · by_cases hreturned : r = .ok ()
    · exact hposted (hok hreturned)
    · exact ⟨0, Nat.zero_le 1, hr, fun hreturned' => absurd hreturned' hreturned⟩
  · exact hposted hr

lemma logs_retire_receipts (hk : k ≤ 1) (env : ServeEnv) (ctx : Option OpId) :
    Logs (fun cs w => Handling done k op cs (Watched.conn.get w))
      (retire Watched.conn (Watched.callback env ctx) op)
      fun r cs w => Handled done k op r cs (Watched.conn.get w) := by
  have herase : Logs (Handling done k op) (eraseOp op)
      fun r cs h => r = .ok () ∧ Handling done k op cs h :=
    Logs.update fun cs h hs => ⟨rfl, fun cb hcb => (hs.callback cb hcb).of_ops rfl rfl,
      fun hnone => (hs.plain hnone).of_ops rfl rfl, hs.alive⟩
  refine logs_retire Watched.conn op (M := Handled done k op) herase (fun cb => ?_)
    (fun cs h hs hnone => handled_of_receipts hk (hs.plain hnone))
    (fun cs h hs hnone => absurd hnone hs.alive) fun r => ?_
  · cases cb
    refine Logs.seq (M := fun cs w => Receipts (done ++ [op]) 0 cs (Watched.conn.get w))
      (Logs.update fun cs w hs => hs.1.callback _ hs.2) (fun _ => ?_) ?_
    · exact ((RPMAHandler.logs_dealRequire_receipts env).zoom Watched.rpma).conseq
        (fun _ _ hs => hs) fun r cs w hs => handled_of_callback hs.1 hs.2
    · exact fun e cs w hs => handled_of_callback (fun hok => (by cases hok)) (.inl hs)
  · rintro cs h ⟨k', hk', hr, himp⟩
    have hlog : recvOps [.opDelete op] = [] := by simp [recvOps]
    refine ⟨k', hk', hr.congr hlog ?_ le_rfl, ?_⟩
    · exact fun p hp => (List.mem_filter.1 hp).1
    · exact fun hok hposts => himp hok fun c hc => hposts c (List.mem_append_left _ hc)

end Retire

/-! ### The invariant -/

/-- At most one receive is outstanding, and exactly one while nothing has failed. -/
structure RInv (l : Life) : Prop where
  inv : l.Inv
  le : l.receiving.length ≤ 1
  receipts : l.phase ≠ .gone →
    ∃ k, Receipts l.completed k l.calls l.watched.handler.toConnectionHandler
  unborn : l.phase = .unborn → l.receiving = [] ∧ l.completed = []
  one : l.phase = .alive → PostsOk l.calls → l.recvFailed = false → l.thrown = false →
    l.receiving.length = 1

lemma create_rInv (sendBl recvBl : MsgBuf) (size : UInt64) : RInv (create sendBl recvBl size) where
  inv := create_inv sendBl recvBl size
  le := Nat.zero_le 1
  receipts _ := ⟨0, receipts_create sendBl recvBl⟩
  unborn _ := ⟨rfl, rfl⟩
  one h := by cases h

variable {l : Life}

lemma RInv.receipts_receiving (h : l.RInv) (hne : l.phase ≠ .gone) :
    Receipts l.completed l.receiving.length l.calls l.watched.handler.toConnectionHandler := by
  obtain ⟨k, hr⟩ := h.receipts hne
  have hk : l.receiving.length = k := hr.count
  rwa [hk]

/-- Calls that post no receive change nothing. -/
lemma recvOps_log {σ ρ : Type} {m : Prog σ ρ} (hm : Only (fun c => c.receives = none) m) (s : σ) :
    recvOps (log (m s)) = [] := by
  refine List.filterMap_eq_nil_iff.2 fun c hc => ?_
  obtain ⟨p, hp, rfl⟩ := List.mem_map.1 hc
  exact hm s p hp

lemma RInv.destruct (h : l.RInv) (hphase : l.phase = .alive) : l.destruct.RInv := by
  refine ⟨h.inv.destruct hphase, ?_, fun hgone => absurd rfl hgone,
    fun hunborn => (by cases hunborn), fun halive => (by cases halive)⟩
  have hcalls : recvOps l.destruct.calls = recvOps l.calls := by
    show recvOps (l.calls ++ log (zoom Watched.rpma RPMAHandler.destroy l.watched)) = _
    rw [recvOps_append, recvOps_log (RPMAHandler.destroy_receives.zoom _), List.append_nil]
  show ((recvOps l.destruct.calls).filter (· ∉ l.completed)).length ≤ 1
  rw [hcalls]
  exact h.le

lemma RInv.waitFailed (h : l.RInv) (hphase : l.phase = .alive) (e : RpmaError) :
    (l.waitFailed e).RInv := by
  have hne : l.phase ≠ .gone := by rw [hphase]; decide
  have hr := logs_completionFailed Watched.conn receipts_isAboutOps e l.calls l.watched
    (h.receipts_receiving hne)
  have hlen : (l.waitFailed e).receiving.length = l.receiving.length := hr.count
  refine ⟨h.inv.waitFailed hphase e, hlen.trans_le h.le, fun _ => ⟨_, hr⟩,
    fun hunborn => (by cases hunborn), fun _ hposts hfailed hthrown => ?_⟩
  rw [hlen]
  exact h.one hphase (fun c hc => hposts c (List.mem_append_left _ hc)) hfailed hthrown

lemma RInv.construct (h : l.RInv) (hphase : l.phase = .unborn) (env : ConstructEnv) :
    (l.construct env).RInv := by
  have hne : l.phase ≠ .gone := by rw [hphase]; decide
  have hr₀ := h.receipts_receiving hne
  rw [(h.unborn hphase).1] at hr₀
  have hnew := (RPMAHandler.logs_new_receipts env).zoom Watched.rpma l.calls l.watched hr₀
  cases hres : (zoom Watched.rpma (RPMAHandler.new env) l.watched).result with
  | ok u =>
      have hunborn : (l.construct env).phase ≠ .unborn := by
        rw [phase_construct_ok hres]
        decide
      rw [hres] at hnew
      rcases hnew.1 rfl with hr | ⟨hr, hfailed⟩
      · exact ⟨h.inv.construct hphase env, hr.count.le, fun _ => ⟨1, hr⟩,
          fun heq => absurd heq hunborn, fun _ _ _ _ => hr.count⟩
      · exact ⟨h.inv.construct hphase env, hr.count.trans_le (Nat.zero_le 1), fun _ => ⟨0, hr⟩,
          fun heq => absurd heq hunborn, fun _ hposts => absurd hposts hfailed⟩
  | error e =>
      have hphase' := phase_construct_error hres
      rw [hres] at hnew
      refine ⟨h.inv.construct hphase env, hnew.2 rfl, fun hgone => absurd hphase' hgone,
        fun heq => ?_, fun halive => ?_⟩
      · rw [hphase'] at heq
        cases heq
      · rw [hphase'] at halive
        cases halive

/-- An outstanding operation when its completion is handled. -/
lemma RInv.handling (h : l.RInv) (hphase : l.phase = .alive) {op : OpId} (hop : op ∈ l.outstanding)
    (content : MsgBuf) :
    Handling l.completed l.receiving.length op l.calls (Watched.conn.get (l.arrived content)) := by
  have hne : l.phase ≠ .gone := by rw [hphase]; decide
  have hr : Receipts l.completed l.receiving.length l.calls
      (Watched.conn.get (l.arrived content)) := (h.receipts_receiving hne).of_ops rfl rfl
  have hbooks := h.inv.books hne
  obtain ⟨hposted, hcompleted⟩ := mem_outstanding.1 hop
  refine ⟨?_, ?_, ?_⟩
  · intro cb hcb
    exact hr.complete_recv h.le (hr.callback op cb (mem_of_lookup hcb)) hcompleted
  · intro hnone
    exact hr.complete_other (hbooks.lt op (hbooks.posted_created op hposted))
      (hr.plain op (mem_of_lookup hnone))
  · intro hnone
    have halive : op ∈ l.watched.handler.aliveOps :=
      ((hbooks.table op).1 (h.inv.mem_callbackTable hne hop)).1
    obtain ⟨p, hp, hpop⟩ := List.mem_map.1 halive
    have hbeq := List.lookup_eq_none_iff.1 hnone p hp
    rw [hpop] at hbeq
    simp at hbeq

/-- A failed completion of an outstanding operation. -/
lemma RInv.failed (h : l.RInv) (hphase : l.phase = .alive) {op : OpId} (hop : op ∈ l.outstanding) :
    ∃ k' ≤ 1, Receipts (l.completed ++ [op]) k' l.calls l.watched.handler.toConnectionHandler ∧
      (op ∉ recvOps l.calls → k' = l.receiving.length) := by
  have hne : l.phase ≠ .gone := by rw [hphase]; decide
  have hr := h.receipts_receiving hne
  have hbooks := h.inv.books hne
  obtain ⟨hposted, hcompleted⟩ := mem_outstanding.1 hop
  by_cases hrecv : op ∈ recvOps l.calls
  · exact ⟨0, Nat.zero_le 1, hr.complete_recv h.le hrecv hcompleted, fun hnot => absurd hrecv hnot⟩
  · exact ⟨_, h.le, hr.complete_other (hbooks.lt op (hbooks.posted_created op hposted)) hrecv,
      fun _ => rfl⟩

/-- What a completion does to the receives. -/
lemma RInv.completed (h : l.RInv) (hphase : l.phase = .alive) {got : Rpma Completion}
    (hgot : l.Awaits got) (content : MsgBuf) (env : ServeEnv) :
    ∃ k' ≤ 1, Receipts (l.completed ++ completes got) k' (l.completion got content env).calls
        (l.completion got content env).watched.handler.toConnectionHandler ∧
      (PostsOk (l.completion got content env).calls → l.failsRecv got = false →
        (Watched.completion env got (l.arrived content)).result.isOk = true →
        l.receiving.length = 1 → k' = 1) := by
  have hne : l.phase ≠ .gone := by rw [hphase]; decide
  have hr : Receipts l.completed l.receiving.length l.calls
      (Watched.conn.get (l.arrived content)) := (h.receipts_receiving hne).of_ops rfl rfl
  show ∃ k' ≤ 1, Receipts (l.completed ++ completes got) k'
      (l.calls ++ log (Watched.completion env got (l.arrived content)))
      (Watched.conn.get (Watched.completion env got (l.arrived content)).state) ∧
    (PostsOk (l.calls ++ log (Watched.completion env got (l.arrived content))) → _)
  rcases completion_cases env got with ⟨e, rfl, heq⟩ | ⟨cmpl, rfl, hcmpl, heq⟩ | ⟨op, oc, rfl, heq⟩
  · rw [heq]
    simp only [completes, List.append_nil]
    exact ⟨_, h.le, logs_completionFailed Watched.conn receipts_isAboutOps e _ _ hr,
      fun _ _ _ hone => hone⟩
  · rw [heq]
    simp only [pure_apply, log_mk, List.map_nil, List.append_nil]
    obtain ⟨ctx, oc, success⟩ := cmpl
    cases ctx with
    | none =>
        simp only [completes, Option.toList, List.append_nil]
        exact ⟨_, h.le, hr, fun _ _ _ hone => hone⟩
    | some op =>
        obtain rfl : success = false := hcmpl.resolve_right (by simp)
        obtain ⟨k', hk', hr', himp⟩ := h.failed hphase hgot
        refine ⟨k', hk', hr'.of_ops rfl rfl, fun _ hfails _ hone => ?_⟩
        rw [himp (of_decide_eq_false hfails), hone]
  · obtain ⟨k', hk', hr', himp⟩ := logs_retire_receipts h.le env (some op) l.calls
      (l.arrived content) (h.handling hphase hgot content)
    rw [heq, bind_apply, andThen_pure]
    refine ⟨k', hk', hr', fun hposts _ hok hone => himp ?_ hposts hone⟩
    simp only at hok
    cases hres : (retire Watched.conn (Watched.callback env (some op)) op
      (l.arrived content)).result with
    | ok u => rfl
    | error e =>
        rw [hres] at hok
        exact absurd hok Bool.false_ne_true

lemma RInv.completion (h : l.RInv) (hphase : l.phase = .alive) {got : Rpma Completion}
    (hgot : l.Awaits got) (content : MsgBuf) (env : ServeEnv) :
    (l.completion got content env).RInv := by
  obtain ⟨k', hk', hr, himp⟩ := h.completed hphase hgot content env
  have hlen : (l.completion got content env).receiving.length = k' := hr.count
  refine ⟨h.inv.completion hphase hgot content env, hlen.trans_le hk', fun _ => ⟨k', hr⟩, ?_, ?_⟩
  · intro hunborn
    have hphase' : (l.completion got content env).phase ≠ .unborn := by
      show (if Session.survives _ then Phase.alive else Phase.crashed) ≠ .unborn
      split <;> decide
    exact absurd hunborn hphase'
  · intro _ hposts hfailed hthrown
    have hfailed' : l.recvFailed = false ∧ l.failsRecv got = false := by
      simpa [Life.completion] using hfailed
    have hthrown' : l.thrown = false ∧
        (Watched.completion env got (l.arrived content)).result.isOk = true := by
      simpa [Life.completion] using hthrown
    have hposts' : PostsOk l.calls := fun c hc => hposts c (List.mem_append_left _ hc)
    rw [hlen]
    exact himp hposts hfailed'.2 hthrown'.2 (h.one hphase hposts' hfailed'.1 hthrown'.1)

lemma RInv.step {u : Life} {a : LifeAct} (h : l.RInv) (hs : machine.step l a = some u) :
    u.RInv := by
  rcases step_cases hs with ⟨env, _, hphase, rfl⟩ | ⟨e, _, hphase, rfl⟩ |
    ⟨got, content, env, _, hphase, hgot, rfl⟩ | ⟨_, hphase, rfl⟩
  · exact h.construct hphase env
  · exact h.waitFailed hphase e
  · exact h.completion hphase hgot content env
  · exact h.destruct hphase

/-- **`recv_bl` is never shared.**  In every state of every life of a handler at most one receive
is outstanding.  When the callback of an operation runs, none is, from its start through all the
calls of `get_descriptor`, which decodes `recv_bl`.  And between two events, as long as every post
has succeeded, no receive has failed and no callback has thrown, exactly one is outstanding. -/
theorem one_receive (sendBl recvBl : MsgBuf) (size : UInt64) (as : List LifeAct) (l : Life)
    (hrun : machine.Run (create sendBl recvBl size) as l) :
    l.receiving.length ≤ 1 ∧
    (∀ op content env, l.phase = .alive → op ∈ l.outstanding →
      l.watched.handler.ops.lookup op = some (some .dealRequire) →
      ∀ ds, ds <+: log (RPMAHandler.getDescriptor env (l.atCallback op content)) →
        (recvOps (l.calls ++ ds)).filter (· ∉ l.completed ++ [op]) = []) ∧
    (l.phase = .alive → PostsOk l.calls → l.recvFailed = false → l.thrown = false →
      l.receiving.length = 1) := by
  have h : l.RInv := machine.invariant (create_rInv sendBl recvBl size)
    (fun t a u ht hs => ht.step hs) hrun
  refine ⟨h.le, ?_, h.one⟩
  intro op content env hphase hop hlookup ds hds
  have hzero := ((h.handling hphase hop content).callback .dealRequire hlookup).count
  have hprefix : recvOps ds = [] := by
    have hall := recvOps_log (RPMAHandler.getDescriptor_receives env) (l.atCallback op content)
    obtain ⟨es, hes⟩ := hds
    rw [← hes, recvOps_append] at hall
    exact (List.append_eq_nil_iff.1 hall).1
  rw [recvOps_append, hprefix, List.append_nil]
  exact List.length_eq_zero_iff.1 hzero

/-- A new handler waits for its first request; while it decodes that, it waits for nothing. -/
theorem one_receive_new :
    ∃ l, machine.Run (create .zero .zero 0) [.construct .ok] l ∧ l.phase = .alive ∧
      l.receiving.length = 1 ∧ 0 ∈ l.outstanding ∧
      ∀ ds, ds <+: log (RPMAHandler.getDescriptor (RPMAHandler.working [7])
          (l.atCallback 0 RPMAHandler.sampleContent)) →
        (recvOps (l.calls ++ ds)).filter (· ∉ l.completed ++ [0]) = [] := by
  have run := (Machine.Run.nil (M := machine) (create .zero .zero 0)).snoc
    (a := .construct .ok) (u := (create .zero .zero 0).construct .ok) rfl
  obtain ⟨_, hdecode, hone⟩ := one_receive .zero .zero 0 _ _ run
  have hposted : 0 ∈ ((create .zero .zero 0).construct .ok).outstanding := by
    rw [mem_outstanding]
    exact ⟨List.mem_cons_self, List.not_mem_nil⟩
  have hposts : PostsOk ((create .zero .zero 0).construct .ok).calls := by
    have hcalls : ((create .zero .zero 0).construct .ok).calls =
        [.opNew 0, .connReqRecv (some 0) (.ok ())] := rfl
    rw [hcalls]
    intro c hc
    rcases List.mem_cons.1 hc with rfl | hc
    · exact id
    · rw [List.mem_singleton.1 hc]
      exact id
  exact ⟨_, run, rfl, hone rfl hposts rfl rfl, hposted, hdecode 0 _ _ rfl hposted rfl⟩

end Life

end RpmaReplica
