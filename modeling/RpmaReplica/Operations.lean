import RpmaReplica.ConnectionHandler
import RpmaReplica.Lib.Ledger

/-!
# The books on operations

An operation is created, posted, entered in `callback_table`, taken out of it when its
completion is handled, and destroyed; one that could not be posted is destroyed at once.  The
calls made so far say which operations have been created, posted and destroyed, and the state
of the handler must agree with them: `Books` says how.  Each function of the handler keeps the
books, also where a callback throws.
-/

namespace RpmaReplica

/-! ### Operations in a sequence of calls -/

/-- Operations are acquired by construction and given back by destruction. -/
def opLedger : Ledger Call OpId where
  acquires
    | .opNew op => some op
    | _ => none
  releases
    | .opDelete op => some op
    | _ => none

@[simp] lemma acquires_opNew (op : OpId) : opLedger.acquires (.opNew op) = some op := rfl

@[simp] lemma releases_opNew (op : OpId) : opLedger.releases (.opNew op) = none := rfl

@[simp] lemma acquires_opDelete (op : OpId) : opLedger.acquires (.opDelete op) = none := rfl

@[simp] lemma releases_opDelete (op : OpId) : opLedger.releases (.opDelete op) = some op := rfl

/-- The operation that a call has posted, if it succeeded. -/
def Call.posts : Call → Option OpId
  | rpmaRecv ctx (.ok _) | connReqRecv ctx (.ok _) | rpmaSend ctx (.ok _) => ctx
  | rpmaWrite _ _ _ _ _ ctx (.ok _) | rpmaFlush _ _ _ _ ctx (.ok _) => ctx
  | _ => none

@[simp] lemma posts_opNew (op : OpId) : (Call.opNew op).posts = none := rfl

@[simp] lemma posts_opDelete (op : OpId) : (Call.opDelete op).posts = none := rfl

/-- The operations posted by a sequence of calls. -/
def postedOps (cs : List Call) : List OpId := cs.filterMap Call.posts

@[simp] lemma postedOps_append (cs ds : List Call) :
    postedOps (cs ++ ds) = postedOps cs ++ postedOps ds := List.filterMap_append

/-- The call does nothing to an operation. -/
structure Call.IsNeutral (c : Call) : Prop where
  acquires : opLedger.acquires c = none
  releases : opLedger.releases c = none
  posts : c.posts = none

lemma Call.isNeutral_of_isMemory {c : Call} (h : c.IsMemory) : c.IsNeutral := by
  cases c <;> first | exact ⟨rfl, rfl, rfl⟩ | exact absurd h id

lemma Call.isNeutral_of_isRegistration {c : Call} (h : c.IsRegistration) : c.IsNeutral := by
  cases c <;> first | exact ⟨rfl, rfl, rfl⟩ | exact absurd h id

/-- `post` is how a function posts an operation, with the result `res`. -/
structure IsPost (post : OpId → Call) (res : Rpma Unit) : Prop where
  acquires : ∀ op, opLedger.acquires (post op) = none
  releases : ∀ op, opLedger.releases (post op) = none
  posts : ∀ op, (post op).posts = match res with | .ok _ => some op | .error _ => none

lemma isPost_send (res : Rpma Unit) : IsPost (fun op => .rpmaSend (some op) res) res := by
  cases res <;> exact ⟨fun _ => rfl, fun _ => rfl, fun _ => rfl⟩

lemma isPost_recv (res : Rpma Unit) : IsPost (fun op => .rpmaRecv (some op) res) res := by
  cases res <;> exact ⟨fun _ => rfl, fun _ => rfl, fun _ => rfl⟩

lemma isPost_connReqRecv (res : Rpma Unit) : IsPost (fun op => .connReqRecv (some op) res) res := by
  cases res <;> exact ⟨fun _ => rfl, fun _ => rfl, fun _ => rfl⟩

lemma isPost_rpmaWrite (dst : Option MrRemote) (dstOff : UInt64) (src : MrLocal)
    (srcOff len : UInt64) (res : Rpma Unit) :
    IsPost (fun op => .rpmaWrite dst dstOff src srcOff len (some op) res) res := by
  cases res <;> exact ⟨fun _ => rfl, fun _ => rfl, fun _ => rfl⟩

lemma isPost_rpmaFlush (dst : Option MrRemote) (off len : UInt64) (type : FlushType)
    (res : Rpma Unit) : IsPost (fun op => .rpmaFlush dst off len type (some op) res) res := by
  cases res <;> exact ⟨fun _ => rfl, fun _ => rfl, fun _ => rfl⟩

section Posts

variable {post : OpId → Call} (cs : List Call) (op : OpId)

lemma IsPost.postedOps_ok {u : Unit} (hpost : IsPost post (.ok u)) :
    postedOps (cs ++ [.opNew op, post op]) = postedOps cs ++ [op] := by
  simp [postedOps, List.filterMap_cons, hpost.posts]

lemma IsPost.postedOps_error {e : RpmaError} (hpost : IsPost post (.error e)) :
    postedOps (cs ++ [.opNew op, post op, .opDelete op]) = postedOps cs := by
  simp [postedOps, hpost.posts]

lemma postedOps_opDelete : postedOps (cs ++ [.opDelete op]) = postedOps cs := by
  simp [postedOps]

end Posts

/-! ### Receives in a sequence of calls -/

/-- The operation that a call has posted as a receive, if it succeeded. -/
def Call.receives : Call → Option OpId
  | rpmaRecv ctx (.ok _) | connReqRecv ctx (.ok _) => ctx
  | _ => none

/-- The receives posted by a sequence of calls. -/
def recvOps (cs : List Call) : List OpId := cs.filterMap Call.receives

@[simp] lemma recvOps_append (cs ds : List Call) : recvOps (cs ++ ds) = recvOps cs ++ recvOps ds :=
  List.filterMap_append

@[simp] lemma receives_opNew (op : OpId) : (Call.opNew op).receives = none := rfl

@[simp] lemma receives_opDelete (op : OpId) : (Call.opDelete op).receives = none := rfl

@[simp] lemma receives_rpmaSend (ctx : Option OpId) (res : Rpma Unit) :
    (Call.rpmaSend ctx res).receives = none := rfl

/-- What is posted as a receive is posted. -/
lemma Call.receives_of_posts {c : Call} (h : c.posts = none) : c.receives = none := by
  cases c with
  | rpmaRecv ctx res => cases res <;> exact h
  | connReqRecv ctx res => cases res <;> exact h
  | _ => rfl

lemma mem_postedOps_of_recvOps {cs : List Call} {op : OpId} (h : op ∈ recvOps cs) :
    op ∈ postedOps cs := by
  obtain ⟨c, hc, hrecv⟩ := List.mem_filterMap.1 h
  refine List.mem_filterMap.2 ⟨c, hc, ?_⟩
  cases c with
  | rpmaRecv ctx res => cases res <;> exact hrecv
  | connReqRecv ctx res => cases res <;> exact hrecv
  | _ => cases hrecv

namespace ConnectionHandler

variable {κ : Type}

lemma mem_of_lookup {ops : List (OpId × Option κ)} {op : OpId} {cb : Option κ}
    (h : ops.lookup op = some cb) : (op, cb) ∈ ops := by
  obtain ⟨l₁, l₂, rfl, _⟩ := List.lookup_eq_some_iff.1 h
  exact List.mem_append_right _ List.mem_cons_self

/-- The operations that are alive. -/
def aliveOps (h : ConnectionHandler κ) : List OpId := h.ops.map Prod.fst

/-- The state of the handler agrees with the calls made so far; `cur` is the operation whose
completion is being handled, if any. -/
structure Books (cur : Option OpId) (cs : List Call) (h : ConnectionHandler κ) : Prop where
  /-- Every operation is created once, under a number of its own. -/
  created : (opLedger.acquired cs).Nodup
  lt : ∀ op ∈ opLedger.acquired cs, op < h.nextOp
  /-- What is alive is what has been created and not destroyed. -/
  nodup : h.aliveOps.Nodup
  keeps : opLedger.Keeps cs ↑h.aliveOps
  /-- What is alive has been posted, and what has been posted was created. -/
  posted : ∀ op ∈ h.aliveOps, op ∈ postedOps cs
  posted_created : ∀ op ∈ postedOps cs, op ∈ opLedger.acquired cs
  /-- The table holds what is alive, less the operation that is being handled. -/
  table : ∀ op, op ∈ h.callbackTable ↔ op ∈ h.aliveOps ∧ cur ≠ some op
  current : ∀ op, cur = some op → op ∈ h.aliveOps

variable {cur : Option OpId} {cs : List Call} {h : ConnectionHandler κ}

lemma books_create (sendBl recvBl : MsgBuf) :
    Books none [] (create sendBl recvBl : ConnectionHandler κ) where
  created := List.nodup_nil
  lt := by simp [opLedger, Ledger.acquired]
  nodup := List.nodup_nil
  keeps := Ledger.Keeps.nil
  posted := by simp [aliveOps, create]
  posted_created := by simp [postedOps]
  table := by simp [aliveOps, create]
  current := by simp

/-- **The table between two events** holds exactly what has been posted and not destroyed. -/
lemma Books.mem_callbackTable (hb : Books none cs h) (op : OpId) :
    op ∈ h.callbackTable ↔ op ∈ postedOps cs ∧ op ∉ opLedger.released cs := by
  rw [hb.table op]
  constructor
  · rintro ⟨halive, _⟩
    have hmem : op ∈ (↑h.aliveOps : Multiset OpId) := halive
    have hacq := hb.keeps.acquired_of_mem hmem
    exact ⟨hb.posted op halive, (hb.keeps.mem_held_iff hb.created hacq).1 hmem⟩
  · rintro ⟨hposted, hreleased⟩
    have hacq := hb.posted_created op hposted
    exact ⟨(hb.keeps.mem_held_iff hb.created hacq).2 hreleased, by simp⟩

/-- The books do not depend on the buffers or the connection. -/
lemma Books.congr {h' : ConnectionHandler κ} (hb : Books cur cs h)
    (htable : h'.callbackTable = h.callbackTable) (hops : h'.ops = h.ops)
    (hnext : h'.nextOp = h.nextOp) : Books cur cs h' := by
  have halive : h'.aliveOps = h.aliveOps := by rw [aliveOps, hops, aliveOps]
  refine ⟨hb.created, ?_, ?_, ?_, ?_, hb.posted_created, ?_, ?_⟩
  · rw [hnext]
    exact hb.lt
  · rw [halive]
    exact hb.nodup
  · rw [halive]
    exact hb.keeps
  · rw [halive]
    exact hb.posted
  · rw [halive, htable]
    exact hb.table
  · rw [halive]
    exact hb.current

/-- The books do not depend on other calls. -/
lemma Books.neutral {c : Call} {ds : List Call} (hb : Books cur (cs ++ ds) h) (hc : c.IsNeutral) :
    Books cur (cs ++ c :: ds) h := by
  have hacq : opLedger.acquired (cs ++ c :: ds) = opLedger.acquired (cs ++ ds) := by
    simp [Ledger.acquired, hc.acquires]
  have hposted : postedOps (cs ++ c :: ds) = postedOps (cs ++ ds) := by
    simp [postedOps, hc.posts]
  refine ⟨?_, ?_, hb.nodup, hb.keeps.insert hc.acquires hc.releases, ?_, ?_, hb.table, hb.current⟩
  · rw [hacq]
    exact hb.created
  · rw [hacq]
    exact hb.lt
  · rw [hposted]
    exact hb.posted
  · rw [hacq, hposted]
    exact hb.posted_created

lemma Books.lt_nextOp (hb : Books cur cs h) {op : OpId} (hop : op ∈ h.aliveOps) :
    op < h.nextOp :=
  hb.lt op (hb.keeps.acquired_of_mem (b := op) hop)

/-- Destroying an operation that is not there changes nothing. -/
lemma filter_ops_eq_self {op : OpId} (hop : op ∉ h.aliveOps) :
    h.ops.filter (·.1 ≠ op) = h.ops := by
  refine List.filter_eq_self.2 fun p hp => ?_
  have hne : p.1 ≠ op := fun heq => hop (List.mem_map.2 ⟨p, hp, heq⟩)
  simpa using hne

/-! ### Each function keeps the books -/

open Exec

/-- The condition is about operations only: other calls, wherever they stand, the buffers and the
connection are of no concern to it. -/
structure IsAboutOps (H : List Call → ConnectionHandler κ → Prop) : Prop where
  inserted : ∀ cs c ds h, Call.IsNeutral c → H (cs ++ ds) h → H (cs ++ c :: ds) h
  congr : ∀ cs h h', h'.callbackTable = h.callbackTable → h'.ops = h.ops → h'.nextOp = h.nextOp →
    H cs h → H cs h'

lemma IsAboutOps.neutral {H : List Call → ConnectionHandler κ → Prop} (hH : IsAboutOps H)
    (cs : List Call) (c : Call) (h : ConnectionHandler κ) (hc : c.IsNeutral) (hs : H cs h) :
    H (cs ++ [c]) h :=
  hH.inserted cs c [] h hc (by rwa [List.append_nil])

lemma IsAboutOps.append {H : List Call → ConnectionHandler κ → Prop} (hH : IsAboutOps H)
    {ds : List Call} (hds : ∀ c ∈ ds, c.IsNeutral) {cs : List Call} {h : ConnectionHandler κ}
    (hs : H cs h) : H (cs ++ ds) h := by
  induction ds generalizing cs with
  | nil => simpa using hs
  | cons d ds ih =>
      rw [List.append_cons]
      exact ih (fun c hc => hds c (List.mem_cons_of_mem _ hc))
        (hH.neutral cs d h (hds d List.mem_cons_self) hs)

lemma books_isAboutOps : IsAboutOps (Books cur : List Call → ConnectionHandler κ → Prop) :=
  ⟨fun _ _ _ _ hc hb => hb.neutral hc, fun _ _ _ h1 h2 h3 hb => hb.congr h1 h2 h3⟩

/-- A successful post: the operation is alive and in the table. -/
lemma Books.postOp_ok (hb : Books cur cs h) {post : OpId → Call} {u : Unit}
    (hpost : IsPost post (.ok u)) (callback : Option κ) :
    Books cur (cs ++ [.opNew h.nextOp, post h.nextOp])
      { h with
        callbackTable := insert h.nextOp h.callbackTable
        ops := (h.nextOp, callback) :: h.ops
        nextOp := h.nextOp + 1 } := by
  have hnew : h.nextOp ∉ opLedger.acquired cs := fun hmem => (hb.lt _ hmem).ne rfl
  have hfresh : h.nextOp ∉ h.aliveOps := fun hmem => (hb.lt_nextOp hmem).ne rfl
  have hacq : opLedger.acquired (cs ++ [.opNew h.nextOp, post h.nextOp]) =
      opLedger.acquired cs ++ [h.nextOp] := by
    simp [Ledger.acquired, hpost.acquires]
  have hposted := hpost.postedOps_ok cs h.nextOp
  have hcur : cur ≠ some h.nextOp := fun heq => hfresh (hb.current _ heq)
  refine ⟨?_, ?_, ?_, ?_, ?_, ?_, ?_, ?_⟩
  · rw [hacq]
    exact List.nodup_append.2 ⟨hb.created, List.nodup_singleton _, by
      rintro a ha b hb' rfl
      exact hnew (List.mem_singleton.1 hb' ▸ ha)⟩
  · intro op hop
    rw [hacq] at hop
    rcases List.mem_append.1 hop with hop | hop
    · exact Nat.lt_succ_of_lt (hb.lt op hop)
    · exact List.mem_singleton.1 hop ▸ Nat.lt_succ_self _
  · exact List.nodup_cons.2 ⟨hfresh, hb.nodup⟩
  · have h1 := hb.keeps.acquire (c := .opNew h.nextOp) (b := h.nextOp) rfl rfl
    have h2 := h1.other (hpost.acquires h.nextOp) (hpost.releases h.nextOp)
    rw [List.append_assoc] at h2
    exact h2
  · intro op hop
    rw [hposted]
    rcases List.mem_cons.1 hop with rfl | hop
    · exact List.mem_append_right _ List.mem_cons_self
    · exact List.mem_append_left _ (hb.posted op hop)
  · intro op hop
    rw [hposted] at hop
    rw [hacq]
    rcases List.mem_append.1 hop with hop | hop
    · exact List.mem_append_left _ (hb.posted_created op hop)
    · exact List.mem_append_right _ hop
  · intro op
    rw [Finset.mem_insert, hb.table op]
    show _ ↔ op ∈ h.nextOp :: h.aliveOps ∧ _
    rw [List.mem_cons]
    constructor
    · rintro (rfl | ⟨hop, hne⟩)
      · exact ⟨.inl rfl, hcur⟩
      · exact ⟨.inr hop, hne⟩
    · rintro ⟨rfl | hop, hne⟩
      · exact .inl rfl
      · exact .inr ⟨hop, hne⟩
  · intro op hop
    exact List.mem_cons_of_mem _ (hb.current op hop)

/-- A failed post: the operation is gone. -/
lemma Books.postOp_error (hb : Books cur cs h) {post : OpId → Call} {e : RpmaError}
    (hpost : IsPost post (.error e)) :
    Books cur (cs ++ [.opNew h.nextOp, post h.nextOp, .opDelete h.nextOp])
      { h with nextOp := h.nextOp + 1 } := by
  have hnew : h.nextOp ∉ opLedger.acquired cs := fun hmem => (hb.lt _ hmem).ne rfl
  have hacq : opLedger.acquired (cs ++ [.opNew h.nextOp, post h.nextOp, .opDelete h.nextOp]) =
      opLedger.acquired cs ++ [h.nextOp] := by
    simp [Ledger.acquired, hpost.acquires]
  have hposted := hpost.postedOps_error cs h.nextOp
  refine ⟨?_, ?_, hb.nodup, ?_, ?_, ?_, hb.table, hb.current⟩
  · rw [hacq]
    exact List.nodup_append.2 ⟨hb.created, List.nodup_singleton _, by
      rintro a ha b hb' rfl
      exact hnew (List.mem_singleton.1 hb' ▸ ha)⟩
  · intro op hop
    rw [hacq] at hop
    rcases List.mem_append.1 hop with hop | hop
    · exact Nat.lt_succ_of_lt (hb.lt op hop)
    · exact List.mem_singleton.1 hop ▸ Nat.lt_succ_self _
  · have h1 := hb.keeps.acquire (c := .opNew h.nextOp) (b := h.nextOp) rfl rfl
    have h2 := h1.other (hpost.acquires h.nextOp) (hpost.releases h.nextOp)
    have h3 := h2.release (c := .opDelete h.nextOp) rfl rfl
    rw [List.append_assoc, List.append_assoc] at h3
    exact h3
  · rw [hposted]
    exact hb.posted
  · rw [hposted, hacq]
    exact fun op hop => List.mem_append_left _ (hb.posted_created op hop)

/-- A posting function keeps the books. -/
lemma logs_postOp {post : OpId → Call} {res : Rpma Unit} (hpost : IsPost post res)
    (callback : Option κ) : Logs (Books cur) (postOp post res callback) fun _ => Books cur := by
  intro cs h hb
  cases res with
  | ok u => exact hb.postOp_ok hpost callback
  | error e =>
      have hops : (postOp post (.error e) callback h).state =
          { h with nextOp := h.nextOp + 1 } := by
        have hfresh : h.nextOp ∉ h.aliveOps := fun hmem => (hb.lt_nextOp hmem).ne rfl
        have hfilter : ((h.nextOp, callback) :: h.ops).filter (·.1 ≠ h.nextOp) = h.ops := by
          rw [List.filter_cons_of_neg (by simp), filter_ops_eq_self hfresh]
        show ({ h with
          ops := ((h.nextOp, callback) :: h.ops).filter (·.1 ≠ h.nextOp)
          nextOp := h.nextOp + 1 } : ConnectionHandler κ) = _
        rw [hfilter]
      rw [hops]
      exact hb.postOp_error hpost

/-- An operation is taken out of the table to be handled. -/
lemma logs_eraseOp (op : OpId) :
    Logs (fun cs h => Books none cs h ∧ op ∈ h.callbackTable) (eraseOp op)
      fun r cs (h : ConnectionHandler κ) => r = .ok () ∧ Books (some op) cs h := by
  refine Logs.update fun cs h ⟨hb, hop⟩ => ⟨rfl, ?_⟩
  refine ⟨hb.created, hb.lt, hb.nodup, hb.keeps, hb.posted, hb.posted_created, ?_, ?_⟩
  · intro x
    rw [Finset.mem_erase, hb.table x]
    constructor
    · rintro ⟨hne, hx, _⟩
      exact ⟨hx, fun heq => hne (Option.some.inj heq).symm⟩
    · rintro ⟨hx, hne⟩
      exact ⟨fun heq => hne (by rw [heq]), hx, by simp⟩
  · intro x hx
    obtain rfl := Option.some.inj hx
    exact ((hb.table op).1 hop).1

/-- The operation that has been handled is destroyed. -/
lemma logs_deleteOp (op : OpId) :
    Logs (Books (some op)) (deleteOp op) fun _ cs (h : ConnectionHandler κ) => Books none cs h := by
  intro cs h hb
  have hop : op ∈ h.aliveOps := hb.current op rfl
  have hlog : cs ++ log (deleteOp op h) = cs ++ [.opDelete op] := rfl
  have hacq : opLedger.acquired (cs ++ [.opDelete op]) = opLedger.acquired cs := by
    simp
  have hposted := postedOps_opDelete cs op
  -- what is alive afterwards
  have halive : (deleteOp op h).state.aliveOps = h.aliveOps.erase op := by
    show (h.ops.filter (·.1 ≠ op)).map Prod.fst = _
    rw [hb.nodup.erase_eq_filter, aliveOps, List.filter_map]
    refine congrArg _ (List.filter_congr fun p _ => ?_)
    by_cases hp : p.1 = op <;> simp [hp]
  have hmem : ∀ x, x ∈ (deleteOp op h).state.aliveOps ↔ x ≠ op ∧ x ∈ h.aliveOps := by
    intro x
    rw [halive, hb.nodup.mem_erase_iff]
  rw [hlog]
  refine ⟨?_, ?_, ?_, ?_, ?_, ?_, ?_, ?_⟩
  · rw [hacq]
    exact hb.created
  · rw [hacq]
    exact hb.lt
  · rw [halive]
    exact hb.nodup.erase op
  · refine Ledger.Keeps.release (b := op) ?_ rfl rfl
    rw [halive, Multiset.cons_coe, Multiset.coe_eq_coe.2 (List.perm_cons_erase hop).symm]
    exact hb.keeps
  · rw [hposted]
    exact fun x hx => hb.posted x ((hmem x).1 hx).2
  · rw [hacq, hposted]
    exact hb.posted_created
  · intro x
    show x ∈ h.callbackTable ↔ _
    rw [hb.table x, hmem x]
    constructor
    · rintro ⟨hx, hne⟩
      exact ⟨⟨fun heq => hne (by rw [heq]), hx⟩, by simp⟩
    · rintro ⟨⟨hne, hx⟩, _⟩
      exact ⟨hx, fun heq => hne (Option.some.inj heq).symm⟩
  · simp

/-- **A completion is handled**: its operation is taken out of the table, its callback, if there
is one, is run, and it is destroyed, whether or not the callback has thrown. -/
lemma logs_retire {σ : Type} (L : Lens σ (ConnectionHandler κ)) {run : κ → Prog σ Unit} (op : OpId)
    {H₀ H₁ : List Call → ConnectionHandler κ → Prop}
    {M H₂ : Except Stop Unit → List Call → ConnectionHandler κ → Prop}
    (herase : Logs H₀ (eraseOp op) fun r cs h => r = .ok () ∧ H₁ cs h)
    (hrun : ∀ k, Logs (fun cs s => H₁ cs (L.get s) ∧ (L.get s).ops.lookup op = some (some k))
      (run k) fun r cs s => M r cs (L.get s))
    (hnone : ∀ cs h, H₁ cs h → h.ops.lookup op = some none → M (.ok ()) cs h)
    (hdangling : ∀ cs h, H₁ cs h → h.ops.lookup op = none → M (.error .undefined) cs h)
    (hdelete : ∀ r, Logs (M r) (deleteOp op) fun _ => H₂ r) :
    Logs (fun cs s => H₀ cs (L.get s)) (retire L run op) fun r cs s => H₂ r cs (L.get s) := by
  have hcallback : Logs (fun cs s => H₁ cs (L.get s)) (doCallback L run op)
      fun r cs s => M r cs (L.get s) := by
    refine Logs.read fun t => ?_
    rcases ht : (L.get t).ops.lookup op with _ | _ | k
    · exact Logs.stop fun cs s hs => hdangling cs _ hs.1 (hs.2 ▸ ht)
    · exact Logs.ret fun cs s hs => hnone cs _ hs.1 (hs.2 ▸ ht)
    · exact (hrun k).conseq (fun cs s hs => ⟨hs.1, hs.2 ▸ ht⟩) fun _ _ _ hs => hs
  refine Logs.bind (M := fun _ cs s => H₁ cs (L.get s))
    ((herase.zoom L).conseq (fun _ _ hs => hs) ?_) fun _ => ?_
  · rintro (e | u) cs s ⟨hr, hs⟩
    · cases hr
    · exact hs
  · exact hcallback.ensuring fun r => (hdelete r).zoom L

/-! ### What has been posted is awaited -/

/-- Every operation that was posted is done with or in the table. -/
def Awaited (done : List OpId) (cs : List Call) (h : ConnectionHandler κ) : Prop :=
  ∀ op ∈ postedOps cs, op ∈ done ∨ op ∈ h.callbackTable

variable {done : List OpId}

lemma awaited_isAboutOps : IsAboutOps (Awaited done : List Call → ConnectionHandler κ → Prop) where
  inserted cs c ds h hc ha op hop := by
    have hposted : postedOps (cs ++ c :: ds) = postedOps (cs ++ ds) := by
      simp [postedOps, hc.posts]
    exact ha op (hposted ▸ hop)
  congr cs h h' htable _ _ ha op hop := by
    rw [htable]
    exact ha op hop

lemma awaited_postOp {post : OpId → Call} {res : Rpma Unit} (hpost : IsPost post res)
    (callback : Option κ) :
    Logs (Awaited done) (postOp post res callback) fun _ => Awaited done := by
  intro cs h ha
  cases res with
  | ok u =>
      intro op hop
      have hop' : op ∈ postedOps (cs ++ [.opNew h.nextOp, post h.nextOp]) := hop
      rw [hpost.postedOps_ok] at hop'
      rcases List.mem_append.1 hop' with hop' | hop'
      · exact (ha op hop').imp id fun htable => Finset.mem_insert_of_mem htable
      · exact .inr (List.mem_singleton.1 hop' ▸ Finset.mem_insert_self _ _)
  | error e =>
      intro op hop
      have hop' : op ∈ postedOps (cs ++ [.opNew h.nextOp, post h.nextOp, .opDelete h.nextOp]) := hop
      rw [hpost.postedOps_error] at hop'
      exact ha op hop'

lemma awaited_eraseOp (op : OpId) :
    Logs (Awaited done) (eraseOp op)
      fun r cs (h : ConnectionHandler κ) => r = .ok () ∧ Awaited (done ++ [op]) cs h := by
  refine Logs.update fun cs h ha => ⟨rfl, fun x hx => ?_⟩
  by_cases hxop : x = op
  · exact .inl (List.mem_append_right _ (List.mem_singleton.2 hxop))
  · exact (ha x hx).imp (List.mem_append_left _) fun htable => Finset.mem_erase.2 ⟨hxop, htable⟩

lemma awaited_deleteOp (op : OpId) :
    Logs (Awaited done) (deleteOp op) fun _ cs (h : ConnectionHandler κ) => Awaited done cs h := by
  intro cs h ha x hx
  have hx' : x ∈ postedOps (cs ++ [.opDelete op]) := hx
  rw [postedOps_opDelete] at hx'
  exact ha x hx'

/-- The books, when a completion is handled by a callback that keeps them. -/
lemma logs_retire_books {σ : Type} (L : Lens σ (ConnectionHandler κ)) {run : κ → Prog σ Unit}
    (op : OpId) (done : List OpId)
    (hrun : ∀ k, Logs (fun cs s => Books (some op) cs (L.get s) ∧
        Awaited (done ++ [op]) cs (L.get s)) (run k)
      fun _ cs s => Books (some op) cs (L.get s) ∧ Awaited (done ++ [op]) cs (L.get s)) :
    Logs (fun cs s => (Books none cs (L.get s) ∧ op ∈ (L.get s).callbackTable) ∧
        Awaited done cs (L.get s)) (retire L run op)
      fun _ cs s => Books none cs (L.get s) ∧ Awaited (done ++ [op]) cs (L.get s) := by
  refine logs_retire L op (M := fun _ cs h => Books (some op) cs h ∧ Awaited (done ++ [op]) cs h)
    (((logs_eraseOp op).and (awaited_eraseOp op)).conseq (fun _ _ hs => hs) fun r cs h hs =>
      ⟨hs.1.1, hs.1.2, hs.2.2⟩) (fun k => ?_) (fun _ _ hs _ => hs) (fun _ _ hs _ => hs)
    fun _ => (logs_deleteOp op).and (awaited_deleteOp op)
  exact (hrun k).conseq (fun _ _ hs => hs.1) fun _ _ _ hs => hs

/-- The error exit of `handle_completion` concerns no operation. -/
lemma logs_completionFailed {σ : Type} (L : Lens σ (ConnectionHandler κ))
    {H : List Call → ConnectionHandler κ → Prop} (hH : IsAboutOps H) (e : RpmaError) :
    Logs (fun cs s => H cs (L.get s)) (completionFailed L e) fun _ cs s => H cs (L.get s) := by
  refine Logs.ite (fun _ => Logs.ret fun _ _ hb => hb) fun _ => ?_
  have hdisconnect : Logs H (disconnect : Prog (ConnectionHandler κ) Unit) fun _ => H :=
    Logs.seq (Logs.update fun cs h hb => hH.congr cs h _ rfl rfl rfl hb)
      (fun _ => Logs.call fun cs h hb => hH.neutral cs _ h ⟨rfl, rfl, rfl⟩ hb) fun _ _ _ hb => hb
  exact Logs.seq (hdisconnect.zoom L) (fun _ => Logs.ret fun _ _ hb => hb) fun _ _ _ hb => hb

/-! ### Destruction -/

/-- The books of a handler that has been destroyed: nothing is left. -/
structure Closed (cs : List Call) (h : ConnectionHandler κ) : Prop where
  created : (opLedger.acquired cs).Nodup
  keeps : opLedger.Keeps cs 0
  posted_created : ∀ op ∈ postedOps cs, op ∈ opLedger.acquired cs
  table : h.callbackTable = ∅

/-- Every operation has been destroyed exactly once. -/
lemma Closed.released_once (hc : Closed cs h) {op : OpId} (hop : op ∈ opLedger.acquired cs) :
    (opLedger.released cs).count op = 1 := by
  rw [hc.keeps.settled op]
  exact List.count_eq_one_of_mem hc.created hop

lemma Closed.mem_callbackTable (hc : Closed cs h) (op : OpId) :
    op ∈ h.callbackTable ↔ op ∈ postedOps cs ∧ op ∉ opLedger.released cs := by
  rw [hc.table]
  constructor
  · intro hop
    exact absurd hop (Finset.notMem_empty op)
  · rintro ⟨hposted, hreleased⟩
    have hone := hc.released_once (hc.posted_created op hposted)
    rw [List.count_eq_zero_of_not_mem hreleased] at hone
    cases hone

/-- **Destruction** closes the books. -/
lemma logs_destroy :
    Logs (Books none) (destroy : Prog (ConnectionHandler κ) Unit) fun _ => Closed := by
  intro cs h hb
  obtain ⟨htable, _, hlog⟩ := destroy_eq h
  have hheld : (↑h.callbackTable.sort : Multiset OpId) = ↑h.aliveOps := by
    refine Multiset.coe_eq_coe.2
      ((List.perm_ext_iff_of_nodup (Finset.sort_nodup _ _) hb.nodup).2 ?_)
    intro op
    rw [Finset.mem_sort, hb.table op]
    simp
  have hacq : opLedger.acquired (cs ++ h.callbackTable.sort.map .opDelete) =
      opLedger.acquired cs := by
    simp [Ledger.acquired, List.filterMap_map, Function.comp_def]
  have hposted : postedOps (cs ++ h.callbackTable.sort.map .opDelete) = postedOps cs := by
    simp [postedOps, List.filterMap_map, Function.comp_def]
  rw [hlog]
  refine ⟨?_, ?_, ?_, htable⟩
  · rw [hacq]
    exact hb.created
  · refine Ledger.Keeps.releaseAll (fun _ => rfl) (fun _ => rfl) ?_
    rw [hheld, add_zero]
    exact hb.keeps
  · rw [hacq, hposted]
    exact hb.posted_created

end ConnectionHandler

end RpmaReplica
