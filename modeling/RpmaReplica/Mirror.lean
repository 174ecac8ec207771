import RpmaReplica.Client
import RpmaReplica.Lib.Link
import RpmaReplica.Storage

/-!
# A client that copies its memory into a replica

What the program is for: the memory that a client has handed to `set_head` is copied, by `write`
and `flush`, into the region that the server has registered for it, and so into a file of the
server.  The client and the whole server of `Host` run together here, with the network between
them.

The network is a `Link`.  It executes what the client has posted in the order of the posts.  An
operation succeeds only on a region that the server still has registered, and within its bounds;
the first operation that fails breaks the connection.  What is written is on its way until it lands
in the region, and a flush succeeds when nothing is on its way to its places any more.

`flushed_replicated` is the result: a byte that the client has written, and then flushed, is in the
file of the replica when the completion of the flush has been handled, and it stays there when the
connection is gone.
-/

namespace RpmaReplica

open Exec ConnectionHandler

/-! ### The machine -/

/-- An operation that is posted: the region that it names, where its data come from, and what is to
be done. -/
structure Posting where
  dst : Option MrRemote
  src : Option MrLocal
  work : Work
  deriving DecidableEq

/-- What a call posts, if it succeeds. -/
def Call.posting : Call → Option Posting
  | rpmaWrite dst dstOffset src srcOffset len (some op) (.ok _) =>
    some ⟨dst, some src, .write op srcOffset.toNat dstOffset.toNat len.toNat⟩
  | rpmaFlush dst dstOffset len _ (some op) (.ok _) =>
    some ⟨dst, none, .flush op dstOffset.toNat len.toNat⟩
  | _ => none

namespace Work

/-- The first place behind those of the remote memory. -/
def stop : Work → ℕ
  | write _ _ dst len => dst + len
  | flush _ dst len => dst + len

/-- The first place behind those of the memory that is copied. -/
def srcStop : Work → ℕ
  | write _ src _ len => src + len
  | flush _ _ _ => 0

/-- The operation as a completion names it. -/
def opcode : Work → RpmaOpcode
  | write _ _ _ _ => .write
  | flush _ _ _ => .flush

end Work

/-- A client and the server: the memory that the client has registered, the bytes on their way,
the operations that are posted and not executed, the completions that are not handled and those
that are, and whether the connection is broken. -/
structure Mirror where
  host : Host
  client : ClientHandler
  head : ℕ → UInt8
  transit : ℕ → Option UInt8
  posted : List Posting
  queue : List Completion
  handled : List Completion
  broken : Bool
  stopped : Option Stop

/-- What can happen. -/
inductive MirrorAct
  /-- Anything that happens to the server. -/
  | host (a : HostAct)
  /-- The application changes its memory. -/
  | change (off : ℕ) (byte : UInt8)
  /-- `set_head`, on memory with the given content. -/
  | setHead (headPtr : Ptr) (size : UInt64) (reg : Rpma Bytes) (content : ℕ → UInt8)
  | write (res : Rpma Unit) (offset len : UInt64) (callback : Option ℕ)
  | flush (res : Rpma Unit) (offset len : UInt64) (callback : Option ℕ)
  /-- `init_replica` and `close_replica` up to their loops. -/
  | init (recv send : Rpma Unit) (cacheId : UInt32) (cacheSize : UInt64)
      (poolName imageName : Bytes)
  | close (recv send : Rpma Unit)
  | disconnect
  /-- `handle_completion` takes the completion of a receive. -/
  | receive (content : MsgBuf) (env : RemoteEnv) (op : OpId)
  /-- `handle_completion` takes the completion of a send. -/
  | sent (env : RemoteEnv) (op : OpId)
  /-- `handle_completion` takes the next completion of a write or a flush. -/
  | handle (env : RemoteEnv)
  /-- The network executes the next operation, with or without success. -/
  | execute (ok : Bool)
  /-- A byte gets to the region. -/
  | land (off : ℕ)
  | cut

namespace Mirror

/-- A client with some memory, and a server that has just started. -/
def start (fd : Handle) (files : FileSystem) (nextFile : ℕ) (client : ClientHandler)
    (head : ℕ → UInt8) : Mirror where
  host := Host.start fd files nextFile
  client := client
  head := head
  transit _ := none
  posted := []
  queue := []
  handled := []
  broken := false
  stopped := none

/-- What a function of the client has done. -/
def after {ρ : Type} (s : Mirror) (o : Outcome Call Stop ClientHandler ρ) : Mirror :=
  { s with
    client := o.state
    posted := s.posted ++ (log o).filterMap Call.posting
    stopped := Host.stopOf o.result }

/-- The region that the server has registered for the connection. -/
def registered (s : Mirror) (conn : HandlerId) : Option MrLocal :=
  if s.host.stopped = none then (s.host.alive conn).bind fun l => l.watched.handler.dataMr
  else none

/-- The network lets an operation through: it names the region that is registered and stays within
it, and so it does with the memory that it copies.  `remote` is what librpma makes of the
descriptor of a region. -/
def Accessible (remote : Bytes → MrRemote) (conn : HandlerId) (s : Mirror) (x : Posting) : Prop :=
  (∃ mr ∈ s.registered conn, x.dst = some (remote mr.descriptor) ∧ x.work.stop ≤ mr.size.toNat) ∧
    ∀ src ∈ x.src, s.client.dataMr = some src ∧ x.work.srcStop ≤ src.size.toNat

instance (remote : Bytes → MrRemote) (conn : HandlerId) (s : Mirror) (x : Posting) :
    Decidable (Accessible remote conn s x) := inferInstanceAs (Decidable (_ ∧ _))

/-- The next operation is executed. -/
def executed (remote : Bytes → MrRemote) (conn : HandlerId) (s : Mirror) (ok : Bool) :
    Option Mirror :=
  match s.posted with
  | [] => none
  | x :: xs =>
    if ok then
      if s.broken = false ∧ Accessible remote conn s x ∧ x.work.Ready s.transit then
        some { s with
          transit := x.work.sent s.head s.transit
          posted := xs
          queue := s.queue ++ [⟨some x.work.id, x.work.opcode, true⟩] }
      else none
    else some { s with
      posted := xs
      queue := s.queue ++ [⟨some x.work.id, x.work.opcode, false⟩]
      broken := true }

/-- The region of the connection is not one of pmem. -/
def InDram (s : Mirror) (conn : HandlerId) : Prop :=
  ∃ m ∈ s.host.region conn, m.data ≠ none ∧ m.isPmem = false

instance (s : Mirror) (conn : HandlerId) : Decidable (s.InDram conn) :=
  inferInstanceAs (Decidable (∃ m ∈ s.host.region conn, _))

/-- A byte gets to the region of the connection.  Where there is no place for it the connection
breaks; what is in DRAM is not in a file. -/
def landed (conn : HandlerId) (s : Mirror) (off : ℕ) (byte : UInt8) : Mirror :=
  match Host.machine.step s.host (.store conn off byte) with
  | some host => { s with host := host, transit := Function.update s.transit off none }
  | none => { s with
      transit := Function.update s.transit off none
      broken := s.broken || !decide (s.InDram conn) }

/-- What is stored through the region of the connection comes from the network. -/
def Local (conn : HandlerId) : HostAct → Prop
  | .event _ _ _ => True
  | .store id _ _ => id ≠ conn

instance (conn : HandlerId) (a : HostAct) : Decidable (Local conn a) := by
  cases a with
  | event => exact isTrue trivial
  | store id => exact inferInstanceAs (Decidable (id ≠ conn))

/-- The operations that were posted, in the order of the posts. -/
def ops (s : Mirror) : List OpId :=
  (s.handled ++ s.queue).filterMap Completion.opContext ++ s.posted.map fun x => x.work.id

/-- What a step of the client does. -/
def clientStep (s : Mirror) : MirrorAct → Option Mirror
  | .change off byte => some { s with head := Function.update s.head off byte }
  | .setHead headPtr size reg content =>
    some { s.after (ClientHandler.setHead headPtr size reg s.client) with
      head := if reg.isOk then content else s.head }
  | .write res offset len callback =>
    some (s.after (ClientHandler.write res offset len callback s.client))
  | .flush res offset len callback =>
    some (s.after (ClientHandler.flush res offset len callback s.client))
  | .init recv send cacheId cacheSize poolName imageName =>
    some (s.after (ClientHandler.postInit recv send cacheId cacheSize poolName imageName s.client))
  | .close recv send => some (s.after (ClientHandler.postFinished recv send s.client))
  -- the other end is told, and the connection breaks some time later
  | .disconnect => some (s.after (ClientHandler.disconnect s.client))
  | .receive content env op =>
    match s.client.ops.lookup op with
    | some (some (.initReply _)) | some (some (.finishedReply _)) =>
      some (s.after (retire ClientHandler.base (ClientHandler.runCallback env) op
        { s.client with recvBl := content }))
    | _ => none
  | .sent env op =>
    if s.client.ops.lookup op = some none ∧ op ∉ s.ops then
      some (s.after (retire ClientHandler.base (ClientHandler.runCallback env) op s.client))
    else none
  | .handle env =>
    match s.queue with
    | [] => none
    | c :: cs => some { s.after (completionTaken ClientHandler.base
        (ClientHandler.runCallback env) c s.client) with
      queue := cs
      handled := s.handled ++ [c] }
  | _ => none

/-- A client and the server, in any interleaving.  A client that has stopped takes no further
steps. -/
def machine (remote : Bytes → MrRemote) (conn : HandlerId) : Machine Mirror MirrorAct where
  step s
    | .host a =>
      if Local conn a then (Host.machine.step s.host a).map fun host => { s with host := host }
      else none
    | .execute ok => s.executed remote conn ok
    | .land off => (s.transit off).map (s.landed conn off)
    | .cut => some { s with broken := true }
    | a => if s.stopped = none then s.clientStep a else none

/-- What is asked of the outside: new connections of the server have fds of their own. -/
def Allowed (s : Mirror) : MirrorAct → Prop
  | .host a => s.host.Allowed a
  | _ => True

/-- The step leaves the byte at `off` alone, in the memory of the client and in the file at the
path: nobody removes the file or stores there, the connection does not finish, and the client does
not change its memory there. -/
def Spares (p : Bytes) (conn : HandlerId) (off : ℕ) (s : Mirror) : MirrorAct → Prop
  | .host a => ¬s.host.Removes p a ∧ ¬s.host.Finishes conn a ∧
    ∀ id byte m, a = .store id off byte → s.host.region id = some m → cStr m.path ≠ p
  | .change off' _ => off' ≠ off
  | .setHead _ _ reg content => reg.isOk = true → content off = s.head off
  | _ => True

end Mirror

/-! ### What the client posts -/

@[simp] lemma posting_opNew (op : OpId) : (Call.opNew op).posting = none := rfl

@[simp] lemma posting_opDelete (op : OpId) : (Call.opDelete op).posting = none := rfl

/-- What is of no concern to an operation posts nothing. -/
lemma Call.posting_of_isNeutral {c : Call} (h : c.IsNeutral) : c.posting = none := by
  have hposts := h.posts
  cases c with
  | rpmaWrite _ _ _ _ _ ctx res => cases ctx <;> cases res <;> first | rfl | cases hposts
  | rpmaFlush _ _ _ _ ctx res => cases ctx <;> cases res <;> first | rfl | cases hposts
  | _ => rfl

/-- The calls post no write and no flush, and the numbers of operations do not go back. -/
def Quiet (n : OpId) (cs : List Call) (h : ConnectionHandler ClientCallback) : Prop :=
  cs.filterMap Call.posting = [] ∧ n ≤ h.nextOp

section Quiet

variable {n : OpId}

lemma quiet_isAboutOps : IsAboutOps (Quiet n) where
  inserted cs c ds h hc hq := by
    refine ⟨?_, hq.2⟩
    rw [List.filterMap_append, List.filterMap_cons_none (Call.posting_of_isNeutral hc),
      ← List.filterMap_append]
    exact hq.1
  congr cs h h' _ _ hnext hq := ⟨hq.1, hnext ▸ hq.2⟩

lemma quiet_postOp {post : OpId → Call} (hpost : ∀ op, (post op).posting = none) (res : Rpma Unit)
    (callback : Option ClientCallback) :
    Logs (Quiet n) (postOp post res callback) fun _ => Quiet n := by
  rintro cs h ⟨hcs, hn⟩
  refine ⟨?_, ?_⟩
  · rw [List.filterMap_append, hcs]
    cases res with
    | ok u =>
        have hlog : log (postOp post (.ok u) callback h) = [.opNew h.nextOp, post h.nextOp] := rfl
        simp [hlog, List.filterMap_cons, hpost]
    | error e =>
        have hlog : log (postOp post (.error e) callback h) =
            [.opNew h.nextOp, post h.nextOp, .opDelete h.nextOp] := rfl
        simp [hlog, List.filterMap_cons, hpost]
  · cases res <;> exact Nat.le_succ_of_le hn

lemma quiet_retire (env : RemoteEnv) (op : OpId) :
    Logs (fun cs h => Quiet n cs (ClientHandler.base.get h))
      (retire ClientHandler.base (ClientHandler.runCallback env) op)
      fun _ cs h => Quiet n cs (ClientHandler.base.get h) := by
  have herase : Logs (Quiet n) (eraseOp (κ := ClientCallback) op) fun r cs h =>
      r = .ok () ∧ Quiet n cs h := Logs.update fun _ _ hq => ⟨rfl, hq⟩
  refine logs_retire ClientHandler.base op (M := fun _ => Quiet n) herase ?_ ?_ ?_ ?_
  · intro k
    exact (ClientHandler.logs_runCallback_ops quiet_isAboutOps env k).conseq
      (fun _ _ hq => hq.1) fun _ _ _ hq => hq
  · exact fun _ _ hq _ => hq
  · exact fun _ _ hq _ => hq
  · intro r
    refine Logs.seq (Logs.call fun cs h hq => ⟨?_, hq.2⟩) (fun _ => Logs.update fun _ _ hq => hq)
      fun _ _ _ hq => hq
    rw [List.filterMap_append, hq.1]
    rfl

end Quiet

/-- What a function of the client that posts neither a write nor a flush has done. -/
def Quietly {ρ : Type} (h : ClientHandler) (o : Outcome Call Stop ClientHandler ρ) : Prop :=
  Quiet h.nextOp (log o) o.state.toConnectionHandler

namespace ClientHandler

variable {h : ClientHandler}

lemma quietly_of_logs {ρ : Type} {m : Prog ClientHandler ρ} {k : ClientHandler}
    (hm : Logs (fun cs h' => Quiet h.nextOp cs h'.toConnectionHandler) m
      fun _ cs h' => Quiet h.nextOp cs h'.toConnectionHandler) (hk : k.nextOp = h.nextOp) :
    Quietly h (m k) := by
  have hq := hm [] k ⟨rfl, hk.ge⟩
  rwa [List.nil_append] at hq

lemma quietly_setHead (headPtr : Ptr) (size : UInt64) (reg : Rpma Bytes) :
    Quietly h (setHead headPtr size reg h) := by
  cases reg with
  | error e => exact ⟨rfl, le_rfl⟩
  | ok descriptor =>
      cases hmr : h.dataMr with
      | none =>
          have hlog : log (setHead headPtr size (.ok descriptor) h) =
              [.mrReg headPtr size rpmaMrUsageWriteSrc
                (.ok ⟨headPtr, size, rpmaMrUsageWriteSrc, descriptor⟩)] ∧
              (setHead headPtr size (.ok descriptor) h).state.nextOp = h.nextOp := by
            simp only [setHead, resetDataMr, bind_apply, update_apply, call_apply, read_apply,
              Outcome.andThen_ok, Except.map, hmr]
            exact ⟨rfl, rfl⟩
          exact ⟨by rw [hlog.1]; rfl, hlog.2.ge⟩
      | some old =>
          have hlog : log (setHead headPtr size (.ok descriptor) h) =
              [.mrReg headPtr size rpmaMrUsageWriteSrc
                (.ok ⟨headPtr, size, rpmaMrUsageWriteSrc, descriptor⟩), .mrDereg old] ∧
              (setHead headPtr size (.ok descriptor) h).state.nextOp = h.nextOp := by
            simp only [setHead, resetDataMr, bind_apply, update_apply, call_apply, read_apply,
              Outcome.andThen_ok, Except.map, hmr]
            exact ⟨rfl, rfl⟩
          exact ⟨by rw [hlog.1]; rfl, hlog.2.ge⟩

lemma quietly_postRequest (recv send : Rpma Unit) (request : Bytes)
    (callback : ℕ → ClientCallback) {k : ClientHandler} (hk : k.nextOp = h.nextOp) :
    Quietly h (postRequest recv send request callback k) := by
  have hrecv : Logs (Quiet h.nextOp) (ConnectionHandler.recv recv (some (callback k.nextCall)))
      fun _ => Quiet h.nextOp := quiet_postOp (fun _ => rfl) recv _
  have hlogs := logs_postRequest quiet_isAboutOps hrecv (quiet_postOp (fun _ => rfl) send none)
    request [] k ⟨⟨rfl, hk.ge⟩, rfl⟩
  rwa [List.nil_append] at hlogs

lemma quietly_postInit (recv send : Rpma Unit) (cacheId : UInt32) (cacheSize : UInt64)
    (poolName imageName : Bytes) :
    Quietly h (postInit recv send cacheId cacheSize poolName imageName h) := by
  rw [postInit, update_bind]
  exact quietly_postRequest recv send _ _ rfl

lemma quietly_postFinished (recv send : Rpma Unit) : Quietly h (postFinished recv send h) :=
  quietly_postRequest recv send _ _ rfl

lemma quietly_retire (env : RemoteEnv) (op : OpId) {k : ClientHandler}
    (hk : k.nextOp = h.nextOp) : Quietly h (retire base (runCallback env) op k) :=
  quietly_of_logs (quiet_retire env op) hk

lemma quietly_completionTaken (env : RemoteEnv) (c : Completion) :
    Quietly h (completionTaken base (runCallback env) c h) := by
  rw [completionTaken]
  split
  · exact ⟨rfl, le_rfl⟩
  · cases c.opContext with
    | none => exact ⟨rfl, le_rfl⟩
    | some op =>
        have hret := quietly_retire (h := h) env op (k := h) rfl
        rw [Quietly] at hret ⊢
        simp only [bind_apply, andThen_pure]
        exact hret

/-- `write` posts an operation with the same offset on both sides, unless the post fails or it
stops before. -/
lemma write_posts (res : Rpma Unit) (offset len : UInt64) (callback : Option ℕ) :
    (Quietly h (write res offset len callback h) ∧
      (res = .ok () → Host.stopOf (write res offset len callback h).result ≠ none)) ∨
      ∃ src, (log (write res offset len callback h)).filterMap Call.posting =
          [⟨h.imageMr, some src, .write h.nextOp offset.toNat offset.toNat len.toNat⟩] ∧
        (write res offset len callback h).state.nextOp = h.nextOp + 1 := by
  cases hmr : h.dataMr with
  | none =>
      left
      simp only [write, bind_apply, read_apply, Outcome.andThen_ok, hmr]
      exact ⟨⟨rfl, le_rfl⟩, fun _ => Option.some_ne_none _⟩
  | some src =>
      by_cases hlen : len.toNat ≤ 1024 * 1024 * 1024
      · cases res with
        | ok u =>
            right
            refine ⟨src, ?_, ?_⟩
            · simp only [write, bind_apply, read_apply, Outcome.andThen_ok, hmr, if_pos hlen]
              rfl
            · simp only [write, bind_apply, read_apply, Outcome.andThen_ok, hmr, if_pos hlen]
              rfl
        | error e =>
            left
            simp only [write, bind_apply, read_apply, Outcome.andThen_ok, hmr, if_pos hlen]
            exact ⟨⟨rfl, Nat.le_succ _⟩, nofun⟩
      · left
        simp only [write, bind_apply, read_apply, Outcome.andThen_ok, hmr, if_neg hlen]
        exact ⟨⟨rfl, le_rfl⟩, fun _ => Option.some_ne_none _⟩

/-- `flush` posts a flush, unless the post fails or it stops before. -/
lemma flush_posts (res : Rpma Unit) (offset len : UInt64) (callback : Option ℕ) :
    (Quietly h (flush res offset len callback h) ∧
      (res = .ok () → Host.stopOf (flush res offset len callback h).result ≠ none)) ∨
      ((log (flush res offset len callback h)).filterMap Call.posting =
          [⟨h.imageMr, none, .flush h.nextOp offset.toNat len.toNat⟩] ∧
        (flush res offset len callback h).state.nextOp = h.nextOp + 1) := by
  by_cases hmr : h.dataMr = none
  · left
    simp only [flush, bind_apply, read_apply, Outcome.andThen_ok, if_pos hmr]
    exact ⟨⟨rfl, le_rfl⟩, fun _ => Option.some_ne_none _⟩
  · cases res with
    | ok u =>
        right
        refine ⟨?_, ?_⟩
        · simp only [flush, bind_apply, read_apply, Outcome.andThen_ok, if_neg hmr]
          rfl
        · simp only [flush, bind_apply, read_apply, Outcome.andThen_ok, if_neg hmr]
          rfl
    | error e =>
        left
        simp only [flush, bind_apply, read_apply, Outcome.andThen_ok, if_neg hmr]
        exact ⟨⟨rfl, Nat.le_succ _⟩, nofun⟩

end ClientHandler

namespace Mirror

variable {fd : Handle} {s t : Mirror} {a : MirrorAct} {p : Bytes} {conn : HandlerId} {off : ℕ}
  {remote : Bytes → MrRemote}

/-! ### The numbers of the operations -/

/-- Every operation has a number of its own, and copies each place to itself. -/
structure Books (s : Mirror) : Prop where
  straight : ∀ x ∈ s.posted, x.work.Straight
  nodup : s.ops.Nodup
  lt : ∀ op ∈ s.ops, op < s.client.nextOp

/-- A call that may post a write or a flush. -/
def MayPost : MirrorAct → Prop
  | .write _ _ _ _ | .flush _ _ _ _ => True
  | _ => False

/-- What the steps of the client do to what is posted. -/
inductive Posts (s : Mirror) (a : MirrorAct) : Mirror → Prop
  | nothing {t : Mirror} (hposted : t.posted = s.posted)
      (hops : t.handled ++ t.queue = s.handled ++ s.queue)
      (hnext : s.client.nextOp ≤ t.client.nextOp) : Posts s a t
  | one {t : Mirror} {x : Posting} (hact : MayPost a) (hposted : t.posted = s.posted ++ [x])
      (hops : t.handled ++ t.queue = s.handled ++ s.queue) (hid : x.work.id = s.client.nextOp)
      (hstraight : x.work.Straight) (hnext : t.client.nextOp = s.client.nextOp + 1) : Posts s a t

lemma Books.posts (h : s.Books) (ht : Posts s a t) : t.Books := by
  cases ht with
  | nothing hposted hops hnext =>
      have heq : t.ops = s.ops := by rw [ops, ops, hops, hposted]
      exact ⟨hposted ▸ h.straight, heq ▸ h.nodup,
        fun op hop => (h.lt op (heq ▸ hop)).trans_le hnext⟩
  | @one x _ hposted hops hid hstraight hnext =>
      have heq : t.ops = s.ops ++ [s.client.nextOp] := by
        rw [ops, ops, hops, hposted, List.map_append, List.map_singleton, hid, List.append_assoc]
      refine ⟨?_, ?_, ?_⟩
      · intro y hy
        rw [hposted] at hy
        rcases List.mem_append.1 hy with hy | hy
        · exact h.straight y hy
        · rw [List.mem_singleton.1 hy]
          exact hstraight
      · rw [heq]
        refine List.nodup_append_comm.1 (List.nodup_cons.2 ⟨fun hop => ?_, h.nodup⟩)
        exact lt_irrefl _ (h.lt _ hop)
      · intro op hop
        rw [heq] at hop
        rw [hnext]
        rcases List.mem_append.1 hop with hop | hop
        · exact Nat.lt_succ_of_lt (h.lt op hop)
        · rw [List.mem_singleton.1 hop]
          exact Nat.lt_succ_self _

lemma posts_of_quietly {ρ : Type} {o : Outcome Call Stop ClientHandler ρ}
    (h : Quietly s.client o) (hclient : t.client = o.state)
    (hposted : t.posted = s.posted ++ (log o).filterMap Call.posting)
    (hops : t.handled ++ t.queue = s.handled ++ s.queue) : Posts s a t := by
  refine .nothing ?_ hops (hclient ▸ h.2)
  rw [hposted, h.1, List.append_nil]

/-- **What a step of the client does**: to its memory, and to what is posted. -/
lemma clientStep_posts (h : s.clientStep a = some t) :
    Posts s a t ∧ t.host = s.host ∧ t.transit = s.transit ∧ t.broken = s.broken ∧
      (t.head = s.head ∨ (∃ off byte, a = .change off byte ∧
        t.head = Function.update s.head off byte) ∨
        ∃ headPtr size reg content, a = .setHead headPtr size reg content ∧ reg.isOk = true ∧
          t.head = content) := by
  cases a with
  | change off byte =>
      obtain rfl := Option.some.inj h
      exact ⟨.nothing rfl rfl le_rfl, rfl, rfl, rfl, .inr (.inl ⟨off, byte, rfl, rfl⟩)⟩
  | setHead headPtr size reg content =>
      obtain rfl := Option.some.inj h
      refine ⟨posts_of_quietly (ClientHandler.quietly_setHead headPtr size reg) rfl rfl rfl, rfl,
        rfl, rfl, ?_⟩
      cases hreg : reg.isOk with
      | true => exact .inr (.inr ⟨headPtr, size, reg, content, rfl, hreg, by simp⟩)
      | false => exact .inl (by simp)
  | write res offset len callback =>
      obtain rfl := Option.some.inj h
      refine ⟨?_, rfl, rfl, rfl, .inl rfl⟩
      rcases ClientHandler.write_posts (h := s.client) res offset len callback with
        ⟨hq, -⟩ | ⟨src, hposting, hnext⟩
      · exact posts_of_quietly hq rfl rfl rfl
      · exact .one trivial (congrArg (s.posted ++ ·) hposting) rfl rfl rfl hnext
  | flush res offset len callback =>
      obtain rfl := Option.some.inj h
      refine ⟨?_, rfl, rfl, rfl, .inl rfl⟩
      rcases ClientHandler.flush_posts (h := s.client) res offset len callback with
        ⟨hq, -⟩ | ⟨hposting, hnext⟩
      · exact posts_of_quietly hq rfl rfl rfl
      · exact .one trivial (congrArg (s.posted ++ ·) hposting) rfl rfl trivial hnext
  | init recv send cacheId cacheSize poolName imageName =>
      obtain rfl := Option.some.inj h
      exact ⟨posts_of_quietly (ClientHandler.quietly_postInit recv send cacheId cacheSize poolName
        imageName) rfl rfl rfl, rfl, rfl, rfl, .inl rfl⟩
  | close recv send =>
      obtain rfl := Option.some.inj h
      exact ⟨posts_of_quietly (ClientHandler.quietly_postFinished recv send) rfl rfl rfl, rfl, rfl,
        rfl, .inl rfl⟩
  | disconnect =>
      obtain rfl := Option.some.inj h
      exact ⟨.nothing (List.append_nil _) rfl le_rfl, rfl, rfl, rfl, .inl rfl⟩
  | receive content env op =>
      have hquiet := ClientHandler.quietly_retire (h := s.client) env op
        (k := { s.client with recvBl := content }) rfl
      simp only [clientStep] at h
      split at h
      · obtain rfl := Option.some.inj h
        exact ⟨posts_of_quietly hquiet rfl rfl rfl, rfl, rfl, rfl, .inl rfl⟩
      · obtain rfl := Option.some.inj h
        exact ⟨posts_of_quietly hquiet rfl rfl rfl, rfl, rfl, rfl, .inl rfl⟩
      · cases h
  | sent env op =>
      simp only [clientStep, Option.ite_none_right_eq_some] at h
      obtain rfl := Option.some.inj h.2
      exact ⟨posts_of_quietly (ClientHandler.quietly_retire env op rfl) rfl rfl rfl, rfl, rfl, rfl,
        .inl rfl⟩
  | handle env =>
      cases hqueue : s.queue with
      | nil => simp [clientStep, hqueue] at h
      | cons c cs =>
          simp only [clientStep, hqueue] at h
          obtain rfl := Option.some.inj h
          refine ⟨posts_of_quietly (ClientHandler.quietly_completionTaken env c) rfl rfl ?_, rfl,
            rfl, rfl, .inl rfl⟩
          simp [hqueue]
  | host _ | execute _ | land _ | cut => cases h

/-- What an execution is. -/
lemma executed_cases {ok : Bool} (h : s.executed remote conn ok = some t) :
    ∃ x xs, s.posted = x :: xs ∧
      ((ok = true ∧ s.broken = false ∧ Accessible remote conn s x ∧ x.work.Ready s.transit ∧
        t = { s with
          transit := x.work.sent s.head s.transit
          posted := xs
          queue := s.queue ++ [⟨some x.work.id, x.work.opcode, true⟩] }) ∨
      (ok = false ∧ t = { s with
        posted := xs
        queue := s.queue ++ [⟨some x.work.id, x.work.opcode, false⟩]
        broken := true })) := by
  rw [executed] at h
  cases hposted : s.posted with
  | nil => simp [hposted] at h
  | cons x xs =>
      refine ⟨x, xs, rfl, ?_⟩
      cases ok with
      | false =>
          simp only [hposted, Bool.false_eq_true, if_false] at h
          exact .inr ⟨rfl, (Option.some.inj h).symm⟩
      | true =>
          simp only [hposted, if_true, Option.ite_none_right_eq_some] at h
          exact .inl ⟨rfl, h.1.1, h.1.2.1, h.1.2.2, (Option.some.inj h.2).symm⟩

/-- **What a step is.** -/
lemma step_cases (h : (machine remote conn).step s a = some t) :
    (∃ b host, a = .host b ∧ Local conn b ∧ Host.machine.step s.host b = some host ∧
      t = { s with host := host }) ∨
    (∃ ok, a = .execute ok ∧ s.executed remote conn ok = some t) ∨
    (∃ off byte, a = .land off ∧ s.transit off = some byte ∧ t = s.landed conn off byte) ∨
    (a = .cut ∧ t = { s with broken := true }) ∨
    (s.stopped = none ∧ s.clientStep a = some t) := by
  cases a with
  | host b =>
      simp only [machine, Option.ite_none_right_eq_some] at h
      obtain ⟨hb, h⟩ := h
      obtain ⟨host, hhost, rfl⟩ := Option.map_eq_some_iff.1 h
      exact .inl ⟨b, host, rfl, hb, hhost, rfl⟩
  | execute ok => exact .inr (.inl ⟨ok, rfl, h⟩)
  | land off =>
      obtain ⟨byte, hbyte, rfl⟩ := Option.map_eq_some_iff.1 h
      exact .inr (.inr (.inl ⟨off, byte, rfl, hbyte, rfl⟩))
  | cut => exact .inr (.inr (.inr (.inl ⟨rfl, (Option.some.inj h).symm⟩)))
  | change _ _ | setHead _ _ _ _ | write _ _ _ _ | flush _ _ _ _ | init _ _ _ _ _ _ | close _ _
  | disconnect | receive _ _ _ | sent _ _ | handle _ =>
      simp only [machine, Option.ite_none_right_eq_some] at h
      exact .inr (.inr (.inr (.inr h)))

lemma landed_frame (conn : HandlerId) (s : Mirror) (off : ℕ) (byte : UInt8) :
    (s.landed conn off byte).posted = s.posted ∧ (s.landed conn off byte).queue = s.queue ∧
      (s.landed conn off byte).handled = s.handled ∧ (s.landed conn off byte).head = s.head ∧
      (s.landed conn off byte).client = s.client ∧
      (s.landed conn off byte).transit = Function.update s.transit off none := by
  rw [landed]
  split <;> exact ⟨rfl, rfl, rfl, rfl, rfl, rfl⟩

lemma Books.step (h : s.Books) (hs : (machine remote conn).step s a = some t) : t.Books := by
  obtain ⟨b, host, rfl, -, -, rfl⟩ | ⟨ok, rfl, hs⟩ | ⟨off, byte, rfl, -, rfl⟩ | ⟨rfl, rfl⟩ |
    ⟨-, hs⟩ := step_cases hs
  · exact ⟨h.straight, h.nodup, h.lt⟩
  · obtain ⟨x, xs, hposted, hcases⟩ := executed_cases hs
    -- an operation moves from the posted ones to the completions
    have hops : t.ops = s.ops ∧ t.posted = xs ∧ t.client = s.client := by
      rcases hcases with ⟨-, -, -, -, rfl⟩ | ⟨-, rfl⟩ <;> exact ⟨by simp [ops, hposted], rfl, rfl⟩
    refine ⟨fun y hy => ?_, hops.1 ▸ h.nodup, ?_⟩
    · rw [hops.2.1] at hy
      exact h.straight y (hposted ▸ List.mem_cons_of_mem _ hy)
    · rw [hops.1, hops.2.2]
      exact h.lt
  · obtain ⟨hposted, hqueue, hhandled, -, hclient, -⟩ := landed_frame conn s off byte
    exact h.posts (a := .land off) (.nothing hposted (by rw [hhandled, hqueue]) (by rw [hclient]))
  · exact ⟨h.straight, h.nodup, h.lt⟩
  · exact h.posts (clientStep_posts hs).1

/-! ### The replica as the other end of a link -/

/-- The byte at a place of the file at the path. -/
def byteAt (p : Bytes) (files : FileSystem) (off : ℕ) : UInt8 :=
  match files p with
  | some f => f.content off
  | none => 0

/-- How an operation has ended. -/
def outcome (c : Completion) : Option (ℕ × Bool) := c.opContext.map fun op => (op, c.success)

/-- The link between the memory of the client and the file at the path.  It counts as broken when
the connection is gone on the side of the server. -/
def link (p : Bytes) (conn : HandlerId) (s : Mirror) : Link UInt8 where
  source := s.head
  target := byteAt p s.host.files
  transit := s.transit
  work := s.posted.map Posting.work
  done := (s.handled ++ s.queue).filterMap outcome
  broken := s.broken || s.host.stopped.isSome || (s.host.alive conn).isNone

lemma map_outcome (cs : List Completion) :
    (cs.filterMap outcome).map Prod.fst = cs.filterMap Completion.opContext := by
  rw [List.map_filterMap]
  congr 1
  funext c
  cases h : c.opContext <;> simp [outcome, h]

/-- The numbers of the operations of the link. -/
lemma link_ops (p : Bytes) (conn : HandlerId) (s : Mirror) :
    (s.link p conn).done.map Prod.fst ++ (s.link p conn).work.map Work.id = s.ops := by
  simp only [link, map_outcome, List.map_map, ops]
  rfl

lemma Books.allStraight (h : s.Books) : (s.link p conn).AllStraight := by
  intro w hw
  obtain ⟨x, hx, rfl⟩ := List.mem_map.1 hw
  exact h.straight x hx

lemma Books.distinct (h : s.Books) : (s.link p conn).Distinct := by
  rw [Link.Distinct, link_ops]
  exact h.nodup

/-- The connection has a region that is the file at the path, or it is gone for good. -/
structure Anchored (fd : Handle) (p : Bytes) (conn : HandlerId) (s : Mirror) : Prop where
  inv : Host.Inv fd s.host
  known : conn < s.host.dispatcher.nextId
  file : ∃ f, s.host.files p = some f
  region : ∀ m, s.host.region conn = some m → m.HoldsPmem ∧ cStr m.path = p ∧
    ∀ f, s.host.files p = some f → s.host.mapped conn = some f.id

end Mirror

namespace Host

variable {s t : Host} {a : HostAct} {p : Bytes} {off : ℕ}

/-- A step that neither removes the file at the path nor stores at the place leaves the byte there
as it is. -/
lemma Touches.byte (h : Touches s a t) (hremoves : ¬s.Removes p a)
    (hstore : ∀ id byte m, a = .store id off byte → s.region id = some m → cStr m.path ≠ p)
    {f : File} (hf : s.files p = some f) :
    ∃ g, t.files p = some g ∧ g.id = f.id ∧ g.content off = f.content off := by
  cases h with
  | nothing _ hfiles => exact ⟨f, by rw [hfiles, hf], rfl, rfl⟩
  | served htarget hl hdelivers hfiles =>
      rcases (Replicas.deals hfiles).files p with ⟨hat, -⟩ | ⟨-, hkept⟩
      · exact absurd ⟨_, (removesBy_iff htarget hl hdelivers).2 ⟨rfl, hat⟩⟩ hremoves
      · exact ⟨f, hkept f hf, rfl, rfl⟩
  | @store id m off' byte hregion hpmem =>
      have hother : cStr m.path ≠ p ∨ off' ≠ off := by
        by_cases hoff : off' = off
        · subst hoff
          exact .inl (hstore id byte m rfl hregion)
        · exact .inr hoff
      rw [put]
      cases hfile : s.files (cStr m.path) with
      | none => exact ⟨f, hf, rfl, rfl⟩
      | some g =>
          simp only
          by_cases hg : s.mapped id = some g.id
          · rw [if_pos hg]
            by_cases hp : cStr m.path = p
            · subst hp
              obtain rfl : g = f := Option.some.inj (hfile.symm.trans hf)
              refine ⟨_, Function.update_self _ _ _, rfl, ?_⟩
              exact Function.update_of_ne (hother.resolve_left fun hne => hne rfl).symm _ _
            · exact ⟨f, by simp only [Function.update_of_ne (Ne.symm hp), hf], rfl, rfl⟩
          · rw [if_neg hg]
            exact ⟨f, hf, rfl, rfl⟩

/-- A pmem region stays with its connection, and with its file, until the connection finishes. -/
lemma Touches.region_of_pmem (h : Touches s a t) {id : HandlerId} (hid : id < s.dispatcher.nextId)
    (hpmem : ∀ m, s.region id = some m → m.HoldsPmem) (hnot : ¬s.Finishes id a)
    {m : MemoryManager} (hm : t.region id = some m) :
    s.region id = some m ∧ t.mapped id = s.mapped id := by
  cases h with
  | nothing _ _ _ _ hregions =>
      rcases hregions id m hm with hsame | ⟨hno, -, hregion | hnew⟩
      · exact hsame
      · exact absurd (hpmem m hregion) hno
      · exact absurd hid hnew.not_gt
  | @served fd' op oc content env left ed l t htarget hl hdelivers hfiles _ _ hself hmapped
      hothers =>
      by_cases hed : id = ed.handler
      · subst hed
        have hregion : s.region ed.handler = some l.watched.handler.dataManager :=
          region_eq_some.2 ⟨l, hl, rfl⟩
        have hfin : RPMAHandler.finishes content ≠ true := fun hfin =>
          hnot ⟨⟨l, ⟨⟨ed.type, htarget⟩, hl, hdelivers⟩⟩, hfin⟩
        have hold : (dealing l op).dataManager.HoldsPmem := hpmem _ hregion
        have hsame := (Replicas.deals hfiles).of_holdsPmem hold hfin
        obtain rfl := Option.some.inj (hself.symm.trans hm)
        rw [hmapped, Function.update_self, hsame]
        exact ⟨hregion, mappedAfter_self hold⟩
      · rw [hmapped, Function.update_of_ne hed]
        exact ⟨(hothers id hed).symm.trans hm, rfl⟩
  | store =>
      obtain ⟨hregions, hmapped, -⟩ := put_region s _ _ _ _
      exact ⟨hregions ▸ hm, by rw [hmapped]⟩

end Host

namespace Mirror

variable {fd : Handle} {s t : Mirror} {a : MirrorAct} {p : Bytes} {conn : HandlerId} {off : ℕ}
  {remote : Bytes → MrRemote}

/-- A step of the server. -/
lemma Anchored.host (h : s.Anchored fd p conn) {b : HostAct} {host : Host}
    (hallowed : s.host.Allowed b) (hspares : Spares p conn off s (.host b))
    (hs : Host.machine.step s.host b = some host) :
    Anchored fd p conn { s with host := host } ∧
      byteAt p host.files off = byteAt p s.host.files off := by
  obtain ⟨hremoves, hfinishes, hstore⟩ := hspares
  have htouches := h.inv.touches hallowed hs
  obtain ⟨f, hf⟩ := h.file
  obtain ⟨g, hg, hid, hbyte⟩ := htouches.byte hremoves hstore hf
  have hnext := h.inv.nextId_le hallowed hs
  refine ⟨⟨h.inv.step hallowed hs, h.known.trans_le hnext, ⟨g, hg⟩, fun m hm => ?_⟩, ?_⟩
  · obtain ⟨hregion, hmapped⟩ := htouches.region_of_pmem h.known
      (fun m' hm' => (h.region m' hm').1) hfinishes hm
    obtain ⟨hpmem, hpath, hfile⟩ := h.region m hregion
    refine ⟨hpmem, hpath, fun f' hf' => ?_⟩
    obtain rfl : g = f' := Option.some.inj (hg.symm.trans hf')
    rw [hmapped, hid]
    exact hfile f hf
  · simp only [byteAt, hg, hf, hbyte]

/-- A connection that is gone does not come back. -/
lemma Anchored.gone (h : s.Anchored fd p conn) {b : HostAct} {host : Host}
    (hallowed : s.host.Allowed b) (hfinishes : ¬s.host.Finishes conn b)
    (hs : Host.machine.step s.host b = some host) (hgone : s.host.alive conn = none) :
    host.alive conn = none := by
  rw [Option.eq_none_iff_forall_ne_some]
  intro l hl
  obtain ⟨hregion, -⟩ := (h.inv.touches hallowed hs).region_of_pmem h.known
    (fun m hm => (h.region m hm).1) hfinishes (Host.region_eq_some.2 ⟨l, hl, rfl⟩)
  obtain ⟨q, hq, -⟩ := Host.region_eq_some.1 hregion
  rw [hgone] at hq
  cases hq

/-- A step of the server, seen from the link. -/
lemma Anchored.follows_host (h : s.Anchored fd p conn) {b : HostAct} {host : Host}
    (hallowed : s.host.Allowed b) (hspares : Spares p conn off s (.host b))
    (hs : Host.machine.step s.host b = some host) :
    Link.Follows off (s.link p conn) (link p conn { s with host := host }) := by
  refine Link.Follows.disturbed rfl (h.host hallowed hspares hs).2 fun hbroken => ?_
  simp only [link, Bool.or_eq_true, Option.isNone_iff_eq_none] at hbroken ⊢
  rcases hbroken with (hbroken | hstopped) | hgone
  · exact .inl (.inl hbroken)
  · obtain ⟨e, he⟩ := Option.isSome_iff_exists.1 hstopped
    simp [Host.machine, he] at hs
  · exact .inr (h.gone hallowed hspares.2.1 hs hgone)

/-- What is stored through the region of the connection gets into the file. -/
lemma Anchored.stored (h : s.Anchored fd p conn) {off' : ℕ} {byte : UInt8} {host : Host}
    (hs : Host.machine.step s.host (.store conn off' byte) = some host) :
    Anchored fd p conn { s with host := host } ∧
      byteAt p host.files = Function.update (byteAt p s.host.files) off' byte ∧
      host.stopped = s.host.stopped ∧ host.alive = s.host.alive := by
  obtain ⟨-, m, hregion, -, -, rfl⟩ := Host.machine_store_iff.1 hs
  obtain ⟨f, hf⟩ := h.file
  obtain ⟨hpmem, hpath, hfile⟩ := h.region m hregion
  obtain ⟨hd, halive, -, hstopped⟩ := Host.put_dispatcher s.host conn m off' byte
  obtain ⟨hregions, hmapped, -⟩ := Host.put_region s.host conn m off' byte
  have hfiles : (s.host.put conn m off' byte).files = Function.update s.host.files p
      (some { f with content := Function.update f.content off' byte }) := by
    rw [Host.put, hpath, hf]
    simp only [if_pos (hfile f hf)]
  have hallowed : s.host.Allowed (.store conn off' byte) := trivial
  refine ⟨⟨h.inv.step hallowed hs, hd ▸ h.known, ⟨_, by rw [hfiles, Function.update_self]⟩,
    fun m' hm' => ?_⟩, ?_, hstopped, halive⟩
  · obtain ⟨hpmem', hpath', hfile'⟩ := h.region m' (hregions ▸ hm')
    refine ⟨hpmem', hpath', fun g hg => ?_⟩
    rw [hfiles, Function.update_self] at hg
    rw [hmapped, ← Option.some.inj hg]
    exact hfile' f hf
  · funext i
    simp only [byteAt, hfiles, Function.update_self]
    by_cases hi : i = off'
    · simp [hi]
    · simp [hi, byteAt, hf]

/-- A byte lands, or it is lost. -/
lemma Anchored.land (h : s.Anchored fd p conn) {off' : ℕ} {byte : UInt8}
    (hbyte : s.transit off' = some byte) :
    (s.landed conn off' byte).Anchored fd p conn ∧
      Link.Follows off (s.link p conn) ((s.landed conn off' byte).link p conn) := by
  cases hs : Host.machine.step s.host (.store conn off' byte) with
  | some host =>
      have heq : s.landed conn off' byte =
          { s with host := host, transit := Function.update s.transit off' none } := by
        simp only [landed, hs]
      obtain ⟨⟨h₁, h₂, h₃, h₄⟩, hbytes, hstopped, halive⟩ := h.stored hs
      rw [heq]
      refine ⟨⟨h₁, h₂, h₃, h₄⟩, .single (a := .land off') trivial ?_⟩
      simp only [Link.machine, link, hbyte, Option.map_some, hbytes, hstopped, halive]
  | none =>
      have heq : s.landed conn off' byte = { s with
          transit := Function.update s.transit off' none
          broken := s.broken || !decide (s.InDram conn) } := by
        simp only [landed, hs]
      rw [heq]
      refine ⟨⟨h.inv, h.known, h.file, h.region⟩, .single (a := .lose off') trivial ?_⟩
      -- the server has stopped, or the connection is gone, or the byte is out of bounds
      have hbroken : (s.broken || !decide (s.InDram conn) || s.host.stopped.isSome ||
          (s.host.alive conn).isNone) = true := by
        cases hstopped : s.host.stopped with
        | some e => simp
        | none =>
            cases halive : s.host.alive conn with
            | none => simp
            | some l =>
                obtain ⟨hpmem, -, -⟩ := h.region _ (Host.region_eq_some.2 ⟨l, halive, rfl⟩)
                have hnot : ¬s.InDram conn := by
                  rintro ⟨m, hm, -, hdram⟩
                  rw [(h.region m hm).1.2] at hdram
                  cases hdram
                simp [hnot]
      simp only [Link.machine, link, hbroken]

/-- The next operation is executed. -/
lemma follows_executed {ok : Bool} (hs : s.executed remote conn ok = some t) :
    Link.Follows off (s.link p conn) (t.link p conn) := by
  obtain ⟨x, xs, hposted, hcases⟩ := executed_cases hs
  refine .single (a := .execute ok) trivial ?_
  rcases hcases with ⟨rfl, hbroken, ⟨⟨mr, hmr, -⟩, -⟩, hready, rfl⟩ | ⟨rfl, rfl⟩
  · -- an operation succeeds only while the connection is there
    have hserving : s.host.stopped = none ∧ ∃ l, s.host.alive conn = some l := by
      simp only [registered, Option.mem_def, Option.ite_none_right_eq_some] at hmr
      obtain ⟨hstopped, hmr⟩ := hmr
      obtain ⟨l, hl, -⟩ := Option.bind_eq_some_iff.1 hmr
      exact ⟨hstopped, l, hl⟩
    obtain ⟨hstopped, l, hl⟩ := hserving
    have hwhole : (s.broken || s.host.stopped.isSome || (s.host.alive conn).isNone) = false := by
      simp [hbroken, hstopped, hl]
    simp only [Link.machine, Link.executed, link, hposted, List.map_cons, if_true]
    rw [if_pos ⟨hwhole, hready⟩]
    simp [outcome]
  · simp only [Link.machine, Link.executed, link, hposted, List.map_cons, Bool.false_eq_true,
      if_false]
    simp [outcome]

/-- A step of the client, seen from the link: its memory may change, and something may be
posted. -/
lemma follows_clientStep (hbooks : s.Books) (hspares : Spares p conn off s a)
    (hs : s.clientStep a = some t) : Link.Follows off (s.link p conn) (t.link p conn) := by
  obtain ⟨hposts, hhost, htransit, hbroken, hhead⟩ := clientStep_posts hs
  have hsource : t.head off = s.head off := by
    rcases hhead with hsame | ⟨off', byte, rfl, hchanged⟩ | ⟨_, _, reg, content, rfl, hok, hnew⟩
    · rw [hsame]
    · rw [hchanged, Function.update_of_ne (Ne.symm hspares)]
    · rw [hnew]
      exact hspares hok
  have hchange : Link.Follows off (s.link p conn) { s.link p conn with source := t.head } :=
    .single (a := .change t.head) hsource rfl
  cases hposts with
  | nothing hposted hops hnext =>
      have heq : t.link p conn = { s.link p conn with source := t.head } := by
        simp only [link, hhost, htransit, hbroken, hposted, hops]
      rw [heq]
      exact hchange
  | @one x _ hposted hops hid hstraight hnext =>
      refine hchange.snoc (a := .post x.work) ⟨hstraight, ?_⟩ ?_
      · show x.work.id ∉ (s.link p conn).done.map Prod.fst ++ (s.link p conn).work.map Work.id
        rw [link_ops, hid]
        exact fun hop => lt_irrefl _ (hbooks.lt _ hop)
      · simp only [Link.machine, link, hhost, htransit, hbroken, hposted, hops, List.map_append,
          List.map_singleton]

lemma anchored_of_host (h : s.Anchored fd p conn) (hhost : t.host = s.host) :
    t.Anchored fd p conn := by
  refine ⟨hhost ▸ h.inv, hhost ▸ h.known, hhost ▸ h.file, ?_⟩
  rw [hhost]
  exact h.region

/-- **The program follows the link**, as long as the steps spare the byte. -/
lemma Anchored.step (h : s.Anchored fd p conn) (hbooks : s.Books) (hallowed : s.Allowed a)
    (hspares : Spares p conn off s a) (hs : (machine remote conn).step s a = some t) :
    t.Anchored fd p conn ∧ Link.Follows off (s.link p conn) (t.link p conn) := by
  obtain ⟨b, host, rfl, -, hhost, rfl⟩ | ⟨ok, rfl, hs⟩ | ⟨off', byte, rfl, hbyte, rfl⟩ |
    ⟨rfl, rfl⟩ | ⟨-, hs⟩ := step_cases hs
  · exact ⟨(h.host hallowed hspares hhost).1, h.follows_host hallowed hspares hhost⟩
  · refine ⟨anchored_of_host h ?_, follows_executed hs⟩
    obtain ⟨x, xs, -, ⟨-, -, -, -, rfl⟩ | ⟨-, rfl⟩⟩ := executed_cases hs <;> rfl
  · exact h.land hbyte
  · refine ⟨anchored_of_host h rfl, .single (a := .cut) trivial ?_⟩
    simp only [Link.machine, link, Bool.true_or]
  · exact ⟨anchored_of_host h (clientStep_posts hs).2.1, follows_clientStep hbooks hspares hs⟩

/-! ### Runs -/

/-- The server stays in order, whatever the client does. -/
lemma inv_step (h : Host.Inv fd s.host) (hallowed : s.Allowed a)
    (hs : (machine remote conn).step s a = some t) : Host.Inv fd t.host := by
  obtain ⟨b, host, rfl, -, hhost, rfl⟩ | ⟨ok, rfl, hs⟩ | ⟨off', byte, rfl, hbyte, rfl⟩ |
    ⟨rfl, rfl⟩ | ⟨-, hs⟩ := step_cases hs
  · exact h.step hallowed hhost
  · obtain ⟨x, xs, -, ⟨-, -, -, -, rfl⟩ | ⟨-, rfl⟩⟩ := executed_cases hs <;> exact h
  · have hstore : s.host.Allowed (.store conn off' byte) := trivial
    rw [landed]
    split
    next host hhost => exact h.step hstore hhost
    next => exact h
  · exact h
  · rw [(clientStep_posts hs).2.1]
    exact h

lemma start_books (fd : Handle) (files : FileSystem) (nextFile : ℕ) (client : ClientHandler)
    (head : ℕ → UInt8) : (start fd files nextFile client head).Books :=
  ⟨fun _ hx => absurd hx List.not_mem_nil, List.nodup_nil, fun _ hop => absurd hop List.not_mem_nil⟩

/-- A run whose steps spare the byte. -/
lemma Anchored.run (h : s.Anchored fd p conn) (hbooks : s.Books) {as : List MirrorAct}
    (hrun : (machine remote conn).Run s as t)
    (hspares : (machine remote conn).Meets (fun u b => u.Allowed b ∧ Spares p conn off u b) s as)
    (I : Link UInt8 → Prop) (hstart : I (s.link p conn))
    (hkeep : ∀ l m, Link.Follows off l m → l.AllStraight → I l → I m) :
    t.Anchored fd p conn ∧ t.Books ∧ I (t.link p conn) := by
  refine @Machine.Meets.invariant _ _ (machine remote conn) _
    (fun u => u.Anchored fd p conn ∧ u.Books ∧ I (u.link p conn)) s ⟨h, hbooks, hstart⟩ ?_ _ _ hrun
    hspares
  rintro u b v ⟨hu, hubooks, hI⟩ ⟨hb, hsp⟩ hs
  obtain ⟨hv, hfollows⟩ := hu.step hubooks hb hsp hs
  exact ⟨hv, hubooks.step hs, hkeep _ _ hfollows hubooks.allStraight hI⟩

/-- A region of pmem that is mapped from the file at its path. -/
lemma anchored_of_region (h : Host.Inv fd s.host) {m : MemoryManager}
    (hregion : s.host.region conn = some m) (hpmem : m.HoldsPmem) {f : File}
    (hfile : s.host.files (cStr m.path) = some f) (hmapped : s.host.mapped conn = some f.id) :
    s.Anchored fd (cStr m.path) conn := by
  obtain ⟨l, hl, -⟩ := Host.region_eq_some.1 hregion
  obtain ⟨-, -, -, o, -, ho, -⟩ := h.connection conn l hl
  refine ⟨h, h.dispatcher.lt conn o ho, ⟨f, hfile⟩, fun m' hm' => ?_⟩
  obtain rfl : m = m' := Option.some.inj (hregion.symm.trans hm')
  refine ⟨hpmem, rfl, fun g hg => ?_⟩
  rw [← Option.some.inj (hfile.symm.trans hg)]
  exact hmapped

/-- A byte that has landed is in the file. -/
lemma content_of_landed {g : File} (h : (s.link p conn).Landed off)
    (hg : s.host.files p = some g) : g.content off = s.head off := by
  have hbyte : byteAt p s.host.files off = g.content off := by rw [byteAt, hg]
  exact hbyte.symm.trans h.1

/-- A write that is posted. -/
lemma written_of_write {offset len : UInt64} {callback : Option ℕ}
    (hs : (machine remote conn).step s (.write (.ok ()) offset len callback) = some t)
    (hreturns : t.stopped = none) (hoff : offset.toNat ≤ off ∧ off < offset.toNat + len.toNat) :
    (t.link p conn).Written off := by
  simp only [machine, clientStep, Option.ite_none_right_eq_some] at hs
  obtain rfl := Option.some.inj hs.2
  rcases ClientHandler.write_posts (h := s.client) (.ok ()) offset len callback with
    ⟨-, hstops⟩ | ⟨src, hposting, -⟩
  · exact absurd hreturns (hstops rfl)
  · refine .inl ⟨.write s.client.nextOp offset.toNat offset.toNat len.toNat, ?_, hoff⟩
    simp [link, after, hposting]

/-- A flush that is posted. -/
lemma flushing_of_flush {offset len : UInt64} {callback : Option ℕ}
    (hs : (machine remote conn).step s (.flush (.ok ()) offset len callback) = some t)
    (hreturns : t.stopped = none) (hoff : offset.toNat ≤ off ∧ off < offset.toNat + len.toNat)
    (hwritten : (s.link p conn).Written off) :
    (t.link p conn).Flushing s.client.nextOp off := by
  simp only [machine, clientStep, Option.ite_none_right_eq_some] at hs
  obtain rfl := Option.some.inj hs.2
  rcases ClientHandler.flush_posts (h := s.client) (.ok ()) offset len callback with
    ⟨-, hstops⟩ | ⟨hposting, -⟩
  · exact absurd hreturns (hstops rfl)
  · refine hwritten.flushing (w := .flush s.client.nextOp offset.toNat len.toNat) rfl hoff ?_
    simp [Link.machine, link, after, hposting]

/-! ### A byte that is written and flushed -/

/-- The server alone. -/
lemma run_host {host host' : Host} {as : List HostAct} (hrun : Host.machine.Run host as host')
    (hmeets : Host.machine.Meets Host.Allowed host as) (hlocal : ∀ a ∈ as, Local conn a)
    (s : Mirror) :
    (machine remote conn).Run { s with host := host } (as.map .host) { s with host := host' } ∧
      (machine remote conn).Meets Allowed { s with host := host } (as.map .host) := by
  induction hrun with
  | nil => exact ⟨.nil _, fun bs a t hbs => absurd hbs.length_le (by simp)⟩
  | @snoc t u as a hrun hs ih =>
      obtain ⟨hruns, hallowed⟩ := ih (hmeets.initial (List.prefix_append _ _))
        fun b hb => hlocal b (List.mem_append_left _ hb)
      have hlast : Local conn a := hlocal a (List.mem_append_right _ (List.mem_singleton_self a))
      rw [List.map_append, List.map_singleton]
      refine ⟨hruns.snoc ?_, hallowed.snoc hruns (hmeets as a t (List.prefix_refl _) hrun)⟩
      simp only [machine, if_pos hlast, hs, Option.map_some]

/-- A server with pmem that makes a new file of the given size. -/
def makingFile (size : UInt64) : ServeEnv :=
  ⟨⟨false, some ⟨16, size, true⟩, none, 0⟩, RPMAHandler.workingMr [7], .ok (), .ok (), .ok ()⟩

lemma accepted_makingFile (size : UInt64) :
    MemoryManager.accepted (makingFile size).mem size = some ⟨16, size, true⟩ := by
  simp [MemoryManager.accepted, makingFile]

open Replicas RPMAHandler in
/-- A connection without memory that serves a request on that server. -/
lemma deal_makingFile (init : RwlReplicaInitRequest) (hlen : init.encode.length < msgSize)
    (htype : init.type = rwlReplicaInitRequest) {k : RPMAHandler}
    (hdata : k.dataManager.data = none) :
    memoryCalls (deal k (holding init.encode hlen) (makingFile init.info.cacheSize)).calls =
        MemoryManager.initCalls (makingFile init.info.cacheSize).mem init.info.cacheSize
          (poolPath init.info) ∧
      (deal k (holding init.encode hlen) (makingFile init.info.cacheSize)).state.dataManager =
        ⟨some 16, init.info.cacheSize, true, MemoryManager.mountPath (poolPath init.info)⟩ ∧
      (deal k (holding init.encode hlen) (makingFile init.info.cacheSize)).state.dataMr =
        some ⟨some 16, init.info.cacheSize, mrUsage .flush true, [7]⟩ := by
  obtain ⟨⟨c, hreq⟩, c', hinit⟩ := decode_holding_init init hlen
  have hacc := accepted_makingFile init.info.cacheSize
  obtain ⟨h, hh⟩ : ∃ h, h = { k with recvBl := holding init.encode hlen } := ⟨_, rfl⟩
  have hcontent : h.recvBl = holding init.encode hlen := by rw [hh]
  have hdata' : h.dataManager.data = none := by rw [hh]; exact hdata
  rw [← hcontent] at hreq hinit
  obtain ⟨hcalls, hman⟩ := dealRequire_memory (makingFile init.info.cacheSize) h
  have heq := getDescriptor_eq (makingFile init.info.cacheSize) hreq
  rw [if_pos htype] at heq
  have hmade := getDescriptorForWrite_init (makingFile init.info.cacheSize) hinit hdata'
  have hreply : (initReply ⟨1, 1, [7, 1]⟩).encode.length < msgSize := by
    rw [RwlReplicaInitRequestReply.length_encode]
    decide
  have hdesc := describe_flush (workingMr_describes [7]) true [7] (by decide)
  obtain ⟨-, -, hsame⟩ := (served (makingFile init.info.cacheSize) h).of_init hreq htype hinit
    (.mapped hdata' hacc) rfl hdesc hreply
  rw [deal, ← hh]
  refine ⟨?_, hsame.dataManager, hsame.dataMr⟩
  rw [hcalls, heq, hmade.1]

/-- The region of 64 bytes, as the client knows it. -/
def sampleRegion (_ : Bytes) : MrRemote := ⟨0, 64⟩

/-- Memory of 64 bytes, as the client has registered it. -/
def sampleMr : MrLocal := ⟨some 8, 64, ClientHandler.rpmaMrUsageWriteSrc, []⟩

/-- A client that has registered its memory and knows the region of the server. -/
def sampleClient : ClientHandler :=
  { ClientHandler.created with dataMr := some sampleMr, imageMr := some (sampleRegion [7]) }

open Replicas RPMAHandler in
/-- The server has made a replica for the first connection. -/
lemma replica_made (init : RwlReplicaInitRequest) (hlen : init.encode.length < msgSize)
    (htype : init.type = rwlReplicaInitRequest) :
    ∃ as host l, Host.machine.Run (Host.start 3 (fun _ => none) 0) as host ∧
      Host.machine.Meets Host.Allowed (Host.start 3 (fun _ => none) 0) as ∧
      (∀ a ∈ as, Local 1 a) ∧ host.stopped = none ∧ host.alive 1 = some l ∧
      l.watched.handler.dataManager =
        ⟨some 16, init.info.cacheSize, true, MemoryManager.mountPath (poolPath init.info)⟩ ∧
      l.watched.handler.dataMr =
        some ⟨some 16, init.info.cacheSize, mrUsage .flush true, [7]⟩ ∧
      ∃ f, host.files (cStr (MemoryManager.mountPath (poolPath init.info))) = some f ∧
        host.mapped 1 = some f.id := by
  obtain ⟨⟨c, hreq⟩, c', hinit⟩ := decode_holding_init init hlen
  have hacc := accepted_makingFile init.info.cacheSize
  have hserviceable : ∀ m,
      Serviceable (makingFile init.info.cacheSize) (holding init.encode hlen) m := by
    refine fun m => ⟨_, c, hreq, fun _ => ⟨init, c', hinit, fun _ => .inl ?_, ?_⟩⟩
    · rw [hacc]
      exact Option.some_ne_none _
    · refine describable_of_describes (workingMr_describes [7]) fun d hd => ?_
      obtain rfl := Except.ok.inj hd
      simp [makingFile, workingMr]
  obtain ⟨s₂, run₂, hmeets₂, hwaits, -, hfiles₂, -⟩ := Host.two_accepted fun _ => none
  obtain ⟨op, l, s₃, hs₃, -, hrunning, -, hfiles₃, -, halive, -, hman, hmr, hmapped⟩ :=
    hwaits.serve (Function.update s₂.files (cStr (MemoryManager.mountPath (poolPath init.info)))
      (some (FileSystem.created (s₂.creation none) init.info.cacheSize))) (hserviceable _) rfl rfl
      rfl fun op => by
        rw [(deal_makingFile init hlen htype rfl).1, hfiles₂, MemoryManager.initCalls, hacc]
        simp [FileSystem.call, FileSystem.mapFile, makingFile]
  rw [(deal_makingFile init hlen htype rfl).2.1] at hman
  rw [(deal_makingFile init hlen htype rfl).2.2] at hmr
  refine ⟨_, s₃, l, run₂.snoc hs₃, hmeets₂.snoc run₂ (Host.allowed_completing s₂), ?_, hrunning,
    by rw [halive, Function.update_self], hman, hmr, _, by rw [hfiles₃, Function.update_self], ?_⟩
  · intro a ha
    simp only [List.mem_append, List.mem_cons, List.not_mem_nil, or_false] at ha
    rcases ha with (rfl | rfl) | rfl <;> trivial
  · have hdata : (Life.born .zero .zero 0 .ok).watched.handler.dataManager.data = none := rfl
    rw [hmapped, hman, Host.mappedAfter, if_pos ⟨Option.some_ne_none _, rfl⟩, if_pos hdata,
      Function.update_self]
    rfl

lemma machine_execute {x : Posting} {xs : List Posting} (hposted : s.posted = x :: xs)
    (hbroken : s.broken = false) (hx : Accessible remote conn s x)
    (hready : x.work.Ready s.transit) :
    (machine remote conn).step s (.execute true) = some { s with
      transit := x.work.sent s.head s.transit
      posted := xs
      queue := s.queue ++ [⟨some x.work.id, x.work.opcode, true⟩] } := by
  have hall : s.broken = false ∧ Accessible remote conn s x ∧ x.work.Ready s.transit :=
    ⟨hbroken, hx, hready⟩
  simp only [machine, executed, hposted, if_true, if_pos hall]

lemma machine_land {byte : UInt8} {host : Host} (hbyte : s.transit off = some byte)
    (hs : Host.machine.step s.host (.store conn off byte) = some host) :
    (machine remote conn).step s (.land off) =
      some { s with host := host, transit := Function.update s.transit off none } := by
  simp only [machine, hbyte, Option.map_some, landed, hs]

/-- The first bytes of a region land, one after another. -/
lemma run_lands (remote : Bytes → MrRemote) {m : MemoryManager} (hrunning : s.host.stopped = none)
    (hregion : s.host.region conn = some m) (hpmem : m.HoldsPmem) {n : ℕ} (hn : n ≤ m.size.toNat)
    (htransit : ∀ i < n, s.transit i ≠ none) :
    ∃ host transit, (machine remote conn).Run s ((List.range n).map .land)
        { s with host := host, transit := transit } ∧ host.stopped = none ∧
      host.alive = s.host.alive ∧ (∀ i < n, transit i = none) ∧
      ∀ i, n ≤ i → transit i = s.transit i := by
  induction n with
  | zero =>
      exact ⟨_, _, .nil s, hrunning, rfl, fun i hi => absurd hi (Nat.not_lt_zero i), fun _ _ => rfl⟩
  | succ n ih =>
      obtain ⟨host, transit, hrun, hstopped, halive, hnone, hrest⟩ :=
        ih (Nat.le_of_succ_le hn) fun i hi => htransit i (Nat.lt_succ_of_lt hi)
      obtain ⟨byte, hbyte⟩ := Option.ne_none_iff_exists'.1 (htransit n (Nat.lt_succ_self n))
      have hregion' : host.region conn = some m := by
        obtain ⟨l, hl, hman⟩ := Host.region_eq_some.1 hregion
        exact Host.region_eq_some.2 ⟨l, halive ▸ hl, hman⟩
      have hstore : Host.machine.step host (.store conn n byte) = some _ :=
        Host.machine_store_iff.2 ⟨hstopped, m, hregion', hpmem, hn, rfl⟩
      obtain ⟨-, halive', -, hstopped'⟩ := Host.put_dispatcher host conn m n byte
      have hland : (machine remote conn).step { s with host := host, transit := transit }
          (.land n) = some _ := machine_land ((hrest n le_rfl).trans hbyte) hstore
      refine ⟨_, Function.update transit n none, ?_, hstopped'.trans hstopped,
        halive'.trans halive, fun i hi => ?_, fun i hi => ?_⟩
      · rw [List.range_succ, List.map_append, List.map_singleton]
        exact hrun.snoc hland
      · rcases Nat.lt_succ_iff_lt_or_eq.1 hi with hi | rfl
        · rw [Function.update_of_ne hi.ne]
          exact hnone i hi
        · exact Function.update_self _ _ _
      · rw [Function.update_of_ne (Nat.lt_of_succ_le hi).ne']
        exact hrest i (Nat.le_of_succ_le hi)

/-- The region that is registered, whatever else has happened. -/
lemma registered_eq {l : Life} (hrunning : s.host.stopped = none)
    (hl : s.host.alive conn = some l) : s.registered conn = l.watched.handler.dataMr := by
  rw [registered, if_pos hrunning, hl, Option.bind_some]

/-- The two operations of the client. -/
def samplePostings : List Posting :=
  [⟨some (sampleRegion [7]), some sampleMr, .write 0 0 0 1⟩,
    ⟨some (sampleRegion [7]), none, .flush 1 0 1⟩]

/-- The client when it has posted the first of them. -/
def writtenClient : ClientHandler := (ClientHandler.write (.ok ()) 0 1 none sampleClient).state

/-- The client when it has posted both. -/
def postedClient : ClientHandler := (ClientHandler.flush (.ok ()) 0 1 none writtenClient).state

/-- Both operations are executed and their completions handled. -/
lemma run_sample {host : Host} {l : Life} (hrunning : host.stopped = none)
    (hl : host.alive 1 = some l)
    (hman : l.watched.handler.dataManager = ⟨some 16, 64, true, Replicas.samplePath⟩)
    (hmr : l.watched.handler.dataMr =
      some ⟨some 16, 64, RPMAHandler.mrUsage .flush true, [7]⟩) :
    ∃ s, (machine sampleRegion 1).Run ⟨host, postedClient, fun _ => 7, fun _ => none,
        samplePostings, [], [], false, none⟩ [.execute true, .land 0, .execute true,
        .handle Agreement.sampleRemote, .handle Agreement.sampleRemote] s ∧
      ⟨some 1, .flush, true⟩ ∈ s.handled := by
  have hregion : host.region 1 = some ⟨some 16, 64, true, Replicas.samplePath⟩ :=
    Host.region_eq_some.2 ⟨l, hl, hman⟩
  have run₁ := (Machine.Run.nil (M := machine sampleRegion 1) ⟨host, postedClient, fun _ => 7,
    fun _ => none, samplePostings, [], [], false, none⟩).snoc (machine_execute rfl rfl
      ⟨⟨_, (registered_eq hrunning hl).trans hmr, rfl, by decide⟩, fun src hsrc => by
        obtain rfl := Option.some.inj hsrc
        exact ⟨rfl, by decide⟩⟩ trivial)
  have hstore : Host.machine.step host (.store 1 0 7) = some _ :=
    Host.machine_store_iff.2 ⟨hrunning, _, hregion, ⟨Option.some_ne_none _, rfl⟩, by decide, rfl⟩
  have run₂ := run₁.snoc (machine_land rfl hstore)
  obtain ⟨-, halive, -, hstopped⟩ := Host.put_dispatcher host 1 _ 0 7
  have run₃ := run₂.snoc (machine_execute rfl rfl
    ⟨⟨_, (registered_eq (hstopped.trans hrunning) (halive ▸ hl)).trans hmr, rfl, by decide⟩,
      fun src hsrc => by cases hsrc⟩ fun k hk => by
        obtain rfl := Nat.lt_one_iff.1 hk
        rfl)
  have run₄ := run₃.snoc (a := .handle Agreement.sampleRemote) rfl
  have run₅ := run₄.snoc (a := .handle Agreement.sampleRemote) rfl
  exact ⟨_, run₅, List.mem_cons_of_mem _ (List.mem_singleton_self _)⟩

/-! ### What is flushed is in the replica -/

/-- **What is flushed is in the replica.**  A client writes a range of its memory to a replica that
is the file at a path of the server, and later flushes it; between and after, the server goes on
with whatever connections it has.  If the flush has been completed with success, as its callback
tells the application, then every byte that both calls cover is in the file, the same as in the
memory when the write was called.  It stays there, also when the connection is gone, as long as
nobody changes it: the application in its memory, a connection in the file, or by finishing. -/
theorem flushed_replicated (remote : Bytes → MrRemote) (conn : HandlerId) (hfd : fd ≠ -1)
    (files : FileSystem) (nextFile : ℕ) (client : ClientHandler) (head : ℕ → UInt8)
    (as₁ as₂ as₃ : List MirrorAct) (s₁ s₂ s₃ s₄ s₅ : Mirror)
    (run₁ : (machine remote conn).Run (start fd files nextFile client head) as₁ s₁)
    (hallowed : (machine remote conn).Meets Allowed (start fd files nextFile client head) as₁)
    (m : MemoryManager) (hregion : s₁.host.region conn = some m) (hpmem : m.HoldsPmem)
    (f : File) (hfile : s₁.host.files (cStr m.path) = some f)
    (hmapped : s₁.host.mapped conn = some f.id) (offset len offset' len' : UInt64)
    (callback callback' : Option ℕ)
    (hwrite : (machine remote conn).step s₁ (.write (.ok ()) offset len callback) = some s₂)
    (hwrites : s₂.stopped = none) (run₂ : (machine remote conn).Run s₂ as₂ s₃)
    (hflush : (machine remote conn).step s₃ (.flush (.ok ()) offset' len' callback') = some s₄)
    (hflushes : s₄.stopped = none) (run₃ : (machine remote conn).Run s₄ as₃ s₅) (off : ℕ)
    (hoff : offset.toNat ≤ off ∧ off < offset.toNat + len.toNat)
    (hoff' : offset'.toNat ≤ off ∧ off < offset'.toNat + len'.toNat)
    (hspares₂ : (machine remote conn).Meets
      (fun u a => u.Allowed a ∧ Spares (cStr m.path) conn off u a) s₂ as₂)
    (hspares₃ : (machine remote conn).Meets
      (fun u a => u.Allowed a ∧ Spares (cStr m.path) conn off u a) s₄ as₃)
    (hdone : ⟨some s₃.client.nextOp, .flush, true⟩ ∈ s₅.handled) :
    ∃ g, s₅.host.files (cStr m.path) = some g ∧ g.content off = s₁.head off ∧
      s₅.head off = s₁.head off := by
  have hbase : Host.Inv fd s₁.host ∧ s₁.Books :=
    @Machine.Meets.invariant _ _ (machine remote conn) _ (fun u => Host.Inv fd u.host ∧ u.Books) _
      ⟨Host.start_inv hfd files nextFile, start_books fd files nextFile client head⟩
      (fun _ _ _ hu hb hs => ⟨inv_step hu.1 hb hs, hu.2.step hs⟩) _ _ run₁ hallowed
  have hanchored : s₁.Anchored fd (cStr m.path) conn :=
    anchored_of_region hbase.1 hregion hpmem hfile hmapped
  -- the write: from here on the byte is written
  have hwriteSpares : s₁.Allowed (.write (.ok ()) offset len callback) ∧
      Spares (cStr m.path) conn off s₁ (.write (.ok ()) offset len callback) := ⟨trivial, trivial⟩
  obtain ⟨hanchored₂, hfollows₂⟩ := hanchored.step hbase.2 hwriteSpares.1 hwriteSpares.2 hwrite
  have hwritten₂ := written_of_write (p := cStr m.path) hwrite hwrites hoff
  obtain ⟨hanchored₃, hbooks₃, hsource₃, hwritten₃⟩ :=
    hanchored₂.run (hbase.2.step hwrite) run₂ hspares₂
      (fun l => l.source off = s₁.head off ∧ l.Written off) ⟨hfollows₂.source, hwritten₂⟩
      fun l l' hl hstraight hI => ⟨hl.source.trans hI.1, hl.written hstraight hI.2⟩
  -- the flush: from here on it is to come, or the byte has landed
  have hflushSpares : s₃.Allowed (.flush (.ok ()) offset' len' callback') ∧
      Spares (cStr m.path) conn off s₃ (.flush (.ok ()) offset' len' callback') :=
    ⟨trivial, trivial⟩
  obtain ⟨hanchored₄, hfollows₄⟩ :=
    hanchored₃.step hbooks₃ hflushSpares.1 hflushSpares.2 hflush
  have hflushing₄ := flushing_of_flush hflush hflushes hoff' hwritten₃
  obtain ⟨hanchored₅, hbooks₅, hsource₅, hflushing₅⟩ :=
    hanchored₄.run (hbooks₃.step hflush) run₃ hspares₃
      (fun l => l.source off = s₁.head off ∧ l.Flushing s₃.client.nextOp off)
      ⟨hfollows₄.source.trans hsource₃, hflushing₄⟩
      fun l l' hl hstraight hI => ⟨hl.source.trans hI.1, hl.flushing hstraight hI.2⟩
  have hsucceeded : (s₃.client.nextOp, true) ∈ (s₅.link (cStr m.path) conn).done :=
    List.mem_filterMap.2 ⟨_, List.mem_append_left _ hdone, rfl⟩
  have hlanded := hflushing₅.landed hbooks₅.distinct hsucceeded
  obtain ⟨g, hg⟩ := hanchored₅.file
  exact ⟨g, hg, (content_of_landed hlanded hg).trans hsource₅, hsource₅⟩

/-- A byte that is written and flushed. -/
theorem flushed_replicated_byte : ∃ as s g,
    (machine sampleRegion 1).Run (start 3 (fun _ => none) 0 sampleClient fun _ => 7) as s ∧
      s.host.files (cStr Replicas.samplePath) = some g ∧ g.content 0 = 7 := by
  obtain ⟨as, host, l, hrun, hmeets, hlocal, hrunning, hl, hman, hmr, f, hf, hmapped⟩ :=
    replica_made RPMAHandler.sampleInit RPMAHandler.length_sampleInit rfl
  obtain ⟨s₁, hs₁⟩ : ∃ s₁ : Mirror, s₁ = ⟨host, sampleClient, fun _ => 7, fun _ => none, [], [], [],
    false, none⟩ := ⟨_, rfl⟩
  obtain ⟨run₁, hallowed⟩ : (machine sampleRegion 1).Run
      (start 3 (fun _ => none) 0 sampleClient fun _ => 7) (as.map .host) s₁ ∧
      (machine sampleRegion 1).Meets Allowed (start 3 (fun _ => none) 0 sampleClient fun _ => 7)
        (as.map .host) := by
    rw [hs₁]
    exact run_host hrun hmeets hlocal (start 3 (fun _ => none) 0 sampleClient fun _ => 7)
  obtain ⟨s, run₃, hdone⟩ := run_sample hrunning hl hman hmr
  have hregion : s₁.host.region 1 = some ⟨some 16, 64, true, Replicas.samplePath⟩ := by
    rw [hs₁]
    exact Host.region_eq_some.2 ⟨l, hl, hman⟩
  have hfile : s₁.host.files (cStr Replicas.samplePath) = some f ∧
      s₁.host.mapped 1 = some f.id := by
    rw [hs₁]
    exact ⟨hf, hmapped⟩
  obtain ⟨s₂, hs₂⟩ : ∃ s₂ : Mirror, s₂ = ⟨host, writtenClient, fun _ => 7, fun _ => none,
    samplePostings.take 1, [], [], false, none⟩ := ⟨_, rfl⟩
  have hwrite : (machine sampleRegion 1).step s₁ (.write (.ok ()) 0 1 none) = some s₂ := by
    rw [hs₁, hs₂]
    rfl
  have hflush : (machine sampleRegion 1).step s₂ (.flush (.ok ()) 0 1 none) = some ⟨host,
      postedClient, fun _ => 7, fun _ => none, samplePostings, [], [], false, none⟩ := by
    rw [hs₂]
    rfl
  have hspares : (machine sampleRegion 1).Meets (fun u a => u.Allowed a ∧
      Spares (cStr Replicas.samplePath) 1 0 u a) ⟨host, postedClient, fun _ => 7, fun _ => none,
        samplePostings, [], [], false, none⟩ [.execute true, .land 0, .execute true,
        .handle Agreement.sampleRemote, .handle Agreement.sampleRemote] := by
    refine Machine.meets_of_forall fun a ha u => ?_
    simp only [List.mem_cons, List.not_mem_nil, or_false] at ha
    rcases ha with rfl | rfl | rfl | rfl | rfl <;> exact ⟨trivial, trivial⟩
  have hdone' : ⟨some s₂.client.nextOp, .flush, true⟩ ∈ s.handled := by
    rw [hs₂]
    exact hdone
  have hnone : (machine sampleRegion 1).Meets (fun u a => u.Allowed a ∧
      Spares (cStr Replicas.samplePath) 1 0 u a) s₂ [] :=
    Machine.meets_of_forall fun _ ha => absurd ha List.not_mem_nil
  have hpmem : (⟨some 16, 64, true, Replicas.samplePath⟩ : MemoryManager).HoldsPmem :=
    ⟨Option.some_ne_none _, rfl⟩
  have hhead : s₁.head 0 = 7 := by rw [hs₁]
  obtain ⟨g, hg, hbyte, -⟩ := flushed_replicated sampleRegion 1 (by decide) (fun _ => none) 0
    sampleClient (fun _ => 7) _ [] _ s₁ s₂ s₂ _ s run₁ hallowed _ hregion hpmem f hfile.1 hfile.2
    0 1 0 1 none none hwrite (by rw [hs₂]) (.nil _) hflush rfl run₃ 0 (by decide) (by decide) hnone
    hspares hdone'
  exact ⟨_, s, g, ((run₁.snoc hwrite).snoc hflush).append run₃, hg, hbyte.trans hhead⟩

end Mirror

end RpmaReplica
