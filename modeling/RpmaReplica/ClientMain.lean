import RpmaReplica.Mirror

/-!
# The program `client`

`main` of `client.cc`: the main thread waits until the connection is established, asks for a
replica, fills its memory, writes it to the replica, flushes it, and disconnects.  The thread `th1`
runs the reactor, and everything that the main thread waits for is set by a callback in `th1`.  The
main thread waits in loops that have no other end.

When the connection ends, `th1` ends with it; then the main thread can return if and only if it has
got past the flush, or has only not looked yet (`returns_iff`).  Otherwise it never returns: some
steps later it waits for a flag that nobody sets, or the process is aborted.  A call of the main
thread up to its loop is one step here; that a completion can be handled between its post and its
insertion is looked at in `Client`.
-/

namespace RpmaReplica

/-- `Reactor::empty`: `event_table` has no node. -/
def Reactor.empty (r : Reactor) : Bool := (List.range r.nextNode).all fun p => (r.nodes p).isNone

/-! ### The memory -/

namespace ClientMain

def data : Bytes := ascii "abcdefghijklmnopqrstuvwxyzABCDEFGHIJKLMNOPQRSTUVWXYZ1234567890-\n"

/-- `mr_size`. -/
def mrSize : UInt64 := 1024 * 1024 * 1024

/-- `REQUIRE_SIZE`. -/
def requireSize : UInt64 := 10 * (1024 * 1024 * 1024)

/-- `memcpy(mr_ptr + i, data, data_size)`. -/
def copyTo (data : Bytes) (i : ℕ) (mem : ℕ → UInt8) (off : ℕ) : UInt8 :=
  if i ≤ off ∧ off < i + data.length then data.getD (off - i) 0 else mem off

/-- The loop that fills the memory, from `i` on.  It goes on for ever if there is no data. -/
def fill (data : Bytes) (size i : ℕ) (mem : ℕ → UInt8) : ℕ → UInt8 :=
  if i < size ∧ 0 < data.length then fill data size (i + data.length) (copyTo data i mem) else mem
termination_by size - i

/-- The loop leaves alone what is before its start and, if the data divide the size, what is behind
the memory. -/
lemma fill_outside {data : Bytes} {size : ℕ} (hdvd : data.length ∣ size) {i : ℕ}
    (hi : data.length ∣ i) (mem : ℕ → UInt8) {off : ℕ} (hoff : off < i ∨ size ≤ off) :
    fill data size i mem off = mem off := by
  fun_induction fill data size i mem with
  | case1 i mem h ih =>
      have hle : i + data.length ≤ size := by
        obtain ⟨a, rfl⟩ := hdvd
        obtain ⟨b, rfl⟩ := hi
        have hlt : b < a := Nat.lt_of_mul_lt_mul_left h.1
        calc data.length * b + data.length = data.length * (b + 1) := by rw [Nat.mul_succ]
          _ ≤ data.length * a := Nat.mul_le_mul_left _ hlt
      rw [ih ((Nat.dvd_add_right hi).2 dvd_rfl) (hoff.imp (fun h => by omega) id), copyTo,
        if_neg (by omega)]
  | case2 => rfl

/-- **What the memory is filled with.** -/
lemma fill_inside {data : Bytes} {size : ℕ} (hdata : 0 < data.length) (hdvd : data.length ∣ size)
    {i : ℕ} (hi : data.length ∣ i) (mem : ℕ → UInt8) {off : ℕ} (hle : i ≤ off) (hlt : off < size) :
    fill data size i mem off = data.getD (off % data.length) 0 := by
  fun_induction fill data size i mem with
  | case1 i mem h ih =>
      have hnext : data.length ∣ i + data.length := (Nat.dvd_add_right hi).2 dvd_rfl
      by_cases hoff : i + data.length ≤ off
      · exact ih hnext hoff
      · -- the chunk that is copied in this turn, which later turns leave alone
        rw [fill_outside hdvd hnext _ (.inl (not_le.1 hoff)), copyTo, if_pos ⟨hle, not_le.1 hoff⟩]
        obtain ⟨b, rfl⟩ := hi
        have hmod : off % data.length = off - data.length * b := by
          rw [← Nat.mod_eq_of_lt (show off - data.length * b < data.length by omega),
            ← Nat.add_sub_cancel' hle]
          simp
        rw [hmod]
  | case2 i mem h => exact absurd ⟨hle.trans_lt hlt, hdata⟩ h

end ClientMain

/-! ### The threads -/

inductive Place
  | starting
  /-- In the loop of `wait_established`. -/
  | establishing
  | beforeInit
  /-- In the loop of `init_replica`. -/
  | inInit
  | beforeSetHead
  | beforeWrite
  /-- In the loop `while (completed == false)` after `write`. -/
  | inWrite
  | beforeFlush
  /-- In the same loop after `flush`. -/
  | inFlush
  | beforeDisconnect
  /-- In `th1.join()`. -/
  | joining
  | returned
  deriving DecidableEq, Repr

/-- The thread `th1`. -/
inductive Thread
  | unstarted
  | looping
  | ended
  deriving DecidableEq, Repr

/-- The program: the client with the server at its other end, the reactor with its one handler, the
two threads, and the local `completed` of the main thread. -/
structure ClientMain where
  mirror : Mirror
  dispatcher : Dispatcher
  place : Place
  thread : Thread
  completed : Bool

/-- What the reactor finds when the fd for completions is ready. -/
inductive Taken
  /-- No completion, or one without success. -/
  | nothing
  | receive (content : MsgBuf) (env : RemoteEnv) (op : OpId)
  | sent (env : RemoteEnv) (op : OpId)
  | handle (env : RemoteEnv)

inductive ClientMainAct
  /-- The main thread makes the reactor and the handler, with the fds of the connection or with an
  exception, registers it, and starts `th1`. -/
  | start (fds : Option (Handle × Handle)) (env₁ env₂ : RegisterEnv)
  /-- It reads the flag that it waits for. -/
  | look
  | init (recv send : Rpma Unit)
  /-- The loop of `init_replica` ends, by the flag or by the clock. -/
  | initReturns
  /-- It makes the memory, with whatever is in it, fills it, and hands it to `set_head`. -/
  | setHead (mrPtr : Ptr) (uninit : ℕ → UInt8) (reg : Rpma Bytes)
  | write (res : Rpma Unit)
  | flush (res : Rpma Unit)
  | disconnect
  | join
  /-- `th1` handles a connection event, or a completion event. -/
  | connection (fd : Handle) (next : Rpma ConnEvent)
  | completion (fd : Handle) (taken : Taken)
  /-- Anything that happens to the server or in the network. -/
  | outside (a : MirrorAct)

namespace ClientMain

/-- The program before it has done anything.  The members of the handler that its constructor does
not set have whatever values they have. -/
def create (fd : Handle) (files : FileSystem) (nextFile : ℕ) (sendBl recvBl : MsgBuf)
    (flushType : FlushType) (imageSize : UInt64) (imageMr : Option MrRemote) : ClientMain where
  mirror := Mirror.start fd files nextFile
    (Client.create sendBl recvBl flushType imageSize imageMr).handler fun _ => 0
  dispatcher := Dispatcher.create
  place := .starting
  thread := .unstarted
  completed := false

def connected (s : ClientMain) : Bool :=
  match s.dispatcher.objects 0 with
  | some o => o.connected
  | none => false

def crash (s : ClientMain) (e : Stop) : ClientMain :=
  { s with mirror := { s.mirror with stopped := some e } }

/-- The beginning of `main`.  An exception is caught, but the pointer to the handler is used
nevertheless. -/
def started (s : ClientMain) (fds : Option (Handle × Handle)) (env₁ env₂ : RegisterEnv) :
    ClientMain :=
  match fds with
  | none => s.crash .undefined
  | some (connFd, compFd) =>
    let o := Object.create (.client connFd compFd)
    let (ret, d) := (s.dispatcher.newHandler o.handler).register env₁ env₂ s.dispatcher.nextId o
    if ret = 0 then { s with dispatcher := d, place := .establishing, thread := .looping }
    else { s with dispatcher := d, place := .returned }

/-- The completion that is next in the queue has a callback of the application, which sets
`completed`. -/
def callsBack (s : Mirror) : Bool :=
  match s.queue with
  | ⟨some op, _, true⟩ :: _ =>
    match s.client.ops.lookup op with
    | some (some (.application _)) => true
    | _ => false
  | _ => false

/-- One round of the loop of `handle_events`, and the end of `th1` if `event_table` is empty
then. -/
def dispatched (s : ClientMain) (fd : Handle) (env : EventEnv) : Option ClientMain :=
  if s.thread = .looping then
    (s.dispatcher.handleEvents fd env).map fun d => { s with
      dispatcher := d
      thread := match d.reactor with
        | some r => if r.empty then .ended else .looping
        | none => .looping }
  else none

/-- Steps of the server and of the network. -/
def Outside : MirrorAct → Prop
  | .host _ | .execute _ | .land _ | .cut => True
  | _ => False

instance (a : MirrorAct) : Decidable (Outside a) := by
  cases a <;> first | exact isTrue trivial | exact isFalse id

section Step

variable (remote : Bytes → MrRemote) (conn : HandlerId)

def mirrorStep (s : ClientMain) (a : MirrorAct) : Option ClientMain :=
  ((Mirror.machine remote conn).step s.mirror a).map fun m => { s with mirror := m }

/-- The handler takes a completion.  The callback for the reply to `init_replica` refers to locals
of that call. -/
def took (s : ClientMain) : Taken → Option ClientMain
  | .nothing => some s
  | .receive content env op =>
    if s.place = .inInit then s.mirrorStep remote conn (.receive content env op)
    else (s.mirrorStep remote conn (.receive content env op)).map fun t => t.crash .undefined
  | .sent env op => s.mirrorStep remote conn (.sent env op)
  | .handle env =>
    (s.mirrorStep remote conn (.handle env)).map fun t =>
      { t with completed := s.completed || callsBack s.mirror }

def mainStep (s : ClientMain) : ClientMainAct → Option ClientMain
  | .start fds env₁ env₂ =>
    if s.place = .starting then some (s.started fds env₁ env₂) else none
  | .look =>
    match s.place with
    | .establishing => if s.connected then some { s with place := .beforeInit } else none
    | .inWrite => if s.completed then some { s with place := .beforeFlush } else none
    | .inFlush => if s.completed then some { s with place := .beforeDisconnect } else none
    | _ => none
  | .init recv send =>
    if s.place = .beforeInit then
      mirrorStep remote conn { s with place := .inInit }
        (.init recv send 1 requireSize (ascii "RBD") (ascii "test"))
    else none
  | .initReturns => if s.place = .inInit then some { s with place := .beforeSetHead } else none
  | .setHead mrPtr uninit reg =>
    if s.place = .beforeSetHead then
      match mrPtr with
      -- `main` returns while `th1` is joinable
      | none => some (s.crash .aborted)
      | some p => mirrorStep remote conn { s with place := .beforeWrite }
        (.setHead (some p) mrSize reg (fill data mrSize.toNat 0 uninit))
    else none
  | .write res =>
    if s.place = .beforeWrite then
      mirrorStep remote conn { s with place := .inWrite, completed := false }
        (.write res 0 mrSize (some 0))
    else none
  | .flush res =>
    if s.place = .beforeFlush then
      mirrorStep remote conn { s with place := .inFlush, completed := false }
        (.flush res 0 mrSize (some 1))
    else none
  | .disconnect =>
    if s.place = .beforeDisconnect then
      mirrorStep remote conn { s with place := .joining } .disconnect
    else none
  | .join =>
    if s.place = .joining ∧ s.thread = .ended then some { s with place := .returned } else none
  | _ => none

/-- The two threads and what is around them, in any interleaving.  A process that is gone takes no
further steps. -/
def machine : Machine ClientMain ClientMainAct where
  step s
    | .outside a => if Outside a then s.mirrorStep remote conn a else none
    | a =>
      if s.mirror.stopped = none then
        match a with
        | .connection fd next => s.dispatched fd (.connecting next)
        | .completion fd taken =>
          (s.dispatched fd .completing).bind fun t => took remote conn t taken
        | a => s.mainStep remote conn a
      else none

end Step

/-- What is asked of the outside: new connections of the server have fds of their own. -/
def Allowed (s : ClientMain) : ClientMainAct → Prop
  | .outside a => s.mirror.Allowed a
  | _ => True

end ClientMain

/-! ### What a step is -/

namespace ClientMain

variable {remote : Bytes → MrRemote} {conn : HandlerId} {s t : ClientMain} {a : ClientMainAct}

lemma mirrorStep_eq_some {b : MirrorAct} (h : s.mirrorStep remote conn b = some t) :
    ∃ m, (Mirror.machine remote conn).step s.mirror b = some m ∧ t = { s with mirror := m } := by
  obtain ⟨m, hm, rfl⟩ := Option.map_eq_some_iff.1 h
  exact ⟨m, hm, rfl⟩

lemma step_cases (h : (machine remote conn).step s a = some t) :
    (∃ b m, a = .outside b ∧ Outside b ∧ (Mirror.machine remote conn).step s.mirror b = some m ∧
      t = { s with mirror := m }) ∨
    (s.mirror.stopped = none ∧
      ((∃ fd next, a = .connection fd next ∧ s.dispatched fd (.connecting next) = some t) ∨
        (∃ fd taken u, a = .completion fd taken ∧ s.dispatched fd .completing = some u ∧
          took remote conn u taken = some t) ∨
        s.mainStep remote conn a = some t)) := by
  cases a with
  | outside b =>
      simp only [machine, Option.ite_none_right_eq_some] at h
      obtain ⟨m, hm, rfl⟩ := mirrorStep_eq_some h.2
      exact .inl ⟨b, m, rfl, h.1, hm, rfl⟩
  | connection fd next =>
      simp only [machine, Option.ite_none_right_eq_some] at h
      exact .inr ⟨h.1, .inl ⟨fd, next, rfl, h.2⟩⟩
  | completion fd taken =>
      simp only [machine, Option.ite_none_right_eq_some] at h
      obtain ⟨u, hu, ht⟩ := Option.bind_eq_some_iff.1 h.2
      exact .inr ⟨h.1, .inr (.inl ⟨fd, taken, u, rfl, hu, ht⟩)⟩
  | start _ _ _ | look | init _ _ | initReturns | setHead _ _ _ | write _ | flush _ | disconnect
  | join =>
      simp only [machine, Option.ite_none_right_eq_some] at h
      exact .inr ⟨h.1, .inr (.inr h.2)⟩

/-! ### The reactor of the client -/

/-- The reactor in which the client is registered for both its fds. -/
def bothRegistered (connFd compFd : Handle) : Reactor where
  eventTable := Function.update (Function.update (fun _ => none) connFd (some 0)) compFd (some 1)
  nodes := Function.update (Function.update (fun _ => none) 0 (some ⟨.connection, 0⟩)) 1
    (some ⟨.completion, 0⟩)
  nextNode := 2
  epoll := Function.update (Function.update (fun _ => none) connFd (some 0)) compFd (some 1)

structure Watching (connFd compFd : Handle) (d : Dispatcher) : Prop where
  reactor : d.reactor = some (bothRegistered connFd compFd)
  object : ∃ o, d.objects 0 = some o ∧ o.handler = .client connFd compFd
  conn_ne : connFd ≠ -1
  comp_ne : compFd ≠ -1
  ne : connFd ≠ compFd

/-- A registration that succeeds is one of a new fd. -/
lemma registerHandler_zero {r r' : Reactor} {env : RegisterEnv} {id : HandlerId}
    {eh : EventHandler} {et : EventType} (htable : r.epoll = r.eventTable)
    (h : r.registerHandler env id eh et = (0, r')) :
    eh.getHandle et ≠ -1 ∧ r.epoll (eh.getHandle et) = none ∧ r' = {
      eventTable := Function.update r.eventTable (eh.getHandle et) (some r.nextNode)
      nodes := Function.update r.nodes r.nextNode (some ⟨et, id⟩)
      nextNode := r.nextNode + 1
      epoll := Function.update r.epoll (eh.getHandle et) (some r.nextNode) } := by
  rw [Reactor.registerHandler] at h
  by_cases hfd : eh.getHandle et = -1
  · simp [hfd] at h
  by_cases hnonblock : Reactor.fdSetNonblock env = 0
  swap
  · simp [hfd, hnonblock] at h
  simp only [hfd, hnonblock, if_false, ne_eq, not_true_eq_false] at h
  cases hold : r.epoll (eh.getHandle et) with
  | some p =>
      have hentry : (r.setEntry (eh.getHandle et) ⟨et, id⟩).epoll (eh.getHandle et) = some p := by
        rw [Reactor.setEntry, ← htable, hold]
        exact hold
      simp [Reactor.epollCtlAdd, hentry, eexist] at h
  | none =>
      have hentry : r.setEntry (eh.getHandle et) ⟨et, id⟩ = { r with
          eventTable := Function.update r.eventTable (eh.getHandle et) (some r.nextNode)
          nodes := Function.update r.nodes r.nextNode (some ⟨et, id⟩)
          nextNode := r.nextNode + 1 } := by
        rw [Reactor.setEntry, ← htable, hold]
      cases hadd : env.epollCtlAdd with
      | some e =>
          simp only [hentry, Reactor.epollCtlAdd, hold, hadd, Prod.mk.injEq] at h
          exact absurd h.1 e.ne_zero
      | none =>
          simp only [hentry, Reactor.epollCtlAdd, hold, hadd, Prod.mk.injEq, true_and,
            Function.update_self] at h
          exact ⟨hfd, rfl, h.symm⟩

/-- The client is registered for both fds, which are then different. -/
lemma registerConnection_zero {c k : Handle} {env₁ env₂ : RegisterEnv} {r : Reactor}
    (h : EventHandler.registerConnection env₁ env₂ 0 (.client c k) Reactor.create = (0, r)) :
    r = bothRegistered c k ∧ c ≠ -1 ∧ k ≠ -1 ∧ c ≠ k := by
  rw [EventHandler.registerConnection] at h
  split at h
  · next r₁ h₁ =>
    split at h
    · next r₂ h₂ =>
      obtain ⟨hc, -, rfl⟩ := registerHandler_zero rfl h₁
      obtain ⟨hk, hnew, rfl⟩ := registerHandler_zero rfl h₂
      refine ⟨(Prod.mk.inj h).2.symm, hc, hk, ?_⟩
      rintro rfl
      have hfd : (EventHandler.client c c).getHandle .connection =
        (EventHandler.client c c).getHandle .completion := rfl
      simp [hfd] at hnew
    · next ret r₂ hne h₂ => exact absurd (Prod.mk.inj h).1 fun hret => hne (hret ▸ rfl)
  · next ret r₁ hne h₁ => exact absurd (Prod.mk.inj h).1 fun hret => hne (hret ▸ rfl)

section Dispatch

variable {c k fd : Handle} {d d' : Dispatcher}

/-- An event of the client goes to its handler, by its type. -/
lemma Watching.handleEvents (h : Watching c k d) {env : EventEnv}
    (hd : d.handleEvents fd env = some d') :
    ∃ o et ret, et ≠ .accept ∧ d.objects 0 = some o ∧ o.handler = .client c k ∧
      d.connectionHandle 0 o et env = some (ret, d') := by
  obtain ⟨o, ho, hhandler⟩ := h.object
  rw [Dispatcher.handleEvents, h.reactor] at hd
  have hepoll : (bothRegistered c k).epoll fd = none ∨
      (∃ et p, et ≠ .accept ∧ (bothRegistered c k).epoll fd = some p ∧
        (bothRegistered c k).nodes p = some ⟨et, 0⟩) := by
    by_cases hk : fd = k
    · subst hk
      exact .inr ⟨.completion, 1, by decide, by simp [bothRegistered], by simp [bothRegistered]⟩
    · by_cases hc : fd = c
      · subst hc
        exact .inr ⟨.connection, 0, by decide, by simp [bothRegistered, hk],
          by simp [bothRegistered]⟩
      · exact .inl (by simp [bothRegistered, hk, hc])
  rcases hepoll with hnone | ⟨et, p, het, hp, hnode⟩
  · simp [hnone] at hd
  · simp only [hp, hnode, ho, Dispatcher.handle, hhandler] at hd
    obtain ⟨⟨ret, d''⟩, hhandle, rfl⟩ := Option.map_eq_some_iff.1 hd
    exact ⟨o, et, ret, het, ho, hhandler, hhandle⟩

lemma Watching.completing (h : Watching c k d) (hd : d.handleEvents fd .completing = some d') :
    d' = d := by
  obtain ⟨o, et, ret, het, -, -, hhandle⟩ := h.handleEvents hd
  cases et with
  | accept => exact absurd rfl het
  | connection => cases hhandle
  | completion => exact (Prod.mk.inj (Option.some.inj hhandle)).2.symm

/-- `remove_self` of the client leaves nothing in `event_table`. -/
lemma removeSelf_empty (hc : c ≠ -1) (hk : k ≠ -1) (hne : c ≠ k) : ∃ ret r,
    (EventHandler.client c k).removeSelf (some (bothRegistered c k)) = (ret, some r) ∧
      r.empty = true := by
  obtain ⟨r₁, hr₁⟩ : ∃ r₁ : Reactor, r₁ = { bothRegistered c k with
      eventTable := Function.update (bothRegistered c k).eventTable c none
      nodes := Function.update (bothRegistered c k).nodes 0 none
      epoll := Function.update (bothRegistered c k).epoll c none } := ⟨_, rfl⟩
  have hfirst : (bothRegistered c k).removeHandler (.client c k) .connection = (0, r₁) := by
    have hentry : (bothRegistered c k).eventTable c = some 0 := by simp [bothRegistered, hne]
    simp only [Reactor.removeHandler, EventHandler.getHandle, connectionGetHandle, if_neg hc,
      Reactor.epollCtlDel, Reactor.eraseEntry, hentry, hr₁]
  obtain ⟨r₂, hr₂⟩ : ∃ r₂ : Reactor, r₂ = { r₁ with
      eventTable := Function.update r₁.eventTable k none
      nodes := Function.update r₁.nodes 1 none
      epoll := Function.update r₁.epoll k none } := ⟨_, rfl⟩
  have hsecond : r₁.removeHandler (.client c k) .completion = (0, r₂) := by
    have hentry : r₁.eventTable k = some 1 := by simp [hr₁, bothRegistered, hne.symm]
    simp only [Reactor.removeHandler, EventHandler.getHandle, connectionGetHandle, if_neg hk,
      Reactor.epollCtlDel, Reactor.eraseEntry, hentry, hr₂]
  refine ⟨0, r₂, ?_, ?_⟩
  · simp only [EventHandler.removeSelf, EventHandler.removeConnection, hfirst, hsecond, if_true]
  · rw [hr₂, hr₁]
    rfl

/-- **A connection event**: the client stays registered, or the connection ends and the table is
empty then. -/
lemma Watching.connecting (h : Watching c k d) {next : Rpma ConnEvent}
    (hd : d.handleEvents fd (.connecting next) = some d') :
    ((∀ ev, next = .ok ev → ¬ev.Ends) ∧ Watching c k d') ∨
      ((∃ ev, next = .ok ev ∧ ev.Ends) ∧ (∃ r, d'.reactor = some r ∧ r.empty = true) ∧
        ∃ o, d'.objects 0 = some o ∧ o.connected = false) := by
  obtain ⟨o, et, ret, het, ho, hhandler, hhandle⟩ := h.handleEvents hd
  have hset : ∀ o', o'.handler = o.handler → Watching c k (d.setObject 0 o') := fun o' ho' =>
    ⟨h.reactor, ⟨o', Dispatcher.setObject_self, ho'.trans hhandler⟩, h.conn_ne, h.comp_ne, h.ne⟩
  cases et with
  | completion => cases hhandle
  | accept => exact absurd rfl het
  | connection =>
      have heq : (d.handleConnectionEvent next 0 o).2 = d' :=
        congrArg Prod.snd (Option.some.inj hhandle)
      rcases next with e | ev
      · refine .inl ⟨nofun, ?_⟩
        rw [← heq]
        cases e with
        | noEvent => exact h
        | _ => exact hset _ rfl
      · by_cases hev : ev.Ends
        · right
          obtain ⟨ret', r, hremove, hempty⟩ := removeSelf_empty h.conn_ne h.comp_ne h.ne
          have hends : (d.handleConnectionEvent (.ok ev) 0 o).2 =
              { d.setObject 0 { o with connected := false, removed := true } with
                reactor := some r } := by
            cases ev with
            | established => exact absurd rfl hev
            | closed | lost | undefined =>
                simp only [Dispatcher.handleConnectionEvent, hhandler, h.reactor, hremove]
          rw [← heq, hends]
          have hobject : (d.setObject 0 { o with connected := false, removed := true }).objects 0 =
              some { o with connected := false, removed := true } := Dispatcher.setObject_self
          exact ⟨⟨ev, rfl, hev⟩, ⟨r, rfl, hempty⟩, _, hobject, rfl⟩
        · refine .inl ⟨fun ev' hev' => by rwa [← Except.ok.inj hev'], ?_⟩
          obtain rfl : ev = .established := not_not.1 hev
          rw [← heq]
          exact hset _ rfl

end Dispatch

/-! ### The two threads -/

/-- As long as `th1` loops, the client is registered, and the main thread has started it. -/
structure Threads (s : ClientMain) : Prop where
  unstarted : s.place = .starting → s.thread = .unstarted ∧ s.dispatcher = Dispatcher.create
  looping : s.thread = .looping → s.place ≠ .returned ∧ ∃ c k, Watching c k s.dispatcher

lemma create_threads (fd : Handle) (files : FileSystem) (nextFile : ℕ) (sendBl recvBl : MsgBuf)
    (flushType : FlushType) (imageSize : UInt64) (imageMr : Option MrRemote) :
    (create fd files nextFile sendBl recvBl flushType imageSize imageMr).Threads :=
  ⟨fun _ => ⟨rfl, rfl⟩, nofun⟩

lemma Watching.not_empty {c k : Handle} {d : Dispatcher} (h : Watching c k d) :
    d.reactor = some (bothRegistered c k) ∧ (bothRegistered c k).empty = false := ⟨h.reactor, rfl⟩

lemma dispatched_cases {fd : Handle} {env : EventEnv} (h : s.Threads)
    (hd : s.dispatched fd env = some t) (henv : ∀ fds env₁ env₂, env ≠ .accepting fds env₁ env₂) :
    s.thread = .looping ∧ t = { s with dispatcher := t.dispatcher, thread := t.thread } ∧
      ((t.thread = .looping ∧ (∃ c k, Watching c k t.dispatcher) ∧
          ∀ ev, env = .connecting (.ok ev) → ¬ev.Ends) ∨
        (t.thread = .ended ∧ t.connected = false ∧
          (∃ r, t.dispatcher.reactor = some r ∧ r.empty = true) ∧
          ∃ ev, env = .connecting (.ok ev) ∧ ev.Ends)) := by
  simp only [dispatched, Option.ite_none_right_eq_some] at hd
  obtain ⟨hlooping, hround⟩ := hd
  obtain ⟨d, hd, rfl⟩ := Option.map_eq_some_iff.1 hround
  obtain ⟨-, c, k, hwatching⟩ := h.looping hlooping
  refine ⟨hlooping, rfl, ?_⟩
  -- while the client is registered the thread goes on
  have hgoes : ∀ d', Watching c k d' → (match d'.reactor with
      | some r => if r.empty = true then Thread.ended else .looping
      | none => .looping) = .looping := by
    intro d' hd'
    simp only [hd'.not_empty.1, hd'.not_empty.2, Bool.false_eq_true, if_false]
  cases env with
  | accepting fds env₁ env₂ => exact absurd rfl (henv fds env₁ env₂)
  | completing =>
      obtain rfl := hwatching.completing hd
      exact .inl ⟨hgoes _ hwatching, ⟨c, k, hwatching⟩, nofun⟩
  | connecting next =>
      rcases hwatching.connecting hd with
        ⟨hev, hd'⟩ | ⟨⟨ev, rfl, hev⟩, ⟨r, hr, hempty⟩, o, ho, hfalse⟩
      · refine .inl ⟨hgoes _ hd', ⟨c, k, hd'⟩, fun ev henv => hev ev ?_⟩
        cases henv
        rfl
      · refine .inr ⟨?_, ?_, ⟨r, hr, hempty⟩, ev, rfl, hev⟩
        · simp only [hr, hempty, if_true]
        · simp only [connected, ho, hfalse]

lemma took_frame {taken : Taken} (h : took remote conn s taken = some t) :
    t.place = s.place ∧ t.thread = s.thread ∧ t.dispatcher = s.dispatcher := by
  cases taken with
  | nothing =>
      obtain rfl := Option.some.inj h
      exact ⟨rfl, rfl, rfl⟩
  | receive content env op =>
      rw [took] at h
      split at h
      · obtain ⟨m, -, rfl⟩ := mirrorStep_eq_some h
        exact ⟨rfl, rfl, rfl⟩
      · obtain ⟨u, hu, rfl⟩ := Option.map_eq_some_iff.1 h
        obtain ⟨m, -, rfl⟩ := mirrorStep_eq_some hu
        exact ⟨rfl, rfl, rfl⟩
  | sent env op =>
      obtain ⟨m, -, rfl⟩ := mirrorStep_eq_some h
      exact ⟨rfl, rfl, rfl⟩
  | handle env =>
      obtain ⟨u, hu, rfl⟩ := Option.map_eq_some_iff.1 h
      obtain ⟨m, -, rfl⟩ := mirrorStep_eq_some hu
      exact ⟨rfl, rfl, rfl⟩

/-- What the main thread does after its start: one place after another, each loop left only when
its flag is set. -/
inductive Advances (remote : Bytes → MrRemote) (conn : HandlerId) (s : ClientMain) :
    ClientMainAct → ClientMain → Prop
  | crashed {e : Stop} (a : ClientMainAct) (hplace : s.place = .beforeSetHead) :
      Advances remote conn s a (s.crash e)
  | established (hplace : s.place = .establishing) (hflag : s.connected = true) :
      Advances remote conn s .look { s with place := .beforeInit }
  | written (hplace : s.place = .inWrite) (hflag : s.completed = true) :
      Advances remote conn s .look { s with place := .beforeFlush }
  | flushed (hplace : s.place = .inFlush) (hflag : s.completed = true) :
      Advances remote conn s .look { s with place := .beforeDisconnect }
  | init {recv send : Rpma Unit} {m : Mirror} (hplace : s.place = .beforeInit)
      (hm : (Mirror.machine remote conn).step s.mirror
        (.init recv send 1 requireSize (ascii "RBD") (ascii "test")) = some m) :
      Advances remote conn s (.init recv send) { s with place := .inInit, mirror := m }
  | initReturns (hplace : s.place = .inInit) :
      Advances remote conn s .initReturns { s with place := .beforeSetHead }
  | setHead {p : Addr} {uninit : ℕ → UInt8} {reg : Rpma Bytes} {m : Mirror}
      (hplace : s.place = .beforeSetHead)
      (hm : (Mirror.machine remote conn).step s.mirror
        (.setHead (some p) mrSize reg (fill data mrSize.toNat 0 uninit)) = some m) :
      Advances remote conn s (.setHead (some p) uninit reg)
        { s with place := .beforeWrite, mirror := m }
  | write {res : Rpma Unit} {m : Mirror} (hplace : s.place = .beforeWrite)
      (hm : (Mirror.machine remote conn).step s.mirror (.write res 0 mrSize (some 0)) = some m) :
      Advances remote conn s (.write res)
        { s with place := .inWrite, completed := false, mirror := m }
  | flush {res : Rpma Unit} {m : Mirror} (hplace : s.place = .beforeFlush)
      (hm : (Mirror.machine remote conn).step s.mirror (.flush res 0 mrSize (some 1)) = some m) :
      Advances remote conn s (.flush res)
        { s with place := .inFlush, completed := false, mirror := m }
  | disconnect {m : Mirror} (hplace : s.place = .beforeDisconnect)
      (hm : (Mirror.machine remote conn).step s.mirror .disconnect = some m) :
      Advances remote conn s .disconnect { s with place := .joining, mirror := m }
  | join (hplace : s.place = .joining) (hended : s.thread = .ended) :
      Advances remote conn s .join { s with place := .returned }

lemma mainStep_cases (h : s.mainStep remote conn a = some t) :
    (∃ fds env₁ env₂, a = .start fds env₁ env₂ ∧ s.place = .starting ∧
      t = s.started fds env₁ env₂) ∨ Advances remote conn s a t := by
  cases a with
  | start fds env₁ env₂ =>
      simp only [mainStep, Option.ite_none_right_eq_some] at h
      exact .inl ⟨fds, env₁, env₂, rfl, h.1, (Option.some.inj h.2).symm⟩
  | look =>
      right
      simp only [mainStep] at h
      split at h
      · next hplace =>
        obtain ⟨hflag, h⟩ := Option.ite_none_right_eq_some.1 h
        obtain rfl := Option.some.inj h
        exact .established hplace hflag
      · next hplace =>
        obtain ⟨hflag, h⟩ := Option.ite_none_right_eq_some.1 h
        obtain rfl := Option.some.inj h
        exact .written hplace hflag
      · next hplace =>
        obtain ⟨hflag, h⟩ := Option.ite_none_right_eq_some.1 h
        obtain rfl := Option.some.inj h
        exact .flushed hplace hflag
      · cases h
  | init recv send =>
      obtain ⟨hplace, h⟩ := Option.ite_none_right_eq_some.1 h
      obtain ⟨m, hm, rfl⟩ := mirrorStep_eq_some h
      exact .inr (.init hplace hm)
  | initReturns =>
      obtain ⟨hplace, h⟩ := Option.ite_none_right_eq_some.1 h
      obtain rfl := Option.some.inj h
      exact .inr (.initReturns hplace)
  | setHead mrPtr uninit reg =>
      obtain ⟨hplace, h⟩ := Option.ite_none_right_eq_some.1 h
      cases mrPtr with
      | none =>
          obtain rfl := Option.some.inj h
          exact .inr (.crashed _ hplace)
      | some p =>
          obtain ⟨m, hm, rfl⟩ := mirrorStep_eq_some h
          exact .inr (.setHead hplace hm)
  | write res =>
      obtain ⟨hplace, h⟩ := Option.ite_none_right_eq_some.1 h
      obtain ⟨m, hm, rfl⟩ := mirrorStep_eq_some h
      exact .inr (.write hplace hm)
  | flush res =>
      obtain ⟨hplace, h⟩ := Option.ite_none_right_eq_some.1 h
      obtain ⟨m, hm, rfl⟩ := mirrorStep_eq_some h
      exact .inr (.flush hplace hm)
  | disconnect =>
      obtain ⟨hplace, h⟩ := Option.ite_none_right_eq_some.1 h
      obtain ⟨m, hm, rfl⟩ := mirrorStep_eq_some h
      exact .inr (.disconnect hplace hm)
  | join =>
      obtain ⟨⟨hplace, hended⟩, h⟩ := Option.ite_none_right_eq_some.1 h
      obtain rfl := Option.some.inj h
      exact .inr (.join hplace hended)
  | connection _ _ | completion _ _ | outside _ => cases h

lemma Threads.started (h : s.Threads) (hplace : s.place = .starting)
    (fds : Option (Handle × Handle)) (env₁ env₂ : RegisterEnv) :
    (s.started fds env₁ env₂).Threads := by
  obtain ⟨hthread, hd⟩ := h.unstarted hplace
  rcases fds with _ | ⟨c, k⟩
  · exact ⟨h.unstarted, h.looping⟩
  · obtain ⟨ret, r, hreg⟩ : ∃ ret r, EventHandler.registerConnection env₁ env₂ 0 (.client c k)
      Reactor.create = (ret, r) := ⟨_, _, rfl⟩
    obtain ⟨d, hregister, hr, ho⟩ : ∃ d, (s.dispatcher.newHandler (.client c k)).register env₁ env₂
        s.dispatcher.nextId (Object.create (.client c k)) = (ret, d) ∧ d.reactor = some r ∧
        ∃ o, d.objects 0 = some o ∧ o.handler = .client c k := by
      rw [hd]
      have hself : (EventHandler.client c k).registerSelf env₁ env₂ 0 (some Reactor.create) =
          (ret, some r) := by simp only [EventHandler.registerSelf, hreg]
      have hregister : (Dispatcher.create.newHandler (.client c k)).register env₁ env₂ 0
          (Object.create (.client c k)) = (ret, { (Dispatcher.create.newHandler
            (.client c k)).setObject 0 { Object.create (.client c k) with registered := true } with
          reactor := some r }) := by
        simp only [Dispatcher.register, Dispatcher.newHandler, Dispatcher.create, Object.create,
          hself]
        rfl
      have hobject : ((Dispatcher.create.newHandler (.client c k)).setObject 0
          { Object.create (.client c k) with registered := true }).objects 0 =
            some { Object.create (.client c k) with registered := true } :=
        Dispatcher.setObject_self
      exact ⟨_, hregister, rfl, _, hobject, rfl⟩
    have heq : s.started (some (c, k)) env₁ env₂ =
        if ret = 0 then { s with dispatcher := d, place := .establishing, thread := .looping }
        else { s with dispatcher := d, place := .returned } := by
      have hcreate : (Object.create (.client c k)).handler = .client c k := rfl
      simp only [ClientMain.started, hcreate, hregister]
    rw [heq]
    by_cases hret : ret = 0
    · subst hret
      obtain ⟨rfl, hc, hk, hne⟩ := registerConnection_zero hreg
      rw [if_pos rfl]
      refine ⟨fun hstarting => ?_, fun _ => ⟨fun hreturned => ?_, c, k, hr, ho, hc, hk, hne⟩⟩
      · cases hstarting
      · cases hreturned
    · rw [if_neg hret]
      refine ⟨fun hstarting => ?_, fun hlooping => ?_⟩
      · cases hstarting
      · rw [hthread] at hlooping
        cases hlooping

lemma Threads.advances (h : s.Threads) (ht : Advances remote conn s a t) : t.Threads := by
  cases ht with
  | crashed _ hplace => exact ⟨h.unstarted, h.looping⟩
  | join hplace hended =>
      refine ⟨nofun, fun hlooping => ?_⟩
      rw [hended] at hlooping
      cases hlooping
  | established | written | flushed | init | initReturns | setHead | write | flush | disconnect =>
      exact ⟨nofun, fun hlooping => ⟨nofun, (h.looping hlooping).2⟩⟩

lemma Threads.dispatched (h : s.Threads) {fd : Handle} {env : EventEnv}
    (hd : s.dispatched fd env = some t) (henv : ∀ fds env₁ env₂, env ≠ .accepting fds env₁ env₂) :
    t.Threads := by
  obtain ⟨hlooping, heq, hcases⟩ := dispatched_cases h hd henv
  have hplace : t.place = s.place := by rw [heq]
  refine ⟨fun hstarting => ?_, fun hgoes => ?_⟩
  · have hunstarted := (h.unstarted (hplace ▸ hstarting)).1
    rw [hlooping] at hunstarted
    cases hunstarted
  · rcases hcases with ⟨-, hwatching, -⟩ | ⟨hended, -⟩
    · exact ⟨hplace ▸ (h.looping hlooping).1, hwatching⟩
    · rw [hended] at hgoes
      cases hgoes

lemma Threads.step (h : s.Threads) (hs : (machine remote conn).step s a = some t) : t.Threads := by
  obtain ⟨b, m, -, -, -, rfl⟩ | ⟨-, ⟨fd, next, -, hd⟩ | ⟨fd, taken, u, -, hd, htook⟩ | hmain⟩ :=
    step_cases hs
  · exact ⟨h.unstarted, h.looping⟩
  · exact h.dispatched hd fun _ _ _ henv => by cases henv
  · have hu := h.dispatched hd fun _ _ _ henv => by cases henv
    obtain ⟨hplace, hthread, hdispatcher⟩ := took_frame htook
    refine ⟨?_, ?_⟩
    · rw [hplace, hthread, hdispatcher]
      exact hu.unstarted
    · rw [hplace, hthread, hdispatcher]
      exact hu.looping
  · rcases mainStep_cases hmain with ⟨fds, env₁, env₂, -, hplace, rfl⟩ | hadv
    · exact h.started hplace fds env₁ env₂
    · exact h.advances hadv

/-- The main thread has got past the flush, or has only not looked yet. -/
def Flushed (s : ClientMain) : Prop :=
  s.place = .beforeDisconnect ∨ s.place = .joining ∨ (s.place = .inFlush ∧ s.completed = true)

/-- `th1` has ended, and the main thread has not got past the flush. -/
structure Stranded (s : ClientMain) : Prop where
  ended : s.thread = .ended
  connected : s.connected = false
  started : s.place ≠ .starting
  flushed : ¬s.Flushed
  returned : s.place ≠ .returned

/-- Nobody sets a flag any more. -/
lemma Stranded.step (h : s.Stranded) (hs : (machine remote conn).step s a = some t) :
    t.Stranded := by
  have hended := h.ended
  have hround : ∀ {fd env u}, s.dispatched fd env ≠ some u := by
    intro fd env u hd
    simp [ClientMain.dispatched, hended] at hd
  obtain ⟨b, m, -, -, -, rfl⟩ | ⟨-, ⟨fd, next, -, hd⟩ | ⟨fd, taken, u, -, hd, -⟩ | hmain⟩ :=
    step_cases hs
  · exact ⟨h.ended, h.connected, h.started, h.flushed, h.returned⟩
  · exact absurd hd hround
  · exact absurd hd hround
  · rcases mainStep_cases hmain with ⟨_, _, _, -, hplace, -⟩ | hadv
    · exact absurd hplace h.started
    · cases hadv with
      | crashed _ hplace => exact ⟨h.ended, h.connected, h.started, h.flushed, h.returned⟩
      | established hplace hflag =>
          rw [h.connected] at hflag
          cases hflag
      | flushed hplace hflag => exact absurd (.inr (.inr ⟨hplace, hflag⟩)) h.flushed
      | disconnect hplace => exact absurd (.inl hplace) h.flushed
      | join hplace => exact absurd (.inr (.inl hplace)) h.flushed
      | written | init | initReturns | setHead | write | flush =>
          exact ⟨h.ended, h.connected, nofun, by simp [Flushed], nofun⟩

/-! ### A main thread that never returns -/

def IsMain : ClientMainAct → Bool
  | .connection _ _ | .completion _ _ | .outside _ => false
  | _ => true

/-- The main thread is in a loop whose flag is not set. -/
def Waits (s : ClientMain) : Prop :=
  (s.place = .establishing ∧ s.connected = false) ∨
    ((s.place = .inWrite ∨ s.place = .inFlush) ∧ s.completed = false)

/-- How many steps the main thread can still take from a place if no flag is set any more. -/
def stepsFrom : Place → ℕ
  | .beforeInit => 6
  | .inInit => 5
  | .beforeSetHead => 4
  | .beforeWrite => 3
  | .inWrite => 2
  | .beforeFlush => 1
  | _ => 0

def stepsLeft (s : ClientMain) : ℕ := if s.mirror.stopped = none then stepsFrom s.place else 0

lemma stepsLeft_of_running (h : s.mirror.stopped = none) : s.stepsLeft = stepsFrom s.place :=
  if_pos h

lemma stepsLeft_le (s : ClientMain) : s.stepsLeft ≤ stepsFrom s.place := by
  rw [stepsLeft]
  split
  · exact le_rfl
  · exact Nat.zero_le _

lemma stopped_outside {b : MirrorAct} {m m' : Mirror} (hb : Outside b)
    (h : (Mirror.machine remote conn).step m b = some m') : m'.stopped = m.stopped := by
  obtain ⟨_, _, rfl, -, -, rfl⟩ | ⟨_, rfl, hx⟩ | ⟨off, byte, rfl, -, rfl⟩ | ⟨rfl, rfl⟩ | ⟨-, hc⟩ :=
    Mirror.step_cases h
  · rfl
  · obtain ⟨_, _, -, ⟨-, -, -, -, rfl⟩ | ⟨-, rfl⟩⟩ := Mirror.executed_cases hx <;> rfl
  · rw [Mirror.landed]
    split <;> rfl
  · rfl
  · cases b <;> first | exact hb.elim | cases hc

/-- **Each step of a stranded main thread** is one of the few that it has left. -/
lemma Stranded.stepsLeft_step (h : s.Stranded) (hs : (machine remote conn).step s a = some t) :
    (if IsMain a then 1 else 0) + t.stepsLeft ≤ s.stepsLeft := by
  have hround : ∀ {fd env u}, s.dispatched fd env ≠ some u := by
    intro fd env u hd
    simp [ClientMain.dispatched, h.ended] at hd
  obtain ⟨b, m, rfl, hb, hm, rfl⟩ | ⟨hstopped, ⟨_, _, -, hd⟩ | ⟨_, _, _, -, hd, -⟩ | hmain⟩ :=
    step_cases hs
  · have hsame : ({ s with mirror := m } : ClientMain).stepsLeft = s.stepsLeft := by
      rw [stepsLeft, stepsLeft, stopped_outside hb hm]
    rw [hsame]
    exact (Nat.zero_add _).le
  · exact absurd hd hround
  · exact absurd hd hround
  · have hone : (if IsMain a then 1 else 0) ≤ 1 := by split <;> decide
    have hleft := stepsLeft_of_running hstopped
    have hle := t.stepsLeft_le
    rcases mainStep_cases hmain with ⟨_, _, _, -, hplace, -⟩ | hadv
    · exact absurd hplace h.started
    · cases hadv with
      | crashed _ hplace =>
          rw [hplace] at hleft
          have hnone : ∀ e, (s.crash e).stepsLeft = 0 := fun e => if_neg (by simp [crash])
          rw [hnone, hleft]
          exact hone.trans (by decide)
      | established hplace hflag =>
          rw [h.connected] at hflag
          cases hflag
      | flushed hplace hflag => exact absurd (.inr (.inr ⟨hplace, hflag⟩)) h.flushed
      | disconnect hplace => exact absurd (.inl hplace) h.flushed
      | join hplace => exact absurd (.inr (.inl hplace)) h.flushed
      | written hplace _ | init hplace _ | initReturns hplace | setHead hplace _ | write hplace _
      | flush hplace _ =>
          rw [hleft, hplace]
          exact Nat.add_le_add hone hle

/-- Along a run, the steps taken and those left do not become more. -/
lemma Stranded.run (h : s.Stranded) {bs : List ClientMainAct}
    (hrun : (machine remote conn).Run s bs t) :
    t.Stranded ∧ bs.countP IsMain + t.stepsLeft ≤ s.stepsLeft := by
  induction hrun with
  | nil => exact ⟨h, (Nat.zero_add _).le⟩
  | @snoc u v bs a _ hstep ih =>
      have hleft := ih.1.stepsLeft_step hstep
      refine ⟨ih.1.step hstep, ?_⟩
      rw [List.countP_append, List.countP_singleton, add_assoc]
      exact (Nat.add_le_add_left hleft _).trans ih.2

/-- **Where a stranded main thread can go no further**: the process is gone, or it is in a loop
whose flag is not set. -/
lemma Stranded.stuck_iff (h : s.Stranded) :
    (∀ a, IsMain a = true → (machine remote conn).step s a = none) ↔
      s.mirror.stopped ≠ none ∨ s.Waits := by
  constructor
  · intro hnone
    by_contra hcan
    obtain ⟨hstopped, hwaits⟩ := not_or.1 hcan
    have hstopped : s.mirror.stopped = none := not_not.1 hstopped
    have hmain : ∀ a, IsMain a = true → s.mainStep remote conn a = none := by
      intro a ha
      have hstep := hnone a ha
      cases a with
      | connection _ _ | completion _ _ | outside _ => cases ha
      | _ => simpa only [machine, if_pos hstopped] using hstep
    cases hplace : s.place with
    | starting => exact h.started hplace
    | establishing => exact hwaits (.inl ⟨hplace, h.connected⟩)
    | beforeInit =>
        have hno := hmain (.init (.ok ()) (.ok ())) rfl
        simp [mainStep, hplace, mirrorStep, Mirror.machine, Mirror.clientStep, hstopped] at hno
    | inInit =>
        have hno := hmain .initReturns rfl
        simp [mainStep, hplace] at hno
    | beforeSetHead =>
        have hno := hmain (.setHead none (fun _ => 0) (.ok [])) rfl
        simp [mainStep, hplace] at hno
    | beforeWrite =>
        have hno := hmain (.write (.ok ())) rfl
        simp [mainStep, hplace, mirrorStep, Mirror.machine, Mirror.clientStep, hstopped] at hno
    | inWrite =>
        have hno := hmain .look rfl
        have hflag : s.completed = false := by simpa [mainStep, hplace] using hno
        exact hwaits (.inr ⟨.inl hplace, hflag⟩)
    | beforeFlush =>
        have hno := hmain (.flush (.ok ())) rfl
        simp [mainStep, hplace, mirrorStep, Mirror.machine, Mirror.clientStep, hstopped] at hno
    | inFlush =>
        have hno := hmain .look rfl
        have hflag : s.completed = false := by simpa [mainStep, hplace] using hno
        exact hwaits (.inr ⟨.inr hplace, hflag⟩)
    | beforeDisconnect => exact h.flushed (.inl hplace)
    | joining => exact h.flushed (.inr (.inl hplace))
    | returned => exact h.returned hplace
  · intro hstuck a ha
    rw [Option.eq_none_iff_forall_ne_some]
    intro u hs
    obtain ⟨_, _, rfl, -⟩ | ⟨hstopped, ⟨_, _, rfl, -⟩ | ⟨_, _, _, rfl, -⟩ | hmain⟩ := step_cases hs
    · cases ha
    · cases ha
    · cases ha
    · have hwaits := hstuck.resolve_left fun hgone => hgone hstopped
      rcases mainStep_cases hmain with ⟨_, _, _, -, hplace, -⟩ | hadv
      · exact h.started hplace
      · cases hadv <;> simp_all [Waits]

/-- What is left to do after the flush. -/
lemma Flushed.returns (h : s.Flushed) (hended : s.thread = .ended)
    (hstopped : s.mirror.stopped = none) :
    ∃ bs u, (machine remote conn).Run s bs u ∧ u.place = .returned := by
  have hjoin : ∀ u : ClientMain, u.place = .joining → u.thread = .ended →
      u.mirror.stopped = none →
      (machine remote conn).step u .join = some { u with place := .returned } := by
    intro u hplace hthread hu
    simp only [machine, mainStep, if_pos hu, hplace, hthread, and_self, if_true]
  have hdisconnect : ∀ u : ClientMain, u.place = .beforeDisconnect → u.mirror.stopped = none →
      (machine remote conn).step u .disconnect = some { u with
        place := .joining
        mirror := u.mirror.after (ClientHandler.disconnect u.mirror.client) } := by
    intro u hplace hu
    simp only [machine, mainStep, if_pos hu, hplace, if_true, mirrorStep, Mirror.machine,
      Mirror.clientStep, Option.map_some]
  have hlook : s.place = .inFlush → s.completed = true →
      (machine remote conn).step s .look = some { s with place := .beforeDisconnect } := by
    intro hplace hflag
    simp only [machine, mainStep, if_pos hstopped, hplace, hflag, if_true]
  rcases h with hplace | hplace | ⟨hplace, hflag⟩
  · exact ⟨_, _, ((Machine.Run.nil s).snoc (hdisconnect s hplace hstopped)).snoc
      (hjoin _ rfl hended rfl), rfl⟩
  · exact ⟨_, _, (Machine.Run.nil s).snoc (hjoin s hplace hended hstopped), rfl⟩
  · exact ⟨_, _, (((Machine.Run.nil s).snoc (hlook hplace hflag)).snoc
      (hdisconnect _ rfl hstopped)).snoc (hjoin _ rfl hended rfl), rfl⟩

/-- **When the connection ends**, `event_table` is empty and `th1` ends, and then the main thread
can still return if and only if it has got past the flush or has only not looked yet.  Else it never
returns, whatever happens: it has at most six steps left, and it can go no further exactly when the
process is aborted or it is in a loop whose flag is not set, for the connection, for the write, or
for the flush. -/
theorem returns_iff (remote : Bytes → MrRemote) (conn : HandlerId) (fd : Handle)
    (files : FileSystem) (nextFile : ℕ) (sendBl recvBl : MsgBuf) (flushType : FlushType)
    (imageSize : UInt64) (imageMr : Option MrRemote) (as : List ClientMainAct) (s t : ClientMain)
    (hrun : (machine remote conn).Run
      (create fd files nextFile sendBl recvBl flushType imageSize imageMr) as s)
    (fd' : Handle) (ev : ConnEvent) (hev : ev.Ends)
    (hs : (machine remote conn).step s (.connection fd' (.ok ev)) = some t) :
    t.thread = .ended ∧ (∃ r, t.dispatcher.reactor = some r ∧ r.empty = true) ∧
      ((∃ bs u, (machine remote conn).Run t bs u ∧ u.place = .returned) ↔ s.Flushed) ∧
      (¬s.Flushed → ∀ bs u, (machine remote conn).Run t bs u →
        u.thread = .ended ∧ u.place ≠ .returned ∧ bs.countP IsMain ≤ 6 ∧
          ((∀ a, IsMain a = true → (machine remote conn).step u a = none) ↔
            u.mirror.stopped ≠ none ∨ u.Waits)) := by
  have hthreads : s.Threads := (machine remote conn).invariant
    (create_threads fd files nextFile sendBl recvBl flushType imageSize imageMr)
    (fun _ _ _ hu hs => hu.step hs) hrun
  obtain ⟨b, m, hb, -⟩ | ⟨hstopped, ⟨fd₁, next, hact, hd⟩ | ⟨_, _, _, hact, -⟩ | hmain⟩ :=
    step_cases hs
  · cases hb
  · cases hact
    obtain ⟨hlooping, heq, ⟨-, -, hnot⟩ | ⟨hended, hconnected, hempty, -⟩⟩ :=
      dispatched_cases hthreads hd fun _ _ _ henv => by cases henv
    · exact absurd hev (hnot ev rfl)
    have hplace : t.place = s.place := by rw [heq]
    have hflushed : t.Flushed ↔ s.Flushed := by rw [heq]; rfl
    have hstarted : t.place ≠ .starting := fun hstarting => by
      have hunstarted := (hthreads.unstarted (hplace ▸ hstarting)).1
      rw [hlooping] at hunstarted
      cases hunstarted
    have hstranded : ¬s.Flushed → t.Stranded := fun hnot => ⟨hended, hconnected, hstarted,
      fun h => hnot (hflushed.1 h), hplace ▸ (hthreads.looping hlooping).1⟩
    refine ⟨hended, hempty, ⟨?_, fun h => ?_⟩, fun hnot bs u hrun' => ?_⟩
    · rintro ⟨bs, u, hrun', hreturned⟩
      by_contra hnot
      exact ((hstranded hnot).run hrun').1.returned hreturned
    · refine (hflushed.2 h).returns hended ?_
      rw [heq]
      exact hstopped
    · obtain ⟨hu, hcount⟩ := (hstranded hnot).run hrun'
      have hsix : stepsFrom t.place ≤ 6 := by cases t.place <;> decide
      refine ⟨hu.ended, hu.returned, ?_, hu.stuck_iff⟩
      calc bs.countP IsMain ≤ bs.countP IsMain + u.stepsLeft := Nat.le_add_right _ _
        _ ≤ t.stepsLeft := hcount
        _ ≤ stepsFrom t.place := t.stepsLeft_le
        _ ≤ 6 := hsix
  · cases hact
  · cases hmain

/-- The main thread from `init_replica`, which gives up, to the loop after `write`. -/
lemma run_unanswered {m : Mirror} (hstopped : m.stopped = none) (hdata : m.client.dataMr = none)
    (d : Dispatcher) (thread : Thread) (flag : Bool) :
    ∃ u, (machine remote conn).Run ⟨m, d, .inInit, thread, flag⟩
        [.initReturns, .setHead (some 8) (fun _ => 0) (.ok []), .write (.ok ())] u ∧
      u.mirror.stopped = none ∧ u.place = .inWrite ∧ u.completed = false := by
  obtain ⟨content, hcontent⟩ : ∃ content, content = fill data mrSize.toNat 0 fun _ => 0 := ⟨_, rfl⟩
  obtain ⟨m₁, hm₁, hstopped₁, src, hsrc⟩ : ∃ m₁, (Mirror.machine remote conn).step m
      (.setHead (some 8) mrSize (.ok []) content) = some m₁ ∧ m₁.stopped = none ∧
      ∃ src, m₁.client.dataMr = some src := by
    refine ⟨_, if_pos hstopped, ?_⟩
    simp only [ClientHandler.setHead, ClientHandler.resetDataMr, Exec.bind_apply, Exec.update_apply,
      Exec.call_apply, Exec.read_apply, Outcome.andThen_ok, Except.map, hdata]
    exact ⟨rfl, _, rfl⟩
  obtain ⟨m₂, hm₂, hstopped₂⟩ : ∃ m₂, (Mirror.machine remote conn).step m₁
      (.write (.ok ()) 0 mrSize (some 0)) = some m₂ ∧ m₂.stopped = none := by
    refine ⟨_, if_pos hstopped₁, ?_⟩
    have hlen : mrSize.toNat ≤ 1024 * 1024 * 1024 := by decide
    simp only [ClientHandler.write, Exec.bind_apply, Exec.read_apply, Outcome.andThen_ok, hsrc,
      if_pos hlen, Mirror.after]
    rfl
  have step₁ : (machine remote conn).step ⟨m, d, .inInit, thread, flag⟩ .initReturns =
      some ⟨m, d, .beforeSetHead, thread, flag⟩ := by
    simp only [machine, mainStep, hstopped, if_true]
  have step₂ : (machine remote conn).step ⟨m, d, .beforeSetHead, thread, flag⟩
      (.setHead (some 8) (fun _ => 0) (.ok [])) = some ⟨m₁, d, .beforeWrite, thread, flag⟩ := by
    simp only [machine, mainStep, hstopped, if_true, mirrorStep, ← hcontent, hm₁, Option.map_some]
  have step₃ : (machine remote conn).step ⟨m₁, d, .beforeWrite, thread, flag⟩ (.write (.ok ())) =
      some ⟨m₂, d, .inWrite, thread, false⟩ := by
    simp only [machine, mainStep, hstopped₁, if_true, mirrorStep, hm₂, Option.map_some]
  exact ⟨_, (((Machine.Run.nil _).snoc step₁).snoc step₂).snoc step₃, hstopped₂, rfl, rfl⟩

/-- A connection that is lost while `init_replica` waits for the reply: the call gives up, and the
main thread goes on to the write and waits for its completion. -/
theorem returns_lost : ∃ s t u as, (machine (fun _ => ⟨0, 64⟩) 1).Run
    (create 3 (fun _ => none) 0 .zero .zero .visibility 0 none) as s ∧
      (machine (fun _ => ⟨0, 64⟩) 1).step s (.connection 5 (.ok .lost)) = some t ∧
      (machine (fun _ => ⟨0, 64⟩) 1).Run t
        [.initReturns, .setHead (some 8) (fun _ => 0) (.ok []), .write (.ok ())] u ∧
      u.mirror.stopped = none ∧ u.Waits ∧
      (∀ a, IsMain a = true → (machine (fun _ => ⟨0, 64⟩) 1).step u a = none) ∧
      ¬∃ bs v, (machine (fun _ => ⟨0, 64⟩) 1).Run t bs v ∧ v.place = .returned := by
  obtain ⟨s, hrun, t, hlost, hplace, u, hrun', hstopped, hplace', hflag⟩ : ∃ s,
      (machine (fun _ => ⟨0, 64⟩) 1).Run
        (create 3 (fun _ => none) 0 .zero .zero .visibility 0 none)
        [.start (some (5, 6)) .ok .ok, .connection 5 (.ok .established), .look,
          .init (.ok ()) (.ok ())] s ∧
      ∃ t, (machine (fun _ => ⟨0, 64⟩) 1).step s (.connection 5 (.ok .lost)) = some t ∧
      s.place = .inInit ∧
      ∃ u, (machine (fun _ => ⟨0, 64⟩) 1).Run t
        [.initReturns, .setHead (some 8) (fun _ => 0) (.ok []), .write (.ok ())] u ∧
      u.mirror.stopped = none ∧ u.place = .inWrite ∧ u.completed = false := by
    have run₁ := (Machine.Run.nil (M := machine (fun _ => ⟨0, 64⟩) 1)
      (create 3 (fun _ => none) 0 .zero .zero .visibility 0 none)).snoc
      (a := .start (some (5, 6)) .ok .ok) rfl
    have run₂ := run₁.snoc (a := .connection 5 (.ok .established)) rfl
    have run₃ := run₂.snoc (a := .look) rfl
    have run₄ := run₃.snoc (a := .init (.ok ()) (.ok ())) rfl
    exact ⟨_, run₄, _, rfl, rfl, run_unanswered rfl rfl _ _ _⟩
  have hnot : ¬s.Flushed := by simp [Flushed, hplace]
  obtain ⟨-, -, hiff, hnever⟩ := returns_iff _ 1 3 _ 0 .zero .zero .visibility 0 none _ s t hrun 5
    .lost (by decide) hlost
  have hwaits : u.Waits := .inr ⟨.inl hplace', hflag⟩
  obtain ⟨-, -, -, hstuck⟩ := hnever hnot _ u hrun'
  exact ⟨s, t, u, _, hrun, hlost, hrun', hstopped, hwaits, hstuck.2 (.inr hwaits),
    fun h => hnot (hiff.1 h)⟩

end ClientMain

end RpmaReplica
