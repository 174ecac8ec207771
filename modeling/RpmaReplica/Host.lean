import RpmaReplica.Dispatcher
import RpmaReplica.Life
import RpmaReplica.Replicas
import RpmaReplica.Server

/-!
# A whole server

`server.cc`: one reactor, the acceptor, and the connections that come and go.  The parts have
machines of their own: `Dispatcher` for the tables and who is registered in them, `Life` for what
happens inside one connection, the file system for what is left when a connection is gone.  Here
they run together, driven by the events that `handle_events` gets from epoll.

What ties them together are the references.  The acceptor makes an `RPMAHandler`, registers it and
lets go of it, so from then on only the entries of `event_table` keep it alive: a registration
that fails, or a connection that removes itself, destroys the handler.  `refers` counts the
references, and `reap` runs the destructor when there are none.

`connections_kept` says that this never goes wrong: in every state the connections that are alive
are exactly those with entries, each under both its fds, every handler that was ever made is one
of them or has been destroyed once and for all, and each has had a life as `Life` describes it.
-/

namespace RpmaReplica

open Exec

/-! ### References -/

namespace Dispatcher

/-- Something refers to the handler: the program, or an entry under one of its fds. -/
def refers (s : Dispatcher) (id : HandlerId) : Bool :=
  match s.objects id with
  | none => false
  | some o => o.owned || match s.reactor with
    | none => false
    | some r => [EventType.accept, .connection, .completion].any fun et =>
        (r.entry (o.handler.getHandle et)).any fun ed => ed.handler == id

/-- The entry that the pointer stored with an fd leads to. -/
def target (s : Dispatcher) (fd : Handle) : Option EventHandle :=
  s.reactor.bind fun r => (r.epoll fd).bind r.nodes

end Dispatcher

/-! ### What the references say -/

namespace Dispatcher

variable {s : Dispatcher} {id : HandlerId} {o : Object} {r : Reactor}

/-- The references to a handler that the program has let go of are its entries. -/
lemma Inv.refers_iff (h : Inv s) (hr : s.reactor = some r) (ho : s.objects id = some o)
    (howned : o.owned = false) :
    s.refers id = true ↔ ∃ fd ed, r.entry fd = some ed ∧ ed.handler = id := by
  simp only [refers, ho, hr, howned, Bool.false_or, List.any_eq_true, Option.any_eq_true,
    beq_iff_eq]
  constructor
  · rintro ⟨et, -, ed, hed, hid⟩
    exact ⟨_, ed, hed, hid⟩
  · rintro ⟨fd, ed, hed, hid⟩
    obtain ⟨q, hok⟩ := h.entry r fd ed hr hed
    obtain rfl : q = o := Option.some.inj (hok.object.symm.trans (hid ▸ ho))
    refine ⟨ed.type, ?_, ed, ?_, hid⟩
    · cases ed.type <;> simp
    · rw [hok.usesFor.getHandle]
      exact hed

/-- The event is dispatched to the handler of the entry. -/
lemma target_eq (hr : s.reactor = some r) {fd : Handle} {p : ℕ} {ed : EventHandle}
    (hp : r.epoll fd = some p) (hnode : r.nodes p = some ed) : s.target fd = some ed := by
  simp [target, hr, hp, hnode]

/-- The handler of an accepted connection: what `accept` does to the tables. -/
lemma Inv.accept_eq (h : Inv s) (hr : s.reactor = some r) {c k : Handle}
    (hfresh : s.Fresh (.rpma c k)) (env₁ env₂ : RegisterEnv) :
    ∃ ret r', (s.accept (some (c, k)) env₁ env₂).2.reactor = some r' ∧
      EventHandler.Registration s.nextId (.rpma c k) ret r r' ∧
      (∀ fd, (EventHandler.rpma c k).Uses fd → r.entry fd = none) ∧
      (s.accept (some (c, k)) env₁ env₂).2.objects = Function.update s.objects s.nextId
        (some ⟨.rpma c k, false, true, false, false, false⟩) := by
  have hnew := h.newHandler hfresh
  have ho : (s.newHandler (.rpma c k)).objects s.nextId = some (Object.create (.rpma c k)) := by
    simp [Dispatcher.newHandler]
  have hnone : ∀ fd, (EventHandler.rpma c k).Uses fd → r.eventTable fd = none := fun fd hfd =>
    hnew.unused (s := s.newHandler (.rpma c k)) hr ho (.inl ⟨_, ho, rfl⟩) rfl hfd
  obtain ⟨ret, r', heq, hreg⟩ := EventHandler.registerSelf_registration (h.inStep r hr) env₁ env₂
    s.nextId (.rpma c k) hnone
  have heq' : (EventHandler.rpma c k).registerSelf env₁ env₂ s.nextId
      (s.newHandler (.rpma c k)).reactor = (ret, some r') := by
    rw [← heq, ← hr]
    rfl
  refine ⟨ret, r', ?_, hreg, fun fd hfd => ?_, ?_⟩
  · simp only [Dispatcher.accept, Dispatcher.register, Object.create, heq', dropHandler,
      Dispatcher.setObject]
  · rw [(h.inStep r hr).toIsTable.entry_eq_none]
    exact hnone fd hfd
  · simp only [Dispatcher.accept, Dispatcher.register, Object.create, dropHandler,
      Dispatcher.setObject, Dispatcher.newHandler, hr, Function.update_idem, Option.isSome_some]

/-- `remove_self` adds no entries. -/
lemma Inv.entry_of_removed (h : Inv s) (hr : s.reactor = some r)
    (hboth : ∀ et, o.handler.Handles et ↔ et ≠ .accept) {ev : ConnEvent} (hev : ev.Ends)
    {r' : Reactor} (hr' : (s.handleConnectionEvent (.ok ev) id o).2.reactor = some r')
    {fd : Handle} {ed : EventHandle} (hed : r'.entry fd = some ed) : r.entry fd = some ed := by
  obtain ⟨ret, r₁, heq, -, hgone, hsame⟩ :=
    EventHandler.removeConnection_inStep (h.inStep r hr) hboth
  have hremove := EventHandler.removeSelf_connection hboth heq
  have hreactor : (s.handleConnectionEvent (.ok ev) id o).2.reactor = some r₁ := by
    cases ev with
    | established => exact absurd rfl hev
    | closed | lost | undefined => simp only [Dispatcher.handleConnectionEvent, hr, hremove]
  obtain rfl : r₁ = r' := Option.some.inj (hreactor.symm.trans hr')
  have hcase : ¬o.handler.Uses fd ∨ r.eventTable fd = none := by
    by_cases huses : o.handler.Uses fd
    · refine .inr ?_
      by_cases hneg : fd = -1
      · -- `-1` is no key of `event_table`
        rw [← (h.inStep r hr).toIsTable.entry_eq_none, Option.eq_none_iff_forall_ne_some]
        intro ed' hed'
        obtain ⟨q, hok⟩ := h.entry r fd ed' hr hed'
        exact hok.ne hneg
      · rw [hgone fd hneg huses] at hed
        cases hed
    · exact .inl huses
  rw [← (hsame fd hcase).entry]
  exact hed

/-- An event changes the flags of the handler it is dispatched to, or the handler removes itself;
the other handlers and their entries stay as they are. -/
lemma Inv.connectionEvent_cases (h : Inv s) (next : Rpma ConnEvent) (hr : s.reactor = some r)
    (hlive : s.Live id) (ho : s.objects id = some o) (hreg : o.registered = true)
    (hboth : ∀ et, o.handler.Handles et ↔ et ≠ .accept) :
    (∀ id', id' ≠ id → (s.handleConnectionEvent next id o).2.objects id' = s.objects id') ∧
    (∃ o', (s.handleConnectionEvent next id o).2.objects id = some o' ∧
      o'.handler = o.handler ∧ o'.owned = o.owned) ∧
    (((s.handleConnectionEvent next id o).2.reactor = some r ∧ ∀ ev, next = .ok ev → ¬ev.Ends) ∨
      ∃ ev r', next = .ok ev ∧ ev.Ends ∧
        (s.handleConnectionEvent next id o).2.reactor = some r' ∧
        (∀ fd ed, r'.entry fd = some ed → ed.handler ≠ id) ∧
        ∀ fd ed, ed.handler ≠ id → (r'.entry fd = some ed ↔ r.entry fd = some ed)) := by
  rcases next with e | ev
  · by_cases he : e = .noEvent
    · subst he
      exact ⟨fun _ _ => rfl, ⟨o, ho, rfl, rfl⟩, .inl ⟨hr, fun _ hev => by cases hev⟩⟩
    · have heq : (s.handleConnectionEvent (.error e) id o).2 =
          s.setObject id { o with disconnected := true } := by
        cases e <;> first | exact absurd rfl he | rfl
      rw [heq]
      exact ⟨fun _ hne => setObject_of_ne hne, ⟨_, setObject_self, rfl, rfl⟩,
        .inl ⟨hr, fun _ hev => by cases hev⟩⟩
  · by_cases hev : ev.Ends
    · obtain ⟨-, r', hr', hgone, hsame⟩ :=
        h.handleConnectionEvent_ends hev hr hlive ho hreg hboth
      have heq : (s.handleConnectionEvent (.ok ev) id o).2.objects =
          (s.setObject id { o with connected := false, removed := true }).objects := by
        cases ev <;> first | exact absurd rfl hev | rfl
      rw [heq]
      refine ⟨fun _ hne => setObject_of_ne hne, ⟨_, setObject_self, rfl, rfl⟩,
        .inr ⟨ev, r', rfl, hev, hr', hgone, fun fd ed hed => ?_⟩⟩
      refine ⟨h.entry_of_removed hr hboth hev hr', fun hold => ?_⟩
      rw [(hsame fd fun ed' hed' => ?_).entry, hold]
      exact Option.some.inj (hold.symm.trans hed') ▸ hed
    · obtain rfl : ev = .established := not_not.1 hev
      refine ⟨fun _ hne => setObject_of_ne hne, ⟨_, setObject_self, rfl, rfl⟩, .inl ⟨hr, ?_⟩⟩
      rintro ev ⟨⟩
      exact hev

end Dispatcher

/-! ### The machine -/

def MemoryManager.HoldsPmem (m : MemoryManager) : Prop := m.data ≠ none ∧ m.isPmem = true

instance (m : MemoryManager) : Decidable m.HoldsPmem := inferInstanceAs (Decidable (_ ∧ _))

/-- The server: its reactor with the handlers around it, the connections that are alive, the
lives of those that are not, the files, and the stores that have reached a file.  A server that
has stopped takes no further steps. -/
structure Host where
  dispatcher : Dispatcher
  alive : HandlerId → Option Life
  past : List Life
  files : FileSystem
  nextFile : ℕ
  /-- The file behind the pmem region of a connection. -/
  mapped : HandlerId → Option ℕ
  log : List Store
  stopped : Option Stop

/-- What the outside answers during one event. -/
inductive HostEnv
  /-- An accept event: what the new handler finds in its buffers and its unset member, the calls of
  its constructor, its fds, and its two registrations. -/
  | accepting (sendBl recvBl : MsgBuf) (size : UInt64) (env : ConstructEnv)
      (connFd compFd : Handle) (env₁ env₂ : RegisterEnv)
  /-- A connection event: the result of `rpma_conn_next_event`. -/
  | connecting (next : Rpma ConnEvent)
  /-- A completion event for which `rpma_conn_completion_wait` fails. -/
  | waiting (e : RpmaError)
  /-- A completion event for which `rpma_conn_completion_get` returns `got`. -/
  | completing (got : Rpma Completion) (content : MsgBuf) (env : ServeEnv)

/-- What can happen to the server.  A call that fails to create a file may leave one behind. -/
inductive HostAct
  | event (fd : Handle) (env : HostEnv) (left : Option UInt64)
  /-- A byte is stored through the region of a connection. -/
  | store (id : HandlerId) (off : ℕ) (byte : UInt8)

def HostAct.accepts : HostAct → Bool
  | .event _ (.accepting _ _ _ _ _ _ _ _) _ => true
  | _ => false

/-- `_conn.disconnect()` outside of `handle_completion`. -/
def Life.disconnect (l : Life) : Life :=
  l.after (zoom Watched.conn ConnectionHandler.disconnect l.watched) .alive

/-- `std::make_shared<RPMAHandler>(..)`. -/
def Life.born (sendBl recvBl : MsgBuf) (size : UInt64) (env : ConstructEnv) : Life :=
  (Life.create sendBl recvBl size).construct env

/-- What an event is to the reactor. -/
def HostEnv.toEventEnv : HostEnv → EventEnv
  | .accepting sendBl recvBl size env connFd compFd env₁ env₂ =>
    .accepting (if (Life.born sendBl recvBl size env).phase = .alive then some (connFd, compFd)
      else none) env₁ env₂
  | .connecting next => .connecting next
  | .waiting _ | .completing _ _ _ => .completing

/-- A connection event that makes the handler disconnect. -/
def Disconnects : Rpma ConnEvent → Prop
  | .error e => e ≠ .noEvent
  | .ok _ => False

instance (next : Rpma ConnEvent) : Decidable (Disconnects next) := by
  rcases next with e | ev
  · exact inferInstanceAs (Decidable (e ≠ .noEvent))
  · exact inferInstanceAs (Decidable False)

namespace Host

/-- A server whose acceptor is registered for `fd`, before the first event. -/
def start (fd : Handle) (files : FileSystem) (nextFile : ℕ) : Host where
  dispatcher := ((Dispatcher.create.newHandler (.acceptor fd)).register .ok .ok 0
    (Object.create (.acceptor fd))).2
  alive _ := none
  past := []
  files := files
  nextFile := nextFile
  mapped _ := none
  log := []
  stopped := none

/-- What is created next, if anything is. -/
def creation (s : Host) (left : Option UInt64) : Creation := ⟨s.nextFile, left⟩

/-- The destructor of a handler to which nothing refers any more. -/
def reap (id : HandlerId) (left : Option UInt64) (s : Host) : Option Host :=
  match s.alive id with
  | none => some s
  | some l =>
    if s.dispatcher.refers id then some s
    else
      (s.files.calls (s.creation left)
        (Exec.log (zoom Watched.rpma RPMAHandler.destroy l.watched))).map fun files =>
          { s with
            alive := Function.update s.alive id none
            past := s.past ++ [l.destruct]
            files := files
            mapped := Function.update s.mapped id none }

/-- The file behind the region of a connection after an event: a region that was there before is
the same. -/
def mappedAfter (old : Option ℕ) (before after : MemoryManager) (files : FileSystem) : Option ℕ :=
  if after.HoldsPmem then
    if before.data = none then (files (cStr after.path)).map File.id else old
  else none

/-- `AcceptorHandler::handle` has made a handler, or its constructor has thrown. -/
def accepted (id : HandlerId) (l : Life) (left : Option UInt64) (s : Host) : Option Host :=
  if l.phase = .alive then
    reap id left { s with
      alive := Function.update s.alive id (some l)
      mapped := Function.update s.mapped id none }
  else some { s with past := s.past ++ [l] }

/-- `handle_connection_event` of a connection. -/
def connected (next : Rpma ConnEvent) (id : HandlerId) (l : Life) (left : Option UInt64)
    (s : Host) : Option Host :=
  reap id left { s with
    alive := Function.update s.alive id (some (if Disconnects next then l.disconnect else l)) }

def stopOf {ρ : Type} : Except Stop ρ → Option Stop
  | .ok _ => none
  | .error e => some e

/-- `handle_completion` of a connection.  What its callback throws leaves the event loop. -/
def completed (got : Rpma Completion) (content : MsgBuf) (env : ServeEnv) (id : HandlerId)
    (l : Life) (left : Option UInt64) (s : Host) : Option Host :=
  if l.Awaits got then
    let o := Watched.completion env got (l.arrived content)
    (s.files.calls (s.creation left) (Exec.log o)).map fun files =>
      { s with
        alive := Function.update s.alive id (some (l.completion got content env))
        files := files
        mapped := Function.update s.mapped id
          (mappedAfter (s.mapped id) l.watched.handler.dataManager o.state.handler.dataManager
            files)
        stopped := stopOf o.result }
  else none

/-- What an event does to the connections, when `target` is the handler that it is dispatched to.
A handler that is not there is a dangling pointer. -/
def effect (s : Host) (env : HostEnv) (target : HandlerId) (left : Option UInt64)
    (dispatcher : Dispatcher) : Option Host :=
  let t := { s with dispatcher := dispatcher }
  match env with
  | .accepting sendBl recvBl size env _ _ _ _ =>
    t.accepted s.dispatcher.nextId (Life.born sendBl recvBl size env) left
  | .connecting next =>
    match s.alive target with
    | some l => t.connected next target l left
    | none => some { t with stopped := some .undefined }
  | .waiting e =>
    match s.alive target with
    | some l => some { t with alive := Function.update s.alive target (some (l.waitFailed e)) }
    | none => some { t with stopped := some .undefined }
  | .completing got content env =>
    match s.alive target with
    | some l => t.completed got content env target l left
    | none => some { t with stopped := some .undefined }

/-- One round of the loop of `handle_events`. -/
def handleEvents (s : Host) (fd : Handle) (env : HostEnv) (left : Option UInt64) : Option Host :=
  (s.dispatcher.handleEvents fd env.toEventEnv).bind fun d =>
    match d.stopped with
    | some e => some { s with dispatcher := d, stopped := some e }
    | none => (s.dispatcher.target fd).bind fun ed =>
      (s.effect env ed.handler left d).map fun t => { t with nextFile := s.nextFile + 1 }

/-- A byte is stored through the region of a connection.  It ends up in the file at the path of
the region if that is still the file that was mapped. -/
def put (s : Host) (id : HandlerId) (m : MemoryManager) (off : ℕ) (byte : UInt8) : Host :=
  match s.files (cStr m.path) with
  | none => s
  | some f =>
    if s.mapped id = some f.id then
      { s with
        files := Function.update s.files (cStr m.path)
          (some { f with content := Function.update f.content off byte })
        log := s.log ++ [⟨cStr m.path, off, byte⟩] }
    else s

def machine : Machine Host HostAct where
  step s a :=
    match s.stopped with
    | some _ => none
    | none =>
      match a with
      | .event fd env left => s.handleEvents fd env left
      | .store id off byte =>
        (s.alive id).bind fun l =>
          let m := l.watched.handler.dataManager
          if m.HoldsPmem ∧ off < m.size.toNat then some (s.put id m off byte) else none

/-- A new connection has fds that no handler uses that is alive. -/
def Allowed (s : Host) : HostAct → Prop
  | .event fd env _ => s.dispatcher.Allowed (.event fd env.toEventEnv)
  | .store _ _ _ => True

/-! ### Lives -/

end Host

namespace Life

/-- The handler has come to where it is by the steps of a life. -/
def Lived (l : Life) : Prop :=
  ∃ sendBl recvBl size as, machine.Run (create sendBl recvBl size) as l

variable {l : Life}

lemma Lived.step {u : Life} {a : LifeAct} (h : l.Lived) (hs : machine.step l a = some u) :
    u.Lived := by
  obtain ⟨sendBl, recvBl, size, as, hrun⟩ := h
  exact ⟨sendBl, recvBl, size, as ++ [a], hrun.snoc hs⟩

lemma Lived.inv (h : l.Lived) : l.Inv := by
  obtain ⟨sendBl, recvBl, size, as, hrun⟩ := h
  exact machine.invariant (create_inv sendBl recvBl size) (fun _ _ _ ht hs => ht.step hs) hrun

lemma lived_born (sendBl recvBl : MsgBuf) (size : UInt64) (env : ConstructEnv) :
    (born sendBl recvBl size env).Lived :=
  ⟨sendBl, recvBl, size, [.construct env], (Machine.Run.nil _).snoc rfl⟩

/-- A constructor returns, or all is undone. -/
lemma phase_born (sendBl recvBl : MsgBuf) (size : UInt64) (env : ConstructEnv) :
    (born sendBl recvBl size env).phase = .alive ∨ (born sendBl recvBl size env).phase = .gone := by
  cases hr : (zoom Watched.rpma (RPMAHandler.new env)
    (create sendBl recvBl size).watched).result with
  | ok u => exact .inl (phase_construct_ok hr)
  | error e => exact .inr (phase_construct_error hr)

/-- To disconnect is what a failed wait does as well. -/
lemma Lived.disconnect (h : l.Lived) (halive : l.phase = .alive) : l.disconnect.Lived :=
  h.step (a := .waitFailed .inval) (by simp only [machine, if_pos halive]; rfl)

lemma Lived.waitFailed (h : l.Lived) (halive : l.phase = .alive) (e : RpmaError) :
    (l.waitFailed e).Lived := h.step (a := .waitFailed e) (by simp only [machine, if_pos halive])

lemma Lived.destruct (h : l.Lived) (halive : l.phase = .alive) : l.destruct.Lived :=
  h.step (a := .destroy) (by simp only [machine, if_pos halive])

lemma Lived.completion (h : l.Lived) (halive : l.phase = .alive) {got : Rpma Completion}
    (hawaits : l.Awaits got) (content : MsgBuf) (env : ServeEnv) :
    (l.completion got content env).Lived :=
  h.step (a := .completion got content env) (by
    simp only [machine, if_pos (And.intro halive hawaits)])

lemma phase_completion_ok {got : Rpma Completion} {content : MsgBuf} {env : ServeEnv} {ret : ℤ}
    (h : (Watched.completion env got (l.arrived content)).result = .ok ret) :
    (l.completion got content env).phase = .alive := by
  simp only [Life.completion, after, h, Session.survives, if_true]

end Life

namespace Host

/-! ### The invariant -/

/-- A connection in order: it is kept alive by its entries alone, and is registered under both its
fds. -/
def IsConnection (s : Host) (id : HandlerId) : Prop :=
  ∃ r c k o, s.dispatcher.reactor = some r ∧ s.dispatcher.objects id = some o ∧
    o.handler = .rpma c k ∧ o.owned = false ∧ r.Registered id .connection c ∧
    r.Registered id .completion k

def Listens (fd : Handle) (s : Host) : Prop :=
  ∃ r o, s.dispatcher.reactor = some r ∧ s.dispatcher.objects 0 = some o ∧
    o.handler = .acceptor fd ∧ r.Registered 0 .accept fd

structure Inv (fd : Handle) (s : Host) : Prop where
  dispatcher : s.dispatcher.Inv
  listens : s.Listens fd
  connection : ∀ id l, s.alive id = some l → s.IsConnection id
  entry : ∀ r fd' ed, s.dispatcher.reactor = some r → r.entry fd' = some ed → ed.handler = 0 ∨
    ∃ l, s.alive ed.handler = some l
  lived : ∀ id l, s.alive id = some l → l.Lived ∧ (s.stopped = none → l.phase = .alive)
  past : ∀ l ∈ s.past, l.Lived ∧ l.phase = .gone

variable {fd : Handle} {s t : Host} {id : HandlerId} {l : Life}

/-- A life goes on, while the tables stay as they are. -/
lemma Inv.setLife (h : Inv fd s) (hrunning : s.stopped = none) (hl : s.alive id = some l)
    {l' : Life} (hl' : l'.Lived) (hdispatcher : t.dispatcher = s.dispatcher)
    (halive : t.alive = Function.update s.alive id (some l')) (hpast : t.past = s.past)
    (hphase : t.stopped = none → l'.phase = .alive) : Inv fd t := by
  have hcases : ∀ id' q, t.alive id' = some q →
      (id' = id ∧ q = l') ∨ (id' ≠ id ∧ s.alive id' = some q) := by
    intro id' q hq
    rw [halive] at hq
    by_cases hid : id' = id
    · subst hid
      rw [Function.update_self] at hq
      exact .inl ⟨rfl, (Option.some.inj hq).symm⟩
    · rw [Function.update_of_ne hid] at hq
      exact .inr ⟨hid, hq⟩
  refine ⟨hdispatcher ▸ h.dispatcher, ?_, ?_, ?_, ?_, ?_⟩
  · rw [Listens, hdispatcher]
    exact h.listens
  · intro id' q hq
    rw [IsConnection, hdispatcher]
    rcases hcases id' q hq with ⟨rfl, -⟩ | ⟨-, hq'⟩
    · exact h.connection id' l hl
    · exact h.connection id' q hq'
  · intro r fd' ed hr hed
    rw [hdispatcher] at hr
    refine (h.entry r fd' ed hr hed).imp_right ?_
    rintro ⟨q, hq⟩
    rw [halive]
    by_cases hid : ed.handler = id
    · exact ⟨l', by rw [hid, Function.update_self]⟩
    · exact ⟨q, by rw [Function.update_of_ne hid, hq]⟩
  · intro id' q hq
    rcases hcases id' q hq with ⟨rfl, rfl⟩ | ⟨-, hq'⟩
    · exact ⟨hl', hphase⟩
    · exact ⟨(h.lived id' q hq').1, fun _ => (h.lived id' q hq').2 hrunning⟩
  · rw [hpast]
    exact h.past

/-- An entry, in tables that are in step, is a registration. -/
lemma registered_of_entry {r : Reactor} (hin : r.InStep) {et : EventType} {fd' : Handle}
    (h : r.entry fd' = some ⟨et, id⟩) : r.Registered id et fd' := by
  refine ⟨h, fun hnone => ?_, by rw [hin.epoll]⟩
  rw [hin.toIsTable.entry_eq_none.2 hnone] at h
  cases h

/-- Something happens to one connection, and not to the entries of the others: it is alive
afterwards and in order, or has no entries. -/
lemma Inv.change (h : Inv fd s) (hrunning : s.stopped = none) (hid : id ≠ 0) {r r' : Reactor}
    (hd : t.dispatcher.Inv) (hr : s.dispatcher.reactor = some r)
    (hr' : t.dispatcher.reactor = some r')
    (hobjects : ∀ id', id' ≠ id → t.dispatcher.objects id' = s.dispatcher.objects id')
    (hentries : ∀ fd' ed, ed.handler ≠ id → (r'.entry fd' = some ed ↔ r.entry fd' = some ed))
    (halive : ∀ id', id' ≠ id → t.alive id' = s.alive id')
    (hself : (∃ l, t.alive id = some l ∧ l.Lived ∧ l.phase = .alive ∧ t.IsConnection id) ∨
      (t.alive id = none ∧ ∀ fd' ed, r'.entry fd' = some ed → ed.handler ≠ id))
    (hpast : ∀ l ∈ t.past, l.Lived ∧ l.phase = .gone) : Inv fd t := by
  have hin' := hd.inStep r' hr'
  refine ⟨hd, ?_, ?_, ?_, ?_, hpast⟩
  · obtain ⟨r₀, o, hr₀, ho, hhandler, hreg⟩ := h.listens
    obtain rfl : r = r₀ := Option.some.inj (hr.symm.trans hr₀)
    exact ⟨r', o, hr', (hobjects 0 hid.symm).trans ho, hhandler,
      registered_of_entry hin' ((hentries fd ⟨_, 0⟩ hid.symm).2 hreg.1)⟩
  · intro id' q hq
    by_cases hid' : id' = id
    · subst hid'
      rcases hself with ⟨_, _, _, _, hconn⟩ | ⟨hnone, -⟩
      · exact hconn
      · rw [hnone] at hq
        cases hq
    · obtain ⟨r₀, c, k, o, hr₀, ho, hhandler, howned, hc, hk⟩ :=
        h.connection id' q ((halive id' hid').symm.trans hq)
      obtain rfl : r = r₀ := Option.some.inj (hr.symm.trans hr₀)
      exact ⟨r', c, k, o, hr', (hobjects id' hid').trans ho, hhandler, howned,
        registered_of_entry hin' ((hentries c ⟨_, id'⟩ hid').2 hc.1),
        registered_of_entry hin' ((hentries k ⟨_, id'⟩ hid').2 hk.1)⟩
  · intro r₁ fd' ed hr₁ hed
    obtain rfl : r' = r₁ := Option.some.inj (hr'.symm.trans hr₁)
    by_cases hed' : ed.handler = id
    · rcases hself with ⟨q, hq, _⟩ | ⟨-, hgone⟩
      · exact .inr ⟨q, hed' ▸ hq⟩
      · exact absurd hed' (hgone fd' ed hed)
    · rw [halive _ hed']
      exact h.entry r fd' ed hr ((hentries fd' ed hed').1 hed)
  · intro id' q hq
    by_cases hid' : id' = id
    · subst hid'
      rcases hself with ⟨q', hq', hlived, hphase, _⟩ | ⟨hnone, -⟩
      · obtain rfl : q' = q := Option.some.inj (hq'.symm.trans hq)
        exact ⟨hlived, fun _ => hphase⟩
      · rw [hnone] at hq
        cases hq
    · obtain ⟨hlived, hphase⟩ := h.lived id' q ((halive id' hid').symm.trans hq)
      exact ⟨hlived, fun _ => hphase hrunning⟩

lemma reap_of_refers {left : Option UInt64} (hl : s.alive id = some l)
    (hrefers : s.dispatcher.refers id = true) : reap id left s = some s := by
  simp [reap, hl, hrefers]

/-- A handler that nothing refers to is destroyed, which concerns no file. -/
lemma reap_of_not_refers {left : Option UInt64} (hl : s.alive id = some l)
    (hrefers : s.dispatcher.refers id = false) :
    reap id left s = some { s with
      alive := Function.update s.alive id none
      past := s.past ++ [l.destruct]
      mapped := Function.update s.mapped id none } := by
  have hfiles : s.files.calls (s.creation left)
      (Exec.log (zoom Watched.rpma RPMAHandler.destroy l.watched)) = some s.files := by
    rw [Exec.log_zoom]
    exact RPMAHandler.destroy_files _ _ _
  simp only [reap, hl, hrefers, hfiles, Bool.false_eq_true, if_false, Option.map_some]

/-! ### One event -/

/-- Whatever happens in an event that is dispatched to a handler that is there. -/
inductive Happens (s : Host) (fd : Handle) (left : Option UInt64) : HostEnv → Host → Prop
  | accepted {sendBl recvBl : MsgBuf} {size : UInt64} {env : ConstructEnv} {c k : Handle}
      {env₁ env₂ : RegisterEnv} {l : Life} {fds : Option (Handle × Handle)} {t : Host}
      (hl : l = Life.born sendBl recvBl size env)
      (hfds : fds = if l.phase = .alive then some (c, k) else none)
      (ht : Host.accepted s.dispatcher.nextId l left
        { s with dispatcher := (s.dispatcher.accept fds env₁ env₂).2 } = some t) :
      Happens s fd left (.accepting sendBl recvBl size env c k env₁ env₂) t
  | connected {next : Rpma ConnEvent} {ed : EventHandle} {o : Object} {l : Life} {t : Host}
      (htarget : s.dispatcher.target fd = some ed)
      (ho : s.dispatcher.objects ed.handler = some o) (hl : s.alive ed.handler = some l)
      (ht : Host.connected next ed.handler l left
        { s with dispatcher := (s.dispatcher.handleConnectionEvent next ed.handler o).2 } =
      some t) :
      Happens s fd left (.connecting next) t
  | waited {e : RpmaError} {ed : EventHandle} {l : Life}
      (htarget : s.dispatcher.target fd = some ed) (hl : s.alive ed.handler = some l) :
      Happens s fd left (.waiting e)
        { s with alive := Function.update s.alive ed.handler (some (l.waitFailed e)) }
  | completed {got : Rpma Completion} {content : MsgBuf} {env : ServeEnv} {ed : EventHandle}
      {l : Life} {t : Host} (htarget : s.dispatcher.target fd = some ed)
      (hl : s.alive ed.handler = some l)
      (ht : Host.completed got content env ed.handler l left s = some t) :
      Happens s fd left (.completing got content env) t

/-- A handler that is registered for anything but accept events is a connection. -/
lemma Inv.alive_of_entry (h : Inv fd s) {r : Reactor} {fd' : Handle} {ed : EventHandle}
    {o : Object} (hr : s.dispatcher.reactor = some r) (hed : r.entry fd' = some ed)
    (hok : s.dispatcher.EntryOk fd' ed o) (htype : ed.type ≠ .accept) :
    ∃ l, s.alive ed.handler = some l := by
  refine (h.entry r fd' ed hr hed).resolve_left fun hzero => ?_
  obtain ⟨-, q, -, hq, hhandler, -⟩ := h.listens
  obtain rfl : o = q := Option.some.inj (hok.object.symm.trans (hzero ▸ hq))
  have hhandles := hok.usesFor.handles
  rw [hhandler] at hhandles
  exact htype hhandles

/-- **What an event does.**  It is dispatched to a handler that is there. -/
lemma Inv.handleEvents_cases (h : Inv fd s) {fd' : Handle} {env : HostEnv}
    {left : Option UInt64} (hallowed : s.Allowed (.event fd' env left))
    (hs : s.handleEvents fd' env left = some t) :
    ∃ u, s.Happens fd' left env u ∧ t = { u with nextFile := s.nextFile + 1 } := by
  obtain ⟨d, hd, hs⟩ := Option.bind_eq_some_iff.1 hs
  have hdinv : d.Inv := h.dispatcher.handleEvents hallowed hd
  obtain ⟨r, p, ed, o, ret, hr, hp, -, hnode, hed, hok, hhandle⟩ := h.dispatcher.handleEvents_eq hd
  have htarget := Dispatcher.target_eq hr hp hnode
  simp only [hdinv.running, htarget, Option.bind_some] at hs
  obtain ⟨u, hu, rfl⟩ := Option.map_eq_some_iff.1 hs
  refine ⟨u, ?_, rfl⟩
  rcases Dispatcher.handle_cases hok.usesFor hhandle with
    ⟨-, fds, env₁, env₂, henv, rfl⟩ | ⟨htype, next, henv, rfl⟩ | ⟨htype, henv, rfl⟩
  · cases env with
    | accepting sendBl recvBl size cenv c k e₁ e₂ =>
        obtain ⟨rfl, rfl, rfl⟩ := EventEnv.accepting.inj henv
        exact .accepted rfl rfl hu
    | connecting _ | waiting _ | completing _ _ _ => cases henv
  · obtain ⟨l, hl⟩ := h.alive_of_entry hr hed hok (by rw [htype]; decide)
    cases env with
    | connecting next' =>
        obtain rfl := EventEnv.connecting.inj henv
        simp only [effect, hl] at hu
        exact .connected htarget hok.object hl hu
    | accepting _ _ _ _ _ _ _ _ | waiting _ | completing _ _ _ => cases henv
  · obtain ⟨l, hl⟩ := h.alive_of_entry hr hed hok (by rw [htype]; decide)
    cases env with
    | waiting e =>
        simp only [effect, hl] at hu
        obtain rfl := Option.some.inj hu
        exact .waited htarget hl
    | completing got content env =>
        simp only [effect, hl] at hu
        exact .completed htarget hl hu
    | accepting _ _ _ _ _ _ _ _ | connecting _ => cases henv

/-! ### The invariant is kept -/

/-- The handler of a connection with its flags as they are while it is registered. -/
lemma Inv.connection_object (h : Inv fd s) (hl : s.alive id = some l) :
    ∃ r c k o, s.dispatcher.reactor = some r ∧ s.dispatcher.objects id = some o ∧
      o.handler = .rpma c k ∧ o.owned = false ∧ o.registered = true ∧
      r.Registered id .connection c ∧ r.Registered id .completion k ∧ s.dispatcher.Live id := by
  obtain ⟨r, c, k, o, hr, ho, hhandler, howned, hc, hk⟩ := h.connection id l hl
  obtain ⟨q, hok⟩ := h.dispatcher.entry r c _ hr hc.1
  obtain rfl : q = o := Option.some.inj (hok.object.symm.trans ho)
  exact ⟨r, c, k, q, hr, ho, hhandler, howned, hok.registered, hc, hk,
    .inr ⟨r, c, _, hr, hc.1, rfl⟩⟩

lemma Inv.ne_zero (h : Inv fd s) (hl : s.alive id = some l) : id ≠ 0 := by
  rintro rfl
  obtain ⟨-, c, k, o, -, ho, hhandler, -⟩ := h.connection 0 l hl
  obtain ⟨-, q, -, hq, hacceptor, -⟩ := h.listens
  obtain rfl : o = q := Option.some.inj (ho.symm.trans hq)
  rw [hhandler] at hacceptor
  cases hacceptor

/-- A connection is accepted and registered, or the registration fails and the new handler is
destroyed at once. -/
lemma Inv.accepted (h : Inv fd s) (hrunning : s.stopped = none) {l : Life} (hl : l.Lived)
    (hphase : l.phase = .alive ∨ l.phase = .gone) {c k : Handle} (env₁ env₂ : RegisterEnv)
    (hfresh : l.phase = .alive → s.dispatcher.Fresh (.rpma c k)) {left : Option UInt64}
    {fds : Option (Handle × Handle)} (hfds : fds = if l.phase = .alive then some (c, k) else none)
    (ht : Host.accepted s.dispatcher.nextId l left
      { s with dispatcher := (s.dispatcher.accept fds env₁ env₂).2 } = some t) : Inv fd t := by
  rcases hphase with halive | hgone
  · rw [if_pos halive] at hfds
    subst hfds
    obtain ⟨r, o₀, hr, ho₀, -, -⟩ := h.listens
    have hne : s.dispatcher.nextId ≠ 0 := (h.dispatcher.lt 0 o₀ ho₀).ne'
    obtain ⟨ret, r', hr', hreg, hnone, hobjects⟩ :=
      h.dispatcher.accept_eq hr (hfresh halive) env₁ env₂
    have hd := h.dispatcher.accept (some (c, k)) env₁ env₂ (by
      rintro _ _ ⟨⟩
      exact hfresh halive)
    obtain ⟨d, hdeq⟩ : ∃ d, d = (s.dispatcher.accept (some (c, k)) env₁ env₂).2 := ⟨_, rfl⟩
    rw [← hdeq] at hr' hobjects hd ht
    have hother : ∀ id', id' ≠ s.dispatcher.nextId → d.objects id' = s.dispatcher.objects id' :=
      fun id' hid' => by rw [hobjects, Function.update_of_ne hid']
    have hself : d.objects s.dispatcher.nextId =
        some ⟨.rpma c k, false, true, false, false, false⟩ := by
      rw [hobjects, Function.update_self]
    simp only [Host.accepted, if_pos halive] at ht
    rcases hreg with ⟨-, hin, hsame⟩ | ⟨-, hin, hentries, -, hsame⟩
    · -- no entry: nothing refers to the new handler
      have hno : ∀ fd' ed, r'.entry fd' = some ed → ed.handler ≠ s.dispatcher.nextId := by
        intro fd' ed hed
        obtain ⟨q, hok⟩ := h.dispatcher.entry r fd' ed hr ((hsame fd').entry ▸ hed)
        exact (h.dispatcher.lt _ q hok.object).ne
      have hrefers : d.refers s.dispatcher.nextId = false := by
        rw [Bool.eq_false_iff]
        intro hrefers
        obtain ⟨fd', ed, hed, hid⟩ := (hd.refers_iff hr' hself rfl).1 hrefers
        exact hno fd' ed hed hid
      rw [reap_of_not_refers (l := l) (Function.update_self _ _ _) hrefers] at ht
      obtain rfl := Option.some.inj ht
      refine h.change hrunning hne hd hr hr' hother (fun fd' ed _ => by rw [(hsame fd').entry]) ?_
        (.inr ⟨Function.update_self _ _ _, hno⟩) ?_
      · intro id' hid'
        simp only [Function.update_of_ne hid']
      · intro q hq
        rcases List.mem_append.1 hq with hq | hq
        · exact h.past q hq
        · obtain rfl := List.mem_singleton.1 hq
          exact ⟨hl.destruct halive, rfl⟩
    · have hc : r'.Registered s.dispatcher.nextId .connection c :=
        registered_of_entry hin
          (hentries .connection (show EventType.connection ≠ .accept by decide)).2
      have hk : r'.Registered s.dispatcher.nextId .completion k :=
        registered_of_entry hin
          (hentries .completion (show EventType.completion ≠ .accept by decide)).2
      have hrefers : d.refers s.dispatcher.nextId = true :=
        (hd.refers_iff hr' hself rfl).2 ⟨c, _, hc.1, rfl⟩
      rw [reap_of_refers (l := l) (Function.update_self _ _ _) hrefers] at ht
      obtain rfl := Option.some.inj ht
      refine h.change hrunning hne hd hr hr' hother ?_ ?_ (.inl ⟨l, Function.update_self _ _ _, hl,
        halive, r', c, k, _, hr', hself, rfl, rfl, hc, hk⟩) h.past
      · intro fd' ed hed
        by_cases huses : (EventHandler.rpma c k).Uses fd'
        · -- the entries of the new handler are new
          rw [hnone fd' huses]
          obtain ⟨et, het, rfl⟩ := huses
          rw [(hentries et het).2]
          refine iff_of_false (fun heq => ?_) nofun
          exact hed (Option.some.inj heq ▸ rfl)
        · rw [(hsame fd' huses).entry]
      · intro id' hid'
        simp only [Function.update_of_ne hid']
  · have hnot : l.phase ≠ .alive := by rw [hgone]; decide
    rw [if_neg hnot] at hfds
    subst hfds
    simp only [Host.accepted, if_neg hnot] at ht
    obtain rfl := Option.some.inj ht
    refine ⟨h.dispatcher, h.listens, h.connection, h.entry, h.lived, fun q hq => ?_⟩
    rcases List.mem_append.1 hq with hq | hq
    · exact h.past q hq
    · obtain rfl := List.mem_singleton.1 hq
      exact ⟨hl, hgone⟩

/-- A connection event: the handler stays, or it removes itself and is destroyed. -/
lemma Inv.connected (h : Inv fd s) (hrunning : s.stopped = none) {next : Rpma ConnEvent}
    {o : Object} (ho : s.dispatcher.objects id = some o) (hl : s.alive id = some l)
    {left : Option UInt64}
    (ht : Host.connected next id l left
      { s with dispatcher := (s.dispatcher.handleConnectionEvent next id o).2 } = some t) :
    Inv fd t := by
  obtain ⟨r, c, k, q, hr, hq, hhandler, howned, hreg, hc, hk, hlive⟩ := h.connection_object hl
  obtain rfl : q = o := Option.some.inj (hq.symm.trans ho)
  have hboth : ∀ et, q.handler.Handles et ↔ et ≠ .accept := by
    rw [hhandler]
    exact fun _ => Iff.rfl
  have hd := h.dispatcher.handleConnectionEvent next hr hlive ho hreg hboth
  obtain ⟨hother, ⟨q', hq', hhandler', howned'⟩, hcases⟩ :=
    h.dispatcher.connectionEvent_cases next hr hlive ho hreg hboth
  obtain ⟨d, hdeq⟩ : ∃ d, d = (s.dispatcher.handleConnectionEvent next id q).2 := ⟨_, rfl⟩
  rw [← hdeq] at hd hother hq' hcases ht
  obtain ⟨hlived, hphase⟩ := h.lived id l hl
  have halive := hphase hrunning
  obtain ⟨l', hl'⟩ : ∃ l', l' = if Disconnects next then l.disconnect else l := ⟨_, rfl⟩
  have hl'lived : l'.Lived ∧ l'.phase = .alive := by
    rw [hl']
    split
    · exact ⟨hlived.disconnect halive, rfl⟩
    · exact ⟨hlived, halive⟩
  simp only [Host.connected, ← hl'] at ht
  rcases hcases with ⟨hr', -⟩ | ⟨ev, r', -, -, hr', hgone, hsame⟩
  · rw [reap_of_refers (l := l') (Function.update_self _ _ _)
      ((hd.refers_iff hr' hq' (howned'.trans howned)).2 ⟨c, _, hc.1, rfl⟩)] at ht
    obtain rfl := Option.some.inj ht
    refine h.change hrunning (h.ne_zero hl) hd hr hr' hother (fun _ _ _ => Iff.rfl) ?_ (.inl ⟨l',
      Function.update_self _ _ _, hl'lived.1, hl'lived.2, r, c, k, q', hr', hq',
      hhandler'.trans hhandler, howned'.trans howned, hc, hk⟩) h.past
    intro id' hid'
    simp only [Function.update_of_ne hid']
  · have hno : d.refers id = false := by
      rw [Bool.eq_false_iff]
      intro hrefers
      obtain ⟨fd', ed, hed, hid⟩ := (hd.refers_iff hr' hq' (howned'.trans howned)).1 hrefers
      exact hgone fd' ed hed hid
    rw [reap_of_not_refers (l := l') (Function.update_self _ _ _) hno] at ht
    obtain rfl := Option.some.inj ht
    refine h.change hrunning (h.ne_zero hl) hd hr hr' hother hsame ?_
      (.inr ⟨Function.update_self _ _ _, hgone⟩) ?_
    · intro id' hid'
      simp only [Function.update_of_ne hid']
    · intro q hq
      rcases List.mem_append.1 hq with hq | hq
      · exact h.past q hq
      · obtain rfl := List.mem_singleton.1 hq
        exact ⟨hl'lived.1.destruct hl'lived.2, rfl⟩

/-- A completion: the handler serves it, or the server stops. -/
lemma Inv.completed (h : Inv fd s) (hrunning : s.stopped = none) (hl : s.alive id = some l)
    {got : Rpma Completion} {content : MsgBuf} {env : ServeEnv} {left : Option UInt64}
    (ht : Host.completed got content env id l left s = some t) : Inv fd t := by
  obtain ⟨hlived, hphase⟩ := h.lived id l hl
  simp only [Host.completed, Option.ite_none_right_eq_some] at ht
  obtain ⟨hawaits, ht⟩ := ht
  obtain ⟨files, -, rfl⟩ := Option.map_eq_some_iff.1 ht
  refine h.setLife hrunning hl (hlived.completion (hphase hrunning) hawaits content env) rfl rfl
    rfl ?_
  intro hgoes
  cases hresult : (Watched.completion env got (l.arrived content)).result with
  | ok ret => exact Life.phase_completion_ok hresult
  | error e => simp [hresult, stopOf] at hgoes

lemma put_dispatcher (s : Host) (id : HandlerId) (m : MemoryManager) (off : ℕ) (byte : UInt8) :
    (s.put id m off byte).dispatcher = s.dispatcher ∧ (s.put id m off byte).alive = s.alive ∧
      (s.put id m off byte).past = s.past ∧ (s.put id m off byte).stopped = s.stopped := by
  rw [put]
  split
  · exact ⟨rfl, rfl, rfl, rfl⟩
  · split <;> exact ⟨rfl, rfl, rfl, rfl⟩

lemma Inv.step (h : Inv fd s) {a : HostAct} (hallowed : s.Allowed a)
    (hs : machine.step s a = some t) : Inv fd t := by
  cases hstopped : s.stopped with
  | some e => simp [machine, hstopped] at hs
  | none =>
      simp only [machine, hstopped] at hs
      cases a with
      | event fd' env left =>
          obtain ⟨u, hu, rfl⟩ := h.handleEvents_cases hallowed hs
          have hinv : Inv fd u := by
            cases hu with
            | accepted hl hfds ht =>
                refine h.accepted hstopped (hl ▸ Life.lived_born _ _ _ _)
                  (hl ▸ Life.phase_born _ _ _ _) _ _ (fun halive => ?_) hfds ht
                subst hl
                simp only [Host.Allowed, HostEnv.toEventEnv, if_pos halive] at hallowed
                exact hallowed
            | connected _ ho hl ht => exact h.connected hstopped ho hl ht
            | waited _ hl =>
                obtain ⟨hlived, hphase⟩ := h.lived _ _ hl
                exact h.setLife hstopped hl (hlived.waitFailed (hphase hstopped) _) rfl rfl rfl
                  fun _ => rfl
            | completed _ hl ht => exact h.completed hstopped hl ht
          exact ⟨hinv.dispatcher, hinv.listens, hinv.connection, hinv.entry, hinv.lived, hinv.past⟩
      | store id off byte =>
          obtain ⟨l, -, hs⟩ := Option.bind_eq_some_iff.1 hs
          simp only [Option.ite_none_right_eq_some] at hs
          obtain ⟨-, hs⟩ := hs
          obtain rfl := Option.some.inj hs
          obtain ⟨h₁, h₂, h₃, h₄⟩ := put_dispatcher s id l.watched.handler.dataManager off byte
          refine ⟨h₁ ▸ h.dispatcher, ?_, ?_, ?_, ?_, h₃ ▸ h.past⟩
          · rw [Listens, h₁]
            exact h.listens
          · intro id' q hq
            rw [IsConnection, h₁]
            exact h.connection id' q (h₂ ▸ hq)
          · rw [h₁, h₂]
            exact h.entry
          · rw [h₂, h₄]
            exact h.lived

/-- The acceptor is registered with a new reactor. -/
lemma registerHandler_acceptor (hfd : fd ≠ -1) :
    ∃ r, Reactor.create.registerHandler .ok 0 (.acceptor fd) .accept = (0, r) ∧
      Reactor.create.Added r fd ⟨.accept, 0⟩ := by
  have hnone : Reactor.create.eventTable ((EventHandler.acceptor fd).getHandle .accept) = none :=
    rfl
  obtain ⟨ret, r, heq, ⟨hret, -⟩ | ⟨rfl, -, hadded⟩⟩ :=
    Reactor.registerHandler_unused Reactor.create_inStep .ok 0 (.acceptor fd) hnone
  · -- none of the calls fails
    refine absurd ?_ hret
    have hzero : (Reactor.create.registerHandler .ok 0 (.acceptor fd) .accept).1 = 0 := by
      simp [Reactor.registerHandler, EventHandler.getHandle, hfd, Reactor.fdSetNonblock,
        RegisterEnv.ok, Reactor.epollCtlAdd, Reactor.setEntry, Reactor.create]
    rw [heq] at hzero
    exact hzero
  · exact ⟨r, heq, hadded⟩

lemma start_inv (hfd : fd ≠ -1) (files : FileSystem) (nextFile : ℕ) :
    Inv fd (start fd files nextFile) := by
  have hfresh : Dispatcher.create.Fresh (.acceptor fd) := fun _ _ _ _ _ ho => by cases ho
  have ho : (Dispatcher.create.newHandler (.acceptor fd)).objects 0 =
      some (Object.create (.acceptor fd)) := rfl
  obtain ⟨r, heq, hadded⟩ := registerHandler_acceptor hfd
  have hr : (start fd files nextFile).dispatcher.reactor = some r := by
    show ((EventHandler.acceptor fd).registerSelf .ok .ok 0 (some Reactor.create)).2 = some r
    rw [EventHandler.registerSelf, heq]
  have hself : r.Registered 0 .accept fd := hadded.registered
  refine ⟨(Dispatcher.create_inv.newHandler hfresh).register .ok .ok ho rfl fun _ => rfl,
    ⟨r, { Object.create (.acceptor fd) with registered := true }, hr, rfl, rfl, hself⟩, ?_, ?_,
    ?_, ?_⟩
  · intro id l hl
    cases hl
  · intro r' fd' ed hr' hed
    obtain rfl : r = r' := Option.some.inj (hr.symm.trans hr')
    rw [hadded.entry] at hed
    by_cases hfd' : fd' = fd
    · rw [hfd', Function.update_self] at hed
      exact .inl (Option.some.inj hed ▸ rfl)
    · rw [Function.update_of_ne hfd'] at hed
      cases hed
  · intro id l hl
    cases hl
  · intro l hl
    cases hl

/-! ### Every handler is accounted for -/

/-- The handlers that are alive and those that are gone are `n` together. -/
def Accounts (n : ℕ) (s : Host) : Prop :=
  ∃ ids : Finset HandlerId, (∀ id, id ∈ ids ↔ s.alive id ≠ none) ∧ ids.card + s.past.length = n

lemma reap_cases {left : Option UInt64} (hl : s.alive id = some l)
    (ht : reap id left s = some t) :
    t = s ∨ t = { s with
      alive := Function.update s.alive id none
      past := s.past ++ [l.destruct]
      mapped := Function.update s.mapped id none } := by
  cases hrefers : s.dispatcher.refers id with
  | true =>
      rw [reap_of_refers hl hrefers] at ht
      exact .inl (Option.some.inj ht).symm
  | false =>
      rw [reap_of_not_refers hl hrefers] at ht
      exact .inr (Option.some.inj ht).symm

variable {n : ℕ}

lemma Accounts.setLife (h : Accounts n s) (hl : s.alive id = some l) {l' : Life}
    (halive : t.alive = Function.update s.alive id (some l')) (hpast : t.past = s.past) :
    Accounts n t := by
  obtain ⟨ids, hids, hcard⟩ := h
  refine ⟨ids, fun id' => ?_, by rw [hpast, hcard]⟩
  rw [hids, halive]
  by_cases hid : id' = id
  · simp [hid, hl]
  · rw [Function.update_of_ne hid]

lemma Accounts.add (h : Accounts n s) (hnone : s.alive id = none) {l : Life}
    (halive : t.alive = Function.update s.alive id (some l)) (hpast : t.past = s.past) :
    Accounts (n + 1) t := by
  obtain ⟨ids, hids, hcard⟩ := h
  have hnot : id ∉ ids := by
    rw [hids]
    exact fun hne => hne hnone
  refine ⟨insert id ids, fun id' => ?_, ?_⟩
  · rw [Finset.mem_insert, hids, halive]
    by_cases hid : id' = id
    · simp [hid]
    · simp [hid]
  · rw [Finset.card_insert_of_notMem hnot, hpast, Nat.add_right_comm, hcard]

lemma Accounts.remove (h : Accounts n s) (hl : s.alive id = some l) {l' : Life}
    (halive : t.alive = Function.update s.alive id none) (hpast : t.past = s.past ++ [l']) :
    Accounts n t := by
  obtain ⟨ids, hids, hcard⟩ := h
  have hmem : id ∈ ids := by
    rw [hids, hl]
    exact Option.some_ne_none l
  refine ⟨ids.erase id, fun id' => ?_, ?_⟩
  · rw [Finset.mem_erase, hids, halive]
    by_cases hid : id' = id
    · simp [hid]
    · simp [hid]
  · rw [hpast, List.length_append, List.length_singleton, ← Nat.add_assoc, Nat.add_right_comm,
      Finset.card_erase_add_one hmem, hcard]

/-- A handler whose constructor throws. -/
lemma Accounts.fail (h : Accounts n s) {l : Life} (halive : t.alive = s.alive)
    (hpast : t.past = s.past ++ [l]) : Accounts (n + 1) t := by
  obtain ⟨ids, hids, hcard⟩ := h
  refine ⟨ids, fun id' => by rw [hids, halive], ?_⟩
  rw [hpast, List.length_append, List.length_singleton, ← Nat.add_assoc, hcard]

lemma Accounts.reap (h : Accounts n s) (hl : s.alive id = some l) {left : Option UInt64}
    (ht : Host.reap id left s = some t) : Accounts n t := by
  rcases reap_cases hl ht with rfl | rfl
  · exact h
  · exact h.remove hl rfl rfl

lemma Accounts.happens (h : Accounts n s) (hinv : Inv fd s) {env : HostEnv}
    {fd' : Handle} {left : Option UInt64} (hh : s.Happens fd' left env t) :
    Accounts (n + if (HostAct.event fd' env left).accepts then 1 else 0) t := by
  cases hh with
  | @accepted _ _ _ _ _ _ _ _ l _ _ hl hfds ht =>
      have hnone : s.alive s.dispatcher.nextId = none := by
        rw [Option.eq_none_iff_forall_ne_some]
        intro l hl
        obtain ⟨-, -, -, o, -, ho, -⟩ := hinv.connection _ l hl
        exact lt_irrefl _ (hinv.dispatcher.lt _ o ho)
      rw [Host.accepted] at ht
      split at ht
      · refine Accounts.reap (l := l) ?_ (Function.update_self _ _ _) ht
        exact h.add hnone rfl rfl
      · obtain rfl := Option.some.inj ht
        exact h.fail rfl rfl
  | connected _ ho hl ht =>
      rw [Host.connected] at ht
      refine Accounts.reap ?_ (Function.update_self _ _ _) ht
      exact h.setLife hl rfl rfl
  | waited _ hl => exact h.setLife hl rfl rfl
  | completed _ hl ht =>
      simp only [Host.completed, Option.ite_none_right_eq_some] at ht
      obtain ⟨-, ht⟩ := ht
      obtain ⟨files, -, rfl⟩ := Option.map_eq_some_iff.1 ht
      exact h.setLife hl rfl rfl

lemma Accounts.step (h : Accounts n s) (hinv : Inv fd s) {a : HostAct} (hallowed : s.Allowed a)
    (hs : machine.step s a = some t) : Accounts (n + if a.accepts then 1 else 0) t := by
  cases hstopped : s.stopped with
  | some e => simp [machine, hstopped] at hs
  | none =>
      simp only [machine, hstopped] at hs
      cases a with
      | event fd' env left =>
          obtain ⟨u, hu, rfl⟩ := hinv.handleEvents_cases hallowed hs
          obtain ⟨ids, hids, hcard⟩ := h.happens hinv hu
          exact ⟨ids, hids, hcard⟩
      | store id off byte =>
          obtain ⟨l, -, hs⟩ := Option.bind_eq_some_iff.1 hs
          simp only [Option.ite_none_right_eq_some] at hs
          obtain ⟨-, hs⟩ := hs
          obtain rfl := Option.some.inj hs
          obtain ⟨-, h₂, h₃, -⟩ := put_dispatcher s id l.watched.handler.dataManager off byte
          obtain ⟨ids, hids, hcard⟩ := h
          exact ⟨ids, fun id' => by rw [hids, h₂], by rw [h₃]; exact hcard⟩

/-- In every state of a run: the invariant, and the account. -/
lemma reachable (hfd : fd ≠ -1) {files : FileSystem} {nextFile : ℕ} {as : List HostAct}
    (hrun : machine.Run (start fd files nextFile) as s)
    (hallowed : machine.Meets Allowed (start fd files nextFile) as) :
    Inv fd s ∧ s.Accounts (as.countP HostAct.accepts) := by
  have hstart : (start fd files nextFile).Accounts 0 := ⟨∅, fun _ => by simp [start], rfl⟩
  refine Machine.Meets.traceInvariant (fun as s =>
    Inv fd s ∧ s.Accounts (as.countP HostAct.accepts)) ⟨start_inv hfd files nextFile, hstart⟩ ?_
    hrun hallowed
  rintro as t a u ⟨hinv, hcount⟩ ha hs
  refine ⟨hinv.step ha hs, ?_⟩
  rw [List.countP_append, List.countP_singleton]
  exact hcount.step hinv ha hs

/-- **No connection is lost, none is used after its end.**  In every state of a server whose new
connections have fds of their own: the reactor has not followed a dangling pointer, and its tables
are in step; the acceptor is registered; a connection is alive exactly as long as an entry names
it, and then it is registered under both its fds; every life is a life of its own, and with a
handler that is gone all its operations are gone, each destroyed once; and the handlers alive and
gone are as many as there were accept events. -/
theorem connections_kept (hfd : fd ≠ -1) (files : FileSystem) (nextFile : ℕ) (as : List HostAct)
    (s : Host) (hrun : machine.Run (start fd files nextFile) as s)
    (hallowed : machine.Meets Allowed (start fd files nextFile) as) :
    s.dispatcher.stopped = none ∧ s.dispatcher.Dispatches ∧ s.Listens fd ∧
    (∀ id, s.alive id ≠ none ↔ id ≠ 0 ∧ ∃ r fd' ed, s.dispatcher.reactor = some r ∧
      r.entry fd' = some ed ∧ ed.handler = id) ∧
    (∀ id l, s.alive id = some l →
      s.IsConnection id ∧ l.Lived ∧ (s.stopped = none → l.phase = .alive)) ∧
    (∀ l ∈ s.past, l.Lived ∧ l.phase = .gone ∧
      ∀ op ∈ opLedger.acquired l.calls, (opLedger.released l.calls).count op = 1) ∧
    ∃ ids : Finset HandlerId, (∀ id, id ∈ ids ↔ s.alive id ≠ none) ∧
      ids.card + s.past.length = as.countP HostAct.accepts := by
  obtain ⟨h, haccounts⟩ := reachable hfd hrun hallowed
  refine ⟨h.dispatcher.running, h.dispatcher.dispatches, h.listens, fun id => ⟨?_, ?_⟩, ?_, ?_,
    haccounts⟩
  · intro hne
    obtain ⟨l, hl⟩ := Option.ne_none_iff_exists'.1 hne
    obtain ⟨r, c, -, -, hr, -, -, -, hc, -⟩ := h.connection id l hl
    exact ⟨h.ne_zero hl, r, c, _, hr, hc.1, rfl⟩
  · rintro ⟨hid, r, fd', ed, hr, hed, rfl⟩
    obtain ⟨l, hl⟩ := (h.entry r fd' ed hr hed).resolve_left hid
    exact Option.ne_none_iff_exists'.2 ⟨l, hl⟩
  · intro id l hl
    exact ⟨h.connection id l hl, h.lived id l hl⟩
  · intro l hl
    obtain ⟨hlived, hgone⟩ := h.past l hl
    exact ⟨hlived, hgone, fun op hop => (hlived.inv.closed hgone).released_once hop⟩

lemma machine_connecting {d : Dispatcher} {next : Rpma ConnEvent} {ed : EventHandle}
    (left : Option UInt64) (hrunning : s.stopped = none)
    (hd : s.dispatcher.handleEvents fd (.connecting next) = some d) (hdrunning : d.stopped = none)
    (htarget : s.dispatcher.target fd = some ed) (hl : s.alive ed.handler = some l)
    (hrefers : d.refers ed.handler = false) :
    machine.step s (.event fd (.connecting next) left) = some { s with
      dispatcher := d
      alive := Function.update (Function.update s.alive ed.handler
        (some (if Disconnects next then l.disconnect else l))) ed.handler none
      past := s.past ++ [(if Disconnects next then l.disconnect else l).destruct]
      nextFile := s.nextFile + 1
      mapped := Function.update s.mapped ed.handler none } := by
  simp only [machine, hrunning, handleEvents, HostEnv.toEventEnv, hd, Option.bind_some, hdrunning,
    htarget, effect, hl, connected]
  rw [reap_of_not_refers (Function.update_self _ _ _) hrefers]
  rfl

/-- A connection is accepted on fd 3, and no call fails. -/
def acceptFor (c k : Handle) : HostAct := .event 3 (.accepting .zero .zero 0 .ok c k .ok .ok) none

lemma acceptFor_allowed (files : FileSystem) (nextFile : ℕ) :
    machine.Meets Allowed (start 3 files nextFile) [acceptFor 5 6] := by
  refine Machine.meets_singleton ?_
  rintro fd _ ⟨et, het, rfl⟩ id o ho _ ⟨et', _, heq⟩
  have hid : id = 0 := by
    by_contra hne
    simp [start, Dispatcher.register, Dispatcher.setObject, Dispatcher.newHandler,
      Dispatcher.create, hne] at ho
  subst hid
  obtain rfl : { Object.create (.acceptor 3) with registered := true } = o := Option.some.inj ho
  cases et with
  | accept => exact het rfl
  | connection => exact absurd (show (3 : Handle) = 5 from heq) (by decide)
  | completion => exact absurd (show (3 : Handle) = 6 from heq) (by decide)

/-- A connection is accepted, and closed. -/
theorem connections_kept_closed :
    ∃ s, machine.Run (start 3 (fun _ => none) 0)
        [acceptFor 5 6, .event 5 (.connecting (.ok .closed)) none] s ∧
      s.Listens 3 ∧ (∀ id, s.alive id = none) ∧ s.past.length = 1 := by
  obtain ⟨s, hs, hrunning, hpast, d, hd, hdrunning, htarget, l, hl, hrefers⟩ : ∃ s,
      machine.step (start 3 (fun _ => none) 0) (acceptFor 5 6) = some s ∧ s.stopped = none ∧
      s.past = [] ∧ ∃ d, s.dispatcher.handleEvents 5 (.connecting (.ok .closed)) = some d ∧
      d.stopped = none ∧ s.dispatcher.target 5 = some ⟨.connection, 1⟩ ∧
      ∃ l, s.alive 1 = some l ∧ d.refers 1 = false :=
    ⟨_, rfl, rfl, rfl, _, rfl, rfl, rfl, _, rfl, rfl⟩
  have run₁ := (Machine.Run.nil (start 3 (fun _ => none) 0)).snoc hs
  have run₂ := run₁.snoc (machine_connecting none hrunning hd hdrunning htarget hl hrefers)
  have hallowed : s.Allowed (.event 5 (.connecting (.ok .closed)) none) := trivial
  have hmeets := (acceptFor_allowed (fun _ => none) 0).snoc run₁ hallowed
  obtain ⟨-, -, hlistens, -, -, -, ids, hids, hcard⟩ :=
    connections_kept (by decide) _ _ _ _ run₂ hmeets
  simp only [hpast, List.nil_append, List.length_singleton] at hcard
  refine ⟨_, run₂, hlistens, fun id => ?_, by simp [hpast]⟩
  by_contra hne
  have hpos := Finset.card_pos.2 ⟨id, (hids id).2 hne⟩
  have hone : ids.card + 1 = 1 := hcard
  omega

end Host

/-! ### What stops the server -/

/-- A request that cannot be decoded does nothing with memory. -/
lemma RPMAHandler.dealRequire_malformed (env : ServeEnv) {h : RPMAHandler} {e : Wire.DecodeError}
    (hreq : RwlReplicaRequest.decode h.recvBl.cbegin = .error e) :
    memoryCalls (dealRequire env h).calls = [] := by
  rw [(dealRequire_memory env h).1, getDescriptor]
  simp only [bind_apply, read_apply, Outcome.andThen_ok, List.nil_append]
  rw [decodeFrom_error hreq]
  rfl

namespace Life

open ConnectionHandler

/-- A request is delivered: the operation with which `deal_require` is to be called has completed
with success. -/
def Delivers (l : Life) : Rpma Completion → Prop
  | .ok ⟨some op, _, true⟩ => l.watched.handler.ops.lookup op = some (some .dealRequire)
  | _ => False

variable {l : Life}

lemma Inv.lookup_of_awaited (h : l.Inv) (halive : l.phase = .alive) {op : OpId}
    (hop : op ∈ l.outstanding) : ∃ callback, l.watched.handler.ops.lookup op = some callback := by
  have hne : l.phase ≠ .gone := by rw [halive]; decide
  have hmem := (((h.books hne).table op).1 (h.mem_callbackTable hne hop)).1
  rw [← Option.isSome_iff_exists, List.lookup_isSome_iff]
  obtain ⟨p, hp, hfst⟩ := List.mem_map.1 hmem
  exact ⟨p, hp, by simp [hfst]⟩

/-- The completion of an operation without a callback is handled. -/
lemma completion_result_none {op : OpId} {oc : RpmaOpcode}
    (hop : l.watched.handler.ops.lookup op = some none) (content : MsgBuf) (env : ServeEnv) :
    (Watched.completion env (.ok ⟨some op, oc, true⟩) (l.arrived content)).result = .ok 0 := by
  have hop' : (eraseOp op (l.arrived content).handler.toConnectionHandler).state.ops.lookup op =
      some none := hop
  show ((do
    retire Watched.conn (Watched.callback env (some op)) op
    return 0 : Prog Watched ℤ) (l.arrived content)).result = _
  rw [bind_apply, andThen_pure]
  have herase : (zoom Watched.conn (eraseOp op) (l.arrived content)).result = .ok () := rfl
  rw [retire, bind_apply, Outcome.andThen_of_ok herase]
  simp only [ensuring_apply, doCallback, bind_apply, read_apply, Outcome.andThen_ok]
  simp only [zoom_apply, Watched.conn] at hop' ⊢
  rw [hop']
  rfl

/-- **When a completion is handled to its end**: unless it delivers a request that cannot be
served. -/
lemma completion_returns_iff (h : l.Inv) (halive : l.phase = .alive) {got : Rpma Completion}
    (hawaits : l.Awaits got) (content : MsgBuf) (env : ServeEnv) :
    (∃ ret, (Watched.completion env got (l.arrived content)).result = .ok ret) ↔
      (l.Delivers got →
        RPMAHandler.Serviceable env content l.watched.handler.dataManager) := by
  rcases completion_cases env got with ⟨e, rfl, heq⟩ | ⟨cmpl, rfl, hcmpl, heq⟩ | ⟨op, oc, rfl, heq⟩
  · refine iff_of_true ?_ fun hdelivers => hdelivers.elim
    rw [heq, completionFailed]
    split
    · exact ⟨0, rfl⟩
    · exact ⟨e.code, rfl⟩
  · refine iff_of_true ⟨0, by rw [heq]; rfl⟩ fun hdelivers => ?_
    rcases cmpl with ⟨_ | op, oc, _ | _⟩
    · exact hdelivers.elim
    · exact hdelivers.elim
    · exact hdelivers.elim
    · simp at hcmpl
  · obtain ⟨callback, hop⟩ := h.lookup_of_awaited halive hawaits
    rcases callback with _ | ⟨⟨⟩⟩
    · refine iff_of_true ⟨0, completion_result_none hop content env⟩ fun hdelivers => ?_
      rw [Delivers, hop] at hdelivers
      cases hdelivers
    · have hserved := (RPMAHandler.served env (l.atCallback op content)).ok_iff
      have hdelivers : l.Delivers (.ok ⟨some op, oc, true⟩) := hop
      rw [completion_result hop]
      refine Iff.trans ⟨?_, ?_⟩ (hserved.trans ⟨fun hs _ => hs, fun hs => hs hdelivers⟩)
      · rintro ⟨ret, hret⟩
        cases hdeal : (RPMAHandler.dealRequire env (l.atCallback op content)).result with
        | ok u => rfl
        | error e => simp [hdeal, Except.map] at hret
      · intro hdeal
        exact ⟨0, by rw [hdeal]; rfl⟩

/-- A request that is delivered: the calls are those of `deal_require`, and the operation is
destroyed. -/
lemma completion_delivered {op : OpId} {oc : RpmaOpcode}
    (hop : l.watched.handler.ops.lookup op = some (some .dealRequire)) (content : MsgBuf)
    (env : ServeEnv) :
    log (Watched.completion env (.ok ⟨some op, oc, true⟩) (l.arrived content)) =
        log (RPMAHandler.dealRequire env (l.atCallback op content)) ++ [.opDelete op] ∧
      (Watched.completion env (.ok ⟨some op, oc, true⟩)
        (l.arrived content)).state.handler.dataManager =
          (RPMAHandler.dealRequire env (l.atCallback op content)).state.dataManager ∧
      (Watched.completion env (.ok ⟨some op, oc, true⟩)
        (l.arrived content)).state.handler.dataMr =
          (RPMAHandler.dealRequire env (l.atCallback op content)).state.dataMr := by
  have hop' : (eraseOp op (l.arrived content).handler.toConnectionHandler).state.ops.lookup op =
      some (some .dealRequire) := hop
  have heq : Watched.completion env (.ok ⟨some op, oc, true⟩) = (do
    retire Watched.conn (Watched.callback env (some op)) op
    return 0 : Prog Watched ℤ) := rfl
  have herase : (zoom Watched.conn (eraseOp op) (l.arrived content)).result = .ok () := rfl
  rw [heq, bind_apply, andThen_pure, retire, bind_apply, Outcome.andThen_of_ok herase]
  simp only [ensuring_apply, doCallback, bind_apply, read_apply, Outcome.andThen_ok]
  simp only [zoom_apply, Watched.conn] at hop' ⊢
  rw [hop']
  refine ⟨?_, rfl, rfl⟩
  simp only [log, List.map_append, List.map_map, Watched.callback, bind_apply, zoom_apply,
    update_apply, Outcome.andThen_ok]
  rfl

/-- Any other completion makes no calls on memory. -/
lemma completion_undelivered (h : l.Inv) (halive : l.phase = .alive) {got : Rpma Completion}
    (hawaits : l.Awaits got) (hnot : ¬l.Delivers got) (content : MsgBuf) (env : ServeEnv) :
    memoryCalls (Watched.completion env got (l.arrived content)).calls = [] ∧
      (Watched.completion env got (l.arrived content)).state.handler.dataManager =
        l.watched.handler.dataManager := by
  rcases completion_cases env got with ⟨e, rfl, heq⟩ | ⟨cmpl, rfl, hcmpl, heq⟩ | ⟨op, oc, rfl, heq⟩
  · rw [heq, completionFailed]
    split <;> exact ⟨rfl, rfl⟩
  · rw [heq]
    exact ⟨rfl, rfl⟩
  · obtain ⟨_ | ⟨⟨⟩⟩, hop⟩ := h.lookup_of_awaited halive hawaits
    · have hop' : (eraseOp op (l.arrived content).handler.toConnectionHandler).state.ops.lookup op =
          some none := hop
      have herase : (zoom Watched.conn (eraseOp op) (l.arrived content)).result = .ok () := rfl
      rw [heq, bind_apply, andThen_pure, retire, bind_apply, Outcome.andThen_of_ok herase]
      simp only [ensuring_apply, doCallback, bind_apply, read_apply, Outcome.andThen_ok]
      simp only [zoom_apply, Watched.conn] at hop' ⊢
      rw [hop']
      exact ⟨rfl, rfl⟩
    · exact absurd hop hnot

end Life

namespace Host

variable {fd : Handle} {s t : Host}

/-- If the event delivers a request, then the request can be served. -/
def Serves (s : Host) : HostAct → Prop
  | .event fd (.completing got content env) _ =>
    ∀ ed l, s.dispatcher.target fd = some ed → s.alive ed.handler = some l → l.Delivers got →
      RPMAHandler.Serviceable env content l.watched.handler.dataManager
  | _ => True

lemma reap_stopped {id : HandlerId} {l : Life} {left : Option UInt64} (hl : s.alive id = some l)
    (ht : reap id left s = some t) : t.stopped = s.stopped := by
  rcases reap_cases hl ht with rfl | rfl <;> rfl

/-- A step stops the server exactly if it delivers a request that cannot be served. -/
lemma Inv.stopped_iff (h : Inv fd s) {a : HostAct} (hallowed : s.Allowed a)
    (hs : machine.step s a = some t) : t.stopped = none ↔ s.Serves a := by
  cases hstopped : s.stopped with
  | some e => simp [machine, hstopped] at hs
  | none =>
      simp only [machine, hstopped] at hs
      cases a with
      | event fd' env left =>
          obtain ⟨u, hu, rfl⟩ := h.handleEvents_cases hallowed hs
          cases hu with
          | @accepted _ _ _ _ _ _ _ _ l _ _ hl hfds ht =>
              refine iff_of_true ?_ trivial
              rw [Host.accepted] at ht
              split at ht
              · exact (reap_stopped (l := l) (Function.update_self _ _ _) ht).trans hstopped
              · obtain rfl := Option.some.inj ht
                exact hstopped
          | connected _ ho hl ht =>
              refine iff_of_true ?_ trivial
              rw [Host.connected] at ht
              exact (reap_stopped (Function.update_self _ _ _) ht).trans hstopped
          | waited _ hl => exact iff_of_true hstopped trivial
          | @completed got content env ed l _ htarget hl ht =>
              obtain ⟨hlived, hphase⟩ := h.lived _ _ hl
              simp only [Host.completed, Option.ite_none_right_eq_some] at ht
              obtain ⟨hawaits, ht⟩ := ht
              obtain ⟨files, -, rfl⟩ := Option.map_eq_some_iff.1 ht
              have hreturns := Life.completion_returns_iff hlived.inv (hphase hstopped) hawaits
                content env
              have hserves : s.Serves (.event fd' (.completing got content env) left) ↔
                  (l.Delivers got →
                    RPMAHandler.Serviceable env content l.watched.handler.dataManager) := by
                refine ⟨fun hserves => hserves ed l htarget hl,
                  fun hserves ed' l' htarget' hl' => ?_⟩
                obtain rfl : ed = ed' := Option.some.inj (htarget.symm.trans htarget')
                obtain rfl : l = l' := Option.some.inj (hl.symm.trans hl')
                exact hserves
              rw [hserves, ← hreturns]
              cases (Watched.completion env got (l.arrived content)).result with
              | ok ret => exact iff_of_true rfl ⟨ret, rfl⟩
              | error e => exact iff_of_false nofun nofun
      | store id off byte =>
          obtain ⟨l, -, hs⟩ := Option.bind_eq_some_iff.1 hs
          simp only [Option.ite_none_right_eq_some] at hs
          obtain ⟨-, hs⟩ := hs
          obtain rfl := Option.some.inj hs
          exact iff_of_true ((put_dispatcher s id _ off byte).2.2.2.trans hstopped) trivial

/-- **What stops the server.**  A server whose new connections have fds of their own is stopped by
requests only: it goes on as long as every request that is delivered, on whatever connection, can
be served, and it is gone for all of them with the first that cannot. -/
theorem server_stops_iff (hfd : fd ≠ -1) (files : FileSystem) (nextFile : ℕ) (as : List HostAct)
    (s : Host) (hrun : machine.Run (start fd files nextFile) as s)
    (hallowed : machine.Meets Allowed (start fd files nextFile) as) :
    s.stopped = none ↔ machine.Meets Serves (start fd files nextFile) as := by
  induction hrun with
  | nil => exact iff_of_true rfl fun bs a t hbs => absurd hbs.length_le (by simp)
  | @snoc t u as a hrun hs ih =>
      have hbefore := hallowed.initial (List.prefix_append _ _)
      have hstep := (reachable hfd hrun hbefore).1.stopped_iff
        (hallowed as a t (List.prefix_refl _) hrun) hs
      have hrunning : t.stopped = none := by
        cases hstopped : t.stopped with
        | none => rfl
        | some e => simp [machine, hstopped] at hs
      have hmeets := (ih hbefore).1 hrunning
      rw [hstep]
      exact ⟨fun ha => hmeets.snoc hrun ha, fun h => h as a t (List.prefix_refl _) hrun⟩

lemma machine_completing {d : Dispatcher} {got : Rpma Completion} {ed : EventHandle} {l : Life}
    {content : MsgBuf} {env : ServeEnv} {left : Option UInt64} {files : FileSystem}
    (hrunning : s.stopped = none) (hd : s.dispatcher.handleEvents fd .completing = some d)
    (hdrunning : d.stopped = none) (htarget : s.dispatcher.target fd = some ed)
    (hl : s.alive ed.handler = some l) (hawaits : l.Awaits got)
    (hfiles : s.files.calls (s.creation left)
      (Exec.log (Watched.completion env got (l.arrived content))) = some files) :
    machine.step s (.event fd (.completing got content env) left) = some { s with
      dispatcher := d
      alive := Function.update s.alive ed.handler (some (l.completion got content env))
      files := files
      nextFile := s.nextFile + 1
      mapped := Function.update s.mapped ed.handler (mappedAfter (s.mapped ed.handler)
        l.watched.handler.dataManager
        (Watched.completion env got (l.arrived content)).state.handler.dataManager files)
      stopped := stopOf (Watched.completion env got (l.arrived content)).result } := by
  rw [creation] at hfiles
  simp only [machine, hrunning, handleEvents, HostEnv.toEventEnv, hd, Option.bind_some, hdrunning,
    htarget, effect, hl, completed, if_pos hawaits, creation, hfiles, Option.map_some]

/-- The server as it has accepted its first connection. -/
lemma start_accepted (files : FileSystem) : ∃ s l,
    machine.step (start 3 files 0) (acceptFor 5 6) = some s ∧ s.stopped = none ∧ s.files = files ∧
      s.nextFile = 1 ∧ s.mapped 1 = none ∧
      s.dispatcher.handleEvents 6 .completing = some s.dispatcher ∧ s.dispatcher.stopped = none ∧
      s.dispatcher.target 6 = some ⟨.completion, 1⟩ ∧ s.alive 1 = some l ∧
      l.Awaits (.ok ⟨some 0, .recv, true⟩) ∧ l.Delivers (.ok ⟨some 0, .recv, true⟩) ∧
      l.watched.handler.dataManager.data = none := by
  refine ⟨_, _, rfl, rfl, rfl, rfl, rfl, rfl, rfl, rfl, rfl, ?_, rfl, rfl⟩
  exact Life.mem_outstanding.2 ⟨List.mem_cons_self, List.not_mem_nil⟩

/-- The first message of a client cannot be decoded. -/
theorem server_stops_malformed :
    ∃ s, machine.Run (start 3 (fun _ => none) 0)
        [acceptFor 5 6, .event 6 (.completing (.ok ⟨some 0, .recv, true⟩) Server.malformedContent
          (RPMAHandler.working [7])) none] s ∧ s.stopped ≠ none := by
  obtain ⟨s, l, hs, hrunning, hfiles, -, -, hd, hdrunning, htarget, hl, hawaits, hdelivers, -⟩ :=
    start_accepted fun _ => none
  have run₁ := (Machine.Run.nil (start 3 (fun _ => none) 0)).snoc hs
  obtain ⟨e, hmalformed⟩ := Server.decode_malformedContent
  have hmemory := RPMAHandler.dealRequire_malformed (RPMAHandler.working [7])
    (show RwlReplicaRequest.decode (l.atCallback 0 Server.malformedContent).recvBl.cbegin = .error e
      from hmalformed)
  have hcalls : s.files.calls (s.creation none) (Exec.log (Watched.completion
      (RPMAHandler.working [7]) (.ok ⟨some 0, .recv, true⟩)
      (l.arrived Server.malformedContent))) = some s.files := by
    rw [(Life.completion_delivered hdelivers _ _).1, FileSystem.calls_append, Exec.log,
      ← FileSystem.calls_memoryCalls, hmemory]
    rfl
  have run₂ := run₁.snoc (machine_completing hrunning hd hdrunning htarget hl hawaits hcalls)
  have hallowed : s.Allowed (.event 6 (.completing (.ok ⟨some 0, .recv, true⟩)
    Server.malformedContent (RPMAHandler.working [7])) none) := trivial
  refine ⟨_, run₂, fun hnone => ?_⟩
  have hmeets := (server_stops_iff (by decide) _ _ _ _ run₂
    ((acceptFor_allowed (fun _ => none) 0).snoc run₁ hallowed)).1 hnone
  obtain ⟨req, c, hreq, -⟩ := hmeets [acceptFor 5 6] _ s (List.prefix_refl _) run₁ _ l htarget hl
    hdelivers
  rw [hmalformed] at hreq
  cases hreq

end Host

end RpmaReplica
