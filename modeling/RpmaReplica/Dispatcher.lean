import RpmaReplica.Lib.Machine
import RpmaReplica.Reactor

/-!
# Dispatching events

The life of a reactor and of the event handlers around it: handlers are created, registered and
dropped, events arrive for fds in the interest list, and `handle_events` calls the handler that
the pointer stored with the fd leads to.  The acceptor's handler creates further handlers, and a
connection that ends removes its own handler from inside the call.

The pointer is followed blindly.  What makes this safe is that `event_table` and the interest
list stay in step (`Reactor.InStep`) and that each entry belongs to a handler which uses the fd
for just this type of event; both are kept by every step as long as handlers that are alive at
the same time do not share fds and none is registered twice.
-/

namespace RpmaReplica

/-! ### The handlers of a reactor -/

/-- `rpma_conn_event`. -/
inductive ConnEvent
  | established
  | closed
  | lost
  | undefined
  deriving DecidableEq, Repr

/-- The event ends the connection. -/
def ConnEvent.Ends (ev : ConnEvent) : Prop := ev ≠ .established

instance (ev : ConnEvent) : Decidable ev.Ends := inferInstanceAs (Decidable (_ ≠ _))

/-- An event handler object, and what has become of it. -/
structure Object where
  handler : EventHandler
  /-- The program holds a `shared_ptr` to it. -/
  owned : Bool
  /-- It has called `register_self` while there was a reactor. -/
  registered : Bool
  /-- It has called `remove_self`. -/
  removed : Bool
  connected : Bool
  disconnected : Bool
  deriving DecidableEq, Repr

/-- A new event handler. -/
def Object.create (eh : EventHandler) : Object := ⟨eh, true, false, false, false, false⟩

/-- The reactor, `none` when it has been destroyed, and the handlers.  A state in which the
program has stopped has no further steps. -/
structure Dispatcher where
  reactor : Option Reactor
  objects : HandlerId → Option Object
  nextId : HandlerId
  stopped : Option Stop

/-- What the calls made during one event return. -/
inductive EventEnv
  /-- An accept event: the fds of the new connection, or `none` if the constructor throws, and
  the outcomes of its two registrations. -/
  | accepting (fds : Option (Handle × Handle)) (env₁ env₂ : RegisterEnv)
  /-- A connection event: the result of `rpma_conn_next_event`. -/
  | connecting (next : Rpma ConnEvent)
  /-- A completion event, which is no business of the reactor. -/
  | completing

namespace Dispatcher

/-- A new reactor without handlers. -/
def create : Dispatcher := ⟨some Reactor.create, fun _ => none, 0, none⟩

def setObject (s : Dispatcher) (id : HandlerId) (o : Object) : Dispatcher :=
  { s with objects := Function.update s.objects id (some o) }

/-- Construct a handler; its number is `nextId`. -/
def newHandler (eh : EventHandler) (s : Dispatcher) : Dispatcher :=
  { s with
    objects := Function.update s.objects s.nextId (some (Object.create eh))
    nextId := s.nextId + 1 }

/-- The program lets go of a handler. -/
def dropHandler (id : HandlerId) (o : Object) (s : Dispatcher) : Dispatcher :=
  s.setObject id { o with owned := false }

/-- A handler calls `register_self`. -/
def register (env₁ env₂ : RegisterEnv) (id : HandlerId) (o : Object) (s : Dispatcher) :
    ℤ × Dispatcher :=
  let (ret, reactor) := o.handler.registerSelf env₁ env₂ id s.reactor
  (ret, { s.setObject id { o with registered := o.registered || s.reactor.isSome } with
    reactor := reactor })

/-- The body of `AcceptorHandler::handle`: make a handler for the new connection, register it,
and let go of it.  A constructor that throws is caught. -/
def accept (fds : Option (Handle × Handle)) (env₁ env₂ : RegisterEnv) (s : Dispatcher) :
    ℤ × Dispatcher :=
  match fds with
  | none => (-1, s)
  | some (connFd, compFd) =>
    let o := Object.create (.rpma connFd compFd)
    let s' := (register env₁ env₂ s.nextId o (s.newHandler o.handler)).2
    (0, dropHandler s.nextId { o with registered := s.reactor.isSome } s')

def handleConnectionEvent (next : Rpma ConnEvent) (id : HandlerId) (o : Object)
    (s : Dispatcher) : ℤ × Dispatcher :=
  match next with
  | .error .noEvent => (0, s)
  | .error e => (e.code, s.setObject id { o with disconnected := true })
  | .ok .established => (0, s.setObject id { o with connected := true })
  | .ok _ =>
    let (ret, reactor) := o.handler.removeSelf s.reactor
    (ret, { s.setObject id { o with connected := false, removed := true } with
      reactor := reactor })

/-- `AcceptorHandler::handle`. -/
def acceptorHandle (et : EventType) (env : EventEnv) (s : Dispatcher) : Option (ℤ × Dispatcher) :=
  match et, env with
  | .accept, .accepting fds env₁ env₂ => some (accept fds env₁ env₂ s)
  | .accept, _ => none
  | _, _ => some (0, { s with stopped := some .aborted })

/-- `ConnectionHandler::handle`. -/
def connectionHandle (id : HandlerId) (o : Object) (et : EventType) (env : EventEnv)
    (s : Dispatcher) : Option (ℤ × Dispatcher) :=
  match et, env with
  | .connection, .connecting next => some (handleConnectionEvent next id o s)
  | .completion, .completing => some (0, s)
  | .accept, _ => some (-1, s)
  | _, _ => none

/-- `handle` of a handler; undefined where the environment answers another event. -/
def handle (id : HandlerId) (o : Object) (et : EventType) (env : EventEnv) (s : Dispatcher) :
    Option (ℤ × Dispatcher) :=
  match o.handler with
  | .acceptor _ => acceptorHandle et env s
  | .rpma _ _ | .client _ _ => connectionHandle id o et env s

/-- One round of the loop of `handle_events`: `epoll_wait` reports an fd of the interest list,
and the pointer stored with it is followed.  Where it leads nowhere, anything may happen. -/
def handleEvents (fd : Handle) (env : EventEnv) (s : Dispatcher) : Option Dispatcher :=
  match s.reactor with
  | none => none
  | some r =>
    match r.epoll fd with
    | none => none
    | some p =>
      match r.nodes p with
      | none => some { s with stopped := some .undefined }
      | some ed =>
        match s.objects ed.handler with
        | none => some { s with stopped := some .undefined }
        | some o => (handle ed.handler o ed.type env s).map Prod.snd

inductive Action
  | create (eh : EventHandler)
  | drop (id : HandlerId)
  | registerSelf (id : HandlerId) (env₁ env₂ : RegisterEnv)
  | event (fd : Handle) (env : EventEnv)
  | dropReactor

/-- A step.  The program can use the handlers it holds. -/
def step (s : Dispatcher) (a : Action) : Option Dispatcher :=
  match s.stopped with
  | some _ => none
  | none =>
    match a with
    | .create eh => some (s.newHandler eh)
    | .drop id =>
      match s.objects id with
      | some o => if o.owned then some (s.dropHandler id o) else none
      | none => none
    | .registerSelf id env₁ env₂ =>
      match s.objects id with
      | some o => if o.owned then some (s.register env₁ env₂ id o).2 else none
      | none => none
    | .event fd env => s.handleEvents fd env
    | .dropReactor => some { s with reactor := none }

/-- The reactor and its handlers as a machine. -/
def machine : Machine Dispatcher Action := ⟨step⟩

/-! ### The conditions on a run -/

/-- The handler is alive: the program or an entry refers to it. -/
def Live (s : Dispatcher) (id : HandlerId) : Prop :=
  (∃ o, s.objects id = some o ∧ o.owned = true) ∨
    ∃ r fd ed, s.reactor = some r ∧ r.entry fd = some ed ∧ ed.handler = id

/-- The fds of the handler are used by no handler that is alive; `-1` is not an fd. -/
def Fresh (s : Dispatcher) (eh : EventHandler) : Prop :=
  ∀ fd, fd ≠ -1 → eh.Uses fd → ∀ id o, s.objects id = some o → s.Live id → ¬o.handler.Uses fd

/-- New handlers have fds of their own, and no handler registers twice. -/
def Allowed (s : Dispatcher) : Action → Prop
  | .create eh => s.Fresh eh
  | .event _ (.accepting (some (connFd, compFd)) _ _) => s.Fresh (.rpma connFd compFd)
  | .registerSelf id _ _ =>
    s.reactor.isSome → ∀ o, s.objects id = some o → o.registered = false
  | _ => True

/-! ### The invariant -/

/-- The fd is the handler's for this type of event, and for no other. -/
structure UsesFor (eh : EventHandler) (et : EventType) (fd : Handle) : Prop where
  handles : eh.Handles et
  getHandle : eh.getHandle et = fd
  only : ∀ et', eh.Handles et' → eh.getHandle et' = fd → et' = et

/-- What an entry says: it names a handler that is registered and not removed, and the type of
event for which that handler uses the fd. -/
structure EntryOk (s : Dispatcher) (fd : Handle) (ed : EventHandle) (o : Object) : Prop where
  object : s.objects ed.handler = some o
  registered : o.registered = true
  removed : o.removed = false
  ne : fd ≠ -1
  usesFor : UsesFor o.handler ed.type fd

/-- The invariant of the runs. -/
structure Inv (s : Dispatcher) : Prop where
  running : s.stopped = none
  inStep : ∀ r, s.reactor = some r → r.InStep
  entry : ∀ r fd ed, s.reactor = some r → r.entry fd = some ed → ∃ o, s.EntryOk fd ed o
  lt : ∀ id o, s.objects id = some o → id < s.nextId
  removed : ∀ id o, s.objects id = some o → o.removed = true → o.registered = true
  apart : ∀ fd id id' o o', fd ≠ -1 → s.objects id = some o → s.objects id' = some o' →
    s.Live id → s.Live id' → o.handler.Uses fd → o'.handler.Uses fd → id = id'

lemma create_inv : Inv create where
  running := rfl
  inStep := by
    rintro r ⟨⟩
    exact Reactor.create_inStep
  entry := by
    rintro r fd ed ⟨⟩ hed
    cases hed
  lt := by
    intro id o ho
    cases ho
  removed := by
    intro id o ho
    cases ho
  apart := by
    intro fd id id' o o' _ ho
    cases ho

variable {s : Dispatcher} {id : HandlerId} {o o' : Object}

lemma UsesFor.uses {eh : EventHandler} {et : EventType} {fd : Handle} (h : UsesFor eh et fd) :
    eh.Uses fd := ⟨et, h.handles, h.getHandle⟩

/-- The fds of a handler that is alive and not registered have no entries. -/
lemma Inv.unused (h : Inv s) {r : Reactor} (hr : s.reactor = some r) (ho : s.objects id = some o)
    (hlive : s.Live id) (hreg : o.registered = false) {fd : Handle} (hfd : o.handler.Uses fd) :
    r.eventTable fd = none := by
  by_contra hne
  obtain ⟨p, hp⟩ := Option.ne_none_iff_exists'.1 hne
  obtain ⟨ed, hed, _⟩ := (h.inStep r hr).toIsTable.entry_eq_some hp
  obtain ⟨o', hok⟩ := h.entry r fd ed hr hed
  have hid : ed.handler = id := h.apart fd ed.handler id o' o hok.ne hok.object ho
    (.inr ⟨r, fd, ed, hr, hed, rfl⟩) hlive hok.usesFor.uses hfd
  have hoo : o' = o := Option.some.inj (hok.object.symm.trans (hid ▸ ho))
  have hregistered := hok.registered
  rw [hoo, hreg] at hregistered
  cases hregistered

@[simp] lemma setObject_self : (s.setObject id o).objects id = some o := by
  simp [setObject]

lemma setObject_of_ne {id' : HandlerId} (hne : id' ≠ id) :
    (s.setObject id o).objects id' = s.objects id' := by
  simp [setObject, hne]

/-- An object of the new state, and the one it comes from. -/
lemma setObject_cases {id' : HandlerId} {q : Object} (ho : s.objects id = some o)
    (hq : (s.setObject id o').objects id' = some q) :
    ∃ q', s.objects id' = some q' ∧ ((id' = id ∧ q' = o ∧ q = o') ∨ (id' ≠ id ∧ q' = q)) := by
  by_cases hid : id' = id
  · subst hid
    rw [setObject_self] at hq
    exact ⟨o, ho, .inl ⟨rfl, rfl, (Option.some.inj hq).symm⟩⟩
  · rw [setObject_of_ne hid] at hq
    exact ⟨q, hq, .inr ⟨hid, rfl⟩⟩

/-- A handler changes what it knows of itself.  What its entries ask of it stays true. -/
lemma Inv.setObject (h : Inv s) (ho : s.objects id = some o) (hhandler : o'.handler = o.handler)
    (howned : o'.owned = true → o.owned = true)
    (hremoved : o'.removed = true → o'.registered = true)
    (hentry : ∀ r fd ed, s.reactor = some r → r.entry fd = some ed → ed.handler = id →
      o'.registered = true ∧ o'.removed = false) :
    Inv (s.setObject id o') := by
  have hhandlers : ∀ {id' q}, (s.setObject id o').objects id' = some q →
      ∃ q', s.objects id' = some q' ∧ q.handler = q'.handler ∧
        (q.owned = true → q'.owned = true) := by
    intro id' q hq
    obtain ⟨q', hq', ⟨rfl, rfl, rfl⟩ | ⟨_, rfl⟩⟩ := setObject_cases ho hq
    · exact ⟨q', hq', hhandler, howned⟩
    · exact ⟨q', hq', rfl, fun hown => hown⟩
  have hlive : ∀ {id'}, (s.setObject id o').Live id' → s.Live id' := by
    rintro id' (⟨q, hq, hown⟩ | hentry)
    · obtain ⟨q', hq', _, hown'⟩ := hhandlers hq
      exact .inl ⟨q', hq', hown' hown⟩
    · exact .inr hentry
  refine ⟨h.running, h.inStep, ?_, ?_, ?_, ?_⟩
  · intro r fd ed hr hed
    obtain ⟨q, hok⟩ := h.entry r fd ed hr hed
    by_cases hid : ed.handler = id
    · have hq : q = o := Option.some.inj (hok.object.symm.trans (hid ▸ ho))
      obtain ⟨hreg, hrem⟩ := hentry r fd ed hr hed hid
      refine ⟨o', by rw [hid, setObject_self], hreg, hrem, hok.ne, ?_⟩
      rw [hhandler, ← hq]
      exact hok.usesFor
    · exact ⟨q, by rw [setObject_of_ne hid, hok.object], hok.registered, hok.removed, hok.ne,
        hok.usesFor⟩
  · intro id' q hq
    obtain ⟨q', hq', _⟩ := hhandlers hq
    exact h.lt id' q' hq'
  · intro id' q hq hrem
    obtain ⟨q', hq', ⟨rfl, rfl, rfl⟩ | ⟨_, rfl⟩⟩ := setObject_cases ho hq
    · exact hremoved hrem
    · exact h.removed id' q' hq' hrem
  · intro fd id₁ id₂ q₁ q₂ hne hq₁ hq₂ hl₁ hl₂ hu₁ hu₂
    obtain ⟨q₁', hq₁', hh₁, _⟩ := hhandlers hq₁
    obtain ⟨q₂', hq₂', hh₂, _⟩ := hhandlers hq₂
    exact h.apart fd id₁ id₂ q₁' q₂' hne hq₁' hq₂' (hlive hl₁) (hlive hl₂) (hh₁ ▸ hu₁) (hh₂ ▸ hu₂)

/-- A handler may get registered, connected, disconnected or dropped. -/
lemma Inv.setFlags (h : Inv s) (ho : s.objects id = some o) (hhandler : o'.handler = o.handler)
    (howned : o'.owned = true → o.owned = true)
    (hreg : o.registered = true → o'.registered = true) (hrem : o'.removed = o.removed) :
    Inv (s.setObject id o') := by
  refine h.setObject ho hhandler howned (fun hr => hreg (h.removed id o ho (hrem ▸ hr))) ?_
  intro r fd ed hr hed hid
  obtain ⟨q, hok⟩ := h.entry r fd ed hr hed
  have hq : q = o := Option.some.inj (hok.object.symm.trans (hid ▸ ho))
  subst hq
  exact ⟨hreg hok.registered, hrem.trans hok.removed⟩

/-- A new handler with fds of its own. -/
lemma Inv.newHandler (h : Inv s) {eh : EventHandler} (hfresh : s.Fresh eh) :
    Inv (s.newHandler eh) := by
  have hold : ∀ {id'}, id' ≠ s.nextId → (s.newHandler eh).objects id' = s.objects id' := by
    intro id' hne
    simp [Dispatcher.newHandler, hne]
  have hnew : (s.newHandler eh).objects s.nextId = some (Object.create eh) := by
    simp [Dispatcher.newHandler]
  have hlive : ∀ {id'}, id' ≠ s.nextId → (s.newHandler eh).Live id' → s.Live id' := by
    rintro id' hne (⟨q, hq, hown⟩ | hentry)
    · exact .inl ⟨q, (hold hne).symm.trans hq, hown⟩
    · exact .inr hentry
  -- the new handler against an old one
  have hnewOld : ∀ {fd id' q q'}, fd ≠ -1 → id' ≠ s.nextId →
      (s.newHandler eh).objects s.nextId = some q → (s.newHandler eh).objects id' = some q' →
      (s.newHandler eh).Live id' → q.handler.Uses fd → ¬q'.handler.Uses fd := by
    intro fd id' q q' hfd hne hq hq' hl hu hu'
    have hqeq : q = Object.create eh := Option.some.inj (hq.symm.trans hnew)
    subst hqeq
    exact hfresh fd hfd hu id' q' ((hold hne).symm.trans hq') (hlive hne hl) hu'
  refine ⟨h.running, h.inStep, ?_, ?_, ?_, ?_⟩
  · intro r fd ed hr hed
    obtain ⟨q, hok⟩ := h.entry r fd ed hr hed
    have hne : ed.handler ≠ s.nextId := (h.lt _ q hok.object).ne
    exact ⟨q, by rw [hold hne, hok.object], hok.registered, hok.removed, hok.ne, hok.usesFor⟩
  · intro id' q hq
    by_cases hne : id' = s.nextId
    · exact hne ▸ Nat.lt_succ_self _
    · exact Nat.lt_succ_of_lt (h.lt id' q ((hold hne).symm.trans hq))
  · intro id' q hq hremoved
    by_cases hne : id' = s.nextId
    · obtain rfl : Object.create eh = q := Option.some.inj (hnew.symm.trans (hne ▸ hq))
      cases hremoved
    · exact h.removed id' q ((hold hne).symm.trans hq) hremoved
  · intro fd id₁ id₂ q₁ q₂ hfd hq₁ hq₂ hl₁ hl₂ hu₁ hu₂
    by_cases h₁ : id₁ = s.nextId
    · by_cases h₂ : id₂ = s.nextId
      · rw [h₁, h₂]
      · exact absurd hu₂ (hnewOld hfd h₂ (h₁ ▸ hq₁) hq₂ hl₂ hu₁)
    · by_cases h₂ : id₂ = s.nextId
      · exact absurd hu₁ (hnewOld hfd h₁ (h₂ ▸ hq₂) hq₁ hl₁ hu₂)
      · exact h.apart fd id₁ id₂ q₁ q₂ hfd ((hold h₁).symm.trans hq₁) ((hold h₂).symm.trans hq₂)
          (hlive h₁ hl₁) (hlive h₂ hl₂) hu₁ hu₂

/-- The reactor changes, and its entries are in order. -/
lemma Inv.setReactor (h : Inv s) {r : Reactor} (hin : r.InStep)
    (hentry : ∀ fd ed, r.entry fd = some ed → (∃ q, s.EntryOk fd ed q) ∧ s.Live ed.handler) :
    Inv { s with reactor := some r } := by
  have hlive : ∀ {id'}, Live { s with reactor := some r } id' → s.Live id' := by
    rintro id' (howned | ⟨r', fd, ed, hr', hed, rfl⟩)
    · exact .inl howned
    · obtain rfl : r = r' := Option.some.inj hr'
      exact (hentry fd ed hed).2
  refine ⟨h.running, ?_, ?_, h.lt, h.removed, ?_⟩
  · intro r' hr'
    obtain rfl : r = r' := Option.some.inj hr'
    exact hin
  · intro r' fd ed hr' hed
    obtain rfl : r = r' := Option.some.inj hr'
    obtain ⟨⟨q, hok⟩, _⟩ := hentry fd ed hed
    exact ⟨q, hok.object, hok.registered, hok.removed, hok.ne, hok.usesFor⟩
  · intro fd id₁ id₂ q₁ q₂ hfd hq₁ hq₂ hl₁ hl₂
    exact h.apart fd id₁ id₂ q₁ q₂ hfd hq₁ hq₂ (hlive hl₁) (hlive hl₂)

/-- The entries of a reactor that the state has are in order. -/
lemma Inv.entry_live (h : Inv s) {r : Reactor} (hr : s.reactor = some r) {fd : Handle}
    {ed : EventHandle} (hed : r.entry fd = some ed) :
    (∃ q, s.EntryOk fd ed q) ∧ s.Live ed.handler :=
  ⟨h.entry r fd ed hr hed, .inr ⟨r, fd, ed, hr, hed, rfl⟩⟩

/-- `register_self`, called for the first time. -/
lemma Inv.register (h : Inv s) (env₁ env₂ : RegisterEnv) (ho : s.objects id = some o)
    (howned : o.owned = true) (hreg : s.reactor.isSome → o.registered = false) :
    Inv (s.register env₁ env₂ id o).2 := by
  have hset : Inv (s.setObject id { o with registered := o.registered || s.reactor.isSome }) :=
    h.setFlags ho rfl (fun hown => hown) (fun hr => by simp [hr]) rfl
  cases hr : s.reactor with
  | none =>
      rw [hr] at hset
      have heq : (s.register env₁ env₂ id o).2 =
          s.setObject id
            { o with registered := o.registered || (none : Option Reactor).isSome } := by
        rw [Dispatcher.register, hr]
        cases hh : o.handler <;> simp [EventHandler.registerSelf, Dispatcher.setObject, hr]
      rw [heq]
      exact hset
  | some r =>
      have hreg' : o.registered = false := hreg (by rw [hr]; rfl)
      have hlive : s.Live id := .inl ⟨o, ho, howned⟩
      obtain ⟨ret, r', heq, hregistration⟩ := EventHandler.registerSelf_registration
        (h.inStep r hr) env₁ env₂ id o.handler fun fd hfd => h.unused hr ho hlive hreg' hfd
      have heq' : (s.register env₁ env₂ id o).2 =
          { s.setObject id { o with registered := o.registered || s.reactor.isSome } with
            reactor := some r' } := by
        rw [Dispatcher.register, hr, heq]
      rw [heq']
      -- an entry of the old reactor
      have hold : ∀ fd ed, r.SameAt r' fd → r'.entry fd = some ed → _ := fun fd ed hsame hed =>
        hset.entry_live (r := r) hr (hsame.entry.symm.trans hed)
      rcases hregistration with ⟨_, hin, hsame⟩ | ⟨_, hin, hentries, hdistinct, hsame⟩
      · exact hset.setReactor hin fun fd ed hed => hold fd ed (hsame fd) hed
      · refine hset.setReactor hin fun fd ed hed => ?_
        by_cases hfd : o.handler.Uses fd
        · obtain ⟨et, het, rfl⟩ := hfd
          obtain ⟨hne, hentry⟩ := hentries et het
          obtain rfl : (⟨et, id⟩ : EventHandle) = ed := Option.some.inj (hentry.symm.trans hed)
          refine ⟨⟨_, setObject_self, by simp [hr], ?_, hne, het, rfl, ?_⟩,
            .inl ⟨_, setObject_self, howned⟩⟩
          · cases hrem : o.removed with
            | false => rfl
            | true => rw [h.removed id o ho hrem] at hreg'; cases hreg'
          · intro et' het' heq
            exact hdistinct et' et het' het heq
        · exact hold fd ed (hsame fd hfd) hed

/-- `remove_self` of a connection that has an entry.  No entry names the handler any more, and
where there was none that named it, nothing has changed. -/
lemma Inv.remove (h : Inv s) {r : Reactor} (hr : s.reactor = some r)
    (hlive : s.Live id) (ho : s.objects id = some o) (hreg : o.registered = true)
    (hboth : ∀ et, o.handler.Handles et ↔ et ≠ .accept) :
    ∃ ret r', o.handler.removeConnection r = (ret, r') ∧
      Inv { s.setObject id { o with connected := false, removed := true } with
        reactor := some r' } ∧
      (∀ fd ed, r'.entry fd = some ed → ed.handler ≠ id) ∧
      ∀ fd, (∀ ed, r.entry fd = some ed → ed.handler ≠ id) → r.SameAt r' fd := by
  obtain ⟨ret, r', heq, hin, hgone, hsame⟩ :=
    EventHandler.removeConnection_inStep (h.inStep r hr) hboth
  have htable := (h.inStep r hr).toIsTable
  -- an entry that is left was there before, and names another handler
  have hleft : ∀ fd ed, r'.entry fd = some ed → r.entry fd = some ed ∧ ed.handler ≠ id := by
    intro fd ed hed
    have hnegOne : r.eventTable (-1) = none := by
      by_contra hne
      obtain ⟨p, hp⟩ := Option.ne_none_iff_exists'.1 hne
      obtain ⟨ed', hed', _⟩ := htable.entry_eq_some hp
      obtain ⟨q, hok⟩ := h.entry r (-1) ed' hr hed'
      exact hok.ne rfl
    by_cases hfd : o.handler.Uses fd ∧ fd ≠ -1
    · rw [hgone fd hfd.2 hfd.1] at hed
      cases hed
    · have hcase : ¬o.handler.Uses fd ∨ r.eventTable fd = none := by
        by_cases hneg : fd = -1
        · exact .inr (hneg ▸ hnegOne)
        · exact .inl fun hu => hfd ⟨hu, hneg⟩
      have hed' : r.entry fd = some ed := (hsame fd hcase).entry.symm.trans hed
      refine ⟨hed', fun hid => ?_⟩
      obtain ⟨q, hok⟩ := h.entry r fd ed hr hed'
      have hq : q = o := Option.some.inj (hok.object.symm.trans (hid ▸ ho))
      exact hfd ⟨hq ▸ hok.usesFor.uses, hok.ne⟩
  have hreactor : Inv { s with reactor := some r' } :=
    h.setReactor hin fun fd ed hed => h.entry_live hr (hleft fd ed hed).1
  refine ⟨ret, r', heq, ?_, fun fd ed hed => (hleft fd ed hed).2, ?_⟩
  · -- the handler has no entries left that could ask anything of it
    refine hreactor.setObject ho rfl (fun hown => hown) (fun _ => hreg) ?_
    intro r'' fd ed hr'' hed hid
    obtain rfl : r' = r'' := Option.some.inj hr''
    exact absurd hid (hleft fd ed hed).2
  · intro fd hother
    refine hsame fd ?_
    by_cases hu : o.handler.Uses fd
    · refine .inr ?_
      by_contra hne
      obtain ⟨p, hp⟩ := Option.ne_none_iff_exists'.1 hne
      obtain ⟨ed, hed, _⟩ := htable.entry_eq_some hp
      obtain ⟨q, hok⟩ := h.entry r fd ed hr hed
      exact hother ed hed (h.apart fd ed.handler id q o hok.ne hok.object ho
        (h.entry_live hr hed).2 hlive hok.usesFor.uses hu)
    · exact .inl hu

/-- **What `handle_events` does.**  The pointer leads to the current entry of the fd, the entry
to a handler that is there, and the handler is called with the type of its entry. -/
lemma Inv.handleEvents_eq (h : Inv s) {fd : Handle} {env : EventEnv} {s' : Dispatcher}
    (hs : s.handleEvents fd env = some s') :
    ∃ r p ed q ret, s.reactor = some r ∧ r.epoll fd = some p ∧ r.eventTable fd = some p ∧
      r.nodes p = some ed ∧ r.entry fd = some ed ∧ s.EntryOk fd ed q ∧
      handle ed.handler q ed.type env s = some (ret, s') := by
  cases hr : s.reactor with
  | none => simp [handleEvents, hr] at hs
  | some r =>
      have hin := h.inStep r hr
      cases hp : r.epoll fd with
      | none => simp [handleEvents, hr, hp] at hs
      | some p =>
          have hp' : r.eventTable fd = some p := by rw [← hin.epoll, hp]
          obtain ⟨ed, hed, hnode⟩ := hin.toIsTable.entry_eq_some hp'
          obtain ⟨q, hok⟩ := h.entry r fd ed hr hed
          simp only [handleEvents, hr, hp, hnode, hok.object] at hs
          obtain ⟨⟨ret, t⟩, hhandle, rfl⟩ := Option.map_eq_some_iff.1 hs
          exact ⟨r, p, ed, q, ret, rfl, hp, hp', hnode, hed, hok, hhandle⟩

/-- The new handler of an accepted connection. -/
lemma Inv.accept (h : Inv s) (fds : Option (Handle × Handle)) (env₁ env₂ : RegisterEnv)
    (hfresh : ∀ connFd compFd, fds = some (connFd, compFd) → s.Fresh (.rpma connFd compFd)) :
    Inv (s.accept fds env₁ env₂).2 := by
  rcases fds with _ | ⟨c, k⟩
  · exact h
  · have hnew := h.newHandler (hfresh c k rfl)
    have ho : (s.newHandler (.rpma c k)).objects s.nextId = some (Object.create (.rpma c k)) := by
      simp [Dispatcher.newHandler]
    have hreg := hnew.register env₁ env₂ ho rfl fun _ => rfl
    refine hreg.setFlags (o := { Object.create (.rpma c k) with registered := s.reactor.isSome })
      ?_ rfl (fun hown => by cases hown) (fun hr => hr) rfl
    rw [Dispatcher.register]
    exact setObject_self

/-- The connection ends: the handler removes itself. -/
lemma Inv.handleConnectionEvent_ends (h : Inv s) {ev : ConnEvent} (hev : ev.Ends) {r : Reactor}
    (hr : s.reactor = some r) (hlive : s.Live id) (ho : s.objects id = some o)
    (hreg : o.registered = true) (hboth : ∀ et, o.handler.Handles et ↔ et ≠ .accept) :
    Inv (s.handleConnectionEvent (.ok ev) id o).2 ∧
      ∃ r', (s.handleConnectionEvent (.ok ev) id o).2.reactor = some r' ∧
        (∀ fd ed, r'.entry fd = some ed → ed.handler ≠ id) ∧
        ∀ fd, (∀ ed, r.entry fd = some ed → ed.handler ≠ id) → r.SameAt r' fd := by
  obtain ⟨ret, r', heq, hinv, hgone, hsame⟩ := h.remove hr hlive ho hreg hboth
  have heq' : (s.handleConnectionEvent (.ok ev) id o).2 =
      { s.setObject id { o with connected := false, removed := true } with
        reactor := some r' } := by
    have hremove := EventHandler.removeSelf_connection hboth heq
    cases ev with
    | established => exact absurd rfl hev
    | closed | lost | undefined => simp only [Dispatcher.handleConnectionEvent, hr, hremove]
  rw [heq']
  exact ⟨hinv, r', rfl, hgone, hsame⟩

/-- A connection event keeps the invariant. -/
lemma Inv.handleConnectionEvent (h : Inv s) (next : Rpma ConnEvent) {r : Reactor}
    (hr : s.reactor = some r) (hlive : s.Live id) (ho : s.objects id = some o)
    (hreg : o.registered = true) (hboth : ∀ et, o.handler.Handles et ↔ et ≠ .accept) :
    Inv (s.handleConnectionEvent next id o).2 := by
  have hdisconnected : Inv (s.setObject id { o with disconnected := true }) :=
    h.setFlags ho rfl (fun hown => hown) (fun hreg => hreg) rfl
  rcases next with e | ev
  · cases e with
    | noEvent => exact h
    | _ => exact hdisconnected
  · cases ev with
    | established => exact h.setFlags ho rfl (fun hown => hown) (fun hreg => hreg) rfl
    | _ => exact (h.handleConnectionEvent_ends (by decide) hr hlive ho hreg hboth).1

/-- A handler that registers for anything but accept events is an end of a connection. -/
lemma UsesFor.connection {eh : EventHandler} {et : EventType} {fd : Handle}
    (h : UsesFor eh et fd) (het : et ≠ .accept) : ∀ et', eh.Handles et' ↔ et' ≠ .accept := by
  cases eh with
  | acceptor fd => exact absurd h.handles het
  | rpma c k => exact fun _ => Iff.rfl
  | client c k => exact fun _ => Iff.rfl

/-- Which function handles an event, by the type of the entry. -/
lemma handle_cases {fd : Handle} {et : EventType} {env : EventEnv} {ret : ℤ} {s' : Dispatcher}
    (huses : UsesFor o.handler et fd) (hs : handle id o et env s = some (ret, s')) :
    (et = .accept ∧ ∃ fds env₁ env₂, env = .accepting fds env₁ env₂ ∧
      s' = (s.accept fds env₁ env₂).2) ∨
    (et = .connection ∧ ∃ next, env = .connecting next ∧
      s' = (s.handleConnectionEvent next id o).2) ∨
    (et = .completion ∧ env = .completing ∧ s' = s) := by
  have hhandles := huses.handles
  cases hh : o.handler with
  | acceptor fd =>
      rw [hh] at hhandles
      obtain rfl : et = .accept := hhandles
      simp only [handle, hh] at hs
      cases env with
      | accepting fds env₁ env₂ =>
          exact .inl ⟨rfl, fds, env₁, env₂, rfl, (congrArg Prod.snd (Option.some.inj hs)).symm⟩
      | connecting next => cases hs
      | completing => cases hs
  | rpma c k | client c k =>
      rw [hh] at hhandles
      simp only [handle, hh] at hs
      cases et with
      | accept => exact absurd rfl hhandles
      | connection =>
          cases env with
          | connecting next =>
              exact .inr (.inl ⟨rfl, next, rfl, (congrArg Prod.snd (Option.some.inj hs)).symm⟩)
          | accepting fds env₁ env₂ => cases hs
          | completing => cases hs
      | completion =>
          cases env with
          | completing =>
              exact .inr (.inr ⟨rfl, rfl, (congrArg Prod.snd (Option.some.inj hs)).symm⟩)
          | accepting fds env₁ env₂ => cases hs
          | connecting next => cases hs

/-- An event keeps the invariant. -/
lemma Inv.handleEvents (h : Inv s) {fd : Handle} {env : EventEnv} {s' : Dispatcher}
    (hallowed : s.Allowed (.event fd env)) (hs : s.handleEvents fd env = some s') : Inv s' := by
  obtain ⟨r, p, ed, q, ret, hr, _, _, _, hed, hok, hhandle⟩ := h.handleEvents_eq hs
  rcases handle_cases hok.usesFor hhandle with
    ⟨_, fds, env₁, env₂, rfl, rfl⟩ | ⟨het, next, rfl, rfl⟩ | ⟨_, rfl, rfl⟩
  · refine h.accept fds env₁ env₂ ?_
    rintro c k rfl
    exact hallowed
  · exact h.handleConnectionEvent next hr (h.entry_live hr hed).2 hok.object hok.registered
      (hok.usesFor.connection (by rw [het]; decide))
  · exact h

/-- The reactor is destroyed. -/
lemma Inv.dropReactor (h : Inv s) : Inv { s with reactor := none } := by
  have hlive : ∀ {id'}, Live { s with reactor := none } id' → s.Live id' := by
    rintro id' (howned | ⟨r, fd, ed, hr, _⟩)
    · exact .inl howned
    · cases hr
  refine ⟨h.running, ?_, ?_, h.lt, h.removed, ?_⟩
  · intro r hr
    cases hr
  · intro r fd ed hr
    cases hr
  · intro fd id₁ id₂ q₁ q₂ hfd hq₁ hq₂ hl₁ hl₂
    exact h.apart fd id₁ id₂ q₁ q₂ hfd hq₁ hq₂ (hlive hl₁) (hlive hl₂)

/-- Every step that is allowed keeps the invariant. -/
lemma Inv.step (h : Inv s) {a : Action} {s' : Dispatcher} (hallowed : s.Allowed a)
    (hs : machine.step s a = some s') : Inv s' := by
  simp only [machine, Dispatcher.step, h.running] at hs
  cases a with
  | create eh =>
      obtain rfl := Option.some.inj hs
      exact h.newHandler hallowed
  | drop id =>
      cases ho : s.objects id with
      | none => simp [ho] at hs
      | some o =>
          simp only [ho, Option.ite_none_right_eq_some] at hs
          obtain ⟨_, hs⟩ := hs
          obtain rfl := Option.some.inj hs
          exact h.setFlags ho rfl (fun hown => by cases hown) (fun hreg => hreg) rfl
  | registerSelf id env₁ env₂ =>
      cases ho : s.objects id with
      | none => simp [ho] at hs
      | some o =>
          simp only [ho, Option.ite_none_right_eq_some] at hs
          obtain ⟨howned, hs⟩ := hs
          obtain rfl := Option.some.inj hs
          exact h.register env₁ env₂ ho howned fun hr => hallowed hr o ho
  | event fd env => exact h.handleEvents hallowed hs
  | dropReactor =>
      obtain rfl := Option.some.inj hs
      simpa only [h.running] using h.dropReactor

/-! ### Dispatch -/

/-- Every fd of the interest list is a key of `event_table`, its pointer leads to the key's
entry, and the entry names a handler that has not been removed and the one type of event for
which that handler uses the fd. -/
def Dispatches (s : Dispatcher) : Prop :=
  ∀ r fd p, s.reactor = some r → r.epoll fd = some p →
    r.eventTable fd = some p ∧ ∃ ed q, r.nodes p = some ed ∧ s.objects ed.handler = some q ∧
      q.removed = false ∧ UsesFor q.handler ed.type fd

/-- An event is dispatched through the entry of its fd, with the type in that entry.  If it ends
the connection, no entry names the handler any more, and the entries of all the others are as
they were. -/
def DispatchesEvent (s : Dispatcher) (fd : Handle) (env : EventEnv) (s' : Dispatcher) : Prop :=
  ∃ r p ed q ret, s.reactor = some r ∧ r.eventTable fd = some p ∧ r.nodes p = some ed ∧
    s.objects ed.handler = some q ∧ q.removed = false ∧ UsesFor q.handler ed.type fd ∧
    handle ed.handler q ed.type env s = some (ret, s') ∧
    ∀ ev : ConnEvent, ev.Ends → env = .connecting (.ok ev) → ∃ r', s'.reactor = some r' ∧
      (∀ fd' ed', r'.entry fd' = some ed' → ed'.handler ≠ ed.handler) ∧
      ∀ fd', (∀ ed', r.entry fd' = some ed' → ed'.handler ≠ ed.handler) → r.SameAt r' fd'

lemma Inv.dispatches (h : Inv s) : s.Dispatches := by
  intro r fd p hr hp
  have hin := h.inStep r hr
  have hp' : r.eventTable fd = some p := by rw [← hin.epoll, hp]
  obtain ⟨ed, hed, hnode⟩ := hin.toIsTable.entry_eq_some hp'
  obtain ⟨q, hok⟩ := h.entry r fd ed hr hed
  exact ⟨hp', ed, q, hnode, hok.object, hok.removed, hok.usesFor⟩

lemma Inv.dispatchesEvent (h : Inv s) {fd : Handle} {env : EventEnv} {s' : Dispatcher}
    (hs : s.handleEvents fd env = some s') : s.DispatchesEvent fd env s' := by
  obtain ⟨r, p, ed, q, ret, hr, _, hp, hnode, hed, hok, hhandle⟩ := h.handleEvents_eq hs
  refine ⟨r, p, ed, q, ret, hr, hp, hnode, hok.object, hok.removed, hok.usesFor, hhandle, ?_⟩
  rintro ev hev rfl
  rcases handle_cases hok.usesFor hhandle with
    ⟨_, fds, env₁, env₂, heq, _⟩ | ⟨het, next, heq, rfl⟩ | ⟨_, heq, _⟩
  · cases heq
  · cases heq
    exact (h.handleConnectionEvent_ends hev hr (h.entry_live hr hed).2 hok.object hok.registered
      (hok.usesFor.connection (by rw [het]; decide))).2
  · cases heq

/-- **Dispatch is sound.**  In every state of a run in which new handlers have fds of their own
and none registers twice: the program has not run into a dangling pointer or a failed assertion,
the interest list leads to the current entries, and every event is dispatched through them. -/
theorem dispatch_sound {as : List Action} {s : Dispatcher} (hrun : machine.Run create as s)
    (hallowed : machine.Meets Allowed create as) :
    s.stopped = none ∧ s.Dispatches ∧
      ∀ fd env s', machine.step s (.event fd env) = some s' → s.DispatchesEvent fd env s' := by
  have h : Inv s := Machine.Meets.invariant create_inv
    (fun t a u hinv ha hs => hinv.step ha hs) hrun hallowed
  refine ⟨h.running, h.dispatches, fun fd env s' hs => h.dispatchesEvent ?_⟩
  simpa only [machine, Dispatcher.step, h.running] using hs

/-- An acceptor is registered, accepts a connection, and the connection is closed. -/
theorem dispatch_sound_accepted :
    ∃ s s', machine.Run create [.create (.acceptor 3), .registerSelf 0 .ok .ok,
        .event 3 (.accepting (some (5, 6)) .ok .ok)] s ∧
      machine.step s (.event 5 (.connecting (.ok .closed))) = some s' ∧
      s.DispatchesEvent 5 (.connecting (.ok .closed)) s' := by
  have h₁ : machine.step create (.create (.acceptor 3)) =
      some (create.newHandler (.acceptor 3)) := rfl
  have h₂ : machine.step (create.newHandler (.acceptor 3)) (.registerSelf 0 .ok .ok) =
      some ((create.newHandler (.acceptor 3)).register .ok .ok 0 (.create (.acceptor 3))).2 := rfl
  have run₁ := (Machine.Run.nil (M := machine) create).snoc h₁
  have run₂ := run₁.snoc h₂
  have hmeets₁ : machine.Meets Allowed create [.create (.acceptor 3)] :=
    Machine.meets_singleton (by simp [Allowed, Fresh, create])
  have hmeets₂ := hmeets₁.snoc run₁ (a := .registerSelf 0 .ok .ok) (by
    rintro _ o ho
    obtain rfl : Object.create (.acceptor 3) = o := Option.some.inj ho
    rfl)
  have hmeets₃ := hmeets₂.snoc run₂ (a := .event 3 (.accepting (some (5, 6)) .ok .ok)) (by
    -- the only handler there is uses fd 3
    rintro fd _ ⟨et, het, rfl⟩ id o ho _ ⟨et', _, heq⟩
    have hid : id = 0 := by
      by_contra hne
      simp [register, setObject, newHandler, create, hne] at ho
    subst hid
    obtain rfl : { Object.create (.acceptor 3) with registered := true } = o :=
      Option.some.inj ho
    cases et with
    | accept => exact het rfl
    | connection => exact absurd (show (3 : Handle) = 5 from heq) (by decide)
    | completion => exact absurd (show (3 : Handle) = 6 from heq) (by decide))
  have run₃ := run₂.snoc (a := .event 3 (.accepting (some (5, 6)) .ok .ok)) rfl
  exact ⟨_, _, run₃, rfl,
    (dispatch_sound run₃ hmeets₃).2.2 5 (.connecting (.ok .closed)) _ rfl⟩

end Dispatcher

end RpmaReplica
