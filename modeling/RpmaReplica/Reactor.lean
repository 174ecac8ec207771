import RpmaReplica.Lib.Machine
import RpmaReplica.Outside

/-!
# The reactor

`Reactor.cc`, and the part of the event handlers of `EventOp.cc` that deals with it.  The
reactor keeps two tables in step: `event_table`, from fds to handlers, and the interest list of
epoll, which holds for each fd a pointer into `event_table`.  That pointer is all that
`handle_events` has when an event arrives, so the entries of `event_table` are modelled as
nodes that live somewhere: the table maps an fd to its node, epoll holds a node with each fd,
and erasing an entry frees the node.

Handlers are shared: a handler lives as long as the program or an entry refers to it.  They are
told apart by numbers, and their fds may be used again when they are gone.
-/

namespace RpmaReplica

/-! ### Event handlers -/

/-- A file descriptor. -/
abbrev Handle : Type := ℤ

/-- `EventType`. -/
inductive EventType
  | accept
  | connection
  | completion
  deriving DecidableEq, Repr

/-- An event handler, by its class and its fds. -/
inductive EventHandler
  | acceptor (fd : Handle)
  | rpma (connFd compFd : Handle)
  | client (connFd compFd : Handle)
  deriving DecidableEq, Repr

/-- `ConnectionHandler::get_handle`. -/
def connectionGetHandle (connFd compFd : Handle) : EventType → Handle
  | .connection => connFd
  | .completion => compFd
  | .accept => -1

namespace EventHandler

def getHandle : EventHandler → EventType → Handle
  | acceptor fd, _ => fd
  | rpma connFd compFd, et => connectionGetHandle connFd compFd et
  | client connFd compFd, et => connectionGetHandle connFd compFd et

/-- The event types a handler registers for. -/
def Handles : EventHandler → EventType → Prop
  | acceptor _, et => et = .accept
  | rpma _ _, et => et ≠ .accept
  | client _ _, et => et ≠ .accept

/-- The handler uses the fd. -/
def Uses (h : EventHandler) (fd : Handle) : Prop := ∃ et, h.Handles et ∧ h.getHandle et = fd

end EventHandler

/-! ### The reactor -/

/-- The identity of an event handler. -/
abbrev HandlerId : Type := ℕ

/-- `EventHandle`, an entry of `event_table`. -/
structure EventHandle where
  type : EventType
  handler : HandlerId
  deriving DecidableEq, Repr

/-- `Reactor`: `event_table`, whose entries are nodes, and the interest list of `_epoll`. -/
structure Reactor where
  eventTable : Handle → Option ℕ
  nodes : ℕ → Option EventHandle
  nextNode : ℕ
  epoll : Handle → Option ℕ

/-- A value of `errno` after a failure. -/
structure Errno where
  val : ℤ
  ne_zero : val ≠ 0

/-- `EEXIST`. -/
def eexist : Errno := ⟨17, by decide⟩

/-- How the calls of one `register_handler` fail, if they do. -/
structure RegisterEnv where
  fcntlGetFl : Option Errno
  fcntlSetFl : Option Errno
  epollCtlAdd : Option Errno

/-- All the calls succeed. -/
def RegisterEnv.ok : RegisterEnv := ⟨none, none, none⟩

namespace Reactor

/-- `Reactor()`. -/
def create : Reactor := ⟨fun _ => none, fun _ => none, 0, fun _ => none⟩

def fdSetNonblock (env : RegisterEnv) : ℤ :=
  match env.fcntlGetFl, env.fcntlSetFl with
  | some e, _ => e.val
  | none, some e => e.val
  | none, none => 0

/-- `event_table.emplace(fd, EventHandle())` and the assignment to `event_table[fd]`: an entry
that is there already is overwritten in place. -/
def setEntry (r : Reactor) (fd : Handle) (ed : EventHandle) : Reactor :=
  match r.eventTable fd with
  | some p => { r with nodes := Function.update r.nodes p (some ed) }
  | none =>
    { r with
      eventTable := Function.update r.eventTable fd (some r.nextNode)
      nodes := Function.update r.nodes r.nextNode (some ed)
      nextNode := r.nextNode + 1 }

/-- `event_table.erase(fd)`. -/
def eraseEntry (r : Reactor) (fd : Handle) : Reactor :=
  match r.eventTable fd with
  | some p =>
    { r with
      eventTable := Function.update r.eventTable fd none
      nodes := Function.update r.nodes p none }
  | none => r

/-- `epoll_ctl(_epoll, EPOLL_CTL_ADD, fd, &event)` with a pointer to the entry of `fd`; it fails
if the fd is in the interest list already. -/
def epollCtlAdd (r : Reactor) (res : Option Errno) (fd : Handle) : Option Errno × Reactor :=
  match r.epoll fd, res with
  | some _, _ => (some eexist, r)
  | none, some e => (some e, r)
  | none, none => (none, { r with epoll := Function.update r.epoll fd (r.eventTable fd) })

/-- `epoll_ctl(_epoll, EPOLL_CTL_DEL, fd, NULL)`. -/
def epollCtlDel (r : Reactor) (fd : Handle) : Reactor :=
  { r with epoll := Function.update r.epoll fd none }

def registerHandler (env : RegisterEnv) (id : HandlerId) (eh : EventHandler) (et : EventType)
    (r : Reactor) : ℤ × Reactor :=
  let fd := eh.getHandle et
  if fd = -1 then (-1, r)
  else if fdSetNonblock env ≠ 0 then (-1, r)
  else
    match (r.setEntry fd ⟨et, id⟩).epollCtlAdd env.epollCtlAdd fd with
    | (some e, r') => (e.val, r'.eraseEntry fd)
    | (none, r') => (0, r')

def removeHandler (eh : EventHandler) (et : EventType) (r : Reactor) : ℤ × Reactor :=
  let fd := eh.getHandle et
  if fd = -1 then (-1, r) else (0, (r.epollCtlDel fd).eraseEntry fd)

/-! ### The entries -/

/-- The entry of an fd, as `event_table` has it. -/
def entry (r : Reactor) (fd : Handle) : Option EventHandle := (r.eventTable fd).bind r.nodes

/-- `event_table` is a table: its nodes exist, and no two fds share one. -/
structure IsTable (r : Reactor) : Prop where
  node : ∀ fd p, r.eventTable fd = some p → ∃ ed, r.nodes p = some ed
  lt : ∀ fd p, r.eventTable fd = some p → p < r.nextNode
  inj : ∀ fd fd' p, r.eventTable fd = some p → r.eventTable fd' = some p → fd = fd'

/-- The two tables of the reactor are in step: epoll knows the fds of `event_table`, and holds
for each the pointer to its entry. -/
structure InStep (r : Reactor) : Prop extends IsTable r where
  epoll : r.epoll = r.eventTable

/-- The two reactors treat the fd alike: the same entry, behind the same pointers. -/
structure SameAt (r r' : Reactor) (fd : Handle) : Prop where
  eventTable : r'.eventTable fd = r.eventTable fd
  epoll : r'.epoll fd = r.epoll fd
  entry : r'.entry fd = r.entry fd

lemma SameAt.refl (r : Reactor) (fd : Handle) : r.SameAt r fd := ⟨rfl, rfl, rfl⟩

lemma SameAt.trans {r r' r'' : Reactor} {fd : Handle} (h : r.SameAt r' fd)
    (h' : r'.SameAt r'' fd) : r.SameAt r'' fd :=
  ⟨h'.eventTable.trans h.eventTable, h'.epoll.trans h.epoll, h'.entry.trans h.entry⟩

lemma create_inStep : create.InStep where
  node := by simp [create]
  lt := by simp [create]
  inj := by simp [create]
  epoll := rfl

variable {r : Reactor} {fd fd' : Handle} {ed : EventHandle}

lemma IsTable.entry_eq_some (h : r.IsTable) {p : ℕ} (hp : r.eventTable fd = some p) :
    ∃ ed, r.entry fd = some ed ∧ r.nodes p = some ed := by
  obtain ⟨ed, hed⟩ := h.node fd p hp
  exact ⟨ed, by rw [entry, hp, Option.bind_some, hed], hed⟩

lemma IsTable.entry_eq_none (h : r.IsTable) : r.entry fd = none ↔ r.eventTable fd = none := by
  constructor
  · intro hentry
    by_contra hne
    obtain ⟨p, hp⟩ := Option.ne_none_iff_exists'.1 hne
    obtain ⟨ed, hed, _⟩ := h.entry_eq_some hp
    rw [hentry] at hed
    cases hed
  · intro hnone
    rw [entry, hnone, Option.bind_none]

@[simp] lemma setEntry_epoll : (r.setEntry fd ed).epoll = r.epoll := by
  rw [setEntry]
  cases r.eventTable fd <;> rfl

@[simp] lemma eraseEntry_epoll : (r.eraseEntry fd).epoll = r.epoll := by
  rw [eraseEntry]
  cases r.eventTable fd <;> rfl

@[simp] lemma eraseEntry_nextNode : (r.eraseEntry fd).nextNode = r.nextNode := by
  rw [eraseEntry]
  cases r.eventTable fd <;> rfl

@[simp] lemma eraseEntry_eventTable :
    (r.eraseEntry fd).eventTable = Function.update r.eventTable fd none := by
  rw [eraseEntry]
  cases h : r.eventTable fd with
  | some p => rfl
  | none => exact (Function.update_eq_self_iff.2 h.symm).symm

/-- What `setEntry` does to the table: a node for the fd, the other fds as they were. -/
lemma setEntry_eventTable (r : Reactor) (fd : Handle) (ed : EventHandle) :
    ∃ p, (r.setEntry fd ed).eventTable = Function.update r.eventTable fd (some p) := by
  rw [setEntry]
  cases h : r.eventTable fd with
  | some p => exact ⟨p, (Function.update_eq_self_iff.2 h.symm).symm⟩
  | none => exact ⟨r.nextNode, rfl⟩

lemma IsTable.setEntry (h : r.IsTable) (fd : Handle) (ed : EventHandle) :
    (r.setEntry fd ed).IsTable := by
  rw [Reactor.setEntry]
  cases hfd : r.eventTable fd with
  | some q =>
      refine ⟨?_, h.lt, h.inj⟩
      intro fd' p hp
      by_cases hpq : p = q
      · exact ⟨ed, by simp [hpq]⟩
      · obtain ⟨ed', hed'⟩ := h.node fd' p hp
        exact ⟨ed', by simp [Function.update_of_ne hpq, hed']⟩
  | none =>
      -- the new node is above all the nodes in use
      have hcases : ∀ {fd' p}, Function.update r.eventTable fd (some r.nextNode) fd' = some p →
          (fd' = fd ∧ p = r.nextNode) ∨ (fd' ≠ fd ∧ r.eventTable fd' = some p) := by
        intro fd' p hp
        by_cases hfd' : fd' = fd
        · subst hfd'
          rw [Function.update_self] at hp
          exact .inl ⟨rfl, (Option.some.inj hp).symm⟩
        · rw [Function.update_of_ne hfd'] at hp
          exact .inr ⟨hfd', hp⟩
      refine ⟨?_, ?_, ?_⟩
      · intro fd' p hp
        rcases hcases hp with ⟨_, rfl⟩ | ⟨_, hp⟩
        · exact ⟨ed, by simp⟩
        · obtain ⟨ed', hed'⟩ := h.node fd' p hp
          exact ⟨ed', by simp [Function.update_of_ne (h.lt fd' p hp).ne, hed']⟩
      · intro fd' p hp
        rcases hcases hp with ⟨_, rfl⟩ | ⟨_, hp⟩
        · exact Nat.lt_succ_self _
        · exact Nat.lt_succ_of_lt (h.lt fd' p hp)
      · intro fd₁ fd₂ p hp₁ hp₂
        rcases hcases hp₁ with ⟨h₁, rfl⟩ | ⟨_, hq₁⟩
        · rcases hcases hp₂ with ⟨h₂, _⟩ | ⟨_, hq₂⟩
          · rw [h₁, h₂]
          · exact absurd rfl (h.lt fd₂ _ hq₂).ne
        · rcases hcases hp₂ with ⟨_, rfl⟩ | ⟨_, hq₂⟩
          · exact absurd rfl (h.lt fd₁ _ hq₁).ne
          · exact h.inj fd₁ fd₂ p hq₁ hq₂

lemma IsTable.setEntry_entry (h : r.IsTable) (fd : Handle) (ed : EventHandle) :
    (r.setEntry fd ed).entry = Function.update r.entry fd (some ed) := by
  funext fd'
  by_cases hfd' : fd' = fd
  · subst hfd'
    rw [Function.update_self, Reactor.setEntry, entry]
    cases hfd : r.eventTable fd' <;> simp [hfd]
  · rw [Function.update_of_ne hfd', Reactor.setEntry, entry, entry]
    cases hfd : r.eventTable fd with
    | some q =>
        cases hp : r.eventTable fd' with
        | none => simp
        | some p =>
            have hpq : p ≠ q := fun heq => hfd' (h.inj fd' fd p hp (heq ▸ hfd))
            simp [Function.update_of_ne hpq]
    | none =>
        cases hp : r.eventTable fd' with
        | none => simp [Function.update_of_ne hfd', hp]
        | some p => simp [Function.update_of_ne hfd', hp,
            Function.update_of_ne (h.lt fd' p hp).ne]

lemma IsTable.eraseEntry_entry (h : r.IsTable) (fd : Handle) :
    (r.eraseEntry fd).entry = Function.update r.entry fd none := by
  funext fd'
  by_cases hfd' : fd' = fd
  · subst hfd'
    rw [Function.update_self, entry, eraseEntry_eventTable, Function.update_self, Option.bind_none]
  · rw [Function.update_of_ne hfd', entry, eraseEntry_eventTable, Function.update_of_ne hfd', entry]
    cases hp : r.eventTable fd' with
    | none => rfl
    | some p =>
        rw [Option.bind_some, Option.bind_some, eraseEntry]
        cases hfd : r.eventTable fd with
        | none => rfl
        | some q =>
            have hpq : p ≠ q := fun heq => hfd' (h.inj fd' fd p hp (heq ▸ hfd))
            exact Function.update_of_ne hpq _ _

lemma IsTable.eraseEntry (h : r.IsTable) (fd : Handle) : (r.eraseEntry fd).IsTable := by
  have hcases : ∀ {fd' p}, (r.eraseEntry fd).eventTable fd' = some p →
      fd' ≠ fd ∧ r.eventTable fd' = some p := by
    intro fd' p hp
    rw [eraseEntry_eventTable] at hp
    by_cases hfd' : fd' = fd
    · rw [hfd', Function.update_self] at hp
      cases hp
    · rw [Function.update_of_ne hfd'] at hp
      exact ⟨hfd', hp⟩
  refine ⟨?_, ?_, ?_⟩
  · intro fd' p hp
    obtain ⟨hfd', hp'⟩ := hcases hp
    obtain ⟨ed, hed, _⟩ := h.entry_eq_some hp'
    have hentry : (r.eraseEntry fd).entry fd' = some ed := by
      rw [h.eraseEntry_entry, Function.update_of_ne hfd', hed]
    rw [entry, hp, Option.bind_some] at hentry
    exact ⟨ed, hentry⟩
  · intro fd' p hp
    rw [eraseEntry_nextNode]
    exact h.lt fd' p (hcases hp).2
  · intro fd₁ fd₂ p hp₁ hp₂
    exact h.inj fd₁ fd₂ p (hcases hp₁).2 (hcases hp₂).2

/-! ### Registering and removing -/

/-- The fd is known to neither table after the step, and nothing else has changed. -/
structure Cleared (r r' : Reactor) (fd : Handle) : Prop where
  isTable : r'.IsTable
  eventTable : r'.eventTable = Function.update r.eventTable fd none
  entry : r'.entry = Function.update r.entry fd none

/-- The fd has got the entry `ed` and a place in the interest list that points to it. -/
structure Added (r r' : Reactor) (fd : Handle) (ed : EventHandle) : Prop where
  isTable : r'.IsTable
  eventTable : ∃ p, r'.eventTable = Function.update r.eventTable fd (some p)
  epoll : r'.epoll = Function.update r.epoll fd (r'.eventTable fd)
  entry : r'.entry = Function.update r.entry fd (some ed)

lemma cleared_eraseEntry (h : r.IsTable) (fd : Handle) : r.Cleared (r.eraseEntry fd) fd :=
  ⟨h.eraseEntry fd, eraseEntry_eventTable, h.eraseEntry_entry fd⟩

/-- Setting an entry and erasing it again. -/
lemma cleared_setEntry_eraseEntry (h : r.IsTable) (fd : Handle) (ed : EventHandle) :
    r.Cleared ((r.setEntry fd ed).eraseEntry fd) fd := by
  obtain ⟨p, hp⟩ := setEntry_eventTable r fd ed
  refine ⟨(h.setEntry fd ed).eraseEntry fd, ?_, ?_⟩
  · rw [eraseEntry_eventTable, hp, Function.update_idem]
  · rw [(h.setEntry fd ed).eraseEntry_entry, h.setEntry_entry, Function.update_idem]

/-- The checks before `epoll_ctl` are passed. -/
def Reaches (env : RegisterEnv) (fd : Handle) : Prop := fd ≠ -1 ∧ fdSetNonblock env = 0

/-- `epoll_ctl(_epoll, EPOLL_CTL_ADD, fd, ..)` fails. -/
def Refused (env : RegisterEnv) (r : Reactor) (fd : Handle) : Prop :=
  r.epoll fd ≠ none ∨ env.epollCtlAdd ≠ none

lemma epollCtlAdd_cases (r : Reactor) (env : RegisterEnv) (fd : Handle) :
    (Refused env r fd ∧ ∃ e, r.epollCtlAdd env.epollCtlAdd fd = (some e, r)) ∨
      (¬Refused env r fd ∧ r.epollCtlAdd env.epollCtlAdd fd =
        (none, { r with epoll := Function.update r.epoll fd (r.eventTable fd) })) := by
  cases hepoll : r.epoll fd with
  | some p => exact .inl ⟨.inl (by simp [hepoll]), eexist, by simp [epollCtlAdd, hepoll]⟩
  | none =>
      cases hres : env.epollCtlAdd with
      | some e => exact .inl ⟨.inr (by simp [hres]), e, by simp [epollCtlAdd, hepoll]⟩
      | none =>
          refine .inr ⟨?_, by simp [epollCtlAdd, hepoll]⟩
          rintro (h | h)
          · exact h hepoll
          · exact h hres

/-- **What `register_handler` does**, by what it finds.  A check fails, and nothing changes; or
`epoll_ctl` fails, and the fd is left without an entry; or all succeeds. -/
theorem registerHandler_inputs (h : r.IsTable) (env : RegisterEnv) (id : HandlerId)
    (eh : EventHandler) (et : EventType) :
    ∃ ret r', r.registerHandler env id eh et = (ret, r') ∧
      ((¬Reaches env (eh.getHandle et) ∧ ret ≠ 0 ∧ r' = r) ∨
        (Reaches env (eh.getHandle et) ∧ Refused env r (eh.getHandle et) ∧ ret ≠ 0 ∧
          r'.epoll = r.epoll ∧ r.Cleared r' (eh.getHandle et)) ∨
        (Reaches env (eh.getHandle et) ∧ ¬Refused env r (eh.getHandle et) ∧ ret = 0 ∧
          r.Added r' (eh.getHandle et) ⟨et, id⟩)) := by
  set fd := eh.getHandle et with hfd
  rw [registerHandler]
  by_cases hneg : fd = -1
  · exact ⟨-1, r, by rw [if_pos hneg], .inl ⟨fun hr => hr.1 hneg, by decide, rfl⟩⟩
  rw [if_neg hneg]
  by_cases hnb : fdSetNonblock env ≠ 0
  · exact ⟨-1, r, by rw [if_pos hnb], .inl ⟨fun hr => hnb hr.2, by decide, rfl⟩⟩
  rw [if_neg hnb]
  rw [← hfd]
  have hreaches : Reaches env fd := ⟨hneg, not_not.1 hnb⟩
  have hrefused : Refused env (r.setEntry fd ⟨et, id⟩) fd ↔ Refused env r fd := by
    rw [Refused, Refused, setEntry_epoll]
  rcases epollCtlAdd_cases (r.setEntry fd ⟨et, id⟩) env fd with ⟨href, e, he⟩ | ⟨href, hok⟩
  · exact ⟨e.val, (r.setEntry fd ⟨et, id⟩).eraseEntry fd, by rw [he], .inr (.inl
      ⟨hreaches, hrefused.1 href, e.ne_zero, by simp, cleared_setEntry_eraseEntry h fd _⟩)⟩
  · refine ⟨0, _, by rw [hok], .inr (.inr
      ⟨hreaches, fun hr => href (hrefused.2 hr), rfl, ?_, ?_, ?_, ?_⟩)⟩
    · obtain ⟨h1, h2, h3⟩ := h.setEntry fd ⟨et, id⟩
      exact ⟨h1, h2, h3⟩
    · exact setEntry_eventTable r fd _
    · rw [setEntry_epoll]
    · exact h.setEntry_entry fd _

/-- The outcomes of `register_handler`.  It fails and changes nothing, or fails and leaves the fd
without an entry, or succeeds, and then the fd was new to epoll. -/
theorem registerHandler_cases (h : r.IsTable) (env : RegisterEnv) (id : HandlerId)
    (eh : EventHandler) (et : EventType) :
    ∃ ret r', r.registerHandler env id eh et = (ret, r') ∧
      ((ret ≠ 0 ∧ r' = r) ∨
        (ret ≠ 0 ∧ r'.epoll = r.epoll ∧ r.Cleared r' (eh.getHandle et)) ∨
        (ret = 0 ∧ eh.getHandle et ≠ -1 ∧ r.epoll (eh.getHandle et) = none ∧
          r.Added r' (eh.getHandle et) ⟨et, id⟩)) := by
  obtain ⟨ret, r', heq, hcases⟩ := registerHandler_inputs h env id eh et
  refine ⟨ret, r', heq, ?_⟩
  rcases hcases with ⟨_, hret, hr⟩ | ⟨_, _, hret, hepoll, hcleared⟩ |
    ⟨hreaches, hrefused, hret, hadded⟩
  · exact .inl ⟨hret, hr⟩
  · exact .inr (.inl ⟨hret, hepoll, hcleared⟩)
  · exact .inr (.inr ⟨hret, hreaches.1, not_not.1 (not_or.1 hrefused).1, hadded⟩)

/-- What `remove_handler` does: the fd is gone from both tables. -/
lemma removeHandler_eq (h : r.IsTable) (eh : EventHandler) {et : EventType}
    (hfd : eh.getHandle et ≠ -1) :
    ∃ r', r.removeHandler eh et = (0, r') ∧ r.Cleared r' (eh.getHandle et) ∧
      r'.epoll = Function.update r.epoll (eh.getHandle et) none := by
  have htable : (r.epollCtlDel (eh.getHandle et)).IsTable := ⟨h.node, h.lt, h.inj⟩
  obtain ⟨h1, h2, h3⟩ := cleared_eraseEntry htable (eh.getHandle et)
  refine ⟨_, by rw [removeHandler, if_neg hfd], ⟨h1, h2, h3⟩, ?_⟩
  rw [eraseEntry_epoll]
  rfl

lemma InStep.of_sameAt {r' : Reactor} (h : r.InStep) (htable : r'.IsTable)
    (hsame : ∀ fd, r.SameAt r' fd) : r'.InStep := by
  refine ⟨htable, ?_⟩
  funext fd
  rw [(hsame fd).epoll, (hsame fd).eventTable, h.epoll]

lemma Added.sameAt {r' : Reactor} (h : r.Added r' fd ed) (hfd' : fd' ≠ fd) : r.SameAt r' fd' := by
  obtain ⟨p, hp⟩ := h.eventTable
  refine ⟨?_, ?_, ?_⟩
  · rw [hp, Function.update_of_ne hfd']
  · rw [h.epoll, Function.update_of_ne hfd']
  · rw [h.entry, Function.update_of_ne hfd']

lemma Added.inStep {r' : Reactor} (hr : r.InStep) (h : r.Added r' fd ed) : r'.InStep := by
  refine ⟨h.isTable, ?_⟩
  obtain ⟨p, hp⟩ := h.eventTable
  rw [h.epoll, hp, Function.update_self, hr.epoll]

lemma Cleared.sameAt {r' : Reactor} (h : r.Cleared r' fd) (hfd' : fd' ≠ fd)
    (hepoll : r'.epoll fd' = r.epoll fd') : r.SameAt r' fd' := by
  refine ⟨?_, hepoll, ?_⟩
  · rw [h.eventTable, Function.update_of_ne hfd']
  · rw [h.entry, Function.update_of_ne hfd']

/-- Nothing has changed if the fd had no entry. -/
lemma Cleared.sameAt_of_none {r' : Reactor} (h : r.Cleared r' fd) (hr : r.IsTable)
    (hnone : r.eventTable fd = none) (hepoll : r'.epoll fd' = r.epoll fd') :
    r.SameAt r' fd' := by
  by_cases hfd' : fd' = fd
  · subst hfd'
    refine ⟨?_, hepoll, ?_⟩
    · rw [h.eventTable, Function.update_self, hnone]
    · rw [h.entry, Function.update_self, hr.entry_eq_none.2 hnone]
  · exact h.sameAt hfd' hepoll

/-- `register_handler` for an fd without an entry: all or nothing. -/
lemma registerHandler_unused (h : r.InStep) (env : RegisterEnv) (id : HandlerId)
    (eh : EventHandler) {et : EventType} (hnone : r.eventTable (eh.getHandle et) = none) :
    ∃ ret r', r.registerHandler env id eh et = (ret, r') ∧
      ((ret ≠ 0 ∧ r'.InStep ∧ ∀ fd, r.SameAt r' fd) ∨
        (ret = 0 ∧ eh.getHandle et ≠ -1 ∧ r.Added r' (eh.getHandle et) ⟨et, id⟩)) := by
  obtain ⟨ret, r', heq, hcases⟩ := registerHandler_cases h.toIsTable env id eh et
  refine ⟨ret, r', heq, ?_⟩
  rcases hcases with ⟨hret, rfl⟩ | ⟨hret, hepoll, hcleared⟩ | ⟨hret, hneg, _, hadded⟩
  · exact .inl ⟨hret, h, SameAt.refl r'⟩
  · have hsame : ∀ fd, r.SameAt r' fd := fun fd =>
      hcleared.sameAt_of_none h.toIsTable hnone (by rw [hepoll])
    exact .inl ⟨hret, h.of_sameAt hcleared.isTable hsame, hsame⟩
  · exact .inr ⟨hret, hneg, hadded⟩

/-- `remove_handler` where the tables are in step. -/
lemma removeHandler_inStep (h : r.InStep) (eh : EventHandler) (et : EventType) :
    ∃ ret r', r.removeHandler eh et = (ret, r') ∧ r'.InStep ∧
      (eh.getHandle et ≠ -1 → r'.entry (eh.getHandle et) = none) ∧
      ∀ fd, fd ≠ eh.getHandle et ∨ r.eventTable fd = none → r.SameAt r' fd := by
  by_cases hneg : eh.getHandle et = -1
  · exact ⟨-1, r, by rw [removeHandler, if_pos hneg], h, fun hne => absurd hneg hne,
      fun fd _ => SameAt.refl r fd⟩
  · obtain ⟨r', heq, hcleared, hepoll⟩ := removeHandler_eq h.toIsTable eh hneg
    refine ⟨0, r', heq, ⟨hcleared.isTable, ?_⟩, ?_, ?_⟩
    · rw [hepoll, hcleared.eventTable, h.epoll]
    · intro _
      rw [hcleared.entry, Function.update_self]
    · intro fd hfd
      by_cases heq : fd = eh.getHandle et
      · have hnone : r.eventTable fd = none := hfd.resolve_left fun hne => hne heq
        refine hcleared.sameAt_of_none h.toIsTable (heq ▸ hnone) ?_
        rw [hepoll, heq, Function.update_self, h.epoll, ← heq, hnone]
      · exact hcleared.sameAt heq (by rw [hepoll, Function.update_of_ne heq])

/-! ### Undone registrations -/

/-- The reactor is exactly as it was: the same entries, behind the same pointers, and the same
interest list. -/
def Unchanged (r r' : Reactor) : Prop := ∀ fd, r.SameAt r' fd

/-- What undoing leaves behind: the interest list is as it was, and so is the table, except that
the listed fds have no entries. -/
structure Erased (r r' : Reactor) (fds : List Handle) : Prop where
  epoll : r'.epoll = r.epoll
  eventTable : ∀ fd, r'.eventTable fd = if fd ∈ fds then none else r.eventTable fd
  entry : ∀ fd, r'.entry fd = if fd ∈ fds then none else r.entry fd

variable {r' r₁ r₂ r₃ : Reactor} {c k : Handle}

/-- Undoing has changed nothing if and only if there was nothing before. -/
lemma Erased.unchanged_iff {fds : List Handle} (he : r.Erased r' fds) (h : r.IsTable) :
    r.Unchanged r' ↔ ∀ fd ∈ fds, r.eventTable fd = none := by
  constructor
  · intro hsame fd hfd
    rw [← (hsame fd).eventTable, he.eventTable, if_pos hfd]
  · intro hnone fd
    by_cases hfd : fd ∈ fds
    · refine ⟨?_, by rw [he.epoll], ?_⟩
      · rw [he.eventTable, if_pos hfd, hnone fd hfd]
      · rw [he.entry, if_pos hfd, h.entry_eq_none.2 (hnone fd hfd)]
    · refine ⟨?_, by rw [he.epoll], ?_⟩
      · rw [he.eventTable, if_neg hfd]
      · rw [he.entry, if_neg hfd]

/-- A registration that `epoll_ctl` has refused. -/
lemma Cleared.erased (hc : r.Cleared r' fd) (hepoll : r'.epoll = r.epoll) : r.Erased r' [fd] where
  epoll := hepoll
  eventTable x := by
    rw [hc.eventTable]
    by_cases hx : x = fd <;> simp [hx]
  entry x := by
    rw [hc.entry]
    by_cases hx : x = fd <;> simp [hx]

/-- The first registration is taken back after the second has failed at once. -/
lemma Added.erased (ha : r.Added r₁ c ed) (hnew : r.epoll c = none) (hc : r₁.Cleared r₂ c)
    (hepoll : r₂.epoll = Function.update r₁.epoll c none) : r.Erased r₂ [c] where
  epoll := by
    rw [hepoll, ha.epoll, Function.update_idem]
    exact Function.update_eq_self_iff.2 hnew.symm
  eventTable x := by
    obtain ⟨p, hp⟩ := ha.eventTable
    rw [hc.eventTable, hp]
    by_cases hx : x = c <;> simp [hx]
  entry x := by
    rw [hc.entry, ha.entry]
    by_cases hx : x = c <;> simp [hx]

/-- The first registration is taken back after `epoll_ctl` has refused the second. -/
lemma Added.erased_refused (ha : r.Added r₁ c ed) (hnew : r.epoll c = none)
    (hk : r₁.Cleared r₂ k) (hepoll₂ : r₂.epoll = r₁.epoll) (hc : r₂.Cleared r₃ c)
    (hepoll₃ : r₃.epoll = Function.update r₂.epoll c none) : r.Erased r₃ [c, k] where
  epoll := by
    rw [hepoll₃, hepoll₂, ha.epoll, Function.update_idem]
    exact Function.update_eq_self_iff.2 hnew.symm
  eventTable x := by
    obtain ⟨p, hp⟩ := ha.eventTable
    rw [hc.eventTable, hk.eventTable, hp]
    by_cases hx : x = c
    · simp [hx]
    · by_cases hx' : x = k <;> simp [hx, hx', Function.update_apply]
  entry x := by
    rw [hc.entry, hk.entry, ha.entry]
    by_cases hx : x = c
    · simp [hx]
    · by_cases hx' : x = k <;> simp [hx, hx', Function.update_apply]

/-! ### Registered fds -/

/-- The fd is registered: it has an entry, and epoll holds the pointer to it. -/
def Registered (r : Reactor) (id : HandlerId) (et : EventType) (fd : Handle) : Prop :=
  r.entry fd = some ⟨et, id⟩ ∧ r.eventTable fd ≠ none ∧ r.epoll fd = r.eventTable fd

lemma Added.registered {id : HandlerId} {et : EventType} (ha : r.Added r' fd ⟨et, id⟩) :
    r'.Registered id et fd := by
  obtain ⟨p, hp⟩ := ha.eventTable
  refine ⟨by rw [ha.entry, Function.update_self], ?_, by rw [ha.epoll, Function.update_self]⟩
  rw [hp, Function.update_self]
  exact Option.some_ne_none p

lemma Registered.sameAt {id : HandlerId} {et : EventType} (hr : r.Registered id et fd)
    (hs : r.SameAt r' fd) : r'.Registered id et fd :=
  ⟨hs.entry.trans hr.1, fun h => hr.2.1 (hs.eventTable ▸ h),
    hs.epoll.trans (hr.2.2.trans hs.eventTable.symm)⟩

/-- Epoll refuses an fd it has just got, and treats the others as before. -/
lemma Added.refused_iff (ha : r.Added r₁ c ed) (env : RegisterEnv) :
    Refused env r₁ k ↔ k = c ∨ Refused env r k := by
  obtain ⟨p, hp⟩ := ha.eventTable
  have hepoll : r₁.epoll = Function.update r.epoll c (some p) := by
    rw [ha.epoll, hp, Function.update_self]
  rw [Refused, Refused, hepoll]
  by_cases hk : k = c
  · simp [hk]
  · simp [hk]

end Reactor

namespace EventHandler

open Reactor

/-- `register_self` of the two ends of a connection. -/
def registerConnection (env₁ env₂ : RegisterEnv) (id : HandlerId) (eh : EventHandler)
    (r : Reactor) : ℤ × Reactor :=
  match r.registerHandler env₁ id eh .connection with
  | (0, r₁) =>
    match r₁.registerHandler env₂ id eh .completion with
    | (0, r₂) => (0, r₂)
    | (ret, r₂) => (ret, (r₂.removeHandler eh .connection).2)
  | (ret, r₁) => (ret, r₁)

/-- `register_self`.  The reactor is behind a `weak_ptr` and may be gone. -/
def registerSelf (env₁ env₂ : RegisterEnv) (id : HandlerId) (eh : EventHandler) :
    Option Reactor → ℤ × Option Reactor
  | none =>
    match eh with
    | acceptor _ => (-1, none)
    | rpma _ _ | client _ _ => (0, none)
  | some r =>
    match eh with
    | acceptor _ =>
      let (ret, r') := r.registerHandler env₁ id eh .accept
      (ret, some r')
    | rpma _ _ | client _ _ =>
      let (ret, r') := registerConnection env₁ env₂ id eh r
      (ret, some r')

/-- `remove_self` of the two ends of a connection: `ret |= ..` of the two results. -/
def removeConnection (eh : EventHandler) (r : Reactor) : ℤ × Reactor :=
  let (ret, r₁) := r.removeHandler eh .connection
  let (ret', r₂) := r₁.removeHandler eh .completion
  (if ret = 0 then ret' else if ret' = 0 then ret else -1, r₂)

/-- `remove_self`.  The reactor is behind a `weak_ptr` and may be gone. -/
def removeSelf (eh : EventHandler) : Option Reactor → ℤ × Option Reactor
  | none =>
    match eh with
    | acceptor _ => (-1, none)
    | rpma _ _ | client _ _ => (0, none)
  | some r =>
    match eh with
    | acceptor _ =>
      let (ret, r') := r.removeHandler eh .accept
      (ret, some r')
    | rpma _ _ | client _ _ =>
      let (ret, r') := removeConnection eh r
      (ret, some r')

/-- What a registration leaves behind: nothing, if it failed, and otherwise an entry for each
event type of the handler, whose fds are told apart. -/
def Registration (id : HandlerId) (eh : EventHandler) (ret : ℤ) (r r' : Reactor) : Prop :=
  (ret ≠ 0 ∧ r'.InStep ∧ ∀ fd, r.SameAt r' fd) ∨
  (ret = 0 ∧ r'.InStep ∧
    (∀ et, eh.Handles et → eh.getHandle et ≠ -1 ∧ r'.entry (eh.getHandle et) = some ⟨et, id⟩) ∧
    (∀ et et', eh.Handles et → eh.Handles et' → eh.getHandle et = eh.getHandle et' → et = et') ∧
    ∀ fd, ¬eh.Uses fd → r.SameAt r' fd)

/-- The first of the two registrations fails. -/
lemma registerConnection_first {env₁ env₂ : RegisterEnv} {id : HandlerId} {eh : EventHandler}
    {r r₁ : Reactor} {ret : ℤ} (h₁ : r.registerHandler env₁ id eh .connection = (ret, r₁))
    (hret : ret ≠ 0) : registerConnection env₁ env₂ id eh r = (ret, r₁) := by
  simp only [registerConnection, h₁]

/-- The second of the two registrations fails. -/
lemma registerConnection_second {env₁ env₂ : RegisterEnv} {id : HandlerId} {eh : EventHandler}
    {r r₁ r₂ r₃ : Reactor} {ret ret' : ℤ}
    (h₁ : r.registerHandler env₁ id eh .connection = (0, r₁))
    (h₂ : r₁.registerHandler env₂ id eh .completion = (ret, r₂)) (hret : ret ≠ 0)
    (h₃ : r₂.removeHandler eh .connection = (ret', r₃)) :
    registerConnection env₁ env₂ id eh r = (ret, r₃) := by
  simp only [registerConnection, h₁, h₂, h₃]

/-- **What `register_self` does at either end**, by what it finds.  If the second registration
fails, the first is taken back; this also covers two fds that are the same, for which the second
registration fails with `EEXIST` and destroys the entry of the first. -/
lemma registerConnection_inputs {r : Reactor} (h : r.IsTable) (env₁ env₂ : RegisterEnv)
    (id : HandlerId) (eh : EventHandler) {c k : Handle} (hc : eh.getHandle .connection = c)
    (hk : eh.getHandle .completion = k) :
    ∃ ret r', registerConnection env₁ env₂ id eh r = (ret, r') ∧ r'.IsTable ∧
      ((¬Reaches env₁ c ∧ ret ≠ 0 ∧ r.Erased r' []) ∨
        (Reaches env₁ c ∧ Refused env₁ r c ∧ ret ≠ 0 ∧ r.Erased r' [c]) ∨
        ((Reaches env₁ c ∧ ¬Refused env₁ r c) ∧ ¬Reaches env₂ k ∧ ret ≠ 0 ∧ r.Erased r' [c]) ∨
        ((Reaches env₁ c ∧ ¬Refused env₁ r c) ∧ Reaches env₂ k ∧ (k = c ∨ Refused env₂ r k) ∧
          ret ≠ 0 ∧ r.Erased r' [c, k]) ∨
        ((Reaches env₁ c ∧ ¬Refused env₁ r c) ∧ Reaches env₂ k ∧ ¬(k = c ∨ Refused env₂ r k) ∧
          ret = 0 ∧ (r'.Registered id .connection c ∧ r'.Registered id .completion k) ∧
          ∀ fd, fd ≠ c → fd ≠ k → r.SameAt r' fd)) := by
  subst hc hk
  set c := eh.getHandle .connection
  set k := eh.getHandle .completion
  obtain ⟨ret₁, r₁, heq₁, hcases₁⟩ := registerHandler_inputs h env₁ id eh .connection
  rcases hcases₁ with ⟨hnot₁, hret₁, rfl⟩ | ⟨hreaches₁, hrefused₁, hret₁, hepoll₁, hcleared₁⟩ |
    ⟨hreaches₁, hnot₁, rfl, hadded₁⟩
  · refine ⟨ret₁, r₁, registerConnection_first heq₁ hret₁, h, .inl ⟨hnot₁, hret₁, rfl, ?_, ?_⟩⟩
    · simp
    · simp
  · exact ⟨ret₁, r₁, registerConnection_first heq₁ hret₁, hcleared₁.isTable,
      .inr (.inl ⟨hreaches₁, hrefused₁, hret₁, hcleared₁.erased hepoll₁⟩)⟩
  -- the first registration has succeeded
  have hnew : r.epoll c = none := not_not.1 (not_or.1 hnot₁).1
  obtain ⟨ret₂, r₂, heq₂, hcases₂⟩ := registerHandler_inputs hadded₁.isTable env₂ id eh .completion
  rw [hadded₁.refused_iff] at hcases₂
  rcases hcases₂ with ⟨hnot₂, hret₂, rfl⟩ | ⟨hreaches₂, hrefused₂, hret₂, hepoll₂, hcleared₂⟩ |
    ⟨hreaches₂, hnot₂, rfl, hadded₂⟩
  · obtain ⟨r₃, heq₃, hcleared₃, hepoll₃⟩ := removeHandler_eq hadded₁.isTable eh hreaches₁.1
    exact ⟨ret₂, r₃, registerConnection_second heq₁ heq₂ hret₂ heq₃, hcleared₃.isTable,
      .inr (.inr (.inl ⟨⟨hreaches₁, hnot₁⟩, hnot₂, hret₂, hadded₁.erased hnew hcleared₃ hepoll₃⟩))⟩
  · obtain ⟨r₃, heq₃, hcleared₃, hepoll₃⟩ := removeHandler_eq hcleared₂.isTable eh hreaches₁.1
    exact ⟨ret₂, r₃, registerConnection_second heq₁ heq₂ hret₂ heq₃, hcleared₃.isTable,
      .inr (.inr (.inr (.inl ⟨⟨hreaches₁, hnot₁⟩, hreaches₂, hrefused₂, hret₂,
        hadded₁.erased_refused hnew hcleared₂ hepoll₂ hcleared₃ hepoll₃⟩)))⟩
  · have heq : registerConnection env₁ env₂ id eh r = (0, r₂) := by
      simp only [registerConnection, heq₁, heq₂]
    have hck : c ≠ k := fun hck => hnot₂ (.inl hck.symm)
    exact ⟨0, r₂, heq, hadded₂.isTable, .inr (.inr (.inr (.inr
      ⟨⟨hreaches₁, hnot₁⟩, hreaches₂, hnot₂, rfl,
        ⟨hadded₁.registered.sameAt (hadded₂.sameAt hck), hadded₂.registered⟩,
        fun fd hc hk => (hadded₁.sameAt hc).trans (hadded₂.sameAt hk)⟩)))⟩

/-- The common part of both ends: `register_self` for two fds without entries. -/
lemma registerConnection_registration {r : Reactor} (h : r.InStep) (env₁ env₂ : RegisterEnv)
    (id : HandlerId) {eh : EventHandler} (hboth : ∀ et, eh.Handles et ↔ et ≠ .accept)
    (hnone : ∀ fd, eh.Uses fd → r.eventTable fd = none) :
    ∃ ret r', registerConnection env₁ env₂ id eh r = (ret, r') ∧
      Registration id eh ret r r' := by
  have hconn : eh.Handles .connection := (hboth _).2 (by decide)
  have hcomp : eh.Handles .completion := (hboth _).2 (by decide)
  set c := eh.getHandle .connection with hc
  set k := eh.getHandle .completion with hk
  have hcnone : r.eventTable c = none := hnone c ⟨_, hconn, rfl⟩
  have hknone : r.eventTable k = none := hnone k ⟨_, hcomp, rfl⟩
  obtain ⟨ret, r', heq, htable, hcases⟩ :=
    registerConnection_inputs h.toIsTable env₁ env₂ id eh hc.symm hk.symm
  refine ⟨ret, r', heq, ?_⟩
  -- what is undone was not there before
  have hundone : ∀ {fds : List Handle}, ret ≠ 0 → r.Erased r' fds →
      (∀ fd ∈ fds, r.eventTable fd = none) → Registration id eh ret r r' := by
    intro fds hret herased hfds
    have hsame : r.Unchanged r' := (herased.unchanged_iff h.toIsTable).2 hfds
    exact .inl ⟨hret, h.of_sameAt htable hsame, hsame⟩
  rcases hcases with ⟨-, hret, he⟩ | ⟨-, -, hret, he⟩ | ⟨-, -, hret, he⟩ | ⟨-, -, -, hret, he⟩ |
    ⟨hfirst, hsecond, hnot, hret, ⟨hcreg, hkreg⟩, hsame⟩
  · exact hundone hret he (by simp)
  · exact hundone hret he (by simpa using hcnone)
  · exact hundone hret he (by simpa using hcnone)
  · exact hundone hret he (by simpa using ⟨hcnone, hknone⟩)
  · have hck : c ≠ k := fun hck => hnot (.inl hck.symm)
    refine .inr ⟨hret, ⟨htable, ?_⟩, ?_, ?_, ?_⟩
    · funext fd
      by_cases hfdc : fd = c
      · rw [hfdc]
        exact hcreg.2.2
      · by_cases hfdk : fd = k
        · rw [hfdk]
          exact hkreg.2.2
        · rw [(hsame fd hfdc hfdk).epoll, (hsame fd hfdc hfdk).eventTable, h.epoll]
    · intro et het
      cases et with
      | accept => exact absurd rfl ((hboth _).1 het)
      | connection => exact ⟨hfirst.1.1, hcreg.1⟩
      | completion => exact ⟨hsecond.1, hkreg.1⟩
    · intro et et' het het' heq
      cases et <;> cases et' <;> first
        | rfl
        | exact absurd rfl ((hboth _).1 het)
        | exact absurd rfl ((hboth _).1 het')
        | exact absurd heq hck
        | exact absurd heq.symm hck
    · intro fd hfd
      exact hsame fd (fun heq => hfd ⟨_, hconn, heq.symm⟩) fun heq => hfd ⟨_, hcomp, heq.symm⟩

/-- **What `register_self` does** for a handler whose fds have no entries. -/
theorem registerSelf_registration {r : Reactor} (h : r.InStep) (env₁ env₂ : RegisterEnv)
    (id : HandlerId) (eh : EventHandler) (hnone : ∀ fd, eh.Uses fd → r.eventTable fd = none) :
    ∃ ret r', eh.registerSelf env₁ env₂ id (some r) = (ret, some r') ∧
      Registration id eh ret r r' := by
  cases eh with
  | acceptor fd =>
      have hunused : r.eventTable ((acceptor fd).getHandle .accept) = none := hnone fd ⟨_, rfl, rfl⟩
      obtain ⟨ret, r', heq, hcases⟩ :=
        Reactor.registerHandler_unused h env₁ id (acceptor fd) hunused
      refine ⟨ret, r', by rw [registerSelf, heq], ?_⟩
      rcases hcases with ⟨hret, hin, hsame⟩ | ⟨hret, hneg, hadd⟩
      · exact .inl ⟨hret, hin, hsame⟩
      · refine .inr ⟨hret, hadd.inStep h, ?_, ?_, ?_⟩
        · rintro et rfl
          exact ⟨hneg, by rw [hadd.entry, Function.update_self]⟩
        · rintro et et' rfl rfl _
          rfl
        · intro fd' hfd'
          exact hadd.sameAt fun heq => hfd' ⟨_, rfl, heq.symm⟩
  | rpma c k =>
      obtain ⟨ret, r', heq, hreg⟩ := registerConnection_registration h env₁ env₂ id
        (fun _ => Iff.rfl) hnone
      exact ⟨ret, r', by rw [registerSelf, heq], hreg⟩
  | client c k =>
      obtain ⟨ret, r', heq, hreg⟩ := registerConnection_registration h env₁ env₂ id
        (fun _ => Iff.rfl) hnone
      exact ⟨ret, r', by rw [registerSelf, heq], hreg⟩

/-- `remove_self` at either end of a connection, while there is a reactor. -/
lemma removeSelf_connection {eh : EventHandler} (hboth : ∀ et, eh.Handles et ↔ et ≠ .accept)
    {r r' : Reactor} {ret : ℤ} (heq : eh.removeConnection r = (ret, r')) :
    eh.removeSelf (some r) = (ret, some r') := by
  cases eh with
  | acceptor fd => exact absurd rfl ((hboth .accept).1 rfl)
  | rpma c k => rw [removeSelf, heq]
  | client c k => rw [removeSelf, heq]

/-- **What `remove_self` does** at either end: the handler's fds are gone, and the others are
as they were. -/
theorem removeConnection_inStep {r : Reactor} (h : r.InStep) {eh : EventHandler}
    (hboth : ∀ et, eh.Handles et ↔ et ≠ .accept) :
    ∃ ret r', removeConnection eh r = (ret, r') ∧ r'.InStep ∧
      (∀ fd, fd ≠ -1 → eh.Uses fd → r'.entry fd = none) ∧
      ∀ fd, ¬eh.Uses fd ∨ r.eventTable fd = none → r.SameAt r' fd := by
  obtain ⟨ret₁, r₁, heq₁, hin₁, hgone₁, hsame₁⟩ := Reactor.removeHandler_inStep h eh .connection
  obtain ⟨ret₂, r₂, heq₂, hin₂, hgone₂, hsame₂⟩ := Reactor.removeHandler_inStep hin₁ eh .completion
  have heq : removeConnection eh r =
      (if ret₁ = 0 then ret₂ else if ret₂ = 0 then ret₁ else -1, r₂) := by
    simp only [removeConnection, heq₁, heq₂]
  refine ⟨_, r₂, heq, hin₂, ?_, ?_⟩
  · rintro fd hneg ⟨et, het, rfl⟩
    by_cases hfd : eh.getHandle et = eh.getHandle .completion
    · rw [hfd] at hneg ⊢
      exact hgone₂ hneg
    · rw [(hsame₂ _ (.inl hfd)).entry]
      cases et with
      | accept => exact absurd rfl ((hboth _).1 het)
      | connection => exact hgone₁ hneg
      | completion => exact absurd rfl hfd
  · rintro fd (hfd | hnone)
    · have hfdc : fd ≠ eh.getHandle .connection := fun heq =>
        hfd ⟨.connection, (hboth _).2 (by decide), heq.symm⟩
      have hfdk : fd ≠ eh.getHandle .completion := fun heq =>
        hfd ⟨.completion, (hboth _).2 (by decide), heq.symm⟩
      exact (hsame₁ fd (.inl hfdc)).trans (hsame₂ fd (.inl hfdk))
    · have h1 := hsame₁ fd (.inr hnone)
      exact h1.trans (hsame₂ fd (.inr (h1.eventTable.trans hnone)))

end EventHandler

end RpmaReplica
