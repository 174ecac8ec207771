import RpmaReplica.Reactor

/-!
# Failed registrations

`register_handler` writes the table entry before it calls `epoll_ctl`, and if that fails it
erases the entry of the fd, whether it had made it or found it.  `register_self` registers two
fds, and if the second registration fails it removes the first.  In a reactor that does not know
the fds yet this amounts to all or nothing; in general it does not: an entry that was there
before is gone afterwards, and if it was in use, epoll is left with a pointer to it.

`all_or_nothing_iff` says for every state of a reactor and every way in which the calls can fail
when a registration is all or nothing.
-/

namespace RpmaReplica

namespace Reactor

variable {r : Reactor}

/-! ### `register_handler` -/

/-- `register_handler` is all or nothing: if it fails, nothing has changed. -/
def AllOrNothing (r : Reactor) (res : ℤ × Reactor) : Prop := res.1 ≠ 0 → r.Unchanged res.2

/-- **When a failed `register_handler` has changed nothing**: unless `epoll_ctl` refuses an fd
that has an entry. -/
lemma registerHandler_allOrNothing_iff (h : r.IsTable) (env : RegisterEnv) (id : HandlerId)
    (eh : EventHandler) (et : EventType) :
    r.AllOrNothing (r.registerHandler env id eh et) ↔
      (Reaches env (eh.getHandle et) → Refused env r (eh.getHandle et) →
        r.eventTable (eh.getHandle et) = none) := by
  obtain ⟨ret, r', heq, hcases⟩ := registerHandler_inputs h env id eh et
  rw [heq, AllOrNothing]
  rcases hcases with ⟨hnot, hret, rfl⟩ | ⟨hreaches, hrefused, hret, hepoll, hcleared⟩ |
    ⟨hreaches, hnot, hret, hadded⟩
  · exact iff_of_true (fun _ => SameAt.refl r') fun hreaches => absurd hreaches hnot
  · have hiff := (hcleared.erased hepoll).unchanged_iff h
    simp only [List.mem_singleton, forall_eq] at hiff
    exact ⟨fun hall _ _ => hiff.1 (hall hret), fun hall _ => hiff.2 (hall hreaches hrefused)⟩
  · exact iff_of_true (fun hne => absurd hret hne) fun _ hrefused => absurd hrefused hnot

end Reactor

namespace EventHandler

open Reactor

/-! ### The two ends of a connection -/

/-- Where a failing `register_self` undoes something, nothing was there before. -/
structure NothingThere (env₁ env₂ : RegisterEnv) (r : Reactor) (c k : Handle) : Prop where
  /-- The connection fd is refused by `epoll_ctl`. -/
  refused : Reaches env₁ c → Refused env₁ r c → r.eventTable c = none
  /-- It is registered, and the checks on the completion fd fail. -/
  unchecked : Reaches env₁ c ∧ ¬Refused env₁ r c → ¬Reaches env₂ k → r.eventTable c = none
  /-- It is registered, and the completion fd is refused by `epoll_ctl`. -/
  second : Reaches env₁ c ∧ ¬Refused env₁ r c → Reaches env₂ k → k = c ∨ Refused env₂ r k →
    r.eventTable c = none ∧ r.eventTable k = none

/-- The reactor that a handler refers to, if there still is one, is exactly as it was. -/
def Untouched : Option Reactor → Option Reactor → Prop
  | some r, some r' => r.Unchanged r'
  | none, none => True
  | _, _ => False

/-- `register_self` is all or nothing: if it returns 0 both fds are registered, and otherwise the
reactor is exactly as it was. -/
def RegistersBoth (id : HandlerId) (c k : Handle) (reactor : Option Reactor)
    (res : ℤ × Option Reactor) : Prop :=
  (res.1 = 0 → ∃ r', res.2 = some r' ∧ r'.Registered id .connection c ∧
    r'.Registered id .completion k) ∧
  (res.1 ≠ 0 → Untouched reactor res.2)

lemma registerConnection_registersBoth_iff {r : Reactor} (h : r.IsTable) (env₁ env₂ : RegisterEnv)
    (id : HandlerId) (eh : EventHandler) {c k : Handle} (hc : eh.getHandle .connection = c)
    (hk : eh.getHandle .completion = k) :
    RegistersBoth id c k (some r) ((registerConnection env₁ env₂ id eh r).1,
        some (registerConnection env₁ env₂ id eh r).2) ↔ NothingThere env₁ env₂ r c k := by
  obtain ⟨ret, r', heq, -, hcases⟩ := registerConnection_inputs h env₁ env₂ id eh hc hk
  rw [heq]
  -- if it fails, what has been undone decides
  have hfail : ∀ {fds : List Handle}, ret ≠ 0 → r.Erased r' fds →
      (RegistersBoth id c k (some r) (ret, some r') ↔ ∀ fd ∈ fds, r.eventTable fd = none) := by
    intro fds hret herased
    rw [← herased.unchanged_iff h]
    exact ⟨fun hboth => hboth.2 hret, fun hsame => ⟨fun hzero => absurd hzero hret, fun _ => hsame⟩⟩
  rcases hcases with ⟨hnot, hret, he⟩ | ⟨hreaches, hrefused, hret, he⟩ | ⟨hfirst, hnot, hret, he⟩ |
    ⟨hfirst, hreaches, hrefused, hret, he⟩ | ⟨hfirst, hreaches, hnot, hret, hboth, -⟩
  · rw [hfail hret he]
    refine iff_of_true (by simp) ⟨fun hr => absurd hr hnot, fun hr => absurd hr.1 hnot,
      fun hr => absurd hr.1 hnot⟩
  · rw [hfail hret he]
    simp only [List.mem_singleton, forall_eq]
    exact ⟨fun hnone => ⟨fun _ _ => hnone, fun hr => absurd hrefused hr.2,
      fun hr => absurd hrefused hr.2⟩, fun hn => hn.refused hreaches hrefused⟩
  · rw [hfail hret he]
    simp only [List.mem_singleton, forall_eq]
    exact ⟨fun hnone => ⟨fun _ hr => absurd hr hfirst.2, fun _ _ => hnone,
      fun _ hr => absurd hr hnot⟩, fun hn => hn.unchecked hfirst hnot⟩
  · rw [hfail hret he]
    simp only [List.mem_cons, List.not_mem_nil, or_false, forall_eq_or_imp, forall_eq]
    exact ⟨fun hnone => ⟨fun _ hr => absurd hr hfirst.2, fun _ hr => absurd hreaches hr,
      fun _ _ _ => hnone⟩, fun hn => hn.second hfirst hreaches hrefused⟩
  · refine iff_of_true ⟨fun _ => ⟨r', rfl, hboth⟩, fun hne => absurd hret hne⟩ ?_
    exact ⟨fun _ hr => absurd hr hfirst.2, fun _ hr => absurd hreaches hr,
      fun _ _ hr => absurd hr hnot⟩

/-! ### All or nothing -/

/-- **When registration is all or nothing.**  In every state of a reactor, for every handler and
event type and however `fcntl` and `epoll_ctl` fail: `register_handler` changes nothing when it
fails if and only if it is not the case that `epoll_ctl` refuses an fd that has an entry;
`register_self`, at either end, registers both fds or leaves the reactor exactly as it was if and
only if nothing was there before where it undoes something; and once the reactor is gone it
returns 0 without having registered anything. -/
theorem all_or_nothing_iff {r : Reactor} (h : r.IsTable) (id : HandlerId) :
    (∀ env (eh : EventHandler) et, r.AllOrNothing (r.registerHandler env id eh et) ↔
      (Reaches env (eh.getHandle et) → Refused env r (eh.getHandle et) →
        r.eventTable (eh.getHandle et) = none)) ∧
    (∀ env₁ env₂ c k (eh : EventHandler), eh = .rpma c k ∨ eh = .client c k →
      (RegistersBoth id c k (some r) (eh.registerSelf env₁ env₂ id (some r)) ↔
        NothingThere env₁ env₂ r c k)) ∧
    (∀ env₁ env₂ c k (eh : EventHandler), eh = .rpma c k ∨ eh = .client c k →
      ¬RegistersBoth id c k none (eh.registerSelf env₁ env₂ id none)) := by
  refine ⟨fun env eh et => registerHandler_allOrNothing_iff h env id eh et, ?_, ?_⟩
  · rintro env₁ env₂ c k eh (rfl | rfl)
    · exact registerConnection_registersBoth_iff h env₁ env₂ id (.rpma c k) rfl rfl
    · exact registerConnection_registersBoth_iff h env₁ env₂ id (.client c k) rfl rfl
  · rintro env₁ env₂ c k eh (rfl | rfl) hboth
    · obtain ⟨r', hr', -⟩ := hboth.1 rfl
      cases hr'
    · obtain ⟨r', hr', -⟩ := hboth.1 rfl
      cases hr'

/-- An `epoll_ctl` that fails although the fd is new (`ENOMEM`). -/
def noMemory : RegisterEnv := ⟨none, none, some ⟨12, by decide⟩⟩

/-- In a new reactor, where `epoll_ctl` refuses the second fd, all is undone. -/
theorem all_or_nothing_new :
    RegistersBoth 0 3 4 (some Reactor.create)
      ((EventHandler.rpma 3 4).registerSelf .ok noMemory 0 (some Reactor.create)) :=
  ((all_or_nothing_iff create_inStep.toIsTable 0).2.1 .ok noMemory 3 4 (.rpma 3 4) (.inl rfl)).2
    ⟨fun _ _ => rfl, fun _ _ => rfl, fun _ _ _ => ⟨rfl, rfl⟩⟩

def accepting : Reactor := (Reactor.create.registerHandler .ok 0 (.acceptor 3) .accept).2

lemma accepting_isTable : accepting.IsTable := by
  obtain ⟨ret, r', heq, hcases⟩ :=
    registerHandler_cases create_inStep.toIsTable .ok 0 (.acceptor 3) .accept
  rw [accepting, heq]
  rcases hcases with ⟨-, hr⟩ | ⟨-, -, hcleared⟩ | ⟨-, -, -, hadded⟩
  · rw [hr]
    exact create_inStep.toIsTable
  · exact hcleared.isTable
  · exact hadded.isTable

/-- **A registration that destroys another.**  A client whose connection fd is 3 is registered in
a reactor that has an acceptor under this fd: `register_handler` returns `EEXIST`, the entry of
the acceptor is gone, and epoll still has its fd.  And without a reactor `register_self`
returns 0. -/
theorem registration_destroys_entry :
    accepting.IsTable ∧
    (∃ r', accepting.registerHandler .ok 1 (.client 3 4) .connection = (eexist.val, r') ∧
      accepting.entry 3 = some ⟨.accept, 0⟩ ∧ r'.entry 3 = none ∧ r'.epoll 3 ≠ none ∧
      ¬accepting.AllOrNothing (eexist.val, r')) ∧
    ¬RegistersBoth 1 3 4 none ((EventHandler.client 3 4).registerSelf .ok .ok 1 none) := by
  refine ⟨accepting_isTable, ⟨_, rfl, by decide, by decide, by decide, ?_⟩, ?_⟩
  · intro hall
    have hentry := (hall (by decide) 3).entry
    exact absurd hentry (by decide)
  · rintro ⟨hzero, -⟩
    obtain ⟨r', hr', -⟩ := hzero rfl
    cases hr'

end EventHandler

end RpmaReplica
