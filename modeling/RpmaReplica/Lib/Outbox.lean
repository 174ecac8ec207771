import RpmaReplica.Lib.Exec
import RpmaReplica.Lib.Machine

/-!
# A buffer that is read while it is sent

A sender writes messages into one buffer and posts sends from it.  A send that is posted reads
the buffer itself, at any moments it likes, until it is completed; nothing is copied at the
post.  The sender goes on meanwhile.

`Sender.outbox` is the machine of a sender together with its sends.  If the sender never
overwrites the buffer while a send is in flight, then every send reads what the buffer held when
it was posted (`Sender.Lawful.intact`); a send may read several times, so this covers what is
put together from several looks at the buffer.
-/

namespace RpmaReplica

/-- A machine with a buffer, and what the buffer held at each post so far. -/
structure Sender (σ α β : Type) where
  machine : Machine σ α
  buffer : Lens σ β
  sent : σ → List β

/-- A sender with its sends, which are numbered in the order of their posts: the sends that are
completed, and what each look of a send at the buffer has seen. -/
structure Outbox (σ β : Type) where
  sender : σ
  completed : List ℕ
  seen : List (ℕ × β)

/-- A step of the sender, a look of a send at the buffer, or the completion of a send. -/
inductive OutboxAct (α : Type)
  | act (a : α)
  | look (i : ℕ)
  | complete (i : ℕ)

namespace Sender

variable {σ α β : Type} (S : Sender σ α β)

/-- A sender all of whose sends are still to come. -/
def start (s : σ) : Outbox σ β := ⟨s, [], []⟩

/-- The send is posted and not completed. -/
def InFlight (o : Outbox σ β) (i : ℕ) : Prop := i < (S.sent o.sender).length ∧ i ∉ o.completed

instance (o : Outbox σ β) (i : ℕ) : Decidable (S.InFlight o i) :=
  inferInstanceAs (Decidable (_ ∧ _))

/-- The sender and its sends, in any interleaving. -/
def outbox : Machine (Outbox σ β) (OutboxAct α) where
  step o
    | .act a => (S.machine.step o.sender a).map fun s => { o with sender := s }
    | .look i =>
      if S.InFlight o i then some { o with seen := o.seen ++ [(i, S.buffer.get o.sender)] }
      else none
    | .complete i =>
      if S.InFlight o i then some { o with completed := o.completed ++ [i] } else none

/-- The step writes the buffer: not every content that the buffer may have before it is still
there after it. -/
def Overwrites (s : σ) (a : α) : Prop :=
  ∃ b t, S.machine.step (S.buffer.set b s) a = some t ∧ S.buffer.get t ≠ b

/-- The step does not write the buffer while a send is in flight. -/
def Spares (o : Outbox σ β) : OutboxAct α → Prop
  | .act a => S.Overwrites o.sender a → ∀ i, ¬S.InFlight o i
  | .look _ | .complete _ => True

/-- Every send in flight is of what the buffer holds, and every look of a send has seen what the
buffer held when it was posted. -/
structure Intact (o : Outbox σ β) : Prop where
  inFlight : ∀ i, S.InFlight o i → (S.sent o.sender)[i]? = some (S.buffer.get o.sender)
  seen : ∀ p ∈ o.seen, (S.sent o.sender)[p.1]? = some p.2

/-- Along the run, the buffer is never overwritten while a send is in flight, and what is
delivered for each send is what the buffer held when it was posted. -/
def Unchanged (o : Outbox σ β) (as : List (OutboxAct α)) : Prop :=
  S.outbox.Meets S.Spares o as ∧ S.outbox.Always S.Intact o as

/-- Sends are only added to those posted before, and a step posts what it leaves in the
buffer. -/
def Lawful : Prop :=
  ∀ s a t, S.machine.step s a = some t →
    ∃ n, S.sent t = S.sent s ++ List.replicate n (S.buffer.get t)

variable {S}

/-- What a step of the whole is. -/
lemma step_cases {o u : Outbox σ β} {a : OutboxAct α} (h : S.outbox.step o a = some u) :
    (∃ x s, a = .act x ∧ S.machine.step o.sender x = some s ∧ u = { o with sender := s }) ∨
    (∃ i, a = .look i ∧ S.InFlight o i ∧
      u = { o with seen := o.seen ++ [(i, S.buffer.get o.sender)] }) ∨
    (∃ i, a = .complete i ∧ S.InFlight o i ∧ u = { o with completed := o.completed ++ [i] }) := by
  cases a with
  | act x =>
      simp only [outbox, Option.map_eq_some_iff] at h
      obtain ⟨s, hs, rfl⟩ := h
      exact .inl ⟨x, s, rfl, hs, rfl⟩
  | look i =>
      simp only [outbox, Option.ite_none_right_eq_some, Option.some.injEq] at h
      exact .inr (.inl ⟨i, rfl, h.1, h.2.symm⟩)
  | complete i =>
      simp only [outbox, Option.ite_none_right_eq_some, Option.some.injEq] at h
      exact .inr (.inr ⟨i, rfl, h.1, h.2.symm⟩)

lemma step_act {s t : σ} {a : α} (h : S.machine.step s a = some t) :
    S.outbox.step (start s) (.act a) = some (start t) := by
  simp only [outbox, start, h, Option.map_some]

/-- The sender goes on while no send looks at the buffer and none is completed. -/
lemma run_acts {s t : σ} {as : List α} (h : S.machine.Run s as t) :
    S.outbox.Run (start s) (as.map .act) (start t) := by
  induction h with
  | nil => exact .nil _
  | snoc _ hstep ih =>
      rw [List.map_append]
      exact ih.snoc (step_act hstep)

lemma step_look {o : Outbox σ β} {i : ℕ} (h : S.InFlight o i) :
    S.outbox.step o (.look i) =
      some { o with seen := o.seen ++ [(i, S.buffer.get o.sender)] } := by
  simp only [outbox, if_pos h]

/-- A step that does not write the buffer leaves it as it is. -/
lemma buffer_of_not_overwrites {s t : σ} {a : α} (h : ¬S.Overwrites s a)
    (hstep : S.machine.step s a = some t) : S.buffer.get t = S.buffer.get s := by
  by_contra hne
  refine h ⟨S.buffer.get s, t, ?_, hne⟩
  rw [S.buffer.set_get]
  exact hstep

/-- **One step** that spares the buffer keeps every message intact. -/
lemma Lawful.intact_step (hS : S.Lawful) {o u : Outbox σ β} {a : OutboxAct α} (h : S.Intact o)
    (hspares : S.Spares o a) (hstep : S.outbox.step o a = some u) : S.Intact u := by
  obtain ⟨x, s, rfl, hs, rfl⟩ | ⟨i, rfl, hi, rfl⟩ | ⟨i, rfl, hi, rfl⟩ := step_cases hstep
  · obtain ⟨n, hsent⟩ := hS o.sender x s hs
    have hold : ∀ i, i < (S.sent o.sender).length → (S.sent s)[i]? = (S.sent o.sender)[i]? := by
      intro i hi
      rw [hsent, List.getElem?_append_left hi]
    refine ⟨fun i ⟨hlt, hcompleted⟩ => ?_, fun p hp => ?_⟩
    · by_cases hi : i < (S.sent o.sender).length
      · -- an earlier send, still in flight: so the step has not written the buffer
        have hnot : ¬S.Overwrites o.sender x := fun hw => hspares hw i ⟨hi, hcompleted⟩
        rw [hold i hi, buffer_of_not_overwrites hnot hs]
        exact h.inFlight i ⟨hi, hcompleted⟩
      · rw [hsent, List.getElem?_append_right (not_lt.1 hi), List.getElem?_replicate,
          if_pos]
        have hlen : (S.sent s).length = (S.sent o.sender).length + n := by
          rw [hsent, List.length_append, List.length_replicate]
        have hlt' : i < (S.sent s).length := hlt
        omega
    · have hp' := h.seen p hp
      rw [hold p.1 (List.getElem?_eq_some_iff.1 hp').1]
      exact hp'
  · refine ⟨h.inFlight, fun p hp => ?_⟩
    rcases List.mem_append.1 hp with hp | hp
    · exact h.seen p hp
    · obtain rfl := List.mem_singleton.1 hp
      exact h.inFlight i hi
  · refine ⟨fun j ⟨hlt, hcompleted⟩ => h.inFlight j ⟨hlt, fun hj => ?_⟩, h.seen⟩
    exact hcompleted (List.mem_append_left _ hj)

/-- **A sender that spares its buffer delivers what it posted**, in every state of the run. -/
theorem Lawful.intact (hS : S.Lawful) {o u : Outbox σ β} {as : List (OutboxAct α)}
    (h : S.Intact o) (hrun : S.outbox.Run o as u) (hspares : S.outbox.Meets S.Spares o as) :
    S.Intact u :=
  Machine.Meets.invariant h (fun _ _ _ ht hC hs => hS.intact_step ht hC hs) hrun hspares

lemma intact_start {s : σ} (h : S.sent s = []) : S.Intact (start s) where
  inFlight i hi := by simp [InFlight, start, h] at hi
  seen := by simp [start]

/-- **The runs in which no message is changed**, for a sender of which it is known when a step
writes the buffer. -/
theorem Lawful.unchanged_iff (hS : S.Lawful) {W : σ → α → Prop}
    (hwrites : ∀ s a t, S.machine.step s a = some t → (S.Overwrites s a ↔ W s a)) {s : σ}
    (hs : S.sent s = []) {as : List (OutboxAct α)} {u : Outbox σ β}
    (hrun : S.outbox.Run (start s) as u) :
    S.Unchanged (start s) as ↔ S.outbox.Meets
      (fun o a => ∀ x, a = .act x → W o.sender x → ∀ i, ¬S.InFlight o i) (start s) as := by
  have hmeets : S.outbox.Meets S.Spares (start s) as ↔ S.outbox.Meets
      (fun o a => ∀ x, a = .act x → W o.sender x → ∀ i, ¬S.InFlight o i) (start s) as := by
    refine Machine.meets_congr hrun fun o a v hstep => ?_
    obtain ⟨x, t, rfl, ht, -⟩ | ⟨i, rfl, -, -⟩ | ⟨i, rfl, -, -⟩ := step_cases hstep
    · rw [Spares, hwrites _ _ _ ht]
      constructor
      · rintro h _ heq
        cases heq
        exact h
      · exact fun h => h x rfl
    · exact ⟨fun _ x heq => (by cases heq), fun _ => trivial⟩
    · exact ⟨fun _ x heq => (by cases heq), fun _ => trivial⟩
  rw [Unchanged, ← hmeets]
  refine ⟨fun h => h.1, fun h => ⟨h, fun bs t hbs ht => ?_⟩⟩
  exact hS.intact (intact_start hs) ht (h.initial hbs)

end Sender

end RpmaReplica
