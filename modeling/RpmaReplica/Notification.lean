import RpmaReplica.ConnectionHandler
import RpmaReplica.Lib.Machine

/-!
# Completions and the events that announce them

The reactor calls `handle_completion` when an event is pending on the completion fd.  Each
call consumes one event, re-arms the queue and takes one completion.  This file follows the
queue through any sequence of arrivals and calls, with completions arriving at any point of
a call, and settles in which runs a completion is left behind without an event to announce
it.
-/

namespace RpmaReplica

namespace Cq

/-- What one call of `handle_completion` does to the queue. -/
def handled (env : ConnectionHandler.CompletionEnv) (cq : Cq) : Cq :=
  match (cq.arriveAll env.beforeWait).waitOr env.waitFault with
  | (.error _, waited) => waited
  | (.ok _, waited) =>
    ((waited.arriveAll env.beforeGet).getOr env.getFault).2.arriveAll env.afterGet

/-- The queue is armed exactly while no event is pending, and at most one ever is. -/
structure Sound (cq : Cq) : Prop where
  armed_iff : cq.armed = true ↔ cq.events = 0
  events_le : cq.events ≤ 1

/-- A completion in the queue is announced by a pending event. -/
def Announced (cq : Cq) : Prop := cq.queue ≠ [] → 0 < cq.events

instance (cq : Cq) : Decidable cq.Announced := inferInstanceAs (Decidable (_ → _))

lemma create_sound : create.Sound := ⟨by decide, by decide⟩

lemma create_announced : create.Announced := by decide

lemma arrive_sound {cq : Cq} (h : cq.Sound) (c : Completion) :
    (cq.arrive c).Sound ∧ (cq.arrive c).events = 1 := by
  obtain ⟨h1, h2⟩ := h
  have hev : (cq.arrive c).events = 1 := by
    rw [arrive]
    cases ha : cq.armed with
    | true => simp [h1.1 ha]
    | false =>
        have : cq.events ≠ 0 := fun h0 => by simp [h1.2 h0] at ha
        simp
        omega
  refine ⟨⟨?_, hev.le⟩, hev⟩
  rw [hev]
  simp [arrive]

lemma queue_arriveAll (cq : Cq) (cs : List Completion) :
    (cq.arriveAll cs).queue = cq.queue ++ cs := by
  rw [arriveAll]
  induction cs generalizing cq with
  | nil => simp
  | cons c cs ih => simp [ih, arrive]

/-- Arrivals keep the queue sound, and the first of them leaves an event pending. -/
lemma arriveAll_sound {cq : Cq} (h : cq.Sound) (cs : List Completion) :
    (cq.arriveAll cs).Sound ∧
      (cq.arriveAll cs).events = if cs = [] then cq.events else 1 := by
  rw [arriveAll]
  induction cs generalizing cq with
  | nil => exact ⟨h, by simp⟩
  | cons c cs ih =>
      obtain ⟨hs, he⟩ := arrive_sound h c
      obtain ⟨hs', he'⟩ := ih hs
      refine ⟨hs', ?_⟩
      rw [List.foldl_cons, he', he]
      simp

lemma wait_of_pending {cq : Cq} (h : cq.Sound) (hpos : 0 < cq.events) :
    cq.wait = (.ok (), { cq with events := 0, armed := true }) := by
  have h1 : cq.events = 1 := le_antisymm h.events_le hpos
  simp [wait, h1]

lemma get_snd (cq : Cq) : cq.get.2 = { cq with queue := cq.queue.tail } := by
  rw [get]
  cases hq : cq.queue with
  | nil =>
      obtain ⟨q, a, e⟩ := cq
      simp only at hq
      subst hq
      rfl
  | cons c cs => rfl

lemma get_sound {cq : Cq} (h : cq.Sound) : cq.get.2.Sound := by
  rw [get_snd]
  exact ⟨h.armed_iff, h.events_le⟩

/-- **One call of `handle_completion`**, made while an event is pending and without faults:
one completion is taken, and an event is pending afterwards exactly if a completion has
arrived since the queue was re-armed. -/
lemma handled_eq {cq : Cq} (h : cq.Sound) (hpos : 0 < cq.events)
    {env : ConnectionHandler.CompletionEnv} (hw : env.waitFault = none)
    (hg : env.getFault = none) :
    (cq.handled env).Sound ∧
      (cq.handled env).queue = (cq.queue ++ env.beforeWait ++ env.beforeGet).tail ++ env.afterGet ∧
      (cq.handled env).events = if env.beforeGet = [] ∧ env.afterGet = [] then 0 else 1 := by
  obtain ⟨hs₁, he₁⟩ := arriveAll_sound h env.beforeWait
  have hpos₁ : 0 < (cq.arriveAll env.beforeWait).events := by
    rw [he₁]
    split
    · exact hpos
    · exact Nat.one_pos
  -- after `wait` the queue is armed and no event is pending
  obtain ⟨cq₂, hcq₂⟩ : ∃ cq₂ : Cq,
      cq₂ = { cq.arriveAll env.beforeWait with events := 0, armed := true } := ⟨_, rfl⟩
  have hs₂ : cq₂.Sound := by
    subst hcq₂
    exact ⟨by simp, by simp⟩
  have hwait : (cq.arriveAll env.beforeWait).waitOr env.waitFault = (.ok (), cq₂) := by
    rw [hw, hcq₂]
    exact wait_of_pending hs₁ hpos₁
  have hhandled : cq.handled env = (cq₂.arriveAll env.beforeGet).get.2.arriveAll env.afterGet := by
    rw [handled]
    rw [hwait, hg]
    rfl
  have hq₂ : cq₂.queue = cq.queue ++ env.beforeWait := by
    rw [hcq₂]
    exact queue_arriveAll cq env.beforeWait
  have he₂ : cq₂.events = 0 := by rw [hcq₂]
  obtain ⟨hs₃, he₃⟩ := arriveAll_sound hs₂ env.beforeGet
  obtain ⟨hs₅, he₅⟩ := arriveAll_sound (get_sound hs₃) env.afterGet
  rw [hhandled]
  refine ⟨hs₅, ?_, ?_⟩
  · simp only [queue_arriveAll, get_snd, hq₂]
  · rw [he₅, get_snd, he₃, he₂]
    by_cases h1 : env.beforeGet = [] <;> by_cases h2 : env.afterGet = [] <;> simp [h1, h2]

end Cq

/-! ### `handle_completion` and the queue -/

namespace ConnectionHandler

variable {κ σ : Type}

/-- The callbacks of one end of a connection: how the handler is part of its state, and what
the callbacks do, which is not to touch the completion queue. -/
structure Callbacks (σ κ : Type) where
  lens : Lens σ (ConnectionHandler κ)
  run : κ → Prog σ Unit
  keeps_cq : ∀ k s, (lens.get (run k s).state).conn.cq = (lens.get s).conn.cq

namespace Callbacks

variable (cb : Callbacks σ κ)

/-- The completion queue in a state. -/
def cq (s : σ) : Cq := (cb.lens.get s).conn.cq

/-- The state with another completion queue. -/
def setCq (s : σ) (cq : Cq) : σ :=
  let h := cb.lens.get s
  cb.lens.set { h with conn := { h.conn with cq := cq } } s

@[simp] lemma cq_setCq (s : σ) (cq : Cq) : cb.cq (cb.setCq s cq) = cq := by
  simp [Callbacks.cq, setCq]

@[simp] lemma setCq_setCq (s : σ) (cq cq' : Cq) :
    cb.setCq (cb.setCq s cq) cq' = cb.setCq s cq' := by
  simp [setCq]

lemma doCallback_cq (op : OpId) (s : σ) :
    cb.cq (doCallback cb.lens cb.run op s).state = cb.cq s := by
  rw [doCallback]
  simp only [Exec.bind_apply, Exec.read_apply, Outcome.andThen_ok]
  rcases (cb.lens.get s).ops.lookup op with _ | _ | k
  · rfl
  · rfl
  · exact cb.keeps_cq k s

lemma retire_cq (op : OpId) (s : σ) :
    cb.cq (retire cb.lens cb.run op s).state = cb.cq s := by
  rw [retire, eraseOp, deleteOp]
  have h := cb.doCallback_cq op
    (cb.lens.set { cb.lens.get s with
      callbackTable := (cb.lens.get s).callbackTable.erase op } s)
  simp only [Callbacks.cq] at h ⊢
  simpa using h

/-- Retiring an operation runs its callback, with the operation already out of the table. -/
lemma retire_eq {op : OpId} {k : κ} {s : σ}
    (hop : (cb.lens.get s).ops.lookup op = some (some k)) :
    let s' := cb.lens.set { cb.lens.get s with
      callbackTable := (cb.lens.get s).callbackTable.erase op } s
    (retire cb.lens cb.run op s).result = (cb.run k s').result ∧
      ∀ p ∈ (cb.run k s').calls, p ∈ (retire cb.lens cb.run op s).calls := by
  intro s'
  have hcall : doCallback cb.lens cb.run op s' = cb.run k s' := by
    simp [doCallback, s', hop]
  have hretire : retire cb.lens cb.run op s =
      (Exec.ensuring (doCallback cb.lens cb.run op) (Exec.zoom cb.lens (deleteOp op))) s' := by
    simp [retire, eraseOp, s']
  rw [hretire, Exec.ensuring_apply, hcall]
  exact ⟨rfl, fun p hp => List.mem_append_left _ hp⟩

lemma wait_result (env : CompletionEnv) (s : σ) :
    (Exec.zoom cb.lens (connCompletionWait env) s).result =
      .ok (((cb.cq s).arriveAll env.beforeWait).waitOr env.waitFault).1 := by
  simp [connCompletionWait, ConnectionHandler.setCq, Callbacks.cq]

lemma get_result (env : CompletionEnv) (s : σ) :
    (Exec.zoom cb.lens (connCompletionGet env) s).result =
      .ok (((cb.cq s).arriveAll env.beforeGet).getOr env.getFault).1 := by
  simp [connCompletionGet, ConnectionHandler.setCq, Callbacks.cq]

lemma wait_state (env : CompletionEnv) (s : σ) :
    (Exec.zoom cb.lens (connCompletionWait env) s).state =
      cb.setCq s (((cb.cq s).arriveAll env.beforeWait).waitOr env.waitFault).2 := by
  simp [connCompletionWait, ConnectionHandler.setCq, Callbacks.setCq, Callbacks.cq]

lemma get_state (env : CompletionEnv) (s : σ) :
    (Exec.zoom cb.lens (connCompletionGet env) s).state =
      cb.setCq s ((((cb.cq s).arriveAll env.beforeGet).getOr env.getFault).2.arriveAll
        env.afterGet) := by
  simp [connCompletionGet, ConnectionHandler.setCq, Callbacks.setCq, Callbacks.cq]

lemma wait_calls (env : CompletionEnv) (s : σ) :
    (Exec.zoom cb.lens (connCompletionWait env) s).calls.map Prod.snd =
      [.connCompletionWait (((cb.cq s).arriveAll env.beforeWait).waitOr env.waitFault).1] := by
  simp [connCompletionWait, ConnectionHandler.setCq, Callbacks.cq]

lemma get_calls (env : CompletionEnv) (s : σ) :
    (Exec.zoom cb.lens (connCompletionGet env) s).calls.map Prod.snd =
      [.connCompletionGet (((cb.cq s).arriveAll env.beforeGet).getOr env.getFault).1] := by
  simp [connCompletionGet, ConnectionHandler.setCq, Callbacks.cq]

lemma completionFailed_cq (e : RpmaError) (s : σ) :
    cb.cq (completionFailed cb.lens e s).state = cb.cq s := by
  rw [completionFailed]
  by_cases he : e = .noCompletion
  · simp [he]
  · simp [he, disconnect, Callbacks.cq]

lemma completionTaken_cq (cmpl : Completion) (s : σ) :
    cb.cq (completionTaken cb.lens cb.run cmpl s).state = cb.cq s := by
  rw [completionTaken]
  by_cases hs : cmpl.success = false
  · simp [hs]
  · rw [if_neg hs]
    cases cmpl.opContext with
    | none => rfl
    | some op =>
        simp only [Exec.bind_apply, Exec.andThen_pure]
        exact cb.retire_cq op s

lemma completionGot_cq (got : Rpma Completion) (s : σ) :
    cb.cq (completionGot cb.lens cb.run got s).state = cb.cq s := by
  cases got with
  | error e => exact cb.completionFailed_cq e s
  | ok cmpl => exact cb.completionTaken_cq cmpl s

/-- A call of `handle_completion` in which `rpma_conn_completion_wait` fails. -/
lemma handleCompletion_waitFailed {env : CompletionEnv} {s : σ} {waited : Cq} {e : RpmaError}
    (hwait : ((cb.cq s).arriveAll env.beforeWait).waitOr env.waitFault = (.error e, waited)) :
    ∃ pre, pre.map Prod.snd = [.connCompletionWait (.error e)] ∧
      handleCompletion cb.lens cb.run env s =
        ⟨pre ++ (completionFailed cb.lens e (cb.setCq s waited)).calls,
          (completionFailed cb.lens e (cb.setCq s waited)).state,
          (completionFailed cb.lens e (cb.setCq s waited)).result⟩ := by
  refine ⟨(Exec.zoom cb.lens (connCompletionWait env) s).calls, ?_, ?_⟩
  · rw [cb.wait_calls, hwait]
  · rw [handleCompletion, Exec.bind_apply, Outcome.andThen_of_ok (cb.wait_result env s),
      cb.wait_state, hwait]
    rfl

/-- A call of `handle_completion` that gets as far as `rpma_conn_completion_get`. -/
lemma handleCompletion_got {env : CompletionEnv} {s : σ} {waited q : Cq} {got : Rpma Completion}
    (hwait : ((cb.cq s).arriveAll env.beforeWait).waitOr env.waitFault = (.ok (), waited))
    (hget : (waited.arriveAll env.beforeGet).getOr env.getFault = (got, q)) :
    ∃ pre, pre.map Prod.snd = [.connCompletionWait (.ok ()), .connCompletionGet got] ∧
      handleCompletion cb.lens cb.run env s =
        ⟨pre ++ (completionGot cb.lens cb.run got (cb.setCq s (q.arriveAll env.afterGet))).calls,
          (completionGot cb.lens cb.run got (cb.setCq s (q.arriveAll env.afterGet))).state,
          (completionGot cb.lens cb.run got (cb.setCq s (q.arriveAll env.afterGet))).result⟩ := by
  refine ⟨(Exec.zoom cb.lens (connCompletionWait env) s).calls ++
    (Exec.zoom cb.lens (connCompletionGet env) (cb.setCq s waited)).calls, ?_, ?_⟩
  · rw [List.map_append, cb.wait_calls, cb.get_calls, hwait, cb.cq_setCq, hget]
    rfl
  · rw [handleCompletion, Exec.bind_apply, Outcome.andThen_of_ok (cb.wait_result env s),
      cb.wait_state, hwait]
    simp only [completionWaited, Exec.bind_apply]
    rw [Outcome.andThen_of_ok (cb.get_result env _), cb.get_state, cb.cq_setCq, hget,
      cb.setCq_setCq]
    simp

/-- `handle_completion` does to the queue what `Cq.handled` says, whatever it finds there. -/
lemma handleCompletion_cq (env : CompletionEnv) (s : σ) :
    cb.cq (handleCompletion cb.lens cb.run env s).state = (cb.cq s).handled env := by
  rw [Cq.handled]
  rcases hwait : ((cb.cq s).arriveAll env.beforeWait).waitOr env.waitFault with ⟨e | u, waited⟩
  · obtain ⟨pre, -, heq⟩ := cb.handleCompletion_waitFailed hwait
    rw [heq]
    simp only [cb.completionFailed_cq, cb.cq_setCq]
  · rcases hget : (waited.arriveAll env.beforeGet).getOr env.getFault with ⟨got, q⟩
    obtain ⟨pre, -, heq⟩ := cb.handleCompletion_got hwait hget
    rw [heq]
    simp only [cb.completionGot_cq, cb.cq_setCq, hget]

/-- A call of `handle_completion` that finds a successful completion of an operation retires
the operation. -/
lemma handleCompletion_take {env : CompletionEnv} {s : σ} {waited : Cq} {cmpl : Completion}
    {got : Cq} {op : OpId}
    (hwait : ((cb.cq s).arriveAll env.beforeWait).waitOr env.waitFault = (.ok (), waited))
    (hget : (waited.arriveAll env.beforeGet).getOr env.getFault = (.ok cmpl, got))
    (hsuccess : cmpl.success = true) (hctx : cmpl.opContext = some op) :
    ∃ pre, (handleCompletion cb.lens cb.run env s).calls =
        pre ++ (retire cb.lens cb.run op (cb.setCq s (got.arriveAll env.afterGet))).calls ∧
      (handleCompletion cb.lens cb.run env s).state =
        (retire cb.lens cb.run op (cb.setCq s (got.arriveAll env.afterGet))).state ∧
      (handleCompletion cb.lens cb.run env s).result =
        (retire cb.lens cb.run op (cb.setCq s (got.arriveAll env.afterGet))).result.map
          fun _ => 0 := by
  obtain ⟨pre, -, heq⟩ := cb.handleCompletion_got hwait hget
  rw [heq]
  simp only [completionGot, completionTaken, hsuccess, hctx, Bool.true_eq_false, if_false,
    Exec.bind_apply]
  rw [Exec.andThen_pure]
  exact ⟨pre, rfl, rfl, rfl⟩

end Callbacks

/-! ### Runs -/

/-- What can happen to a connection that is served by a reactor: a completion arrives while
no call is in progress, or the reactor calls `handle_completion`. -/
inductive CompletionAct
  | arrive (c : Completion)
  | handle (env : CompletionEnv)
  deriving DecidableEq

/-- The reactor calls `handle_completion` exactly while an event is pending, and the calls of
librpma obey the notification rules. -/
def completionMachine (cb : Callbacks σ κ) : Machine σ CompletionAct where
  step s
    | .arrive c => some (cb.setCq s ((cb.cq s).arrive c))
    | .handle env =>
      if 0 < (cb.cq s).events ∧ env.waitFault = none ∧ env.getFault = none then
        some (handleCompletion cb.lens cb.run env s).state
      else none

lemma completionMachine_handle (cb : Callbacks σ κ) {s : σ} (env : CompletionEnv)
    (hpos : 0 < (cb.cq s).events) (hw : env.waitFault = none) (hg : env.getFault = none) :
    (completionMachine cb).step s (.handle env) =
      some (handleCompletion cb.lens cb.run env s).state :=
  if_pos ⟨hpos, hw, hg⟩

/-- A call of `handle_completion` leaves nothing behind: it finds at most one completion
when it re-arms the queue, or a further one arrives before it returns. -/
def LeavesNothing (cb : Callbacks σ κ) (s : σ) : CompletionAct → Prop
  | .arrive _ => True
  | .handle env => ((cb.cq s).queue ++ env.beforeWait).length ≤ 1 ∨
      env.beforeGet ≠ [] ∨ env.afterGet ≠ []

/-- A step of the machine on the completion queue. -/
lemma completionMachine_cases {cb : Callbacks σ κ} {s u : σ} {a : CompletionAct}
    (hstep : (completionMachine cb).step s a = some u) :
    (∃ c, a = .arrive c ∧ cb.cq u = (cb.cq s).arrive c) ∨
    (∃ env, a = .handle env ∧ 0 < (cb.cq s).events ∧ env.waitFault = none ∧
      env.getFault = none ∧ cb.cq u = (cb.cq s).handled env) := by
  cases a with
  | arrive c =>
      obtain rfl : cb.setCq s ((cb.cq s).arrive c) = u := by
        simpa [completionMachine] using hstep
      exact .inl ⟨c, rfl, cb.cq_setCq _ _⟩
  | handle env =>
      simp only [completionMachine, Option.ite_none_right_eq_some, Option.some.injEq] at hstep
      obtain ⟨⟨hpos, hw, hg⟩, rfl⟩ := hstep
      exact .inr ⟨env, rfl, hpos, hw, hg, cb.handleCompletion_cq env s⟩

/-- A call that leaves nothing behind leaves nothing unannounced. -/
lemma announced_handled {cb : Callbacks σ κ} {s : σ} {env : CompletionEnv}
    (hs : (cb.cq s).Sound) (hpos : 0 < (cb.cq s).events) (hw : env.waitFault = none)
    (hg : env.getFault = none) (hleaves : LeavesNothing cb s (.handle env)) :
    ((cb.cq s).handled env).Announced := by
  obtain ⟨-, hq, he⟩ := Cq.handled_eq hs hpos hw hg
  rw [Cq.Announced]
  rw [hq, he]
  intro hne
  split
  · rename_i h
    obtain ⟨h1, h2⟩ := h
    simp only [LeavesNothing, h1, h2, ne_eq, not_true, or_false] at hleaves
    rw [h1, h2, List.append_nil, List.append_nil] at hne
    refine absurd (List.eq_nil_of_length_eq_zero ?_) hne
    rw [List.length_tail]
    omega
  · exact Nat.one_pos

/-- A call that leaves something behind leaves it unannounced. -/
lemma not_announced_handled {cb : Callbacks σ κ} {s : σ} {env : CompletionEnv}
    (hs : (cb.cq s).Sound) (hpos : 0 < (cb.cq s).events) (hw : env.waitFault = none)
    (hg : env.getFault = none) (hleaves : ¬LeavesNothing cb s (.handle env)) :
    ¬((cb.cq s).handled env).Announced := by
  obtain ⟨-, hq, he⟩ := Cq.handled_eq hs hpos hw hg
  simp only [LeavesNothing, not_or, not_le, not_not] at hleaves
  obtain ⟨hlen, h1, h2⟩ := hleaves
  rw [Cq.Announced]
  rw [hq, he, h1, h2, List.append_nil, List.append_nil]
  intro hann
  have hne : ((cb.cq s).queue ++ env.beforeWait).tail ≠ [] := by
    intro h
    have hzero := congrArg List.length h
    rw [List.length_tail, List.length_nil] at hzero
    omega
  exact absurd (hann hne) (by simp)

/-- **When a completion is stranded.**  In a run from a new connection, every completion in
the queue is announced by a pending event in all states between two calls if and only if no
call of `handle_completion` finds two or more completions when it re-arms the queue without
another one arriving before it returns. -/
theorem completions_announced_iff (cb : Callbacks σ κ) (s t : σ) (as : List CompletionAct)
    (h0 : cb.cq s = Cq.create) (hrun : (completionMachine cb).Run s as t) :
    (completionMachine cb).Always (fun s => (cb.cq s).Announced) s as ↔
      (completionMachine cb).Meets (LeavesNothing cb) s as := by
  refine Machine.always_iff (fun s => (cb.cq s).Sound ∧ (cb.cq s).Announced) ?_ ?_
    (fun s h => h.2) ?_ hrun
  · rw [h0]
    exact ⟨Cq.create_sound, Cq.create_announced⟩
  · rintro s a u ⟨hs, -⟩ hleaves hstep
    rcases completionMachine_cases hstep with ⟨c, rfl, hu⟩ | ⟨env, rfl, hpos, hw, hg, hu⟩
    · obtain ⟨hs', he⟩ := Cq.arrive_sound hs c
      rw [hu]
      exact ⟨hs', fun _ => by omega⟩
    · rw [hu]
      exact ⟨(Cq.handled_eq hs hpos hw hg).1, announced_handled hs hpos hw hg hleaves⟩
  · rintro s a u ⟨hs, -⟩ hleaves hstep
    rcases completionMachine_cases hstep with ⟨c, rfl, -⟩ | ⟨env, rfl, hpos, hw, hg, hu⟩
    · exact absurd trivial hleaves
    · rw [hu]
      exact not_announced_handled hs hpos hw hg hleaves

/-- A handler whose operations hold no callbacks. -/
def plainCallbacks : Callbacks (ConnectionHandler Empty) Empty where
  lens := Lens.self _
  run := fun k => k.elim
  keeps_cq := fun k => k.elim

/-- A new handler, its buffers zeroed. -/
def plain : ConnectionHandler Empty := create .zero .zero

/-- The completion of a send posted without a context. -/
def sendDone : Completion := ⟨none, .send, true⟩

/-- A call of `handle_completion` during which nothing arrives and nothing fails. -/
def quiet : CompletionEnv := ⟨[], none, [], none, []⟩

/-- A run in which one completion arrives and is handled. -/
theorem completions_announced_single :
    ∃ t, (completionMachine plainCallbacks).Run plain [.arrive sendDone, .handle quiet] t ∧
      (completionMachine plainCallbacks).Always (fun s => (plainCallbacks.cq s).Announced)
        plain [.arrive sendDone, .handle quiet] := by
  have r₁ : (completionMachine plainCallbacks).Run plain [.arrive sendDone]
      (plainCallbacks.setCq plain (Cq.create.arrive sendDone)) := Machine.Run.snoc (.nil _) rfl
  have r₂ := r₁.snoc (completionMachine_handle plainCallbacks quiet (by decide) rfl rfl)
  refine ⟨_, r₂, (completions_announced_iff plainCallbacks plain _ _ rfl r₂).2 ?_⟩
  exact (Machine.meets_singleton trivial).snoc r₁ (Or.inl (by decide))

/-- **A stranded completion.**  Two sends complete before the reactor calls
`handle_completion`; the call takes the first and returns, and the second stays in the queue
with no event pending. -/
theorem completion_stranded :
    ∃ t, (completionMachine plainCallbacks).Run plain
        [.arrive sendDone, .arrive sendDone, .handle quiet] t ∧
      (plainCallbacks.cq t).queue = [sendDone] ∧ (plainCallbacks.cq t).events = 0 ∧
      ¬(plainCallbacks.cq t).Announced := by
  have r₁ : (completionMachine plainCallbacks).Run plain [.arrive sendDone]
      (plainCallbacks.setCq plain (Cq.create.arrive sendDone)) := Machine.Run.snoc (.nil _) rfl
  have r₂ := r₁.snoc (a := .arrive sendDone) rfl
  have r₃ := r₂.snoc (completionMachine_handle plainCallbacks quiet (by decide) rfl rfl)
  refine ⟨_, r₃, ?_⟩
  rw [plainCallbacks.handleCompletion_cq]
  decide

end ConnectionHandler

end RpmaReplica
