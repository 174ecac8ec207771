import Mathlib

/-!
# Programs that call out, may stop, and keep their state

`Exec ω ε σ α` is a program with state `σ` that makes calls `ω` to the outside, may stop
with `ε` (an exception, an abort), and otherwise returns a value.  A run of it yields its
outcome: the calls made, each with the state in which it was made, the final state and the
result.  A program that stops keeps the state it had reached, as an object does when an
exception leaves one of its methods.

`Exec.Sat P C m Q` is the rule of pre- and postconditions for such programs: from a state
satisfying `P`, every call is made in accordance with `C`, and the outcome satisfies `Q`.
-/

namespace RpmaReplica

/-- What a successful sequence of two fallible computations did. -/
lemma except_bind_eq_ok {ε α β : Type} {x : Except ε α} {f : α → Except ε β} {b : β} :
    x >>= f = .ok b ↔ ∃ a, x = .ok a ∧ f a = .ok b := by
  cases x <;> simp [Bind.bind, Except.bind]

/-- What a run of a program did: the calls it made with the states they were made in, the
state it ended in, and its result. -/
structure Outcome (ω ε σ α : Type) where
  calls : List (σ × ω)
  state : σ
  result : Except ε α

/-- A program with calls `ω`, stops `ε` and state `σ`. -/
def Exec (ω ε σ α : Type) : Type := σ → Outcome ω ε σ α

variable {ω ε σ τ α β : Type}

/-- Continue an outcome with a further program, unless it has stopped. -/
def Outcome.andThen (o : Outcome ω ε σ α) (f : α → Exec ω ε σ β) : Outcome ω ε σ β :=
  match o.result with
  | .ok a => ⟨o.calls ++ (f a o.state).calls, (f a o.state).state, (f a o.state).result⟩
  | .error e => ⟨o.calls, o.state, .error e⟩

@[simp] lemma Outcome.andThen_ok (cs : List (σ × ω)) (s : σ) (a : α) (f : α → Exec ω ε σ β) :
    (Outcome.mk cs s (.ok a) : Outcome ω ε σ α).andThen f =
      ⟨cs ++ (f a s).calls, (f a s).state, (f a s).result⟩ := rfl

@[simp] lemma Outcome.andThen_error (cs : List (σ × ω)) (s : σ) (e : ε) (f : α → Exec ω ε σ β) :
    (Outcome.mk cs s (.error e) : Outcome ω ε σ α).andThen f = ⟨cs, s, .error e⟩ := rfl

/-- Continuing an outcome that is known to have returned. -/
lemma Outcome.andThen_of_ok {o : Outcome ω ε σ α} {a : α} (h : o.result = .ok a)
    (f : α → Exec ω ε σ β) :
    o.andThen f = ⟨o.calls ++ (f a o.state).calls, (f a o.state).state, (f a o.state).result⟩ := by
  rw [Outcome.andThen, h]

/-- Continuing an outcome that is known to have stopped. -/
lemma Outcome.andThen_of_error {o : Outcome ω ε σ α} {e : ε} (h : o.result = .error e)
    (f : α → Exec ω ε σ β) : o.andThen f = ⟨o.calls, o.state, .error e⟩ := by
  rw [Outcome.andThen, h]

namespace Exec

instance : Monad (Exec ω ε σ) where
  pure a := fun s => ⟨[], s, .ok a⟩
  bind m f := fun s => (m s).andThen f

/-- Make a call to the outside. -/
def call (c : ω) : Exec ω ε σ Unit := fun s => ⟨[(s, c)], s, .ok ()⟩

/-- Stop the program. -/
def stop (e : ε) : Exec ω ε σ α := fun s => ⟨[], s, .error e⟩

/-- Read the state. -/
def read : Exec ω ε σ σ := fun s => ⟨[], s, .ok s⟩

/-- Change the state. -/
def update (f : σ → σ) : Exec ω ε σ Unit := fun s => ⟨[], f s, .ok ()⟩

/-- Run `fin` after `m` also when `m` has stopped, and then stop as `m` did: what a scope
does with the objects it owns. -/
def ensuring (m : Exec ω ε σ α) (fin : Exec ω ε σ Unit) : Exec ω ε σ α := fun s =>
  let o := m s
  ⟨o.calls ++ (fin o.state).calls, (fin o.state).state, o.result⟩

/-- Run `fin` after `m` only if `m` has stopped, and then stop as `m` did: what a constructor
that throws does with the parts it has constructed. -/
def unwinding (m : Exec ω ε σ α) (fin : Exec ω ε σ Unit) : Exec ω ε σ α := fun s =>
  match (m s).result with
  | .ok _ => m s
  | .error _ => ensuring m fin s

@[simp] lemma pure_apply (a : α) (s : σ) :
    (pure a : Exec ω ε σ α) s = ⟨[], s, .ok a⟩ := rfl

@[simp] lemma bind_apply (m : Exec ω ε σ α) (f : α → Exec ω ε σ β) (s : σ) :
    (m >>= f) s = (m s).andThen f := rfl

@[simp] lemma call_apply (c : ω) (s : σ) :
    (call c : Exec ω ε σ Unit) s = ⟨[(s, c)], s, .ok ()⟩ := rfl

@[simp] lemma stop_apply (e : ε) (s : σ) :
    (stop e : Exec ω ε σ α) s = ⟨[], s, .error e⟩ := rfl

@[simp] lemma read_apply (s : σ) : (read : Exec ω ε σ σ) s = ⟨[], s, .ok s⟩ := rfl

@[simp] lemma update_apply (f : σ → σ) (s : σ) :
    (update f : Exec ω ε σ Unit) s = ⟨[], f s, .ok ()⟩ := rfl

@[simp] lemma ensuring_apply (m : Exec ω ε σ α) (fin : Exec ω ε σ Unit) (s : σ) :
    ensuring m fin s =
      ⟨(m s).calls ++ (fin (m s).state).calls, (fin (m s).state).state, (m s).result⟩ := rfl

/-- Continuing with a value only replaces the result. -/
lemma andThen_pure (o : Outcome ω ε σ α) (b : β) :
    (o.andThen fun _ => pure b) = ⟨o.calls, o.state, o.result.map fun _ => b⟩ := by
  rw [Outcome.andThen]
  cases o.result with
  | error e => rfl
  | ok a => simp [Except.map]

lemma pure_bind (a : α) (f : α → Exec ω ε σ β) : (pure a : Exec ω ε σ α) >>= f = f a := by
  funext s
  rfl

lemma update_bind (f : σ → σ) (g : Unit → Exec ω ε σ β) (s : σ) :
    (update f >>= g) s = g () (f s) := rfl

/-- Where a sequence of programs is cut does not matter. -/
lemma bind_assoc {γ : Type} (m : Exec ω ε σ α) (f : α → Exec ω ε σ β) (g : β → Exec ω ε σ γ) :
    (m >>= f) >>= g = m >>= fun a => f a >>= g := by
  funext s
  simp only [bind_apply, Outcome.andThen]
  cases (m s).result with
  | error e => rfl
  | ok a =>
      simp only
      cases (f a (m s).state).result with
      | error e => rfl
      | ok b => simp only [List.append_assoc]

end Exec

/-! ### Programs on a part of the state -/

/-- A part `σ` of a state `τ`, with the laws that make it one. -/
structure Lens (τ σ : Type) where
  get : τ → σ
  set : σ → τ → τ
  get_set : ∀ s t, get (set s t) = s
  set_get : ∀ t, set (get t) t = t
  set_set : ∀ s s' t, set s (set s' t) = set s t

attribute [simp] Lens.get_set Lens.set_get Lens.set_set

/-- The whole state as a part of itself. -/
def Lens.self (σ : Type) : Lens σ σ where
  get s := s
  set s _ := s
  get_set _ _ := rfl
  set_get _ := rfl
  set_set _ _ _ := rfl

namespace Exec

/-- Run a program on a part of the state. -/
def zoom (L : Lens τ σ) (m : Exec ω ε σ α) : Exec ω ε τ α := fun t =>
  let o := m (L.get t)
  ⟨o.calls.map fun p => (L.set p.1 t, p.2), L.set o.state t, o.result⟩

@[simp] lemma zoom_apply (L : Lens τ σ) (m : Exec ω ε σ α) (t : τ) :
    zoom L m t = ⟨(m (L.get t)).calls.map fun p => (L.set p.1 t, p.2),
      L.set (m (L.get t)).state t, (m (L.get t)).result⟩ := rfl

/-! ### Which calls a program makes -/

/-- Every call that `m` makes is of the kind `K`. -/
def Only (K : ω → Prop) (m : Exec ω ε σ α) : Prop := ∀ s, ∀ p ∈ (m s).calls, K p.2

variable {K : ω → Prop}

lemma Only.ret (a : α) : Only K (pure a : Exec ω ε σ α) := by simp [Only]

lemma Only.stop (e : ε) : Only K (Exec.stop e : Exec ω ε σ α) := by simp [Only]

lemma Only.read : Only K (Exec.read : Exec ω ε σ σ) := by simp [Only]

lemma Only.update (f : σ → σ) : Only K (Exec.update f : Exec ω ε σ Unit) := by simp [Only]

lemma Only.call {c : ω} (h : K c) : Only K (Exec.call c : Exec ω ε σ Unit) := by simp [Only, h]

lemma Only.bind {m : Exec ω ε σ α} {f : α → Exec ω ε σ β} (hm : Only K m)
    (hf : ∀ a, Only K (f a)) : Only K (m >>= f) := by
  intro s p hp
  rw [bind_apply, Outcome.andThen] at hp
  cases hr : (m s).result with
  | error e =>
      rw [hr] at hp
      exact hm s p hp
  | ok a =>
      rw [hr] at hp
      rcases List.mem_append.1 hp with hp | hp
      · exact hm s p hp
      · exact hf a _ p hp

lemma Only.ite {c : Prop} [Decidable c] {m m' : Exec ω ε σ α} (h : Only K m) (h' : Only K m') :
    Only K (if c then m else m') := by
  split
  · exact h
  · exact h'

lemma Only.zoom (L : Lens τ σ) {m : Exec ω ε σ α} (h : Only K m) : Only K (Exec.zoom L m) := by
  intro t p hp
  simp only [zoom_apply, List.mem_map] at hp
  obtain ⟨q, hq, rfl⟩ := hp
  exact h _ q hq

lemma Only.ensuring {m : Exec ω ε σ α} {fin : Exec ω ε σ Unit} (hm : Only K m)
    (hfin : Only K fin) : Only K (Exec.ensuring m fin) := by
  intro s p hp
  rcases List.mem_append.1 hp with hp | hp
  · exact hm s p hp
  · exact hfin _ p hp

lemma Only.forM {f : α → Exec ω ε σ PUnit} (h : ∀ a, Only K (f a)) (xs : List α) :
    Only K (xs.forM f) := by
  induction xs with
  | nil => exact .ret _
  | cons x xs ih => exact .bind (h x) fun _ => ih

lemma Only.mono {K' : ω → Prop} {m : Exec ω ε σ α} (h : Only K m) (hK : ∀ c, K c → K' c) :
    Only K' m := fun s p hp => hK _ (h s p hp)

/-! ### Pre- and postconditions -/

/-- From every state satisfying `P`, each call of `m` is made in a state in which `C` allows
it, and the result and final state satisfy `Q`. -/
def Sat (P : σ → Prop) (C : σ → ω → Prop) (m : Exec ω ε σ α)
    (Q : Except ε α → σ → Prop) : Prop :=
  ∀ s, P s → (∀ p ∈ (m s).calls, C p.1 p.2) ∧ Q (m s).result (m s).state

variable {P : σ → Prop} {C : σ → ω → Prop} {Q : Except ε α → σ → Prop}

lemma Sat.ret {a : α} (h : ∀ s, P s → Q (.ok a) s) : Sat P C (pure a : Exec ω ε σ α) Q := by
  intro s hs
  exact ⟨by simp, h s hs⟩

lemma Sat.stop {e : ε} (h : ∀ s, P s → Q (.error e) s) :
    Sat P C (Exec.stop e : Exec ω ε σ α) Q := by
  intro s hs
  exact ⟨by simp, h s hs⟩

lemma Sat.call {c : ω} {Q : Except ε Unit → σ → Prop} (hC : ∀ s, P s → C s c)
    (hQ : ∀ s, P s → Q (.ok ()) s) : Sat P C (Exec.call c) Q := by
  intro s hs
  refine ⟨?_, hQ s hs⟩
  intro p hp
  simp only [call_apply, List.mem_singleton] at hp
  subst hp
  exact hC s hs

lemma Sat.update {f : σ → σ} {Q : Except ε Unit → σ → Prop} (h : ∀ s, P s → Q (.ok ()) (f s)) :
    Sat P C (Exec.update f) Q := by
  intro s hs
  exact ⟨by simp, h s hs⟩

/-- Weaken the precondition and strengthen the postcondition. -/
lemma Sat.conseq {m : Exec ω ε σ α} {P' : σ → Prop} {Q' : Except ε α → σ → Prop}
    (h : Sat P C m Q) (hP : ∀ s, P' s → P s) (hQ : ∀ r s, Q r s → Q' r s) : Sat P' C m Q' := by
  intro s hs
  obtain ⟨h1, h2⟩ := h s (hP s hs)
  exact ⟨h1, hQ _ _ h2⟩

/-- One program after another: the second starts where the first returned, and where the
first stops the whole stops. -/
lemma Sat.bind {m : Exec ω ε σ α} {f : α → Exec ω ε σ β} {M : α → σ → Prop}
    {Q : Except ε β → σ → Prop}
    (hm : Sat P C m fun r s => match r with | .ok a => M a s | .error e => Q (.error e) s)
    (hf : ∀ a, Sat (M a) C (f a) Q) : Sat P C (m >>= f) Q := by
  intro s hs
  obtain ⟨h1, h2⟩ := hm s hs
  rw [bind_apply, Outcome.andThen]
  cases hr : (m s).result with
  | error e =>
      rw [hr] at h2
      exact ⟨h1, h2⟩
  | ok a =>
      rw [hr] at h2
      obtain ⟨h3, h4⟩ := hf a (m s).state h2
      refine ⟨?_, h4⟩
      intro p hp
      rcases List.mem_append.1 hp with hp | hp
      · exact h1 p hp
      · exact h3 p hp

/-- One program after another, where the first ensures the same whether it returns or stops. -/
lemma Sat.seq {m : Exec ω ε σ α} {f : α → Exec ω ε σ β} {M : σ → Prop}
    {Q : Except ε β → σ → Prop} (hm : Sat P C m fun _ s => M s) (hf : ∀ a, Sat M C (f a) Q)
    (he : ∀ e s, M s → Q (.error e) s) : Sat P C (m >>= f) Q := by
  refine Sat.bind (M := fun _ => M) (hm.conseq (fun s hs => hs) ?_) hf
  rintro (e | a) s hs
  · exact he e s hs
  · exact hs

/-- Reading the state: what follows may use what is known of it. -/
lemma Sat.read {f : σ → Exec ω ε σ β} {Q : Except ε β → σ → Prop}
    (h : ∀ s, P s → Sat (fun t => t = s) C (f s) Q) : Sat P C (Exec.read >>= f) Q := by
  intro s hs
  have := h s hs s rfl
  simpa using this

lemma Sat.ite {c : Prop} [Decidable c] {m m' : Exec ω ε σ α} (h : c → Sat P C m Q)
    (h' : ¬c → Sat P C m' Q) : Sat P C (if c then m else m') Q := by
  by_cases hc : c
  · rw [if_pos hc]
    exact h hc
  · rw [if_neg hc]
    exact h' hc

/-! ### Histories -/

/-- The calls of an outcome, without the states they were made in. -/
def log (o : Outcome ω ε σ α) : List ω := o.calls.map Prod.snd

@[simp] lemma log_mk (cs : List (σ × ω)) (s : σ) (r : Except ε α) :
    log (Outcome.mk cs s r) = cs.map Prod.snd := rfl

/-- Pre- and postconditions on the calls made since some moment and the state they led to: if
`P` holds of the calls so far and the state, then `Q` holds of the result, of the calls
including those of `m`, and of the final state. -/
def Logs (P : List ω → σ → Prop) (m : Exec ω ε σ α) (Q : Except ε α → List ω → σ → Prop) : Prop :=
  ∀ cs s, P cs s → Q (m s).result (cs ++ log (m s)) (m s).state

section Histories

variable {H : List ω → σ → Prop} {R : Except ε α → List ω → σ → Prop}

lemma Logs.ret {a : α} (h : ∀ cs s, H cs s → R (.ok a) cs s) :
    Logs H (pure a : Exec ω ε σ α) R := by
  intro cs s hs
  simpa using h cs s hs

lemma Logs.stop {e : ε} (h : ∀ cs s, H cs s → R (.error e) cs s) :
    Logs H (Exec.stop e : Exec ω ε σ α) R := by
  intro cs s hs
  simpa using h cs s hs

lemma Logs.call {c : ω} {R : Except ε Unit → List ω → σ → Prop}
    (h : ∀ cs s, H cs s → R (.ok ()) (cs ++ [c]) s) : Logs H (Exec.call c) R := by
  intro cs s hs
  simpa using h cs s hs

lemma Logs.update {f : σ → σ} {R : Except ε Unit → List ω → σ → Prop}
    (h : ∀ cs s, H cs s → R (.ok ()) cs (f s)) : Logs H (Exec.update f) R := by
  intro cs s hs
  simpa using h cs s hs

lemma Logs.conseq {m : Exec ω ε σ α} {H' : List ω → σ → Prop}
    {R' : Except ε α → List ω → σ → Prop} (h : Logs H m R) (hH : ∀ cs s, H' cs s → H cs s)
    (hR : ∀ r cs s, R r cs s → R' r cs s) : Logs H' m R' :=
  fun cs s hs => hR _ _ _ (h cs s (hH cs s hs))

lemma Logs.and {m : Exec ω ε σ α} {H' : List ω → σ → Prop} {R' : Except ε α → List ω → σ → Prop}
    (h : Logs H m R) (h' : Logs H' m R') :
    Logs (fun cs s => H cs s ∧ H' cs s) m fun r cs s => R r cs s ∧ R' r cs s :=
  fun cs s hs => ⟨h cs s hs.1, h' cs s hs.2⟩

/-- One program after another. -/
lemma Logs.bind {m : Exec ω ε σ α} {f : α → Exec ω ε σ β} {M : α → List ω → σ → Prop}
    {R : Except ε β → List ω → σ → Prop}
    (hm : Logs H m fun r cs s => match r with | .ok a => M a cs s | .error e => R (.error e) cs s)
    (hf : ∀ a, Logs (M a) (f a) R) : Logs H (m >>= f) R := by
  intro cs s hs
  have h := hm cs s hs
  rw [bind_apply, Outcome.andThen]
  cases hr : (m s).result with
  | error e =>
      rw [hr] at h
      exact h
  | ok a =>
      rw [hr] at h
      have h' := hf a _ _ h
      simp only [log, List.map_append, ← List.append_assoc] at h' ⊢
      exact h'

/-- One program after another, where the first ensures the same whether it returns or stops. -/
lemma Logs.seq {m : Exec ω ε σ α} {f : α → Exec ω ε σ β} {M : List ω → σ → Prop}
    {R : Except ε β → List ω → σ → Prop} (hm : Logs H m fun _ => M) (hf : ∀ a, Logs M (f a) R)
    (he : ∀ e cs s, M cs s → R (.error e) cs s) : Logs H (m >>= f) R := by
  refine Logs.bind (M := fun _ => M) (hm.conseq (fun cs s hs => hs) ?_) hf
  rintro (e | a) cs s hs
  · exact he e cs s hs
  · exact hs

/-- One program after another, where the first always returns. -/
lemma Logs.seq_ok {m : Exec ω ε σ α} {f : α → Exec ω ε σ β} {M : List ω → σ → Prop}
    {R : Except ε β → List ω → σ → Prop} (hm : Logs H m fun _ => M)
    (hok : ∀ s, ∃ a, (m s).result = .ok a) (hf : ∀ a, Logs M (f a) R) : Logs H (m >>= f) R := by
  refine Logs.bind (M := fun _ => M) ?_ hf
  intro cs s hs
  obtain ⟨a, ha⟩ := hok s
  rw [ha]
  exact hm cs s hs

/-- A constructor: what has been constructed is destroyed if the body stops. -/
lemma Logs.unwinding {m : Exec ω ε σ α} {fin : Exec ω ε σ Unit} {F : List ω → σ → Prop}
    (hm : Logs H m R) (hfin : ∀ r, Logs (R r) fin fun _ => F) :
    Logs H (Exec.unwinding m fin) fun r cs s =>
      (r.isOk = true → R r cs s) ∧ (r.isOk = false → F cs s) := by
  intro cs s hs
  have h := hm cs s hs
  rw [Exec.unwinding]
  cases hr : (m s).result with
  | ok a =>
      simp only [hr] at h ⊢
      exact ⟨fun _ => h, fun hok => absurd hok.symm Bool.false_ne_true⟩
  | error e =>
      have h' := hfin _ _ _ h
      simp only [ensuring_apply, hr, log, List.map_append, ← List.append_assoc] at h' ⊢
      exact ⟨fun hok => absurd hok Bool.false_ne_true, fun _ => h'⟩

lemma Logs.read {f : σ → Exec ω ε σ β} {R : Except ε β → List ω → σ → Prop}
    (h : ∀ t, Logs (fun cs s => H cs s ∧ s = t) (f t) R) : Logs H (Exec.read >>= f) R := by
  intro cs s hs
  have h' := h s cs s ⟨hs, rfl⟩
  simpa [bind_apply, log] using h'

lemma Logs.ite {c : Prop} [Decidable c] {m m' : Exec ω ε σ α} (h : c → Logs H m R)
    (h' : ¬c → Logs H m' R) : Logs H (if c then m else m') R := by
  by_cases hc : c
  · rw [if_pos hc]
    exact h hc
  · rw [if_neg hc]
    exact h' hc

/-- A scope: whatever happens in `m`, `fin` starts where `m` ended. -/
lemma Logs.ensuring {m : Exec ω ε σ α} {fin : Exec ω ε σ Unit}
    {M F : Except ε α → List ω → σ → Prop} (hm : Logs H m M)
    (hfin : ∀ r, Logs (M r) fin fun _ => F r) : Logs H (Exec.ensuring m fin) F := by
  intro cs s hs
  have h := hfin _ _ _ (hm cs s hs)
  simp only [ensuring_apply, log, List.map_append, ← List.append_assoc] at h ⊢
  exact h

lemma log_zoom (L : Lens τ σ) (m : Exec ω ε σ α) (t : τ) :
    log (zoom L m t) = log (m (L.get t)) := by
  simp only [log, zoom_apply, List.map_map]
  rfl

/-- A program on a part of the state, with a condition on that part. -/
lemma Logs.zoom (L : Lens τ σ) {m : Exec ω ε σ α} (h : Logs H m R) :
    Logs (fun cs t => H cs (L.get t)) (Exec.zoom L m) fun r cs t => R r cs (L.get t) := by
  intro cs t ht
  have h' := h cs (L.get t) ht
  rw [log_zoom]
  simpa only [zoom_apply, L.get_set] using h'

/-- A program all of whose calls, and all of whose changes to the state, are of no concern to the
condition. -/
lemma Logs.of_only {m : Exec ω ε σ α} {K : ω → Prop} (hm : Only K m)
    (hcall : ∀ cs c s, K c → H cs s → H (cs ++ [c]) s)
    (hstate : ∀ cs s, H cs s → H cs (m s).state) : Logs H m fun _ => H := by
  intro cs s hs
  have hcalls : ∀ ds : List ω, (∀ c ∈ ds, K c) → ∀ cs, H cs (m s).state →
      H (cs ++ ds) (m s).state := by
    intro ds
    induction ds with
    | nil =>
        intro _ cs hcs
        simpa using hcs
    | cons d ds ih =>
        intro hds cs hcs
        rw [List.append_cons]
        exact ih (fun c hc => hds c (List.mem_cons_of_mem _ hc)) _
          (hcall cs d _ (hds d List.mem_cons_self) hcs)
  refine hcalls _ ?_ cs (hstate cs s hs)
  intro c hc
  obtain ⟨p, hp, rfl⟩ := List.mem_map.1 hc
  exact hm s p hp

end Histories

end Exec

end RpmaReplica
