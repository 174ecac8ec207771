import RpmaReplica.Lib.Machine

/-!
# Writing to a remote memory

A memory is copied to another one by operations that are posted now and executed later, one after
another, by something that reads the memory by itself.  An operation that is executed does not yet
change the other memory: what it copies is on its way, and lands place by place, in any order.  A
flush is executed when nothing is on its way to its places any more.  The link may break at any
moment; then no further operation succeeds, and what is on its way may be lost.

`Written.flushing`, `Follows.flushing` and `Flushing.landed` together are what such a link is good
for: if a place was written, and a flush of it that was posted later has succeeded, then the place
holds on both sides the same, provided only that nothing else has changed it since the write was
posted.
-/

namespace RpmaReplica

/-! ### Operations -/

/-- An operation on a remote memory, by its number. -/
inductive Work
  /-- Copy `len` places from `src` on to those from `dst` on. -/
  | write (id src dst len : ℕ)
  /-- Wait for what is on its way to the `len` places from `dst` on. -/
  | flush (id dst len : ℕ)
  deriving DecidableEq, Repr

namespace Work

def id : Work → ℕ
  | write id _ _ _ => id
  | flush id _ _ => id

def Writes : Work → ℕ → Prop
  | write _ _ dst len, i => dst ≤ i ∧ i < dst + len
  | flush _ _ _, _ => False

def Flushes : Work → ℕ → Prop
  | write _ _ _ _, _ => False
  | flush _ dst len, i => dst ≤ i ∧ i < dst + len

/-- The operation copies each place to itself. -/
def Straight : Work → Prop
  | write _ src dst _ => src = dst
  | flush _ _ _ => True

variable {β : Type}

/-- What is on its way when the operation has been executed. -/
def sent (source : ℕ → β) (transit : ℕ → Option β) : Work → ℕ → Option β
  | write _ src dst len, i =>
    if dst ≤ i ∧ i < dst + len then some (source (src + (i - dst))) else transit i
  | flush _ _ _, i => transit i

/-- A flush waits until nothing is on its way. -/
def Ready (transit : ℕ → Option β) : Work → Prop
  | write _ _ _ _ => True
  | flush _ dst len => ∀ k < len, transit (dst + k) = none

instance (transit : ℕ → Option β) (w : Work) : Decidable (w.Ready transit) := by
  cases w with
  | write => exact isTrue trivial
  | flush id dst len => exact inferInstanceAs (Decidable (∀ k < len, transit (dst + k) = none))

variable {source : ℕ → β} {transit : ℕ → Option β} {w : Work} {i : ℕ}

/-- An operation that copies each place to itself puts the right thing on its way. -/
lemma sent_of_writes (hw : w.Straight) (hi : w.Writes i) :
    w.sent source transit i = some (source i) := by
  cases w with
  | write id src dst len =>
      obtain rfl : src = dst := hw
      have hrange : src ≤ i ∧ i < src + len := hi
      rw [sent, if_pos hrange, Nat.add_sub_cancel' hrange.1]
  | flush => exact hi.elim

lemma sent_of_not_writes (hi : ¬w.Writes i) : w.sent source transit i = transit i := by
  cases w with
  | write id src dst len => exact if_neg hi
  | flush => rfl

end Work

/-! ### The machine -/

/-- Two memories and what is between them: the places on their way, the operations posted and not
executed, and how those that are executed have ended. -/
structure Link (β : Type) where
  source : ℕ → β
  target : ℕ → β
  transit : ℕ → Option β
  work : List Work
  done : List (ℕ × Bool)
  broken : Bool

inductive LinkAct (β : Type)
  /-- The memory changes. -/
  | change (source : ℕ → β)
  /-- The remote memory is changed by somebody else. -/
  | meddle (target : ℕ → β)
  | post (w : Work)
  /-- The first of the operations is executed, with or without success. -/
  | execute (ok : Bool)
  | land (i : ℕ)
  | lose (i : ℕ)
  | cut

namespace Link

variable {β : Type}

/-- The first operation is executed. -/
def executed (l : Link β) (ok : Bool) : Option (Link β) :=
  match l.work with
  | [] => none
  | w :: ws =>
    if ok then
      if l.broken = false ∧ w.Ready l.transit then
        some { l with
          transit := w.sent l.source l.transit
          work := ws
          done := l.done ++ [(w.id, true)] }
      else none
    else some { l with work := ws, done := l.done ++ [(w.id, false)], broken := true }

def machine : Machine (Link β) (LinkAct β) where
  step l
    | .change source => some { l with source := source }
    | .meddle target => some { l with target := target }
    | .post w => some { l with work := l.work ++ [w] }
    | .execute ok => l.executed ok
    | .land i => (l.transit i).map fun b => { l with
        target := Function.update l.target i b
        transit := Function.update l.transit i none }
    | .lose i => some { l with transit := Function.update l.transit i none, broken := true }
    | .cut => some { l with broken := true }

/-- The step leaves the place alone, on both sides, and posts only operations that copy each place
to itself and have numbers of their own. -/
def Spares (i : ℕ) (l : Link β) : LinkAct β → Prop
  | .change source => source i = l.source i
  | .meddle target => target i = l.target i
  | .post w => w.Straight ∧ w.id ∉ l.done.map Prod.fst ++ l.work.map Work.id
  | .execute _ | .land _ | .lose _ | .cut => True

/-! ### A place that is written -/

/-- What is on its way to the place, or else what is there, is what it should be. -/
def Carried (l : Link β) (i : ℕ) : Prop :=
  l.transit i = some (l.source i) ∨ (l.transit i = none ∧ l.target i = l.source i)

/-- The place is what it should be, and stays so. -/
def Landed (l : Link β) (i : ℕ) : Prop :=
  l.target i = l.source i ∧ ∀ b, l.transit i = some b → b = l.source i

/-- The place will be written, or is, or the link is broken. -/
def Written (l : Link β) (i : ℕ) : Prop :=
  (∃ w ∈ l.work, w.Writes i) ∨ l.Carried i ∨ l.broken = true

/-- The flush is still to come, and behind it the place is written; or the place has landed; or the
flush has failed. -/
def Flushing (l : Link β) (op i : ℕ) : Prop :=
  (∃ before w after, l.work = before ++ w :: after ∧ w.id = op ∧ w.Flushes i ∧
    ((∃ v ∈ before, v.Writes i) ∨ l.Carried i ∨ l.broken = true)) ∨
  l.Landed i ∨ (op, false) ∈ l.done

variable {l m : Link β} {i op : ℕ} {a : LinkAct β} {w : Work}

/-- When nothing is on its way, a place that is carried has landed. -/
lemma Carried.landed (h : l.Carried i) (hnone : l.transit i = none) : l.Landed i := by
  rcases h with hsome | ⟨-, htarget⟩
  · rw [hnone] at hsome
    cases hsome
  · refine ⟨htarget, fun b hb => ?_⟩
    rw [hnone] at hb
    cases hb

lemma executed_cases {ok : Bool} (h : l.executed ok = some m) :
    ∃ w ws, l.work = w :: ws ∧
      ((ok = true ∧ l.broken = false ∧ w.Ready l.transit ∧ m = { l with
        transit := w.sent l.source l.transit, work := ws, done := l.done ++ [(w.id, true)] }) ∨
      (ok = false ∧ m = { l with
        work := ws, done := l.done ++ [(w.id, false)], broken := true })) := by
  rw [executed] at h
  cases hwork : l.work with
  | nil => simp [hwork] at h
  | cons w ws =>
      refine ⟨w, ws, rfl, ?_⟩
      cases ok with
      | false =>
          simp only [hwork, Bool.false_eq_true, if_false] at h
          exact .inr ⟨rfl, (Option.some.inj h).symm⟩
      | true =>
          simp only [hwork, if_true, Option.ite_none_right_eq_some] at h
          exact .inl ⟨rfl, h.1.1, h.1.2, (Option.some.inj h.2).symm⟩

/-- All the operations copy each place to itself. -/
def AllStraight (l : Link β) : Prop := ∀ w ∈ l.work, w.Straight

/-- The operations have different numbers. -/
def Distinct (l : Link β) : Prop := (l.done.map Prod.fst ++ l.work.map Work.id).Nodup

lemma AllStraight.step (h : l.AllStraight) (ha : Spares i l a) (hs : machine.step l a = some m) :
    m.AllStraight := by
  cases a with
  | change _ | meddle _ | lose _ | cut =>
      obtain rfl := Option.some.inj hs
      exact h
  | post w =>
      obtain rfl := Option.some.inj hs
      intro v hv
      rcases List.mem_append.1 hv with hv | hv
      · exact h v hv
      · rw [List.mem_singleton.1 hv]
        exact ha.1
  | land j =>
      obtain ⟨b, -, rfl⟩ := Option.map_eq_some_iff.1 hs
      exact h
  | execute ok =>
      obtain ⟨w, ws, hwork, ⟨-, -, -, rfl⟩ | ⟨-, rfl⟩⟩ := executed_cases hs
      · exact fun v hv => h v (hwork ▸ List.mem_cons_of_mem _ hv)
      · exact fun v hv => h v (hwork ▸ List.mem_cons_of_mem _ hv)

/-! ### One step -/

/-- A place that is carried stays so, unless it is lost. -/
lemma Carried.step (h : l.Carried i) (hstraight : l.AllStraight) (ha : Spares i l a)
    (hs : machine.step l a = some m) : m.Carried i ∨ m.broken = true := by
  cases a with
  | change source =>
      obtain rfl := Option.some.inj hs
      have hi : source i = l.source i := ha
      left
      show l.transit i = some (source i) ∨ (l.transit i = none ∧ l.target i = source i)
      rw [hi]
      exact h
  | meddle target =>
      obtain rfl := Option.some.inj hs
      have hi : target i = l.target i := ha
      left
      show l.transit i = some (l.source i) ∨ (l.transit i = none ∧ target i = l.source i)
      rw [hi]
      exact h
  | post w =>
      obtain rfl := Option.some.inj hs
      exact .inl h
  | land j =>
      obtain ⟨b, hb, rfl⟩ := Option.map_eq_some_iff.1 hs
      left
      rw [Carried] at h ⊢
      by_cases hj : i = j
      · subst hj
        simp only [Function.update_self]
        rcases h with hsome | ⟨hnone, -⟩
        · exact .inr ⟨trivial, Option.some.inj (hb.symm.trans hsome)⟩
        · rw [hb] at hnone
          cases hnone
      · simpa only [Function.update_of_ne hj] using h
  | execute ok =>
      obtain ⟨w, ws, hwork, ⟨-, -, -, rfl⟩ | ⟨-, rfl⟩⟩ := executed_cases hs
      · left
        by_cases hi : w.Writes i
        · exact .inl (Work.sent_of_writes (hstraight w (hwork ▸ List.mem_cons_self)) hi)
        · simpa only [Carried, Work.sent_of_not_writes hi] using h
      · exact .inr rfl
  | lose _ | cut =>
      obtain rfl := Option.some.inj hs
      exact .inr rfl

/-- A place that has landed stays so, also when the link breaks. -/
lemma Landed.step (h : l.Landed i) (hstraight : l.AllStraight) (ha : Spares i l a)
    (hs : machine.step l a = some m) : m.Landed i := by
  cases a with
  | change source =>
      obtain rfl := Option.some.inj hs
      have hi : source i = l.source i := ha
      show l.target i = source i ∧ ∀ b, l.transit i = some b → b = source i
      rw [hi]
      exact h
  | meddle target =>
      obtain rfl := Option.some.inj hs
      exact ⟨(show target i = l.target i from ha).trans h.1, h.2⟩
  | post w =>
      obtain rfl := Option.some.inj hs
      exact h
  | land j =>
      obtain ⟨b, hb, rfl⟩ := Option.map_eq_some_iff.1 hs
      by_cases hj : i = j
      · subst hj
        refine ⟨?_, ?_⟩
        · simp only [Function.update_self]
          exact h.2 b hb
        · simp only [Function.update_self]
          exact nofun
      · simpa only [Landed, Function.update_of_ne hj] using h
  | execute ok =>
      obtain ⟨w, ws, hwork, ⟨-, -, -, rfl⟩ | ⟨-, rfl⟩⟩ := executed_cases hs
      · refine ⟨h.1, fun b (hb : w.sent l.source l.transit i = some b) => ?_⟩
        by_cases hi : w.Writes i
        · rw [Work.sent_of_writes (hstraight w (hwork ▸ List.mem_cons_self)) hi] at hb
          exact (Option.some.inj hb).symm
        · rw [Work.sent_of_not_writes hi] at hb
          exact h.2 b hb
      · exact h
  | lose j =>
      obtain rfl := Option.some.inj hs
      refine ⟨h.1, fun b hb => ?_⟩
      by_cases hj : i = j
      · subst hj
        simp only [Function.update_self] at hb
        cases hb
      · simp only [Function.update_of_ne hj] at hb
        exact h.2 b hb
  | cut =>
      obtain rfl := Option.some.inj hs
      exact h

lemma broken_step (h : l.broken = true) (hs : machine.step l a = some m) : m.broken = true := by
  cases a with
  | change _ | meddle _ | post _ =>
      obtain rfl := Option.some.inj hs
      exact h
  | land j =>
      obtain ⟨b, -, rfl⟩ := Option.map_eq_some_iff.1 hs
      exact h
  | execute ok =>
      obtain ⟨w, ws, -, ⟨-, -, -, rfl⟩ | ⟨-, rfl⟩⟩ := executed_cases hs
      · exact h
      · rfl
  | lose _ | cut =>
      obtain rfl := Option.some.inj hs
      rfl

lemma done_step {x : ℕ × Bool} (h : x ∈ l.done) (hs : machine.step l a = some m) : x ∈ m.done := by
  cases a with
  | change _ | meddle _ | post _ | lose _ | cut =>
      obtain rfl := Option.some.inj hs
      exact h
  | land j =>
      obtain ⟨b, -, rfl⟩ := Option.map_eq_some_iff.1 hs
      exact h
  | execute ok =>
      obtain ⟨w, ws, -, ⟨-, -, -, rfl⟩ | ⟨-, rfl⟩⟩ := executed_cases hs
      · exact List.mem_append_left _ h
      · exact List.mem_append_left _ h

/-- Operations are executed in the order in which they were posted. -/
lemma work_step (hs : machine.step l a = some m) :
    (∃ ws, m.work = l.work ++ ws) ∨ ∃ w ok, l.work = w :: m.work ∧ a = .execute ok := by
  cases a with
  | change _ | meddle _ | lose _ | cut =>
      obtain rfl := Option.some.inj hs
      exact .inl ⟨[], (List.append_nil _).symm⟩
  | post w =>
      obtain rfl := Option.some.inj hs
      exact .inl ⟨[w], rfl⟩
  | land j =>
      obtain ⟨b, -, rfl⟩ := Option.map_eq_some_iff.1 hs
      exact .inl ⟨[], (List.append_nil _).symm⟩
  | execute ok =>
      obtain ⟨w, ws, hwork, ⟨-, -, -, rfl⟩ | ⟨-, rfl⟩⟩ := executed_cases hs
      · exact .inr ⟨w, ok, hwork, rfl⟩
      · exact .inr ⟨w, ok, hwork, rfl⟩

/-- When the operation that writes the place is executed, the place is carried. -/
lemma carried_of_executed {ok : Bool} {ws : List Work} (hwork : l.work = w :: ws)
    (hw : w.Straight) (hi : w.Writes i) (hs : machine.step l (.execute ok) = some m) :
    m.Carried i ∨ m.broken = true := by
  obtain ⟨w', ws', hwork', ⟨-, -, -, rfl⟩ | ⟨-, rfl⟩⟩ := executed_cases hs
  · obtain ⟨rfl, -⟩ := List.cons.inj (hwork'.symm.trans hwork)
    exact .inl (.inl (Work.sent_of_writes hw hi))
  · exact .inr rfl

lemma Written.step (h : l.Written i) (hstraight : l.AllStraight) (ha : Spares i l a)
    (hs : machine.step l a = some m) : m.Written i := by
  rcases h with ⟨w, hw, hi⟩ | hcarried | hbroken
  · rcases work_step hs with ⟨ws, hwork⟩ | ⟨v, ok, hwork, rfl⟩
    · exact .inl ⟨w, hwork ▸ List.mem_append_left ws hw, hi⟩
    · rw [hwork] at hw
      rcases List.mem_cons.1 hw with rfl | hw
      · exact .inr (carried_of_executed hwork (hstraight w (hwork ▸ List.mem_cons_self)) hi hs)
      · exact .inl ⟨w, hw, hi⟩
  · exact .inr (hcarried.step hstraight ha hs)
  · exact .inr (.inr (broken_step hbroken hs))

/-- The flush itself is executed. -/
lemma landed_of_flushed {ok : Bool} {ws : List Work} (hwork : l.work = w :: ws) (hid : w.id = op)
    (hi : w.Flushes i) (h : l.Carried i ∨ l.broken = true)
    (hs : machine.step l (.execute ok) = some m) : m.Landed i ∨ (op, false) ∈ m.done := by
  obtain ⟨w', ws', hwork', ⟨-, hbroken, hready, rfl⟩ | ⟨-, rfl⟩⟩ := executed_cases hs
  · obtain ⟨rfl, -⟩ := List.cons.inj (hwork'.symm.trans hwork)
    left
    have hcarried := h.resolve_right (by rw [hbroken]; exact Bool.false_ne_true)
    cases w' with
    | write => exact hi.elim
    | flush id dst len =>
        obtain ⟨k, rfl⟩ := Nat.exists_eq_add_of_le hi.1
        exact hcarried.landed (hready k (Nat.add_lt_add_iff_left.1 hi.2))
  · obtain ⟨rfl, -⟩ := List.cons.inj (hwork'.symm.trans hwork)
    exact .inr (List.mem_append_right _ (by rw [hid]; exact List.mem_singleton_self _))

/-- **One step** on the way of a flush. -/
lemma Flushing.step (h : l.Flushing op i) (hstraight : l.AllStraight) (ha : Spares i l a)
    (hs : machine.step l a = some m) : m.Flushing op i := by
  rcases h with ⟨before, w, after, hwork, hid, hi, hbehind⟩ | hlanded | hfailed
  · have hcarried : ∀ h : l.Carried i ∨ l.broken = true, m.Carried i ∨ m.broken = true :=
      fun h => h.elim (fun h => h.step hstraight ha hs) fun h => .inr (broken_step h hs)
    rcases work_step hs with ⟨ws, hwork'⟩ | ⟨v, ok, hwork', rfl⟩
    · refine .inl ⟨before, w, after ++ ws, ?_, hid, hi, hbehind.imp_right hcarried⟩
      rw [hwork', hwork, List.append_assoc, List.cons_append]
    · cases before with
      | nil =>
          obtain ⟨rfl, -⟩ := List.cons.inj (hwork'.symm.trans hwork)
          have hnow : l.Carried i ∨ l.broken = true :=
            hbehind.resolve_left fun ⟨_, hv, _⟩ => List.not_mem_nil hv
          exact .inr (landed_of_flushed hwork' hid hi hnow hs)
      | cons u before =>
          obtain ⟨rfl, htail⟩ := List.cons.inj (hwork'.symm.trans hwork)
          refine .inl ⟨before, w, after, htail, hid, hi, ?_⟩
          rcases hbehind with ⟨x, hx, hxi⟩ | hnow
          · rcases List.mem_cons.1 hx with rfl | hx
            · have hx' := hstraight x (hwork' ▸ List.mem_cons_self)
              exact .inr (carried_of_executed hwork' hx' hxi hs)
            · exact .inl ⟨x, hx, hxi⟩
          · exact .inr (hcarried hnow)
  · exact .inr (.inl (hlanded.step hstraight ha hs))
  · exact .inr (.inr (done_step hfailed hs))

/-- A place that is written, when a flush of it is posted. -/
lemma Written.flushing (h : l.Written i) (hid : w.id = op) (hi : w.Flushes i)
    (hs : machine.step l (.post w) = some m) : m.Flushing op i := by
  obtain rfl := Option.some.inj hs
  exact .inl ⟨l.work, w, [], rfl, hid, hi, h⟩

/-- A flush that has succeeded has done so for good. -/
lemma Flushing.landed (h : l.Flushing op i) (hdistinct : l.Distinct) (hdone : (op, true) ∈ l.done) :
    l.Landed i := by
  have hop : op ∈ l.done.map Prod.fst := List.mem_map.2 ⟨_, hdone, rfl⟩
  rcases h with ⟨before, w, after, hwork, rfl, -⟩ | hlanded | hfailed
  · -- an operation that is done is not to come
    have hmem : w.id ∈ l.work.map Work.id := by simp [hwork]
    exact absurd rfl ((List.nodup_append.1 hdistinct).2.2 _ hop _ hmem)
  · exact hlanded
  · have hinj := List.inj_on_of_nodup_map (List.nodup_append.1 hdistinct).1 hdone hfailed rfl
    cases hinj

/-! ### Many steps -/

/-- The link gets from one state to another by steps that spare the place. -/
def Follows (i : ℕ) (l m : Link β) : Prop :=
  ∃ bs, machine.Run l bs m ∧ machine.Meets (Spares i) l bs

lemma Follows.refl (i : ℕ) (l : Link β) : Follows i l l :=
  ⟨[], .nil l, fun bs a t hbs => absurd hbs.length_le (by simp)⟩

lemma Follows.snoc {k : Link β} (h : Follows i l k) (ha : Spares i k a)
    (hs : machine.step k a = some m) : Follows i l m := by
  obtain ⟨bs, hrun, hmeets⟩ := h
  exact ⟨bs ++ [a], hrun.snoc hs, hmeets.snoc hrun ha⟩

lemma Follows.single (ha : Spares i l a) (hs : machine.step l a = some m) : Follows i l m :=
  (Follows.refl i l).snoc ha hs

/-- The remote memory changes elsewhere, and the link may break meanwhile. -/
lemma Follows.disturbed (hm : m = { l with target := m.target, broken := m.broken })
    (htarget : m.target i = l.target i) (hbroken : l.broken = true → m.broken = true) :
    Follows i l m := by
  have hmeddled : Follows i l { l with target := m.target } :=
    .single (a := .meddle m.target) htarget rfl
  by_cases hsame : m.broken = l.broken
  · have heq : m = { l with target := m.target } := by rw [hm, hsame]
    rw [heq]
    exact hmeddled
  · have hcut : m = { l with target := m.target, broken := true } := by
      cases hb : m.broken with
      | true => rw [hm, hb]
      | false =>
          cases hl : l.broken with
          | true => exact absurd (hbroken hl) (by rw [hb]; exact Bool.false_ne_true)
          | false => exact absurd (hb.trans hl.symm) hsame
    rw [hcut]
    exact hmeddled.snoc (a := .cut) trivial rfl

lemma source_step (ha : Spares i l a) (hs : machine.step l a = some m) :
    m.source i = l.source i := by
  cases a with
  | change source =>
      obtain rfl := Option.some.inj hs
      exact ha
  | meddle _ | post _ | lose _ | cut =>
      obtain rfl := Option.some.inj hs
      rfl
  | land j =>
      obtain ⟨b, -, rfl⟩ := Option.map_eq_some_iff.1 hs
      rfl
  | execute ok =>
      obtain ⟨w, ws, -, ⟨-, -, -, rfl⟩ | ⟨-, rfl⟩⟩ := executed_cases hs <;> rfl

lemma Follows.source (h : Follows i l m) : m.source i = l.source i := by
  obtain ⟨bs, hrun, hmeets⟩ := h
  exact @Machine.Meets.invariant _ _ machine _ (fun k => k.source i = l.source i) l rfl
    (fun _ _ _ hk ha hs => (source_step ha hs).trans hk) _ _ hrun hmeets

lemma Follows.done (h : Follows i l m) {x : ℕ × Bool} (hx : x ∈ l.done) : x ∈ m.done := by
  obtain ⟨bs, hrun, -⟩ := h
  exact machine.invariant hx (fun _ _ _ hk hs => done_step hk hs) hrun

lemma Follows.written (h : Follows i l m) (hstraight : l.AllStraight) (hwritten : l.Written i) :
    m.Written i := by
  obtain ⟨bs, hrun, hmeets⟩ := h
  have hinv : m.AllStraight ∧ m.Written i :=
    @Machine.Meets.invariant _ _ machine _ (fun k => k.AllStraight ∧ k.Written i) l
      ⟨hstraight, hwritten⟩ (fun _ _ _ hk ha hs => ⟨hk.1.step ha hs, hk.2.step hk.1 ha hs⟩) _ _ hrun
      hmeets
  exact hinv.2

lemma Follows.flushing (h : Follows i l m) (hstraight : l.AllStraight)
    (hflushing : l.Flushing op i) : m.Flushing op i := by
  obtain ⟨bs, hrun, hmeets⟩ := h
  have hinv : m.AllStraight ∧ m.Flushing op i :=
    @Machine.Meets.invariant _ _ machine _ (fun k => k.AllStraight ∧ k.Flushing op i) l
      ⟨hstraight, hflushing⟩ (fun _ _ _ hk ha hs => ⟨hk.1.step ha hs, hk.2.step hk.1 ha hs⟩) _ _
      hrun hmeets
  exact hinv.2

end Link

end RpmaReplica
