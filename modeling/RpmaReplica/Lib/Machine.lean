import Mathlib

/-!
# Machines and their runs

A machine is a partial step function on states, driven by actions.  A run is a sequence of
actions each of which is enabled where it is taken; a claim about a machine is a claim about
every state that a run passes through.

Two rules carry the proofs.  `Machine.invariant` is the usual one: what holds
initially and is kept by every step holds in every state reached.  `Machine.always_iff` is
its sharper form for properties that hold on some runs only: if a step that meets a
condition keeps the invariant, and a step that does not meet it breaks the property there
and then, then the runs on which the property holds throughout are exactly the runs all of
whose steps meet the condition.  `Machine.Meets.invariant` and `Machine.Meets.always_iff` are
the same rules for the runs whose steps meet what is asked of the outside.
-/

namespace RpmaReplica

/-- A machine: a step function, undefined where an action is not enabled. -/
structure Machine (σ α : Type) where
  step : σ → α → Option σ

namespace Machine

variable {σ α : Type} (M : Machine σ α)

/-- `M.Run s as t`: the actions `as`, taken in turn from `s`, lead to `t`. -/
inductive Run : σ → List α → σ → Prop
  | nil (s : σ) : Run s [] s
  | snoc {s t u : σ} {as : List α} {a : α} :
      Run s as t → M.step t a = some u → Run s (as ++ [a]) u

variable {M}

lemma Run.nil_eq {s t : σ} (h : M.Run s [] t) : t = s := by
  generalize has : ([] : List α) = as at h
  cases h with
  | nil => rfl
  | snoc _ _ => simp at has

/-- The last step of a run. -/
lemma Run.of_snoc {s u : σ} {as : List α} {a : α} (h : M.Run s (as ++ [a]) u) :
    ∃ t, M.Run s as t ∧ M.step t a = some u := by
  generalize hbs : as ++ [a] = bs at h
  cases h with
  | nil => simp at hbs
  | @snoc t _ as' a' hrun hstep =>
      obtain ⟨rfl, h1⟩ := List.append_inj' hbs rfl
      obtain rfl : a = a' := by simpa using h1
      exact ⟨t, hrun, hstep⟩

/-- A run of one step. -/
lemma Run.singleton {s t : σ} {a : α} (h : M.Run s [a] t) : M.step s a = some t := by
  have hsnoc : M.Run s ([] ++ [a]) t := h
  obtain ⟨u, hu, hstep⟩ := hsnoc.of_snoc
  obtain rfl := hu.nil_eq
  exact hstep

/-- A run and another one after it. -/
lemma Run.append {s t u : σ} {as bs : List α} (h : M.Run s as t) (h' : M.Run t bs u) :
    M.Run s (as ++ bs) u := by
  induction h' with
  | nil => rwa [List.append_nil]
  | snoc _ hs ih =>
      rw [← List.append_assoc]
      exact ih.snoc hs

/-- The actions of a run determine where it leads. -/
lemma Run.det {s t u : σ} {as : List α} (ht : M.Run s as t) (hu : M.Run s as u) : t = u := by
  induction ht generalizing u with
  | nil => exact hu.nil_eq.symm
  | snoc _ hstep ih =>
      obtain ⟨t', hrun', hstep'⟩ := hu.of_snoc
      obtain rfl := ih hrun'
      rw [hstep] at hstep'
      exact Option.some.inj hstep'

/-- A run passes through a state after each prefix of its actions. -/
lemma Run.initial {s u : σ} {as : List α} (h : M.Run s as u) :
    ∀ {bs : List α}, bs <+: as → ∃ t, M.Run s bs t := by
  induction h with
  | nil =>
      intro bs hbs
      rw [List.prefix_nil] at hbs
      subst hbs
      exact ⟨s, .nil s⟩
  | @snoc t u as a hrun hstep ih =>
      intro bs hbs
      rcases List.prefix_concat_iff.1 hbs with rfl | hbs
      · exact ⟨u, hrun.snoc hstep⟩
      · exact ih hbs

variable (M)

/-- **The invariant rule.** -/
theorem invariant {Inv : σ → Prop} {s : σ} (h0 : Inv s)
    (hstep : ∀ t a u, Inv t → M.step t a = some u → Inv u) :
    ∀ {as : List α} {t : σ}, M.Run s as t → Inv t := by
  intro as t h
  induction h with
  | nil => exact h0
  | snoc _ hs ih => exact hstep _ _ _ ih hs

/-- The property `P` holds in every state that the run `as` from `s` passes through. -/
def Always (P : σ → Prop) (s : σ) (as : List α) : Prop :=
  ∀ bs t, bs <+: as → M.Run s bs t → P t

/-- Every step of the run `as` from `s` meets the condition `C` on the state in which it is
taken and on the action. -/
def Meets (C : σ → α → Prop) (s : σ) (as : List α) : Prop :=
  ∀ bs a t, bs ++ [a] <+: as → M.Run s bs t → C t a

variable {M}

lemma Meets.initial {C : σ → α → Prop} {s : σ} {as bs : List α} (h : M.Meets C s as)
    (hbs : bs <+: as) : M.Meets C s bs :=
  fun cs a t hcs hrun => h cs a t (hcs.trans hbs) hrun

/-- The condition on a run of one step. -/
lemma meets_singleton {C : σ → α → Prop} {s : σ} {a : α} (ha : C s a) : M.Meets C s [a] := by
  intro bs b t hbs ht
  have hlen := hbs.length_le
  simp only [List.length_append, List.length_singleton] at hlen
  obtain rfl : bs = [] := List.eq_nil_of_length_eq_zero (by omega)
  obtain rfl : b = a := by simpa using hbs
  obtain rfl := ht.nil_eq
  exact ha

/-- A condition that is met wherever the actions are taken. -/
lemma meets_of_forall {C : σ → α → Prop} {s : σ} {as : List α} (h : ∀ a ∈ as, ∀ t, C t a) :
    M.Meets C s as :=
  fun _ a t hbs _ => h a (hbs.subset (List.mem_append_right _ (List.mem_singleton_self a))) t

/-- A run goes on with steps that meet the condition anyway. -/
lemma Meets.append {C : σ → α → Prop} {s : σ} {as bs : List α} (h : M.Meets C s as)
    (hbs : ∀ a ∈ bs, ∀ t, C t a) : M.Meets C s (as ++ bs) := by
  intro cs a t hcs hrun
  rcases List.prefix_or_prefix_of_prefix hcs (List.prefix_append as bs) with hbefore | ⟨ds, hds⟩
  · exact h cs a t hbefore hrun
  · rcases List.eq_nil_or_concat ds with rfl | ⟨es, x, rfl⟩
    · rw [List.append_nil] at hds
      exact h cs a t (hds ▸ List.prefix_refl _) hrun
    · rw [List.concat_eq_append] at hds
      have hlast : es ++ [x] <+: bs := (List.prefix_append_right_inj as).1 (hds ▸ hcs)
      rw [← List.append_assoc] at hds
      obtain ⟨-, hx⟩ := List.append_inj' hds rfl
      obtain rfl := List.singleton_inj.1 hx
      exact hbs x (hlast.subset (by simp)) t

/-- The condition on a run, one step at a time. -/
lemma Meets.snoc {C : σ → α → Prop} {s t : σ} {as : List α} {a : α} (h : M.Meets C s as)
    (hrun : M.Run s as t) (ha : C t a) : M.Meets C s (as ++ [a]) := by
  intro bs b u hbs hu
  rcases List.prefix_concat_iff.1 hbs with heq | hbs
  · obtain ⟨rfl, hb⟩ := List.append_inj' heq rfl
    obtain rfl : b = a := by simpa using hb
    obtain rfl := hu.det hrun
    exact ha
  · exact h bs b u hbs hu

/-- Conditions that agree on the steps that can be taken agree on a run. -/
lemma meets_congr {C C' : σ → α → Prop} {s u : σ} {as : List α} (hrun : M.Run s as u)
    (h : ∀ t a v, M.step t a = some v → (C t a ↔ C' t a)) : M.Meets C s as ↔ M.Meets C' s as := by
  have hstep : ∀ bs a t, bs ++ [a] <+: as → M.Run s bs t → ∃ v, M.step t a = some v := by
    intro bs a t hbs ht
    obtain ⟨v, hv⟩ := hrun.initial hbs
    obtain ⟨t', ht', hstep⟩ := hv.of_snoc
    obtain rfl := ht'.det ht
    exact ⟨v, hstep⟩
  constructor
  · intro hC bs a t hbs ht
    obtain ⟨v, hv⟩ := hstep bs a t hbs ht
    exact (h t a v hv).1 (hC bs a t hbs ht)
  · intro hC bs a t hbs ht
    obtain ⟨v, hv⟩ := hstep bs a t hbs ht
    exact (h t a v hv).2 (hC bs a t hbs ht)

/-- Along a run whose steps meet the condition, an invariant kept by such steps holds. -/
lemma Meets.invariant {C : σ → α → Prop} {Inv : σ → Prop} {s : σ} (h0 : Inv s)
    (hstep : ∀ t a u, Inv t → C t a → M.step t a = some u → Inv u) :
    ∀ {as : List α} {t : σ}, M.Run s as t → M.Meets C s as → Inv t := by
  intro as t h
  induction h with
  | nil => exact fun _ => h0
  | @snoc t u as a hrun hs ih =>
      intro hC
      have hinv := ih (hC.initial (List.prefix_append _ _))
      exact hstep t a u hinv (hC as a t (List.prefix_refl _) hrun) hs

/-- The same for an invariant that speaks of the actions taken so far. -/
lemma Meets.traceInvariant {C : σ → α → Prop} {s : σ} (Inv : List α → σ → Prop) (h0 : Inv [] s)
    (hstep : ∀ as t a u, Inv as t → C t a → M.step t a = some u → Inv (as ++ [a]) u) :
    ∀ {as : List α} {t : σ}, M.Run s as t → M.Meets C s as → Inv as t := by
  intro as t h
  induction h with
  | nil => exact fun _ => h0
  | @snoc t u as a hrun hs ih =>
      intro hC
      have hinv := ih (hC.initial (List.prefix_append _ _))
      exact hstep as t a u hinv (hC as a t (List.prefix_refl _) hrun) hs

/-- **The runs on which a property holds.**  The condition `C` keeps the invariant, the
invariant gives the property, and a step taken against the condition breaks the property at
once. -/
theorem always_iff {P : σ → Prop} {C : σ → α → Prop} {s : σ} (Inv : σ → Prop) (h0 : Inv s)
    (hkeep : ∀ t a u, Inv t → C t a → M.step t a = some u → Inv u)
    (hP : ∀ t, Inv t → P t)
    (hbreak : ∀ t a u, Inv t → ¬C t a → M.step t a = some u → ¬P u)
    {as : List α} {u : σ} (hrun : M.Run s as u) :
    M.Always P s as ↔ M.Meets C s as := by
  constructor
  · intro hall
    -- by induction on the length of the prefix: all earlier steps met the condition, so the
    -- invariant held before this one
    have key : ∀ n, ∀ bs a t, bs.length = n → bs ++ [a] <+: as → M.Run s bs t → C t a := by
      intro n
      induction n using Nat.strong_induction_on with
      | _ n ih =>
          intro bs a t hn hbs ht
          have hmeets : M.Meets C s bs := by
            intro cs b r hcs hr
            have hlen : cs.length < n := by
              have := hcs.length_le
              simp only [List.length_append, List.length_singleton] at this
              omega
            exact ih cs.length hlen cs b r rfl
              (hcs.trans ((List.prefix_append _ _).trans hbs)) hr
          have hinv : Inv t := Meets.invariant h0 hkeep ht hmeets
          by_contra hC
          obtain ⟨v, hv⟩ := hrun.initial hbs
          obtain ⟨t', ht', hstep⟩ := hv.of_snoc
          have htt : t' = t := Run.det ht' ht
          subst htt
          exact hbreak t' a v hinv hC hstep (hall _ v hbs hv)
    exact fun bs a t hbs ht => key bs.length bs a t rfl hbs ht
  · intro hC bs t hbs ht
    exact hP t (Meets.invariant h0 hkeep ht (hC.initial hbs))

/-! ### Runs under a condition -/

section Restrict

variable (M) (D : σ → α → Prop)

open Classical in
/-- The machine that takes a step only if it meets a condition. -/
noncomputable def restrict : Machine σ α := ⟨fun s a => if D s a then M.step s a else none⟩

variable {M D}

lemma restrict_step {s t : σ} {a : α} :
    (M.restrict D).step s a = some t ↔ D s a ∧ M.step s a = some t := by
  simp only [restrict, Option.ite_none_right_eq_some]

/-- Its runs are the runs whose steps all meet the condition. -/
lemma restrict_run {s t : σ} {as : List α} :
    (M.restrict D).Run s as t ↔ M.Run s as t ∧ M.Meets D s as := by
  constructor
  · intro h
    induction h with
    | nil => exact ⟨.nil s, fun bs a u hbs => absurd hbs.length_le (by simp)⟩
    | snoc _ hs ih =>
        obtain ⟨hD, hs⟩ := restrict_step.1 hs
        exact ⟨ih.1.snoc hs, ih.2.snoc ih.1 hD⟩
  · rintro ⟨h, hD⟩
    induction h with
    | nil => exact .nil s
    | @snoc t u as a hrun hs ih =>
        exact (ih (hD.initial (List.prefix_append _ _))).snoc
          (restrict_step.2 ⟨hD as a t (List.prefix_refl _) hrun, hs⟩)

/-- `always_iff` for the runs whose steps all meet a condition `D`. -/
theorem Meets.always_iff {P : σ → Prop} {C : σ → α → Prop} {s : σ} (Inv : σ → Prop) (h0 : Inv s)
    (hkeep : ∀ t a u, Inv t → D t a → C t a → M.step t a = some u → Inv u)
    (hP : ∀ t, Inv t → P t)
    (hbreak : ∀ t a u, Inv t → D t a → ¬C t a → M.step t a = some u → ¬P u)
    {as : List α} {u : σ} (hrun : M.Run s as u) (hD : M.Meets D s as) :
    M.Always P s as ↔ M.Meets C s as := by
  have hruns : ∀ {bs : List α} {t : σ}, bs <+: as → ((M.restrict D).Run s bs t ↔ M.Run s bs t) :=
    fun hbs => restrict_run.trans ⟨fun h => h.1, fun h => ⟨h, hD.initial hbs⟩⟩
  have halways : (M.restrict D).Always P s as ↔ M.Always P s as :=
    forall₃_congr fun bs t hbs => by rw [hruns hbs]
  have hmeets : (M.restrict D).Meets C s as ↔ M.Meets C s as :=
    forall₄_congr fun bs a t hbs => by rw [hruns ((List.prefix_append _ _).trans hbs)]
  rw [← halways, ← hmeets]
  refine Machine.always_iff Inv h0 (fun t a u ht hC hs => ?_) hP (fun t a u ht hC hs => ?_)
    ((hruns (List.prefix_refl _)).2 hrun)
  · obtain ⟨hDa, hs⟩ := restrict_step.1 hs
    exact hkeep t a u ht hDa hC hs
  · obtain ⟨hDa, hs⟩ := restrict_step.1 hs
    exact hbreak t a u ht hDa hC hs

end Restrict

end Machine

end RpmaReplica
