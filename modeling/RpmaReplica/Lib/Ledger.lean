import Mathlib

/-!
# Ledgers of resources

Some calls of a program acquire a resource, some give one back.  A ledger says which do which,
and a sequence of calls is then judged by counting: it is sound if at no moment a resource has
been given back more often than it was acquired.  Counting, rather than a set of the resources
that were ever seen, is what allows a resource (an address, say) to be acquired again after it
was given back.

`Ledger.Keeps cs held` says that the calls `cs` are sound and leave exactly `held` to be given
back.  It is kept along a sequence of calls by one rule for each kind of call; and giving back
what is not held breaks soundness (`Ledger.Keeps.not_sound`).
-/

namespace RpmaReplica

/-- Which resource a call acquires, and which one it gives back, if any. -/
structure Ledger (ω β : Type) where
  acquires : ω → Option β
  releases : ω → Option β

namespace Ledger

variable {ω β : Type} (L : Ledger ω β)

/-- The resources acquired by a sequence of calls, each as often as it was acquired. -/
def acquired (cs : List ω) : List β := cs.filterMap L.acquires

/-- The resources given back by a sequence of calls, each as often as it was given back. -/
def released (cs : List ω) : List β := cs.filterMap L.releases

@[simp] lemma acquired_append (cs ds : List ω) :
    L.acquired (cs ++ ds) = L.acquired cs ++ L.acquired ds := List.filterMap_append

@[simp] lemma released_append (cs ds : List ω) :
    L.released (cs ++ ds) = L.released cs ++ L.released ds := List.filterMap_append

@[simp] lemma acquired_singleton (c : ω) : L.acquired [c] = (L.acquires c).toList := by
  cases h : L.acquires c <;> simp [acquired, h]

@[simp] lemma released_singleton (c : ω) : L.released [c] = (L.releases c).toList := by
  cases h : L.releases c <;> simp [released, h]

variable [DecidableEq β]

/-- At no moment a resource has been given back more often than acquired. -/
def Sound (cs : List ω) : Prop :=
  ∀ ds, ds <+: cs → ∀ b, (L.released ds).count b ≤ (L.acquired ds).count b

/-- Every resource was given back exactly as often as it was acquired. -/
def Settled (cs : List ω) : Prop := ∀ b, (L.released cs).count b = (L.acquired cs).count b

/-- A call that does nothing with resources may stand anywhere. -/
lemma sound_insert {cs ds : List ω} {c : ω} (h : L.Sound (cs ++ ds)) (ha : L.acquires c = none)
    (hr : L.releases c = none) : L.Sound (cs ++ c :: ds) := by
  rintro es ⟨t, ht⟩ b
  rcases List.append_eq_append_iff.1 ht with ⟨as, rfl, -⟩ | ⟨fs, rfl, hfs⟩
  · exact h es (by simp) b
  · rcases List.prefix_cons_iff.1 ⟨t, hfs.symm⟩ with rfl | ⟨gs, rfl, hgs⟩
    · exact h _ (by simp) b
    · have hle := h (cs ++ gs) ((List.prefix_append_right_inj cs).2 hgs) b
      simpa [acquired, released, ha, hr] using hle

/-- The calls are sound and leave `held` to be given back. -/
structure Keeps (cs : List ω) (held : Multiset β) : Prop where
  sound : L.Sound cs
  count : ∀ b, (L.acquired cs).count b = (L.released cs).count b + held.count b

lemma sound_nil : L.Sound [] := by
  intro ds hds b
  rw [List.prefix_nil] at hds
  subst hds
  simp [released, acquired]

/-- Soundness is checked after each call. -/
lemma sound_snoc {cs : List ω} {c : ω} (h : L.Sound cs)
    (hc : ∀ b, (L.released (cs ++ [c])).count b ≤ (L.acquired (cs ++ [c])).count b) :
    L.Sound (cs ++ [c]) := by
  intro ds hds
  rcases List.prefix_concat_iff.1 hds with rfl | hds
  · exact hc
  · exact h ds hds

variable {L}

lemma Keeps.nil : L.Keeps [] 0 := ⟨L.sound_nil, by simp [acquired, released]⟩

/-- Nothing is left exactly if everything was given back as often as it was acquired. -/
lemma Keeps.settled {cs : List ω} (h : L.Keeps cs 0) : L.Settled cs := by
  intro b
  have hb := h.count b
  simp only [Multiset.count_zero, Nat.add_zero] at hb
  exact hb.symm

lemma Keeps.acquire {cs : List ω} {held : Multiset β} {c : ω} {b : β} (h : L.Keeps cs held)
    (ha : L.acquires c = some b) (hr : L.releases c = none) : L.Keeps (cs ++ [c]) (b ::ₘ held) := by
  have hcount : ∀ x, (L.acquired (cs ++ [c])).count x =
      (L.released (cs ++ [c])).count x + (b ::ₘ held).count x := by
    intro x
    have hx := h.count x
    simp only [acquired_append, released_append, acquired_singleton, released_singleton, ha, hr,
      Option.toList, List.count_append, List.count_singleton, List.count_nil, Multiset.count_cons]
    by_cases hxb : x = b
    · simp [hxb] at hx ⊢
      omega
    · simp [hxb, Ne.symm hxb]
      exact hx
  exact ⟨L.sound_snoc h.sound fun x => by rw [hcount x]; omega, hcount⟩

lemma Keeps.release {cs : List ω} {held : Multiset β} {c : ω} {b : β}
    (h : L.Keeps cs (b ::ₘ held)) (ha : L.acquires c = none) (hr : L.releases c = some b) :
    L.Keeps (cs ++ [c]) held := by
  have hcount : ∀ x, (L.acquired (cs ++ [c])).count x =
      (L.released (cs ++ [c])).count x + held.count x := by
    intro x
    have hx := h.count x
    simp only [acquired_append, released_append, acquired_singleton, released_singleton, ha, hr,
      Option.toList, List.count_append, List.count_singleton, List.count_nil]
    simp only [Multiset.count_cons] at hx
    by_cases hxb : x = b
    · simp [hxb] at hx ⊢
      omega
    · simp [hxb, Ne.symm hxb] at hx ⊢
      exact hx
  exact ⟨L.sound_snoc h.sound fun x => by rw [hcount x]; omega, hcount⟩

/-- Several resources are given back one after another. -/
lemma Keeps.releaseAll {xs : List β} {f : β → ω} (ha : ∀ b, L.acquires (f b) = none)
    (hr : ∀ b, L.releases (f b) = some b) :
    ∀ {cs : List ω} {held : Multiset β}, L.Keeps cs (↑xs + held) →
      L.Keeps (cs ++ xs.map f) held := by
  induction xs with
  | nil =>
      intro cs held h
      simpa using h
  | cons x xs ih =>
      intro cs held h
      rw [← Multiset.cons_coe, Multiset.cons_add] at h
      rw [List.map_cons, List.append_cons]
      exact ih (h.release (ha x) (hr x))

/-- A call that concerns no resource. -/
lemma Keeps.insert {cs ds : List ω} {held : Multiset β} {c : ω} (h : L.Keeps (cs ++ ds) held)
    (ha : L.acquires c = none) (hr : L.releases c = none) : L.Keeps (cs ++ c :: ds) held := by
  refine ⟨L.sound_insert h.sound ha hr, fun x => ?_⟩
  simpa [acquired, released, ha, hr] using h.count x

lemma Keeps.other {cs : List ω} {held : Multiset β} {c : ω} (h : L.Keeps cs held)
    (ha : L.acquires c = none) (hr : L.releases c = none) : L.Keeps (cs ++ [c]) held :=
  Keeps.insert (by rwa [List.append_nil]) ha hr

/-- What was acquired once is held exactly if it has not been given back. -/
lemma Keeps.mem_held_iff {cs : List ω} {held : Multiset β} {b : β} (h : L.Keeps cs held)
    (hnodup : (L.acquired cs).Nodup) (hb : b ∈ L.acquired cs) :
    b ∈ held ↔ b ∉ L.released cs := by
  have hcount := h.count b
  rw [List.count_eq_one_of_mem hnodup hb] at hcount
  rw [← Multiset.count_pos, ← List.count_eq_zero]
  omega

/-- What is held was acquired. -/
lemma Keeps.acquired_of_mem {cs : List ω} {held : Multiset β} {b : β} (h : L.Keeps cs held)
    (hb : b ∈ held) : b ∈ L.acquired cs := by
  have hcount := h.count b
  have hpos := Multiset.count_pos.2 hb
  exact List.count_pos_iff.1 (by omega)

/-- **Giving back what is not held** is not sound. -/
lemma Keeps.not_sound {cs ds : List ω} {held : Multiset β} {c : ω} {b : β} (h : L.Keeps cs held)
    (ha : L.acquires c = none) (hr : L.releases c = some b) (hb : b ∉ held) :
    ¬L.Sound (cs ++ [c] ++ ds) := by
  intro hs
  have hle := hs (cs ++ [c]) (List.prefix_append _ _) b
  have hx := h.count b
  rw [Multiset.count_eq_zero.2 hb] at hx
  simp only [acquired_append, released_append, acquired_singleton, released_singleton, ha, hr,
    Option.toList, List.count_append, List.count_singleton_self, List.count_nil] at hle
  omega

end Ledger

end RpmaReplica
