import Mathlib

/-!
# Names joined by a separator

A name is often put together from parts with a separator between them, and then the parts can be
read off only as far as the separator does not occur in them.  `append_sep_eq_iff` says which
cuts of one word there are: two of them differ by a piece that has moved across.  Where the last
part has no separator the cut before it is unique (`append_sep_inj`); decimal numbers, which
consist of digits, are such parts, and they can be read back (`toDigits_injective`).
-/

namespace RpmaReplica

namespace Names

variable {α : Type*} {sep : α} {u v x y : List α}

/-- **The cuts of a word.**  Two ways to cut a word at a separator are the same, or the second
cut comes after the first, or before it. -/
theorem append_sep_eq_iff :
    u ++ sep :: v = x ++ sep :: y ↔
      (u = x ∧ v = y) ∨
      (∃ mid, x = u ++ sep :: mid ∧ v = mid ++ sep :: y) ∨
      (∃ mid, u = x ++ sep :: mid ∧ y = mid ++ sep :: v) := by
  constructor
  · intro h
    rcases List.append_eq_append_iff.1 h with ⟨mid, hx, hv⟩ | ⟨mid, hu, hy⟩
    · cases mid with
      | nil =>
          simp only [List.append_nil, List.nil_append, List.cons.injEq, true_and] at hx hv
          exact .inl ⟨hx.symm, hv⟩
      | cons s mid =>
          obtain ⟨rfl, hrest⟩ := List.cons.inj hv
          exact .inr (.inl ⟨mid, hx, hrest⟩)
    · cases mid with
      | nil =>
          simp only [List.append_nil, List.nil_append, List.cons.injEq, true_and] at hu hy
          exact .inl ⟨hu, hy.symm⟩
      | cons s mid =>
          obtain ⟨rfl, hrest⟩ := List.cons.inj hy
          exact .inr (.inr ⟨mid, hu, hrest⟩)
  · rintro (⟨rfl, rfl⟩ | ⟨mid, rfl, rfl⟩ | ⟨mid, rfl, rfl⟩)
    · rfl
    · simp
    · simp

/-- The cut at the last separator is unique. -/
lemma append_sep_inj (hv : sep ∉ v) (hy : sep ∉ y) (h : u ++ sep :: v = x ++ sep :: y) :
    u = x ∧ v = y := by
  rcases append_sep_eq_iff.1 h with hsame | ⟨mid, -, hmid⟩ | ⟨mid, -, hmid⟩
  · exact hsame
  · exact absurd (hmid ▸ List.mem_append_right mid List.mem_cons_self) hv
  · exact absurd (hmid ▸ List.mem_append_right mid List.mem_cons_self) hy

/-! ### Decimal numbers -/

lemma toDigits_injective : Function.Injective (Nat.toDigits 10) := by
  intro m n h
  have hback := congrArg (Nat.ofDigitChars 10 · 0) h
  simpa using hback

lemma isDigit_of_mem_toDigits {n : ℕ} {c : Char} (hc : c ∈ Nat.toDigits 10 n) : c.isDigit = true :=
  Nat.isDigit_of_mem_toDigits (by decide) (by decide) hc

/-- The codes of the decimal digits. -/
lemma toNat_of_isDigit {c : Char} (hc : c.isDigit = true) : 48 ≤ c.toNat ∧ c.toNat ≤ 57 := by
  simp only [Char.isDigit, Bool.and_eq_true, decide_eq_true_eq] at hc
  exact hc

end Names

end RpmaReplica
