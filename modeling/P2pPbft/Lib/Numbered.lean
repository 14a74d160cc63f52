/-
Numbered entries, walked in order.

A replicated log is a numbering: under each number there is an entry or there is
none yet.  Whoever goes through the numbers from the first one on, and takes every
entry whose key it has not met, has taken the entries of some `firsts c`.  Two who
do so may be at different numbers, but of what they took one is a prefix of the
other.
-/
import Mathlib.Data.List.Infix

namespace Numbered

variable {A K : Type} [DecidableEq K] (key : A → K)

/-- The entries under the first `c` numbers, each key at its first place only. -/
def firsts (slot : Nat → Option A) : Nat → List A
  | 0 => []
  | c + 1 =>
    match slot (c + 1) with
    | none => firsts slot c
    | some a => if key a ∈ (firsts slot c).map key then firsts slot c else firsts slot c ++ [a]

variable {key} {slot slot' : Nat → Option A} {c c' : Nat} {a : A}

theorem firsts_succ_of_mem (h : slot (c + 1) = some a)
    (hmem : key a ∈ (firsts key slot c).map key) :
    firsts key slot (c + 1) = firsts key slot c := by
  simp only [firsts, h, hmem, if_true]

theorem firsts_succ_of_not_mem (h : slot (c + 1) = some a)
    (hmem : key a ∉ (firsts key slot c).map key) :
    firsts key slot (c + 1) = firsts key slot c ++ [a] := by
  simp only [firsts, h, hmem, if_false]

/-- One more number adds at most one entry, at the end. -/
theorem firsts_succ_cases (key : A → K) (slot : Nat → Option A) (c : Nat) :
    firsts key slot (c + 1) = firsts key slot c ∨
      ∃ a, slot (c + 1) = some a ∧ firsts key slot (c + 1) = firsts key slot c ++ [a] := by
  cases h : slot (c + 1) with
  | none => exact Or.inl (by simp only [firsts, h])
  | some a =>
      by_cases hmem : key a ∈ (firsts key slot c).map key
      · exact Or.inl (firsts_succ_of_mem h hmem)
      · exact Or.inr ⟨a, rfl, firsts_succ_of_not_mem h hmem⟩

/-- **Walking on only adds at the end.** -/
theorem firsts_isPrefix (slot : Nat → Option A) (h : c ≤ c') :
    firsts key slot c <+: firsts key slot c' := by
  induction h with
  | refl => exact List.prefix_refl _
  | step _ ih =>
      rcases firsts_succ_cases key slot _ with heq | ⟨a, -, heq⟩
      · rw [Nat.succ_eq_add_one, heq]
        exact ih
      · rw [Nat.succ_eq_add_one, heq]
        exact ih.trans (List.prefix_append _ _)

theorem firsts_congr (h : ∀ t, 0 < t → t ≤ c → slot t = slot' t) :
    firsts key slot c = firsts key slot' c := by
  induction c with
  | zero => rfl
  | succ c ih =>
      have hlast := h (c + 1) (by omega) (by omega)
      simp only [firsts, ih fun t h₀ ht => h t h₀ (by omega), hlast]

theorem mem_keys_firsts {t : Nat} (h₀ : 0 < t) (ht : t ≤ c) (h : slot t = some a) :
    key a ∈ (firsts key slot c).map key := by
  obtain ⟨t, rfl⟩ : ∃ n, t = n + 1 := ⟨t - 1, by omega⟩
  have hsub : (firsts key slot (t + 1)).map key ⊆ (firsts key slot c).map key :=
    List.map_subset _ (firsts_isPrefix slot ht).subset
  refine hsub ?_
  by_cases hmem : key a ∈ (firsts key slot t).map key
  · rw [firsts_succ_of_mem h hmem]
    exact hmem
  · rw [firsts_succ_of_not_mem h hmem]
    exact List.mem_map_of_mem (List.mem_append_right _ (List.mem_singleton.mpr rfl))

theorem firsts_of_taken (hle : c ≤ c') (h : ∀ t, c < t → t ≤ c' →
    ∃ a, slot t = some a ∧ key a ∈ (firsts key slot c).map key) :
    firsts key slot c' = firsts key slot c := by
  induction hle with
  | refl => rfl
  | @step m hle ih =>
      have ih := ih fun t hc ht => h t hc (Nat.le_succ_of_le ht)
      obtain ⟨a, ha, hmem⟩ := h (m + 1) (Nat.lt_succ_of_le hle) (Nat.le_refl _)
      rw [← ih] at hmem
      rw [Nat.succ_eq_add_one, firsts_succ_of_mem ha hmem, ih]

/--
**The next entry to take.**  If its key is new, while everything under a smaller
number has been taken, it is the one that comes after what was taken so far.
-/
theorem firsts_eq_concat {s : Nat} (hs : slot s = some a) (h₀ : 0 < s)
    (hbelow : ∀ t, 0 < t → t < s → ∃ b, slot t = some b ∧ key b ∈ (firsts key slot c).map key)
    (hnew : key a ∉ (firsts key slot c).map key) :
    firsts key slot s = firsts key slot c ++ [a] := by
  have hc : c < s := by
    refine Nat.lt_of_not_le fun hle => hnew ?_
    exact mem_keys_firsts h₀ hle hs
  obtain ⟨m, rfl⟩ : ∃ m, s = m + 1 := ⟨s - 1, by omega⟩
  have hsame : firsts key slot m = firsts key slot c :=
    firsts_of_taken (by omega) fun t hlt hle => hbelow t (by omega) (by omega)
  rw [firsts_succ_of_not_mem hs (by rw [hsame]; exact hnew), hsame]

/-- **What was taken first was taken at an earlier number.** -/
theorem exists_firsts_of_prefix {taken : List A} (h : taken <+: firsts key slot c) :
    ∃ c' ≤ c, taken = firsts key slot c' := by
  induction c with
  | zero => exact ⟨0, le_rfl, List.prefix_nil.mp h⟩
  | succ c ih =>
      rcases firsts_succ_cases key slot c with heq | ⟨a, -, heq⟩
      · rw [heq] at h
        obtain ⟨c', hle, htaken⟩ := ih h
        exact ⟨c', by omega, htaken⟩
      · rw [heq] at h
        rcases List.prefix_concat_iff.mp h with hall | hshort
        · exact ⟨c + 1, le_rfl, by rw [heq]; exact hall⟩
        · obtain ⟨c', hle, htaken⟩ := ih hshort
          exact ⟨c', by omega, htaken⟩

/-- **Of what two have taken, one is a prefix of the other.** -/
theorem firsts_prefix_or (slot : Nat → Option A) (c c' : Nat) :
    firsts key slot c <+: firsts key slot c' ∨ firsts key slot c' <+: firsts key slot c := by
  rcases Nat.le_total c c' with hle | hle
  · exact Or.inl (firsts_isPrefix slot hle)
  · exact Or.inr (firsts_isPrefix slot hle)

/-- **Where the numbers were given in turn, they are walked in turn**: what was taken is what
was numbered, with some left out. -/
theorem firsts_sublist {E : Type} {entries : List E} {number : E → Nat} {item : E → A}
    (hturn : entries.Pairwise fun e e' => number e < number e')
    (hslot : ∀ t a, slot t = some a → ∃ e ∈ entries, number e = t ∧ item e = a) (c : Nat) :
    (firsts key slot c).Sublist (entries.map item) := by
  -- The entries that were taken have numbers up to `c`.
  suffices h : ∃ taken : List E, taken.Sublist entries ∧ taken.map item = firsts key slot c ∧
      ∀ e ∈ taken, number e ≤ c by
    obtain ⟨taken, hsub, hitems, -⟩ := h
    rw [← hitems]
    exact hsub.map item
  induction c with
  | zero => exact ⟨[], List.nil_sublist _, rfl, fun _ he => absurd he List.not_mem_nil⟩
  | succ c ih =>
      obtain ⟨taken, hsub, hitems, hle⟩ := ih
      rcases firsts_succ_cases key slot c with heq | ⟨a, ha, heq⟩
      · exact ⟨taken, hsub, by rw [heq, hitems], fun e he => Nat.le_succ_of_le (hle e he)⟩
      obtain ⟨e, he, hnumber, rfl⟩ := hslot _ _ ha
      obtain ⟨before, after, rfl⟩ := List.append_of_mem he
      have hafter : ∀ e' ∈ e :: after, c < number e' := by
        intro e' he'
        rcases List.mem_cons.mp he' with rfl | hlater
        · omega
        · have hlt := (List.pairwise_cons.mp (List.pairwise_append.mp hturn).2.1).1 e' hlater
          omega
      -- None of those taken comes from there on.
      have hbefore : taken.Sublist before := by
        obtain ⟨front, back, rfl, hfront, hback⟩ := List.sublist_append_iff.mp hsub
        have hnone : back = [] := by
          refine List.eq_nil_iff_forall_not_mem.mpr fun e' he' => ?_
          have hlt := hafter e' (hback.subset he')
          have hnot := hle e' (List.mem_append_right _ he')
          omega
        rw [hnone, List.append_nil]
        exact hfront
      refine ⟨taken ++ [e], hbefore.append ?_, by rw [heq, ← hitems, List.map_append]; rfl, ?_⟩
      · exact List.singleton_sublist.mpr List.mem_cons_self
      · intro e' he'
        rcases List.mem_append.mp he' with hold | hnew
        · exact Nat.le_succ_of_le (hle e' hold)
        · rw [List.mem_singleton.mp hnew, hnumber]

end Numbered
