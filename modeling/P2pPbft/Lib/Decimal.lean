/-
Decimal numbers inside a text.

A number printed in decimal is a run of digits, so when something that is not a
digit follows, the text says where the number ends.  Texts made of numbers and
separators can therefore be read back: `number_append_inj` peels one number off,
and `numbers_append_inj` a whole comma-separated list up to its closing bracket.
-/
import Mathlib.Data.List.Basic

namespace Decimal

/-- The characters of a number printed in decimal. -/
def number (n : Nat) : List Char := (toString n).toList

theorem number_eq (n : Nat) : number n = Nat.toDigits 10 n := Nat.toList_repr

theorem isDigit_of_mem_number {n : Nat} {c : Char} (h : c ∈ number n) : c.isDigit = true := by
  rw [number_eq] at h
  exact Nat.isDigit_of_mem_toDigits (by decide) (by decide) h

theorem number_injective {m n : Nat} (h : number m = number n) : m = n := by
  rw [number_eq, number_eq] at h
  rw [← Nat.ofDigitChars_ten_toDigits (n := m), h, Nat.ofDigitChars_ten_toDigits]

theorem exists_number_eq_cons (n : Nat) : ∃ c cs, number n = c :: cs ∧ c.isDigit = true := by
  cases h : number n with
  | nil => exact absurd (number_eq n ▸ h) Nat.toDigits_ne_nil
  | cons c cs => exact ⟨c, cs, rfl, isDigit_of_mem_number (n := n) (by simp [h])⟩

/-- Two texts that agree, each split at its first character outside a class, agree piecewise. -/
theorem append_cons_inj {p : Char → Bool} :
    ∀ {xs xs' : List Char} {c c' : Char} {ys ys' : List Char},
      (∀ x ∈ xs, p x = true) → (∀ x ∈ xs', p x = true) → p c = false → p c' = false →
      xs ++ c :: ys = xs' ++ c' :: ys' → xs = xs' ∧ c = c' ∧ ys = ys' := by
  intro xs
  induction xs with
  | nil =>
      intro xs' c c' ys ys' _ hxs' hc hc' h
      cases xs' with
      | nil =>
          obtain ⟨rfl, rfl⟩ := List.cons_eq_cons.mp h
          exact ⟨rfl, rfl, rfl⟩
      | cons x rest =>
          obtain ⟨rfl, -⟩ := List.cons_eq_cons.mp h
          rw [hxs' c (by simp)] at hc
          exact Bool.noConfusion hc
  | cons x rest ih =>
      intro xs' c c' ys ys' hxs hxs' hc hc' h
      cases xs' with
      | nil =>
          obtain ⟨rfl, -⟩ := List.cons_eq_cons.mp h
          rw [hxs x (by simp)] at hc'
          exact Bool.noConfusion hc'
      | cons x' rest' =>
          obtain ⟨rfl, hrest⟩ := List.cons_eq_cons.mp h
          obtain ⟨rfl, rfl, rfl⟩ := ih (fun y hy => hxs y (by simp [hy]))
            (fun y hy => hxs' y (by simp [hy])) hc hc' hrest
          exact ⟨rfl, rfl, rfl⟩

/-- **A number ends where its digits do.** -/
theorem number_append_inj {m n : Nat} {c c' : Char} {ys ys' : List Char}
    (hc : c.isDigit = false) (hc' : c'.isDigit = false)
    (h : number m ++ c :: ys = number n ++ c' :: ys') : m = n ∧ c = c' ∧ ys = ys' := by
  obtain ⟨hnum, hsep, hrest⟩ := append_cons_inj (p := Char.isDigit)
    (fun _ => isDigit_of_mem_number) (fun _ => isDigit_of_mem_number) hc hc' h
  exact ⟨number_injective hnum, hsep, hrest⟩

/-! ### Lists of numbers -/

/-- Numbers separated by a comma and a blank. -/
def numbers (ns : List Nat) : List Char := (", ".intercalate (ns.map toString)).toList

theorem numbers_nil : numbers [] = [] := by simp [numbers]

theorem numbers_singleton (n : Nat) : numbers [n] = number n := by simp [numbers, number]

theorem numbers_cons_cons (m n : Nat) (rest : List Nat) :
    numbers (m :: n :: rest) = number m ++ ',' :: ' ' :: numbers (n :: rest) := by
  simp [numbers, number, String.intercalate_cons_cons]

/-- A nonempty list starts with a number, and what follows the number is no digit. -/
private theorem numbers_cons_append (n : Nat) (rest : List Nat) (ys : List Char) :
    ∃ c cs, numbers (n :: rest) ++ ']' :: ys = number n ++ c :: cs ∧ c.isDigit = false := by
  cases rest with
  | nil => exact ⟨']', ys, by rw [numbers_singleton], by decide⟩
  | cons m rest =>
      exact ⟨',', ' ' :: (numbers (m :: rest) ++ ']' :: ys), by simp [numbers_cons_cons], by decide⟩

/-- **A bracketed list of numbers determines the numbers, and ends at its bracket.** -/
theorem numbers_append_inj : ∀ {ms ns : List Nat} {ys ys' : List Char},
    numbers ms ++ ']' :: ys = numbers ns ++ ']' :: ys' → ms = ns ∧ ys = ys' := by
  intro ms
  -- The empty list shows its bracket where any other shows a digit.
  have hempty : ∀ (n : Nat) (rest : List Nat) (ys ys' : List Char),
      ']' :: ys ≠ numbers (n :: rest) ++ ']' :: ys' := by
    intro n rest ys ys' h
    obtain ⟨c, cs, hcs, -⟩ := numbers_cons_append n rest ys'
    obtain ⟨d, ds, hds, hdigit⟩ := exists_number_eq_cons n
    rw [hcs, hds, List.cons_append] at h
    obtain ⟨rfl, -⟩ := List.cons_eq_cons.mp h
    exact absurd hdigit (by decide)
  induction ms with
  | nil =>
      intro ns ys ys' h
      rw [numbers_nil, List.nil_append] at h
      cases ns with
      | nil => exact ⟨rfl, by simpa [numbers_nil] using h⟩
      | cons n rest => exact absurd h (hempty n rest ys ys')
  | cons m rest ih =>
      intro ns ys ys' h
      cases ns with
      | nil =>
          rw [numbers_nil, List.nil_append] at h
          exact absurd h.symm (hempty m rest ys' ys)
      | cons n rest' =>
          cases rest with
          | nil =>
              obtain ⟨c, cs, hcs, hc⟩ := numbers_cons_append n rest' ys'
              rw [numbers_singleton, hcs] at h
              obtain ⟨rfl, rfl, rfl⟩ := number_append_inj (by decide) hc h
              cases rest' with
              | nil =>
                  rw [numbers_singleton, List.append_right_inj] at hcs
                  exact ⟨rfl, (List.cons_eq_cons.mp hcs).2.symm⟩
              | cons k rest' =>
                  rw [numbers_cons_cons, List.append_assoc, List.append_right_inj] at hcs
                  exact absurd hcs (by simp)
          | cons k rest =>
              obtain ⟨c, cs, hcs, hc⟩ := numbers_cons_append n rest' ys'
              rw [hcs, numbers_cons_cons, List.append_assoc, List.cons_append] at h
              obtain ⟨rfl, rfl, rfl⟩ := number_append_inj (by decide) hc h
              cases rest' with
              | nil =>
                  rw [numbers_singleton, List.append_right_inj] at hcs
                  exact absurd hcs (by simp)
              | cons k' rest' =>
                  rw [numbers_cons_cons, List.append_assoc, List.append_right_inj] at hcs
                  obtain ⟨hrest, hys⟩ := ih (by simpa using hcs.symm)
                  exact ⟨by rw [hrest], hys⟩

end Decimal
