/-
A number that every step uses up.

If every step of a run takes at least one from a potential, but for what the step itself
puts in, the run is no longer than what was there at the start and what was put in; and it
can be gone on with until nothing more is possible.  The potential of a system with many
parts is a sum with a summand for each; a step that changes one part changes one summand.
-/
import Mathlib.Algebra.BigOperators.Group.Finset.Basic
import Mathlib.Algebra.GroupWithZero.Nat
import P2pPbft.Lib.Run

/-- **Changing one summand changes the sum by as much.** -/
theorem Finset.sum_add_of_eq_off {ι : Type} [DecidableEq ι] {s : Finset ι} {i : ι} (hi : i ∈ s)
    {f g : ι → Nat} (hsame : ∀ j ≠ i, g j = f j) : ∑ j ∈ s, g j + f i = ∑ j ∈ s, f j + g i := by
  have hrest : ∑ j ∈ s.erase i, g j = ∑ j ∈ s.erase i, f j :=
    Finset.sum_congr rfl fun j hj => hsame j (Finset.ne_of_mem_erase hj)
  rw [← Finset.add_sum_erase s g hi, ← Finset.add_sum_erase s f hi, hrest]
  omega

namespace Run

variable {S A : Type} {step : S → A → S → Prop} {s t : S} {as : List A}

/-- **The length of a run is bounded by what it can use up.** -/
theorem length_add_le (h : Run step s as t) (potential : S → Nat) (credit : A → Nat)
    (hstep : ∀ {cs t a u}, Run step s cs t → step t a u → (cs ++ [a]) <+: as →
      potential u + 1 ≤ potential t + credit a) :
    as.length + potential t ≤ potential s + (as.map credit).sum := by
  induction h with
  | nil => simp
  | snoc h hlast ih =>
      have hbefore := ih fun hr hs hle => hstep hr hs (hle.trans (List.prefix_append _ _))
      have hnow := hstep h hlast (List.prefix_refl _)
      simp only [List.length_append, List.length_singleton, List.map_append, List.map_singleton,
        List.sum_append, List.sum_singleton]
      omega

end Run
