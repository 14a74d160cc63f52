/-
What comes before what in a list that grows.

Somebody who is told a list from its start has, at any time, been told a prefix of it.
`Precedes l a b` says that whoever has been told `b` has been told `a`: an order that
is there once both are in the list, and that no later entry can undo.
-/
import Mathlib.Data.List.Infix

/-- Every prefix of the list that has `b` has `a`. -/
def Precedes {α : Type} (l : List α) (a b : α) : Prop :=
  ∀ front, front <+: l → b ∈ front → a ∈ front

namespace Precedes

variable {α : Type} {l l' : List α} {a b : α}

theorem mem (h : Precedes l a b) (hb : b ∈ l) : a ∈ l := h l (List.prefix_refl l) hb

theorem of_notMem (hb : b ∉ l) : Precedes l a b :=
  fun _ hfront hmem => absurd (hfront.subset hmem) hb

/-- **What is added cannot undo the order**, if it comes in that order itself or finds `a` there. -/
theorem append (h : Precedes l a b) (h' : b ∈ l' → a ∈ l ∨ Precedes l' a b) :
    Precedes (l ++ l') a b := by
  intro front hfront hb
  rcases List.prefix_or_prefix_of_prefix hfront (List.prefix_append l l') with hshort | hlong
  · exact h front hshort hb
  -- The prefix has all of the list, and the first part of what is added.
  obtain ⟨first, rfl⟩ := hlong
  have hfirst : first <+: l' := (List.prefix_append_right_inj l).mp hfront
  rcases List.mem_append.mp hb with hold | hnew
  · exact List.mem_append_left first (h.mem hold)
  · rcases h' (hfirst.subset hnew) with ha | hadded
    · exact List.mem_append_left first ha
    · exact List.mem_append_right l (hadded first hfirst hnew)

theorem pair (hne : a ≠ b) : Precedes [a, b] a b := by
  rintro front ⟨rest, hrest⟩ hb
  cases front with
  | nil => exact absurd hb (by simp)
  | cons c front =>
      obtain ⟨rfl, -⟩ := List.cons.inj hrest
      exact List.mem_cons_self

end Precedes
