/-
Quorum intersection.

Two sets of voters drawn from the same members overlap once their sizes add up to
more than there are members, and overlap outside a set of faulty members once
they add up to more than members and faulty ones together.  Every agreement
argument by voting comes down to this.
-/
import Mathlib.Data.Finset.Card

namespace Quorum

variable {α : Type} [DecidableEq α] {members voters voters' : Finset α}

/-- What two sets of voters have in common is what does not fit among the members. -/
theorem card_add_card_le (h : voters ⊆ members) (h' : voters' ⊆ members) :
    voters.card + voters'.card ≤ members.card + (voters ∩ voters').card := by
  have hunion : (voters ∪ voters').card ≤ members.card :=
    Finset.card_le_card (Finset.union_subset h h')
  have hsum := Finset.card_union_add_card_inter voters voters'
  omega

/-- **Two quorums share a member that is not faulty.** -/
theorem exists_correct_in_both (faulty : Finset α) (h : voters ⊆ members) (h' : voters' ⊆ members)
    (hcard : members.card + faulty.card < voters.card + voters'.card) :
    ∃ a ∈ voters, a ∈ voters' ∧ a ∉ faulty := by
  have hinter := card_add_card_le h h'
  have hpos : 0 < ((voters ∩ voters') \ faulty).card := by
    have hsdiff := Finset.le_card_sdiff faulty (voters ∩ voters')
    omega
  obtain ⟨a, ha⟩ := Finset.card_pos.mp hpos
  obtain ⟨hboth, hcorrect⟩ := Finset.mem_sdiff.mp ha
  obtain ⟨hv, hv'⟩ := Finset.mem_inter.mp hboth
  exact ⟨a, hv, hv', hcorrect⟩

/-- Two sets of voters of one size can have no more in common than they are forced to. -/
theorem exists_smallest_overlap {q : Nat} (hq : q ≤ members.card) :
    ∃ voters ⊆ members, ∃ voters' ⊆ members, voters.card = q ∧ voters'.card = q ∧
      (voters ∩ voters').card = 2 * q - members.card := by
  obtain ⟨voters, hvoters, hcard⟩ := Finset.exists_subset_card_eq hq
  have hothers : (members \ voters).card = members.card - q := by
    rw [Finset.card_sdiff_of_subset hvoters, hcard]
  by_cases hroom : q ≤ (members \ voters).card
  · -- There is room for a second set beside the first.
    obtain ⟨voters', hvoters', hcard'⟩ := Finset.exists_subset_card_eq hroom
    have hdisjoint : Disjoint voters voters' :=
      Finset.disjoint_of_subset_right hvoters' Finset.disjoint_sdiff
    refine ⟨voters, hvoters, voters', hvoters'.trans Finset.sdiff_subset, hcard, hcard', ?_⟩
    rw [Finset.disjoint_iff_inter_eq_empty.mp hdisjoint, Finset.card_empty]
    omega
  · -- The second takes everybody the first left out, and fills up.
    obtain ⟨voters', hall, hvoters', hcard'⟩ :=
      Finset.exists_subsuperset_card_eq (Finset.sdiff_subset : members \ voters ⊆ members)
        (Nat.le_of_not_le hroom) hq
    have hinter : voters ∩ voters' = voters' \ (members \ voters) := by
      ext a
      have hmember : a ∈ voters' → a ∈ members := fun h => hvoters' h
      simp only [Finset.mem_inter, Finset.mem_sdiff]
      tauto
    refine ⟨voters, hvoters, voters', hvoters', hcard, hcard', ?_⟩
    rw [hinter, Finset.card_sdiff_of_subset hall, hcard', hothers]
    omega

end Quorum
