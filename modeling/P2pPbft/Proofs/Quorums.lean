/-
How far two quorums overlap.

A quorum is `2 * f + 1` with `f = (n - 1) / 3`, for any number `n` of replicas.  With
`n = 3 * f + 1` two quorums share `f + 1` replicas, so at least one that is not faulty.
The division rounds down, so one or two replicas more leave the quorum as it was, and
the overlap shrinks by as many.
-/
import P2pPbft.State
import P2pPbft.Lib.Quorum

namespace P2pPbft

namespace PbftConfig

/--
Any two quorums of the replicas have more than `f` of them in common, and the others
make up a quorum when `f` are faulty.
-/
structure Intersects (config : PbftConfig) : Prop where
  overlap : ∀ (α : Type) [DecidableEq α] (members voters voters' : Finset α),
    members.card = config.n → voters ⊆ members → voters' ⊆ members →
      config.quorum ≤ voters.card → config.quorum ≤ voters'.card →
        config.f + 1 ≤ (voters ∩ voters').card
  available : config.quorum ≤ config.n - config.f

theorem f_new {n : Nat} (hn : 1 ≤ n) : (new n).f = (n - 1) / 3 := by
  show usizeSub n 1 / 3 = (n - 1) / 3
  unfold usizeSub
  rw [if_pos hn]

theorem quorum_le {n : Nat} (hn : 1 ≤ n) : (new n).quorum ≤ (new n).n - (new n).f := by
  have hf := f_new hn
  show 2 * (new n).f + 1 ≤ n - (new n).f
  omega

/-- **Two quorums share an honest replica exactly if there are `3 * f + 1` of them.** -/
theorem intersects_iff {n : Nat} (hn : 1 ≤ n) : (new n).Intersects ↔ n % 3 = 1 := by
  have hf := f_new hn
  have hquorum : (new n).quorum = 2 * (new n).f + 1 := rfl
  constructor
  · intro h
    have hfits : (new n).quorum ≤ (Finset.range n).card := by
      rw [Finset.card_range]
      omega
    obtain ⟨voters, hvoters, voters', hvoters', hcard, hcard', hinter⟩ :=
      Quorum.exists_smallest_overlap hfits
    have hoverlap := h.overlap Nat (Finset.range n) voters voters' (Finset.card_range n) hvoters
      hvoters' hcard.ge hcard'.ge
    rw [Finset.card_range] at hinter
    omega
  · intro hmod
    refine ⟨fun α _ members voters voters' hn' hvoters hvoters' hcard hcard' => ?_, quorum_le hn⟩
    have hinter := Quorum.card_add_card_le hvoters hvoters'
    have hsize : members.card = n := hn'
    omega

theorem intersects_iff_four : (new 4).Intersects :=
  (intersects_iff (by decide)).mpr rfl

/-- **Of six replicas two quorums can have nobody in common.** -/
theorem not_intersects_six : ¬ (new 6).Intersects := by
  intro h
  have hoverlap := h.overlap Nat (Finset.range 6) {0, 1, 2} {3, 4, 5} (by decide) (by decide)
    (by decide) (by decide) (by decide)
  exact absurd hoverlap (by decide)

end PbftConfig

end P2pPbft
