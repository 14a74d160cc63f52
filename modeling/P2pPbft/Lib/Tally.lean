/-
Counting votes for numbers.

Voters vote for numbers, in any order and as often as they like.  A number is backed
when a quorum of voters has voted for it, and what a counter has to know is the
highest number that is backed.

A counter need not keep every vote.  Once a number is backed, votes for lower ones
cannot matter any more, and it may drop them: `Counts` is what a counter that does so
still has right, `stay` and `rise` are the two things a vote can do to it.

Numbers are of any type, ordered by their rank.
-/
import Mathlib.Data.Finset.Card
import Mathlib.Data.Finset.Dedup

namespace Tally

variable {N V : Type} [DecidableEq N] [DecidableEq V] {rank : N → Nat} {quorum : Nat}
  {votes votes' : List (N × V)} {high high' m n : N} {v : V} {kept kept' : N → Finset V}

/-- Who has voted for the number. -/
def backers (votes : List (N × V)) (n : N) : Finset V :=
  ((votes.filter fun vote => vote.1 = n).map (·.2)).toFinset

theorem mem_backers : v ∈ backers votes n ↔ (n, v) ∈ votes := by
  unfold backers
  rw [List.mem_toFinset, List.mem_map]
  constructor
  · rintro ⟨⟨n', v'⟩, hvote, rfl⟩
    rw [List.mem_filter, decide_eq_true_eq] at hvote
    obtain ⟨hmem, rfl⟩ := hvote
    exact hmem
  · intro h
    exact ⟨(n, v), by simp [h], rfl⟩

/-- Who backs what depends on the set of votes alone. -/
theorem backers_congr (h : ∀ vote, vote ∈ votes ↔ vote ∈ votes') :
    backers votes n = backers votes' n := by
  ext v
  rw [mem_backers, mem_backers, h]

theorem backers_concat (votes : List (N × V)) (m n : N) (v : V) :
    backers (votes ++ [(m, v)]) n
      = if n = m then insert v (backers votes n) else backers votes n := by
  ext w
  rw [mem_backers, List.mem_append, List.mem_singleton, Prod.mk.injEq]
  by_cases h : n = m
  · rw [if_pos h, Finset.mem_insert, mem_backers]
    tauto
  · rw [if_neg h, mem_backers]
    tauto

/-- The highest number a quorum has voted for; one of rank 0 if there is none. -/
structure IsHighest (rank : N → Nat) (quorum : Nat) (votes : List (N × V)) (high : N) : Prop where
  backed : 0 < rank high → quorum ≤ (backers votes high).card
  highest : ∀ n, quorum ≤ (backers votes n).card → rank n ≤ rank high

theorem IsHighest.nil (hquorum : 0 < quorum) (hhigh : rank high = 0) :
    IsHighest rank quorum ([] : List (N × V)) high where
  backed := by
    intro h
    omega
  highest := by
    intro n h
    rw [backers, List.filter_nil, List.map_nil, List.toFinset_nil, Finset.card_empty] at h
    omega

theorem IsHighest.congr (h : IsHighest rank quorum votes high)
    (hsame : ∀ vote, vote ∈ votes ↔ vote ∈ votes') : IsHighest rank quorum votes' high where
  backed := by
    intro hpos
    rw [← backers_congr hsame]
    exact h.backed hpos
  highest := by
    intro n hn
    rw [← backers_congr hsame] at hn
    exact h.highest n hn

theorem IsHighest.unique (h : IsHighest rank quorum votes high)
    (h' : IsHighest rank quorum votes high') : rank high = rank high' := by
  have hle : ∀ {a b : N}, IsHighest rank quorum votes a → IsHighest rank quorum votes b →
      rank a ≤ rank b := by
    intro a b ha hb
    by_cases hpos : 0 < rank a
    · exact hb.highest a (ha.backed hpos)
    · omega
  exact Nat.le_antisymm (hle h h') (hle h' h)

/-- The counter knows the highest number, and who has voted for the ones above it. -/
structure Counts (rank : N → Nat) (quorum : Nat) (votes : List (N × V)) (high : N)
    (kept : N → Finset V) : Prop extends IsHighest rank quorum votes high where
  kept : ∀ n, rank high < rank n → kept n = backers votes n

theorem card_backers_le (votes : List (N × V)) (m n : N) (v : V) :
    (backers votes n).card ≤ (backers (votes ++ [(m, v)]) n).card := by
  refine Finset.card_le_card fun w hw => ?_
  rw [mem_backers] at hw ⊢
  exact List.mem_append_left _ hw

/-- **A vote that makes no higher number backed is just filed.** -/
theorem Counts.stay (h : Counts rank quorum votes high kept)
    (hkept : ∀ n, rank high < rank n → kept' n = if n = m then insert v (kept n) else kept n)
    (hfew : rank high < rank m → (kept' m).card < quorum) :
    Counts rank quorum (votes ++ [(m, v)]) high kept' where
  backed := by
    intro hpos
    exact (h.backed hpos).trans (card_backers_le votes m high v)
  highest := by
    intro n hn
    by_cases habove : rank high < rank n
    · by_cases hm : n = m
      · subst hm
        have hsame := hkept n habove
        have hfew := hfew habove
        rw [if_pos rfl, h.kept n habove] at hsame
        rw [backers_concat, if_pos rfl, ← hsame] at hn
        omega
      · rw [backers_concat, if_neg hm] at hn
        exact h.highest n hn
    · omega
  kept := by
    intro n habove
    rw [hkept n habove, h.kept n habove, backers_concat]

/-- **A vote that completes a quorum for a higher number makes it the highest**, and what is
kept for those above is kept. -/
theorem Counts.rise (h : Counts rank quorum votes high kept) (hm : rank high < rank m)
    (hquorum : quorum ≤ (insert v (kept m)).card)
    (hkept : ∀ n, rank m < rank n → kept' n = kept n) :
    Counts rank quorum (votes ++ [(m, v)]) m kept' where
  backed := by
    intro _
    rw [backers_concat, if_pos rfl, ← h.kept m hm]
    exact hquorum
  highest := by
    intro n hn
    by_cases hnm : n = m
    · rw [hnm]
    · rw [backers_concat, if_neg hnm] at hn
      have hle := h.highest n hn
      omega
  kept := by
    intro n habove
    have hne : n ≠ m := by
      rintro rfl
      omega
    rw [hkept n habove, h.kept n (by omega), backers_concat, if_neg hne]

end Tally
