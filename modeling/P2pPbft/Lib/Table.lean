/-
Finite tables.

A hash map is modelled by a `Finmap`: finitely many keys, at most one value under
each, and no order that a program could observe.  Two tables with the same
lookups are equal, so "the map is unchanged" is an equation.

Mathlib has lookup, insertion and erasure; what a program that drops entries in
bulk needs on top is `retain`, and what one that counts votes needs is the size
of the key set after an insertion.
-/
import Mathlib.Data.Finmap

/-! ### What holds of the value that is there

Of an option one looks at the value.  These come before the instances for a finite type,
which go through all of its values, and there are too many machine integers for that.
-/

section

variable {A : Type} {p : A → Prop} [DecidablePred p]

instance (priority := 2000) decidableForallSome : (o : Option A) → Decidable (∀ a, o = some a → p a)
  | none => isTrue fun _ h => nomatch h
  | some a => decidable_of_iff (p a) ⟨fun h _ ha => Option.some.inj ha ▸ h, fun h => h a rfl⟩

instance (priority := 2000) decidableForallMem (o : Option A) : Decidable (∀ a ∈ o, p a) :=
  decidableForallSome o

end

/-- A finite map from `K` to `V`, up to the order of its entries. -/
abbrev Table (K V : Type) : Type := Finmap fun _ : K => V

namespace Table

variable {K V : Type} [DecidableEq K]

@[simp] theorem keys_insert (k : K) (v : V) (t : Table K V) :
    (t.insert k v).keys = insert k t.keys := by
  ext a
  simp [Finmap.mem_keys, Finmap.mem_insert]

theorem mem_keys_of_lookup {t : Table K V} {k : K} {v : V} (h : t.lookup k = some v) :
    k ∈ t.keys :=
  Finmap.mem_keys.mpr (Finmap.mem_of_lookup_eq_some h)

theorem exists_lookup_of_mem_keys {t : Table K V} {k : K} (h : k ∈ t.keys) :
    ∃ v, t.lookup k = some v :=
  Finmap.mem_iff.mp (Finmap.mem_keys.mp h)

theorem lookup_insert_eq_if (t : Table K V) (k k' : K) (v : V) :
    (t.insert k v).lookup k' = if k' = k then some v else t.lookup k' := by
  by_cases h : k' = k
  · subst h
    simp
  · rw [if_neg h, Finmap.lookup_insert_of_ne _ h]

theorem lookup_insert_cases {t : Table K V} {k k' : K} {v v' : V}
    (h : (t.insert k v).lookup k' = some v') :
    k' = k ∧ v' = v ∨ k' ≠ k ∧ t.lookup k' = some v' := by
  rw [lookup_insert_eq_if] at h
  by_cases hk : k' = k
  · rw [if_pos hk] at h
    exact Or.inl ⟨hk, (Option.some.inj h).symm⟩
  · rw [if_neg hk] at h
    exact Or.inr ⟨hk, h⟩

theorem forall_insert {P : K → V → Prop} {t : Table K V} {k : K} {v : V}
    (h : ∀ k' v', t.lookup k' = some v' → P k' v') (hv : P k v) {k' : K} {v' : V}
    (hlookup : (t.insert k v).lookup k' = some v') : P k' v' := by
  rcases lookup_insert_cases hlookup with ⟨rfl, rfl⟩ | ⟨-, hold⟩
  · exact hv
  · exact h k' v' hold

/-- Overwriting never loses a key. -/
theorem card_keys_le_insert (t : Table K V) (k : K) (v : V) :
    t.keys.card ≤ (t.insert k v).keys.card := by
  rw [keys_insert]
  exact Finset.card_le_card (Finset.subset_insert _ _)

/-! ### Dropping entries by key -/

private theorem dlookup_filter {β : K → Type} (p : K → Bool) (k : K) :
    ∀ l : List (Sigma β), (l.filter fun e => p e.1).dlookup k
      = if p k then l.dlookup k else none := by
  intro l
  induction l with
  | nil => simp
  | cons e rest ih =>
      obtain ⟨a, b⟩ := e
      by_cases ha : k = a
      · subst ha
        by_cases hp : p k = true
        · simp [hp]
        · simp [hp, ih]
      · by_cases hp : p a = true
        · rw [List.filter_cons_of_pos (by simpa using hp), List.dlookup_cons_ne _ _ ha, ih,
            List.dlookup_cons_ne _ _ ha]
        · rw [List.filter_cons_of_neg (by simpa using hp), ih, List.dlookup_cons_ne _ _ ha]

/-- Keep the entries whose key passes the test, as a map's `retain` does. -/
def retain (p : K → Bool) (t : Table K V) : Table K V where
  entries := t.entries.filter fun e => p e.1
  nodupKeys := by
    induction t using Finmap.induction_on with
    | H a =>
        exact Multiset.coe_nodupKeys.mpr (a.nodupKeys.sublist List.filter_sublist)

theorem lookup_retain (p : K → Bool) (t : Table K V) (k : K) :
    (retain p t).lookup k = if p k then t.lookup k else none := by
  induction t using Finmap.induction_on with
  | H a =>
      show (a.entries.filter fun e => decide (p e.1 = true)).dlookup k = _
      simp only [Bool.decide_eq_true]
      exact dlookup_filter p k a.entries

theorem lookup_retain_eq_some {p : K → Bool} {t : Table K V} {k : K} {v : V} :
    (retain p t).lookup k = some v ↔ p k = true ∧ t.lookup k = some v := by
  rw [lookup_retain]
  by_cases h : p k = true <;> simp [h]

/-- What a weaker test has dropped before, a stronger one would have dropped. -/
theorem retain_retain {p q : K → Bool} (h : ∀ k, p k = true → q k = true) (t : Table K V) :
    retain p (retain q t) = retain p t := by
  refine Finmap.ext_lookup fun k => ?_
  rw [lookup_retain, lookup_retain, lookup_retain]
  by_cases hp : p k = true
  · rw [if_pos hp, if_pos (h k hp), if_pos hp]
  · rw [if_neg hp, if_neg hp]

/-- The values, up to order. -/
def values (t : Table K V) : Multiset V := t.entries.map fun e => e.2

theorem mem_values {t : Table K V} {v : V} : v ∈ t.values ↔ ∃ k, t.lookup k = some v := by
  constructor
  · intro h
    obtain ⟨⟨k, v'⟩, hmem, rfl⟩ := Multiset.mem_map.mp h
    exact ⟨k, Finmap.mem_lookup_iff.mpr hmem⟩
  · rintro ⟨k, h⟩
    exact Multiset.mem_map.mpr ⟨⟨k, v⟩, Finmap.mem_lookup_iff.mp h, rfl⟩

end Table
