/-
Hexadecimal text.

A byte is written as two digits, and the digits above nine may be written in either case.
So bytes do not determine the text they were read from: what the digits are worth is the
same in both cases.  They do determine a text that is known to be in lower case.

Texts are lists of ASCII codes.
-/
import Mathlib.Data.List.Basic

namespace Hex

/-- What a digit is worth, in either case. -/
def value (c : UInt8) : Option Nat :=
  if 48 ≤ c.toNat ∧ c.toNat ≤ 57 then some (c.toNat - 48)
  else if 97 ≤ c.toNat ∧ c.toNat ≤ 102 then some (c.toNat - 87)
  else if 65 ≤ c.toNat ∧ c.toNat ≤ 70 then some (c.toNat - 55)
  else none

/-- A digit as one writes it in lower case. -/
def IsLower (c : UInt8) : Prop :=
  (48 ≤ c.toNat ∧ c.toNat ≤ 57) ∨ (97 ≤ c.toNat ∧ c.toNat ≤ 102)

instance (c : UInt8) : Decidable (IsLower c) :=
  inferInstanceAs (Decidable ((48 ≤ c.toNat ∧ c.toNat ≤ 57) ∨ (97 ≤ c.toNat ∧ c.toNat ≤ 102)))

/-- The high and the low half of every byte. -/
def nibbles (bytes : List UInt8) : List Nat :=
  bytes.flatMap fun b => [b.toNat / 16, b.toNat % 16]

/-- The text consists of digits only, two for each of the bytes. -/
def Reads (text : List UInt8) (bytes : List UInt8) : Prop :=
  text.map value = (nibbles bytes).map some

theorem value_lt {c : UInt8} {n : Nat} (h : value c = some n) : n < 16 := by
  unfold value at h
  split at h
  · have h := Option.some.inj h
    omega
  split at h
  · have h := Option.some.inj h
    omega
  split at h
  · have h := Option.some.inj h
    omega
  · exact absurd h (by simp)

/-! ### Reading two digits at a time -/

theorem reads_nil {bytes : List UInt8} : Reads [] bytes ↔ bytes = [] := by
  cases bytes <;> simp [Reads, nibbles]

theorem not_reads_singleton (c : UInt8) (bytes : List UInt8) : ¬ Reads [c] bytes := by
  cases bytes <;> simp [Reads, nibbles]

theorem not_reads_cons_nil (c : UInt8) (text : List UInt8) : ¬ Reads (c :: text) [] := by
  simp [Reads, nibbles]

theorem reads_cons {c d b : UInt8} {text bytes : List UInt8} :
    Reads (c :: d :: text) (b :: bytes) ↔
      value c = some (b.toNat / 16) ∧ value d = some (b.toNat % 16) ∧ Reads text bytes := by
  simp [Reads, nibbles]

theorem ofNat_eq_iff {x y : Nat} (hx : x < 16) (hy : y < 16) (b : UInt8) :
    UInt8.ofNat (16 * x + y) = b ↔ x = b.toNat / 16 ∧ y = b.toNat % 16 := by
  have hb : b.toNat < 256 := b.toNat_lt
  rw [← UInt8.toNat_inj, UInt8.toNat_ofNat_of_lt' (by show 16 * x + y < 256; omega)]
  omega

/-! ### Lower case -/

theorem value_of_isLower {c : UInt8} (h : IsLower c) :
    value c = some (if c.toNat ≤ 57 then c.toNat - 48 else c.toNat - 87) := by
  unfold value
  rcases h with ⟨hlow, hhigh⟩ | ⟨hlow, hhigh⟩
  · rw [if_pos ⟨hlow, hhigh⟩, if_pos hhigh]
  · rw [if_neg (by omega), if_pos ⟨hlow, hhigh⟩, if_neg (by omega)]

/-- In one case a digit is known by what it is worth. -/
theorem value_inj {c d : UInt8} (hc : IsLower c) (hd : IsLower d) (h : value c = value d) :
    c = d := by
  rw [value_of_isLower hc, value_of_isLower hd] at h
  have h := Option.some.inj h
  refine UInt8.toNat_inj.mp ?_
  unfold IsLower at hc hd
  split at h <;> split at h <;> omega

theorem map_value_inj {text text' : List UInt8} (ht : ∀ c ∈ text, IsLower c)
    (ht' : ∀ c ∈ text', IsLower c) (h : text.map value = text'.map value) : text = text' := by
  induction text generalizing text' with
  | nil => exact (List.map_eq_nil_iff.mp h.symm).symm
  | cons c rest ih =>
      cases text' with
      | nil => exact absurd h (by simp)
      | cons c' rest' =>
          rw [List.map_cons, List.map_cons, List.cons.injEq] at h
          have hc := value_inj (ht c List.mem_cons_self) (ht' c' List.mem_cons_self) h.1
          have hrest := ih (fun c hc => ht c (List.mem_cons_of_mem _ hc))
            (fun c hc => ht' c (List.mem_cons_of_mem _ hc)) h.2
          rw [hc, hrest]

/-- **Two texts in lower case that stand for the same bytes are the same text.** -/
theorem Reads.unique {text text' bytes : List UInt8} (h : Reads text bytes)
    (h' : Reads text' bytes) (ht : ∀ c ∈ text, IsLower c) (ht' : ∀ c ∈ text', IsLower c) :
    text = text' :=
  map_value_inj ht ht' (h.trans h'.symm)

end Hex
