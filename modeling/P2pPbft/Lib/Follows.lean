/-
Following pointers.

From each place there is at most one way on, and at some places one stops.  Following
the pointers either comes to a place to stop or goes on for ever; `Follows` is the
first of the two, with the path that was taken.

A path never visits a place twice, since from a place there is only one path.  When
the pointer of one place is turned to another place, every path still ends if the
path from there does not lead back, and only then.
-/
import Mathlib.Data.List.Basic
import Mathlib.Data.List.Nodup
import Mathlib.Logic.Function.Iterate

/-- `Follows next stop a path`: from `a` the path `path` leads to a place to stop. -/
inductive Follows {α : Type} (next : α → α → Prop) (stop : α → Prop) : α → List α → Prop
  | arrive {a : α} (h : stop a) : Follows next stop a [a]
  | step {a b : α} {path : List α} (h : next a b) (hrest : Follows next stop b path) :
      Follows next stop a (a :: path)

namespace Follows

variable {α : Type} {next next' : α → α → Prop} {stop stop' : α → Prop} {a b : α}
  {path path' : List α}

/-- There is at most one way on, and none where one stops. -/
structure Determined (next : α → α → Prop) (stop : α → Prop) : Prop where
  unique : ∀ {a b c}, next a b → next a c → b = c
  final : ∀ {a b}, stop a → ¬ next a b

theorem exists_last (h : Follows next stop a path) : ∃ z ∈ path.getLast?, stop z := by
  induction h with
  | arrive hstop => exact ⟨_, rfl, hstop⟩
  | step _ hrest ih =>
      obtain ⟨z, hz, hstop⟩ := ih
      refine ⟨z, ?_, hstop⟩
      rw [List.getLast?_cons, hz]
      rfl

/-- **From a place there is only one path.** -/
theorem unique (hdet : Determined next stop) (h : Follows next stop a path)
    (h' : Follows next stop a path') : path = path' := by
  induction h generalizing path' with
  | arrive hstop =>
      cases h' with
      | arrive _ => rfl
      | step hnext _ => exact absurd hnext (hdet.final hstop)
  | step hnext hrest ih =>
      cases h' with
      | arrive hstop => exact absurd hnext (hdet.final hstop)
      | step hnext' hrest' =>
          obtain rfl := hdet.unique hnext hnext'
          rw [ih hrest']

theorem exists_rest (h : Follows next stop a path) {x : α} (hx : x ∈ path) :
    ∃ rest, Follows next stop x rest ∧ rest.length ≤ path.length := by
  induction h with
  | arrive hstop =>
      obtain rfl := List.mem_singleton.mp hx
      exact ⟨_, arrive hstop, Nat.le_refl _⟩
  | step hnext hrest ih =>
      rcases List.mem_cons.mp hx with rfl | hx
      · exact ⟨_, step hnext hrest, Nat.le_refl _⟩
      · obtain ⟨rest, h, hle⟩ := ih hx
        exact ⟨rest, h, Nat.le_succ_of_le hle⟩

/-- **A path visits no place twice.** -/
theorem nodup (hdet : Determined next stop) (h : Follows next stop a path) : path.Nodup := by
  induction h with
  | arrive _ => exact List.nodup_singleton _
  | @step a b path hnext hrest ih =>
      refine List.nodup_cons.mpr ⟨fun hmem => ?_, ih⟩
      obtain ⟨rest, h, hle⟩ := hrest.exists_rest hmem
      obtain rfl := h.unique hdet (step hnext hrest)
      exact absurd hle (by simp)

theorem mono (hnext : ∀ {a b}, next a b → next' a b) (hstop : ∀ {a}, stop a → stop' a)
    (h : Follows next stop a path) : Follows next' stop' a path := by
  induction h with
  | arrive h => exact arrive (hstop h)
  | step h _ ih => exact step (hnext h) ih

/-! ### Pointers given by a function -/

section

variable {f : α → α}

/-- A function that goes on as the pointers do, and stays where one stops, never leaves the path. -/
theorem iterate_mem (hnext : ∀ a b, next a b → f a = b) (hstop : ∀ a, stop a → f a = a)
    (h : Follows next stop a path) (k : Nat) : f^[k] a ∈ path := by
  induction h generalizing k with
  | arrive h =>
      rw [Function.iterate_fixed (hstop _ h)]
      exact List.mem_singleton_self _
  | @step a b path h _ ih =>
      cases k with
      | zero => exact List.mem_cons_self
      | succ k =>
          rw [Function.iterate_succ_apply, hnext _ _ h]
          exact List.mem_cons_of_mem _ (ih k)

theorem exists_iterate (hnext : ∀ a b, next a b → f a = b) (h : Follows next stop a path) {x : α}
    (hx : x ∈ path) : ∃ k < path.length, f^[k] a = x := by
  induction h with
  | arrive _ =>
      obtain rfl := List.mem_singleton.mp hx
      exact ⟨0, Nat.zero_lt_one, rfl⟩
  | @step a b path h _ ih =>
      rcases List.mem_cons.mp hx with rfl | hx
      · exact ⟨0, Nat.zero_lt_succ _, rfl⟩
      · obtain ⟨k, hk, hiter⟩ := ih hx
        refine ⟨k + 1, Nat.succ_lt_succ hk, ?_⟩
        rw [Function.iterate_succ_apply, hnext _ _ h]
        exact hiter

end

/-! ### Turning one pointer -/

/-- The systems differ in the way on from one place only. -/
structure Redirects (next next' : α → α → Prop) (stop stop' : α → Prop) (a₀ b₀ : α) : Prop where
  next_iff : ∀ {a b}, a ≠ a₀ → (next' a b ↔ next a b)
  stop_iff : ∀ {a}, a ≠ a₀ → (stop' a ↔ stop a)
  turned : next' a₀ b₀

variable {a₀ b₀ : α}

/-- A path that does not come by the place is still a path. -/
theorem avoid (hturn : Redirects next next' stop stop' a₀ b₀) (h : Follows next stop a path)
    (havoid : a₀ ∉ path) : Follows next' stop' a path := by
  induction h with
  | arrive hstop =>
      have hne := List.ne_of_not_mem_cons havoid
      exact arrive ((hturn.stop_iff hne.symm).mpr hstop)
  | step hnext hrest ih =>
      have hne := List.ne_of_not_mem_cons havoid
      exact step ((hturn.next_iff hne.symm).mpr hnext) (ih (List.not_mem_of_not_mem_cons havoid))

/-- **All paths still end**, if the one from the new place does not lead back. -/
theorem redirect (hturn : Redirects next next' stop stop' a₀ b₀)
    (hnew : Follows next stop b₀ path') (havoid : a₀ ∉ path') (h : Follows next stop a path) :
    ∃ path'', Follows next' stop' a path'' := by
  have hturned : Follows next' stop' a₀ (a₀ :: path') := step hturn.turned (hnew.avoid hturn havoid)
  induction h with
  | @arrive a hstop =>
      by_cases ha : a = a₀
      · exact ⟨_, ha ▸ hturned⟩
      · exact ⟨_, arrive ((hturn.stop_iff ha).mpr hstop)⟩
  | @step a b path hnext _ ih =>
      by_cases ha : a = a₀
      · exact ⟨_, ha ▸ hturned⟩
      · obtain ⟨rest, hrest⟩ := ih
        exact ⟨_, step ((hturn.next_iff ha).mpr hnext) hrest⟩

theorem leads_back (hturn : Redirects next next' stop stop' a₀ b₀) (hdet : Determined next stop)
    (h : Follows next stop a path) (hmem : a₀ ∈ path) (h' : Follows next' stop' a path') :
    ∃ rest, Follows next' stop' a₀ rest ∧ rest.length ≤ path'.length := by
  induction h generalizing path' with
  | arrive hstop =>
      obtain rfl := List.mem_singleton.mp hmem
      exact ⟨path', h', Nat.le_refl _⟩
  | @step a b path hnext hrest ih =>
      by_cases ha : a = a₀
      · exact ⟨path', ha ▸ h', Nat.le_refl _⟩
      have hmem : a₀ ∈ path := (List.mem_cons.mp hmem).resolve_left (Ne.symm ha)
      cases h' with
      | arrive hstop => exact absurd hnext (hdet.final ((hturn.stop_iff ha).mp hstop))
      | step hnext' hrest' =>
          obtain rfl := hdet.unique hnext ((hturn.next_iff ha).mp hnext')
          obtain ⟨rest, hfrom, hle⟩ := ih hmem hrest'
          exact ⟨rest, hfrom, Nat.le_succ_of_le hle⟩

/-- **Otherwise the path from the place never ends.** -/
theorem not_of_leads_back (hturn : Redirects next next' stop stop' a₀ b₀)
    (hdet : Determined next stop) (hdet' : Determined next' stop')
    (hnew : Follows next stop b₀ path) (hmem : a₀ ∈ path) : ¬ Follows next' stop' a₀ path' := by
  intro h
  cases h with
  | arrive hstop => exact hdet'.final hstop hturn.turned
  | @step _ b rest hnext hrest =>
      obtain rfl := hdet'.unique hnext hturn.turned
      obtain ⟨rest', h', hle⟩ := hnew.leads_back hturn hdet hmem hrest
      obtain rfl := h'.unique hdet' (step hnext hrest)
      exact absurd hle (by simp)

end Follows
