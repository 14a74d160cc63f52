/-
Runs of a labelled transition system.

A run is the list of labels it took, oldest first, with the states it started and
ended in.  The list is kept because some properties speak about what was done so
far: what was submitted, what was delivered, how often something was called.

An invariant is therefore a predicate on the labels taken and the state reached,
and `Run.invariant` is the one induction every proof about runs goes through.
-/
import Mathlib.Data.List.Basic

/-- `Run step s as t`: doing `as` one after another leads from `s` to `t`. -/
inductive Run {S A : Type} (step : S → A → S → Prop) : S → List A → S → Prop
  | nil (s : S) : Run step s [] s
  | snoc {s t u : S} {as : List A} {a : A} (h : Run step s as t) (hstep : step t a u) :
      Run step s (as ++ [a]) u

namespace Run

variable {S A : Type} {step : S → A → S → Prop} {s t u : S} {as bs : List A} {a : A}

theorem single (h : step s a t) : Run step s [a] t := snoc (nil s) h

theorem append (h : Run step s as t) (h' : Run step t bs u) : Run step s (as ++ bs) u := by
  induction h' with
  | nil => simpa using h
  | snoc _ hstep ih =>
      rw [← List.append_assoc]
      exact snoc ih hstep

/--
**The invariant rule.**  What holds before anything is done, and is kept by every
step taken from a reachable state that has it, holds at the end of every run.
-/
theorem invariant {I : List A → S → Prop} (h : Run step s as t) (hinit : I [] s)
    (hkeep : ∀ {as t a u}, Run step s as t → I as t → step t a u → I (as ++ [a]) u) :
    I as t := by
  induction h with
  | nil => exact hinit
  | snoc h hstep ih => exact hkeep h ih hstep

theorem state_invariant {I : S → Prop} (h : Run step s as t) (hinit : I s)
    (hkeep : ∀ {t a u}, I t → step t a u → I u) : I t :=
  h.invariant (I := fun _ t => I t) hinit fun _ hI hstep => hkeep hI hstep

/--
**The rule for an exact condition.**  If a step from a state that has `I` leads to one that
has it exactly if the step meets the condition, a run keeps `I` all along exactly if all its
steps meet the condition.  What holds of every reachable state, `J`, may be used for that.
-/
theorem keeps_iff {I J : S → Prop} {cond : S → A → Prop} (hinit : I s) (hJ : J s)
    (hkeep : ∀ {t a u}, J t → step t a u → J u)
    (hstep : ∀ {t a u}, J t → I t → step t a u → (I u ↔ cond t a)) :
    Run (fun t a u => step t a u ∧ I u) s as t ↔ Run (fun t a u => cond t a ∧ step t a u) s as t := by
  constructor
  · intro h
    have hboth : (I t ∧ J t) ∧ Run (fun t a u => cond t a ∧ step t a u) s as t := by
      induction h with
      | nil => exact ⟨⟨hinit, hJ⟩, nil _⟩
      | snoc h hlast ih =>
          obtain ⟨⟨hI, hJ⟩, hrun⟩ := ih
          have hcond := (hstep hJ hI hlast.1).mp hlast.2
          exact ⟨⟨hlast.2, hkeep hJ hlast.1⟩, snoc hrun ⟨hcond, hlast.1⟩⟩
    exact hboth.2
  · intro h
    have hboth : (I t ∧ J t) ∧ Run (fun t a u => step t a u ∧ I u) s as t := by
      induction h with
      | nil => exact ⟨⟨hinit, hJ⟩, nil _⟩
      | snoc h hlast ih =>
          obtain ⟨⟨hI, hJ⟩, hrun⟩ := ih
          have hafter := (hstep hJ hI hlast.2).mpr hlast.1
          exact ⟨⟨hafter, hkeep hJ hlast.2⟩, snoc hrun ⟨hlast.2, hafter⟩⟩
    exact hboth.2

theorem mono {step' : S → A → S → Prop} (hsub : ∀ {t a u}, step t a u → step' t a u)
    (h : Run step s as t) : Run step' s as t := by
  induction h with
  | nil => exact nil _
  | snoc _ hstep ih => exact snoc ih (hsub hstep)

/-- **The simulation rule.**  If every step is, seen through a function, a step of another
system, every run is a run of it. -/
theorem map {S' A' : Type} {step' : S' → A' → S' → Prop} (f : S → S') (g : A → A')
    (hstep : ∀ {t a u}, step t a u → step' (f t) (g a) (f u)) (h : Run step s as t) :
    Run step' (f s) (as.map g) (f t) := by
  induction h with
  | nil => exact nil _
  | snoc _ hlast ih =>
      rw [List.map_append]
      exact snoc ih (hstep hlast)

/--
A run all of whose steps meet a condition is a run of the system restricted to it.
The condition may be established along the way, from what the run has done.
-/
theorem restrict (h : Run step s as t) (cond : S → A → S → Prop)
    (hcond : ∀ {cs t a u}, Run step s cs t → step t a u → (cs ++ [a]) <+: as → cond t a u) :
    Run (fun t a u => step t a u ∧ cond t a u) s as t := by
  induction h with
  | nil => exact nil _
  | snoc h hstep ih =>
      refine snoc (ih fun hr hs hle => hcond hr hs (hle.trans (List.prefix_append _ _))) ?_
      exact ⟨hstep, hcond h hstep (List.prefix_refl _)⟩

theorem labelled (h : Run step s as t) {P : A → Prop} (hP : ∀ a ∈ as, P a) :
    Run (fun t a u => P a ∧ step t a u) s as t := by
  induction h with
  | nil => exact nil _
  | snoc h hstep ih =>
      refine snoc (ih fun a ha => hP a (List.mem_append_left _ ha)) ⟨hP _ ?_, hstep⟩
      exact List.mem_append_right _ (List.mem_singleton.mpr rfl)

/-- Where the labels determine every step, they determine where a run ends. -/
theorem unique (h : Run step s as t) (hdet : ∀ t a u u', step t a u → step t a u' → u = u') :
    ∀ {u : S}, Run step s as u → t = u := by
  induction h with
  | nil =>
      intro u h'
      generalize hbs : ([] : List A) = bs at h'
      cases h' with
      | nil => rfl
      | snoc => simp at hbs
  | @snoc t v as a h hstep ih =>
      intro u h'
      generalize hbs : as ++ [a] = bs at h'
      cases h' with
      | nil => simp at hbs
      | snoc h' hstep' =>
          obtain ⟨rfl, hb⟩ := List.append_inj' hbs rfl
          obtain rfl := List.singleton_inj.mp hb
          obtain rfl := ih h'
          exact hdet _ _ _ _ hstep hstep'

theorem split (h : Run step s (as ++ bs) u) : ∃ t, Run step s as t ∧ Run step t bs u := by
  generalize hcs : as ++ bs = cs at h
  induction h generalizing bs with
  | nil =>
      obtain ⟨rfl, rfl⟩ := List.append_eq_nil_iff.mp hcs
      exact ⟨_, nil _, nil _⟩
  | @snoc t u cs a h hstep ih =>
      rcases List.eq_nil_or_concat bs with rfl | ⟨bs, b, rfl⟩
      · rw [List.append_nil] at hcs
        subst hcs
        exact ⟨_, snoc h hstep, nil _⟩
      · rw [List.concat_eq_append, ← List.append_assoc] at hcs
        obtain ⟨rfl, hb⟩ := List.append_inj' hcs rfl
        obtain rfl := List.singleton_inj.mp hb
        obtain ⟨v, hv, hv'⟩ := ih rfl
        rw [List.concat_eq_append]
        exact ⟨v, hv, snoc hv' hstep⟩

end Run

/-! ### Runs of an executable system

When the next state is computed, a list of labels can be executed, and executing
it is a proof that the run exists.
-/

/-- Do the labels one after another; `none` as soon as one of them cannot be done. -/
def execute {S A : Type} (next : S → A → Option S) : S → List A → Option S
  | s, [] => some s
  | s, a :: as => (next s a).bind fun t => execute next t as

theorem run_of_execute {S A : Type} {next : S → A → Option S} :
    ∀ {as : List A} {s t : S}, execute next s as = some t →
      Run (fun s a t => next s a = some t) s as t := by
  intro as
  induction as with
  | nil =>
      intro s t h
      obtain rfl := Option.some.inj h
      exact Run.nil _
  | cons a rest ih =>
      intro s t h
      obtain ⟨u, hu, hrest⟩ := Option.bind_eq_some_iff.mp h
      exact Run.append (Run.single hu) (ih hrest)

/-- A property of the state an execution ends in is a property of a state a run ends in. -/
theorem exists_run_of_execute {S A : Type} (next : S → A → Option S) (s : S) (as : List A)
    (p : S → Prop) [DecidablePred p]
    (h : (execute next s as).any (fun t => decide (p t)) = true) :
    ∃ t, Run (fun s a t => next s a = some t) s as t ∧ p t := by
  obtain ⟨t, ht, hp⟩ := (Option.any_eq_true _ _).mp h
  exact ⟨t, run_of_execute ht, of_decide_eq_true hp⟩
