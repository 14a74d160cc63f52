/-
Forward simulations between labelled transition systems.

A step of the system below may be one step of the one above, several, or none.  The
relation between the two may speak of what both have done so far, and may use that both
states are reached by runs.
-/
import P2pPbft.Lib.Run

namespace Run

variable {S A S' A' : Type} {step : S → A → S → Prop} {step' : S' → A' → S' → Prop} {s t : S}
  {s' : S'} {as : List A}

/-- **The simulation rule.**  If every step below can be followed above, so can every run. -/
theorem simulate {R : List A → S → List A' → S' → Prop} (h : Run step s as t)
    (hinit : R [] s [] s')
    (hstep : ∀ {as t a u bs t'}, Run step s as t → Run step' s' bs t' → R as t bs t' →
      step t a u → ∃ cs u', Run step' t' cs u' ∧ R (as ++ [a]) u (bs ++ cs) u') :
    ∃ bs t', Run step' s' bs t' ∧ R as t bs t' := by
  induction h with
  | nil => exact ⟨[], s', nil _, hinit⟩
  | snoc h hlast ih =>
      obtain ⟨bs, t', hrun, hR⟩ := ih
      obtain ⟨cs, u', hmore, hR'⟩ := hstep h hrun hR hlast
      exact ⟨bs ++ cs, u', hrun.append hmore, hR'⟩

/-- A step that nothing above answers. -/
theorem stays {R : List A' → S' → Prop} {bs : List A'} (hR : R bs s') :
    ∃ cs u', Run step' s' cs u' ∧ R (bs ++ cs) u' :=
  ⟨[], s', nil _, by rwa [List.append_nil]⟩

/-- A step that one step above answers. -/
theorem follows {R : List A' → S' → Prop} {bs : List A'} {b : A'} {u' : S'}
    (hstep : step' s' b u') (hR : R (bs ++ [b]) u') :
    ∃ cs u', Run step' s' cs u' ∧ R (bs ++ cs) u' :=
  ⟨[b], u', single hstep, hR⟩

end Run
