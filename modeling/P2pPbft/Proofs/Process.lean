/-
The two readings of a replica agree.

`process` runs a call to its end in one go, which is what the main loop does.  Here
it is a run of the replica in which nothing else happens meanwhile
(`exists_run_process`), so whatever holds along all runs holds of it too.
-/
import P2pPbft.Proofs.Replica

namespace P2pPbft

/-- How many sections can still come after one. -/
def Section.height : Section → Nat
  | .handleRequest _ | .handlePrePrepare _ | .handlePrepare _ => 3
  | .tryAdvanceToPrepared _ | .handleCommit _ => 2
  | .tryAdvanceToCommitted _ | .checkTimeout => 1
  | .tryCheckpoint _ | .handleCheckpoint _ | .handleViewChange _ | .handleNewView _
  | .startViewChange => 0

theorem Section.height_le (sec : Section) : sec.height ≤ 3 := by
  cases sec <;> simp [height]

section

variable [Crypto]

theorem Transition.height {st : PbftState} {now : Instant} {sec : Section} {out : Outcome}
    (h : Transition st now sec out) {next : Section} (hnext : out.next = some next) :
    next.height < sec.height := by
  cases h with
  | propose _ _ | accept _ _ | storePrepare _ _ | prepared _ _ _ _ _ _ _ _ | storeCommit _ _
  | executed _ _ _ _ _ _ _ _ | timeout _ =>
      obtain rfl := Option.some.inj hnext
      simp [Section.height]
  | _ => exact absurd hnext (by simp)

namespace Section

theorem drive_of_none {st : PbftState} {now : Instant} {sec : Section} (depth : Nat)
    (h : (sec.run st now).next = none) : sec.drive st now depth = sec.run st now := by
  cases depth with
  | zero => rfl
  | succ depth => simp only [drive, h]

theorem drive_of_some {st : PbftState} {now : Instant} {sec next : Section} (depth : Nat)
    (h : (sec.run st now).next = some next) :
    sec.drive st now (depth + 1) =
      { next.drive (sec.run st now).state now depth with
        sends := (sec.run st now).sends ++
          (next.drive (sec.run st now).state now depth).sends } := by
  simp only [drive, h]

/-- What every section keeps, running a call to its end keeps. -/
theorem drive_keep {I : PbftState → List Send → Prop}
    (hkeep : ∀ {st issued now sec out}, I st issued → Transition st now sec out →
      I out.state (issued ++ out.sends)) (now : Instant) (depth : Nat) :
    ∀ {st : PbftState} {issued : List Send} (sec : Section), I st issued →
      I (sec.drive st now depth).state (issued ++ (sec.drive st now depth).sends) := by
  induction depth with
  | zero =>
      intro st issued sec hI
      exact hkeep hI (run_transition st now sec)
  | succ depth ih =>
      intro st issued sec hI
      have hrun := hkeep hI (run_transition st now sec)
      cases hnext : (sec.run st now).next with
      | none =>
          rw [drive_of_none _ hnext]
          exact hrun
      | some next =>
          rw [drive_of_some depth hnext, ← List.append_assoc]
          exact ih next hrun

end Section

theorem PbftState.process_keep {I : PbftState → List Send → Prop}
    (hkeep : ∀ {st issued now sec out}, I st issued → Transition st now sec out →
      I out.state (issued ++ out.sends)) {st : PbftState} {issued : List Send} (hI : I st issued)
    (call : Call) (now : Instant) :
    I (st.process call now).state (issued ++ (st.process call now).sends) := by
  unfold process
  split
  · simpa using hI
  · exact Section.drive_keep hkeep now 3 _ hI

/-! ### Running a handler to its end -/

namespace Replica

private theorem exists_run_sends (now : Instant) (next : Option Section) (result : Result) :
    ∀ (sends : List Send) (r : Replica), r.tasks = [⟨sends, next, result⟩] →
      ∃ n r', Run (Next fun _ _ => True) r (List.replicate n (.resume 0 now)) r' ∧
        r'.tasks = [⟨[], next, result⟩] ∧
        r'.state = r.state ∧ r'.issued = r.issued ∧ r'.results = r.results := by
  intro sends
  induction sends with
  | nil => exact fun r htasks => ⟨0, r, Run.nil r, htasks, rfl, rfl, rfl⟩
  | cons send rest ih =>
      intro r htasks
      have hact : r.act (.resume 0 now)
          = some { r.emit send with tasks := [⟨rest, next, result⟩] } := by
        simp [act, htasks]
      obtain ⟨n, r', hrun, htasks', hstate, hissued, hresults⟩ :=
        ih { r.emit send with tasks := [⟨rest, next, result⟩] } rfl
      exact ⟨n + 1, r', (Run.single ⟨trivial, hact⟩).append hrun, htasks', hstate.trans (by simp),
        hissued.trans (by simp), hresults.trans (by simp)⟩

private theorem exists_run_finish (now : Instant) {r : Replica} {sends : List Send}
    {result : Result} (htasks : r.tasks = [⟨sends, none, result⟩]) :
    ∃ n r', Run (Next fun _ _ => True) r (List.replicate n (.resume 0 now)) r' ∧ r'.tasks = [] ∧
      r'.state = r.state ∧ r'.issued = r.issued ∧ r'.results = r.results ++ [result] := by
  obtain ⟨n, r', hrun, htasks', hstate, hissued, hresults⟩ :=
    exists_run_sends now none result sends r htasks
  have hact : r'.act (.resume 0 now)
      = some { r' with tasks := [], results := r'.results ++ [result] } := by
    simp [act, htasks']
  have hrun' := hrun.append (Run.single ⟨trivial, hact⟩)
  rw [← List.replicate_succ'] at hrun'
  exact ⟨n + 1, _, hrun', rfl, hstate, hissued, congrArg (· ++ [result]) hresults⟩

/-- Once a handler has run its section, resuming it runs everything that follows. -/
private theorem exists_run_drive (now : Instant) (depth : Nat) :
    ∀ (sec : Section) (r r₁ : Replica), sec.height ≤ depth →
      r₁.tasks = [(sec.run r.state now).task] → r₁.state = (sec.run r.state now).state →
      r₁.issued = r.issued ++ (sec.run r.state now).sends → r₁.results = r.results →
      ∃ n r', Run (Next fun _ _ => True) r₁ (List.replicate n (.resume 0 now)) r' ∧
        r'.tasks = [] ∧ r'.state = (sec.drive r.state now depth).state ∧
        r'.issued = r.issued ++ (sec.drive r.state now depth).sends ∧
        r'.results = r.results ++ [(sec.drive r.state now depth).result] := by
  induction depth with
  | zero =>
      intro sec r r₁ hheight htasks hstate hissued hresults
      have hnone : (sec.run r.state now).next = none := by
        refine Option.eq_none_iff_forall_ne_some.mpr fun next hnext => ?_
        exact absurd ((run_transition r.state now sec).height hnext) (by omega)
      rw [Outcome.task, hnone] at htasks
      obtain ⟨n, r', hrun, htasks', hstate', hissued', hresults'⟩ := exists_run_finish now htasks
      exact ⟨n, r', hrun, htasks', hstate'.trans hstate, hissued'.trans hissued,
        by rw [hresults', hresults]; rfl⟩
  | succ depth ih =>
      intro sec r r₁ hheight htasks hstate hissued hresults
      cases hnext : (sec.run r.state now).next with
      | none =>
          rw [Outcome.task, hnext] at htasks
          rw [Section.drive_of_none _ hnext]
          obtain ⟨n, r', hrun, htasks', hstate', hissued', hresults'⟩ :=
            exists_run_finish now htasks
          exact ⟨n, r', hrun, htasks', hstate'.trans hstate, hissued'.trans hissued,
            by rw [hresults', hresults]⟩
      | some next =>
          have hlt := (run_transition r.state now sec).height hnext
          rw [Outcome.task, hnext] at htasks
          rw [Section.drive_of_some depth hnext]
          -- The sends come first, then the next section, from which on `ih` takes over.
          obtain ⟨n, r₂, hsends, htasks₂, hstate₂, hissued₂, hresults₂⟩ :=
            exists_run_sends now _ _ _ r₁ htasks
          let r₃ := { r₂.enter (next.run r₂.state now) with
            tasks := [(next.run r₂.state now).task] }
          have hact : r₂.act (.resume 0 now) = some r₃ := by
            simp [act, htasks₂, r₃]
          obtain ⟨n', r', hrun, htasks', hstate', hissued', hresults'⟩ :=
            ih next r₂ r₃ (by omega) rfl rfl rfl rfl
          have hst : r₂.state = (sec.run r.state now).state := hstate₂.trans hstate
          rw [hst] at hstate' hissued' hresults'
          have hrun' := (hsends.append (Run.single ⟨trivial, hact⟩)).append hrun
          rw [← List.replicate_succ', ← List.replicate_add] at hrun'
          refine ⟨_, r', hrun', htasks', hstate', ?_, ?_⟩
          · rw [hissued', hissued₂, hissued, List.append_assoc]
          · rw [hresults', hresults₂, hresults]

/-- Starting a call and resuming its handler until it returns does what `process` computes. -/
theorem run_process (r : Replica) (hidle : r.tasks = []) (call : Call) (now : Instant) :
    ∃ n r', Run (Next fun _ _ => True) r (.call call now :: List.replicate n (.resume 0 now)) r' ∧
      r'.tasks = [] ∧ r'.state = (r.state.process call now).state ∧
      r'.issued = r.issued ++ (r.state.process call now).sends ∧
      r'.results = r.results ++ [(r.state.process call now).result] := by
  unfold PbftState.process
  cases hentry : call.entry with
  | none =>
      have hact : r.act (.call call now) = some { r with results := r.results ++ [.ok] } := by
        simp [act, hentry]
      exact ⟨0, _, Run.single ⟨trivial, hact⟩, hidle, rfl, by simp, rfl⟩
  | some sec =>
      let r₁ := { r.enter (sec.run r.state now) with tasks := [(sec.run r.state now).task] }
      have hact : r.act (.call call now) = some r₁ := by
        simp [act, hentry, hidle, r₁]
      obtain ⟨n, r', hrun, hrest⟩ :=
        exists_run_drive now 3 sec r r₁ sec.height_le rfl rfl rfl rfl
      exact ⟨n, r', (Run.single ⟨trivial, hact⟩).append hrun, hrest⟩

/--
**A call run to its end is a run of the replica**: starting it and resuming its
handler until it returns leaves the state, the record of sends and the result that
`process` computes, and no handler in progress.
-/
theorem exists_run_process (r : Replica) (hidle : r.tasks = []) (call : Call) (now : Instant) :
    ∃ as r', Run (Next fun _ _ => True) r as r' ∧ r'.tasks = [] ∧
      r'.state = (r.state.process call now).state ∧
      r'.issued = r.issued ++ (r.state.process call now).sends ∧
      r'.results = r.results ++ [(r.state.process call now).result] := by
  obtain ⟨n, r', hrun, hrest⟩ := run_process r hidle call now
  exact ⟨_, r', hrun, hrest⟩

end Replica

end

end P2pPbft
