/-
What a view change reports.

A view change carries the counter of the replica, and the primary of the next view goes on
from its own counter.  The numbers a replica gives itself are behind its counter.  As a
backup it takes its numbers from the pre-prepares, and does not move its counter to them: it
reports a counter that its log has long passed, and as a primary it would give the numbers
of its log out again.

The counter covers the log as long as no pre-prepare above it is accepted.
-/
import P2pPbft.Proofs.Boundaries
import P2pPbft.Proofs.Silence

namespace P2pPbft

/-- No pre-prepare above the counter is accepted, and the counter does not wrap. -/
def PbftState.CountsAccepted [Crypto] (st : PbftState) : Section → Prop
  | .handlePrePrepare pp => st.AcceptsPrePrepare pp → pp.sequence ≤ st.sequence
  | .handleRequest _ => st.sequence.toNat + 1 < 2 ^ 64
  | _ => True

instance [Crypto] (st : PbftState) : (sec : Section) → Decidable (st.CountsAccepted sec)
  | .handlePrePrepare _ | .handleRequest _ => by
      dsimp only [PbftState.CountsAccepted]; infer_instance
  | .handlePrepare _ | .tryAdvanceToPrepared _ | .handleCommit _ | .tryAdvanceToCommitted _
  | .tryCheckpoint _ | .handleCheckpoint _ | .handleViewChange _ | .handleNewView _
  | .startViewChange | .checkTimeout => isTrue trivial

/-- The counter covers what has a pre-prepare. -/
def PbftState.Covers (st : PbftState) : Prop :=
  ∀ s inst, st.log.lookup s = some inst → inst.prePrepare.isSome → s ≤ st.sequence

section

variable [Crypto] {st : PbftState} {now : Instant} {sec : Section} {out : Outcome}
  {s : SequenceNumber}

theorem Transition.sequence_le (h : Transition st now sec out) (hcond : st.CountsAccepted sec) :
    st.sequence ≤ out.state.sequence := by
  rcases h.sequence with hsame | ⟨request, rfl, hnext⟩
  · rw [hsame]
    exact UInt64.le_refl _
  · rw [hnext]
    exact UInt64.le_of_lt (lt_succ_of_toNat hcond)

omit [Crypto] in
theorem PbftState.Covers.instanceAt (hc : st.Covers) (hpp : (st.instanceAt s).prePrepare.isSome) :
    s ≤ st.sequence := by
  rcases st.instanceAt_cases s with hlookup | hnew
  · exact hc s _ hlookup hpp
  · rw [hnew] at hpp
    cases hpp

/-- **What a replica proposes is behind its counter**, and of what it accepts we know. -/
theorem PbftState.Covers.step (hc : st.Covers) (h : Transition st now sec out)
    (hcond : st.CountsAccepted sec) : out.state.Covers := by
  intro s inst hlookup hpp
  have hgrows := h.sequence_le hcond
  rcases h.entry hlookup with hold | hwrite
  · exact UInt64.le_trans (hc s inst hold hpp) hgrows
  cases hwrite with
  | propose request hp _ hstate _ =>
      rw [hstate]
      simp [PbftState.proposed_eq]
  | accept pp hp _ _ => exact UInt64.le_trans (hcond hp) hgrows
  | storePrepare _ _ _ => exact UInt64.le_trans (hc.instanceAt hpp) hgrows
  | prepared _ inst _ hl _ _ _ _ _ => exact UInt64.le_trans (hc s inst hl hpp) hgrows
  | storeCommit _ _ _ => exact UInt64.le_trans (hc.instanceAt hpp) hgrows
  | committed _ inst hl _ _ _ _ => exact UInt64.le_trans (hc s inst hl hpp) hgrows

theorem Transition.reports (h : Transition st now sec out) {vc : ViewChange}
    (hvc : Send.broadcast (.viewChange vc) ∈ out.sends) : vc.lastSequence = st.sequence := by
  cases h with
  | startViewChange _ =>
      have heq := List.mem_singleton.mp hvc
      simp only [Send.broadcast, Send.outgoing.injEq, OutgoingMessage.broadcast.injEq,
        NetworkMessage.consensus.injEq, ConsensusMessage.viewChange.injEq] at heq
      rw [heq]
      rfl
  | _ => exact absurd hvc (by simp [Send.broadcast])

theorem proposes_next (h : Transition st now sec out) {pp : PrePrepare}
    (hpp : pp ∈ proposals out.sends) :
    (∃ request, sec = .handleRequest request) ∧ pp.sequence = st.sequence + 1 := by
  rcases h.proposals with hnone | ⟨request, rfl, -, -, hone⟩
  · rw [hnone] at hpp
    exact absurd hpp (by simp)
  · rw [hone] at hpp
    obtain rfl := List.mem_singleton.mp hpp
    exact ⟨⟨request, rfl⟩, rfl⟩

end

namespace Replica

variable [Crypto]

theorem sequence_le_of_run {r r' : Replica} {as : List Action}
    (h : Run (Next (Meets PbftState.CountsAccepted)) r as r') :
    r.state.sequence ≤ r'.state.sequence := by
  refine h.state_invariant (I := fun r' => r.state.sequence ≤ r'.state.sequence)
    (UInt64.le_refl _) ?_
  intro t a u hle hstep
  refine UInt64.le_trans hle (keep (I := fun st _ => t.state.sequence ≤ st.sequence) hstep.2
    (UInt64.le_refl _) ?_)
  exact fun hsec ht => ht.sequence_le (hstep.1 _ hsec)

theorem covers_of_run {nodeId : NodeId} {keypair : KeyPair} {replicas : Replicas}
    {config : PbftConfig} {now : Instant} {as : List Action} {r : Replica}
    (h : Run (Next (Meets PbftState.CountsAccepted))
      (new (PbftState.new nodeId keypair replicas config now)) as r) : r.state.Covers := by
  refine h.state_invariant (I := fun r => r.state.Covers) ?_ ?_
  · intro s inst hlookup _
    exact absurd hlookup (by simp [new, PbftState.new])
  · intro t a u hc hstep
    exact keep (I := fun st _ => st.Covers) hstep.2 hc
      fun hsec ht => hc.step ht (hstep.1 _ hsec)

/--
**A view change reports all progress, if no pre-prepare above the counter is accepted.**  In
every such run the number a view change reports is not below any prepared or committed
instance the replica has when it makes it, whoever proposed it, and what the replica proposes
afterwards, in whatever view, is above all of them.
-/
theorem view_changes_report_progress {nodeId : NodeId} {keypair : KeyPair} {replicas : Replicas}
    {config : PbftConfig} {now time : Instant} {before : List Action} {t : Replica}
    {sec : Section} {vc : ViewChange} {s : SequenceNumber}
    (ht : Run (Next (Meets PbftState.CountsAccepted))
      (new (PbftState.new nodeId keypair replicas config now)) before t)
    (hvc : Send.broadcast (.viewChange vc) ∈ (sec.run t.state time).sends)
    (hprep : (t.state.instanceAt s).isPrepared) :
    s ≤ vc.lastSequence ∧
      ∀ after u, Run (Next (Meets PbftState.CountsAccepted)) t after u →
        ∀ sec' time' pp, u.state.CountsAccepted sec' →
          pp ∈ proposals (sec'.run u.state time').sends → s < pp.sequence := by
  have hlookup := PbftState.lookup_of_isPrepared hprep
  have hwell := (sound_of_run ht (sound_new nodeId keypair replicas config now)).wellFormed
  obtain ⟨pp, hpp⟩ := (hwell.entry s _ hlookup).exists_prePrepare hprep
  have hcovered : s ≤ t.state.sequence := covers_of_run ht s _ hlookup (by rw [hpp]; rfl)
  constructor
  · rw [(run_transition t.state time sec).reports hvc]
    exact hcovered
  · intro after u hu sec' time' pp hcond hpp
    obtain ⟨⟨request, rfl⟩, hnext⟩ := proposes_next (run_transition u.state time' sec') hpp
    have hroom : u.state.sequence.toNat + 1 < 2 ^ 64 := hcond
    have hle : s ≤ u.state.sequence := UInt64.le_trans hcovered (sequence_le_of_run hu)
    rw [hnext]
    exact UInt64.lt_of_le_of_lt hle (lt_succ_of_toNat hroom)

end Replica

/-- The numbers view changes have reported. -/
def reportedNumbers (sends : List Send) : List SequenceNumber :=
  sends.filterMap fun
    | .outgoing (.broadcast (.consensus (.viewChange vc))) => some vc.lastSequence
    | _ => none

namespace Sample

/-- The second node commits what the first one proposes. -/
def backupGoesThrough : List Action :=
  toEnd (.processMessage (.prePrepare ((signer 0).proposal 1 (request 1)))) 3 ++
    toEnd (.processMessage (.prepare ((signer 0).ownPrepare 0 1 (request 1).digest))) 2 ++
    toEnd (.processMessage (.prepare ((signer 2).ownPrepare 0 1 (request 1).digest))) 4 ++
    toEnd (committedBy 0 1) 2 ++ toEnd (committedBy 2 1) 4

/-- The first node has no room for its third number until a checkpoint moves the window.  Then
the second one leads, and gives that number to a request. -/
def firstBacksUp : List Action :=
  numbers ++ toEnd (.handleRequest (request 2)) 4 ++ toEnd (.handleRequest (request 3)) 1 ++
    checkpointsFrom [1, 2, 3] 2 ++ [received (.newView ⟨1, 0, node 1, []⟩)] ++
    toEnd (.processMessage (.prePrepare
      ({ signer 1 with view := 1 }.proposal 3 (request 4)))) 3 ++
    toEnd (.processMessage (.prepare ((signer 1).ownPrepare 1 3 (request 4).digest))) 2 ++
    toEnd (.processMessage (.prepare ((signer 2).ownPrepare 1 3 (request 4).digest))) 4

/-- It asks for a new view, and its turn has come again. -/
def fourthView : List Action :=
  toEnd .startViewChange 2 ++ [received (.newView ⟨4, 0, node 0, []⟩)]

/-- The second node leads the next view, and gets another request. -/
def backupTakesOver : List Action :=
  toEnd .startViewChange 2 ++
    [received (.newView ⟨1, 0, node 1, []⟩), .call (.handleRequest (request 2)) 0]

end Sample

open Sample in
/-- A replica prepares as a backup of view 1 what it could not number itself, changes the view,
and goes on as the primary of view 4. -/
theorem Replica.view_changes_report_progress_first :
    ∃ (r : Replica) (vc : ViewChange) (u : Replica) (pp : PrePrepare),
      (proposals r.issued).map (·.sequence) = [1, 2] ∧ r.state.view = 1 ∧
      (r.state.instanceAt 3).phase = .prepared ∧ 3 ≤ vc.lastSequence ∧
      u.state.view = 4 ∧ 3 < pp.sequence := by
  obtain ⟨r, hrun, ⟨hproposed, hview, hphase⟩, hsend, hrest⟩ :=
    exists_run (Meets PbftState.CountsAccepted) (new (eager.initState (node 0))) firstBacksUp
      (fun r => ((proposals r.issued).map (·.sequence) = [1, 2] ∧ r.state.view = 1 ∧
          (r.state.instanceAt 3).phase = .prepared) ∧
        Send.broadcast (.viewChange r.state.ownViewChange)
          ∈ (Section.startViewChange.run r.state 0).sends ∧
        (execute (next (Meets PbftState.CountsAccepted)) r fourthView).any (fun u => decide
          (u.state.view = 4 ∧ u.state.CountsAccepted (.handleRequest (request 5)) ∧
            u.state.proposal 4 (request 5)
              ∈ proposals ((Section.handleRequest (request 5)).run u.state 0).sends)) = true)
      (by decide +kernel)
  obtain ⟨u, hu, hnew, hcond, hpp⟩ := exists_run _ r _ _ hrest
  obtain ⟨hlast, hlater⟩ := view_changes_report_progress hrun hsend (Or.inl hphase)
  exact ⟨r, r.state.ownViewChange, u, u.state.proposal 4 (request 5), hproposed, hview, hphase,
    hlast, hnew, hlater fourthView u hu _ _ _ hcond hpp⟩

open Sample in
/--
**A backup reports nothing of what it has committed**, and as a primary it gives the number
out again.
-/
theorem Replica.progress_not_reported :
    (∃ r, Run (Next fun _ _ => True) (new ((cluster 3).initState (node 1))) backupGoesThrough r ∧
      (r.state.instanceAt 1).phase = .committed ∧
      reportedNumbers (Section.startViewChange.run r.state 0).sends = [0]) ∧
    ∃ r, Run (Next fun _ _ => True) (new ((cluster 3).initState (node 1)))
        (backupGoesThrough ++ backupTakesOver) r ∧
      r.state.view = 1 ∧ (proposals r.issued).map (·.sequence) = [1] :=
  ⟨exists_run _ _ _ _ (by decide +kernel), exists_run _ _ _ _ (by decide +kernel)⟩

end P2pPbft
