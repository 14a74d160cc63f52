/-
Which checkpoints are announced.

The handler that commits an instance goes on to `try_checkpoint`, and that announces a
checkpoint at every multiple of the interval; what is to run next is run before the handler
is over.  But it goes on only from the branch that hands the request over.  A request that
is given two numbers is handed over under one of them, so if the other one is a multiple of
the interval no checkpoint is announced there.
-/
import P2pPbft.Proofs.Window

namespace P2pPbft

section

variable [Crypto] {st : PbftState} {issued : List Send} {now : Instant} {sec : Section}
  {out : Outcome} {s : SequenceNumber}

/-- The section would move the instance under the number to `Committed`. -/
def PbftState.Commits (st : PbftState) (s : SequenceNumber) : Prop :=
  (st.instanceAt s).phase = .prepared ∧ st.config.quorum ≤ (st.instanceAt s).commits.keys.card

instance (st : PbftState) (s : SequenceNumber) : Decidable (st.Commits s) :=
  inferInstanceAs (Decidable (_ ∧ _))

/-- What is committed at a multiple of the interval is a request not executed before. -/
def PbftState.FreshAtBoundary (st : PbftState) : Section → Prop
  | .tryAdvanceToCommitted s => st.Commits s → s % st.config.checkpointInterval = 0 →
      st.config.checkpointInterval ≠ 0 ∧
        ∀ request ∈ (st.instanceAt s).request, request.digest ∉ st.executed
  | _ => True

instance (st : PbftState) : (sec : Section) → Decidable (st.FreshAtBoundary sec)
  | .tryAdvanceToCommitted _ => by dsimp only [PbftState.FreshAtBoundary]; infer_instance
  | .handleRequest _ | .handlePrePrepare _ | .handlePrepare _ | .tryAdvanceToPrepared _
  | .handleCommit _ | .tryCheckpoint _ | .handleCheckpoint _ | .handleViewChange _
  | .handleNewView _ | .startViewChange | .checkTimeout => isTrue trivial

/-- **An instance is moved to `Committed` by the section that is there for it.** -/
theorem Transition.moves_to_committed (h : Transition st now sec out)
    (hbefore : (st.instanceAt s).phase ≠ .committed)
    (hafter : (out.state.instanceAt s).phase = .committed) :
    sec = .tryAdvanceToCommitted s ∧ st.Commits s := by
  have hlookup := PbftState.lookup_of_isPrepared (Or.inr hafter)
  rcases h.entry hlookup with hold | hwrite
  · rw [PbftState.instanceAt_of_lookup hold] at hbefore
    exact absurd hafter hbefore
  generalize out.state.instanceAt s = inst at hafter hwrite
  cases hwrite with
  | propose _ _ _ _ _ => exact Phase.noConfusion hafter
  | accept _ _ _ _ => exact Phase.noConfusion hafter
  | storePrepare _ _ _ => exact absurd hafter hbefore
  | prepared _ _ _ _ _ _ _ _ _ => exact Phase.noConfusion hafter
  | storeCommit _ _ _ => exact absurd hafter hbefore
  | committed _ inst hl hphase hquorum _ _ =>
      rw [PbftState.Commits, PbftState.instanceAt_of_lookup hl]
      exact ⟨rfl, hphase, hquorum⟩

/-- **From a request that is not executed yet the handler goes on** to the checkpoint. -/
theorem WellFormed.goes_on (hwf : WellFormed st issued) (hcommits : st.Commits s)
    (hfresh : ∀ request ∈ (st.instanceAt s).request, request.digest ∉ st.executed) :
    (Section.run st now (.tryAdvanceToCommitted s)).next = some (.tryCheckpoint s) := by
  have hprep : (st.instanceAt s).isPrepared := Or.inl hcommits.1
  have hlookup := PbftState.lookup_of_isPrepared hprep
  have hok := hwf.entry s _ hlookup
  obtain ⟨pp, hpp⟩ := hok.exists_prePrepare hprep
  have hrequest := hok.request pp hpp
  show (st.tryAdvanceToCommitted s).next = _
  simp only [PbftState.tryAdvanceToCommitted, hlookup, hcommits.1, Nat.not_lt.mpr hcommits.2,
    hrequest, hfresh _ hrequest, ne_eq, not_true_eq_false, if_false, Outcome.proceed_next]

theorem PbftState.tryCheckpoint_at_boundary (hinterval : st.config.checkpointInterval ≠ 0)
    (hboundary : s % st.config.checkpointInterval = 0) :
    Send.broadcast (.checkpoint (st.ownCheckpoint s))
      ∈ (Section.run st now (.tryCheckpoint s)).sends := by
  show _ ∈ (st.tryCheckpoint s).sends
  unfold tryCheckpoint
  rw [if_neg hinterval, if_neg (not_not.mpr hboundary)]
  exact List.mem_singleton.mpr rfl

end

namespace Replica

variable [Crypto]

/-- The checkpoint for the number is announced, or a handler in progress goes on to it. -/
def WillAnnounce (s : SequenceNumber) (r : Replica) : Prop :=
  (∃ task ∈ r.tasks, task.next = some (.tryCheckpoint s)) ∨
    ∃ c, Send.broadcast (.checkpoint c) ∈ r.issued ∧ c.sequence = s

/-- A number that is to be announced stays so, until it is announced and after. -/
theorem WillAnnounce.act {r r' : Replica} {a : Action} {s : SequenceNumber}
    (h : r.WillAnnounce s) (hact : r.act a = some r')
    (hinterval : r.state.config.checkpointInterval ≠ 0)
    (hboundary : s % r.state.config.checkpointInterval = 0) : r'.WillAnnounce s := by
  have hissued : ∀ send ∈ r.issued, send ∈ r'.issued := by
    intro send hsend
    refine keep (I := fun _ issued => send ∈ issued) hact hsend fun _ _ => ?_
    exact List.mem_append_left _ hsend
  rcases h with ⟨task, htask, hnext⟩ | ⟨c, hc, hs⟩
  · rcases next_kept hact htask hnext with hkept | hrun
    · exact Or.inl hkept
    · refine Or.inr ⟨r.state.ownCheckpoint s, ?_, rfl⟩
      rw [(act_of_sectionOf hact hrun).2]
      exact List.mem_append_right _ (PbftState.tryCheckpoint_at_boundary hinterval hboundary)
  · exact Or.inr ⟨c, hissued _ hc, hs⟩

theorem config_of_run {rules : Replica → Action → Prop} {r₀ r : Replica} {as : List Action}
    (h : Run (Next rules) r₀ as r) : r.state.config = r₀.state.config := by
  refine h.state_invariant (I := fun r => r.state.config = r₀.state.config) rfl ?_
  intro t a u hconfig hstep
  exact keep (I := fun st _ => st.config = r₀.state.config) hstep.2 hconfig
    fun _ ht => ht.static.2.2.2.trans hconfig

/--
**Every boundary is announced, if what is committed there is new.**  In a run in which each
request that is committed at a multiple of the interval has not been executed before, the
checkpoint for a multiple of the interval whose instance has moved to `Committed` is
announced: it has been broadcast as soon as no handler is in progress, and until then it
has been issued or a handler in progress goes on to issue it.
-/
theorem boundaries_announced {nodeId : NodeId} {keypair : KeyPair} {replicas : Replicas}
    {config : PbftConfig} {now : Instant} {before after : List Action} {a : Action}
    {t u r : Replica} {s : SequenceNumber}
    (ht : Run (Next (Meets PbftState.FreshAtBoundary))
      (new (PbftState.new nodeId keypair replicas config now)) before t)
    (hstep : Next (Meets PbftState.FreshAtBoundary) t a u)
    (hr : Run (Next (Meets PbftState.FreshAtBoundary)) u after r)
    (hmoves : (t.state.instanceAt s).phase ≠ .committed)
    (hmoved : (u.state.instanceAt s).phase = .committed)
    (hboundary : s % config.checkpointInterval = 0) :
    r.WillAnnounce s ∧ (r.tasks = [] → ∃ c,
      OutgoingMessage.broadcast (.consensus (.checkpoint c)) ∈ r.outgoing ∧ c.sequence = s) := by
  have hsound := sound_of_run ht (sound_new nodeId keypair replicas config now)
  have hconfig : t.state.config = config := config_of_run ht
  have hconfig' : u.state.config = config := config_of_run (Run.snoc ht hstep)
  -- The step that moves the instance goes on to the checkpoint.
  have hfirst : u.WillAnnounce s ∧ config.checkpointInterval ≠ 0 := by
    rcases act_cases hstep.2 with ⟨-, hstate, -⟩ | ⟨sec, hsec, hstate, -⟩
    · rw [hstate] at hmoved
      exact absurd hmoved hmoves
    · rw [hstate] at hmoved
      obtain ⟨rfl, hcommits⟩ :=
        (run_transition t.state a.now sec).moves_to_committed hmoves hmoved
      obtain ⟨hinterval, hfresh⟩ := hstep.1 _ hsec hcommits (hconfig ▸ hboundary)
      rw [hconfig] at hinterval
      exact ⟨Or.inl (next_of_run hstep.2 hsec (hsound.wellFormed.goes_on hcommits hfresh)),
        hinterval⟩
  have hwill : r.WillAnnounce s := by
    refine hr.invariant (I := fun _ r => r.WillAnnounce s) hfirst.1 ?_
    intro cs t' b u' hr' hwill hstep'
    have hsame : t'.state.config = config := (config_of_run hr').trans hconfig'
    refine hwill.act hstep'.2 ?_ ?_
    · rw [hsame]
      exact hfirst.2
    · rw [hsame]
      exact hboundary
  refine ⟨hwill, fun hidle => ?_⟩
  have hrun := (Run.snoc ht hstep).append hr
  have haccounted := (sound_of_run hrun (sound_new nodeId keypair replicas config now)).accounted
  rcases hwill with ⟨task, htask, -⟩ | ⟨c, hc, hs⟩
  · rw [hidle] at htask
    exact absurd htask (by simp)
  · exact ⟨c, haccounted.outgoing_of_idle hidle hc, hs⟩

end Replica

/-- The numbers checkpoints have been issued for. -/
def announcedNumbers (sends : List Send) : List SequenceNumber :=
  sends.filterMap fun
    | .outgoing (.broadcast (.consensus (.checkpoint c))) => some c.sequence
    | _ => none

namespace Sample

/-- The first node gives the first request a number. -/
def numbers : List Action := toEnd (.handleRequest (request 1)) 4

/-- It hears that the second and the third one are prepared to do the same. -/
def prepares (s : SequenceNumber) : List Action :=
  toEnd (.processMessage (.prepare ((signer 1).ownPrepare 0 s (request 1).digest))) 2 ++
    toEnd (.processMessage (.prepare ((signer 2).ownPrepare 0 s (request 1).digest))) 4

/-- A commit of one of them. -/
def committedBy (i : Fin 4) (s : SequenceNumber) : Call :=
  .processMessage (.commit (commitFor i s (request 1)))

/-- A request comes again before it is executed, and both of its numbers are committed. -/
def requestedTwice : List Action :=
  numbers ++ numbers ++ prepares 1 ++ prepares 2 ++
    toEnd (committedBy 1 1) 2 ++ toEnd (committedBy 2 1) 5 ++
    toEnd (committedBy 1 2) 2 ++ toEnd (committedBy 2 2) 2

end Sample

open Sample in
/-- A primary commits a request at a boundary. -/
theorem Replica.boundaries_announced_first :
    ∃ r : Replica, ∃ c, r.tasks = [] ∧
      OutgoingMessage.broadcast (.consensus (.checkpoint c)) ∈ r.outgoing ∧ c.sequence = 1 := by
  obtain ⟨t, ht, hmoves, hrest⟩ := exists_run (Meets PbftState.FreshAtBoundary)
    (new (eager.initState (node 0)))
    (numbers ++ prepares 1 ++ toEnd (committedBy 1 1) 2 ++ toEnd (committedBy 2 1) 0)
    (fun t => (t.state.instanceAt 1).phase ≠ .committed ∧
      (t.next (Meets PbftState.FreshAtBoundary) (.resume 0 0)).any (fun u =>
        decide ((u.state.instanceAt 1).phase = .committed) &&
          (execute (next (Meets PbftState.FreshAtBoundary)) u
            (List.replicate 4 (.resume 0 0))).any fun r => decide (r.tasks = [])) = true)
    (by decide +kernel)
  obtain ⟨u, hu, hrest⟩ := (Option.any_eq_true _ _).mp hrest
  obtain ⟨hmoved, hafter⟩ := Bool.and_eq_true_iff.mp hrest
  obtain ⟨r, hr, hidle⟩ := exists_run _ u _ (fun r => r.tasks = []) hafter
  obtain ⟨c, hsent, hs⟩ := (boundaries_announced ht (next_eq_some.mp hu) hr hmoves
    (of_decide_eq_true hmoved) rfl).2 hidle
  exact ⟨r, c, hidle, hsent, hs⟩

open Sample in
/-- **A request with two numbers leaves one boundary out**: both are committed, one is announced. -/
theorem Replica.boundary_left_out :
    ∃ r, Run (Next fun _ _ => True) (new (eager.initState (node 0))) requestedTwice r ∧
      r.tasks = [] ∧ (r.state.instanceAt 1).phase = .committed ∧
      (r.state.instanceAt 2).phase = .committed ∧ 2 % r.state.config.checkpointInterval = 0 ∧
      announcedNumbers r.issued = [1] :=
  exists_run _ _ _ _ (by decide +kernel)

end P2pPbft
