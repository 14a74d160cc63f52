/-
Votes of the current view.

A vote is taken only in the view it was made for, and the tables forget about that: they
are keyed by the replica, an instance keeps them when the view changes, and what is counted
is their size.  So a vote of an earlier view counts for the pre-prepare of a later one, and
keeps the later vote of its sender out.

Both need an instance that is written in two views.  As long as a pre-prepare is recorded
in an instance of its own view only, and the votes that come to an instance with a
pre-prepare are of that view, all it holds is of one view.
-/
import P2pPbft.Proofs.Matching
import P2pPbft.Proofs.Voters
import P2pPbft.Proofs.Representation
import P2pPbft.Proofs.Silence

namespace P2pPbft

namespace ConsensusInstance

/-- Who has a prepare stored that is of the view of the pre-prepare. -/
def preparesInView (inst : ConsensusInstance) : Finset NodeId :=
  inst.prepares.keys.filter fun id =>
    (inst.prepares.lookup id).map (·.view) = inst.prePrepare.map (·.view)

/-- Who has a commit stored that is of the view of the pre-prepare. -/
def commitsInView (inst : ConsensusInstance) : Finset NodeId :=
  inst.commits.keys.filter fun id =>
    (inst.commits.lookup id).map (·.view) = inst.prePrepare.map (·.view)

/--
The votes are of views between the one the instance was created in and the one the replica
is in, and all of the first of these once there is a pre-prepare, as it is itself.
-/
structure Dated (view : ViewNumber) (inst : ConsensusInstance) : Prop where
  created : inst.view ≤ view
  votes : inst.Files (fun _ p => inst.view ≤ p.view ∧ p.view ≤ view)
    (fun _ c => inst.view ≤ c.view ∧ c.view ≤ view)
  prePrepare : ∀ pp, inst.prePrepare = some pp → pp.view = inst.view
  settled : inst.prePrepare.isSome →
    inst.Files (fun _ p => p.view = inst.view) (fun _ c => c.view = inst.view)

theorem dated_new (s : SequenceNumber) (view : ViewNumber) :
    (ConsensusInstance.new s view).Dated view where
  created := UInt64.le_refl _
  votes := files_new s view
  prePrepare := fun _ h => absurd h (by simp [new])
  settled := fun h => absurd h (by simp [new])

section

variable {inst : ConsensusInstance} {view : ViewNumber}

theorem Dated.mono (h : inst.Dated view) {view' : ViewNumber} (hle : view ≤ view') :
    inst.Dated view' where
  created := UInt64.le_trans h.created hle
  votes := ⟨fun id p hp => ⟨(h.votes.prepare id p hp).1,
      UInt64.le_trans (h.votes.prepare id p hp).2 hle⟩,
    fun id c hc => ⟨(h.votes.commit id c hc).1, UInt64.le_trans (h.votes.commit id c hc).2 hle⟩⟩
  prePrepare := h.prePrepare
  settled := h.settled

/-- An instance that was created in the current view holds nothing of another. -/
theorem Dated.current (h : inst.Dated view) (hview : inst.view = view) :
    inst.Files (fun _ p => p.view = view) (fun _ c => c.view = view) := by
  have hle := h.votes
  rw [hview] at hle
  exact ⟨fun id p hp => UInt64.le_antisymm (hle.prepare id p hp).2 (hle.prepare id p hp).1,
    fun id c hc => UInt64.le_antisymm (hle.commit id c hc).2 (hle.commit id c hc).1⟩

theorem Dated.storePrepare (h : inst.Dated view) (id : NodeId) {p : Prepare} (hp : p.view = view)
    (hcurrent : inst.prePrepare.isSome → inst.view = view) :
    { inst with prepares := inst.prepares.insert id p }.Dated view where
  created := h.created
  votes := by
    have hview : inst.view ≤ p.view ∧ p.view ≤ view :=
      ⟨hp ▸ h.created, hp ▸ UInt64.le_refl _⟩
    exact ⟨fun _ _ => Table.forall_insert h.votes.prepare hview, h.votes.commit⟩
  prePrepare := h.prePrepare
  settled := by
    intro hsome
    have hsettled := h.settled hsome
    refine ⟨fun _ _ => Table.forall_insert hsettled.prepare ?_, hsettled.commit⟩
    exact hp.trans (hcurrent hsome).symm

theorem Dated.storeCommit (h : inst.Dated view) (id : NodeId) {c : Commit} (phase : Phase)
    (hlow : inst.view ≤ c.view) (hhigh : c.view ≤ view)
    (hcurrent : inst.prePrepare.isSome → c.view = inst.view) :
    { inst with phase := phase, commits := inst.commits.insert id c }.Dated view where
  created := h.created
  votes := ⟨h.votes.prepare, fun _ _ => Table.forall_insert h.votes.commit ⟨hlow, hhigh⟩⟩
  prePrepare := h.prePrepare
  settled := by
    intro hsome
    have hsettled := h.settled hsome
    exact ⟨hsettled.prepare, fun _ _ => Table.forall_insert hsettled.commit (hcurrent hsome)⟩

theorem Dated.preparesInView_eq (h : inst.Dated view) {pp : PrePrepare}
    (hpp : inst.prePrepare = some pp) : inst.preparesInView = inst.prepares.keys := by
  have hsettled := h.settled (by rw [hpp]; rfl)
  refine Finset.filter_true_of_mem fun id hid => ?_
  obtain ⟨p, hp⟩ := Table.exists_lookup_of_mem_keys hid
  rw [hp, hpp, Option.map_some, Option.map_some, hsettled.prepare id p hp, h.prePrepare pp hpp]

theorem Dated.commitsInView_eq (h : inst.Dated view) {pp : PrePrepare}
    (hpp : inst.prePrepare = some pp) : inst.commitsInView = inst.commits.keys := by
  have hsettled := h.settled (by rw [hpp]; rfl)
  refine Finset.filter_true_of_mem fun id hid => ?_
  obtain ⟨c, hc⟩ := Table.exists_lookup_of_mem_keys hid
  rw [hc, hpp, Option.map_some, Option.map_some, hsettled.commit id c hc, h.prePrepare pp hpp]

end

end ConsensusInstance

section

variable [Crypto]

/-- The prepare passes the checks there are before the table is looked at. -/
@[mk_iff]
structure PbftState.ValidPrepare (st : PbftState) (p : Prepare) : Prop where
  view : p.view = st.view
  low : st.lowWatermark < p.sequence
  high : p.sequence ≤ st.highWatermark
  signature : verifyNodeSignature p.replicaId
    (asBytes (prepareSignData p.view p.sequence p.digest)) p.signature = true
  digest : ∀ pp, (st.instanceAt p.sequence).prePrepare = some pp → pp.digest = p.digest

/-- The commit passes the checks there are before the table is looked at. -/
@[mk_iff]
structure PbftState.ValidCommit (st : PbftState) (c : Commit) : Prop where
  view : c.view = st.view
  low : st.lowWatermark < c.sequence
  high : c.sequence ≤ st.highWatermark
  signature : verifyNodeSignature c.replicaId
    (asBytes (commitSignData c.view c.sequence c.digest)) c.signature = true
  digest : ∀ d, (st.instanceAt c.sequence).digest = some d → c.digest = d

instance (st : PbftState) (p : Prepare) : Decidable (st.ValidPrepare p) :=
  decidable_of_iff _ (st.validPrepare_iff p).symm

instance (st : PbftState) (c : Commit) : Decidable (st.ValidCommit c) :=
  decidable_of_iff _ (st.validCommit_iff c).symm

theorem PbftState.AcceptsPrepare.valid {st : PbftState} {p : Prepare} (h : st.AcceptsPrepare p) :
    st.ValidPrepare p :=
  ⟨h.view, h.low, h.high, h.signature, h.digest⟩

theorem PbftState.AcceptsCommit.valid {st : PbftState} {c : Commit} (h : st.AcceptsCommit c) :
    st.ValidCommit c :=
  ⟨h.view, h.low, h.high, h.signature, h.digest⟩

/--
A pre-prepare that is recorded, or a valid vote that meets a pre-prepare, finds no instance
of an earlier view.
-/
def PbftState.WorksInView (st : PbftState) : Section → Prop
  | .handleRequest request => st.Proposes request → st.Current (st.sequence + 1)
  | .handlePrePrepare pp => st.AcceptsPrePrepare pp → st.Current pp.sequence
  | .handlePrepare p => st.ValidPrepare p → (st.instanceAt p.sequence).prePrepare.isSome →
      st.Current p.sequence
  | .handleCommit c => st.ValidCommit c → (st.instanceAt c.sequence).prePrepare.isSome →
      st.Current c.sequence
  | _ => True

instance (st : PbftState) : (sec : Section) → Decidable (st.WorksInView sec)
  | .handleRequest _ | .handlePrePrepare _ | .handlePrepare _ | .handleCommit _ =>
      by dsimp only [PbftState.WorksInView]; infer_instance
  | .tryAdvanceToPrepared _ | .tryAdvanceToCommitted _ | .tryCheckpoint _ | .handleCheckpoint _
  | .handleViewChange _ | .handleNewView _ | .startViewChange | .checkTimeout => isTrue trivial

omit [Crypto] in
/-- All instances in the log are dated. -/
def PbftState.Dated (st : PbftState) : Prop :=
  ∀ s inst, st.log.lookup s = some inst → inst.Dated st.view

section

variable {st : PbftState} {issued : List Send} {now : Instant} {sec : Section} {out : Outcome}

omit [Crypto] in
theorem PbftState.Dated.instanceAt (h : st.Dated) (s : SequenceNumber) :
    (st.instanceAt s).Dated st.view := by
  rcases st.instanceAt_cases s with hlookup | hnew
  · exact h s _ hlookup
  · rw [hnew]
    exact ConsensusInstance.dated_new s st.view

private theorem dated_recorded (h : st.Dated) {pp : PrePrepare} (hview : pp.view = st.view)
    (hcurrent : st.Current pp.sequence) :
    (st.recorded pp (st.ownPrepare pp.view pp.sequence pp.digest)).Dated st.view := by
  have hinst := hcurrent.instanceAt
  have hfiles := (h.instanceAt pp.sequence).current hinst
  have hown : (st.ownPrepare pp.view pp.sequence pp.digest).view = st.view := hview
  have hvotes : (st.recorded pp (st.ownPrepare pp.view pp.sequence pp.digest)).Files
      (fun _ p => p.view = st.view) (fun _ c => c.view = st.view) :=
    ⟨fun _ _ => Table.forall_insert hfiles.prepare hown, hfiles.commit⟩
  have hsame : (st.recorded pp (st.ownPrepare pp.view pp.sequence pp.digest)).view = st.view := hinst
  refine ⟨UInt64.le_of_eq hsame, ?_, ?_, ?_⟩
  · rw [hsame]
    exact ⟨fun id p hp => ⟨UInt64.le_of_eq (hvotes.prepare id p hp).symm,
        UInt64.le_of_eq (hvotes.prepare id p hp)⟩,
      fun id c hc => ⟨UInt64.le_of_eq (hvotes.commit id c hc).symm,
        UInt64.le_of_eq (hvotes.commit id c hc)⟩⟩
  · intro pp' hpp
    obtain rfl := Option.some.inj hpp
    exact hview.trans hsame.symm
  · rw [hsame]
    exact fun _ => hvotes

/-- **A section that works in the current view keeps all instances dated.** -/
theorem PbftState.Dated.step (h : st.Dated) (ht : Transition st now sec out)
    (hworks : st.WorksInView sec) : out.state.Dated := by
  intro s inst hlookup
  have hdated : inst.Dated st.view → inst.Dated out.state.view := fun h => h.mono ht.view_le
  refine hdated ?_
  rcases ht.entry hlookup with hold | hwrite
  · exact h s inst hold
  cases hwrite with
  | propose request hp _ _ _ =>
      have hview : (st.proposal (st.sequence + 1) request).view = st.view := rfl
      exact dated_recorded h hview (hworks hp)
  | accept pp hp _ _ => exact dated_recorded h hp.view (hworks hp)
  | storePrepare p hp _ =>
      refine (h.instanceAt p.sequence).storePrepare p.replicaId hp.view fun hsome => ?_
      exact (hworks hp.valid hsome).instanceAt
  | prepared s inst digest hl _ _ _ _ _ =>
      have hinst := h s inst hl
      exact hinst.storeCommit st.nodeId .prepared (UInt64.le_refl _) hinst.created fun _ => rfl
  | storeCommit c hc _ =>
      have hinst := h.instanceAt c.sequence
      refine hinst.storeCommit c.replicaId (st.instanceAt c.sequence).phase
        (hc.view ▸ hinst.created) (hc.view ▸ UInt64.le_refl _) fun hsome => ?_
      exact hc.view.trans (hworks hc.valid hsome).instanceAt.symm
  | committed s inst hl _ _ _ _ =>
      have hinst := h s inst hl
      exact ⟨hinst.created, ⟨hinst.votes.prepare, hinst.votes.commit⟩, hinst.prePrepare,
        fun hsome => ⟨(hinst.settled hsome).prepare, (hinst.settled hsome).commit⟩⟩

end

namespace Replica

/--
The step counts votes of the view of the pre-prepare.  An instance that it moves on has a
quorum of them, and a valid vote that meets a pre-prepare meets no vote which its sender
has made in an earlier view.
-/
structure CountsInView (r : Replica) (a : Action) (r' : Replica) : Prop where
  prepared : ∀ s, r.sectionOf a = some (.tryAdvanceToPrepared s) →
    (r.state.instanceAt s).phase ≠ .prepared → (r'.state.instanceAt s).phase = .prepared →
      r'.state.config.quorum ≤ (r'.state.instanceAt s).preparesInView.card
  committed : ∀ s, r.sectionOf a = some (.tryAdvanceToCommitted s) →
    (r.state.instanceAt s).phase ≠ .committed → (r'.state.instanceAt s).phase = .committed →
      r'.state.config.quorum ≤ (r'.state.instanceAt s).commitsInView.card
  prepare : ∀ p, r.sectionOf a = some (.handlePrepare p) → r.state.ValidPrepare p →
    (r.state.instanceAt p.sequence).prePrepare.isSome →
      ∀ old, (r.state.instanceAt p.sequence).prepares.lookup p.replicaId = some old →
        ¬ old.view < p.view
  commit : ∀ c, r.sectionOf a = some (.handleCommit c) → r.state.ValidCommit c →
    (r.state.instanceAt c.sequence).prePrepare.isSome →
      ∀ old, (r.state.instanceAt c.sequence).commits.lookup c.replicaId = some old →
        ¬ old.view < c.view

/-- The section of the step works in the current view. -/
def WorksInView (r : Replica) (a : Action) : Prop :=
  ∀ sec, r.sectionOf a = some sec → r.state.WorksInView sec

instance (r : Replica) (a : Action) : Decidable (r.WorksInView a) :=
  inferInstanceAs (Decidable (∀ sec, r.sectionOf a = some sec → r.state.WorksInView sec))

variable {r r' : Replica} {a : Action}

theorem dated_act (hact : r.act a = some r') (h : r.state.Dated) (hworks : r.WorksInView a) :
    r'.state.Dated :=
  keep (I := fun st _ => st.Dated) hact h fun hsec ht => h.step ht (hworks _ hsec)

/--
**Only votes of the current view count**, in every run in which pre-prepares are recorded,
and votes on them taken, in instances of the current view.
-/
theorem counts_in_view {nodeId : NodeId} {keypair : KeyPair} {replicas : Replicas}
    {config : PbftConfig} {now : Instant} {as : List Action}
    (h : Run (Next WorksInView) (new (PbftState.new nodeId keypair replicas config now)) as r)
    (hstep : Next WorksInView r a r') : r.CountsInView a r' := by
  have hsound := sound_of_run h (sound_new nodeId keypair replicas config now)
  have hdated : r.state.Dated := by
    refine h.state_invariant (I := fun r => r.state.Dated) ?_ ?_
    · exact fun s inst hlookup => absurd hlookup (by simp [new, PbftState.new])
    · rintro t a u hdated ⟨hworks, hact⟩
      exact dated_act hact hdated hworks
  have hafter := dated_act hstep.2 hdated hstep.1
  have hwf := (hsound.act hstep.2).wellFormed
  constructor
  · intro s hsec hbefore hphase
    have hprep : (r'.state.instanceAt s).isPrepared := Or.inl hphase
    have hok := hwf.instanceAt s
    obtain ⟨pp, hpp⟩ := hok.exists_prePrepare hprep
    rw [(hafter.instanceAt s).preparesInView_eq hpp]
    exact hok.quorum hprep
  · intro s hsec hbefore hphase
    have hprep : (r'.state.instanceAt s).isPrepared := Or.inr hphase
    obtain ⟨pp, hpp⟩ := (hwf.instanceAt s).exists_prePrepare hprep
    rw [(hafter.instanceAt s).commitsInView_eq hpp]
    rw [(act_of_sectionOf hstep.2 hsec).1] at hphase ⊢
    exact (run_transition r.state a.now _).quorum_of_committed hbefore hphase
  · intro p hsec hvalid hsome old hold
    have hcurrent := (hstep.1 _ hsec hvalid hsome).instanceAt
    have hview := ((hdated.instanceAt p.sequence).current hcurrent).prepare _ old hold
    rw [hview, hvalid.view]
    exact UInt64.lt_irrefl _
  · intro c hsec hvalid hsome old hold
    have hcurrent := (hstep.1 _ hsec hvalid hsome).instanceAt
    have hview := ((hdated.instanceAt c.sequence).current hcurrent).commit _ old hold
    rw [hview, hvalid.view]
    exact UInt64.lt_irrefl _

end Replica

end

namespace Sample

/-- The second node enters view 4, and gets the first request from the primary again. -/
def laterView : List Action :=
  [.call (.processMessage (.newView ⟨4, 0, node 0, []⟩)) 0,
    .call (.processMessage (.prePrepare (proposalIn 0 4 1 (request 2)))) 0]

/-- The prepare of the third node in view 4. -/
def laterPrepare : Action :=
  .call (.processMessage (.prepare ((signer 2).ownPrepare 4 1 (request 2).digest))) 0

end Sample

open Sample in
/-- A backup that enters view 4 before anything else, and is prepared there. -/
theorem Replica.counts_in_view_backup :
    ∃ r r' : Replica, r.act (.resume 2 0) = some r' ∧
      (r'.state.instanceAt 1).phase = .prepared ∧ r.CountsInView (.resume 2 0) r' := by
  obtain ⟨r, hrun, hrule, hact⟩ := exists_run WorksInView
    (new ((cluster 3).initState (node 1)))
    (laterView ++ [laterPrepare, .call (.processMessage (.prepare
      ((signer 3).ownPrepare 4 1 (request 2).digest))) 0])
    (fun r => r.WorksInView (.resume 2 0) ∧
      (r.act (.resume 2 0)).any fun r' => (r'.state.instanceAt 1).phase = .prepared)
    (by decide +kernel)
  obtain ⟨r', hr', hphase⟩ := (Option.any_eq_true _ _).mp hact
  exact ⟨r, r', hr', of_decide_eq_true hphase, counts_in_view hrun ⟨hrule, hr'⟩⟩

open Sample in
/--
**Votes of an earlier view count, and keep later ones out.**  A backup with two prepares and
two commits of view 0 enters view 4 and takes the pre-prepare there.  It is prepared with
one prepare of view 4, its own; committed with no commit of view 4; and a prepare of view 4
is dropped for the one of view 0 that is there.
-/
theorem Replica.earlier_votes_count :
    (∃ r r', Run (Next fun _ _ => True) (new ((cluster 3).initState (node 1)))
        (earlyVotes ++ laterView ++ [.resume 5 0]) r ∧ r.act (.resume 5 0) = some r' ∧
        ¬ r.CountsInView (.resume 5 0) r') ∧
    (∃ r r', Run (Next fun _ _ => True) (new ((cluster 3).initState (node 1)))
        (earlyVotes ++ laterView ++ List.replicate 3 (.resume 5 0)) r ∧
        r.act (.resume 5 0) = some r' ∧ ¬ r.CountsInView (.resume 5 0) r') ∧
    ∃ r r', Run (Next fun _ _ => True) (new ((cluster 3).initState (node 1)))
        (earlyVotes ++ laterView) r ∧ r.act laterPrepare = some r' ∧ r'.state = r.state ∧
        ¬ r.CountsInView laterPrepare r' := by
  refine ⟨?_, ?_, ?_⟩
  · obtain ⟨r, hrun, hsec, hbefore, hact⟩ := exists_run (fun _ _ => True)
      (new ((cluster 3).initState (node 1))) (earlyVotes ++ laterView ++ [.resume 5 0])
      (fun r => r.sectionOf (.resume 5 0) = some (.tryAdvanceToPrepared 1) ∧
        (r.state.instanceAt 1).phase ≠ .prepared ∧
        (r.act (.resume 5 0)).any fun r' => (r'.state.instanceAt 1).phase = .prepared ∧
          (r'.state.instanceAt 1).preparesInView.card < r'.state.config.quorum)
      (by decide +kernel)
    obtain ⟨r', hr', hphase⟩ := (Option.any_eq_true _ _).mp hact
    obtain ⟨hphase, hfew⟩ := of_decide_eq_true hphase
    exact ⟨r, r', hrun, hr', fun h =>
      absurd (h.prepared 1 hsec hbefore hphase) (Nat.not_le.mpr hfew)⟩
  · obtain ⟨r, hrun, hsec, hbefore, hact⟩ := exists_run (fun _ _ => True)
      (new ((cluster 3).initState (node 1)))
      (earlyVotes ++ laterView ++ List.replicate 3 (.resume 5 0))
      (fun r => r.sectionOf (.resume 5 0) = some (.tryAdvanceToCommitted 1) ∧
        (r.state.instanceAt 1).phase ≠ .committed ∧
        (r.act (.resume 5 0)).any fun r' => (r'.state.instanceAt 1).phase = .committed ∧
          (r'.state.instanceAt 1).commitsInView.card < r'.state.config.quorum)
      (by decide +kernel)
    obtain ⟨r', hr', hphase⟩ := (Option.any_eq_true _ _).mp hact
    obtain ⟨hphase, hfew⟩ := of_decide_eq_true hphase
    exact ⟨r, r', hrun, hr', fun h =>
      absurd (h.committed 1 hsec hbefore hphase) (Nat.not_le.mpr hfew)⟩
  · obtain ⟨r, hrun, hvalid, hsome, hold, hact⟩ := exists_run (fun _ _ => True)
      (new ((cluster 3).initState (node 1))) (earlyVotes ++ laterView)
      (fun r => r.state.ValidPrepare ((signer 2).ownPrepare 4 1 (request 2).digest) ∧
        (r.state.instanceAt 1).prePrepare.isSome ∧
        (((r.state.instanceAt 1).prepares.lookup (node 2)).any fun old => old.view < 4) ∧
        (r.act laterPrepare).any fun r' => r'.state = r.state)
      (by decide +kernel)
    obtain ⟨r', hr', hsame⟩ := (Option.any_eq_true _ _).mp hact
    obtain ⟨old, hlookup, hview⟩ := (Option.any_eq_true _ _).mp hold
    exact ⟨r, r', hrun, hr', of_decide_eq_true hsame, fun h =>
      h.prepare _ rfl hvalid hsome old hlookup (of_decide_eq_true hview)⟩

end P2pPbft
