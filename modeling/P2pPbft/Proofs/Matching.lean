/-
Votes for the digest of the pre-prepare.

`try_advance_to_prepared` and `try_advance_to_committed` look at the size of a vote
table only.  A vote that comes after the pre-prepare has been compared with it, one
that came before has not, and recording the pre-prepare does not go back to it.  So
the tables count what they should as long as every pre-prepare is recorded over votes
that are for its digest.
-/
import P2pPbft.Proofs.Agreement

namespace P2pPbft

namespace ConsensusInstance

/-- Who has a prepare stored that is for the digest of the instance. -/
def matchingPrepares (inst : ConsensusInstance) : Finset NodeId :=
  inst.prepares.keys.filter fun id => (inst.prepares.lookup id).map (·.digest) = inst.digest

/-- Who has a commit stored that is for the digest of the instance. -/
def matchingCommits (inst : ConsensusInstance) : Finset NodeId :=
  inst.commits.keys.filter fun id => (inst.commits.lookup id).map (·.digest) = inst.digest

/--
The votes stored with a pre-prepare are for its digest.  The replica's own commit may
be an old one until the instance is prepared, which is when it is written anew.
-/
structure Matching (owner : NodeId) (inst : ConsensusInstance) : Prop where
  prepare : ∀ pp, inst.prePrepare = some pp →
    ∀ id p, inst.prepares.lookup id = some p → p.digest = pp.digest
  commit : ∀ pp, inst.prePrepare = some pp → ∀ id c, inst.commits.lookup id = some c →
    id ≠ owner ∨ inst.isPrepared → c.digest = pp.digest

theorem matching_new (owner : NodeId) (s : SequenceNumber) (view : ViewNumber) :
    (ConsensusInstance.new s view).Matching owner :=
  ⟨fun _ h => absurd h (by simp [new]), fun _ h => absurd h (by simp [new])⟩

section

variable {owner : NodeId} {inst : ConsensusInstance} {pp : PrePrepare}

theorem Matching.matchingPrepares_eq (h : inst.Matching owner) (hpp : inst.prePrepare = some pp)
    (hdigest : inst.digest = some pp.digest) : inst.matchingPrepares = inst.prepares.keys := by
  refine Finset.filter_true_of_mem fun id hid => ?_
  obtain ⟨p, hp⟩ := Table.exists_lookup_of_mem_keys hid
  rw [hp, hdigest, Option.map_some, h.prepare pp hpp id p hp]

theorem Matching.matchingCommits_eq (h : inst.Matching owner) (hpp : inst.prePrepare = some pp)
    (hdigest : inst.digest = some pp.digest) (hprep : inst.isPrepared) :
    inst.matchingCommits = inst.commits.keys := by
  refine Finset.filter_true_of_mem fun id hid => ?_
  obtain ⟨c, hc⟩ := Table.exists_lookup_of_mem_keys hid
  rw [hc, hdigest, Option.map_some, h.commit pp hpp id c hc (Or.inr hprep)]

end

end ConsensusInstance

/-- What others have sent ahead of the pre-prepare, prepares and commits, is for its digest. -/
def PbftState.EarlyVotesAgree (st : PbftState) (pp : PrePrepare) : Prop :=
  st.BufferedAgree pp ∧ ∀ id c, (st.instanceAt pp.sequence).commits.lookup id = some c →
    id ≠ st.nodeId → c.digest = pp.digest

instance (st : PbftState) (pp : PrePrepare) : Decidable (st.EarlyVotesAgree pp) :=
  decidable_of_iff (st.BufferedAgree pp ∧
      ∀ id ∈ (st.instanceAt pp.sequence).commits.keys, id ≠ st.nodeId →
        ∀ c, (st.instanceAt pp.sequence).commits.lookup id = some c → c.digest = pp.digest) <| by
    constructor
    · rintro ⟨hprepares, h⟩
      exact ⟨hprepares, fun id c hc hid => h id (Table.mem_keys_of_lookup hc) hid c hc⟩
    · rintro ⟨hprepares, h⟩
      exact ⟨hprepares, fun id _ hid c hc => h id c hc hid⟩

section

variable [Crypto]

/-- The section records a pre-prepare only over votes that are for its digest. -/
def PbftState.RecordsMatching (st : PbftState) : Section → Prop
  | .handleRequest request =>
    st.Proposes request → st.EarlyVotesAgree (st.proposal (st.sequence + 1) request)
  | .handlePrePrepare pp => st.AcceptsPrePrepare pp → st.EarlyVotesAgree pp
  | _ => True

instance (st : PbftState) : (sec : Section) → Decidable (st.RecordsMatching sec)
  | .handleRequest _ | .handlePrePrepare _ =>
      by dsimp only [PbftState.RecordsMatching]; infer_instance
  | .handlePrepare _ | .tryAdvanceToPrepared _ | .handleCommit _ | .tryAdvanceToCommitted _
  | .tryCheckpoint _ | .handleCheckpoint _ | .handleViewChange _ | .handleNewView _
  | .startViewChange | .checkTimeout => isTrue trivial

/-- All instances in the log have matching votes. -/
def PbftState.Matching (st : PbftState) : Prop :=
  ∀ s inst, st.log.lookup s = some inst → inst.Matching st.nodeId

section

variable {st : PbftState} {issued : List Send} {now : Instant} {sec : Section} {out : Outcome}

omit [Crypto] in
theorem PbftState.Matching.instanceAt (h : st.Matching) (s : SequenceNumber) :
    (st.instanceAt s).Matching st.nodeId := by
  rcases st.instanceAt_cases s with hlookup | hnew
  · exact h s _ hlookup
  · rw [hnew]
    exact ConsensusInstance.matching_new st.nodeId s st.view

omit [Crypto] in
private theorem matching_commit {owner : NodeId} {inst : ConsensusInstance}
    (h : inst.Matching owner) {id : NodeId} {c : Commit} {phase : Phase}
    (hdigest : ∀ pp, inst.prePrepare = some pp → c.digest = pp.digest)
    (hprep : phase = inst.phase ∨ id = owner) :
    { inst with phase := phase, commits := inst.commits.insert id c }.Matching owner := by
  refine ⟨h.prepare, fun pp hpp id' c' hc' hcounts => ?_⟩
  rcases Table.lookup_insert_cases hc' with ⟨-, rfl⟩ | ⟨hid, hold⟩
  · exact hdigest pp hpp
  · refine h.commit pp hpp id' c' hold ?_
    rcases hprep with rfl | rfl
    · exact hcounts
    · exact Or.inl hid

private theorem matching_recorded {pp : PrePrepare}
    (hagree : st.EarlyVotesAgree pp) :
    (st.recorded pp (st.ownPrepare pp.view pp.sequence pp.digest)).Matching st.nodeId := by
  constructor
  · intro pp' hpp id p hp
    obtain rfl := Option.some.inj hpp
    rcases Table.lookup_insert_cases hp with ⟨-, rfl⟩ | ⟨hid, hold⟩
    · rfl
    · exact hagree.1 id p hold hid
  · intro pp' hpp id c hc hcounts
    obtain rfl := Option.some.inj hpp
    rcases hcounts with hid | hprep
    · exact hagree.2 id c hc hid
    · exact absurd hprep (by simp [ConsensusInstance.isPrepared, PbftState.recorded])

/-- Storing a prepare that was compared with the pre-prepare, if there is one. -/
private theorem matching_stored (h : st.Matching) {prepare : Prepare}
    (hp : st.AcceptsPrepare prepare) :
    { st.instanceAt prepare.sequence with
      prepares := (st.instanceAt prepare.sequence).prepares.insert prepare.replicaId prepare
      }.Matching st.nodeId := by
  have hbase := h.instanceAt prepare.sequence
  refine ⟨fun pp hpp id p hlookup => ?_, hbase.commit⟩
  rcases Table.lookup_insert_cases hlookup with ⟨-, rfl⟩ | ⟨-, hold⟩
  · exact (hp.digest pp hpp).symm
  · exact hbase.prepare pp hpp id p hold

/-- **A section that records over matching votes keeps the votes matching.** -/
theorem PbftState.Matching.step (h : st.Matching) (hwf : WellFormed st issued)
    (ht : Transition st now sec out) (hrecords : st.RecordsMatching sec) : out.state.Matching := by
  intro s inst hlookup
  rw [ht.static.1]
  rcases ht.entry hlookup with hold | hwrite
  · exact h s inst hold
  cases hwrite with
  | propose request hp _ _ _ => exact matching_recorded (hrecords hp)
  | accept pp hp _ _ => exact matching_recorded (hrecords hp)
  | storePrepare prepare hp _ => exact matching_stored h hp
  | prepared s inst digest hl _ _ _ hdigest _ =>
      refine matching_commit (h s inst hl) (fun pp hpp => ?_) (Or.inr rfl)
      exact Option.some.inj (hdigest.symm.trans ((hwf.entry s inst hl).digest pp hpp))
  | storeCommit commit hc _ =>
      refine matching_commit (h.instanceAt commit.sequence) (fun pp hpp => ?_) (Or.inl rfl)
      exact hc.digest pp.digest ((hwf.instanceAt commit.sequence).digest pp hpp)
  | committed s inst hl hphase _ _ _ =>
      have hbase := h s inst hl
      exact ⟨hbase.prepare, fun pp hpp id c hc _ => hbase.commit pp hpp id c hc (Or.inr (Or.inl hphase))⟩

end

/-! ### Runs -/

/--
The step advances instances on votes for their digest: if it is `try_advance_to_prepared`
or `try_advance_to_committed` that moves an instance on, a quorum of the votes it has
stored by then match.
-/
structure Replica.AdvancesOnMatching (r : Replica) (a : Action) (r' : Replica) : Prop where
  prepared : ∀ s, r.sectionOf a = some (.tryAdvanceToPrepared s) →
    (r.state.instanceAt s).phase ≠ .prepared → (r'.state.instanceAt s).phase = .prepared →
      r'.state.config.quorum ≤ (r'.state.instanceAt s).matchingPrepares.card
  committed : ∀ s, r.sectionOf a = some (.tryAdvanceToCommitted s) →
    (r.state.instanceAt s).phase ≠ .committed → (r'.state.instanceAt s).phase = .committed →
      r'.state.config.quorum ≤ (r'.state.instanceAt s).matchingCommits.card

/-- Committing an instance takes a quorum of commits. -/
theorem Transition.quorum_of_committed {st : PbftState} {now : Instant} {s : SequenceNumber}
    {out : Outcome} (ht : Transition st now (.tryAdvanceToCommitted s) out)
    (hbefore : (st.instanceAt s).phase ≠ .committed)
    (hafter : (out.state.instanceAt s).phase = .committed) :
    out.state.config.quorum ≤ (out.state.instanceAt s).commits.keys.card := by
  have hprep : (out.state.instanceAt s).isPrepared := Or.inr hafter
  have hlookup := PbftState.lookup_of_isPrepared hprep
  rw [ht.static.2.2.2]
  rcases ht.entry hlookup with hold | hwrite
  · rw [PbftState.instanceAt_of_lookup hold] at hbefore
    exact absurd hafter hbefore
  · generalize out.state.instanceAt s = inst at hwrite
    cases hwrite with
    | committed s inst' hl hphase hquorum _ _ => exact hquorum

/--
**An instance advances on a quorum of votes for its digest**, in every run in which the
replica records each pre-prepare over votes that are for its digest.
-/
theorem Replica.advances_on_matching {nodeId : NodeId} {keypair : KeyPair} {replicas : Replicas}
    {config : PbftConfig} {now : Instant} {as : List Action} {r r' : Replica} {a : Action}
    (h : Run (Next fun r a => ∀ sec, r.sectionOf a = some sec → r.state.RecordsMatching sec)
      (new (PbftState.new nodeId keypair replicas config now)) as r) (hact : r.act a = some r') :
    r.AdvancesOnMatching a r' := by
  have hsound := sound_of_run h (sound_new nodeId keypair replicas config now)
  have hmatching : r.state.Matching := by
    refine (h.state_invariant (I := fun r => r.Sound ∧ r.state.Matching)
      ⟨sound_new _ _ _ _ _, fun s inst h => absurd h (by simp [new, PbftState.new])⟩ ?_).2
    rintro t a u ⟨hsound, hmatching⟩ ⟨hrule, hact⟩
    exact ⟨hsound.act hact, keep (I := fun st _ => st.Matching) hact hmatching
      fun hsec ht => hmatching.step hsound.wellFormed ht (hrule _ hsec)⟩
  have hwf := (hsound.act hact).wellFormed
  -- Neither of the two sections records anything, so the votes match after them too.
  have hafter : ∀ s, r.sectionOf a = some (.tryAdvanceToPrepared s) ∨
      r.sectionOf a = some (.tryAdvanceToCommitted s) → r'.state.Matching := by
    intro s hsec
    refine keep (I := fun st _ => st.Matching) hact hmatching fun hsec' ht =>
      hmatching.step hsound.wellFormed ht ?_
    rcases hsec with hsec | hsec <;> obtain rfl := Option.some.inj (hsec.symm.trans hsec') <;>
      trivial
  constructor
  · intro s hsec hbefore hphase
    have hprep : (r'.state.instanceAt s).isPrepared := Or.inl hphase
    have hok := hwf.instanceAt s
    obtain ⟨pp, hpp⟩ := hok.exists_prePrepare hprep
    rw [((hafter s (Or.inl hsec)).instanceAt s).matchingPrepares_eq hpp (hok.digest pp hpp)]
    exact hok.quorum hprep
  · intro s hsec hbefore hphase
    have hprep : (r'.state.instanceAt s).isPrepared := Or.inr hphase
    have hok := hwf.instanceAt s
    obtain ⟨pp, hpp⟩ := hok.exists_prePrepare hprep
    rw [((hafter s (Or.inr hsec)).instanceAt s).matchingCommits_eq hpp (hok.digest pp hpp) hprep]
    rw [(act_of_sectionOf hact hsec).1] at hphase ⊢
    exact (run_transition r.state a.now _).quorum_of_committed hbefore hphase

end

namespace Sample

/-- A prepare and a commit of two nodes for the second request. -/
def earlyVotes : List Action :=
  [(deliver 1 (.prepare ((signer 2).ownPrepare 0 1 (request 2).digest))).action,
    (deliver 1 (.prepare ((signer 3).ownPrepare 0 1 (request 2).digest))).action,
    (deliver 1 (.commit ((signer 2).ownCommit (ConsensusInstance.new 1 0) 1 (request 2).digest))).action,
    (deliver 1 (.commit ((signer 3).ownCommit (ConsensusInstance.new 1 0) 1 (request 2).digest))).action]

end Sample

open Sample in
/-- A backup that gets the pre-prepare first and two prepares for it after. -/
theorem Replica.advances_on_matching_backup :
    ∃ r r' : Replica, r.act (.resume 2 0) = some r' ∧
      (r'.state.instanceAt 1).phase = .prepared ∧
      r'.state.config.quorum ≤ (r'.state.instanceAt 1).matchingPrepares.card := by
  obtain ⟨r, hrun, hsec, hbefore, hact⟩ := exists_run
    (fun r a => ∀ sec, r.sectionOf a = some sec → r.state.RecordsMatching sec)
    (new ((cluster 3).initState (node 1)))
    ((persuade 1 (request 1) (signer 2)).take 3 |>.map (·.action))
    (fun r => r.sectionOf (.resume 2 0) = some (.tryAdvanceToPrepared 1) ∧
      (r.state.instanceAt 1).phase ≠ .prepared ∧
      (r.act (.resume 2 0)).any fun r' => (r'.state.instanceAt 1).phase = .prepared)
    (by decide +kernel)
  obtain ⟨r', hr', hphase⟩ := (Option.any_eq_true _ _).mp hact
  have hphase := of_decide_eq_true hphase
  exact ⟨r, r', hr', hphase, (advances_on_matching hrun hr').prepared 1 hsec hbefore hphase⟩

open Sample in
/--
**Early votes are counted whatever they are for**: with two prepares for the second
request in its log, a backup that takes the pre-prepare of the first one is prepared at
once, with one matching prepare of the three it takes; and two such commits commit it.
-/
theorem Replica.advances_on_mismatched :
    (∃ r r', Run (Next fun _ _ => True) (new ((cluster 3).initState (node 1)))
        (earlyVotes ++ [(deliver 1 (.prePrepare ((signer 0).proposal 1 (request 1)))).action,
          .resume 4 0]) r ∧ r.act (.resume 4 0) = some r' ∧ ¬ r.AdvancesOnMatching (.resume 4 0) r') ∧
    ∃ r r', Run (Next fun _ _ => True) (new ((cluster 3).initState (node 1)))
        (earlyVotes ++ (deliver 1 (.prePrepare ((signer 0).proposal 1 (request 1)))).action ::
          List.replicate 3 (.resume 4 0)) r ∧ r.act (.resume 4 0) = some r' ∧
        ¬ r.AdvancesOnMatching (.resume 4 0) r' := by
  constructor
  · obtain ⟨r, hrun, hsec, hbefore, hact⟩ := exists_run (fun _ _ => True)
      (new ((cluster 3).initState (node 1)))
      (earlyVotes ++ [(deliver 1 (.prePrepare ((signer 0).proposal 1 (request 1)))).action,
        .resume 4 0])
      (fun r => r.sectionOf (.resume 4 0) = some (.tryAdvanceToPrepared 1) ∧
        (r.state.instanceAt 1).phase ≠ .prepared ∧
        (r.act (.resume 4 0)).any fun r' => (r'.state.instanceAt 1).phase = .prepared ∧
          (r'.state.instanceAt 1).matchingPrepares.card < r'.state.config.quorum)
      (by decide +kernel)
    obtain ⟨r', hr', hphase⟩ := (Option.any_eq_true _ _).mp hact
    obtain ⟨hphase, hfew⟩ := of_decide_eq_true hphase
    exact ⟨r, r', hrun, hr', fun h =>
      absurd (h.prepared 1 hsec hbefore hphase) (Nat.not_le.mpr hfew)⟩
  · obtain ⟨r, hrun, hsec, hbefore, hact⟩ := exists_run (fun _ _ => True)
      (new ((cluster 3).initState (node 1)))
      (earlyVotes ++ (deliver 1 (.prePrepare ((signer 0).proposal 1 (request 1)))).action ::
        List.replicate 3 (.resume 4 0))
      (fun r => r.sectionOf (.resume 4 0) = some (.tryAdvanceToCommitted 1) ∧
        (r.state.instanceAt 1).phase ≠ .committed ∧
        (r.act (.resume 4 0)).any fun r' => (r'.state.instanceAt 1).phase = .committed ∧
          (r'.state.instanceAt 1).matchingCommits.card < r'.state.config.quorum)
      (by decide +kernel)
    obtain ⟨r', hr', hphase⟩ := (Option.any_eq_true _ _).mp hact
    obtain ⟨hphase, hfew⟩ := of_decide_eq_true hphase
    exact ⟨r, r', hrun, hr', fun h =>
      absurd (h.committed 1 hsec hbefore hphase) (Nat.not_le.mpr hfew)⟩

end P2pPbft
