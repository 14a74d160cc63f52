/-
Agreement among the correct replicas of a cluster with Byzantine ones.

Certificates for one number agree if no correct replica votes for two digests there.
Within view 0 that is so because a replica's slots stay apart.  Over all views it is
so if no number is given out again that the replica may have voted on, which is the
condition `FreshNumber`: a new primary counts on from its own counter, and the code
looks neither at the log nor at the low end of the window before it takes a number.
-/
import P2pPbft.Proofs.Certificate

namespace P2pPbft

section

variable [Crypto]

/-! ### Within one view -/

section

variable {st : PbftState} {issued : List Send} {now : Instant} {sec : Section} {out : Outcome}

theorem Votes.view {st' : PbftState} {p : Prepare} (h : Votes st sec st' p) :
    p.view = st.view := by
  cases h with
  | propose request h => rfl
  | accept pp h now => exact h.view

/-- Nothing but a new view makes a replica vote in another view. -/
theorem votes_in_view_step {v : ViewNumber} (ht : Transition st now sec out)
    (hview : st.view = v) (hvotes : ∀ p ∈ votes issued, p.view = v)
    (hsec : ∀ nv, sec ≠ .handleNewView nv) :
    out.state.view = v ∧ ∀ p ∈ votes (issued ++ out.sends), p.view = v := by
  refine ⟨?_, fun p hp => ?_⟩
  · rcases ht.view with hsame | ⟨nv, heq, -, -⟩
    · rw [hsame, hview]
    · exact absurd heq (hsec nv)
  · rw [votes_append] at hp
    rcases List.mem_append.mp hp with hold | hnew
    · exact hvotes p hold
    · rcases ht.votes with hnone | ⟨p', hone, hvote⟩
      · rw [hnone] at hnew
        exact absurd hnew (by simp)
      · rw [hone] at hnew
        obtain rfl := List.mem_singleton.mp hnew
        exact hvote.view.trans hview

/-- **In a run that delivers no new view every vote is cast in the first view.** -/
theorem Replica.votes_in_view_zero {rules : Replica → Action → Prop} {r₀ r : Replica}
    {as : List Action} (h : Run (Next rules) r₀ as r) (h₀ : r₀.Sound) (hview : r₀.state.view = 0)
    (hissued : r₀.issued = []) (hrules : ∀ {r a}, rules r a → a.newView? = none) :
    r.state.view = 0 ∧ ∀ p ∈ votes r.issued, p.view = 0 := by
  refine (h.state_invariant (I := fun r => r.Sound ∧ r.state.view = 0 ∧
    ∀ p ∈ votes r.issued, p.view = 0) ⟨h₀, hview, by simp [hissued, votes]⟩ ?_).2
  rintro t a u ⟨hsound, hview, hvotes⟩ ⟨hrule, hact⟩
  refine ⟨hsound.act hact, keep (I := fun st issued => st.view = 0 ∧
    ∀ p ∈ votes issued, p.view = 0) hact ⟨hview, hvotes⟩ fun hsec ht => ?_⟩
  refine votes_in_view_step ht hview hvotes ?_
  rintro nv rfl
  have hdelivered := hsound.cascading.message_of_sectionOf hsec rfl
  have hnone := hrules hrule
  rw [Action.newView?, hdelivered] at hnone
  exact absurd hnone (by simp)

end

/--
**Agreement in view 0.**  With at most `f` of `3f + 1` replicas Byzantine, two correct
ones never have instances prepared or committed with different digests under one
number, in a run without a new view in which votes are clean and no counter wraps.
-/
theorem agreement_in_view {cluster : Cluster} {f : Nat}
    (hn : cluster.replicas.ids.length = 3 * f + 1) {byzantine : Finset NodeId}
    (hbyz : byzantine.card ≤ f) {events : List Event} {net : Net}
    (h : Run (Net.Step fun net e =>
      ByzantineRules cluster byzantine (cluster.members \ byzantine) net e ∧
        e.action.newView? = none ∧
        ∀ sec, (net e.node).sectionOf e.action = some sec →
          (net e.node).state.CleanVotes sec ∧ (net e.node).state.NoWrap sec)
      cluster.init events net)
    {a b : NodeId} {s : SequenceNumber} {inst inst' : ConsensusInstance}
    (hlookup : (net a).state.log.lookup s = some inst)
    (hlookup' : (net b).state.log.lookup s = some inst')
    (hprep : inst.isPrepared) (hprep' : inst'.isPrepared) : inst.digest = inst'.digest := by
  have hhosts := Cluster.hosts_of_run h
  have hauth : Authentic (cluster.members \ byzantine) net :=
    authentic_of_run h fun hhosts hrule => hrule.1.genuine hhosts
  have hcertified := certified_of_run h fun hrule =>
    ⟨(Finset.mem_sdiff.mp hrule.1.1).1, fun sec hsec => (hrule.2.2 sec hsec).1⟩
  obtain ⟨d, hd⟩ := (hhosts a).sound.wellFormed.exists_digest hlookup hprep
  obtain ⟨d', hd'⟩ := (hhosts b).sound.wellFormed.exists_digest hlookup' hprep'
  have hcert := certificate_of_prepared hhosts hauth hlookup
    (hcertified a s inst hlookup) hprep hd
  have hcert' := certificate_of_prepared hhosts hauth hlookup'
    (hcertified b s inst' hlookup') hprep' hd'
  rw [hd, hd']
  refine congrArg some (hcert.agree hn hbyz hcert' fun id hid p hp p' hp' hs => ?_)
  -- A correct voter has one vote in the slot, and all its slots are in view 0.
  have hslots := slots_of_net_run h hid fun hhosts hrule =>
    ⟨hrule.1.genuine hhosts, fun heq sec hsec => by
      subst heq
      exact (hrule.2.2 sec hsec).2⟩
  have hview := (Replica.votes_in_view_zero (Net.run_at h id (fun _ a => a.newView? = none)
    fun hrule _ => hrule.2.1) (cluster.hosts_init id).sound rfl rfl fun h => h).2
  have hslot : (p.view, p.sequence) = (p'.view, p'.sequence) := by
    rw [hview p hp, hview p' hp', hs]
  exact congrArg Prepare.digest (List.inj_on_of_nodup_map hslots.votes_nodup hp hp' hslot)

end

namespace Sample

/-- A pre-prepare of the first node for a request, and two more votes for it. -/
def persuade (i : Fin 4) (request : Request) (third : PbftState) : List Event :=
  [deliver i (.prePrepare ((signer 0).proposal 1 request)),
    deliver i (.prepare ((signer 0).ownPrepare 0 1 request.digest)),
    deliver i (.prepare (third.ownPrepare 0 1 request.digest)), resume i 2]

end Sample

open Sample in
/-- Two correct replicas prepared by one another's votes. -/
theorem agreement_in_view_honest :
    ∃ net : Net, ((net (node 1)).state.instanceAt 1).phase = .prepared ∧
      ((net (node 2)).state.instanceAt 1).phase = .prepared ∧
      ((net (node 1)).state.instanceAt 1).digest = ((net (node 2)).state.instanceAt 1).digest := by
  obtain ⟨net, hrun, hphase, hphase'⟩ := Net.exists_run
    (fun net e => ByzantineRules (cluster 3) {node 0} ((cluster 3).members \ {node 0}) net e ∧
      e.action.newView? = none ∧
      ∀ sec, (net e.node).sectionOf e.action = some sec →
        (net e.node).state.CleanVotes sec ∧ (net e.node).state.NoWrap sec)
    (cluster 3).init
    ([deliver 2 (.prePrepare ((signer 0).proposal 1 (request 1))), resume 2 0] ++
      persuade 1 (request 1) (signer 2) ++ [resume 1 0] ++
      [deliver 2 (.prepare ((signer 0).ownPrepare 0 1 (request 1).digest)),
        deliver 2 (.prepare ((signer 1).ownPrepare 0 1 (request 1).digest)), resume 2 2])
    (fun net => ((net (node 1)).state.instanceAt 1).phase = .prepared ∧
      ((net (node 2)).state.instanceAt 1).phase = .prepared) (by decide +kernel)
  refine ⟨net, hphase, hphase', ?_⟩
  exact agreement_in_view (f := 1) rfl (by decide +kernel) hrun
    (PbftState.lookup_of_isPrepared (Or.inl hphase))
    (PbftState.lookup_of_isPrepared (Or.inl hphase')) (Or.inl hphase) (Or.inl hphase')

open Sample in
/--
**The vote of an outsider is enough for disagreement in view 0**: of four replicas one
is Byzantine and proposes two requests, each to one of two correct replicas, with its
own vote and one of a key that is no member's.
-/
theorem disagreement_in_view :
    ∃ net, Run (Net.Step fun net e =>
        ByzantineRules (cluster 3) {node 0} ((cluster 3).members \ {node 0}) net e ∧
          e.action.newView? = none) (cluster 3).init
        (persuade 1 (request 1) outsider ++ persuade 2 (request 2) outsider) net ∧
      ((net (node 1)).state.instanceAt 1).phase = .prepared ∧
      ((net (node 2)).state.instanceAt 1).phase = .prepared ∧
      ((net (node 1)).state.instanceAt 1).digest ≠ ((net (node 2)).state.instanceAt 1).digest :=
  Net.exists_run _ _ _ _ (by decide +kernel)

section

variable [Crypto]

/-! ### Across views -/

/-- The section gives no request a number behind the window or with a pre-prepare. -/
def PbftState.FreshNumber (st : PbftState) : Section → Prop
  | .handleRequest request => st.Proposes request → st.lowWatermark < st.sequence + 1 ∧
      (st.instanceAt (st.sequence + 1)).prePrepare = none
  | _ => True

instance (st : PbftState) : (sec : Section) → Decidable (st.FreshNumber sec)
  | .handleRequest _ => by dsimp only [PbftState.FreshNumber]; infer_instance
  | .handlePrePrepare _ | .handlePrepare _ | .tryAdvanceToPrepared _ | .handleCommit _
  | .tryAdvanceToCommitted _ | .tryCheckpoint _ | .handleCheckpoint _ | .handleViewChange _
  | .handleNewView _ | .startViewChange | .checkTimeout => isTrue trivial

section

variable {st : PbftState} {issued : List Send} {now : Instant} {sec : Section} {out : Outcome}

theorem Covered.vote_fresh (hcov : Covered st issued) {st' : PbftState} {p : Prepare}
    (h : Votes st sec st' p) (hfresh : st.FreshNumber sec) :
    ∀ p' ∈ votes issued, p'.sequence ≠ p.sequence := by
  intro p' hp' heq
  cases h with
  | propose request h =>
      obtain ⟨hlow, hnone⟩ := hfresh h
      rcases hcov p' hp' with hle | ⟨inst, hlookup, hpp⟩
      · rw [heq] at hle
        exact absurd hlow (UInt64.not_lt.mpr hle)
      · rw [heq] at hlookup
        have hinst : st.instanceAt (st.sequence + 1) = inst := PbftState.instanceAt_of_lookup hlookup
        rw [hinst] at hnone
        rw [hnone] at hpp
        exact absurd hpp (by simp)
  | accept pp h now => exact hcov.not_accepts h hp' heq

/-- **A section that takes fresh numbers never votes on a number again.** -/
theorem votes_once_step (ht : Transition st now sec out) (hcov : Covered st issued)
    (hnodup : ((votes issued).map (·.sequence)).Nodup) (hfresh : st.FreshNumber sec) :
    ((votes (issued ++ out.sends)).map (·.sequence)).Nodup := by
  rw [votes_append]
  rcases ht.votes with hnone | ⟨p, hone, hvote⟩
  · rw [hnone, List.append_nil]
    exact hnodup
  · rw [hone]
    exact nodup_map_concat hnodup (hcov.vote_fresh hvote hfresh)

theorem Replica.votes_once_of_run {rules : Replica → Action → Prop} {r₀ r : Replica}
    {as : List Action} (h : Run (Next rules) r₀ as r) (h₀ : r₀.Sound) (hissued : r₀.issued = [])
    (hrules : ∀ {r a}, rules r a → ∀ sec, r.sectionOf a = some sec → r.state.FreshNumber sec) :
    ((votes r.issued).map (·.sequence)).Nodup := by
  refine (h.state_invariant (I := fun r => r.Sound ∧ ((votes r.issued).map (·.sequence)).Nodup)
    ⟨h₀, by simp [hissued, votes]⟩ ?_).2
  rintro t a u ⟨hsound, hnodup⟩ ⟨hrule, hact⟩
  refine ⟨hsound.act hact, keep (I := fun _ issued => ((votes issued).map (·.sequence)).Nodup)
    hact hnodup fun hsec ht => ?_⟩
  exact votes_once_step ht hsound.covered hnodup (hrules hrule _ hsec)

end

/-- A Byzantine network in which votes are clean and numbers are fresh. -/
def CarefulRules (cluster : Cluster) (byzantine : Finset NodeId) (net : Net) (e : Event) : Prop :=
  ByzantineRules cluster byzantine (cluster.members \ byzantine) net e ∧
    ∀ sec, (net e.node).sectionOf e.action = some sec →
      (net e.node).state.CleanVotes sec ∧ (net e.node).state.FreshNumber sec

instance (cluster : Cluster) (byzantine : Finset NodeId) (net : Net) (e : Event) :
    Decidable (CarefulRules cluster byzantine net e) :=
  inferInstanceAs (Decidable
    (ByzantineRules cluster byzantine (cluster.members \ byzantine) net e ∧
      ∀ sec, (net e.node).sectionOf e.action = some sec →
        (net e.node).state.CleanVotes sec ∧ (net e.node).state.FreshNumber sec))

/--
**Agreement across views.**  With at most `f` of `3f + 1` replicas Byzantine, once a
correct replica has committed a digest no correct one ever commits another under
that number, in a run that obeys `CarefulRules`.
-/
theorem agreement_across_views {cluster : Cluster} {f : Nat}
    (hn : cluster.replicas.ids.length = 3 * f + 1) {byzantine : Finset NodeId}
    (hbyz : byzantine.card ≤ f) {events events' : List Event} {net net' : Net}
    (h : Run (Net.Step (CarefulRules cluster byzantine)) cluster.init events net)
    (h' : Run (Net.Step (CarefulRules cluster byzantine)) net events' net')
    {a b : NodeId} {s : SequenceNumber} {inst inst' : ConsensusInstance}
    (hlookup : (net a).state.log.lookup s = some inst)
    (hlookup' : (net' b).state.log.lookup s = some inst')
    (hphase : inst.phase = .committed) (hphase' : inst'.phase = .committed) :
    inst.digest = inst'.digest := by
  have hall := h.append h'
  have hcert : ∀ {events net}, Run (Net.Step (CarefulRules cluster byzantine)) cluster.init events
      net → ∀ {id inst},
      (net id).state.log.lookup s = some inst → inst.phase = .committed →
      ∃ d, inst.digest = some d ∧
        Certificate cluster (cluster.members \ byzantine) net s d := by
    intro events net hrun id inst hlookup hphase
    have hhosts := Cluster.hosts_of_run hrun
    obtain ⟨d, hd⟩ := (hhosts id).sound.wellFormed.exists_digest hlookup (Or.inr hphase)
    refine ⟨d, hd, certificate_of_prepared hhosts
      (authentic_of_run hrun fun hhosts hrule => hrule.1.genuine hhosts) hlookup
      (certified_of_run hrun (fun hrule => ⟨(Finset.mem_sdiff.mp hrule.1.1).1,
        fun sec hsec => (hrule.2 sec hsec).1⟩) id s inst hlookup) (Or.inr hphase) hd⟩
  obtain ⟨d, hd, hcertificate⟩ := hcert h hlookup hphase
  obtain ⟨d', hd', hcertificate'⟩ := hcert hall hlookup' hphase'
  rw [hd, hd']
  refine congrArg some ((hcertificate.mono (Net.issued_subset_run h')).agree hn hbyz hcertificate'
    fun id hid p hp p' hp' hs => ?_)
  have hnodup := Replica.votes_once_of_run (Net.run_at hall id
    (fun r a => ∀ sec, r.sectionOf a = some sec → r.state.FreshNumber sec) (by
      rintro net e hrule rfl sec hsec
      exact (hrule.2 sec hsec).2)) (cluster.hosts_init id).sound rfl fun h => h
  exact congrArg Prepare.digest (List.inj_on_of_nodup_map hnodup hp hp' hs)

end

/-! ### A new primary that starts from its own counter

The second of four replicas commits a request of the first one in view 0, with votes
of the first and the third.  Then a new view makes it primary.
-/

namespace Sample

/-- The commit of a node for the first request in view 0. -/
def commitOf (i : Fin 4) : Commit :=
  (signer i).ownCommit (ConsensusInstance.new 1 0) 1 (request 1).digest

/-- The second and the third node prepare the first request, and the second commits it. -/
def firstCommits : List Event :=
  [deliver 2 (.prePrepare ((signer 0).proposal 1 (request 1))), resume 2 0] ++
    persuade 1 (request 1) (signer 2) ++ [resume 1 2, resume 1 0] ++
    [deliver 2 (.prepare ((signer 0).ownPrepare 0 1 (request 1).digest)),
      deliver 2 (.prepare ((signer 1).ownPrepare 0 1 (request 1).digest)), resume 2 2, resume 2 2] ++
    [deliver 1 (.commit (commitOf 0)), deliver 1 (.commit (commitOf 2)), resume 1 4]

/-- The fourth node has only the votes of the second and the third when a new view comes.  The
first node leads it, and proposes the first request once more. -/
def fourthCommitsLater : List Event :=
  [deliver 3 (.prepare ((signer 1).ownPrepare 0 1 (request 1).digest)), resume 3 0, resume 3 0,
    deliver 3 (.prepare ((signer 2).ownPrepare 0 1 (request 1).digest)), resume 3 0, resume 3 0,
    deliver 3 (.commit (commitOf 1)), resume 3 0, resume 3 0,
    deliver 3 (.commit (commitOf 2)), resume 3 0, resume 3 0,
    deliver 3 (.newView ⟨4, 0, node 0, []⟩), resume 3 0,
    deliver 3 (.prePrepare ({ signer 0 with view := 4 }.proposal 1 (request 1)))] ++
    List.replicate 7 (resume 3 0)

/-- The second node becomes primary and commits a request of its own. -/
def secondCommitsAgain : List Event :=
  [deliver 1 (.newView ⟨1, 0, node 0, []⟩), submit 1 (request 2)] ++ List.replicate 5 (resume 1 6)

end Sample

open Sample in
/-- What the second node commits in view 0 the fourth one commits in view 4. -/
theorem agreement_across_views_honest :
    ∃ net net' : Net, (net (node 1)).state.view = 0 ∧ (net' (node 3)).state.view = 4 ∧
      ((net (node 1)).state.instanceAt 1).phase = .committed ∧
      ((net' (node 3)).state.instanceAt 1).phase = .committed ∧
      ((net (node 1)).state.instanceAt 1).digest = ((net' (node 3)).state.instanceAt 1).digest := by
  obtain ⟨net, hrun, ⟨hview, hphase⟩, hrest⟩ :=
    Net.exists_run (CarefulRules (cluster 3) {node 0}) (cluster 3).init firstCommits
    (fun net => ((net (node 1)).state.view = 0 ∧
        ((net (node 1)).state.instanceAt 1).phase = .committed) ∧
      (execute (Net.next (CarefulRules (cluster 3) {node 0})) net fourthCommitsLater).any
        (fun net' => decide ((net' (node 3)).state.view = 4 ∧
          ((net' (node 3)).state.instanceAt 1).phase = .committed)) = true)
    (by decide +kernel)
  obtain ⟨net', hrun', hview', hphase'⟩ := Net.exists_run _ net fourthCommitsLater _ hrest
  refine ⟨net, net', hview, hview', hphase, hphase', ?_⟩
  exact agreement_across_views (f := 1) rfl (by decide +kernel) hrun hrun'
    (PbftState.lookup_of_isPrepared (Or.inr hphase))
    (PbftState.lookup_of_isPrepared (Or.inr hphase')) hphase hphase'

open Sample in
/-- **A committed number is committed again with another digest** after a new view. -/
theorem disagreement_across_views :
    ∃ net net', Run (Net.Step
        (ByzantineRules (cluster 3) {node 0} ((cluster 3).members \ {node 0})))
        (cluster 3).init firstCommits net ∧
      Run (Net.Step (ByzantineRules (cluster 3) {node 0} ((cluster 3).members \ {node 0})))
        net secondCommitsAgain net' ∧
      ((net (node 1)).state.instanceAt 1).phase = .committed ∧
      ((net' (node 1)).state.instanceAt 1).phase = .committed ∧
      ((net (node 1)).state.instanceAt 1).digest ≠ ((net' (node 1)).state.instanceAt 1).digest := by
  obtain ⟨net, hrun, hphase, hrest⟩ := Net.exists_run
    (ByzantineRules (cluster 3) {node 0} ((cluster 3).members \ {node 0}))
    (cluster 3).init firstCommits
    (fun net => ((net (node 1)).state.instanceAt 1).phase = .committed ∧
      (execute (Net.next (ByzantineRules (cluster 3) {node 0} ((cluster 3).members \ {node 0})))
        net secondCommitsAgain).any
        (fun net' => decide (((net' (node 1)).state.instanceAt 1).phase = .committed ∧
          ((net (node 1)).state.instanceAt 1).digest
            ≠ ((net' (node 1)).state.instanceAt 1).digest)) = true)
    (by decide +kernel)
  obtain ⟨net', hrun', hphase', hdigest⟩ := Net.exists_run _ net secondCommitsAgain _ hrest
  exact ⟨net, net', hrun, hrun', hphase, hphase', hdigest⟩

end P2pPbft
