/-
What an honest primary has ordered.

A pre-prepare in a log names the primary of its view and bears its signature.  A
primary signs the same string when it votes, so the signature may come from one of
its prepares; but in a view of its own it votes only for what it proposes.  So the
pre-prepare says what the primary proposed, and it proposed one thing in a slot
unless its counter went around.
-/
import P2pPbft.Proofs.Counter

namespace P2pPbft

section

variable [Crypto]

/-- In a view of its own a primary votes only for what it has proposed. -/
def Proposer (st : PbftState) (issued : List Send) : Prop :=
  ∀ p ∈ votes issued, st.replicas.primary p.view = st.nodeId →
    ∃ pp ∈ proposals issued, pp.view = p.view ∧ pp.sequence = p.sequence ∧ pp.digest = p.digest

/-- **Every section keeps it so**, unless the replica's signature was forged. -/
theorem Proposer.step {st : PbftState} {issued : List Send} {now : Instant} {sec : Section}
    {out : Outcome} (hproposer : Proposer st issued) (hcov : Covered st issued)
    (hbacked : Backed issued) (h : Transition st now sec out)
    (hsigned : ∀ pp, sec = .handlePrePrepare pp → st.AcceptsPrePrepare pp →
      pp.primaryId = st.nodeId → SignedPrepare issued pp.view pp.sequence pp.digest) :
    Proposer out.state (issued ++ out.sends) := by
  intro p hp hprimary
  obtain ⟨hnode, -, hreplicas, -⟩ := h.static
  rw [hreplicas, hnode] at hprimary
  rw [votes_append] at hp
  rw [proposals_append]
  rcases List.mem_append.mp hp with hold | hnew
  · obtain ⟨pp, hpp, heq⟩ := hproposer p hold hprimary
    exact ⟨pp, List.mem_append_left _ hpp, heq⟩
  · cases h with
    | propose request _ =>
        obtain rfl := List.mem_singleton.mp hnew
        exact ⟨_, List.mem_append_right _ (List.mem_singleton.mpr rfl), rfl, rfl, rfl⟩
    | accept pp haccept =>
        obtain rfl := List.mem_singleton.mp hnew
        have hown : st.primary = st.nodeId := by
          rw [PbftState.primary, ← haccept.view]
          exact hprimary
        exact absurd hown (hcov.not_primary hbacked haccept (hsigned pp rfl haccept))
    | _ => exact absurd hnew (by simp [votes, Send.prepare?, Send.broadcast])

theorem Replica.proposer_of_run {rules : Replica → Action → Prop} {r₀ r : Replica}
    {as : List Action} (h : Run (Next rules) r₀ as r) (h₀ : r₀.Sound) (hissued : r₀.issued = [])
    (hrules : ∀ {r a}, rules r a → ∀ message, a.message? = some message → r.Unforged message) :
    Proposer r.state r.issued := by
  refine (h.state_invariant (I := fun r => r.Sound ∧ Proposer r.state r.issued)
    ⟨h₀, fun p hp => absurd hp (by simp [hissued, votes])⟩ ?_).2
  rintro t a u ⟨hsound, hproposer⟩ ⟨hrule, hact⟩
  refine ⟨hsound.act hact, keep hact hproposer fun hsec ht => ?_⟩
  refine hproposer.step hsound.covered hsound.backed ht ?_
  rintro pp rfl hpp hown
  exact (hrules hrule _ (hsound.cascading.message_of_sectionOf hsec rfl)).signedPrepare hpp hown

/-- A pre-prepare of the primary's own views in a log is for a digest it has proposed there. -/
theorem proposed_of_trusted_run {cluster : Cluster} {byzantine : Finset NodeId} {primary : NodeId}
    {events : List Event} {net : Net}
    (h : Run (Net.Step (ByzantineRules cluster byzantine {primary})) cluster.init events net)
    {v : ViewNumber} (hv : cluster.replicas.primary v = primary) {id : NodeId}
    {s : SequenceNumber} {inst : ConsensusInstance} {pp : PrePrepare}
    (hlookup : (net id).state.log.lookup s = some inst) (hpp : inst.prePrepare = some pp)
    (hview : pp.view = v) :
    ∃ pp₀ ∈ proposals (net primary).issued,
      pp₀.view = v ∧ pp₀.sequence = s ∧ inst.digest = some pp₀.digest := by
  have hhosts := Cluster.hosts_of_run h
  have hself : primary ∈ ({primary} : Finset NodeId) := Finset.mem_singleton_self _
  have hauth : Authentic {primary} net := authentic_of_run h fun hhosts hrule =>
    hrule.genuine hhosts
  have hproposer := Replica.proposer_of_run
    (unforged_of_net_run h hself fun hhosts hrule => hrule.genuine hhosts)
    (cluster.hosts_init primary).sound rfl fun h => h
  have hok := (hhosts id).sound.wellFormed.entry s inst hlookup
  have hnamed : pp.primaryId = primary := by
    rw [hok.primary pp hpp, (hhosts id).replicas, hview, hv]
  have hsigned := (hauth id s inst hlookup).prePrepare pp hpp (by rw [hnamed]; exact hself)
  rw [hnamed, hview, hok.sequence pp hpp] at hsigned
  rw [hok.digest pp hpp]
  rcases hsigned with ⟨pp₀, hpp₀, hv₀, hs₀, hd₀⟩ | ⟨p, hp, hvp, hsp, hdp⟩
  · exact ⟨pp₀, hpp₀, hv₀, hs₀, congrArg some hd₀.symm⟩
  · -- The signature is from a vote, so the primary has proposed what it voted for.
    have hown : (net primary).state.replicas.primary p.view = (net primary).state.nodeId := by
      rw [(hhosts primary).replicas, (hhosts primary).nodeId, hvp, hv]
    obtain ⟨pp₀, hpp₀, hv₀, hs₀, hd₀⟩ := hproposer p hp hown
    exact ⟨pp₀, hpp₀, hv₀.trans hvp, hs₀.trans hsp, congrArg some (hdp.symm.trans hd₀.symm)⟩

/--
**What an honest primary orders is what correct replicas hold.**  Any number of the
others may be Byzantine.  A pre-prepare of one of the primary's views in a log is
for the digest the primary gave its number in that view, and the primary, having
handled fewer than `2 ^ 64` requests, gave it to one digest.
-/
theorem honest_primary_orders {cluster : Cluster} {byzantine : Finset NodeId} {primary : NodeId}
    {events : List Event} {net : Net}
    (h : Run (Net.Step (ByzantineRules cluster byzantine {primary})) cluster.init events net)
    (hcount : Replica.requests (actionsAt primary events) < 2 ^ 64) {v : ViewNumber}
    (hv : cluster.replicas.primary v = primary) :
    (∀ id s inst pp, (net id).state.log.lookup s = some inst → inst.prePrepare = some pp →
        pp.view = v → ∃ pp₀ ∈ proposals (net primary).issued,
          pp₀.view = v ∧ pp₀.sequence = s ∧ inst.digest = some pp₀.digest) ∧
      (∀ pp₀ ∈ proposals (net primary).issued, ∀ pp₁ ∈ proposals (net primary).issued,
        pp₀.view = v → pp₁.view = v → pp₀.sequence = pp₁.sequence → pp₀ = pp₁) ∧
      ∀ id id' s inst inst' pp pp', (net id).state.log.lookup s = some inst →
        (net id').state.log.lookup s = some inst' → inst.prePrepare = some pp →
        inst'.prePrepare = some pp' → pp.view = v → pp'.view = v → inst.digest = inst'.digest := by
  have hslots := slots_of_requests h (Finset.mem_singleton_self primary)
    (fun hhosts hrule => hrule.genuine hhosts) hcount
  have hordered : ∀ id s inst pp, (net id).state.log.lookup s = some inst →
      inst.prePrepare = some pp → pp.view = v → ∃ pp₀ ∈ proposals (net primary).issued,
        pp₀.view = v ∧ pp₀.sequence = s ∧ inst.digest = some pp₀.digest :=
    fun id s inst pp hlookup hpp hview => proposed_of_trusted_run h hv hlookup hpp hview
  have hone : ∀ pp₀ ∈ proposals (net primary).issued, ∀ pp₁ ∈ proposals (net primary).issued,
      pp₀.view = v → pp₁.view = v → pp₀.sequence = pp₁.sequence → pp₀ = pp₁ := by
    intro pp₀ h₀ pp₁ h₁ hv₀ hv₁ hs
    refine List.inj_on_of_nodup_map hslots.proposals_nodup h₀ h₁ ?_
    rw [hv₀, hv₁, hs]
  refine ⟨hordered, hone, ?_⟩
  intro id id' s inst inst' pp pp' hlookup hlookup' hpp hpp' hview hview'
  obtain ⟨pp₀, h₀, hv₀, hs₀, hd₀⟩ := hordered id s inst pp hlookup hpp hview
  obtain ⟨pp₁, h₁, hv₁, hs₁, hd₁⟩ := hordered id' s inst' pp' hlookup' hpp' hview'
  rw [hd₀, hd₁, hone pp₀ h₀ pp₁ h₁ hv₀ hv₁ (hs₀.trans hs₁.symm)]

end

open Sample in
/-- A backup holds what the primary has proposed, while another member plays its vote back. -/
theorem honest_primary_orders_backup :
    ∃ (net : Net) (inst : ConsensusInstance), (net (node 1)).state.log.lookup 1 = some inst ∧
      ∃ pp₀ ∈ proposals (net (node 0)).issued, pp₀.view = 0 ∧ pp₀.sequence = 1 ∧
        inst.digest = some pp₀.digest := by
  obtain ⟨net, hrun, pp, hpp, hview⟩ := Net.exists_run
    (ByzantineRules (cluster 3) {node 2, node 3} {node 0}) (cluster 3).init
    [submit 0 (request 1), resume 0 0,
      deliver 1 (.prepare ((signer 0).ownPrepare 0 1 (request 1).digest)),
      deliver 1 (.prePrepare ((signer 0).proposal 1 (request 1)))]
    (fun net => ∃ pp ∈ ((net (node 1)).state.instanceAt 1).prePrepare, pp.view = 0)
    (by decide +kernel)
  have hlookup : ∃ inst, (net (node 1)).state.log.lookup 1 = some inst := by
    refine PbftState.lookup_of_instanceAt_ne fun hnew => ?_
    rw [hnew] at hpp
    exact absurd hpp (by simp [ConsensusInstance.new])
  obtain ⟨inst, hlookup⟩ := hlookup
  rw [PbftState.instanceAt_of_lookup hlookup] at hpp
  have hprimary : (cluster 3).replicas.primary 0 = node 0 := by decide +kernel
  have hordered := (honest_primary_orders hrun (by decide +kernel) hprimary).1
  exact ⟨net, inst, hlookup, hordered _ _ _ _ hlookup hpp hview⟩

open Sample in
/--
**After `2 ^ 64` requests the numbers start over**, and a primary on its own gives the
same number in the same view to two digests.
-/
theorem primary_orders_twice :
    ∃ net : Net, Run (Net.Step (ByzantineRules (cluster 3) ∅ {node 0})) (cluster 3).init
        (submit 0 (request 1) :: List.replicate (2 ^ 64) (submit 0 (request 2))) net ∧
      ∃ pp ∈ proposals (net (node 0)).issued, ∃ pp' ∈ proposals (net (node 0)).issued,
        pp.view = 0 ∧ pp'.view = 0 ∧ pp.sequence = pp'.sequence ∧ pp.digest ≠ pp'.digest := by
  have hadmits : ∀ net : Net, ByzantineRules (cluster 3) ∅ {node 0} net
      ⟨node 0, .call (.handleRequest (request 2)) 0⟩ := by
    intro net
    exact ⟨by decide +kernel, fun message h => absurd h (by simp [Action.message?])⟩
  obtain ⟨net₁, hfirst, hstate, hview, pp, hpp, hppview, hs, hd⟩ := Net.exists_run
    (ByzantineRules (cluster 3) ∅ {node 0}) (cluster 3).init [submit 0 (request 1)]
    (fun net => ((net (node 0)).state.primary = (net (node 0)).state.nodeId ∧
        (net (node 0)).state.executed = ∅ ∧ (net (node 0)).state.sequence = 1 ∧
        (net (node 0)).state.sequence ≤ (net (node 0)).state.highWatermark) ∧
      (net (node 0)).state.view = 0 ∧ ∃ pp ∈ proposals (net (node 0)).issued,
        pp.view = 0 ∧ pp.sequence = 1 ∧ pp.digest ≠ (request 2).digest) (by decide +kernel)
  obtain ⟨hprimary, hexecuted, hone, hhigh⟩ := hstate
  obtain ⟨r, net, haround, hcounted, hnext, hproposed, -⟩ :=
    exists_run_around hadmits net₁ hprimary (by simp [hexecuted]) hhigh
  have hkept : pp ∈ proposals r.issued :=
    mem_proposals.mpr (hcounted.issued.subset (mem_proposals.mp hpp))
  refine ⟨net, hfirst.append haround, pp, ?_,
    r.state.proposal (r.state.sequence + 1) (request 2), ?_, hppview, ?_, ?_, hd⟩
  · rw [hproposed.proposals]
    exact List.mem_append_left _ hkept
  · rw [hproposed.proposals]
    exact List.mem_append_right _ (List.mem_singleton.mpr rfl)
  · exact hcounted.view.trans hview
  · exact (hs.trans hone.symm).trans hnext.symm

end P2pPbft
