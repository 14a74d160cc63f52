/-
With no more than a quorum of replicas up, the program stops for good.

A replica files the checkpoints it receives, and not the one it sends.  So a checkpoint
becomes stable at a replica only if a quorum of others have announced it, and if there
are no more than a quorum of replicas up that never happens.  Then the window stays where
it was at the start.  There are two intervals of numbers in it, the primary takes no number
twice, and when they are used up every further request is refused.

Four replicas make a quorum with three.  So with one of four down, which is what they are
there to survive, it is over after two hundred requests.
-/
import P2pPbft.Proofs.LinkWindow
import Mathlib.Order.Interval.Finset.Nat

namespace P2pPbft

section

variable [Crypto] {cluster : Cluster} {live : Finset NodeId} {net : Net}

/-- A checkpoint that is handled comes from another replica, one that is up. -/
theorem HonestRules.announcer {e : Event} (h : HonestRules live net e)
    (hhosts : ∀ id, cluster.Hosts id (net id)) {c : Checkpoint}
    (hsec : (net e.node).sectionOf e.action = some (.handleCheckpoint c)) :
    c.replicaId ∈ live.erase e.node := by
  obtain ⟨sender, hlive, hne, hissued⟩ := h.broadcast hhosts hsec rfl
  obtain ⟨hsigner, -⟩ := (hhosts sender).sound.signs.broadcast (.checkpoint c) hissued _ rfl
  obtain rfl : c.replicaId = sender := hsigner.trans (hhosts sender).nodeId
  exact Finset.mem_erase.mpr ⟨hne, hlive⟩

/-- **Whose checkpoint is on file is another replica, and is up.** -/
theorem received_from_live {events : List Event}
    (h : Run (Net.Step (HonestRules live)) cluster.init events net) (id : NodeId) :
    (net id).state.Received fun voter _ => voter ∈ live.erase id := by
  revert id
  refine h.invariant (I := fun _ net => ∀ id, (net id).state.Received
    fun voter _ => voter ∈ live.erase id) (fun id => received_new _ _ _ _ _ _) ?_
  intro cs t e u hr hreceived hstep
  refine Net.keep (I := fun id st _ => st.Received fun voter _ => voter ∈ live.erase id)
    hstep.2 hreceived fun hsec ht _ => (hreceived e.node).step ht ?_
  rintro c rfl -
  exact hstep.1.announcer (Cluster.hosts_of_run hr) hsec

/-- **With no more than a quorum of replicas up no checkpoint becomes stable**, whatever the
order of messages, and with view changes too. -/
theorem stableCheckpoint_of_few {events : List Event} (hfew : live.card ≤ cluster.config.quorum)
    (h : Run (Net.Step (HonestRules live)) cluster.init events net) (id : NodeId) :
    (net id).state.stableCheckpoint = 0 := by
  revert id
  refine h.invariant (I := fun _ net => ∀ id, (net id).state.stableCheckpoint = 0)
    (fun _ => rfl) ?_
  intro cs t e u hr hzero hstep
  have hhosts := Cluster.hosts_of_run hr
  refine Net.keep (I := fun _ st _ => st.stableCheckpoint = 0) hstep.2 hzero ?_
  intro sec out hsec ht _
  by_contra hset
  rw [← hzero e.node] at hset
  obtain ⟨voters, hquorum, hvoters⟩ := (received_from_live hr e.node).quorum ht
    (by rintro c rfl -; exact hstep.1.announcer hhosts hsec) hset
  have hsub : voters ⊆ live.erase e.node := fun voter hvoter => by
    obtain ⟨c, -, hmem⟩ := hvoters voter hvoter
    exact hmem
  have hcard := Finset.card_le_card hsub
  have hless := Finset.card_erase_lt_of_mem hstep.1.1
  rw [(hhosts e.node).config] at hquorum
  omega

theorem Transition.proposal_le {st : PbftState} {now : Instant} {sec : Section} {out : Outcome}
    (ht : Transition st now sec out) {pp : PrePrepare} (hpp : pp ∈ P2pPbft.proposals out.sends) :
    pp.sequence ≤ st.highWatermark := by
  cases ht with
  | propose request hp =>
      rcases List.mem_cons.mp (mem_proposals.mp hpp) with heq | hrest
      · cases heq
        exact hp.high
      · cases List.mem_singleton.mp hrest
  | _ => exact absurd (mem_proposals.mp hpp) (by simp [Send.broadcast])

end

namespace Links

section

variable [Crypto] {cluster : Cluster} {live : Finset NodeId} {events : List Event} {links : Links}

theorem highWatermark_of_few (hfew : live.card ≤ cluster.config.quorum)
    (h : Run (Step live) (init cluster) events links) (id : NodeId) :
    (links.net id).state.highWatermark = cluster.checkpointInterval * 2 := by
  have hwindowed := windowed_of_run h id
  rw [hwindowed.high, hwindowed.low, stableCheckpoint_of_few hfew (net_run h) id,
    (Cluster.hosts_of_run (net_run h) id).config, UInt64.zero_add]
  rfl

theorem proposal_le_of_few (hfew : live.card ≤ cluster.config.quorum)
    (h : Run (Step live) (init cluster) events links) (id : NodeId) :
    ∀ pp ∈ proposals (links.net id).issued, pp.sequence ≤ cluster.checkpointInterval * 2 := by
  revert id
  refine h.invariant (I := fun _ links => ∀ id, ∀ pp ∈ proposals (links.net id).issued,
    pp.sequence ≤ cluster.checkpointInterval * 2) ?_ ?_
  · exact fun id pp hpp => absurd hpp (by simp [init, Cluster.init, Replica.new, proposals])
  · intro cs t e u hr hbound hstep
    refine Net.keep (I := fun _ _ issued => ∀ pp ∈ proposals issued,
      pp.sequence ≤ cluster.checkpointInterval * 2) hstep.moves.net hbound ?_
    intro sec out hsec ht _ pp hpp
    rw [proposals_append] at hpp
    rcases List.mem_append.mp hpp with hold | hnew
    · exact hbound _ pp hold
    · rw [← highWatermark_of_few hfew hr e.event.node]
      exact ht.proposal_le hnew

/--
**The program stops for good.**  With no more than a quorum of replicas up, no checkpoint
ever becomes stable, the window never moves, and nobody ever hands over more than two
checkpoint intervals of requests, however many are typed in.
-/
theorem stalls_after_two_windows (hfew : live.card ≤ cluster.config.quorum)
    (h : Run (Step live) (init cluster) events links)
    (hcount : requestsHandled cluster events < 2 ^ 64) (id : NodeId) :
    (links.net id).state.stableCheckpoint = 0 ∧
      (links.net id).state.highWatermark = cluster.checkpointInterval * 2 ∧
      (links.net id).committed.length ≤ 2 * cluster.checkpointInterval.toNat := by
  refine ⟨stableCheckpoint_of_few hfew (net_run h) id, highWatermark_of_few hfew h id, ?_⟩
  have hhosts := Cluster.hosts_of_run (net_run h) id
  have hnumbering := (firstOrdering_of_run h hcount).toNumbering
  have hbound := proposal_le_of_few hfew h (cluster.replicas.primary 0)
  -- What it hands over has different digests, and each of them was proposed.
  have hnodup : ((links.net id).committed.map Request.digest).Nodup := by
    rw [← Replica.deliveries_made]
    exact hhosts.sound.accounted.nodup (executes_of_net_run (net_run h) id).nodup
  have hproposed : ((links.net id).committed.map Request.digest).toFinset ⊆
      (proposals (links.net (cluster.replicas.primary 0)).issued).toFinset.image
        fun pp => pp.request.digest := by
    intro d hd
    obtain ⟨request, hrequest, rfl⟩ := List.mem_map.mp (List.mem_toFinset.mp hd)
    obtain ⟨pp, hpp, rfl⟩ :=
      (firstView_of_run h id).sends _ (hhosts.sound.accounted.committed hrequest)
    exact Finset.mem_image.mpr ⟨pp, List.mem_toFinset.mpr hpp, rfl⟩
  -- And no two proposals have one number.
  have hnumbers : (proposals (links.net (cluster.replicas.primary 0)).issued).toFinset.card ≤
      (Finset.Icc 1 (2 * cluster.checkpointInterval.toNat)).card := by
    refine Finset.card_le_card_of_injOn (fun pp => pp.sequence.toNat) ?_ ?_
    · intro pp hpp
      have hmem := List.mem_toFinset.mp hpp
      have hpos := UInt64.lt_iff_toNat_lt.mp (hnumbering.pos pp hmem)
      have hle := UInt64.le_iff_toNat_le.mp (hbound pp hmem)
      have htwo : (2 : UInt64).toNat = 2 := rfl
      rw [UInt64.toNat_mul, htwo] at hle
      have hmod := Nat.mod_le (cluster.checkpointInterval.toNat * 2) (2 ^ 64)
      refine Finset.mem_coe.mpr (Finset.mem_Icc.mpr ⟨hpos, ?_⟩)
      show pp.sequence.toNat ≤ 2 * cluster.checkpointInterval.toNat
      omega
    · intro pp hpp pp' hpp' hsame
      exact hnumbering.unique pp (List.mem_toFinset.mp hpp) pp' (List.mem_toFinset.mp hpp')
        (UInt64.toNat_inj.mp hsame)
  calc (links.net id).committed.length
      = ((links.net id).committed.map Request.digest).toFinset.card := by
        rw [List.toFinset_card_of_nodup hnodup, List.length_map]
    _ ≤ (proposals (links.net (cluster.replicas.primary 0)).issued).toFinset.card :=
        (Finset.card_le_card hproposed).trans Finset.card_image_le
    _ ≤ 2 * cluster.checkpointInterval.toNat := by
        rw [Nat.card_Icc, Nat.add_sub_cancel] at hnumbers
        exact hnumbers

end

end Links

namespace Sample

/-- The first of two nodes is alone, and three requests are typed in at it. -/
def threeAlone : List Links.Event :=
  ([1, 2].flatMap fun i => typeIn 0 (request i) :: List.replicate 9 (goOn 0)) ++
    [typeIn 0 (request 3), goOn 0]

end Sample

open Sample in
/-- Where every number is a checkpoint, one of two nodes refuses the third request. -/
theorem Links.stalls_after_two_windows_alone :
    ∃ links : Links, (links.net (node 0)).committed = [request 1, request 2] ∧
      .err .invalidSequence ∈ (links.net (node 0)).results ∧
      (links.net (node 0)).committed.length ≤ 2 * eagerPair.checkpointInterval.toNat := by
  obtain ⟨links, hrun, hcommitted, hrefused⟩ := exists_run {node 0} (init eagerPair) threeAlone
    (fun links => (links.net (node 0)).committed = [request 1, request 2] ∧
      .err .invalidSequence ∈ (links.net (node 0)).results) (by decide +kernel)
  have hstalls := stalls_after_two_windows (by decide +kernel) hrun (by decide +kernel) (node 0)
  exact ⟨links, hcommitted, hrefused, hstalls.2.2⟩

end P2pPbft
