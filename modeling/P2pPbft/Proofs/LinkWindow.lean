/-
The first two windows of requests.

The primary numbers the requests it is passed, so as long as there are no more of them
than fit between the watermarks at the start, no message is ahead of any window.  And no
window gets ahead of a proposal, as long as no checkpoint is due, or as long as a stable
one takes the word of all the others: the primary sends its checkpoint after its proposals.
-/
import P2pPbft.Proofs.LinkOrder

namespace P2pPbft

/-! ### No proposal comes twice -/

theorem filter_proposal_course (sends : List Send) :
    (course sends).filter (fun mark => mark.1 = .proposal)
      = (proposals sends).map fun pp => (.proposal, pp.sequence) := by
  induction sends with
  | nil => rfl
  | cons send rest ih =>
      unfold course proposals at ih ⊢
      cases send with
      | committed request => exact ih
      | outgoing out =>
          cases out with
          | sendTo node message => exact ih
          | broadcast message =>
              cases message with
              | consensus message =>
                  cases message <;>
                    simp [List.filterMap_cons, Send.round?, Send.prePrepare?,
                      ConsensusMessage.round?, ih]
              | _ => exact ih

theorem notMem_of_slots [Crypto] {st : PbftState} {issued : List Send}
    (hslots : Slots st issued) (hview : ∀ pp ∈ proposals issued, pp.view = 0)
    {told : List (Round × SequenceNumber)} {s : SequenceNumber}
    (hfront : told ++ [(.proposal, s)] <+: course issued) : (.proposal, s) ∉ told := by
  have hnodup : ((proposals issued).map fun pp => (Round.proposal, pp.sequence)).Nodup := by
    refine List.Nodup.map_on ?_ (List.Nodup.of_map _ hslots.proposals_nodup)
    intro pp hpp pp' hpp' heq
    refine List.inj_on_of_nodup_map hslots.proposals_nodup hpp hpp' ?_
    rw [hview pp hpp, hview pp' hpp', (Prod.mk.inj heq).2]
  have hfilter := hfront.filter fun mark => mark.1 = .proposal
  rw [filter_proposal_course] at hfilter
  have hlast := hnodup.sublist hfilter.sublist
  intro hmem
  rw [List.filter_append] at hlast
  refine List.disjoint_of_nodup_append hlast (List.mem_filter.mpr ⟨hmem, by simp⟩) ?_
  exact List.mem_filter.mpr ⟨List.mem_singleton.mpr rfl, by simp⟩

namespace Links

section

variable [Crypto] {cluster : Cluster} {live : Finset NodeId} {events : List Event}
  {links links' : Links} {e : Event} {id : NodeId} {s : SequenceNumber}

theorem ordered_le (h : Run (Step live) (init cluster) events links)
    (hcount : requestsHandled cluster events < 2 ^ 64) {d : Hash}
    (hs : Ordered (proposals (links.net (cluster.replicas.primary 0)).issued) s d) :
    0 < s.toNat ∧ s.toNat ≤ requestsHandled cluster events := by
  have hslots := slots_of_requests (net_run h)
    (Finset.mem_singleton_self (cluster.replicas.primary 0))
    (fun hhosts hrule => hrule.genuine hhosts) hcount
  obtain ⟨pp, hpp, rfl, -⟩ := hs
  obtain ⟨hpos, hle⟩ := hslots.proposed pp hpp
  have hnat := UInt64.le_iff_toNat_le.mp hle
  have hseq := sequence_le h hcount
  exact ⟨UInt64.lt_iff_toNat_lt.mp hpos, hnat.trans hseq⟩

theorem commit_le (h : Run (Step live) (init cluster) events links)
    (hcount : requestsHandled cluster events < 2 ^ 64)
    (hmem : (.commit, s) ∈ course (links.net id).issued) :
    0 < s.toNat ∧ s.toNat ≤ requestsHandled cluster events := by
  obtain ⟨c, hc, rfl⟩ := mem_course_commit.mp hmem
  have hfirst := (firstView_of_run h id).sends _ (mem_commits.mp hc)
  exact ordered_le h hcount hfirst.2

theorem windowed_of_run (h : Run (Step live) (init cluster) events links) (id : NodeId) :
    (links.net id).state.Windowed :=
  (Net.run_at (net_run h) id (fun _ _ => True) fun _ _ => trivial).state_invariant
    (I := fun r => r.state.Windowed) (PbftState.windowed_new _ _ _ _ _) fun hwindowed hstep =>
      Replica.keep (I := fun st _ => st.Windowed) hstep.2 hwindowed fun _ ht => hwindowed.step ht

/-- **No window lies below what has been ordered**, for the first two windows of requests. -/
theorem high_le (h : Run (Step live) (init cluster) events links)
    (hinterval : 4 * cluster.checkpointInterval.toNat < 2 ^ 64)
    (hcount : requestsHandled cluster events ≤ 2 * cluster.checkpointInterval.toNat)
    (hpace : (links.net id).InPace (links.told id)) :
    2 * cluster.checkpointInterval.toNat ≤ (links.net id).state.highWatermark.toNat := by
  have hwindowed := windowed_of_run h id
  have hhosts := Cluster.hosts_of_run (net_run h) id
  have hlow : (links.net id).state.lowWatermark.toNat ≤ requestsHandled cluster events := by
    by_cases hpos : 0 < (links.net id).state.lowWatermark
    · exact (commit_le h (by omega) (hpace.low _ hpos (UInt64.le_refl _))).2
    · have hzero : (links.net id).state.lowWatermark = 0 := by grind
      rw [hzero]
      exact Nat.zero_le _
  have hconfig : (links.net id).state.config.checkpointInterval = cluster.checkpointInterval := by
    rw [hhosts.config]
    rfl
  rw [hwindowed.high, hconfig, UInt64.toNat_add, PbftState.toNat_interval_mul_two (by omega),
    Nat.mod_eq_of_lt (by omega)]
  omega

/-! ### Nobody falls behind -/

/-- No checkpoint is due yet; or a stable one takes the word of all the others, and the requests
fit into two windows. -/
def InReach (cluster : Cluster) (count : Nat) : Prop :=
  count < cluster.checkpointInterval.toNat ∨
    count ≤ 2 * cluster.checkpointInterval.toNat ∧
      cluster.replicas.ids.length ≤ cluster.config.quorum + 1

instance (cluster : Cluster) (count : Nat) : Decidable (InReach cluster count) :=
  inferInstanceAs (Decidable (_ ∨ _ ∧ _))

theorem InReach.le {count : Nat} (h : InReach cluster count) :
    count ≤ 2 * cluster.checkpointInterval.toNat := by
  rcases h with h | ⟨h, -⟩ <;> omega

theorem InReach.mono {count count' : Nat} (h : InReach cluster count') (hle : count ≤ count') :
    InReach cluster count := by
  rcases h with h | ⟨h, hfew⟩
  · exact Or.inl (by omega)
  · exact Or.inr ⟨by omega, hfew⟩

/-- **A proposal that comes in is not behind the window.** -/
theorem low_lt_of_prePrepare [LawfulCrypto] (hlive : live ⊆ cluster.members)
    (hr : Run (PaceStep live) (init cluster) events links) (hstep : Step live links e links')
    (hcount : requestsHandled cluster events < 2 ^ 64) {pp : PrePrepare}
    (hsec : (links.net e.event.node).sectionOf e.event.action = some (.handlePrePrepare pp))
    (hpos : 0 < pp.sequence) : (links.net e.event.node).state.lowWatermark < pp.sequence := by
  have hsteps := steps_of_pace hr
  have hpace := inPace_of_run hlive hr hcount
  have hrun := net_run hsteps
  have hhosts := Cluster.hosts_of_run hrun
  have hears := hears_of_step hlive hsteps hpace hstep
  have hmessage := (hhosts _).sound.cascading.message_of_sectionOf hsec rfl
  by_contra hlow
  -- It has voted for the number, and so it was told of the proposal before.
  have hcommit := (hpace e.event.node).low _ hpos (UInt64.not_lt.mp hlow)
  have hprepare := by
    have hascending := (hpace e.event.node).ascending e.event.node
    rw [told_self] at hascending
    exact hascending.commit _ _ (List.prefix_refl _) hcommit
  have hbefore := (hpace e.event.node).proposed _ hprepare
  rw [(hhosts _).replicas] at hbefore
  obtain ⟨source, hsource⟩ := hstep.moves.source_of_message hmessage
  obtain ⟨message, now, haction, hne, hsent, htold⟩ := hstep.moves.told_next hsource
  rw [haction] at hmessage
  obtain rfl := Option.some.inj hmessage
  obtain rfl : source = cluster.replicas.primary 0 := by
    refine proposer_of_run hrun source pp (mem_proposals.mpr ?_)
    rcases mem_sentTo.mp hsent with hsent | hsent
    · exact (hhosts source).sound.accounted.outgoing hsent
    · have hissued := (hhosts source).sound.accounted.outgoing hsent
      exact absurd ((hhosts source).sound.signs.sendTo _ _ hissued)
        (by simp [ConsensusMessage.claim])
  have hafter := told_isPrefix (sound_of_run (hsteps.snoc hstep))
    (Cluster.hosts_of_run (net_run (hsteps.snoc hstep))) e.event.node (cluster.replicas.primary 0)
  rw [htold, Net.act_of_ne hstep.moves.net hne] at hafter
  have hslots := slots_of_requests hrun
    (Finset.mem_singleton_self (cluster.replicas.primary 0))
    (fun hhosts hrule => hrule.genuine hhosts) hcount
  have hfirst := firstPrimary_of_run hrun (cluster.replicas.primary 0)
  exact notMem_of_slots hslots (fun pp hpp => (hfirst.proposal pp hpp).1) hafter hbefore

/-- Who announces a checkpoint has been told the proposals up to it, or has made them. -/
theorem proposal_of_checkpoint (hpace : ∀ id, (links.net id).InPace (links.told id))
    (hhosts : ∀ id, cluster.Hosts id (links.net id)) (hsound : links.Sound)
    (hmem : (.checkpoint, s) ∈ course (links.net id).issued) :
    (.prepare, s) ∈ course (links.net id).issued ∧
      (.proposal, s) ∈ course (links.net (cluster.replicas.primary 0)).issued := by
  have hascending := (hpace id).ascending id
  rw [told_self] at hascending
  have hcommit := hascending.checkpoint s _ (List.prefix_refl _) hmem
  have hprepare := hascending.commit s _ (List.prefix_refl _) hcommit
  have htold := (hpace id).proposed s hprepare
  rw [(hhosts id).replicas] at htold
  exact ⟨hprepare, (told_isPrefix hsound hhosts id _).subset htold⟩

theorem live_of_course (h : Run (Step live) (init cluster) events links) {round : Round}
    (hmem : (round, s) ∈ course (links.net id).issued) : id ∈ live := by
  by_contra hdown
  rw [issued_of_down h hdown] at hmem
  exact absurd hmem List.not_mem_nil

theorem not_announced_of_lt (hpace : ∀ id, (links.net id).InPace (links.told id))
    (h : Run (Step live) (init cluster) events links)
    (hcount : requestsHandled cluster events < 2 ^ 64)
    (hfew : requestsHandled cluster events < cluster.checkpointInterval.toNat) :
    (.checkpoint, s) ∉ course (links.net id).issued := by
  intro hmem
  have hascending := (hpace id).ascending id
  rw [told_self] at hascending
  obtain ⟨hpos, hle⟩ := commit_le h hcount (hascending.checkpoint s _ (List.prefix_refl _) hmem)
  have hdue := congrArg UInt64.toNat ((hpace id).due s hmem)
  have hconfig : (links.net id).state.config.checkpointInterval = cluster.checkpointInterval := by
    rw [(Cluster.hosts_of_run (net_run h) id).config]
    rfl
  rw [hconfig, UInt64.toNat_mod, Nat.mod_eq_of_lt (by omega)] at hdue
  have hzero : (0 : UInt64).toNat = 0 := rfl
  omega

/-- **A checkpoint that gets stable is not ahead of the proposals.** -/
theorem prePrepare_of_stable [LawfulCrypto] (hlive : live ⊆ cluster.members)
    (hr : Run (PaceStep live) (init cluster) events links) (hstep : Step live links e links')
    (hcount : requestsHandled cluster events < 2 ^ 64)
    (hreach : InReach cluster (requestsHandled cluster events)) {c : Checkpoint}
    (hsec : (links.net e.event.node).sectionOf e.event.action = some (.handleCheckpoint c))
    (hstable : (links.net e.event.node).state.MakesStable c) :
    ((links.net e.event.node).state.instanceAt c.sequence).prePrepare.isSome := by
  have hsteps := steps_of_pace hr
  have hpace := inPace_of_run hlive hr hcount
  have hrun := net_run hsteps
  have hhosts := Cluster.hosts_of_run hrun
  have hsound := sound_of_run hsteps
  have hears := hears_of_step hlive hsteps hpace hstep
  have hmessage := (hhosts _).sound.cascading.message_of_sectionOf hsec rfl
  obtain ⟨hquorum, hnew⟩ := hstable
  have hlow : (links.net e.event.node).state.lowWatermark < c.sequence := by
    rw [(windowed_of_run hsteps _).low]
    exact hnew
  -- Each of the voters is another replica, and has announced the checkpoint.
  have hvoter : ∀ id ∈ ((links.net e.event.node).state.addCheckpoint c).keys,
      id ≠ e.event.node ∧ (.checkpoint, c.sequence) ∈ links'.told e.event.node id := by
    intro id hid
    rw [PbftState.keys_addCheckpoint, Finset.mem_insert] at hid
    have hnode := (hhosts e.event.node).nodeId
    rcases hid with rfl | hid
    · have hsent := (hears.message _ hmessage).2.2 .checkpoint c.sequence c.replicaId rfl rfl
      exact ⟨hnode ▸ hsent.1, hsent.2⟩
    · obtain ⟨hne, hmem⟩ := (hpace e.event.node).announced hnew hid
      exact ⟨hnode ▸ hne, hears.grows id hmem⟩
  have hfront : ∀ id, id ≠ e.event.node →
      links'.told e.event.node id <+: course (links.net id).issued := by
    intro id hne
    have hafter := told_isPrefix (hsound.step hstep.moves)
      (Cluster.hosts_of_run (net_run (hsteps.snoc hstep))) e.event.node id
    rw [Net.act_of_ne hstep.moves.net hne] at hafter
    exact hafter
  have hself : c.replicaId ∈ ((links.net e.event.node).state.addCheckpoint c).keys := by
    rw [PbftState.keys_addCheckpoint]
    exact Finset.mem_insert_self _ _
  obtain ⟨hne, hsent⟩ := hvoter c.replicaId hself
  have hannounced := (hfront c.replicaId hne).subset hsent
  rcases hreach with hfew | ⟨-, hfew⟩
  · exact absurd hannounced (not_announced_of_lt hpace hsteps hcount hfew)
  by_cases hprimary : e.event.node = cluster.replicas.primary 0
  · have hproposal := (proposal_of_checkpoint hpace hhosts hsound hannounced).2
    rw [← hprimary, ← told_self] at hproposal
    exact ((hpace e.event.node).has _ .proposal _ hproposal Round.noConfusion hlow).2
  · -- The others have all announced it, the primary too, and that after its proposal.
    have hall : cluster.replicas.primary 0 ∈
        ((links.net e.event.node).state.addCheckpoint c).keys := by
      have hsub : ((links.net e.event.node).state.addCheckpoint c).keys ⊆
          cluster.members.erase e.event.node := by
        intro id hid
        obtain ⟨hne, hsent⟩ := hvoter id hid
        refine Finset.mem_erase.mpr ⟨hne, hlive ?_⟩
        exact live_of_course hsteps ((hfront id hne).subset hsent)
      have hcard : (cluster.members.erase e.event.node).card
          ≤ ((links.net e.event.node).state.addCheckpoint c).keys.card := by
        rw [(hhosts e.event.node).config] at hquorum
        rw [Finset.card_erase_of_mem (hlive hstep.moves.node), Cluster.members,
          List.toFinset_card_of_nodup cluster.nodup]
        omega
      rw [Finset.eq_of_subset_of_card_le hsub hcard]
      refine Finset.mem_erase.mpr ⟨Ne.symm hprimary, List.mem_toFinset.mpr ?_⟩
      exact List.get_mem _ _
    obtain ⟨hother, hsent⟩ := hvoter _ hall
    have hpre := hfront _ hother
    have hascending := (hpace (cluster.replicas.primary 0)).ascending (cluster.replicas.primary 0)
    rw [told_self] at hascending
    have hpos : 0 < c.sequence := UInt64.lt_of_le_of_lt UInt64.zero_le hlow
    obtain ⟨hprepare, -⟩ := hascending.mem_of_checkpoint hpre hsent hpos (UInt64.le_refl _)
    have hfirst := (hpace (cluster.replicas.primary 0)).first (by
      rw [(hhosts _).nodeId, (hhosts _).replicas]) c.sequence
    have hproposal := hfirst _ hpre hprepare
    have hhas := fun hold => (hpace e.event.node).has (cluster.replicas.primary 0) .proposal
      c.sequence hold Round.noConfusion hlow
    refine (hhas ?_).2
    rcases hears.new _ _ _ hproposal with hold | heq | ⟨message, hmessage', hmarks, -⟩
    · exact hold
    · rw [(hhosts e.event.node).nodeId] at heq
      exact absurd heq hother
    · obtain rfl := Option.some.inj (hmessage.symm.trans hmessage')
      cases hmarks

/-- **As long as the requests are in reach, every step keeps pace.** -/
theorem meets_of_inReach [LawfulCrypto] (hlive : live ⊆ cluster.members)
    (hinterval : 4 * cluster.checkpointInterval.toNat < 2 ^ 64)
    (hr : Run (PaceStep live) (init cluster) events links) (hstep : Step live links e links')
    (hreach : InReach cluster (requestsHandled cluster (events ++ [e]))) :
    (links.net e.event.node).Meets PbftState.KeepsPace e.event.action := by
  have hsteps := steps_of_pace hr
  have hbefore := hreach.mono (requestsHandled_le cluster events e)
  have hbound := hreach.le
  have hcount : requestsHandled cluster events < 2 ^ 64 := by
    have hle := hbefore.le
    omega
  have hpace := inPace_of_run hlive hr hcount
  have hhosts := Cluster.hosts_of_run (net_run hsteps)
  have hfirst := firstView_of_run hsteps
  have hhigh := high_le hsteps hinterval hbefore.le (hpace e.event.node)
  have hordered : ∀ s d, Ordered (proposals (links.net (cluster.replicas.primary 0)).issued) s d →
      s ≤ (links.net e.event.node).state.highWatermark := by
    intro s d hs
    have hle := (ordered_le hsteps hcount hs).2
    have hreached := hbefore.le
    exact UInt64.le_iff_toNat_le.mpr (by omega)
  intro sec hsec
  have hview := hstep.moves.firstView hhosts hfirst sec hsec
  cases sec with
  | handleRequest request =>
      intro hprimary
      rw [PbftState.primary, (hfirst _).state.view, (hhosts _).replicas, (hhosts _).nodeId]
        at hprimary
      have hnext := succ_sequence_le hsteps hsec hprimary.symm (by
        show requestsHandled cluster (events ++ [e]) < 2 ^ 64
        omega)
      refine Or.inl (UInt64.le_iff_toNat_le.mpr ?_)
      have hone : (1 : UInt64).toNat = 1 := rfl
      rw [UInt64.toNat_add, hone]
      have hall : requestsHandled cluster (events ++ [e]) < 2 ^ 64 := by omega
      have hmod := Nat.mod_le ((links.net e.event.node).state.sequence.toNat + 1) (2 ^ 64)
      refine hmod.trans (hnext.trans ?_)
      exact hbound.trans hhigh
  | handlePrePrepare pp =>
      have hpp : Ordered (proposals (links.net (cluster.replicas.primary 0)).issued)
          pp.sequence pp.digest := ⟨pp, hview, rfl, rfl⟩
      have hpos : 0 < pp.sequence :=
        UInt64.lt_iff_toNat_lt.mpr (ordered_le hsteps hcount hpp).1
      exact ⟨low_lt_of_prePrepare hlive hr hstep hcount hsec hpos, hordered _ _ hpp⟩
  | handlePrepare p => exact hordered _ _ hview.2
  | handleCommit c => exact hordered _ _ hview.2
  | handleCheckpoint c =>
      exact fun hstable => prePrepare_of_stable hlive hr hstep hcount hbefore hsec hstable
  | _ => trivial

theorem pace_of_inReach [LawfulCrypto] (hlive : live ⊆ cluster.members)
    (hinterval : 4 * cluster.checkpointInterval.toNat < 2 ^ 64)
    (h : Run (Step live) (init cluster) events links)
    (hreach : InReach cluster (requestsHandled cluster events)) :
    Run (PaceStep live) (init cluster) events links := by
  revert hreach
  refine h.invariant (I := fun events links => InReach cluster (requestsHandled cluster events) →
    Run (PaceStep live) (init cluster) events links) (fun _ => Run.nil _) ?_
  intro cs t e u _ ih hstep hreach
  have hr := ih (hreach.mono (requestsHandled_le cluster cs e))
  exact hr.snoc ⟨hstep, meets_of_inReach hlive hinterval hr hstep hreach⟩

/--
**Total order, with nothing assumed about the handlers.**  Up to the first checkpoint, or
with so few replicas that a stable one takes all the others for two windows: of what two
replicas hand over one is a prefix of the other, however the messages on different links
overtake each other, and whoever of the backups is down.
-/
theorem total_order_on_links [LawfulCrypto] (hlive : live ⊆ cluster.members)
    (hinterval : 4 * cluster.checkpointInterval.toNat < 2 ^ 64)
    (h : Run (Step live) (init cluster) events links)
    (hreach : InReach cluster (requestsHandled cluster events)) (a b : NodeId) :
    (links.net a).committed <+: (links.net b).committed ∨
      (links.net b).committed <+: (links.net a).committed := by
  refine comparable_of_pace hlive (pace_of_inReach hlive hinterval h hreach) ?_ a b
  have hle := hreach.le
  omega

end

end Links

namespace Sample

/-- What four nodes do about the request with a number; the fourth is down. -/
def served (i : Nat) : List Links.Event :=
  let sequence := UInt64.ofNat i
  let digest := (request i).digest
  let proposal := ConsensusMessage.prePrepare ((signer 0).proposal sequence (request i))
  let prepare := fun j => ConsensusMessage.prepare ((signer j).ownPrepare 0 sequence digest)
  let commit := fun j => ConsensusMessage.commit
    ((signer j).ownCommit (ConsensusInstance.new sequence 0) sequence digest)
  typeIn 1 (request i) :: List.replicate 2 (goOn 1) ++ takeFrom 1 0 (.request (request i)) 4 ++
    [(0, 1, proposal, 3), (0, 2, proposal, 3), (0, 1, prepare 0, 2), (2, 1, prepare 2, 4),
      (0, 2, prepare 0, 2), (1, 2, prepare 1, 4), (1, 0, prepare 1, 2), (2, 0, prepare 2, 4),
      (1, 0, commit 1, 2), (2, 0, commit 2, 4), (0, 1, commit 0, 2), (2, 1, commit 2, 4),
      (0, 2, commit 0, 2), (1, 2, commit 1, 4)].flatMap
        fun (source, j, message, steps) => takeFrom source j message steps

/-- Two requests are typed in at the second of four nodes; the fourth is down. -/
def fourthDown : List Links.Event := served 1 ++ served 2

end Sample

open Sample in
/-- Before the third of four nodes takes the last commit, it is one request behind the second. -/
theorem Links.total_order_on_links_three :
    ∃ links : Links, (links.net (node 1)).committed = [request 1, request 2] ∧
      (links.net (node 2)).committed = [request 1] ∧
      ((links.net (node 1)).committed <+: (links.net (node 2)).committed ∨
        (links.net (node 2)).committed <+: (links.net (node 1)).committed) := by
  obtain ⟨links, hrun, hsecond, hthird⟩ := exists_run firstThree (init (cluster 3))
    (fourthDown.take (fourthDown.length - 5))
    (fun links => (links.net (node 1)).committed = [request 1, request 2] ∧
      (links.net (node 2)).committed = [request 1]) (by decide +kernel)
  have horder := total_order_on_links (by decide +kernel) (by decide +kernel) hrun
    (by decide +kernel)
  exact ⟨links, hsecond, hthird, horder (node 1) (node 2)⟩

end P2pPbft
