/-
Where a checkpoint becomes stable.

What a replica counts is what was delivered to it, and along every run it knows of that
what a counter has to.  It broadcasts its own checkpoint without filing it, unlike its
own prepare and its own commit, and a broadcast does not come back to its sender.  So
those who have announced a checkpoint have to be one more than a quorum for it to become
stable at all of them.
-/
import P2pPbft.Proofs.Checkpoints
import P2pPbft.Proofs.Collection

namespace P2pPbft

/-- The vote an action delivers, if it delivers a checkpoint. -/
def Action.vote? (a : Action) : Option (SequenceNumber × NodeId) :=
  match a.message? with
  | some (.checkpoint c) => some c.vote
  | _ => none

theorem Action.vote?_eq_some {a : Action} {vote : SequenceNumber × NodeId} :
    a.vote? = some vote ↔ ∃ c, a.message? = some (.checkpoint c) ∧ c.vote = vote := by
  unfold Action.vote?
  split
  · rename_i c hc
    simp [hc]
  · rename_i hnone
    simp only [reduceCtorEq, false_iff, not_exists, not_and]
    exact fun c hc => absurd hc (hnone c)

/-- The votes of the checkpoints that were delivered. -/
def heard (as : List Action) : List (SequenceNumber × NodeId) := as.filterMap Action.vote?

theorem mem_heard {as : List Action} {vote : SequenceNumber × NodeId} :
    vote ∈ heard as ↔ ∃ a ∈ as, ∃ c, a.message? = some (.checkpoint c) ∧ c.vote = vote := by
  simp only [heard, List.mem_filterMap, Action.vote?_eq_some]

theorem heard_concat (as : List Action) (a : Action) :
    heard (as ++ [a]) = heard as ++ a.vote?.toList := by
  unfold heard
  rw [List.filterMap_append]
  cases h : a.vote? <;> simp [h]

section

variable [Crypto]

theorem Transition.checkpoints_same {st : PbftState} {now : Instant} {sec : Section} {out : Outcome}
    (h : Transition st now sec out) (hsec : ∀ c, sec ≠ .handleCheckpoint c) :
    out.state.checkpoints = st.checkpoints ∧
      out.state.stableCheckpoint = st.stableCheckpoint := by
  cases h with
  | propose request h => simp [PbftState.proposed_eq, PbftState.setInstance]
  | accept pp h => simp [PbftState.record_eq, PbftState.setInstance]
  | countCheckpoint c => exact absurd rfl (hsec c)
  | stabilize c hquorum hnew => exact absurd rfl (hsec c)
  | _ => exact ⟨rfl, rfl⟩

namespace Replica

omit [Crypto] in
theorem sectionOf_of_checkpoint {r : Replica} {a : Action} {c : Checkpoint}
    (h : a.message? = some (.checkpoint c)) : r.sectionOf a = some (.handleCheckpoint c) := by
  obtain ⟨now, rfl⟩ := Action.call_of_message? h
  rfl

/-- **Along every run a replica knows of the votes delivered to it what a counter has to.** -/
theorem tallies_of_run {rules : Replica → Action → Prop} {st : PbftState} {as : List Action}
    {r : Replica} (h : Run (Next rules) (new st) as r) (hvotes : st.checkpoints = ∅)
    (hstable : st.stableCheckpoint = 0) : r.state.Tallies (heard as) := by
  refine (h.invariant (I := fun as r => r.Cascading ∧ r.state.Tallies (heard as))
    ⟨cascading_new st, PbftState.tallies_nil hvotes hstable⟩ ?_).2
  rintro as t a u - ⟨hcascading, htallies⟩ ⟨-, hact⟩
  refine ⟨cascading_act hact hcascading, ?_⟩
  rw [heard_concat]
  by_cases hcheckpoint : ∃ c, a.message? = some (.checkpoint c)
  · obtain ⟨c, hc⟩ := hcheckpoint
    have hvote : a.vote? = some c.vote := Action.vote?_eq_some.mpr ⟨c, hc, rfl⟩
    rcases act_cases hact with ⟨hnone, -, -⟩ | ⟨sec, hsec, hstate, -⟩
    · exact absurd ((sectionOf_of_checkpoint hc).symm.trans hnone) (by simp)
    · obtain rfl := Option.some.inj (hsec.symm.trans (sectionOf_of_checkpoint hc))
      rw [hvote, hstate]
      exact htallies.handleCheckpoint c
  · have hvote : a.vote? = none := by
      refine Option.eq_none_iff_forall_ne_some.mpr fun vote hvote => ?_
      obtain ⟨c, hc, -⟩ := Action.vote?_eq_some.mp hvote
      exact hcheckpoint ⟨c, hc⟩
    rw [hvote, Option.toList_none, List.append_nil]
    refine keep (I := fun st _ => st.Tallies (heard as)) hact htallies fun {sec out} hsec ht => ?_
    obtain ⟨hsame, hhigh⟩ := ht.checkpoints_same fun c heq => by
      subst heq
      exact hcheckpoint ⟨c, hcascading.message_of_sectionOf hsec rfl⟩
    unfold PbftState.Tallies PbftState.checkpointers
    rw [hsame, hhigh, ht.static.2.2.2]
    exact htallies

end Replica

/-! ### At a node -/

/-- The message was delivered to the node. -/
def Delivered (events : List Event) (id : NodeId) (message : ConsensusMessage) : Prop :=
  ∃ e ∈ events, e.node = id ∧ e.action.message? = some message

instance (events : List Event) (id : NodeId) (message : ConsensusMessage) :
    Decidable (Delivered events id message) :=
  inferInstanceAs (Decidable (∃ e ∈ events, e.node = id ∧ e.action.message? = some message))

/-- The checkpoints for a number that a replica has broadcast. -/
def Replica.announced (r : Replica) (s : SequenceNumber) : List Checkpoint :=
  r.outgoing.filterMap fun
    | .broadcast (.consensus (.checkpoint c)) => if c.sequence = s then some c else none
    | _ => none

omit [Crypto] in
theorem Replica.mem_announced {r : Replica} {s : SequenceNumber} {c : Checkpoint} :
    c ∈ r.announced s ↔
      OutgoingMessage.broadcast (.consensus (.checkpoint c)) ∈ r.outgoing ∧ c.sequence = s := by
  unfold Replica.announced
  rw [List.mem_filterMap]
  constructor
  · rintro ⟨m, hm, hc⟩
    split at hc
    · rename_i c'
      by_cases hs : c'.sequence = s
      · rw [if_pos hs] at hc
        obtain rfl := Option.some.inj hc
        exact ⟨hm, hs⟩
      · rw [if_neg hs] at hc
        exact absurd hc (by simp)
    · exact absurd hc (by simp)
  · rintro ⟨hm, hs⟩
    exact ⟨_, hm, by simp [hs]⟩

section

variable {cluster : Cluster} {rules : Net → Event → Prop} {events : List Event} {net : Net}
  {s : SequenceNumber} {supporters : Finset NodeId}

omit [Crypto] in
theorem mem_backers_heard {id sender : NodeId} :
    sender ∈ Tally.backers (heard (actionsAt id events)) s ↔
      ∃ c, Delivered events id (.checkpoint c) ∧ c.sequence = s ∧ c.replicaId = sender := by
  rw [Tally.mem_backers, mem_heard]
  constructor
  · rintro ⟨a, ha, c, hc, hvote⟩
    obtain ⟨e, he, rfl⟩ := List.mem_map.mp ha
    obtain ⟨hmem, hid⟩ := List.mem_filter.mp he
    obtain ⟨hs, hsender⟩ := Prod.mk.inj hvote
    exact ⟨c, ⟨e, hmem, of_decide_eq_true hid, hc⟩, hs, hsender⟩
  · rintro ⟨c, ⟨e, hmem, hid, hc⟩, hs, hsender⟩
    refine ⟨e.action, ?_, c, hc, Prod.ext hs hsender⟩
    exact List.mem_map_of_mem (List.mem_filter.mpr ⟨hmem, decide_eq_true hid⟩)

/-- **A checkpoint is stable at a node exactly if a quorum's, as high or higher, was delivered.** -/
theorem stable_iff_heard (h : Run (Net.Step rules) cluster.init events net) (id : NodeId) :
    s ≤ (net id).state.stableCheckpoint ↔ s = 0 ∨ ∃ s', s ≤ s' ∧
      cluster.config.quorum ≤ (Tally.backers (heard (actionsAt id events)) s').card := by
  have htallies : (net id).state.Tallies (heard (actionsAt id events)) :=
    Replica.tallies_of_run (Net.run_at h id (fun _ _ => True) fun _ _ => trivial) rfl rfl
  have hconfig := (Cluster.hosts_of_run h id).config
  unfold PbftState.Tallies at htallies
  rw [hconfig] at htallies
  constructor
  · intro hle
    by_cases hpos : 0 < (net id).state.stableCheckpoint.toNat
    · exact Or.inr ⟨_, hle, htallies.backed hpos⟩
    · refine Or.inl (UInt64.toNat_inj.mp ?_)
      have hle := UInt64.le_iff_toNat_le.mp hle
      show s.toNat = 0
      omega
  · rintro (rfl | ⟨s', hle, hquorum⟩)
    · exact UInt64.zero_le
    · exact UInt64.le_trans hle (UInt64.le_iff_toNat_le.mpr (htallies.highest s' hquorum))

/--
Every supporter has broadcast a checkpoint for the number, and what one of them has
broadcast for it was delivered to all the others.
-/
structure Exchanged (supporters : Finset NodeId) (events : List Event) (net : Net)
    (s : SequenceNumber) : Prop where
  broadcast : ∀ id ∈ supporters, (net id).announced s ≠ []
  delivered : ∀ sender ∈ supporters, ∀ c ∈ (net sender).announced s, ∀ id ∈ supporters,
    id ≠ sender → Delivered events id (.checkpoint c)

instance (supporters : Finset NodeId) (events : List Event) (net : Net) (s : SequenceNumber) :
    Decidable (Exchanged supporters events net s) :=
  decidable_of_iff
    ((∀ id ∈ supporters, (net id).announced s ≠ []) ∧
      ∀ sender ∈ supporters, ∀ c ∈ (net sender).announced s, ∀ id ∈ supporters,
        id ≠ sender → Delivered events id (.checkpoint c))
    ⟨fun h => ⟨h.1, h.2⟩, fun h => ⟨h.broadcast, h.delivered⟩⟩

theorem replicaId_of_announced (h : Run (Net.Step rules) cluster.init events net) {id : NodeId}
    {c : Checkpoint} (hc : c ∈ (net id).announced s) : c.replicaId = id := by
  have hhosts := Cluster.hosts_of_run h id
  have hissued := hhosts.sound.accounted.outgoing (Replica.mem_announced.mp hc).1
  exact ((hhosts.sound.signs.broadcast _ hissued _ rfl).1).trans hhosts.nodeId

/-- Each supporter has heard of all the others. -/
theorem Exchanged.heard (h : Run (Net.Step rules) cluster.init events net)
    (hexchanged : Exchanged supporters events net s) {id : NodeId} (hid : id ∈ supporters) :
    supporters.erase id ⊆ Tally.backers (heard (actionsAt id events)) s := by
  intro sender hsender
  obtain ⟨hne, hsender⟩ := Finset.mem_erase.mp hsender
  obtain ⟨c, hc⟩ := List.exists_mem_of_ne_nil _ (hexchanged.broadcast sender hsender)
  have hdelivered := hexchanged.delivered sender hsender c hc id hid (Ne.symm hne)
  exact mem_backers_heard.mpr
    ⟨c, hdelivered, (Replica.mem_announced.mp hc).2, replicaId_of_announced h hc⟩

/--
**A checkpoint becomes stable at its supporters if they are more than a quorum.**  When a
quorum's worth of replicas have announced it and have got each other's announcements, one
more of them is enough for it to be stable at all of them; and it is needed at a supporter
that gets no checkpoints but theirs, unless the number is 0.
-/
theorem stable_at_supporters (h : Run (Net.Step rules) cluster.init events net)
    (hexchanged : Exchanged supporters events net s)
    (hquorum : cluster.config.quorum ≤ supporters.card) :
    (cluster.config.quorum < supporters.card →
        ∀ id ∈ supporters, s ≤ (net id).state.stableCheckpoint) ∧
      ∀ id ∈ supporters,
        (∀ c, Delivered events id (.checkpoint c) → c.replicaId ∈ supporters.erase id) →
          (s ≤ (net id).state.stableCheckpoint ↔
            cluster.config.quorum < supporters.card ∨ s = 0) := by
  have henough : cluster.config.quorum < supporters.card →
      ∀ id ∈ supporters, s ≤ (net id).state.stableCheckpoint := by
    intro hmore id hid
    refine (stable_iff_heard h id).mpr (Or.inr ⟨s, UInt64.le_refl _, ?_⟩)
    have hcard := Finset.card_le_card (hexchanged.heard h hid)
    rw [Finset.card_erase_of_mem hid] at hcard
    omega
  refine ⟨henough, fun id hid honly => ⟨fun hstable => ?_, ?_⟩⟩
  · rcases (stable_iff_heard h id).mp hstable with hzero | ⟨s', -, hheard⟩
    · exact Or.inr hzero
    · refine Or.inl ?_
      have hsub : Tally.backers (P2pPbft.heard (actionsAt id events)) s' ⊆ supporters.erase id := by
        intro sender hsender
        obtain ⟨c, hc, -, rfl⟩ := mem_backers_heard.mp hsender
        exact honly c hc
      have hcard := Finset.card_le_card hsub
      rw [Finset.card_erase_of_mem hid] at hcard
      have hpos : 0 < supporters.card := Finset.card_pos.mpr ⟨id, hid⟩
      omega
  · rintro (hmore | rfl)
    · exact henough hmore id hid
    · exact UInt64.zero_le

end

end

namespace Sample

/-- Messages, each delivered to a node whose handler is then resumed that many times. -/
def deliverAll (steps : List (Fin 4 × ConsensusMessage × Nat)) : List Event :=
  steps.flatMap fun step => deliver step.1 step.2.1 :: List.replicate step.2.2 (resume step.1 0)

/-- The prepare and the commit of a node for the first request, and its checkpoint. -/
def votesOf (i : Fin 4) : ConsensusMessage × ConsensusMessage × ConsensusMessage :=
  (.prepare ((signer i).ownPrepare 0 1 (request 1).digest), .commit (commitFor i 1 (request 1)),
    .checkpoint ((signer i).ownCheckpoint 1))

/-- Three nodes of four commit the first request, announce a checkpoint, and get the others'. -/
def threeAnnounce : List Event :=
  let proposal := ConsensusMessage.prePrepare ((signer 0).proposal 1 (request 1))
  submit 0 (request 1) :: List.replicate 4 (resume 0 0) ++ deliverAll
    [(1, proposal, 3), (2, proposal, 3),
      (1, (votesOf 0).1, 2), (2, (votesOf 0).1, 2), (1, (votesOf 2).1, 4), (2, (votesOf 1).1, 4),
      (0, (votesOf 1).1, 2), (0, (votesOf 2).1, 4),
      (0, (votesOf 1).2.1, 2), (0, (votesOf 2).2.1, 5), (1, (votesOf 0).2.1, 2),
      (1, (votesOf 2).2.1, 5), (2, (votesOf 0).2.1, 2), (2, (votesOf 1).2.1, 5),
      (0, (votesOf 1).2.2, 1), (0, (votesOf 2).2.2, 1), (1, (votesOf 0).2.2, 1),
      (1, (votesOf 2).2.2, 1), (2, (votesOf 0).2.2, 1), (2, (votesOf 1).2.2, 1)]

/-- Two nodes of two do so. -/
def twoAnnounce : List Event :=
  submit 0 (request 1) :: List.replicate 9 (resume 0 0) ++ deliverAll
    [(1, .prePrepare ((signer 0).proposal 1 (request 1)), 8), (0, (votesOf 1).2.2, 1),
      (1, (votesOf 0).2.2, 1)]

end Sample

open Sample in
/-- Of two replicas, one alone would be a quorum; with both the checkpoint is stable at both. -/
theorem stable_at_supporters_pair :
    ∃ net : Net, Exchanged {node 0, node 1} twoAnnounce net 1 ∧
      ∀ id ∈ ({node 0, node 1} : Finset NodeId), 1 ≤ (net id).state.stableCheckpoint := by
  obtain ⟨net, hrun, hexchanged⟩ := Net.exists_run (HonestRules {node 0, node 1}) eagerPair.init
    twoAnnounce (fun net => Exchanged {node 0, node 1} twoAnnounce net 1) (by decide +kernel)
  exact ⟨net, hexchanged,
    (stable_at_supporters hrun hexchanged (by decide +kernel)).1 (by decide +kernel)⟩

open Sample in
/--
**A quorum that agrees on a checkpoint does not get it stable**: with the fourth node
silent, the three others all announce the checkpoint and get each other's, and it is
stable at none of them.
-/
theorem quorum_is_not_enough :
    ∃ net, Run (Net.Step (HonestRules {node 0, node 1, node 2})) eager.init threeAnnounce net ∧
      eager.config.quorum ≤ ({node 0, node 1, node 2} : Finset NodeId).card ∧
      Exchanged {node 0, node 1, node 2} threeAnnounce net 1 ∧
      ∀ id ∈ ({node 0, node 1, node 2} : Finset NodeId), (net id).state.stableCheckpoint = 0 :=
  Net.exists_run _ _ _ _ (by decide +kernel)

end P2pPbft
