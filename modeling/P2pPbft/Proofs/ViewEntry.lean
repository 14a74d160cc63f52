/-
What it takes to enter a view.

`handle_new_view` moves to any later view it is told of.  It looks neither at the
signature of the message nor at the view changes in it, which the message carries for
no other purpose.  With the two checks made, of the primary's signature and of a
quorum of signed view changes, a view is entered only after enough correct replicas
have asked for it.
-/
import P2pPbft.Proofs.Certificate

namespace P2pPbft

/-- The view changes inside a message. -/
def ConsensusMessage.carried : ConsensusMessage → Multiset ViewChange
  | .newView nv => nv.viewChanges
  | _ => 0

section

variable [Crypto]

/-- The view changes in the message carry no signature a correct node has not made. -/
def UnforgedWithin (correct : Finset NodeId) (net : Net) (message : ConsensusMessage) : Prop :=
  ∀ vc ∈ message.carried, vc.replicaId ∈ correct →
    verifyNodeSignature vc.replicaId (asBytes (viewChangeSignData vc.newView)) vc.signature = true →
      viewChangeSignData vc.newView ∈ (net vc.replicaId).signed

instance (correct : Finset NodeId) (net : Net) (message : ConsensusMessage) :
    Decidable (UnforgedWithin correct net message) :=
  Multiset.decidableForallMultiset

/-- The members that have signed a view change in the message, for the view of the message. -/
def NewView.supporters (newView : NewView) (replicas : Replicas) : Finset NodeId :=
  replicas.ids.toFinset.filter (· ∈ (newView.viewChanges.filter fun vc =>
    vc.newView = newView.newView ∧ verifyNodeSignature vc.replicaId
      (asBytes (viewChangeSignData vc.newView)) vc.signature = true).map (·.replicaId))

/-- A later view is entered only with its primary's signature and a quorum of view changes. -/
def PbftState.ChecksNewView (st : PbftState) : Section → Prop
  | .handleNewView newView => st.view < newView.newView →
      verifyNodeSignature (st.replicas.primary newView.newView)
        (asBytes (newViewSignData newView.newView)) newView.signature = true ∧
      st.config.quorum ≤ (newView.supporters st.replicas).card
  | _ => True

instance (st : PbftState) : (sec : Section) → Decidable (st.ChecksNewView sec)
  | .handleNewView _ => by dsimp only [PbftState.ChecksNewView]; infer_instance
  | .handleRequest _ | .handlePrePrepare _ | .handlePrepare _ | .tryAdvanceToPrepared _
  | .handleCommit _ | .tryAdvanceToCommitted _ | .tryCheckpoint _ | .handleCheckpoint _
  | .handleViewChange _ | .startViewChange | .checkTimeout => isTrue trivial

/-- A Byzantine network that forges no signature inside a message either. -/
def CarryingRules (cluster : Cluster) (byzantine : Finset NodeId) (net : Net) (e : Event) : Prop :=
  ByzantineRules cluster byzantine (cluster.members \ byzantine) net e ∧
    ∀ message, e.action.message? = some message →
      UnforgedWithin (cluster.members \ byzantine) net message

instance (cluster : Cluster) (byzantine : Finset NodeId) (net : Net) (e : Event) :
    Decidable (CarryingRules cluster byzantine net e) :=
  inferInstanceAs (Decidable
    (ByzantineRules cluster byzantine (cluster.members \ byzantine) net e ∧
      ∀ message, e.action.message? = some message →
        UnforgedWithin (cluster.members \ byzantine) net message))

/-- Such a network in which new views are checked. -/
def NewViewRules (cluster : Cluster) (byzantine : Finset NodeId) (net : Net) (e : Event) : Prop :=
  CarryingRules cluster byzantine net e ∧
    ∀ sec, (net e.node).sectionOf e.action = some sec → (net e.node).state.ChecksNewView sec

instance (cluster : Cluster) (byzantine : Finset NodeId) (net : Net) (e : Event) :
    Decidable (NewViewRules cluster byzantine net e) :=
  inferInstanceAs (Decidable (CarryingRules cluster byzantine net e ∧
    ∀ sec, (net e.node).sectionOf e.action = some sec → (net e.node).state.ChecksNewView sec))

variable {cluster : Cluster} {byzantine : Finset NodeId} {events : List Event} {net net' : Net}
  {e : Event}

/-- A correct supporter has issued a view change for the view. -/
theorem NewView.viewChange_of_supporter {trusted : Finset NodeId} {newView : NewView}
    {replicas : Replicas} {id : NodeId} (hid : id ∈ newView.supporters replicas)
    (hwithin : UnforgedWithin trusted net (.newView newView)) (htrusted : id ∈ trusted) :
    ∃ vc, Send.broadcast (.viewChange vc) ∈ (net id).issued ∧ vc.newView = newView.newView := by
  obtain ⟨vc, hsigned, rfl⟩ := Multiset.mem_map.mp (Finset.mem_filter.mp hid).2
  obtain ⟨hvc, hview, hverify⟩ := Multiset.mem_filter.mp hsigned
  obtain ⟨vc', hissued, hview'⟩ := Replica.viewChange_of_signed (hwithin vc hvc htrusted hverify)
  exact ⟨vc', hissued, hview'.trans hview⟩

/--
**A view is entered with a quorum behind it.**  With at most `f` of `3f + 1` replicas
Byzantine, when a step moves a replica to another view it hands it a new view that the
primary of that view has signed, and at least `f + 1` correct replicas have issued a
view change for it before, in a run that checks new views.
-/
theorem view_entered_with_quorum {f : Nat} (hn : cluster.replicas.ids.length = 3 * f + 1)
    (hbyz : byzantine.card ≤ f)
    (h : Run (Net.Step (NewViewRules cluster byzantine)) cluster.init events net)
    (hstep : Net.Step (NewViewRules cluster byzantine) net e net') {id : NodeId} {v : ViewNumber}
    (hview : (net' id).state.view = v) (hset : (net id).state.view ≠ v) :
    (∃ newView, e.node = id ∧ e.action.message? = some (.newView newView) ∧
        newView.newView = v ∧ verifyNodeSignature (cluster.replicas.primary v)
          (asBytes (newViewSignData v)) newView.signature = true) ∧
      ∃ voters ⊆ cluster.members \ byzantine, f + 1 ≤ voters.card ∧
        ∀ voter ∈ voters, ∃ vc, Send.broadcast (.viewChange vc) ∈ (net voter).issued ∧
          vc.newView = v := by
  have hhosts := Cluster.hosts_of_run h
  have hid : id = e.node := by
    by_contra hne
    rw [Net.act_of_ne hstep.2 hne] at hview
    exact hset hview
  subst hid
  rcases Replica.act_cases (Net.act_self hstep.2) with ⟨-, hstate, -⟩ | ⟨sec, hsec, hstate, -⟩
  · rw [hstate] at hview
    exact absurd hview hset
  rw [hstate] at hview
  rcases (run_transition (net e.node).state e.action.now sec).view with
    hsame | ⟨newView, rfl, hnew, hmoved⟩
  · exact absurd (hsame.symm.trans hview) hset
  obtain rfl : newView.newView = v := hmoved.symm.trans hview
  have hdelivered := (hhosts e.node).sound.cascading.message_of_sectionOf hsec rfl
  obtain ⟨hverify, hquorum⟩ := hstep.1.2 _ hsec hnew
  rw [(hhosts e.node).replicas] at hverify hquorum
  refine ⟨⟨newView, rfl, hdelivered, rfl, hverify⟩,
    newView.supporters cluster.replicas \ byzantine, ?_, ?_, ?_⟩
  · exact Finset.sdiff_subset_sdiff (Finset.filter_subset _ _) (Finset.Subset.refl _)
  · have hsdiff := Finset.le_card_sdiff byzantine (newView.supporters cluster.replicas)
    rw [(hhosts e.node).config, Cluster.config] at hquorum
    have hsize : (PbftConfig.new cluster.replicas.ids.length).quorum = 2 * f + 1 := quorum_eq hn
    have hquorum : 2 * f + 1 ≤ (newView.supporters cluster.replicas).card := hsize ▸ hquorum
    omega
  · intro voter hvoter
    obtain ⟨hvoter, hcorrect⟩ := Finset.mem_sdiff.mp hvoter
    refine NewView.viewChange_of_supporter hvoter (hstep.1.1.2 _ hdelivered) ?_
    exact Finset.mem_sdiff.mpr ⟨(Finset.mem_filter.mp hvoter).1, hcorrect⟩

end

namespace Sample

/-- A node starts a view change. -/
def start (i : Fin 4) : Event := ⟨node i, .call .startViewChange 0⟩

/-- The first and the third node start a view change, and the second gets these and one more. -/
def threeViewChanges : List Event :=
  [start 0, resume 0 0, start 2, resume 2 0, deliver 1 (.viewChange (signer 0).ownViewChange),
    deliver 1 (.viewChange (signer 2).ownViewChange),
    deliver 1 (.viewChange (signer 3).ownViewChange), resume 1 2]

/-- The new view the second node sends then. -/
def secondNewView : NewView where
  newView := 1
  viewChanges := {(signer 3).ownViewChange, (signer 2).ownViewChange, (signer 0).ownViewChange}
  primaryId := node 1
  signature := (signer 1).sign (newViewSignData 1)

end Sample

open Sample in
/-- The first node enters the view it and two others have asked for. -/
theorem view_entered_with_quorum_first :
    ∃ net net' : Net, (net' (node 0)).state.view = 1 ∧
      ∃ voters ⊆ (cluster 3).members \ {node 3}, 2 ≤ voters.card ∧
        ∀ voter ∈ voters, ∃ vc, Send.broadcast (.viewChange vc) ∈ (net voter).issued ∧
          vc.newView = 1 := by
  obtain ⟨net, hrun, hold, hrule, hact⟩ := Net.exists_run
    (NewViewRules (cluster 3) {node 3}) (cluster 3).init threeViewChanges
    (fun net => (net (node 0)).state.view = 0 ∧
      NewViewRules (cluster 3) {node 3} net (deliver 0 (.newView secondNewView)) ∧
      (net.act (deliver 0 (.newView secondNewView))).any
        fun net' => (net' (node 0)).state.view = 1) (by decide +kernel)
  obtain ⟨net', hnet', hview⟩ := (Option.any_eq_true _ _).mp hact
  have hview := of_decide_eq_true hview
  have hentered := view_entered_with_quorum (f := 1) rfl (by decide +kernel) hrun ⟨hrule, hnet'⟩
    hview (by rw [hold]; decide)
  exact ⟨net, net', hview, hentered.2⟩

open Sample in
/--
**One message moves a correct replica to any view**: an unsigned, empty new view of one
Byzantine replica of four, while nobody has asked for a view change.
-/
theorem forged_view_is_entered :
    ∃ net, Run (Net.Step (CarryingRules (cluster 3) {node 3})) (cluster 3).init
        [deliver 1 (.newView ⟨5, 0, node 1, []⟩)] net ∧
      (net (node 1)).state.view = 5 ∧ ∀ id ∈ (cluster 3).members, (net id).issued = [] :=
  Net.exists_run _ _ _ _ (by decide +kernel)

end P2pPbft
