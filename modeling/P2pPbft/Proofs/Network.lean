/-
From one replica to a network of them.

A step of a network is a step of one replica, so a run of the network is, seen from
any node, a run of its replica, and everything known about replicas carries over.
What the network adds is where messages come from.  A message that can be delivered
carries no forged signature of a trusted node, so behind every prepare and every
pre-prepare in a log that names a trusted node there is a vote that node issued.
-/
import P2pPbft.Cluster
import P2pPbft.Proofs.Proposals

namespace P2pPbft

/-- The actions of one node among the events. -/
def actionsAt (id : NodeId) (events : List Event) : List Action :=
  (events.filter fun e => e.node = id).map (·.action)

theorem actionsAt_append (id : NodeId) (events events' : List Event) :
    actionsAt id (events ++ events') = actionsAt id events ++ actionsAt id events' := by
  simp [actionsAt]

section

variable [Crypto]

namespace Net

variable {net net' net₀ : Net} {e : Event} {events : List Event}
  {rules : Net → Event → Prop}

theorem act_self (h : net.act e = some net') :
    (net e.node).act e.action = some (net' e.node) := by
  obtain ⟨r, hr, rfl⟩ := Option.map_eq_some_iff.mp h
  rw [hr, Function.update_self]

theorem act_of_ne (h : net.act e = some net') {id : NodeId} (hid : id ≠ e.node) :
    net' id = net id := by
  obtain ⟨r, -, rfl⟩ := Option.map_eq_some_iff.mp h
  exact Function.update_of_ne hid _ _

/-- **Seen from one node, a run of the network is a run of a replica.** -/
theorem run_at (h : Run (Net.Step rules) net₀ events net) (id : NodeId)
    (rules' : Replica → Action → Prop)
    (hrules : ∀ {net e}, rules net e → e.node = id → rules' (net id) e.action) :
    Run (Replica.Next rules') (net₀ id) (actionsAt id events) (net id) := by
  induction h with
  | nil => exact Run.nil _
  | @snoc t u as e h hstep ih =>
      rw [actionsAt_append]
      by_cases hid : e.node = id
      · have hone : actionsAt id [e] = [e.action] := by simp [actionsAt, hid]
        rw [hone]
        refine Run.snoc ih ⟨hrules hstep.1 hid, ?_⟩
        rw [← hid]
        exact act_self hstep.2
      · have hnone : actionsAt id [e] = [] := by simp [actionsAt, hid]
        rw [hnone, List.append_nil, act_of_ne hstep.2 (Ne.symm hid)]
        exact ih

theorem issued_prefix_act (h : net.act e = some net') (id : NodeId) :
    (net id).issued <+: (net' id).issued := by
  by_cases hid : id = e.node
  · subst hid
    rcases Replica.act_cases (act_self h) with ⟨-, -, hissued⟩ | ⟨sec, -, -, hissued⟩
    · rw [hissued]
    · rw [hissued]
      exact List.prefix_append _ _
  · rw [act_of_ne h hid]

theorem issued_subset_act (h : net.act e = some net') (id : NodeId) :
    (net id).issued ⊆ (net' id).issued :=
  (issued_prefix_act h id).subset

/-- **The rule for what holds of every node**, of its state and what it has issued. -/
theorem keep {I : NodeId → PbftState → List Send → Prop} (h : net.act e = some net')
    (hI : ∀ id, I id (net id).state (net id).issued)
    (hkeep : ∀ {sec out}, (net e.node).sectionOf e.action = some sec →
      Transition (net e.node).state e.action.now sec out →
      (net' e.node).issued = (net e.node).issued ++ out.sends →
      I e.node out.state ((net e.node).issued ++ out.sends)) :
    ∀ id, I id (net' id).state (net' id).issued := by
  intro id
  by_cases hid : id = e.node
  · subst hid
    rcases Replica.act_cases (act_self h) with ⟨-, hstate, hissued⟩ | ⟨sec, hsec, hstate, hissued⟩
    · rw [hstate, hissued]
      exact hI _
    · have hafter := hkeep hsec (run_transition _ e.action.now sec) hissued
      rw [hstate, hissued]
      exact hafter
  · rw [act_of_ne h hid]
    exact hI id

theorem issued_subset_run (h : Run (Net.Step rules) net₀ events net) (id : NodeId) :
    (net₀ id).issued ⊆ (net id).issued :=
  h.state_invariant (I := fun net => (net₀ id).issued ⊆ (net id).issued) (List.Subset.refl _)
    fun hsub hstep => List.Subset.trans hsub (issued_subset_act hstep.2 id)

end Net

/-! ### The nodes of a cluster -/

/-- The replica of a node of the cluster, as it may be at any time. -/
structure Cluster.Hosts (cluster : Cluster) (id : NodeId) (r : Replica) : Prop where
  sound : r.Sound
  nodeId : r.state.nodeId = id
  keypair : r.state.keypair = KeyPair.fromSeed (cluster.seed id)
  replicas : r.state.replicas = cluster.replicas
  config : r.state.config = cluster.config

theorem Cluster.hosts_init (cluster : Cluster) (id : NodeId) :
    cluster.Hosts id (cluster.init id) where
  sound := Replica.sound_new _ _ _ _ _
  nodeId := rfl
  keypair := rfl
  replicas := rfl
  config := rfl

theorem Cluster.Hosts.act {cluster : Cluster} {id : NodeId} {r r' : Replica} {a : Action}
    (h : cluster.Hosts id r) (hact : r.act a = some r') : cluster.Hosts id r' := by
  obtain ⟨hnode, hkey, hreplicas, hconfig⟩ : r'.state.nodeId = id ∧
      r'.state.keypair = KeyPair.fromSeed (cluster.seed id) ∧
      r'.state.replicas = cluster.replicas ∧ r'.state.config = cluster.config :=
    Replica.keep (I := fun st _ => st.nodeId = id ∧ st.keypair = KeyPair.fromSeed (cluster.seed id) ∧
      st.replicas = cluster.replicas ∧ st.config = cluster.config) hact
      ⟨h.nodeId, h.keypair, h.replicas, h.config⟩ fun _ ht => by
        obtain ⟨hnode, hkey, hreplicas, hconfig⟩ := ht.static
        exact ⟨hnode.trans h.nodeId, hkey.trans h.keypair, hreplicas.trans h.replicas,
          hconfig.trans h.config⟩
  exact ⟨h.sound.act hact, hnode, hkey, hreplicas, hconfig⟩

/-- **Every node of a run is a replica of the cluster.** -/
theorem Cluster.hosts_of_run {cluster : Cluster} {rules : Net → Event → Prop}
    {events : List Event} {net : Net} (h : Run (Net.Step rules) cluster.init events net)
    (id : NodeId) : cluster.Hosts id (net id) :=
  (Net.run_at h id (fun _ _ => True) fun _ _ => trivial).state_invariant (cluster.hosts_init id)
    fun hhosts hstep => hhosts.act hstep.2

/-- The rules of a run may take it for granted that every node is a replica of the cluster. -/
theorem Cluster.run_hosts {cluster : Cluster} {rules : Net → Event → Prop}
    {events : List Event} {net : Net} (h : Run (Net.Step rules) cluster.init events net) :
    Run (Net.Step fun net e => rules net e ∧ ∀ id, cluster.Hosts id (net id)) cluster.init events
      net := by
  refine (h.restrict (fun net _ _ => ∀ id, cluster.Hosts id (net id)) ?_).mono ?_
  · intro cs t a u hr _ _
    exact Cluster.hosts_of_run hr
  · rintro t a u ⟨⟨hrule, hact⟩, hhosts⟩
    exact ⟨⟨hrule, hhosts⟩, hact⟩

/-! ### Where messages come from -/

section

variable {cluster : Cluster} {trusted : Finset NodeId} {net : Net}

theorem unforged_of_sentTo (hhosts : ∀ id, cluster.Hosts id (net id)) {senders : Finset NodeId}
    {node : NodeId} {message : ConsensusMessage} (h : SentTo senders net node message) :
    Unforged trusted net message := by
  intro claim hclaim _ _
  obtain ⟨sender, -, ⟨-, hsent⟩ | hsent⟩ := h
  · have hissued := (hhosts sender).sound.accounted.outgoing hsent
    have hsigner := ((hhosts sender).sound.signs.broadcast message hissued claim hclaim).1
    rw [hsigner, (hhosts sender).nodeId]
    refine List.mem_filterMap.mpr ⟨_, hissued, ?_⟩
    exact congrArg (Option.map (·.data)) hclaim
  · have hissued := (hhosts sender).sound.accounted.outgoing hsent
    have hnone := (hhosts sender).sound.signs.sendTo node message hissued
    exact absurd (hnone.symm.trans hclaim) (by simp)

/-- The event delivers nothing with a forged signature of a trusted node. -/
def Genuine (trusted : Finset NodeId) (net : Net) (e : Event) : Prop :=
  ∀ message, e.action.message? = some message → Unforged trusted net message

theorem ByzantineRules.genuine (hhosts : ∀ id, cluster.Hosts id (net id))
    {byzantine : Finset NodeId} {e : Event} (h : ByzantineRules cluster byzantine trusted net e) :
    Genuine trusted net e := by
  intro message hmessage
  rcases h.2 message hmessage with hsent | ⟨-, hunforged⟩
  · exact unforged_of_sentTo hhosts hsent
  · exact hunforged

theorem HonestRules.genuine (hhosts : ∀ id, cluster.Hosts id (net id)) {live : Finset NodeId}
    {e : Event} (h : HonestRules live net e) : Genuine trusted net e :=
  fun message hmessage => unforged_of_sentTo hhosts (h.2 message hmessage)

/-- For a trusted node itself this is what its own run assumes. -/
theorem Genuine.unforged {e : Event} (h : Genuine trusted net e)
    (hhosts : ∀ id, cluster.Hosts id (net id)) (htrusted : e.node ∈ trusted) :
    ∀ message, e.action.message? = some message → (net e.node).Unforged message := by
  intro message hmessage claim hclaim hsigner hverify
  rw [(hhosts e.node).nodeId] at hsigner
  have hsigned := h message hmessage claim hclaim (by rw [hsigner]; exact htrusted) hverify
  rw [hsigner] at hsigned
  exact hsigned

theorem Unforged.signedPrepare {message : ConsensusMessage} (h : Unforged trusted net message)
    {signer : NodeId} {v : ViewNumber} {s : SequenceNumber} {d : Hash} {signature : List UInt8}
    (hclaim : message.claim = some ⟨signer, prepareSignData v s d, signature⟩)
    (htrusted : signer ∈ trusted)
    (hverify : verifyNodeSignature signer (asBytes (prepareSignData v s d)) signature = true) :
    SignedPrepare (net signer).issued v s d :=
  Replica.issued_of_signed (h _ hclaim htrusted hverify)

/-! ### Votes in the logs are genuine -/

/-- The prepares and the pre-prepare of an instance that name a trusted node are that node's. -/
structure ConsensusInstance.Authentic (trusted : Finset NodeId) (net : Net)
    (inst : ConsensusInstance) : Prop where
  prepare : ∀ id p, inst.prepares.lookup id = some p → id ∈ trusted →
    SignedPrepare (net id).issued p.view p.sequence p.digest
  prePrepare : ∀ pp, inst.prePrepare = some pp → pp.primaryId ∈ trusted →
    SignedPrepare (net pp.primaryId).issued pp.view pp.sequence pp.digest

/-- All instances of all logs are authentic. -/
def Authentic (trusted : Finset NodeId) (net : Net) : Prop :=
  ∀ id s inst, (net id).state.log.lookup s = some inst → inst.Authentic trusted net

omit [Crypto] in
theorem ConsensusInstance.Authentic.mono {net' : Net} {inst : ConsensusInstance}
    (h : inst.Authentic trusted net) (hsub : ∀ id, (net id).issued ⊆ (net' id).issued) :
    inst.Authentic trusted net' where
  prepare := fun id p hp htrusted => (h.prepare id p hp htrusted).mono (hsub id)
  prePrepare := fun pp hpp htrusted => (h.prePrepare pp hpp htrusted).mono (hsub _)

omit [Crypto] in
theorem Authentic.instanceAt (h : Authentic trusted net) (id : NodeId) (s : SequenceNumber) :
    ((net id).state.instanceAt s).Authentic trusted net := by
  rcases (net id).state.instanceAt_cases s with hlookup | hnew
  · exact h id s _ hlookup
  · rw [hnew]
    exact ⟨fun _ _ h => absurd h (by simp [ConsensusInstance.new]),
      fun _ h => absurd h (by simp [ConsensusInstance.new])⟩

omit [Crypto] in
private theorem authentic_insert {prepares : Table NodeId Prepare}
    (h : ∀ id p, prepares.lookup id = some p → id ∈ trusted →
      SignedPrepare (net id).issued p.view p.sequence p.digest)
    {signer : NodeId} {prepare : Prepare}
    (hsigned : signer ∈ trusted →
      SignedPrepare (net signer).issued prepare.view prepare.sequence prepare.digest) :
    ∀ id p, (prepares.insert signer prepare).lookup id = some p → id ∈ trusted →
      SignedPrepare (net id).issued p.view p.sequence p.digest := by
  intro id p hp htrusted
  rcases Table.lookup_insert_cases hp with ⟨rfl, rfl⟩ | ⟨-, hold⟩
  · exact hsigned htrusted
  · exact h id p hold htrusted

/-- **Logs stay authentic** as long as what is delivered is genuine. -/
theorem Authentic.act (h : Authentic trusted net) (hhosts : ∀ id, cluster.Hosts id (net id))
    {e : Event} {net' : Net} (hact : net.act e = some net') (hgenuine : Genuine trusted net e) :
    Authentic trusted net' := by
  have hsub : ∀ id, (net id).issued ⊆ (net' id).issued := Net.issued_subset_act hact
  intro id s inst hlookup
  by_cases hid : id = e.node
  swap
  · rw [Net.act_of_ne hact hid] at hlookup
    exact (h id s inst hlookup).mono hsub
  subst hid
  rcases Replica.act_cases (Net.act_self hact) with ⟨-, hstate, -⟩ | ⟨sec, hsec, hstate, hissued⟩
  · rw [hstate] at hlookup
    exact (h _ s inst hlookup).mono hsub
  rw [hstate] at hlookup
  have ht := run_transition (net e.node).state e.action.now sec
  rcases ht.entry hlookup with hold | hwrite
  · exact (h _ s inst hold).mono hsub
  -- What the section itself issues is issued by this node.
  have hown : ∀ p ∈ votes (sec.run (net e.node).state e.action.now).sends,
      SignedPrepare (net' e.node).issued p.view p.sequence p.digest := by
    intro p hp
    rw [hissued]
    exact Or.inr ⟨p, by rw [votes_append]; exact List.mem_append_right _ hp, rfl, rfl, rfl⟩
  have hnode := (hhosts e.node).nodeId
  have hdelivered : ∀ message, sec.message? = some message → Unforged trusted net message :=
    fun message hm => hgenuine message ((hhosts e.node).sound.cascading.message_of_sectionOf hsec hm)
  generalize sec.run (net e.node).state e.action.now = out at hwrite hown
  cases hwrite with
  | propose request hp _ _ hsends =>
      have hsigned := hown _ (by rw [hsends]; exact List.mem_singleton.mpr rfl)
      have hbase := (h.instanceAt e.node ((net e.node).state.sequence + 1)).mono hsub
      refine ⟨authentic_insert hbase.prepare fun _ => ?_, fun pp hpp _ => ?_⟩
      · rw [hnode]
        exact hsigned
      · obtain rfl := Option.some.inj hpp
        show SignedPrepare (net' (net e.node).state.nodeId).issued _ _ _
        rw [hnode]
        exact hsigned
  | accept pp hp _ hvotes =>
      have hsigned := hown _ (by rw [hvotes]; exact List.mem_singleton.mpr rfl)
      have hbase := (h.instanceAt e.node pp.sequence).mono hsub
      refine ⟨authentic_insert hbase.prepare fun _ => ?_, fun pp' hpp htrusted => ?_⟩
      · rw [hnode]
        exact hsigned
      · obtain rfl := Option.some.inj hpp
        exact ((hdelivered _ rfl).signedPrepare rfl htrusted hp.signature).mono (hsub _)
  | storePrepare prepare hp _ =>
      have hbase := (h.instanceAt e.node prepare.sequence).mono hsub
      refine ⟨authentic_insert hbase.prepare fun htrusted => ?_, hbase.prePrepare⟩
      exact ((hdelivered _ rfl).signedPrepare rfl htrusted hp.signature).mono (hsub _)
  | prepared s inst digest hl _ _ _ _ _ =>
      have hbase := (h e.node s inst hl).mono hsub
      exact ⟨hbase.prepare, hbase.prePrepare⟩
  | storeCommit commit _ _ =>
      have hbase := (h.instanceAt e.node commit.sequence).mono hsub
      exact ⟨hbase.prepare, hbase.prePrepare⟩
  | committed s inst hl _ _ _ _ =>
      have hbase := (h e.node s inst hl).mono hsub
      exact ⟨hbase.prepare, hbase.prePrepare⟩

/-- **In every run the logs are authentic.** -/
theorem authentic_of_run {rules : Net → Event → Prop} {events : List Event}
    (h : Run (Net.Step rules) cluster.init events net)
    (hrules : ∀ {net e}, (∀ id, cluster.Hosts id (net id)) → rules net e → Genuine trusted net e) :
    Authentic trusted net := by
  refine h.invariant (I := fun _ net => Authentic trusted net) ?_ ?_
  · intro id s inst hlookup
    exact absurd hlookup (by simp [Cluster.init, Cluster.initState, Replica.new, PbftState.new])
  · intro as t e u hr hauth hstep
    have hhosts := Cluster.hosts_of_run hr
    exact hauth.act hhosts hstep.2 (hrules hhosts hstep.1)

/-- The slots of a trusted node stay apart, if its counter does not wrap. -/
theorem slots_of_net_run {rules : Net → Event → Prop} {events : List Event}
    (h : Run (Net.Step rules) cluster.init events net) {id : NodeId} (htrusted : id ∈ trusted)
    (hrules : ∀ {net e}, (∀ id, cluster.Hosts id (net id)) → rules net e →
      Genuine trusted net e ∧ (e.node = id → ∀ sec, (net id).sectionOf e.action = some sec →
        (net id).state.NoWrap sec)) :
    Slots (net id).state (net id).issued := by
  have hrun := Net.run_at (Cluster.run_hosts h) id
    (fun r a => (∀ sec, r.sectionOf a = some sec → r.state.NoWrap sec) ∧
      ∀ message, a.message? = some message → r.Unforged message) (by
      rintro net e ⟨hrule, hhosts⟩ rfl
      obtain ⟨hgenuine, hwrap⟩ := hrules hhosts hrule
      exact ⟨hwrap rfl, hgenuine.unforged hhosts htrusted⟩)
  exact Replica.slots_of_run hrun (cluster.hosts_init id).sound (Replica.slots_new _) fun h => h

section

variable {rules : Net → Event → Prop} {events : List Event} {id : NodeId}

theorem unforged_of_net_run (h : Run (Net.Step rules) cluster.init events net)
    (htrusted : id ∈ trusted)
    (hrules : ∀ {net e}, (∀ id, cluster.Hosts id (net id)) → rules net e → Genuine trusted net e) :
    Run (Replica.Next fun r a => ∀ message, a.message? = some message → r.Unforged message)
      (cluster.init id) (actionsAt id events) (net id) := by
  refine Net.run_at (Cluster.run_hosts h) id _ ?_
  rintro net e ⟨hrule, hhosts⟩ rfl
  exact (hrules hhosts hrule).unforged hhosts htrusted

/-- **Below `2 ^ 64` requests the slots of a trusted node stay apart.** -/
theorem slots_of_requests (h : Run (Net.Step rules) cluster.init events net)
    (htrusted : id ∈ trusted)
    (hrules : ∀ {net e}, (∀ id, cluster.Hosts id (net id)) → rules net e → Genuine trusted net e)
    (hcount : Replica.requests (actionsAt id events) < 2 ^ 64) :
    Slots (net id).state (net id).issued := by
  have hsound := (cluster.hosts_init id).sound
  have hunforged := unforged_of_net_run h htrusted hrules
  exact Replica.slots_of_run (Replica.noWrap_of_requests hunforged hsound rfl hcount) hsound
    (Replica.slots_new _) fun hrule => ⟨hrule.2, hrule.1⟩

end

end

theorem Net.exists_run (rules : Net → Event → Prop) [∀ net e, Decidable (rules net e)]
    (net₀ : Net) (events : List Event) (p : Net → Prop) [DecidablePred p]
    (h : (execute (Net.next rules) net₀ events).any (fun net => decide (p net)) = true) :
    ∃ net, Run (Net.Step rules) net₀ events net ∧ p net := by
  obtain ⟨net, hrun, hp⟩ := exists_run_of_execute _ _ _ p h
  exact ⟨net, hrun.mono fun hstep => Net.next_eq_some.mp hstep, hp⟩

end

end P2pPbft
