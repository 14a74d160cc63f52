/-
What a stable checkpoint stands for.

`handle_checkpoint` files a message under the number and the id it names and counts
ids; it looks neither at who that is nor at the signature, where the handlers of the
votes look at the signature at least.  With checkpoints that are from members and bear
their signatures the count is what it should be: a quorum of members, the correct ones
of which have announced the checkpoint, all over the one digest the code knows.
-/
import P2pPbft.Proofs.Certificate

namespace P2pPbft

section

variable [Crypto]

/-! ### The table of checkpoints -/

section

variable {st : PbftState} {issued : List Send} {now : Instant} {sec : Section} {out : Outcome}

/-- The checkpoints received for a number after a section were there, or one came in. -/
theorem Transition.checkpoints (h : Transition st now sec out) {s : SequenceNumber}
    {received : Table NodeId Checkpoint} (hlookup : out.state.checkpoints.lookup s = some received) :
    st.checkpoints.lookup s = some received ∨
      ∃ c, sec = .handleCheckpoint c ∧ c.sequence = s ∧ received = st.addCheckpoint c := by
  have hcount : ∀ c, (st.countCheckpoint c).checkpoints.lookup s = some received →
      st.checkpoints.lookup s = some received ∨ c.sequence = s ∧ received = st.addCheckpoint c := by
    intro c hlookup
    rcases Table.lookup_insert_cases hlookup with ⟨rfl, hnew⟩ | ⟨-, hold⟩
    · exact Or.inr ⟨rfl, hnew⟩
    · exact Or.inl hold
  cases h with
  | propose request h =>
      rw [Outcome.proceed_state, PbftState.proposed_eq] at hlookup
      exact Or.inl hlookup
  | accept pp h =>
      rw [Outcome.proceed_state, PbftState.record_eq] at hlookup
      exact Or.inl hlookup
  | countCheckpoint c => exact (hcount c hlookup).imp id fun h => ⟨c, rfl, h⟩
  | stabilize c hquorum hnew =>
      exact (hcount c (Table.lookup_retain_eq_some.mp hlookup).2).imp id fun h => ⟨c, rfl, h⟩
  | _ => exact Or.inl hlookup

theorem Transition.stable_le (h : Transition st now sec out) :
    st.stableCheckpoint ≤ out.state.stableCheckpoint := by
  rcases h.window with ⟨-, hstable, -⟩ | ⟨c, -, -, hnew, hst⟩
  · rw [hstable]
    exact UInt64.le_refl _
  · rw [hst]
    exact UInt64.le_of_lt hnew

/-- A replica announces a checkpoint from `try_checkpoint` alone, with the constant digest. -/
theorem Transition.announces (h : Transition st now sec out) {c : Checkpoint}
    (hsend : Send.broadcast (.checkpoint c) ∈ out.sends) :
    ∃ s, sec = .tryCheckpoint s ∧ c = st.ownCheckpoint s := by
  cases h with
  | propose request h =>
      rcases List.mem_cons.mp hsend with heq | hsend
      · cases heq
      · cases List.mem_singleton.mp hsend
  | announce s hinterval hmod =>
      cases List.mem_singleton.mp hsend
      exact ⟨s, rfl, rfl⟩
  | forward _ _ | accept _ _ | prepared _ _ _ _ _ _ _ _ | executed _ _ _ _ _ _ _ _
  | announceNewView _ _ _ _ | startViewChange _ => cases List.mem_singleton.mp hsend
  | _ => cases hsend

/-- Every checkpoint received beyond the stable one is for its number and has the property. -/
def PbftState.Received (P : NodeId → Checkpoint → Prop) (st : PbftState) : Prop :=
  ∀ s received, st.stableCheckpoint < s → st.checkpoints.lookup s = some received →
    ∀ id c, received.lookup id = some c → c.sequence = s ∧ P id c

namespace PbftState.Received

variable {P Q : NodeId → Checkpoint → Prop}

omit [Crypto] in
theorem mono (h : st.Received P) (hsub : ∀ id c, P id c → Q id c) : st.Received Q :=
  fun s received hs hlookup id c hc =>
    ⟨(h s received hs hlookup id c hc).1, hsub id c (h s received hs hlookup id c hc).2⟩

omit [Crypto] in
theorem addCheckpoint (h : st.Received P) {checkpoint : Checkpoint}
    (hnew : st.stableCheckpoint < checkpoint.sequence) (hP : P checkpoint.replicaId checkpoint)
    {id : NodeId} {c : Checkpoint} (hlookup : (st.addCheckpoint checkpoint).lookup id = some c) :
    c.sequence = checkpoint.sequence ∧ P id c := by
  rcases Table.lookup_insert_cases hlookup with ⟨rfl, rfl⟩ | ⟨-, hold⟩
  · exact ⟨rfl, hP⟩
  · cases hreceived : st.checkpoints.lookup checkpoint.sequence with
    | some received =>
        rw [hreceived] at hold
        exact h _ received hnew hreceived id c hold
    | none =>
        rw [hreceived] at hold
        exact absurd hold (by simp)

/-- **It stays so if a checkpoint that is handled has the property.** -/
theorem step (h : st.Received P) (ht : Transition st now sec out)
    (hP : ∀ c, sec = .handleCheckpoint c → st.stableCheckpoint < c.sequence → P c.replicaId c) :
    out.state.Received P := by
  intro s received hs hlookup id c hc
  have hold := UInt64.lt_of_le_of_lt ht.stable_le hs
  rcases ht.checkpoints hlookup with hkept | ⟨checkpoint, hsec, rfl, rfl⟩
  · exact h s received hold hkept id c hc
  · exact h.addCheckpoint hold (hP checkpoint hsec hold) hc

/-- **When a checkpoint becomes stable a quorum of those received have the property.** -/
theorem quorum (h : st.Received P) (ht : Transition st now sec out)
    (hP : ∀ c, sec = .handleCheckpoint c → st.stableCheckpoint < c.sequence → P c.replicaId c)
    (hset : out.state.stableCheckpoint ≠ st.stableCheckpoint) :
    ∃ voters : Finset NodeId, st.config.quorum ≤ voters.card ∧
      ∀ id ∈ voters, ∃ c, c.sequence = out.state.stableCheckpoint ∧ P id c := by
  rcases ht.window with ⟨-, hsame, -⟩ | ⟨checkpoint, hsec, hquorum, hnew, hst⟩
  · exact absurd hsame hset
  · refine ⟨(st.addCheckpoint checkpoint).keys, hquorum, fun id hid => ?_⟩
    obtain ⟨c, hc⟩ := Table.exists_lookup_of_mem_keys hid
    obtain ⟨hs, hPc⟩ := h.addCheckpoint hnew (hP checkpoint hsec hnew) hc
    refine ⟨c, ?_, hPc⟩
    rw [hst]
    exact hs

end PbftState.Received

omit [Crypto] in
theorem received_new (P : NodeId → Checkpoint → Prop) (nodeId : NodeId) (keypair : KeyPair)
    (replicas : Replicas) (config : PbftConfig) (now : Instant) :
    (PbftState.new nodeId keypair replicas config now).Received P :=
  fun _ _ _ h => absurd h (by simp [PbftState.new])

end

/-! ### Checkpoints from members -/

/-- A checkpoint beyond the stable one is handled only if a member has signed it. -/
def PbftState.ChecksCheckpoint (st : PbftState) : Section → Prop
  | .handleCheckpoint c => st.stableCheckpoint < c.sequence → c.replicaId ∈ st.replicas.ids ∧
      verifyNodeSignature c.replicaId (asBytes (checkpointSignData c.sequence c.digest))
        c.signature = true
  | _ => True

instance (st : PbftState) : (sec : Section) → Decidable (st.ChecksCheckpoint sec)
  | .handleCheckpoint _ => by dsimp only [PbftState.ChecksCheckpoint]; infer_instance
  | .handleRequest _ | .handlePrePrepare _ | .handlePrepare _ | .tryAdvanceToPrepared _
  | .handleCommit _ | .tryAdvanceToCommitted _ | .tryCheckpoint _ | .handleViewChange _
  | .handleNewView _ | .startViewChange | .checkTimeout => isTrue trivial

/-- A Byzantine network in which checkpoints are checked. -/
def CheckpointRules (cluster : Cluster) (byzantine : Finset NodeId) (net : Net) (e : Event) :
    Prop :=
  ByzantineRules cluster byzantine (cluster.members \ byzantine) net e ∧
    ∀ sec, (net e.node).sectionOf e.action = some sec → (net e.node).state.ChecksCheckpoint sec

instance (cluster : Cluster) (byzantine : Finset NodeId) (net : Net) (e : Event) :
    Decidable (CheckpointRules cluster byzantine net e) :=
  inferInstanceAs (Decidable
    (ByzantineRules cluster byzantine (cluster.members \ byzantine) net e ∧
      ∀ sec, (net e.node).sectionOf e.action = some sec →
        (net e.node).state.ChecksCheckpoint sec))

/-- The node is a member and, if trusted, has announced a checkpoint with this number. -/
def Announced (cluster : Cluster) (trusted : Finset NodeId) (net : Net) (id : NodeId)
    (c : Checkpoint) : Prop :=
  id ∈ cluster.members ∧ (id ∈ trusted → ∃ c', Send.broadcast (.checkpoint c') ∈ (net id).issued ∧
    c'.sequence = c.sequence)

theorem digest_of_announced {rules : Net → Event → Prop} {cluster : Cluster} {events : List Event}
    {net : Net} (h : Run (Net.Step rules) cluster.init events net) {id : NodeId} {c : Checkpoint}
    (hissued : Send.broadcast (.checkpoint c) ∈ (net id).issued) :
    c.digest = List.Vector.replicate 32 0 := by
  have hrun := Net.run_at h id (fun _ _ => True) fun _ _ => trivial
  refine hrun.state_invariant (I := fun r => ∀ c, Send.broadcast (.checkpoint c) ∈ r.issued →
    c.digest = List.Vector.replicate 32 0) (fun _ h => absurd h (by simp [Cluster.init, Replica.new]))
    ?_ c hissued
  rintro t a u hdigest ⟨-, hact⟩
  refine Replica.keep (I := fun _ issued => ∀ c, Send.broadcast (.checkpoint c) ∈ issued →
    c.digest = List.Vector.replicate 32 0) hact hdigest fun _ ht c hc => ?_
  rcases List.mem_append.mp hc with hold | hnew
  · exact hdigest c hold
  · obtain ⟨s, -, rfl⟩ := ht.announces hnew
    rfl

section

variable {cluster : Cluster} {byzantine : Finset NodeId} {events : List Event} {net net' : Net}
  {e : Event}

theorem CheckpointRules.announced (hhosts : ∀ id, cluster.Hosts id (net id))
    (h : CheckpointRules cluster byzantine net e) {c : Checkpoint}
    (hsec : (net e.node).sectionOf e.action = some (.handleCheckpoint c))
    (hnew : (net e.node).state.stableCheckpoint < c.sequence) :
    Announced cluster (cluster.members \ byzantine) net c.replicaId c := by
  obtain ⟨hmember, hverify⟩ := h.2 _ hsec hnew
  rw [(hhosts e.node).replicas] at hmember
  refine ⟨List.mem_toFinset.mpr hmember, fun htrusted => ?_⟩
  have hdelivered := (hhosts e.node).sound.cascading.message_of_sectionOf hsec rfl
  obtain ⟨c', hc', hs, -⟩ := Replica.checkpoint_of_signed
    (h.1.genuine hhosts _ hdelivered _ rfl htrusted hverify)
  exact ⟨c', hc', hs⟩

/-- **Behind every checkpoint received there is one announced**, in a run that checks them. -/
theorem received_of_run (h : Run (Net.Step (CheckpointRules cluster byzantine)) cluster.init
    events net) (id : NodeId) :
    (net id).state.Received (Announced cluster (cluster.members \ byzantine) net) := by
  refine h.invariant (I := fun _ net => ∀ id, (net id).state.Received
    (Announced cluster (cluster.members \ byzantine) net)) ?_ ?_ id
  · exact fun id => received_new _ _ _ _ _ _
  · intro cs t e u hr hreceived hstep
    have hmono : ∀ id c, Announced cluster (cluster.members \ byzantine) t id c →
        Announced cluster (cluster.members \ byzantine) u id c := by
      rintro id c ⟨hmember, hannounced⟩
      refine ⟨hmember, fun htrusted => ?_⟩
      obtain ⟨c', hc', hs⟩ := hannounced htrusted
      exact ⟨c', Net.issued_subset_act hstep.2 id hc', hs⟩
    refine Net.keep (I := fun _ st _ => st.Received
      (Announced cluster (cluster.members \ byzantine) u)) hstep.2
      (fun id => (hreceived id).mono hmono) fun hsec ht _ => ?_
    refine ((hreceived e.node).mono hmono).step ht ?_
    rintro c rfl hnew
    exact hmono _ _ (hstep.1.announced (Cluster.hosts_of_run hr) hsec hnew)

/--
**A stable checkpoint has a quorum behind it.**  With at most `f` of `3f + 1` replicas
Byzantine, when a step moves the stable checkpoint of a replica, and with it the low
watermark, at least `f + 1` correct replicas have announced a checkpoint for the new
number before, all with one digest, in a run that checks who has signed checkpoints.
-/
theorem stable_checkpoint_announced {f : Nat} (hn : cluster.replicas.ids.length = 3 * f + 1)
    (hbyz : byzantine.card ≤ f)
    (h : Run (Net.Step (CheckpointRules cluster byzantine)) cluster.init events net)
    (hstep : Net.Step (CheckpointRules cluster byzantine) net e net') {id : NodeId}
    (hset : (net' id).state.stableCheckpoint ≠ (net id).state.stableCheckpoint) :
    (net' id).state.lowWatermark = (net' id).state.stableCheckpoint ∧
      ∃ digest, ∃ voters ⊆ cluster.members \ byzantine, f + 1 ≤ voters.card ∧
        ∀ voter ∈ voters, ∃ c, Send.broadcast (.checkpoint c) ∈ (net voter).issued ∧
          c.sequence = (net' id).state.stableCheckpoint ∧ c.digest = digest := by
  have hhosts := Cluster.hosts_of_run h
  refine ⟨(Cluster.hosts_of_run (Run.snoc h hstep) id).sound.wellFormed.low, ?_⟩
  have hid : id = e.node := by
    by_contra hne
    rw [Net.act_of_ne hstep.2 hne] at hset
    exact hset rfl
  subst hid
  rcases Replica.act_cases (Net.act_self hstep.2) with ⟨-, hstate, -⟩ | ⟨sec, hsec, hstate, -⟩
  · rw [hstate] at hset
    exact absurd rfl hset
  rw [hstate] at hset ⊢
  obtain ⟨voters, hquorum, hvoters⟩ := (received_of_run h e.node).quorum
    (run_transition (net e.node).state e.action.now sec)
    (by rintro c rfl hnew; exact hstep.1.announced hhosts hsec hnew) hset
  refine ⟨List.Vector.replicate 32 0, voters \ byzantine, ?_, ?_, ?_⟩
  · intro voter hvoter
    obtain ⟨hvoter, hcorrect⟩ := Finset.mem_sdiff.mp hvoter
    obtain ⟨c, -, hmember, -⟩ := hvoters voter hvoter
    exact Finset.mem_sdiff.mpr ⟨hmember, hcorrect⟩
  · have hsdiff := Finset.le_card_sdiff byzantine voters
    rw [(hhosts e.node).config, Cluster.config] at hquorum
    have hsize : (PbftConfig.new cluster.replicas.ids.length).quorum = 2 * f + 1 := quorum_eq hn
    have hquorum : 2 * f + 1 ≤ voters.card := hsize ▸ hquorum
    omega
  · intro voter hvoter
    obtain ⟨hvoter, hcorrect⟩ := Finset.mem_sdiff.mp hvoter
    obtain ⟨c, hs, hmember, hannounced⟩ := hvoters voter hvoter
    obtain ⟨c', hc', hs'⟩ := hannounced (Finset.mem_sdiff.mpr ⟨hmember, hcorrect⟩)
    exact ⟨c', hc', hs'.trans hs, digest_of_announced h hc'⟩

end

end

namespace Sample

/-- The four nodes, announcing a checkpoint after every request. -/
def eager : Cluster := { cluster 3 with checkpointInterval := 1 }

/-- The commit of a node for a request the first one has numbered. -/
def commitFor (i : Fin 4) (s : SequenceNumber) (request : Request) : Commit :=
  (signer i).ownCommit (ConsensusInstance.new s 0) s request.digest

/--
The first two nodes execute the first request with the votes of the last one, and
announce a checkpoint.
-/
def firstTwoAnnounce : List Event :=
  [submit 0 (request 1), resume 0 0, resume 0 0,
    deliver 1 (.prePrepare ((signer 0).proposal 1 (request 1))), resume 1 0,
    deliver 1 (.prepare ((signer 0).ownPrepare 0 1 (request 1).digest)),
    deliver 1 (.prepare ((signer 3).ownPrepare 0 1 (request 1).digest)), resume 1 2, resume 1 2,
    deliver 0 (.prepare ((signer 1).ownPrepare 0 1 (request 1).digest)),
    deliver 0 (.prepare ((signer 3).ownPrepare 0 1 (request 1).digest)), resume 0 2, resume 0 2,
    deliver 1 (.commit (commitFor 0 1 (request 1))), deliver 1 (.commit (commitFor 3 1 (request 1))),
    deliver 0 (.commit (commitFor 1 1 (request 1))), deliver 0 (.commit (commitFor 3 1 (request 1)))] ++
  List.replicate 4 (resume 1 4) ++ List.replicate 4 (resume 0 4)

end Sample

open Sample in
/-- The third node takes the checkpoints of the first two and of the Byzantine last one. -/
theorem stable_checkpoint_announced_third :
    ∃ net net' : Net, (net' (node 2)).state.stableCheckpoint = 1 ∧
      ∃ voters ⊆ eager.members \ {node 3}, 2 ≤ voters.card ∧
        ∀ voter ∈ voters, ∃ c, Send.broadcast (.checkpoint c) ∈ (net voter).issued ∧
          c.sequence = 1 := by
  obtain ⟨net, hrun, hold, hrule, hact⟩ := Net.exists_run
    (CheckpointRules eager {node 3}) eager.init
    (firstTwoAnnounce ++ [deliver 2 (.checkpoint ((signer 0).ownCheckpoint 1)),
      deliver 2 (.checkpoint ((signer 1).ownCheckpoint 1))])
    (fun net => (net (node 2)).state.stableCheckpoint = 0 ∧
      CheckpointRules eager {node 3} net (deliver 2 (.checkpoint ((signer 3).ownCheckpoint 1))) ∧
      (net.act (deliver 2 (.checkpoint ((signer 3).ownCheckpoint 1)))).any
        fun net' => (net' (node 2)).state.stableCheckpoint = 1) (by decide +kernel)
  obtain ⟨net', hnet', hnew⟩ := (Option.any_eq_true _ _).mp hact
  have hnew := of_decide_eq_true hnew
  have hset : (net' (node 2)).state.stableCheckpoint
      ≠ (net (node 2)).state.stableCheckpoint := by
    rw [hold, hnew]
    decide
  obtain ⟨-, digest, voters, hsub, hcard, hvoters⟩ := stable_checkpoint_announced (f := 1) rfl
    (by decide +kernel) hrun ⟨hrule, hnet'⟩ hset
  refine ⟨net, net', hnew, voters, hsub, hcard, fun voter hvoter => ?_⟩
  obtain ⟨c, hc, hs, -⟩ := hvoters voter hvoter
  exact ⟨c, hc, hs.trans hnew⟩

open Sample in
/--
**Three names are enough for a stable checkpoint**: one Byzantine replica of four sends
a correct one three unsigned checkpoints under ids of its own invention, and nobody has
announced anything.
-/
theorem forged_checkpoint_is_stable :
    ∃ net, Run (Net.Step (ByzantineRules (cluster 3) {node 3} ((cluster 3).members \ {node 3})))
        (cluster 3).init
        (["a", "b", "c"].map fun id => deliver 1 (.checkpoint ⟨7, List.Vector.replicate 32 0, id, []⟩))
        net ∧
      (net (node 1)).state.stableCheckpoint = 7 ∧ (net (node 1)).state.lowWatermark = 7 ∧
      ∀ id ∈ (cluster 3).members, (net id).issued = [] :=
  Net.exists_run _ _ _ _ (by decide +kernel)

end P2pPbft
