/-
Who has a vote on file.

Four tables hold votes: the prepares and the commits of an instance, the checkpoints
under a number, and the view changes under a view.  Each counts towards a quorum by its
size.  A prepare or a commit is filed under the id it names, after its signature has been
checked with the key that id stands for; a checkpoint or a view change is filed under the
id it names, and that is all.  None of the four handlers looks the id up in the list of
replicas.
-/
import P2pPbft.Proofs.NewPrimary
import P2pPbft.Proofs.Stability
import P2pPbft.Proofs.NormalCase

namespace P2pPbft

/-! ### What is filed in an instance -/

/-- The prepares and the commits on file are admitted under the ids they are filed under. -/
structure ConsensusInstance.Files (P : NodeId → Prepare → Prop) (C : NodeId → Commit → Prop)
    (inst : ConsensusInstance) : Prop where
  prepare : ∀ id p, inst.prepares.lookup id = some p → P id p
  commit : ∀ id c, inst.commits.lookup id = some c → C id c

/-- So they are in every instance. -/
def PbftState.Files (P : NodeId → Prepare → Prop) (C : NodeId → Commit → Prop) (st : PbftState) :
    Prop :=
  ∀ s inst, st.log.lookup s = some inst → inst.Files P C

section

variable {P : NodeId → Prepare → Prop} {C : NodeId → Commit → Prop} {st : PbftState}

theorem ConsensusInstance.files_new (s : SequenceNumber) (view : ViewNumber) :
    (ConsensusInstance.new s view).Files P C :=
  ⟨fun _ _ h => absurd h (by simp [new]), fun _ _ h => absurd h (by simp [new])⟩

theorem PbftState.Files.instanceAt (h : st.Files P C) (s : SequenceNumber) :
    (st.instanceAt s).Files P C := by
  rcases st.instanceAt_cases s with hlookup | hnew
  · exact h s _ hlookup
  · rw [hnew]
    exact ConsensusInstance.files_new s st.view

variable [Crypto] {now : Instant} {sec : Section} {out : Outcome}

/-- **What is filed stays admitted** if our own votes are, and each that is accepted is. -/
theorem PbftState.Files.step (h : st.Files P C) (ht : Transition st now sec out)
    (hown : ∀ view s d, P st.nodeId (st.ownPrepare view s d))
    (howned : ∀ inst s d, C st.nodeId (st.ownCommit inst s d))
    (hprepare : ∀ p, sec = .handlePrepare p → st.AcceptsPrepare p → P p.replicaId p)
    (hcommit : ∀ c, sec = .handleCommit c → st.AcceptsCommit c → C c.replicaId c) :
    out.state.Files P C := by
  have hrecorded : ∀ pp : PrePrepare,
      (st.recorded pp (st.ownPrepare pp.view pp.sequence pp.digest)).Files P C := by
    intro pp
    have hbase := h.instanceAt pp.sequence
    exact ⟨fun _ _ => Table.forall_insert hbase.prepare (hown _ _ _), hbase.commit⟩
  intro s inst hlookup
  rcases ht.entry hlookup with hold | hwrite
  · exact h s inst hold
  cases hwrite with
  | propose request hp _ _ _ => exact hrecorded (st.proposal (st.sequence + 1) request)
  | accept pp hp _ _ => exact hrecorded pp
  | storePrepare p hp _ =>
      have hbase := h.instanceAt p.sequence
      exact ⟨fun _ _ => Table.forall_insert hbase.prepare (hprepare p rfl hp), hbase.commit⟩
  | prepared s inst digest hl _ _ _ _ _ =>
      have hbase := h s inst hl
      exact ⟨hbase.prepare, fun _ _ => Table.forall_insert hbase.commit (howned _ _ _)⟩
  | storeCommit c hc _ =>
      have hbase := h.instanceAt c.sequence
      exact ⟨hbase.prepare, fun _ _ => Table.forall_insert hbase.commit (hcommit c rfl hc)⟩
  | committed s inst hl _ _ _ _ => exact ⟨(h s inst hl).prepare, (h s inst hl).commit⟩

/-- The view changes on file for a view after a section were there, or one came in or went out. -/
theorem Transition.viewChanges (ht : Transition st now sec out) {v : ViewNumber}
    {received : Table NodeId ViewChange} (hlookup : out.state.viewChanges.lookup v = some received) :
    st.viewChanges.lookup v = some received ∨
      ∃ viewChange, received = st.addViewChange viewChange ∧
        (sec = .handleViewChange viewChange ∧ st.view < viewChange.newView ∨
          viewChange.replicaId = st.nodeId) := by
  have hcount : ∀ viewChange, (st.countViewChange viewChange).viewChanges.lookup v = some received →
      st.viewChanges.lookup v = some received ∨ received = st.addViewChange viewChange := by
    intro viewChange hlookup
    rcases Table.lookup_insert_cases hlookup with ⟨-, hnew⟩ | ⟨-, hold⟩
    · exact Or.inr hnew
    · exact Or.inl hold
  cases ht with
  | propose request h =>
      rw [Outcome.proceed_state, PbftState.proposed_eq] at hlookup
      exact Or.inl hlookup
  | accept pp h =>
      rw [Outcome.proceed_state, PbftState.record_eq] at hlookup
      exact Or.inl hlookup
  | countViewChange vc hnew | announceNewView vc hnew hquorum hprimary =>
      exact (hcount vc hlookup).imp id fun h => ⟨vc, h, Or.inl ⟨rfl, hnew⟩⟩
  | startViewChange h => exact (hcount _ hlookup).imp id fun h => ⟨_, h, Or.inr rfl⟩
  | enterView nv hnew => exact Or.inl (Table.lookup_retain_eq_some.mp hlookup).2
  | _ => exact Or.inl hlookup

end

/-! ### Members -/

/-- Everybody with a vote on file is one of the replicas. -/
structure PbftState.OnlyMembers (st : PbftState) : Prop where
  prepares : ∀ s inst, st.log.lookup s = some inst →
    ∀ id ∈ inst.prepares.keys, id ∈ st.replicas.ids
  commits : ∀ s inst, st.log.lookup s = some inst →
    ∀ id ∈ inst.commits.keys, id ∈ st.replicas.ids
  checkpoints : ∀ s received, st.checkpoints.lookup s = some received →
    ∀ id ∈ received.keys, id ∈ st.replicas.ids
  viewChanges : ∀ v received, st.viewChanges.lookup v = some received →
    ∀ id ∈ received.keys, id ∈ st.replicas.ids

section

variable [Crypto]

/-- The vote the section files, if it files one that came in, is from a replica. -/
def PbftState.FilesMembers (st : PbftState) : Section → Prop
  | .handlePrepare p => st.AcceptsPrepare p → p.replicaId ∈ st.replicas.ids
  | .handleCommit c => st.AcceptsCommit c → c.replicaId ∈ st.replicas.ids
  | .handleCheckpoint c => c.replicaId ∈ st.replicas.ids
  | .handleViewChange vc => st.view < vc.newView → vc.replicaId ∈ st.replicas.ids
  | _ => True

instance (st : PbftState) : (sec : Section) → Decidable (st.FilesMembers sec)
  | .handlePrepare _ | .handleCommit _ | .handleCheckpoint _ | .handleViewChange _ =>
      by dsimp only [PbftState.FilesMembers]; infer_instance
  | .handleRequest _ | .handlePrePrepare _ | .tryAdvanceToPrepared _ | .tryAdvanceToCommitted _
  | .tryCheckpoint _ | .handleNewView _ | .startViewChange | .checkTimeout => isTrue trivial

variable {st : PbftState} {now : Instant} {sec : Section} {out : Outcome}

omit [Crypto] in
theorem PbftState.OnlyMembers.files (h : st.OnlyMembers) :
    st.Files (fun id _ => id ∈ st.replicas.ids) (fun id _ => id ∈ st.replicas.ids) :=
  fun s inst hlookup =>
    ⟨fun id _ hp => h.prepares s inst hlookup id (Table.mem_keys_of_lookup hp),
      fun id _ hc => h.commits s inst hlookup id (Table.mem_keys_of_lookup hc)⟩

omit [Crypto] in
private theorem member_insert {K V : Type} [DecidableEq K] {table : Table K (Table NodeId V)}
    {members : List NodeId} (h : ∀ k votes, table.lookup k = some votes → ∀ id ∈ votes.keys, id ∈ members)
    (k : K) {voter : NodeId} (hvoter : voter ∈ members) (vote : V) :
    ∀ id ∈ (((table.lookup k).getD ∅).insert voter vote).keys, id ∈ members := by
  intro id hid
  rw [Table.keys_insert] at hid
  rcases Finset.mem_insert.mp hid with rfl | hid
  · exact hvoter
  · cases hlookup : table.lookup k with
    | some votes =>
        rw [hlookup] at hid
        exact h k votes hlookup id hid
    | none =>
        rw [hlookup] at hid
        exact absurd hid (by simp)

/-- **A section that files votes of replicas only leaves only such votes on file.** -/
theorem PbftState.OnlyMembers.step (h : st.OnlyMembers) (hself : st.nodeId ∈ st.replicas.ids)
    (ht : Transition st now sec out) (hfiles : st.FilesMembers sec) : out.state.OnlyMembers := by
  have hlog := h.files.step ht (fun _ _ _ => hself) (fun _ _ _ => hself)
    (fun p heq hp => by subst heq; exact hfiles hp)
    (fun c heq hc => by subst heq; exact hfiles hc)
  have hreplicas := ht.static.2.2.1
  constructor
  · intro s inst hlookup id hid
    obtain ⟨p, hp⟩ := Table.exists_lookup_of_mem_keys hid
    rw [hreplicas]
    exact (hlog s inst hlookup).prepare id p hp
  · intro s inst hlookup id hid
    obtain ⟨c, hc⟩ := Table.exists_lookup_of_mem_keys hid
    rw [hreplicas]
    exact (hlog s inst hlookup).commit id c hc
  · intro s received hlookup
    rw [hreplicas]
    rcases ht.checkpoints hlookup with hold | ⟨c, rfl, -, rfl⟩
    · exact h.checkpoints s received hold
    · exact member_insert h.checkpoints c.sequence hfiles c
  · intro v received hlookup
    rw [hreplicas]
    rcases ht.viewChanges hlookup with hold | ⟨vc, rfl, ⟨rfl, hnew⟩ | hown⟩
    · exact h.viewChanges v received hold
    · exact member_insert h.viewChanges vc.newView (hfiles hnew) vc
    · exact member_insert h.viewChanges vc.newView (hown ▸ hself) vc

/-- **A section that files the vote of anybody else leaves it on file.** -/
theorem PbftState.filesMembers_of_after (h : (sec.run st now).state.OnlyMembers) :
    st.FilesMembers sec := by
  have hreplicas := (run_transition st now sec).static.2.2.1
  cases sec with
  | handlePrepare p =>
      intro hp
      have hmem := (handlePrepare_ok hp.view hp.low hp.high hp.signature hp.digest).2
      obtain ⟨p', hp'⟩ := Table.exists_lookup_of_mem_keys (Finmap.mem_keys.mpr hmem)
      rw [← hreplicas]
      exact (h.files.instanceAt p.sequence).prepare p.replicaId p' hp'
  | handleCommit c =>
      intro hc
      have hmem := (handleCommit_ok hc.view hc.low hc.high hc.signature hc.digest).2
      obtain ⟨c', hc'⟩ := Table.exists_lookup_of_mem_keys (Finmap.mem_keys.mpr hmem)
      rw [← hreplicas]
      exact (h.files.instanceAt c.sequence).commit c.replicaId c' hc'
  | handleCheckpoint c =>
      have hlookup : (st.handleCheckpoint c).state.checkpoints.lookup c.sequence
          = some (st.addCheckpoint c) := by
        unfold handleCheckpoint
        simp only
        split
        · exact Table.lookup_retain_eq_some.mpr ⟨by simp, Finmap.lookup_insert ..⟩
        · exact Finmap.lookup_insert ..
      show c.replicaId ∈ st.replicas.ids
      rw [← hreplicas]
      refine h.checkpoints c.sequence _ hlookup c.replicaId ?_
      rw [addCheckpoint, Table.keys_insert]
      exact Finset.mem_insert_self ..
  | handleViewChange vc =>
      intro hnew
      have hlookup : (st.handleViewChange vc).state.viewChanges.lookup vc.newView
          = some (st.addViewChange vc) := by
        unfold handleViewChange
        rw [if_neg (UInt64.not_le.mpr hnew)]
        simp only
        split <;> exact Finmap.lookup_insert ..
      rw [← hreplicas]
      refine h.viewChanges vc.newView _ hlookup vc.replicaId ?_
      rw [addViewChange, Table.keys_insert]
      exact Finset.mem_insert_self ..
  | _ => trivial

namespace Replica

/-- The step files no vote of anybody who is not one of the replicas. -/
def FilesMembers (r : Replica) (a : Action) : Prop :=
  ∀ sec, r.sectionOf a = some sec → r.state.FilesMembers sec

instance (r : Replica) (a : Action) : Decidable (r.FilesMembers a) :=
  inferInstanceAs (Decidable (∀ sec, r.sectionOf a = some sec → r.state.FilesMembers sec))

/--
**Only members vote, exactly if no other vote is filed.**  All states of a run of a replica
of the list have votes of replicas only on file, if and only if no step of the run accepts
a prepare or a commit, counts a checkpoint or counts a view change of anybody else.
-/
theorem only_members_iff {nodeId : NodeId} {keypair : KeyPair} {replicas : Replicas}
    {config : PbftConfig} {now : Instant} (hself : nodeId ∈ replicas.ids) (as : List Action)
    (r : Replica) :
    Run (fun r a r' => r.act a = some r' ∧ r'.state.OnlyMembers)
        (new (PbftState.new nodeId keypair replicas config now)) as r ↔
      Run (Next FilesMembers) (new (PbftState.new nodeId keypair replicas config now)) as r := by
  refine keeps_iff_meets PbftState.FilesMembers _ as r (I := fun st _ => st.OnlyMembers)
    (J := fun st _ => st.nodeId ∈ st.replicas.ids) ?_ hself ?_ ?_
  · exact ⟨fun _ _ h => absurd h (by simp [new, PbftState.new]),
      fun _ _ h => absurd h (by simp [new, PbftState.new]),
      fun _ _ h => absurd h (by simp [new, PbftState.new]),
      fun _ _ h => absurd h (by simp [new, PbftState.new])⟩
  · intro t a sec hself
    have hstatic := (run_transition t.state a.now sec).static
    rw [hstatic.1, hstatic.2.2.1]
    exact hself
  · intro t a sec hself hmembers
    exact ⟨PbftState.filesMembers_of_after,
      hmembers.step hself (run_transition t.state a.now sec)⟩

end Replica

end

namespace Sample

/-- A vote of every kind by the holder of a key, delivered to somebody. -/
def everyVoteOf (voter : PbftState) : List Action :=
  [.prepare (voter.ownPrepare 0 1 (request 1).digest),
    .commit (voter.ownCommit (ConsensusInstance.new 1 0) 1 (request 1).digest),
    .checkpoint (voter.ownCheckpoint 100), .viewChange voter.ownViewChange].map
    fun message => .call (.processMessage message) 0

end Sample

open Sample in
/-- A backup that gets votes of the third node. -/
theorem Replica.only_members_iff_backup :
    ∃ r : Replica, Run (fun r a r' => r.act a = some r' ∧ r'.state.OnlyMembers)
        (new ((cluster 3).initState (node 1))) (everyVoteOf (signer 2)) r ∧
      (r.state.instanceAt 1).prepares.keys = {node 2} := by
  obtain ⟨r, hrun, hkeys⟩ := exists_run FilesMembers (new ((cluster 3).initState (node 1)))
    (everyVoteOf (signer 2)) (fun r => (r.state.instanceAt 1).prepares.keys = {node 2})
    (by decide +kernel)
  exact ⟨r, (only_members_iff (by decide +kernel) _ _).mpr hrun, hkeys⟩

open Sample in
/-- **Anybody with a key votes**: all four tables have the vote of one who is no replica. -/
theorem Replica.outsider_votes :
    ∃ r, Run (Next fun _ _ => True) (new ((cluster 3).initState (node 1))) (everyVoteOf outsider) r ∧
      outsider.nodeId ∉ r.state.replicas.ids ∧
      outsider.nodeId ∈ (r.state.instanceAt 1).prepares.keys ∧
      outsider.nodeId ∈ (r.state.instanceAt 1).commits.keys ∧
      outsider.nodeId ∈ ((r.state.checkpoints.lookup 100).getD ∅).keys ∧
      outsider.nodeId ∈ ((r.state.viewChanges.lookup 1).getD ∅).keys :=
  exists_run _ _ _ _ (by decide +kernel)

end P2pPbft
