/-
What a log entry stands for.

Every section that writes an instance writes a part of it: a primary that proposes and
a backup that accepts fill it in, the handlers of votes add to its tables, possibly
before anything else is there, and the cascade moves its phase.  `WellFormed` has what
the pre-prepare says about the rest.  Here is what the phase says, and whose votes are
under which key; together they are all that a reader of the log may rely on, and all
that the two calls of `unwrap` in the cascade do rely on.
-/
import P2pPbft.Proofs.NormalCase

namespace P2pPbft

/-- What holds of the instance under `s` besides what its pre-prepare says. -/
structure ConsensusInstance.Tracked (st : PbftState) (s : SequenceNumber)
    (inst : ConsensusInstance) : Prop where
  sequence : inst.sequence = s
  view : inst.view ≤ st.view
  active : inst.prePrepare.isSome → inst.phase ≠ .idle
  prepares : ∀ id p, inst.prepares.lookup id = some p → p.view ≤ st.view
  commits : ∀ id c, inst.commits.lookup id = some c →
    c.replicaId = id ∧ c.sequence = s ∧ c.view ≤ st.view
  ownPrepare : inst.phase ≠ .idle → st.nodeId ∈ inst.prepares.keys
  ownCommit : inst.isPrepared → st.nodeId ∈ inst.commits.keys
  quorum : inst.phase = .committed → st.config.quorum ≤ inst.commits.keys.card

/-- Every entry of the log is tracked. -/
def PbftState.Tracked (st : PbftState) : Prop :=
  ∀ s inst, st.log.lookup s = some inst → inst.Tracked st s

namespace ConsensusInstance.Tracked

variable {st st' : PbftState} {s : SequenceNumber} {inst : ConsensusInstance}

theorem mono (h : inst.Tracked st s) (hnodeId : st'.nodeId = st.nodeId)
    (hconfig : st'.config = st.config) (hview : st.view ≤ st'.view) : inst.Tracked st' s where
  sequence := h.sequence
  view := UInt64.le_trans h.view hview
  active := h.active
  prepares := fun id p hp => UInt64.le_trans (h.prepares id p hp) hview
  commits := fun id c hc =>
    ⟨(h.commits id c hc).1, (h.commits id c hc).2.1, UInt64.le_trans (h.commits id c hc).2.2 hview⟩
  ownPrepare := by rw [hnodeId]; exact h.ownPrepare
  ownCommit := by rw [hnodeId]; exact h.ownCommit
  quorum := by rw [hconfig]; exact h.quorum

theorem storePrepare (h : inst.Tracked st s) (id : NodeId) (p : Prepare) (hview : p.view ≤ st.view) :
    { inst with prepares := inst.prepares.insert id p }.Tracked st s where
  sequence := h.sequence
  view := h.view
  active := h.active
  prepares := fun _ _ hp =>
    Table.forall_insert (P := fun _ p => p.view ≤ st.view) h.prepares hview hp
  commits := h.commits
  ownPrepare := fun hphase => by
    rw [Table.keys_insert]
    exact Finset.mem_insert_of_mem (h.ownPrepare hphase)
  ownCommit := h.ownCommit
  quorum := h.quorum

theorem storeCommit (h : inst.Tracked st s) {c : Commit} (hs : c.sequence = s)
    (hview : c.view ≤ st.view) :
    { inst with commits := inst.commits.insert c.replicaId c }.Tracked st s where
  sequence := h.sequence
  view := h.view
  active := h.active
  prepares := h.prepares
  commits := fun _ _ hc =>
    Table.forall_insert (P := fun id c => c.replicaId = id ∧ c.sequence = s ∧ c.view ≤ st.view)
      h.commits ⟨rfl, hs, hview⟩ hc
  ownPrepare := h.ownPrepare
  ownCommit := fun hprep => by
    rw [Table.keys_insert]
    exact Finset.mem_insert_of_mem (h.ownCommit hprep)
  quorum := fun hphase => (h.quorum hphase).trans (Table.card_keys_le_insert _ _ _)

/-- A later phase, once our own votes and a quorum are there. -/
theorem advance (h : inst.Tracked st s) (phase : Phase) (hphase : inst.phase ≠ .idle)
    (hnext : phase ≠ .idle) (hown : st.nodeId ∈ inst.commits.keys)
    (hquorum : phase = .committed → st.config.quorum ≤ inst.commits.keys.card) :
    { inst with phase := phase }.Tracked st s where
  sequence := h.sequence
  view := h.view
  active := fun _ => hnext
  prepares := h.prepares
  commits := h.commits
  ownPrepare := fun _ => h.ownPrepare hphase
  ownCommit := fun _ => hown
  quorum := hquorum

end ConsensusInstance.Tracked

theorem ConsensusInstance.tracked_new (st : PbftState) (s : SequenceNumber) :
    (ConsensusInstance.new s st.view).Tracked st s where
  sequence := rfl
  view := UInt64.le_refl _
  active := fun h => absurd h (by simp [new])
  prepares := fun _ _ h => absurd h (by simp [new])
  commits := fun _ _ h => absurd h (by simp [new])
  ownPrepare := fun h => absurd rfl h
  ownCommit := fun h => absurd h (by simp [isPrepared, new])
  quorum := fun h => absurd h (by simp [new])

theorem PbftState.Tracked.instanceAt {st : PbftState} (h : st.Tracked) (s : SequenceNumber) :
    (st.instanceAt s).Tracked st s := by
  rcases st.instanceAt_cases s with hlookup | hnew
  · exact h s _ hlookup
  · rw [hnew]
    exact ConsensusInstance.tracked_new st s

theorem PbftState.tracked_new (nodeId : NodeId) (keypair : KeyPair) (replicas : Replicas)
    (config : PbftConfig) (now : Instant) :
    (PbftState.new nodeId keypair replicas config now).Tracked :=
  fun s inst h => absurd h (by simp [PbftState.new])

section

variable [Crypto]

section

variable {st : PbftState} {now : Instant} {sec : Section} {out : Outcome}

private theorem tracked_recorded (h : st.Tracked) (pp : PrePrepare) (hview : pp.view ≤ st.view) :
    (st.recorded pp (st.ownPrepare pp.view pp.sequence pp.digest)).Tracked st pp.sequence where
  sequence := (h.instanceAt pp.sequence).sequence
  view := (h.instanceAt pp.sequence).view
  active := fun _ => Phase.noConfusion
  prepares := ((h.instanceAt pp.sequence).storePrepare st.nodeId
    (st.ownPrepare pp.view pp.sequence pp.digest) hview).prepares
  commits := (h.instanceAt pp.sequence).commits
  ownPrepare := fun _ => by
    show st.nodeId ∈ ((st.instanceAt pp.sequence).prepares.insert st.nodeId _).keys
    rw [Table.keys_insert]
    exact Finset.mem_insert_self _ _
  ownCommit := fun h => absurd h (by simp [ConsensusInstance.isPrepared, PbftState.recorded])
  quorum := fun h => absurd h (by simp [PbftState.recorded])

theorem Transition.view_le (h : Transition st now sec out) : st.view ≤ out.state.view := by
  rcases h.view with hsame | ⟨nv, -, hnew, hview⟩
  · rw [hsame]
    exact UInt64.le_refl _
  · rw [hview]
    exact UInt64.le_of_lt hnew

/-- **Every section keeps the entries tracked.** -/
theorem PbftState.Tracked.step (h : st.Tracked) (ht : Transition st now sec out) :
    out.state.Tracked := by
  intro s inst hlookup
  suffices hbefore : inst.Tracked st s from
    hbefore.mono ht.static.1 ht.static.2.2.2 ht.view_le
  rcases ht.entry hlookup with hold | hwrite
  · exact h s inst hold
  cases hwrite with
  | propose request hp _ _ _ =>
      exact tracked_recorded h (st.proposal (st.sequence + 1) request) (UInt64.le_refl _)
  | accept pp hp _ _ => exact tracked_recorded h pp (by rw [hp.view]; exact UInt64.le_refl _)
  | storePrepare prepare hp _ =>
      exact (h.instanceAt prepare.sequence).storePrepare _ _ (by rw [hp.view]; exact UInt64.le_refl _)
  | prepared s inst digest hl _ hphase _ _ _ =>
      have hbase := h s inst hl
      have hstored := hbase.storeCommit (c := st.ownCommit inst s digest) rfl hbase.view
      refine hstored.advance .prepared ?_ Phase.noConfusion ?_ Phase.noConfusion
      · show inst.phase ≠ .idle
        rw [hphase]
        exact Phase.noConfusion
      · show st.nodeId ∈ (inst.commits.insert st.nodeId _).keys
        rw [Table.keys_insert]
        exact Finset.mem_insert_self _ _
  | storeCommit commit hc _ =>
      exact (h.instanceAt commit.sequence).storeCommit rfl
        (by rw [hc.view]; exact UInt64.le_refl _)
  | committed s inst hl hphase hquorum _ _ =>
      have hbase := h s inst hl
      refine hbase.advance .committed ?_ Phase.noConfusion (hbase.ownCommit (Or.inl hphase)) fun _ => hquorum
      rw [hphase]
      exact Phase.noConfusion

end

/--
The instance under `s` in the log of a replica: its fields are all there or none is, they
say the same, the votes are under the names of their senders, and the phase is one that
the votes allow.
-/
structure ConsensusInstance.Represents (st : PbftState) (s : SequenceNumber)
    (inst : ConsensusInstance) : Prop where
  sequence : inst.sequence = s
  present : inst.phase ≠ .idle ↔
    inst.prePrepare.isSome ∧ inst.request.isSome ∧ inst.digest.isSome
  absent : inst.phase = .idle →
    inst.prePrepare = none ∧ inst.request = none ∧ inst.digest = none
  content : ∀ pp, inst.prePrepare = some pp → pp.sequence = s ∧
    inst.request = some pp.request ∧ inst.digest = some pp.digest ∧
      pp.request.digest = pp.digest
  prepares : ∀ id p, inst.prepares.lookup id = some p →
    p.replicaId = id ∧ p.sequence = s ∧ p.view ≤ st.view
  commits : ∀ id c, inst.commits.lookup id = some c →
    c.replicaId = id ∧ c.sequence = s ∧ c.view ≤ st.view
  ownPrepare : inst.phase ≠ .idle → st.nodeId ∈ inst.prepares.keys
  prepared : inst.phase = .prepared ∨ inst.phase = .committed →
    st.config.quorum ≤ inst.prepares.keys.card ∧ st.nodeId ∈ inst.commits.keys
  committed : inst.phase = .committed → st.config.quorum ≤ inst.commits.keys.card ∧
    ∃ d ∈ inst.digest, d ∈ st.executed

theorem ConsensusInstance.Tracked.represents {st : PbftState} {issued : List Send}
    {s : SequenceNumber} {inst : ConsensusInstance} (h : inst.Tracked st s)
    (hok : EntryOk st issued s inst) : inst.Represents st s where
  sequence := h.sequence
  present := by
    constructor
    · intro hphase
      obtain ⟨pp, hpp⟩ : ∃ pp, inst.prePrepare = some pp :=
        Option.ne_none_iff_exists'.mp fun hnone => hphase (hok.idle hnone).2.2
      rw [hpp, hok.request pp hpp, hok.digest pp hpp]
      exact ⟨rfl, rfl, rfl⟩
    · intro hpresent
      exact h.active hpresent.1
  absent := by
    intro hphase
    have hnone : inst.prePrepare = none := by
      by_contra hpp
      exact h.active (Option.isSome_iff_ne_none.mpr hpp) hphase
    exact ⟨hnone, (hok.idle hnone).2.1, (hok.idle hnone).1⟩
  content := fun pp hpp => ⟨hok.sequence pp hpp, hok.request pp hpp, hok.digest pp hpp,
    hok.requestDigest pp hpp⟩
  prepares := fun id p hp => ⟨(hok.signer id p hp).1, (hok.signer id p hp).2, h.prepares id p hp⟩
  commits := h.commits
  ownPrepare := h.ownPrepare
  prepared := fun hprep => ⟨hok.quorum hprep, h.ownCommit hprep⟩
  committed := by
    intro hphase
    obtain ⟨pp, hpp⟩ := hok.exists_prePrepare (Or.inr hphase)
    refine ⟨h.quorum hphase, pp.digest, hok.digest pp hpp, ?_⟩
    rw [← hok.requestDigest pp hpp]
    exact hok.executed hphase pp.request (hok.request pp hpp)

namespace Replica

variable {nodeId : NodeId} {keypair : KeyPair} {replicas : Replicas} {config : PbftConfig}
  {now : Instant} {as : List Action} {r : Replica}

theorem tracked_of_run {rules : Replica → Action → Prop} {r₀ : Replica}
    (h : Run (Next rules) r₀ as r) (h₀ : r₀.state.Tracked) : r.state.Tracked :=
  h.state_invariant (I := fun r => r.state.Tracked) h₀
    fun htracked hstep => keep (I := fun st _ => st.Tracked) hstep.2 htracked
      fun _ ht => htracked.step ht

/--
**The log always represents instances**, whatever a replica is sent, in every interleaving
of its handlers; and so neither of the two sections of the cascade panics.
-/
theorem log_represents
    (h : Run (Next fun _ _ => True) (new (PbftState.new nodeId keypair replicas config now)) as r) :
    (∀ s inst, r.state.log.lookup s = some inst → inst.Represents r.state s) ∧
      ∀ s, (r.state.tryAdvanceToPrepared s).result ≠ .panic ∧
        (r.state.tryAdvanceToCommitted s).result ≠ .panic := by
  have hsound := sound_of_run h (sound_new nodeId keypair replicas config now)
  have htracked := tracked_of_run h (PbftState.tracked_new nodeId keypair replicas config now)
  refine ⟨fun s inst hlookup => ?_, fun s => ⟨?_, ?_⟩⟩
  · exact (htracked s inst hlookup).represents (hsound.wellFormed.entry s inst hlookup)
  · rw [PbftState.tryAdvanceToPrepared_ok fun inst hlookup hpp => ?_]
    · exact Result.noConfusion
    · obtain ⟨pp, hpp⟩ := Option.isSome_iff_exists.mp hpp
      rw [(hsound.wellFormed.entry s inst hlookup).digest pp hpp]
      rfl
  · rw [PbftState.tryAdvanceToCommitted_ok s]
    exact Result.noConfusion

end Replica

end

namespace Replica

open Sample in
/-- A backup that has committed the first request. -/
theorem log_represents_backup :
    ∃ r : Replica, (r.state.instanceAt 1).phase = .committed ∧
      (r.state.instanceAt 1).Represents r.state 1 := by
  obtain ⟨r, hrun, hphase⟩ := exists_run (fun _ _ => True)
    (new ((cluster 1).initState (node 1))) backupCommits
    (fun r => (r.state.instanceAt 1).phase = .committed) (by decide +kernel)
  have hlookup := PbftState.lookup_of_isPrepared (Or.inr hphase)
  exact ⟨r, hphase, (log_represents hrun).1 1 _ hlookup⟩

end Replica

end P2pPbft
