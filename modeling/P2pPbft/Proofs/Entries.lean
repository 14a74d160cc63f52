/-
Log entries, and what every one of them satisfies.

A section writes at most one log entry, in one of six ways, or drops those a new
stable checkpoint covers.  `Transition.entry` reads an entry back to the write that
made it and `Transition.kept` follows one forward; between them no proof about
entries has to look at the handlers again.

`WellFormed` is what holds of every log whatever arrives, forged or not.
-/
import P2pPbft.Proofs.Issued

namespace P2pPbft

/-- The instance holds a prepared certificate: it is prepared or committed. -/
def ConsensusInstance.isPrepared (inst : ConsensusInstance) : Prop :=
  inst.phase = .prepared ∨ inst.phase = .committed

theorem PbftState.lookup_of_isPrepared {st : PbftState} {s : SequenceNumber}
    (h : (st.instanceAt s).isPrepared) : st.log.lookup s = some (st.instanceAt s) := by
  refine (st.instanceAt_cases s).resolve_right fun hnew => ?_
  rw [hnew] at h
  exact absurd h (by simp [ConsensusInstance.isPrepared, ConsensusInstance.new])

namespace PbftState

@[simp] theorem setInstance_fields (st : PbftState) (s : SequenceNumber)
    (inst : ConsensusInstance) :
    (st.setInstance s inst).nodeId = st.nodeId ∧ (st.setInstance s inst).view = st.view ∧
      (st.setInstance s inst).sequence = st.sequence ∧
      (st.setInstance s inst).lowWatermark = st.lowWatermark ∧
      (st.setInstance s inst).stableCheckpoint = st.stableCheckpoint ∧
      (st.setInstance s inst).executed = st.executed :=
  ⟨rfl, rfl, rfl, rfl, rfl, rfl⟩

theorem lookup_setInstance_cases {st : PbftState} {s s' : SequenceNumber}
    {inst inst' : ConsensusInstance} (h : (st.setInstance s inst).log.lookup s' = some inst') :
    st.log.lookup s' = some inst' ∨ s' = s ∧ inst' = inst :=
  (Table.lookup_insert_cases h).symm.imp And.right id

end PbftState

private theorem signer_insert {s : SequenceNumber} {prepares : Table NodeId Prepare}
    (h : ∀ id p, prepares.lookup id = some p → p.replicaId = id ∧ p.sequence = s)
    (prepare : Prepare) (hs : prepare.sequence = s) (id : NodeId) (p : Prepare)
    (hp : (prepares.insert prepare.replicaId prepare).lookup id = some p) :
    p.replicaId = id ∧ p.sequence = s :=
  Table.forall_insert (P := fun id p => p.replicaId = id ∧ p.sequence = s) h ⟨rfl, hs⟩ hp

variable [Crypto]

theorem PbftState.proposed_eq (st : PbftState) (request : Request) :
    st.proposed request =
      { st.setInstance (st.sequence + 1)
          (st.recorded (st.proposal (st.sequence + 1) request)
            (st.ownPrepare st.view (st.sequence + 1) request.digest)) with
        sequence := st.sequence + 1 } := by
  unfold proposed
  rw [record_eq]
  rfl

/-- The ways a section writes the log entry under `s`. -/
inductive EntryStep (st : PbftState) :
    Section → Outcome → SequenceNumber → ConsensusInstance → Prop
  | propose (request : Request) (h : st.Proposes request) (out : Outcome)
      (hstate : out.state = st.proposed request)
      (hsends : out.sends = [.broadcast (.prePrepare (st.proposal (st.sequence + 1) request)),
        .broadcast (.prepare (st.ownPrepare st.view (st.sequence + 1) request.digest))]) :
      EntryStep st (.handleRequest request) out (st.sequence + 1)
        (st.recorded (st.proposal (st.sequence + 1) request)
          (st.ownPrepare st.view (st.sequence + 1) request.digest))
  | accept (pp : PrePrepare) (h : st.AcceptsPrePrepare pp) (out : Outcome)
      (hvotes : votes out.sends = [st.ownPrepare pp.view pp.sequence pp.digest]) :
      EntryStep st (.handlePrePrepare pp) out pp.sequence
        (st.recorded pp (st.ownPrepare pp.view pp.sequence pp.digest))
  | storePrepare (prepare : Prepare) (h : st.AcceptsPrepare prepare) (out : Outcome) :
      EntryStep st (.handlePrepare prepare) out prepare.sequence
        { st.instanceAt prepare.sequence with
          prepares :=
            (st.instanceAt prepare.sequence).prepares.insert prepare.replicaId prepare }
  | prepared (s : SequenceNumber) (inst : ConsensusInstance) (digest : Hash)
      (hlookup : st.log.lookup s = some inst) (hpp : inst.prePrepare.isSome)
      (hphase : inst.phase = .prePrepared) (hquorum : st.config.quorum ≤ inst.prepares.keys.card)
      (hdigest : inst.digest = some digest) (out : Outcome) :
      EntryStep st (.tryAdvanceToPrepared s) out s
        { inst with
          phase := .prepared
          commits := inst.commits.insert st.nodeId (st.ownCommit inst s digest) }
  | storeCommit (commit : Commit) (h : st.AcceptsCommit commit) (out : Outcome) :
      EntryStep st (.handleCommit commit) out commit.sequence
        { st.instanceAt commit.sequence with
          commits := (st.instanceAt commit.sequence).commits.insert commit.replicaId commit }
  | committed (s : SequenceNumber) (inst : ConsensusInstance)
      (hlookup : st.log.lookup s = some inst) (hphase : inst.phase = .prepared)
      (hquorum : st.config.quorum ≤ inst.commits.keys.card) (out : Outcome)
      (hdone : ∀ request, inst.request = some request → request.digest ∈ out.state.executed) :
      EntryStep st (.tryAdvanceToCommitted s) out s { inst with phase := .committed }

section

variable {st : PbftState} {now : Instant} {sec : Section} {out : Outcome}

/-! ### The parts of the state no entry is in -/

/-- Who a replica is, who the others are and how it is configured never changes. -/
theorem Transition.static (h : Transition st now sec out) :
    out.state.nodeId = st.nodeId ∧ out.state.keypair = st.keypair ∧
      out.state.replicas = st.replicas ∧ out.state.config = st.config := by
  cases h with
  | propose request h => simp [PbftState.proposed_eq, PbftState.setInstance]
  | accept pp h => simp [PbftState.record_eq, PbftState.setInstance]
  | _ => exact ⟨rfl, rfl, rfl, rfl⟩

theorem Signs.step {issued : List Send} (hsigns : Signs st issued) (h : Transition st now sec out) :
    Signs out.state (issued ++ out.sends) where
  broadcast := by
    intro message hsend claim hclaim
    rw [PbftState.sign, h.static.1, h.static.2.1]
    rcases List.mem_append.mp hsend with hold | hnew
    · exact hsigns.broadcast message hold claim hclaim
    · exact h.claims hnew hclaim
  sendTo := by
    intro target message hsend
    rcases List.mem_append.mp hsend with hold | hnew
    · exact hsigns.sendTo target message hold
    · exact h.sendTo hnew

theorem Transition.executed_subset (h : Transition st now sec out) :
    st.executed ⊆ out.state.executed := by
  rcases h.deliveries with ⟨-, h⟩ | ⟨s, inst, request, -, -, -, -, h, -⟩
  · rw [h]
  · rw [h]
    exact Finset.subset_insert _ _

/-- The view moves when a new view arrives, and only forward. -/
theorem Transition.view (h : Transition st now sec out) :
    out.state.view = st.view ∨
      ∃ nv, sec = .handleNewView nv ∧ st.view < nv.newView ∧ out.state.view = nv.newView := by
  cases h with
  | propose request h => exact Or.inl (by simp [PbftState.proposed_eq])
  | accept pp h => exact Or.inl (by simp [PbftState.record_eq])
  | enterView nv hnew => exact Or.inr ⟨nv, rfl, hnew, rfl⟩
  | _ => exact Or.inl rfl

/-- The counter moves by one, and only when a request is handled. -/
theorem Transition.sequence (h : Transition st now sec out) :
    out.state.sequence = st.sequence ∨
      ∃ request, sec = .handleRequest request ∧ out.state.sequence = st.sequence + 1 := by
  cases h with
  | propose request h => exact Or.inr ⟨request, rfl, by simp [PbftState.proposed_eq]⟩
  | refuse request hprimary hfresh h => exact Or.inr ⟨request, rfl, rfl⟩
  | accept pp h => exact Or.inl (by simp [PbftState.record_eq])
  | _ => exact Or.inl rfl

/-- The window stays, or a stable checkpoint moves it up to its number. -/
theorem Transition.window (h : Transition st now sec out) :
    (out.state.lowWatermark = st.lowWatermark ∧
        out.state.stableCheckpoint = st.stableCheckpoint ∧
        out.state.highWatermark = st.highWatermark) ∨
      ∃ checkpoint, sec = .handleCheckpoint checkpoint ∧
        st.config.quorum ≤ (st.addCheckpoint checkpoint).keys.card ∧
        st.stableCheckpoint < checkpoint.sequence ∧
        out.state = (st.countCheckpoint checkpoint).stabilize checkpoint.sequence := by
  cases h with
  | propose request h => exact Or.inl (by simp [PbftState.proposed_eq, PbftState.setInstance])
  | accept pp h => exact Or.inl (by simp [PbftState.record_eq, PbftState.setInstance])
  | stabilize checkpoint hquorum hnew => exact Or.inr ⟨checkpoint, rfl, hquorum, hnew, rfl⟩
  | _ => exact Or.inl ⟨rfl, rfl, rfl⟩

/-! ### Entries, backward and forward -/

/-- **An entry after a section was there before, or the section wrote it.** -/
theorem Transition.entry (h : Transition st now sec out) {s : SequenceNumber}
    {inst : ConsensusInstance} (hlookup : out.state.log.lookup s = some inst) :
    st.log.lookup s = some inst ∨ EntryStep st sec out s inst := by
  cases h with
  | propose request h =>
      rw [Outcome.proceed_state, PbftState.proposed_eq] at hlookup
      rcases PbftState.lookup_setInstance_cases hlookup with hold | ⟨rfl, rfl⟩
      · exact Or.inl hold
      · exact Or.inr (EntryStep.propose request h _ rfl rfl)
  | accept pp h =>
      rw [Outcome.proceed_state, PbftState.record_eq] at hlookup
      rcases PbftState.lookup_setInstance_cases hlookup with hold | ⟨rfl, rfl⟩
      · exact Or.inl hold
      · exact Or.inr (EntryStep.accept pp h _ rfl)
  | storePrepare prepare h =>
      rcases PbftState.lookup_setInstance_cases hlookup with hold | ⟨rfl, rfl⟩
      · exact Or.inl hold
      · exact Or.inr (EntryStep.storePrepare prepare h _)
  | prepared s' inst' digest hl hpp hphase hquorum hdigest =>
      rcases PbftState.lookup_setInstance_cases hlookup with hold | ⟨rfl, rfl⟩
      · exact Or.inl hold
      · exact Or.inr (EntryStep.prepared _ inst' digest hl hpp hphase hquorum hdigest _)
  | storeCommit commit h =>
      rcases PbftState.lookup_setInstance_cases hlookup with hold | ⟨rfl, rfl⟩
      · exact Or.inl hold
      · exact Or.inr (EntryStep.storeCommit commit h _)
  | committed s' inst' hl hphase hquorum hdone =>
      rcases PbftState.lookup_setInstance_cases hlookup with hold | ⟨rfl, rfl⟩
      · exact Or.inl hold
      · exact Or.inr (EntryStep.committed _ inst' hl hphase hquorum _ hdone)
  | executed s' inst' request hl hphase hquorum hrequest hfresh =>
      rcases PbftState.lookup_setInstance_cases hlookup with hold | ⟨rfl, rfl⟩
      · exact Or.inl hold
      · refine Or.inr (EntryStep.committed _ inst' hl hphase hquorum _ fun request' h' => ?_)
        rw [hrequest] at h'
        obtain rfl := Option.some.inj h'
        exact Finset.mem_insert_self _ _
  | stabilize checkpoint hquorum hnew =>
      exact Or.inl (Table.lookup_retain_eq_some.mp hlookup).2
  | _ => exact Or.inl hlookup

/-- **An entry stays or is written over, unless a new stable checkpoint covers it.** -/
theorem Transition.kept (h : Transition st now sec out) {s : SequenceNumber}
    {inst : ConsensusInstance} (hlookup : st.log.lookup s = some inst) :
    (∃ inst', out.state.log.lookup s = some inst' ∧
        (inst' = inst ∨ EntryStep st sec out s inst')) ∨
      (out.state.log.lookup s = none ∧ s ≤ out.state.lowWatermark ∧
        s ≤ out.state.stableCheckpoint ∧ ∃ checkpoint, sec = .handleCheckpoint checkpoint) := by
  cases hout : out.state.log.lookup s with
  | some inst' =>
      refine Or.inl ⟨inst', rfl, ?_⟩
      rcases h.entry hout with hold | hwrite
      · rw [hlookup] at hold
        exact Or.inl (Option.some.inj hold).symm
      · exact Or.inr hwrite
  | none =>
      refine Or.inr ⟨rfl, ?_⟩
      -- Only dropping entries can make one disappear.
      have hset : ∀ (s' : SequenceNumber) (inst' : ConsensusInstance),
          (st.setInstance s' inst').log.lookup s ≠ none := by
        intro s' inst' hnone
        rw [PbftState.lookup_setInstance] at hnone
        by_cases hs : s = s'
        · rw [if_pos hs] at hnone
          exact absurd hnone (by simp)
        · rw [if_neg hs, hlookup] at hnone
          exact absurd hnone (by simp)
      cases h with
      | propose request h =>
          rw [Outcome.proceed_state, PbftState.proposed_eq] at hout
          exact absurd hout (hset _ _)
      | accept pp h =>
          rw [Outcome.proceed_state, PbftState.record_eq] at hout
          exact absurd hout (hset _ _)
      | stabilize checkpoint hquorum hnew =>
          have hs : s ≤ checkpoint.sequence := by
            refine UInt64.not_lt.mp fun hlt => ?_
            have hkeep : ((st.countCheckpoint checkpoint).stabilize checkpoint.sequence).log.lookup s
                = some inst :=
              Table.lookup_retain_eq_some.mpr ⟨decide_eq_true hlt, hlookup⟩
            rw [Outcome.stop_state, hkeep] at hout
            exact absurd hout (by simp)
          exact ⟨hs, hs, checkpoint, rfl⟩
      | storePrepare prepare h => exact absurd hout (hset _ _)
      | prepared _ _ _ _ _ _ _ _ => exact absurd hout (hset _ _)
      | storeCommit commit h => exact absurd hout (hset _ _)
      | committed _ _ _ _ _ _ => exact absurd hout (hset _ _)
      | executed _ _ _ _ _ _ _ _ => exact absurd hout (hset _ _)
      | _ => exact absurd (hlookup.symm.trans hout) (by simp)

end

/-! ### Well-formed logs -/

/-- What holds of the entry under `s`, given what the replica has issued so far. -/
structure EntryOk (st : PbftState) (issued : List Send) (s : SequenceNumber)
    (inst : ConsensusInstance) : Prop where
  sequence : ∀ pp, inst.prePrepare = some pp → pp.sequence = s
  digest : ∀ pp, inst.prePrepare = some pp → inst.digest = some pp.digest
  request : ∀ pp, inst.prePrepare = some pp → inst.request = some pp.request
  requestDigest : ∀ pp, inst.prePrepare = some pp → pp.request.digest = pp.digest
  primary : ∀ pp, inst.prePrepare = some pp → pp.primaryId = st.replicas.primary pp.view
  voted : ∀ pp, inst.prePrepare = some pp →
    ∃ p ∈ votes issued, p.view = pp.view ∧ p.sequence = s ∧ p.digest = pp.digest
  idle : inst.prePrepare = none → inst.digest = none ∧ inst.request = none ∧ inst.phase = .idle
  signer : ∀ id p, inst.prepares.lookup id = some p → p.replicaId = id ∧ p.sequence = s
  quorum : inst.isPrepared → st.config.quorum ≤ inst.prepares.keys.card
  executed : inst.phase = .committed →
    ∀ request, inst.request = some request → request.digest ∈ st.executed

/-- Every entry is as it should be, and the window starts at the stable checkpoint. -/
structure WellFormed (st : PbftState) (issued : List Send) : Prop where
  entry : ∀ s inst, st.log.lookup s = some inst → EntryOk st issued s inst
  low : st.lowWatermark = st.stableCheckpoint

theorem EntryOk.exists_prePrepare {st : PbftState} {issued : List Send} {s : SequenceNumber}
    {inst : ConsensusInstance} (h : EntryOk st issued s inst) (hprep : inst.isPrepared) :
    ∃ pp, inst.prePrepare = some pp := by
  refine Option.ne_none_iff_exists'.mp fun hnone => ?_
  have hidle := (h.idle hnone).2.2
  rcases hprep with hphase | hphase <;> rw [hphase] at hidle <;> exact Phase.noConfusion hidle

theorem WellFormed.exists_digest {st : PbftState} {issued : List Send} {s : SequenceNumber}
    {inst : ConsensusInstance} (h : WellFormed st issued) (hlookup : st.log.lookup s = some inst)
    (hprep : inst.isPrepared) : ∃ d, inst.digest = some d := by
  obtain ⟨pp, hpp⟩ := (h.entry s inst hlookup).exists_prePrepare hprep
  exact ⟨pp.digest, (h.entry s inst hlookup).digest pp hpp⟩

theorem EntryOk.mono {st st' : PbftState} {issued issued' : List Send} {s : SequenceNumber}
    {inst : ConsensusInstance} (h : EntryOk st issued s inst)
    (hreplicas : st'.replicas = st.replicas) (hconfig : st'.config = st.config)
    (hexecuted : st.executed ⊆ st'.executed) (hissued : votes issued ⊆ votes issued') :
    EntryOk st' issued' s inst where
  sequence := h.sequence
  digest := h.digest
  request := h.request
  requestDigest := h.requestDigest
  primary := by rw [hreplicas]; exact h.primary
  voted := fun pp hpp => by
    obtain ⟨p, hp, heq⟩ := h.voted pp hpp
    exact ⟨p, hissued hp, heq⟩
  idle := h.idle
  signer := h.signer
  quorum := by rw [hconfig]; exact h.quorum
  executed := fun hphase request hrequest => hexecuted (h.executed hphase request hrequest)

theorem entryOk_new {st : PbftState} {issued : List Send} {s : SequenceNumber}
    (view : ViewNumber) : EntryOk st issued s (ConsensusInstance.new s view) where
  sequence := fun _ h => absurd h (by simp [ConsensusInstance.new])
  digest := fun _ h => absurd h (by simp [ConsensusInstance.new])
  request := fun _ h => absurd h (by simp [ConsensusInstance.new])
  requestDigest := fun _ h => absurd h (by simp [ConsensusInstance.new])
  primary := fun _ h => absurd h (by simp [ConsensusInstance.new])
  voted := fun _ h => absurd h (by simp [ConsensusInstance.new])
  idle := fun _ => ⟨rfl, rfl, rfl⟩
  signer := fun _ _ h => absurd h (by simp [ConsensusInstance.new])
  quorum := fun h => absurd h (by simp [ConsensusInstance.isPrepared, ConsensusInstance.new])
  executed := fun h => absurd h (by simp [ConsensusInstance.new])

theorem WellFormed.instanceAt {st : PbftState} {issued : List Send} (h : WellFormed st issued)
    (s : SequenceNumber) : EntryOk st issued s (st.instanceAt s) := by
  rcases st.instanceAt_cases s with hlookup | hnew
  · exact h.entry s _ hlookup
  · rw [hnew]
    exact entryOk_new st.view

theorem wellFormed_new (nodeId : NodeId) (keypair : KeyPair) (replicas : Replicas)
    (config : PbftConfig) (now : Instant) :
    WellFormed (PbftState.new nodeId keypair replicas config now) [] where
  entry := fun s inst h => absurd h (by simp [PbftState.new])
  low := rfl

section

variable {st : PbftState} {issued : List Send} {now : Instant} {sec : Section} {out : Outcome}

private theorem entryOk_recorded (hwf : WellFormed st issued) (pp : PrePrepare) {st' : PbftState}
    {issued' : List Send} (hdigest : pp.request.digest = pp.digest)
    (hprimary : pp.primaryId = st'.replicas.primary pp.view)
    (hvoted : st.ownPrepare pp.view pp.sequence pp.digest ∈ votes issued') :
    EntryOk st' issued' pp.sequence
      (st.recorded pp (st.ownPrepare pp.view pp.sequence pp.digest)) where
  sequence := fun pp' h => by obtain rfl := Option.some.inj h; rfl
  digest := fun pp' h => by obtain rfl := Option.some.inj h; rfl
  request := fun pp' h => by obtain rfl := Option.some.inj h; rfl
  requestDigest := fun pp' h => by obtain rfl := Option.some.inj h; exact hdigest
  primary := fun pp' h => by obtain rfl := Option.some.inj h; exact hprimary
  voted := fun pp' h => by
    obtain rfl := Option.some.inj h
    exact ⟨_, hvoted, rfl, rfl, rfl⟩
  idle := fun h => absurd h (by simp [PbftState.recorded])
  signer := signer_insert (hwf.instanceAt pp.sequence).signer
    (st.ownPrepare pp.view pp.sequence pp.digest) rfl
  quorum := fun h => absurd h (by simp [ConsensusInstance.isPrepared, PbftState.recorded])
  executed := fun h => absurd h (by simp [PbftState.recorded])

private theorem entryOk_stored {s : SequenceNumber} {inst : ConsensusInstance}
    (h : EntryOk st issued s inst) (prepares : Table NodeId Prepare)
    (commits : Table NodeId Commit)
    (hsigner : ∀ id p, prepares.lookup id = some p → p.replicaId = id ∧ p.sequence = s)
    (hcard : inst.prepares.keys.card ≤ prepares.keys.card) :
    EntryOk st issued s { inst with prepares := prepares, commits := commits } where
  sequence := h.sequence
  digest := h.digest
  request := h.request
  requestDigest := h.requestDigest
  primary := h.primary
  voted := h.voted
  idle := h.idle
  signer := hsigner
  quorum := fun hprep => (h.quorum hprep).trans hcard
  executed := h.executed

private theorem entryOk_phase {s : SequenceNumber} {inst : ConsensusInstance}
    (h : EntryOk st issued s inst) (phase : Phase) (commits : Table NodeId Commit)
    (hpp : inst.prePrepare.isSome) (hquorum : st.config.quorum ≤ inst.prepares.keys.card)
    (hexecuted : phase = .committed →
      ∀ request, inst.request = some request → request.digest ∈ st.executed) :
    EntryOk st issued s { inst with phase := phase, commits := commits } where
  sequence := h.sequence
  digest := h.digest
  request := h.request
  requestDigest := h.requestDigest
  primary := h.primary
  voted := h.voted
  idle := fun hnone => absurd hpp (by simpa using hnone)
  signer := h.signer
  quorum := fun _ => hquorum
  executed := hexecuted

/-- **Every section keeps the log well formed.** -/
theorem WellFormed.step (hwf : WellFormed st issued) (h : Transition st now sec out) :
    WellFormed out.state (issued ++ out.sends) where
  entry := by
    intro s inst hlookup
    obtain ⟨-, -, hreplicas, hconfig⟩ := h.static
    have hgrow : ∀ {s inst}, EntryOk st issued s inst →
        EntryOk out.state (issued ++ out.sends) s inst := fun hok =>
      hok.mono hreplicas hconfig h.executed_subset (by simp)
    rcases h.entry hlookup with hold | hwrite
    · exact hgrow (hwf.entry s inst hold)
    cases hwrite with
    | propose request hp _ hstate hsends =>
        refine entryOk_recorded hwf (st.proposal (st.sequence + 1) request) rfl
          (by rw [hreplicas]; exact hp.primary.symm) ?_
        rw [votes_append, hsends]
        exact List.mem_append_right _ (List.mem_singleton.mpr rfl)
    | accept pp hp _ hvotes =>
        exact entryOk_recorded hwf pp hp.digest
          (by rw [hreplicas, hp.view]; exact hp.primary) (by simp [hvotes])
    | storePrepare prepare hp =>
        have hok := hwf.instanceAt prepare.sequence
        exact hgrow (entryOk_stored hok _ _ (signer_insert hok.signer prepare rfl)
          (Table.card_keys_le_insert _ _ _))
    | prepared s inst digest hl hpp hphase hquorum hdigest =>
        exact hgrow (entryOk_phase (hwf.entry s inst hl) _ _ hpp hquorum (by simp))
    | storeCommit commit hc =>
        have hok := hwf.instanceAt commit.sequence
        exact hgrow (entryOk_stored hok _ _ hok.signer le_rfl)
    | committed s inst hl hphase hquorum _ hdone =>
        have hok := hgrow (hwf.entry s inst hl)
        have hprep : inst.isPrepared := Or.inl hphase
        obtain ⟨pp, hpp⟩ := hok.exists_prePrepare hprep
        exact entryOk_phase hok _ _ (by simp [hpp]) (hok.quorum hprep) (fun _ => hdone)
  low := by
    rcases h.window with ⟨hlow, hstable, -⟩ | ⟨checkpoint, -, -, -, hst⟩
    · rw [hlow, hstable, hwf.low]
    · rw [hst]
      rfl

end

end P2pPbft
