/-
What a section can do.

The sections of `P2pPbft/Handlers.lean` are nested conditionals.  `Transition` is the same
thing read the other way round: one constructor for each kind of change, with
everything the code has checked by the time it makes it.  `run_transition` is the
only place that opens the sections up; an invariant is proved by going through
the constructors.

`stay` covers every early return that leaves the state as it was.
-/
import P2pPbft.Replica
import Mathlib.Tactic.MkIffOfInductiveProp

namespace P2pPbft

namespace PbftState

/-! ### Log entries -/

/-- The instance under a number, or the one that would be created there. -/
def instanceAt (st : PbftState) (sequence : SequenceNumber) : ConsensusInstance :=
  (st.log.lookup sequence).getD (ConsensusInstance.new sequence st.view)

theorem instanceAt_of_lookup {st : PbftState} {s : SequenceNumber} {inst : ConsensusInstance}
    (h : st.log.lookup s = some inst) : st.instanceAt s = inst := by
  rw [instanceAt, h, Option.getD_some]

theorem instanceAt_of_none {st : PbftState} {s : SequenceNumber} (h : st.log.lookup s = none) :
    st.instanceAt s = ConsensusInstance.new s st.view := by
  rw [instanceAt, h, Option.getD_none]

theorem instanceAt_cases (st : PbftState) (s : SequenceNumber) :
    st.log.lookup s = some (st.instanceAt s) ∨
      st.instanceAt s = ConsensusInstance.new s st.view := by
  cases hlookup : st.log.lookup s with
  | some inst => exact Or.inl (by rw [instanceAt_of_lookup hlookup])
  | none => exact Or.inr (instanceAt_of_none hlookup)

theorem lookup_of_instanceAt_ne {st : PbftState} {s : SequenceNumber}
    (h : st.instanceAt s ≠ ConsensusInstance.new s st.view) :
    ∃ inst, st.log.lookup s = some inst :=
  ⟨_, (st.instanceAt_cases s).resolve_right h⟩

@[simp] theorem getOrCreateInstance_snd (st : PbftState) (s : SequenceNumber) :
    (st.getOrCreateInstance s).2 = st.instanceAt s := by
  unfold getOrCreateInstance instanceAt
  cases st.log.lookup s <;> rfl

theorem getOrCreateInstance_fst_of_lookup {st : PbftState} {s : SequenceNumber}
    {inst : ConsensusInstance} (h : st.log.lookup s = some inst) :
    (st.getOrCreateInstance s).1 = st := by
  simp only [getOrCreateInstance, h]

/-- Writing the entry makes no difference between creating it first and not. -/
@[simp] theorem getOrCreateInstance_setInstance (st : PbftState) (s : SequenceNumber)
    (inst : ConsensusInstance) :
    (st.getOrCreateInstance s).1.setInstance s inst = st.setInstance s inst := by
  unfold getOrCreateInstance
  cases st.log.lookup s with
  | some _ => rfl
  | none => simp [setInstance]

theorem lookup_setInstance (st : PbftState) (s s' : SequenceNumber) (inst : ConsensusInstance) :
    (st.setInstance s inst).log.lookup s' = if s' = s then some inst else st.log.lookup s' :=
  Table.lookup_insert_eq_if ..

/-- The instance after a pre-prepare has been recorded in it. -/
def recorded (st : PbftState) (prePrepare : PrePrepare) (prepare : Prepare) : ConsensusInstance :=
  { st.instanceAt prePrepare.sequence with
    request := some prePrepare.request
    digest := some prePrepare.digest
    prePrepare := some prePrepare
    phase := .prePrepared
    prepares := (st.instanceAt prePrepare.sequence).prepares.insert st.nodeId prepare }

theorem record_eq (st : PbftState) (prePrepare : PrePrepare) (prepare : Prepare) :
    st.record prePrepare prepare
      = st.setInstance prePrepare.sequence (st.recorded prePrepare prepare) := by
  simp [record, recorded]

end PbftState

/-! ### The transitions -/

variable [Crypto]

/-- The checks a prepare has passed once it gets to the vote table. -/
@[mk_iff]
structure PbftState.AcceptsPrepare (st : PbftState) (prepare : Prepare) : Prop where
  view : prepare.view = st.view
  low : st.lowWatermark < prepare.sequence
  high : prepare.sequence ≤ st.highWatermark
  signature : verifyNodeSignature prepare.replicaId
    (asBytes (prepareSignData prepare.view prepare.sequence prepare.digest))
    prepare.signature = true
  digest : ∀ pp, (st.instanceAt prepare.sequence).prePrepare = some pp → pp.digest = prepare.digest
  fresh : prepare.replicaId ∉ (st.instanceAt prepare.sequence).prepares

/-- The checks a commit has passed once it gets to the vote table. -/
@[mk_iff]
structure PbftState.AcceptsCommit (st : PbftState) (commit : Commit) : Prop where
  view : commit.view = st.view
  low : st.lowWatermark < commit.sequence
  high : commit.sequence ≤ st.highWatermark
  signature : verifyNodeSignature commit.replicaId
    (asBytes (commitSignData commit.view commit.sequence commit.digest))
    commit.signature = true
  digest : ∀ d, (st.instanceAt commit.sequence).digest = some d → commit.digest = d
  fresh : commit.replicaId ∉ (st.instanceAt commit.sequence).commits

/-- The checks a pre-prepare has passed once it is recorded. -/
@[mk_iff]
structure PbftState.AcceptsPrePrepare (st : PbftState) (prePrepare : PrePrepare) : Prop where
  view : prePrepare.view = st.view
  primary : prePrepare.primaryId = st.primary
  low : st.lowWatermark < prePrepare.sequence
  high : prePrepare.sequence ≤ st.highWatermark
  signature : verifyNodeSignature prePrepare.primaryId
    (asBytes (prepareSignData prePrepare.view prePrepare.sequence prePrepare.digest))
    prePrepare.signature = true
  fresh : ∀ inst, st.log.lookup prePrepare.sequence = some inst → inst.prePrepare = none
  digest : prePrepare.request.digest = prePrepare.digest

/-- The checks after which a primary gives a request the next number. -/
@[mk_iff]
structure PbftState.Proposes (st : PbftState) (request : Request) : Prop where
  primary : st.primary = st.nodeId
  fresh : request.digest ∉ st.executed
  high : st.sequence + 1 ≤ st.highWatermark

instance (st : PbftState) (prepare : Prepare) : Decidable (st.AcceptsPrepare prepare) :=
  decidable_of_iff _ (st.acceptsPrepare_iff prepare).symm

instance (st : PbftState) (commit : Commit) : Decidable (st.AcceptsCommit commit) :=
  decidable_of_iff _ (st.acceptsCommit_iff commit).symm

instance (st : PbftState) (prePrepare : PrePrepare) :
    Decidable (st.AcceptsPrePrepare prePrepare) :=
  decidable_of_iff _ (st.acceptsPrePrepare_iff prePrepare).symm

instance (st : PbftState) (request : Request) : Decidable (st.Proposes request) :=
  decidable_of_iff _ (st.proposes_iff request).symm

/-- The state in which a primary has recorded its proposal. -/
def PbftState.proposed (st : PbftState) (request : Request) : PbftState :=
  let st' := { st with sequence := st.sequence + 1 }
  st'.record (st.proposal (st.sequence + 1) request)
    (st.ownPrepare st.view (st.sequence + 1) request.digest)

/-- The checkpoint we announce for a number. -/
def PbftState.ownCheckpoint (st : PbftState) (sequence : SequenceNumber) : Checkpoint where
  sequence := sequence
  digest := List.Vector.replicate 32 0
  replicaId := st.nodeId
  signature := st.sign (checkpointSignData sequence (List.Vector.replicate 32 0))

/-- The view change we start. -/
def PbftState.ownViewChange (st : PbftState) : ViewChange where
  newView := st.view + 1
  replicaId := st.nodeId
  lastSequence := st.sequence
  signature := st.sign (viewChangeSignData (st.view + 1))

/-- The new view we announce as its primary. -/
def PbftState.ownNewView (st : PbftState) (viewChange : ViewChange) : NewView where
  newView := viewChange.newView
  viewChanges := (st.addViewChange viewChange).values
  primaryId := st.nodeId
  signature := st.sign (newViewSignData viewChange.newView)

/-- The state after a view change message has been counted. -/
def PbftState.countViewChange (st : PbftState) (viewChange : ViewChange) : PbftState :=
  { st with viewChanges := st.viewChanges.insert viewChange.newView (st.addViewChange viewChange) }

/-- The state after a checkpoint message has been counted. -/
def PbftState.countCheckpoint (st : PbftState) (checkpoint : Checkpoint) : PbftState :=
  { st with
    checkpoints := st.checkpoints.insert checkpoint.sequence (st.addCheckpoint checkpoint) }

/-- The state after entering a view. -/
def PbftState.enterView (st : PbftState) (now : Instant) (view : ViewNumber) : PbftState :=
  { st with
    view := view
    viewChanging := false
    lastPrimaryActivity := now
    viewChanges := Table.retain (fun v => view < v) st.viewChanges }

/-- Everything a section can do to the state. -/
inductive Transition (st : PbftState) (now : Instant) : Section → Outcome → Prop
  | stay (sec : Section) (result : Result) : Transition st now sec (.stop st result)
  | forward (request : Request) (h : st.primary ≠ st.nodeId) :
      Transition st now (.handleRequest request)
        (.proceed st [.outgoing (.sendTo st.primary (.consensus (.request request)))] none)
  | refuse (request : Request) (hprimary : st.primary = st.nodeId)
      (hfresh : request.digest ∉ st.executed) (h : st.highWatermark < st.sequence + 1) :
      Transition st now (.handleRequest request)
        (.stop { st with sequence := st.sequence + 1 } (.err .invalidSequence))
  | propose (request : Request) (h : st.Proposes request) :
      Transition st now (.handleRequest request)
        (.proceed (st.proposed request)
          [.broadcast (.prePrepare (st.proposal (st.sequence + 1) request)),
            .broadcast (.prepare (st.ownPrepare st.view (st.sequence + 1) request.digest))]
          (some (.tryAdvanceToPrepared (st.sequence + 1))))
  | accept (pp : PrePrepare) (h : st.AcceptsPrePrepare pp) :
      Transition st now (.handlePrePrepare pp)
        (.proceed
          { st.record pp (st.ownPrepare pp.view pp.sequence pp.digest) with
            lastPrimaryActivity := now }
          [.broadcast (.prepare (st.ownPrepare pp.view pp.sequence pp.digest))]
          (some (.tryAdvanceToPrepared pp.sequence)))
  | storePrepare (prepare : Prepare) (h : st.AcceptsPrepare prepare) :
      Transition st now (.handlePrepare prepare)
        (.proceed
          (st.setInstance prepare.sequence
            { st.instanceAt prepare.sequence with
              prepares := (st.instanceAt prepare.sequence).prepares.insert
                prepare.replicaId prepare })
          [] (some (.tryAdvanceToPrepared prepare.sequence)))
  | prepared (s : SequenceNumber) (inst : ConsensusInstance) (digest : Hash)
      (hlookup : st.log.lookup s = some inst) (hpp : inst.prePrepare.isSome)
      (hphase : inst.phase = .prePrepared) (hquorum : st.config.quorum ≤ inst.prepares.keys.card)
      (hdigest : inst.digest = some digest) :
      Transition st now (.tryAdvanceToPrepared s)
        (.proceed
          (st.setInstance s
            { inst with
              phase := .prepared
              commits := inst.commits.insert st.nodeId (st.ownCommit inst s digest) })
          [.broadcast (.commit (st.ownCommit inst s digest))]
          (some (.tryAdvanceToCommitted s)))
  | storeCommit (commit : Commit) (h : st.AcceptsCommit commit) :
      Transition st now (.handleCommit commit)
        (.proceed
          (st.setInstance commit.sequence
            { st.instanceAt commit.sequence with
              commits := (st.instanceAt commit.sequence).commits.insert
                commit.replicaId commit })
          [] (some (.tryAdvanceToCommitted commit.sequence)))
  | committed (s : SequenceNumber) (inst : ConsensusInstance)
      (hlookup : st.log.lookup s = some inst) (hphase : inst.phase = .prepared)
      (hquorum : st.config.quorum ≤ inst.commits.keys.card)
      (hdone : ∀ request, inst.request = some request → request.digest ∈ st.executed) :
      Transition st now (.tryAdvanceToCommitted s)
        (.stop (st.setInstance s { inst with phase := .committed }) .ok)
  | executed (s : SequenceNumber) (inst : ConsensusInstance) (request : Request)
      (hlookup : st.log.lookup s = some inst) (hphase : inst.phase = .prepared)
      (hquorum : st.config.quorum ≤ inst.commits.keys.card)
      (hrequest : inst.request = some request) (hfresh : request.digest ∉ st.executed) :
      Transition st now (.tryAdvanceToCommitted s)
        (.proceed
          { st.setInstance s { inst with phase := .committed } with
            executed := insert request.digest st.executed }
          [.committed request] (some (.tryCheckpoint s)))
  | announce (s : SequenceNumber) (hinterval : st.config.checkpointInterval ≠ 0)
      (hmod : s % st.config.checkpointInterval = 0) :
      Transition st now (.tryCheckpoint s)
        (.proceed st [.broadcast (.checkpoint (st.ownCheckpoint s))] none)
  | countCheckpoint (checkpoint : Checkpoint) :
      Transition st now (.handleCheckpoint checkpoint) (.stop (st.countCheckpoint checkpoint) .ok)
  | stabilize (checkpoint : Checkpoint)
      (hquorum : st.config.quorum ≤ (st.addCheckpoint checkpoint).keys.card)
      (hnew : st.stableCheckpoint < checkpoint.sequence) :
      Transition st now (.handleCheckpoint checkpoint)
        (.stop ((st.countCheckpoint checkpoint).stabilize checkpoint.sequence) .ok)
  | countViewChange (viewChange : ViewChange) (hnew : st.view < viewChange.newView) :
      Transition st now (.handleViewChange viewChange) (.stop (st.countViewChange viewChange) .ok)
  | announceNewView (viewChange : ViewChange) (hnew : st.view < viewChange.newView)
      (hquorum : st.config.quorum ≤ (st.addViewChange viewChange).keys.card)
      (hprimary : st.replicas.primary viewChange.newView = st.nodeId) :
      Transition st now (.handleViewChange viewChange)
        (.proceed (st.countViewChange viewChange)
          [.broadcast (.newView (st.ownNewView viewChange))] none)
  | enterView (newView : NewView) (hnew : st.view < newView.newView) :
      Transition st now (.handleNewView newView) (.stop (st.enterView now newView.newView) .ok)
  | startViewChange (h : st.viewChanging = false) :
      Transition st now .startViewChange
        (.proceed { st.countViewChange st.ownViewChange with viewChanging := true }
          [.broadcast (.viewChange st.ownViewChange)] none)
  | timeout (h : st.viewChanging = false) :
      Transition st now .checkTimeout (.proceed st [] (some .startViewChange))

namespace Transition

variable {st : PbftState} {now : Instant}

private theorem handleRequest (request : Request) :
    Transition st now (.handleRequest request) (st.handleRequest request) := by
  unfold PbftState.handleRequest PbftState.isPrimary
  by_cases hprimary : st.primary = st.nodeId
  · rw [if_neg (by simpa using hprimary)]
    by_cases hfresh : request.digest ∈ st.executed
    · rw [if_pos hfresh]
      exact stay _ _
    · rw [if_neg hfresh]
      by_cases hhigh : st.highWatermark < st.sequence + 1
      · simp only [hhigh, if_true]
        exact refuse request hprimary hfresh hhigh
      · simp only [hhigh, if_false]
        exact propose request ⟨hprimary, hfresh, UInt64.not_lt.mp hhigh⟩
  · rw [if_pos (by simpa using hprimary)]
    exact forward request hprimary

private theorem acceptPrePrepare (pp : PrePrepare) (hview : pp.view = st.view)
    (hprimary : pp.primaryId = st.primary) (hlow : st.lowWatermark < pp.sequence)
    (hhigh : pp.sequence ≤ st.highWatermark)
    (hsig : verifyNodeSignature pp.primaryId
      (asBytes (prepareSignData pp.view pp.sequence pp.digest)) pp.signature = true)
    (hfresh : ∀ inst, st.log.lookup pp.sequence = some inst → inst.prePrepare = none) :
    Transition st now (.handlePrePrepare pp) (st.acceptPrePrepare now pp) := by
  unfold PbftState.acceptPrePrepare
  by_cases hdigest : pp.request.digest = pp.digest
  · rw [if_neg (by simpa using hdigest)]
    exact accept pp ⟨hview, hprimary, hlow, hhigh, hsig, hfresh, hdigest⟩
  · rw [if_pos hdigest]
    exact stay _ _

private theorem handlePrePrepare (pp : PrePrepare) :
    Transition st now (.handlePrePrepare pp) (st.handlePrePrepare now pp) := by
  unfold PbftState.handlePrePrepare
  split
  · exact stay _ _
  rename_i hview
  split
  · exact stay _ _
  rename_i hprimary
  split
  · exact stay _ _
  rename_i hwindow
  split
  · exact stay _ _
  rename_i hsig
  have hlow : st.lowWatermark < pp.sequence := by grind
  have hhigh : pp.sequence ≤ st.highWatermark := by grind
  split
  · rename_i inst hlookup
    by_cases hpp : inst.prePrepare.isSome
    · rw [if_pos hpp]
      split <;> exact stay _ _
    · rw [if_neg hpp]
      refine acceptPrePrepare pp (not_not.mp hview) (not_not.mp hprimary) hlow hhigh
        (by simpa using hsig) ?_
      intro inst' h
      rw [hlookup] at h
      obtain rfl := Option.some.inj h
      simpa using hpp
  · rename_i hlookup
    exact acceptPrePrepare pp (not_not.mp hview) (not_not.mp hprimary) hlow hhigh
      (by simpa using hsig) (fun inst h => by simp [hlookup] at h)

private theorem handlePrepare (prepare : Prepare) :
    Transition st now (.handlePrepare prepare) (st.handlePrepare prepare) := by
  unfold PbftState.handlePrepare
  split
  · exact stay _ _
  rename_i hview
  split
  · exact stay _ _
  rename_i hwindow
  split
  · exact stay _ _
  rename_i hsig
  simp only [PbftState.getOrCreateInstance_snd, PbftState.getOrCreateInstance_setInstance]
  split
  · rename_i hdigest
    have hne : st.instanceAt prepare.sequence ≠ ConsensusInstance.new prepare.sequence st.view := by
      intro hnew
      rw [hnew] at hdigest
      simp [ConsensusInstance.new] at hdigest
    obtain ⟨inst, hinst⟩ := PbftState.lookup_of_instanceAt_ne hne
    rw [PbftState.getOrCreateInstance_fst_of_lookup hinst]
    exact stay _ _
  rename_i hdigest
  split
  · rename_i hmem
    have hne : st.instanceAt prepare.sequence ≠ ConsensusInstance.new prepare.sequence st.view := by
      intro hnew
      rw [hnew] at hmem
      exact Finmap.notMem_empty hmem
    obtain ⟨inst, hinst⟩ := PbftState.lookup_of_instanceAt_ne hne
    rw [PbftState.getOrCreateInstance_fst_of_lookup hinst]
    exact stay _ _
  · rename_i hmem
    refine storePrepare prepare ⟨not_not.mp hview, by grind, by grind, by simpa using hsig, ?_, hmem⟩
    intro pp hpp
    simpa [hpp] using hdigest

private theorem handleCommit (commit : Commit) :
    Transition st now (.handleCommit commit) (st.handleCommit commit) := by
  unfold PbftState.handleCommit
  split
  · exact stay _ _
  rename_i hview
  split
  · exact stay _ _
  rename_i hwindow
  split
  · exact stay _ _
  rename_i hsig
  simp only [PbftState.getOrCreateInstance_snd, PbftState.getOrCreateInstance_setInstance]
  split
  · rename_i hdigest
    have hne : st.instanceAt commit.sequence ≠ ConsensusInstance.new commit.sequence st.view := by
      intro hnew
      rw [hnew] at hdigest
      simp [ConsensusInstance.new] at hdigest
    obtain ⟨inst, hinst⟩ := PbftState.lookup_of_instanceAt_ne hne
    rw [PbftState.getOrCreateInstance_fst_of_lookup hinst]
    exact stay _ _
  rename_i hdigest
  split
  · rename_i hmem
    have hne : st.instanceAt commit.sequence ≠ ConsensusInstance.new commit.sequence st.view := by
      intro hnew
      rw [hnew] at hmem
      exact Finmap.notMem_empty hmem
    obtain ⟨inst, hinst⟩ := PbftState.lookup_of_instanceAt_ne hne
    rw [PbftState.getOrCreateInstance_fst_of_lookup hinst]
    exact stay _ _
  · rename_i hmem
    refine storeCommit commit ⟨not_not.mp hview, by grind, by grind, by simpa using hsig, ?_, hmem⟩
    intro d hd
    simpa [hd] using hdigest

private theorem tryAdvanceToPrepared (s : SequenceNumber) :
    Transition st now (.tryAdvanceToPrepared s) (st.tryAdvanceToPrepared s) := by
  unfold PbftState.tryAdvanceToPrepared
  split
  · exact stay _ _
  rename_i inst hlookup
  split
  · exact stay _ _
  rename_i hpp
  split
  · exact stay _ _
  rename_i hphase
  split
  · exact stay _ _
  rename_i hquorum
  split
  · exact stay _ _
  · rename_i digest hdigest
    exact prepared s inst digest hlookup (by simpa [Option.isSome_iff_ne_none] using hpp)
      (not_not.mp hphase) (Nat.not_lt.mp hquorum) hdigest

private theorem tryAdvanceToCommitted (s : SequenceNumber) :
    Transition st now (.tryAdvanceToCommitted s) (st.tryAdvanceToCommitted s) := by
  unfold PbftState.tryAdvanceToCommitted
  split
  · exact stay _ _
  rename_i inst hlookup
  split
  · exact stay _ _
  rename_i hphase
  split
  · exact stay _ _
  rename_i hquorum
  simp only
  split
  · rename_i hrequest
    exact committed s inst hlookup (not_not.mp hphase) (Nat.not_lt.mp hquorum)
      (fun request h => by simp [hrequest] at h)
  · rename_i request hrequest
    by_cases hdone : request.digest ∈ st.executed
    · rw [if_pos hdone]
      refine committed s inst hlookup (not_not.mp hphase) (Nat.not_lt.mp hquorum) ?_
      intro request' h
      rw [hrequest] at h
      obtain rfl := Option.some.inj h
      exact hdone
    · rw [if_neg hdone]
      exact executed s inst request hlookup (not_not.mp hphase) (Nat.not_lt.mp hquorum)
        hrequest hdone

private theorem tryCheckpoint (s : SequenceNumber) :
    Transition st now (.tryCheckpoint s) (st.tryCheckpoint s) := by
  unfold PbftState.tryCheckpoint
  split
  · exact stay _ _
  rename_i hinterval
  split
  · exact stay _ _
  · rename_i hmod
    exact announce s hinterval (not_not.mp hmod)

private theorem handleCheckpoint (checkpoint : Checkpoint) :
    Transition st now (.handleCheckpoint checkpoint) (st.handleCheckpoint checkpoint) := by
  unfold PbftState.handleCheckpoint
  simp only
  split
  · rename_i h
    exact stabilize checkpoint h.1 h.2
  · exact countCheckpoint checkpoint

private theorem handleViewChange (viewChange : ViewChange) :
    Transition st now (.handleViewChange viewChange) (st.handleViewChange viewChange) := by
  unfold PbftState.handleViewChange
  split
  · exact stay _ _
  rename_i hnew
  simp only
  split
  · rename_i h
    exact announceNewView viewChange (UInt64.not_le.mp hnew) h.1 h.2
  · exact countViewChange viewChange (UInt64.not_le.mp hnew)

private theorem handleNewView (newView : NewView) :
    Transition st now (.handleNewView newView) (st.handleNewView now newView) := by
  unfold PbftState.handleNewView
  split
  · exact stay _ _
  · rename_i hnew
    exact enterView newView (UInt64.not_le.mp hnew)

private theorem startViewChange_run :
    Transition st now .startViewChange st.startViewChange := by
  unfold PbftState.startViewChange
  by_cases h : st.viewChanging = true
  · rw [if_pos h]
    exact stay _ _
  · rw [if_neg h]
    exact startViewChange (by simpa using h)

private theorem checkTimeout : Transition st now .checkTimeout (st.checkTimeout now) := by
  unfold PbftState.checkTimeout
  split
  · exact stay _ _
  rename_i h
  split
  · exact timeout (by simpa using h)
  · exact stay _ _

end Transition

/-- **A section does one of the transitions.** -/
theorem run_transition (st : PbftState) (now : Instant) (sec : Section) :
    Transition st now sec (sec.run st now) := by
  cases sec with
  | handleRequest request => exact Transition.handleRequest request
  | handlePrePrepare pp => exact Transition.handlePrePrepare pp
  | handlePrepare prepare => exact Transition.handlePrepare prepare
  | tryAdvanceToPrepared s => exact Transition.tryAdvanceToPrepared s
  | handleCommit commit => exact Transition.handleCommit commit
  | tryAdvanceToCommitted s => exact Transition.tryAdvanceToCommitted s
  | tryCheckpoint s => exact Transition.tryCheckpoint s
  | handleCheckpoint checkpoint => exact Transition.handleCheckpoint checkpoint
  | handleViewChange viewChange => exact Transition.handleViewChange viewChange
  | handleNewView newView => exact Transition.handleNewView newView
  | startViewChange => exact Transition.startViewChange_run
  | checkTimeout => exact Transition.checkTimeout

end P2pPbft
