/-
The counter of a primary.

Every request a primary has not executed moves its counter by one, whether it gets
the number or the window refuses it.  The counter is a `u64`, so after `2 ^ 64` such
requests it is where it was, and the numbers start over.
-/
import P2pPbft.Proofs.Finality
import P2pPbft.Proofs.Network

namespace P2pPbft

section

variable [Crypto]

/-- What `k` requests in a row leave of a primary: everything it goes by, but its counter. -/
structure Counted (r r' : Replica) (k : Nat) : Prop where
  sequence : r'.state.sequence = r.state.sequence + UInt64.ofNat k
  nodeId : r'.state.nodeId = r.state.nodeId
  view : r'.state.view = r.state.view
  replicas : r'.state.replicas = r.state.replicas
  executed : r'.state.executed = r.state.executed
  high : r'.state.highWatermark = r.state.highWatermark
  tasks : r.tasks <+: r'.tasks
  issued : r.issued <+: r'.issued

omit [Crypto] in
theorem Counted.refl (r : Replica) : Counted r r 0 where
  sequence := by simp
  nodeId := rfl
  view := rfl
  replicas := rfl
  executed := rfl
  high := rfl
  tasks := List.prefix_refl _
  issued := List.prefix_refl _

omit [Crypto] in
theorem Counted.trans {r r' r'' : Replica} {j k : Nat} (h : Counted r r' j)
    (h' : Counted r' r'' k) : Counted r r'' (j + k) where
  sequence := by rw [h'.sequence, h.sequence, UInt64.ofNat_add, UInt64.add_assoc]
  nodeId := h'.nodeId.trans h.nodeId
  view := h'.view.trans h.view
  replicas := h'.replicas.trans h.replicas
  executed := h'.executed.trans h.executed
  high := h'.high.trans h.high
  tasks := h.tasks.trans h'.tasks
  issued := h.issued.trans h'.issued

omit [Crypto] in
theorem Counted.primary {r r' : Replica} {k : Nat} (h : Counted r r' k)
    (hprimary : r.state.primary = r.state.nodeId) : r'.state.primary = r'.state.nodeId := by
  rw [PbftState.primary, h.replicas, h.view, h.nodeId]
  exact hprimary

/-- **A request that is not executed yet moves the counter by one.** -/
theorem counted_handleRequest (r : Replica) {request : Request}
    (hprimary : r.state.primary = r.state.nodeId) (hfresh : request.digest ∉ r.state.executed) :
    ∃ r', r.act (.call (.handleRequest request) 0) = some r' ∧ Counted r r' 1 := by
  refine ⟨_, rfl, ?_⟩
  by_cases hhigh : r.state.highWatermark < r.state.sequence + 1
  · have hrun : r.state.handleRequest request
        = .stop { r.state with sequence := r.state.sequence + 1 } (.err .invalidSequence) := by
      unfold PbftState.handleRequest PbftState.isPrimary
      rw [if_neg (by simpa using hprimary), if_neg hfresh]
      simp only [hhigh, if_true]
    constructor <;> simp [Section.run, hrun]
  · have hrun : r.state.handleRequest request = _ :=
      PbftState.handleRequest_of_proposes ⟨hprimary, hfresh, UInt64.not_lt.mp hhigh⟩
    constructor <;> simp [Section.run, hrun, PbftState.proposed_eq, PbftState.setInstance]

/-- **`k` requests in a row move the counter by `k`**, around the end of the numbers if need be. -/
theorem exists_run_requests {rules : Net → Event → Prop} {id : NodeId} {request : Request}
    (hrules : ∀ net, rules net ⟨id, .call (.handleRequest request) 0⟩) (k : Nat) (net : Net)
    (hprimary : (net id).state.primary = (net id).state.nodeId)
    (hfresh : request.digest ∉ (net id).state.executed) :
    ∃ net', Run (Net.Step rules) net
        (List.replicate k ⟨id, .call (.handleRequest request) 0⟩) net' ∧
      Counted (net id) (net' id) k ∧ ∀ id' ≠ id, net' id' = net id' := by
  induction k with
  | zero => exact ⟨net, Run.nil _, Counted.refl _, fun _ _ => rfl⟩
  | succ k ih =>
      obtain ⟨net', hrun, hcounted, hothers⟩ := ih
      obtain ⟨r, hact, hone⟩ := counted_handleRequest (net' id) (hcounted.primary hprimary)
        (by rw [hcounted.executed]; exact hfresh)
      have hstep : Net.Step rules net' ⟨id, .call (.handleRequest request) 0⟩
          (Function.update net' id r) := by
        refine ⟨hrules net', ?_⟩
        simp only [Net.act, hact, Option.map_some]
      refine ⟨Function.update net' id r, ?_, ?_, fun id' hid => ?_⟩
      · rw [List.replicate_succ']
        exact Run.snoc hrun hstep
      · rw [Function.update_self]
        exact hcounted.trans hone
      · rw [Function.update_of_ne hid]
        exact hothers id' hid

/-- What is left when a primary has proposed a request. -/
structure Proposed (r r' : Replica) (request : Request) : Prop where
  state : r'.state = r.state.proposed request
  proposals : proposals r'.issued
    = proposals r.issued ++ [r.state.proposal (r.state.sequence + 1) request]
  tasks : r.tasks <+: r'.tasks

/--
**After `2 ^ 64` requests the numbers start over**: the last of them is given the
number the counter stands at before the first.
-/
theorem exists_run_around {rules : Net → Event → Prop} {id : NodeId} {request : Request}
    (hrules : ∀ net, rules net ⟨id, .call (.handleRequest request) 0⟩) (net : Net)
    (hprimary : (net id).state.primary = (net id).state.nodeId)
    (hfresh : request.digest ∉ (net id).state.executed)
    (hhigh : (net id).state.sequence ≤ (net id).state.highWatermark) :
    ∃ (r : Replica) (net' : Net), Run (Net.Step rules) net
        (List.replicate (2 ^ 64) ⟨id, .call (.handleRequest request) 0⟩) net' ∧
      Counted (net id) r (2 ^ 64 - 1) ∧ r.state.sequence + 1 = (net id).state.sequence ∧
      Proposed r (net' id) request ∧ ∀ id' ≠ id, net' id' = net id' := by
  obtain ⟨net₁, hrun, hcounted, hothers⟩ :=
    exists_run_requests hrules (2 ^ 64 - 1) net hprimary hfresh
  have hnext : (net₁ id).state.sequence + 1 = (net id).state.sequence := by
    have hwrap : UInt64.ofNat (2 ^ 64 - 1) + 1 = 0 := by decide
    rw [hcounted.sequence, UInt64.add_assoc, hwrap, UInt64.add_zero]
  have hproposes : (net₁ id).state.Proposes request := by
    refine ⟨hcounted.primary hprimary, by rw [hcounted.executed]; exact hfresh, ?_⟩
    rw [hnext, hcounted.high]
    exact hhigh
  have hrun' := PbftState.handleRequest_of_proposes hproposes
  let r' := { (net₁ id).enter ((net₁ id).state.handleRequest request) with
    tasks := (net₁ id).tasks ++ [((net₁ id).state.handleRequest request).task] }
  have hstep : Net.Step rules net₁ ⟨id, .call (.handleRequest request) 0⟩
      (Function.update net₁ id r') :=
    ⟨hrules net₁, rfl⟩
  refine ⟨net₁ id, Function.update net₁ id r', ?_, hcounted, hnext, ?_, fun id' hid => ?_⟩
  · have hlast : (2 ^ 64 : Nat) = (2 ^ 64 - 1) + 1 := by omega
    rw [hlast, List.replicate_succ']
    exact Run.snoc hrun hstep
  · rw [Function.update_self]
    constructor
    · show ((net₁ id).state.handleRequest request).state = _
      rw [hrun']
      rfl
    · show proposals ((net₁ id).issued ++ ((net₁ id).state.handleRequest request).sends) = _
      rw [hrun', proposals_append]
      rfl
    · exact List.prefix_append _ _
  · rw [Function.update_of_ne hid]
    exact hothers id' hid

/-- **A handler in progress can make its sends and run its next section.** -/
theorem exists_run_resume {rules : Net → Event → Prop} {id : NodeId}
    (hrules : ∀ net, rules net ⟨id, .resume 0 0⟩) {next : Section} {result : Result}
    {rest : List Task} (sends : List Send) :
    ∀ net : Net, (net id).tasks = ⟨sends, some next, result⟩ :: rest →
      ∃ net', Run (Net.Step rules) net (List.replicate (sends.length + 1) ⟨id, .resume 0 0⟩) net' ∧
        (net' id).state = (next.run (net id).state 0).state ∧
        (net' id).tasks = (next.run (net id).state 0).task :: rest ∧
        ∀ id' ≠ id, net' id' = net id' := by
  have hstep : ∀ (net : Net) (r : Replica), (net id).act (.resume 0 0) = some r →
      Net.Step rules net ⟨id, .resume 0 0⟩ (Function.update net id r) := by
    intro net r hact
    refine ⟨hrules net, ?_⟩
    simp only [Net.act, hact, Option.map_some]
  induction sends with
  | nil =>
      intro net htasks
      let r := { (net id).enter (next.run (net id).state 0) with
        tasks := (next.run (net id).state 0).task :: rest }
      have hact : (net id).act (.resume 0 0) = some r := by
        simp [Replica.act, htasks, r]
      refine ⟨Function.update net id r, Run.single (hstep net r hact), ?_, ?_, fun id' hid => ?_⟩
      · rw [Function.update_self, Replica.enter_state]
      · rw [Function.update_self]
      · exact Function.update_of_ne hid _ _
  | cons send sends ih =>
      intro net htasks
      let r := { (net id).emit send with tasks := ⟨sends, some next, result⟩ :: rest }
      have hact : (net id).act (.resume 0 0) = some r := by
        simp [Replica.act, htasks, r]
      obtain ⟨net', hrun, hstate, htasks', hothers⟩ := ih (Function.update net id r) (by simp [r])
      have hsame : (Function.update net id r id).state = (net id).state := by simp [r]
      rw [hsame] at hstate htasks'
      refine ⟨net', (Run.single (hstep net r hact)).append hrun, hstate, htasks', fun id' hid => ?_⟩
      rw [hothers id' hid]
      exact Function.update_of_ne hid _ _

/-- **A replica that is a quorum of its own commits on its own vote.** -/
theorem exists_run_commit {rules : Net → Event → Prop} {id : NodeId}
    (hrules : ∀ net, rules net ⟨id, .resume 0 0⟩) {net : Net} {s : SequenceNumber}
    {inst : ConsensusInstance} {digest : Hash} {sends : List Send} {result : Result}
    {rest : List Task}
    (htasks : (net id).tasks = ⟨sends, some (.tryAdvanceToPrepared s), result⟩ :: rest)
    (hlookup : (net id).state.log.lookup s = some inst) (hpp : inst.prePrepare.isSome)
    (hphase : inst.phase = .prePrepared) (hdigest : inst.digest = some digest)
    (hone : (net id).state.config.quorum = 1) (hvoted : 1 ≤ inst.prepares.keys.card) :
    ∃ events net', Run (Net.Step rules) net events net' ∧
      ((net' id).state.instanceAt s).phase = .committed ∧
      ((net' id).state.instanceAt s).digest = some digest ∧ ∀ id' ≠ id, net' id' = net id' := by
  have hadvance := PbftState.tryAdvanceToPrepared_of hlookup hpp hphase
    (by rw [hone]; exact hvoted) hdigest
  obtain ⟨net₁, hrun₁, hstate₁, htasks₁, hothers₁⟩ := exists_run_resume hrules sends net htasks
  rw [Section.run, hadvance] at hstate₁ htasks₁
  obtain ⟨net₂, hrun₂, hstate₂, -, hothers₂⟩ := exists_run_resume hrules _ net₁ htasks₁
  have hlookup₁ : (net₁ id).state.log.lookup s = some { inst with
      phase := .prepared
      commits := inst.commits.insert (net id).state.nodeId
        ((net id).state.ownCommit inst s digest) } := by
    rw [hstate₁, Outcome.proceed_state, PbftState.lookup_setInstance, if_pos rfl]
  have hquorum : (net₁ id).state.config.quorum
      ≤ (inst.commits.insert (net id).state.nodeId
        ((net id).state.ownCommit inst s digest)).keys.card := by
    rw [hstate₁, Outcome.proceed_state]
    refine hone.le.trans (Finset.card_pos.mpr ⟨(net id).state.nodeId, ?_⟩)
    rw [Table.keys_insert]
    exact Finset.mem_insert_self _ _
  have hlookup₂ := PbftState.lookup_tryAdvanceToCommitted_of hlookup₁ rfl hquorum
  rw [Section.run] at hstate₂
  rw [← hstate₂] at hlookup₂
  refine ⟨_, net₂, hrun₁.append hrun₂, ?_, ?_, fun id' hid => ?_⟩
  · rw [PbftState.instanceAt_of_lookup hlookup₂]
  · rw [PbftState.instanceAt_of_lookup hlookup₂]
    exact hdigest
  · rw [hothers₂ id' hid, hothers₁ id' hid]

end

end P2pPbft
