/-
The window of sequence numbers.

The low watermark is the stable checkpoint and the high one is two intervals above it.
Both move together, when a checkpoint becomes stable, and nobody looks at the sum: it is
a sum of two `u64`, one of which came in a message.  A backup takes only numbers in the
window.  A primary looks at the upper end alone, and its counter is moved by its own
proposals only, so it may stand below the lower end.
-/
import P2pPbft.Proofs.Finality
import P2pPbft.Proofs.Checkpoints

namespace P2pPbft

/-- The two watermarks go with the stable checkpoint. -/
structure PbftState.Windowed (st : PbftState) : Prop where
  low : st.lowWatermark = st.stableCheckpoint
  high : st.highWatermark = st.lowWatermark + st.config.checkpointInterval * 2

/-- With one more checkpoint there are enough for a number above the stable one. -/
def PbftState.MakesStable (st : PbftState) (c : Checkpoint) : Prop :=
  st.config.quorum ≤ (st.addCheckpoint c).keys.card ∧ st.stableCheckpoint < c.sequence

instance (st : PbftState) (c : Checkpoint) : Decidable (st.MakesStable c) :=
  inferInstanceAs (Decidable (_ ∧ _))

namespace PbftState

theorem windowed_new (nodeId : NodeId) (keypair : KeyPair) (replicas : Replicas)
    (config : PbftConfig) (now : Instant) : (new nodeId keypair replicas config now).Windowed where
  low := rfl
  high := (UInt64.zero_add _).symm

theorem handleCheckpoint_of_makesStable {st : PbftState} {c : Checkpoint} (h : st.MakesStable c) :
    (st.handleCheckpoint c).state = (st.countCheckpoint c).stabilize c.sequence :=
  congrArg Outcome.state (if_pos h)

theorem handleCheckpoint_of_not_makesStable {st : PbftState} {c : Checkpoint}
    (h : ¬ st.MakesStable c) : (st.handleCheckpoint c).state = st.countCheckpoint c :=
  congrArg Outcome.state (if_neg h)

section

variable [Crypto] {st : PbftState} {now : Instant} {sec : Section} {out : Outcome}

theorem Windowed.step (hw : st.Windowed) (h : Transition st now sec out) : out.state.Windowed := by
  rcases h.window with ⟨hlow, hstable, hhigh⟩ | ⟨c, -, -, -, hst⟩
  · constructor
    · rw [hlow, hstable, hw.low]
    · rw [hhigh, hlow, h.static.2.2.2, hw.high]
  · rw [hst]
    exact ⟨rfl, rfl⟩

omit [Crypto] in
/-- **The upper end moves up**, unless its new place is past the last number. -/
theorem Windowed.high_le (hw : st.Windowed) {c : Checkpoint}
    (hnew : st.stableCheckpoint < c.sequence)
    (hroom : c.sequence.toNat + (st.config.checkpointInterval * 2).toNat < 2 ^ 64) :
    st.highWatermark ≤ c.sequence + st.config.checkpointInterval * 2 := by
  have hlt : st.stableCheckpoint.toNat < c.sequence.toNat := UInt64.lt_iff_toNat_lt.mp hnew
  rw [hw.high, hw.low, UInt64.le_iff_toNat_le, UInt64.toNat_add, UInt64.toNat_add,
    Nat.mod_eq_of_lt hroom, Nat.mod_eq_of_lt (by omega)]
  omega

end

/-! ### The log and the window -/

/-- Every entry of the log is in the window. -/
def InWindow (st : PbftState) : Prop :=
  ∀ s ∈ st.log.keys, st.lowWatermark < s ∧ s ≤ st.highWatermark

instance (st : PbftState) : Decidable st.InWindow :=
  inferInstanceAs (Decidable (∀ s ∈ st.log.keys, st.lowWatermark < s ∧ s ≤ st.highWatermark))

/--
A section at which the log stays in the window: a primary does not take a number the window
has left behind, and when a new checkpoint is two intervals or less from the last number
there is nothing above it in the log.
-/
def StaysInWindow [Crypto] (st : PbftState) : Section → Prop
  | .handleRequest request => st.Proposes request → st.lowWatermark < st.sequence + 1
  | .handleCheckpoint c => st.MakesStable c →
      c.sequence.toNat + (st.config.checkpointInterval * 2).toNat < 2 ^ 64 ∨
        ∀ s ∈ st.log.keys, s ≤ c.sequence
  | _ => True

instance [Crypto] (st : PbftState) : (sec : Section) → Decidable (st.StaysInWindow sec)
  | .handleRequest _ => by dsimp only [StaysInWindow]; infer_instance
  | .handleCheckpoint c =>
      -- Only the keys are to be looked at, not all numbers there are.
      have : Decidable (∀ s ∈ st.log.keys, s ≤ c.sequence) := Finset.decidableDforallFinset
      by dsimp only [StaysInWindow]; infer_instance
  | .handlePrePrepare _ | .handlePrepare _ | .tryAdvanceToPrepared _ | .handleCommit _
  | .tryAdvanceToCommitted _ | .tryCheckpoint _ | .handleViewChange _ | .handleNewView _
  | .startViewChange | .checkTimeout => isTrue trivial

section

variable [Crypto] {st : PbftState} {now : Instant} {sec : Section} {out : Outcome}

/-- **A number new in the log is in the window**, or one a primary has just given out. -/
theorem mem_keys_cases (h : Transition st now sec out) {s : SequenceNumber}
    (hs : s ∈ out.state.log.keys) :
    s ∈ st.log.keys ∨ (st.lowWatermark < s ∧ s ≤ st.highWatermark) ∨
      ∃ request, sec = .handleRequest request ∧ st.Proposes request ∧ s = st.sequence + 1 := by
  obtain ⟨inst, hlookup⟩ := Table.exists_lookup_of_mem_keys hs
  rcases h.entry hlookup with hold | hwrite
  · exact Or.inl (Table.mem_keys_of_lookup hold)
  cases hwrite with
  | propose request hp _ _ _ => exact Or.inr (Or.inr ⟨request, rfl, hp, rfl⟩)
  | accept pp hp _ _ => exact Or.inr (Or.inl ⟨hp.low, hp.high⟩)
  | storePrepare prepare hp _ => exact Or.inr (Or.inl ⟨hp.low, hp.high⟩)
  | storeCommit commit hc _ => exact Or.inr (Or.inl ⟨hc.low, hc.high⟩)
  | prepared _ _ _ hl _ _ _ _ _ => exact Or.inl (Table.mem_keys_of_lookup hl)
  | committed _ _ hl _ _ _ _ => exact Or.inl (Table.mem_keys_of_lookup hl)

omit [Crypto] in
theorem mem_keys_stabilize {sequence s : SequenceNumber} (hs : s ∈ st.log.keys)
    (hlt : sequence < s) : s ∈ (st.stabilize sequence).log.keys := by
  obtain ⟨inst, hlookup⟩ := Table.exists_lookup_of_mem_keys hs
  exact Table.mem_keys_of_lookup
    (Table.lookup_retain_eq_some.mpr ⟨decide_eq_true hlt, hlookup⟩)

theorem mem_keys_proposed (request : Request) :
    st.sequence + 1 ∈ (st.proposed request).log.keys := by
  refine Table.mem_keys_of_lookup (v := st.recorded (st.proposal (st.sequence + 1) request)
    (st.ownPrepare st.view (st.sequence + 1) request.digest)) ?_
  rw [lookup_proposed, if_pos rfl]

theorem InWindow.step (hw : st.Windowed) (h : st.InWindow) (ht : Transition st now sec out)
    (hstays : st.StaysInWindow sec) : out.state.InWindow := by
  intro s hs
  rcases ht.window with ⟨hlow, -, hhigh⟩ | ⟨c, rfl, hquorum, hnew, hst⟩
  · rw [hlow, hhigh]
    rcases mem_keys_cases ht hs with hold | hwindow | ⟨request, rfl, hp, rfl⟩
    · exact h s hold
    · exact hwindow
    · exact ⟨hstays hp, hp.high⟩
  · rw [hst] at hs ⊢
    obtain ⟨inst, hlookup⟩ := Table.exists_lookup_of_mem_keys hs
    obtain ⟨hlt, hold⟩ := Table.lookup_retain_eq_some.mp hlookup
    have hlt : c.sequence < s := of_decide_eq_true hlt
    have hmem := Table.mem_keys_of_lookup hold
    refine ⟨hlt, ?_⟩
    rcases hstays ⟨hquorum, hnew⟩ with hroom | hnone
    · exact UInt64.le_trans (h s hmem).2 (hw.high_le hnew hroom)
    · exact absurd hlt (UInt64.not_lt.mpr (hnone s hmem))

theorem InWindow.of_step (h : (sec.run st now).state.InWindow) : st.StaysInWindow sec := by
  cases sec with
  | handleRequest request =>
      intro hp
      have hrun : (Section.run st now (.handleRequest request)).state = st.proposed request := by
        rw [Section.run, handleRequest_of_proposes hp, Outcome.proceed_state]
      rw [hrun] at h
      have hlow := (h _ (mem_keys_proposed request)).1
      rw [proposed_eq] at hlow
      exact hlow
  | handleCheckpoint c =>
      intro hstable
      rw [Section.run, handleCheckpoint_of_makesStable hstable] at h
      by_cases hroom : c.sequence.toNat + (st.config.checkpointInterval * 2).toNat < 2 ^ 64
      · exact Or.inl hroom
      -- Past the last number the upper end is below the lower one.
      refine Or.inr fun s hs => UInt64.not_lt.mp fun hlt => ?_
      have hhigh : s ≤ c.sequence + st.config.checkpointInterval * 2 :=
        (h s (mem_keys_stabilize hs hlt)).2
      rw [UInt64.lt_iff_toNat_lt] at hlt
      rw [UInt64.le_iff_toNat_le, UInt64.toNat_add] at hhigh
      have := (st.config.checkpointInterval * 2).toNat_lt
      have := c.sequence.toNat_lt
      omega
  | _ => trivial

end

end PbftState

namespace Replica

variable [Crypto]

/-- After the step the log is in the window, and so is what a primary has just proposed. -/
structure StepsInWindow (r : Replica) (a : Action) (r' : Replica) : Prop where
  log : r'.state.InWindow
  proposal : ∀ sec, r.sectionOf a = some sec → ∀ pp ∈ proposals (sec.run r.state a.now).sends,
    r'.state.lowWatermark < pp.sequence ∧ pp.sequence ≤ r'.state.highWatermark

/-- What a primary proposes is in its log, so it is in the window if the log is. -/
theorem stepsInWindow_of_log {r r' : Replica} {a : Action} (hact : r.act a = some r')
    (hlog : r'.state.InWindow) : r.StepsInWindow a r' where
  log := hlog
  proposal := by
    intro sec hsec pp hpp
    have hstate := (act_of_sectionOf hact hsec).1
    rcases (run_transition r.state a.now sec).proposals with hnone | ⟨request, -, -, hst, hone⟩
    · rw [hnone] at hpp
      exact absurd hpp (by simp)
    · rw [hone] at hpp
      obtain rfl := List.mem_singleton.mp hpp
      refine hlog _ ?_
      rw [hstate, hst]
      exact PbftState.mem_keys_proposed request

/--
**The log is in the window, exactly if no number is given out below it and no window ends
past the last number.**  In all states of a run the entries of the log, and the numbers a
primary proposes as it does so, are in the window, if and only if all sections of the run
are ones at which they stay there.
-/
theorem log_in_window_iff {nodeId : NodeId} {keypair : KeyPair} {replicas : Replicas}
    {config : PbftConfig} {now : Instant} (as : List Action) (r : Replica) :
    Run (fun r a r' => r.act a = some r' ∧ r.StepsInWindow a r')
        (new (PbftState.new nodeId keypair replicas config now)) as r ↔
      Run (Next (Meets PbftState.StaysInWindow))
        (new (PbftState.new nodeId keypair replicas config now)) as r := by
  rw [← keeps_iff_meets PbftState.StaysInWindow
    (new (PbftState.new nodeId keypair replicas config now)) as r
    (I := fun st _ => st.InWindow) (J := fun st _ => st.Windowed)
    (fun s hs => absurd hs (by simp [new, PbftState.new]))
    (PbftState.windowed_new nodeId keypair replicas config now)
    (fun {t a sec} hw => hw.step (run_transition t.state a.now sec))
    (fun {t a sec} hw hlog =>
      ⟨PbftState.InWindow.of_step, hlog.step hw (run_transition t.state a.now sec)⟩)]
  constructor
  · intro h
    exact h.mono fun hstep => ⟨hstep.1, hstep.2.log⟩
  · intro h
    exact h.mono fun hstep => ⟨hstep.1, stepsInWindow_of_log hstep.1 hstep.2⟩

end Replica

namespace Sample

/-- A message comes in. -/
def received (message : ConsensusMessage) : Action := .call (.processMessage message) 0

/-- The checkpoints of some nodes for a number. -/
def checkpointsFrom (nodes : List (Fin 4)) (s : SequenceNumber) : List Action :=
  nodes.map fun i => received (.checkpoint ((signer i).ownCheckpoint s))

/-- The second node is left behind by a stable checkpoint, and becomes primary. -/
def primaryLeftBehind : List Action :=
  checkpointsFrom [0, 2, 3] 1 ++
    [received (.newView ⟨1, 0, node 1, []⟩), .call (.handleRequest (request 1)) 0]

end Sample

open Sample in
/-- **A primary below the window** proposes a number that no backup takes. -/
theorem Replica.proposes_below_window :
    ∃ r, Run (Next fun _ _ => True) (new (eager.initState (node 1))) primaryLeftBehind r ∧
      r.state.lowWatermark = 1 ∧ 1 ∈ r.state.log.keys ∧
      (proposals r.issued).map (·.sequence) = [1] :=
  exists_run _ _ _ _ (by decide +kernel)

/-! ### The three sums -/

/-- The view is not the last one, and the window is as wide as it should be. -/
structure PbftState.InRange (st : PbftState) : Prop where
  view : st.view.toNat + 1 < 2 ^ 64
  low : st.lowWatermark.toNat < st.highWatermark.toNat
  high : st.highWatermark.toNat = st.lowWatermark.toNat + 2 * st.config.checkpointInterval.toNat

/--
A section that takes no number from a message for which there is no room: no checkpoint
becomes stable less than two intervals from the last number, and the last view is not entered.
-/
def PbftState.LeavesRoom (st : PbftState) : Section → Prop
  | .handleCheckpoint c => st.MakesStable c →
      c.sequence.toNat + 2 * st.config.checkpointInterval.toNat < 2 ^ 64
  | .handleNewView newView => newView.newView.toNat + 1 < 2 ^ 64
  | _ => True

instance (st : PbftState) : (sec : Section) → Decidable (st.LeavesRoom sec)
  | .handleCheckpoint _ | .handleNewView _ => by
      dsimp only [PbftState.LeavesRoom]; infer_instance
  | .handleRequest _ | .handlePrePrepare _ | .handlePrepare _ | .tryAdvanceToPrepared _
  | .handleCommit _ | .tryAdvanceToCommitted _ | .tryCheckpoint _ | .handleViewChange _
  | .startViewChange | .checkTimeout => isTrue trivial

namespace PbftState

theorem toNat_interval_mul_two {interval : UInt64} (hroom : 2 * interval.toNat < 2 ^ 64) :
    (interval * 2).toNat = 2 * interval.toNat := by
  have htwo : (2 : UInt64).toNat = 2 := rfl
  rw [UInt64.toNat_mul, htwo]
  omega

section

variable [Crypto] {st : PbftState} {now : Instant} {sec : Section} {out : Outcome}

theorem InRange.step (h : st.InRange) (ht : Transition st now sec out)
    (hleaves : st.LeavesRoom sec) : out.state.InRange := by
  have hview : out.state.view.toNat + 1 < 2 ^ 64 := by
    rcases ht.view with hsame | ⟨nv, rfl, -, hset⟩
    · rw [hsame]
      exact h.view
    · rw [hset]
      exact hleaves
  rcases ht.window with ⟨hlow, -, hhigh⟩ | ⟨c, rfl, hquorum, hnew, hst⟩
  · constructor
    · exact hview
    · rw [hlow, hhigh]
      exact h.low
    · rw [hlow, hhigh, ht.static.2.2.2]
      exact h.high
  · have hroom : c.sequence.toNat + 2 * st.config.checkpointInterval.toNat < 2 ^ 64 :=
      hleaves ⟨hquorum, hnew⟩
    have hsum : (c.sequence + st.config.checkpointInterval * 2).toNat
        = c.sequence.toNat + 2 * st.config.checkpointInterval.toNat := by
      rw [UInt64.toNat_add, toNat_interval_mul_two (by omega), Nat.mod_eq_of_lt hroom]
    have hwide := h.low
    rw [h.high] at hwide
    rw [hst] at hview ⊢
    refine ⟨hview, ?_, hsum⟩
    show c.sequence.toNat < (c.sequence + st.config.checkpointInterval * 2).toNat
    omega

/-- A new window that is as wide as it should be ends below the last number. -/
theorem InRange.room {c : Checkpoint} (hstable : st.MakesStable c)
    (hafter : (Section.run st now (.handleCheckpoint c)).state.InRange) :
    c.sequence.toNat + 2 * st.config.checkpointInterval.toNat < 2 ^ 64 := by
  rw [Section.run, handleCheckpoint_of_makesStable hstable] at hafter
  have hsum : (c.sequence + st.config.checkpointInterval * 2).toNat
      = c.sequence.toNat + 2 * st.config.checkpointInterval.toNat := hafter.high
  rw [← hsum]
  exact UInt64.toNat_lt _

theorem InRange.of_step (h : st.InRange)
    (hafter : (sec.run st now).state.InRange) : st.LeavesRoom sec := by
  cases sec with
  | handleCheckpoint c =>
      intro hstable
      exact InRange.room hstable hafter
  | handleNewView newView =>
      show newView.newView.toNat + 1 < 2 ^ 64
      by_cases hnew : st.view < newView.newView
      · have hrun : (Section.run st now (.handleNewView newView)).state.view = newView.newView := by
          unfold Section.run handleNewView
          simp only [UInt64.not_le.mpr hnew, if_false, Outcome.stop_state]
        have hview := hafter.view
        rw [hrun] at hview
        exact hview
      · have hle := UInt64.le_iff_toNat_le.mp (UInt64.not_lt.mp hnew)
        have hview := h.view
        omega
  | _ => trivial

end

end PbftState

namespace Replica

variable [Crypto]

/--
No sum of the step passes the last number: the end of the window when a checkpoint becomes
stable, the next number when a request is handled, and the next view when one is asked for
in the state the step leads to.
-/
structure NoOverflow (r : Replica) (a : Action) (r' : Replica) : Prop where
  checkpoint : ∀ c, r.sectionOf a = some (.handleCheckpoint c) → r.state.MakesStable c →
    c.sequence.toNat + 2 * r.state.config.checkpointInterval.toNat < 2 ^ 64
  request : ∀ request, r.sectionOf a = some (.handleRequest request) →
    r.state.sequence.toNat + 1 < 2 ^ 64
  viewChange : r'.state.view.toNat + 1 < 2 ^ 64
  window : r'.state.lowWatermark.toNat < r'.state.highWatermark.toNat ∧
    r'.state.highWatermark.toNat
      = r'.state.lowWatermark.toNat + 2 * r'.state.config.checkpointInterval.toNat

/--
**No sum overflows, exactly if no message asks for it.**  In a run of fewer than `2 ^ 64`
steps all sums fit a `u64`, if and only if no checkpoint becomes stable less than two
intervals from the last number and no new view message is for the last view.
-/
theorem no_overflow_iff {nodeId : NodeId} {keypair : KeyPair} {replicas : Replicas}
    {config : PbftConfig} {now : Instant} (hpos : 0 < config.checkpointInterval.toNat)
    (hroom : 2 * config.checkpointInterval.toNat < 2 ^ 64) {as : List Action}
    (hlength : as.length < 2 ^ 64) (r : Replica) :
    Run (fun r a r' => r.act a = some r' ∧ r.NoOverflow a r')
        (new (PbftState.new nodeId keypair replicas config now)) as r ↔
      Run (Next (Meets PbftState.LeavesRoom))
        (new (PbftState.new nodeId keypair replicas config now)) as r := by
  have hinit : (PbftState.new nodeId keypair replicas config now).InRange := by
    constructor
    · show (0 : UInt64).toNat + 1 < 2 ^ 64
      decide
    · show (0 : UInt64).toNat < (config.checkpointInterval * 2).toNat
      rw [PbftState.toNat_interval_mul_two hroom]
      show 0 < _
      omega
    · show (config.checkpointInterval * 2).toNat
        = (0 : UInt64).toNat + 2 * config.checkpointInterval.toNat
      rw [PbftState.toNat_interval_mul_two hroom]
      show _ = 0 + _
      omega
  -- The counter is no concern in a run of that length.
  have hiff := keeps_iff (Meets PbftState.NoWrap) PbftState.LeavesRoom
    (new (PbftState.new nodeId keypair replicas config now)) as r
    (I := fun st _ => st.InRange) (J := fun _ _ => True)
    hinit trivial (fun _ _ _ => trivial)
    (fun {t a sec} _ _ _ hrange =>
      ⟨hrange.of_step, hrange.step (run_transition t.state a.now sec)⟩)
  have hcount : requests as < 2 ^ 64 := Nat.lt_of_le_of_lt List.countP_le_length hlength
  have hwrap : ∀ {rules : Replica → Action → Prop},
      Run (Next rules) (new (PbftState.new nodeId keypair replicas config now)) as r →
        Run (Next fun r a => rules r a ∧ r.Meets PbftState.NoWrap a)
          (new (PbftState.new nodeId keypair replicas config now)) as r :=
    fun h => noWrap_of_requests h (sound_new nodeId keypair replicas config now) rfl hcount
  constructor
  · intro h
    refine (hiff.mp (h.mono ?_)).mono ?_
    · intro t a u hstep
      refine ⟨⟨fun sec hsec => ?_, hstep.1⟩, hstep.2.viewChange, hstep.2.window.1, hstep.2.window.2⟩
      cases sec with
      | handleRequest request => exact hstep.2.request request hsec
      | _ => trivial
    · exact fun hstep => ⟨hstep.1, hstep.2.2⟩
  · intro h
    refine (hiff.mpr ((hwrap h).mono ?_)).mono ?_
    · exact fun hstep => ⟨hstep.1.1, hstep.1.2, hstep.2⟩
    · rintro t a u ⟨⟨hwrap, hact⟩, hrange⟩
      refine ⟨hact, ?_, fun request hsec => hwrap _ hsec, hrange.view, hrange.low, hrange.high⟩
      intro c hsec hstable
      rw [(act_of_sectionOf hact hsec).1] at hrange
      exact PbftState.InRange.room hstable hrange

end Replica

namespace Sample

/-- Three nodes whose ids nobody checks name the last number. -/
def lastNumber : List Action :=
  ["a", "b", "c"].map fun id => received (.checkpoint (checkpointBy id 18446744073709551615))

/-- The last view is announced, and then left. -/
def lastView : List Action :=
  [received (.newView ⟨18446744073709551615, 0, node 3, []⟩), .call .startViewChange 0]

end Sample

open Sample in
/-- A replica counts checkpoints, and handles a request and a view change. -/
theorem Replica.no_overflow_iff_second :
    ∃ r, Run (fun r a r' => r.act a = some r' ∧ r.NoOverflow a r')
        (new ((cluster 3).initState (node 1)))
        (checkpointsFrom [0, 2, 3] 100 ++
          [.call (.handleRequest (request 1)) 0, .call .startViewChange 0]) r ∧
      r.state.lowWatermark = 100 := by
  obtain ⟨r, hrun, hlow⟩ := exists_run (Meets PbftState.LeavesRoom)
    (new ((cluster 3).initState (node 1)))
    (checkpointsFrom [0, 2, 3] 100 ++
      [.call (.handleRequest (request 1)) 0, .call .startViewChange 0])
    (fun r => r.state.lowWatermark = 100) (by decide +kernel)
  exact ⟨r, (no_overflow_iff (by decide) (by decide) (by decide) r).mpr hrun, hlow⟩

open Sample in
/-- **Two sums pass the last number**: the window ends below its start, and the view starts over. -/
theorem Replica.sums_overflow :
    ∃ r, Run (Next fun _ _ => True) (new ((cluster 3).initState (node 1)))
        (lastNumber ++ lastView) r ∧
      r.state.highWatermark.toNat + 2 ^ 64
        = r.state.lowWatermark.toNat + 2 * r.state.config.checkpointInterval.toNat ∧
      r.state.highWatermark < r.state.lowWatermark ∧
      r.state.view.toNat + 1 = 2 ^ 64 ∧ (r.state.viewChanges.lookup 0).isSome :=
  exists_run _ _ _ _ (by decide +kernel)

end P2pPbft
