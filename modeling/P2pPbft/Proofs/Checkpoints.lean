/-
Which checkpoint becomes stable.

`handle_checkpoint` counts who has sent a checkpoint for a number, and drops what it
has on file for lower numbers each time one becomes stable.  Nothing that matters is
lost: in whatever order the messages come, and however often, the stable checkpoint is
the highest number a quorum has sent a checkpoint for.
-/
import P2pPbft.Lib.Tally
import P2pPbft.Proofs.Stability

namespace P2pPbft

/-- The vote a checkpoint is: for its number, by the replica it names. -/
def Checkpoint.vote (c : Checkpoint) : SequenceNumber × NodeId := (c.sequence, c.replicaId)

/-- Who has a checkpoint on file for the number. -/
def PbftState.checkpointers (st : PbftState) (s : SequenceNumber) : Finset NodeId :=
  ((st.checkpoints.lookup s).getD ∅).keys

/-- The state holds of the votes what a counter has to. -/
def PbftState.Tallies (st : PbftState) (votes : List (SequenceNumber × NodeId)) : Prop :=
  Tally.Counts UInt64.toNat st.config.quorum votes st.stableCheckpoint st.checkpointers

namespace PbftState

variable {st : PbftState} {votes : List (SequenceNumber × NodeId)}

theorem keys_addCheckpoint (st : PbftState) (c : Checkpoint) :
    (st.addCheckpoint c).keys = insert c.replicaId (st.checkpointers c.sequence) :=
  Table.keys_insert ..

theorem checkpointers_countCheckpoint (st : PbftState) (c : Checkpoint) (s : SequenceNumber) :
    (st.countCheckpoint c).checkpointers s
      = if s = c.sequence then insert c.replicaId (st.checkpointers s)
        else st.checkpointers s := by
  unfold countCheckpoint checkpointers
  rw [Table.lookup_insert_eq_if]
  by_cases h : s = c.sequence
  · subst h
    rw [if_pos rfl, if_pos rfl, Option.getD_some]
    exact keys_addCheckpoint st c
  · rw [if_neg h, if_neg h]

theorem checkpointers_stabilize (st : PbftState) {s sequence : SequenceNumber}
    (h : sequence ≤ s) : (st.stabilize sequence).checkpointers s = st.checkpointers s := by
  unfold stabilize checkpointers
  rw [Table.lookup_retain, if_pos (decide_eq_true h)]

theorem handleCheckpoint_state (st : PbftState) (c : Checkpoint) :
    (st.handleCheckpoint c).state
      = if st.config.quorum ≤ (st.addCheckpoint c).keys.card ∧ st.stableCheckpoint < c.sequence
        then (st.countCheckpoint c).stabilize c.sequence else st.countCheckpoint c := by
  unfold handleCheckpoint
  simp only
  by_cases h : st.config.quorum ≤ (st.addCheckpoint c).keys.card ∧
      st.stableCheckpoint < c.sequence
  · rw [if_pos h, if_pos h]
    rfl
  · rw [if_neg h, if_neg h]
    rfl

theorem tallies_nil (hvotes : st.checkpoints = ∅) (hstable : st.stableCheckpoint = 0) :
    st.Tallies [] where
  toIsHighest := Tally.IsHighest.nil (Nat.succ_pos _) (by rw [hstable]; rfl)
  kept := by
    intro s _
    rw [checkpointers, hvotes]
    rfl

/-- **Handling a checkpoint counts its vote.** -/
theorem Tallies.handleCheckpoint (h : st.Tallies votes) (c : Checkpoint) :
    (st.handleCheckpoint c).state.Tallies (votes ++ [c.vote]) := by
  rw [handleCheckpoint_state]
  by_cases hstable : st.config.quorum ≤ (st.addCheckpoint c).keys.card ∧
      st.stableCheckpoint < c.sequence
  · rw [if_pos hstable]
    obtain ⟨hquorum, hnew⟩ := hstable
    rw [keys_addCheckpoint] at hquorum
    refine Tally.Counts.rise h (UInt64.lt_iff_toNat_lt.mp hnew) hquorum fun s hs => ?_
    have habove : c.sequence < s := UInt64.lt_iff_toNat_lt.mpr hs
    have hne : s ≠ c.sequence := by
      rintro rfl
      omega
    rw [checkpointers_stabilize _ (UInt64.le_of_lt habove), checkpointers_countCheckpoint,
      if_neg hne]
  · rw [if_neg hstable]
    refine Tally.Counts.stay h (fun s _ => checkpointers_countCheckpoint st c s) fun hnew => ?_
    rw [checkpointers_countCheckpoint, if_pos rfl, ← keys_addCheckpoint]
    have hlt : st.stableCheckpoint < c.sequence := UInt64.lt_iff_toNat_lt.mpr hnew
    exact Nat.lt_of_not_le fun hquorum => hstable ⟨hquorum, hlt⟩

/-! ### A list of checkpoints -/

/-- Handle checkpoints one after another. -/
def handleCheckpoints (st : PbftState) (checkpoints : List Checkpoint) : PbftState :=
  checkpoints.foldl (fun st c => (st.handleCheckpoint c).state) st

theorem handleCheckpoints_concat (st : PbftState) (checkpoints : List Checkpoint)
    (c : Checkpoint) : st.handleCheckpoints (checkpoints ++ [c])
      = ((st.handleCheckpoints checkpoints).handleCheckpoint c).state := by
  simp only [handleCheckpoints, List.foldl_append, List.foldl_cons, List.foldl_nil]

/-- The window and the log of the first state, moved up to the stable checkpoint of the second. -/
structure Moved (init st : PbftState) : Prop where
  config : st.config = init.config
  unmoved : st.stableCheckpoint = 0 → st.lowWatermark = init.lowWatermark ∧
    st.highWatermark = init.highWatermark ∧ st.log = init.log
  moved : st.stableCheckpoint ≠ 0 → st.lowWatermark = st.stableCheckpoint ∧
    st.highWatermark = st.stableCheckpoint + init.config.checkpointInterval * 2 ∧
      st.log = Table.retain (fun s => st.stableCheckpoint < s) init.log

theorem Moved.refl {init : PbftState} (h : init.stableCheckpoint = 0) : init.Moved init where
  config := rfl
  unmoved := fun _ => ⟨rfl, rfl, rfl⟩
  moved := fun hne => absurd h hne

theorem Moved.handleCheckpoint {init : PbftState} (h : init.Moved st) (c : Checkpoint) :
    init.Moved (st.handleCheckpoint c).state := by
  rw [handleCheckpoint_state]
  by_cases hstable : st.config.quorum ≤ (st.addCheckpoint c).keys.card ∧
      st.stableCheckpoint < c.sequence
  · rw [if_pos hstable]
    have hlt := hstable.2
    refine ⟨h.config, fun hzero => ?_, fun _ => ⟨rfl, ?_, ?_⟩⟩
    · have hseq : c.sequence = 0 := hzero
      rw [hseq] at hlt
      exact absurd hlt UInt64.not_lt_zero
    · show c.sequence + st.config.checkpointInterval * 2
        = c.sequence + init.config.checkpointInterval * 2
      rw [h.config]
    · show Table.retain (fun s => c.sequence < s) st.log
        = Table.retain (fun s => c.sequence < s) init.log
      by_cases hzero : st.stableCheckpoint = 0
      · rw [(h.unmoved hzero).2.2]
      · rw [(h.moved hzero).2.2]
        refine Table.retain_retain (fun s hs => ?_) _
        exact decide_eq_true (UInt64.lt_trans hlt (of_decide_eq_true hs))
  · rw [if_neg hstable]
    exact ⟨h.config, h.unmoved, h.moved⟩

/-- **Both are kept along a list.** -/
theorem handleCheckpoints_spec {init : PbftState} (hvotes : init.checkpoints = ∅)
    (hstable : init.stableCheckpoint = 0) (checkpoints : List Checkpoint) :
    (init.handleCheckpoints checkpoints).Tallies (checkpoints.map Checkpoint.vote) ∧
      init.Moved (init.handleCheckpoints checkpoints) := by
  induction checkpoints using List.reverseRecOn with
  | nil => exact ⟨tallies_nil hvotes hstable, Moved.refl hstable⟩
  | append_singleton checkpoints c ih =>
      rw [handleCheckpoints_concat, List.map_append]
      exact ⟨ih.1.handleCheckpoint c, ih.2.handleCheckpoint c⟩

end PbftState

/-- Who has sent a checkpoint for the number, among the checkpoints. -/
def senders (checkpoints : List Checkpoint) (s : SequenceNumber) : Finset NodeId :=
  ((checkpoints.filter fun c => c.sequence = s).map (·.replicaId)).toFinset

theorem backers_map_vote (checkpoints : List Checkpoint) (s : SequenceNumber) :
    Tally.backers (checkpoints.map Checkpoint.vote) s = senders checkpoints s := by
  ext id
  rw [Tally.mem_backers, senders]
  simp [Checkpoint.vote, and_assoc]

/--
What is to come of a state when it has handled the checkpoints: the stable checkpoint is
the largest number that a quorum has sent one for, the window starts there, and the log is
what was above it.  If there is no such number, nothing has moved.
-/
structure Stabilizes (init : PbftState) (checkpoints : List Checkpoint) (final : PbftState) :
    Prop where
  backed : 0 < final.stableCheckpoint →
    init.config.quorum ≤ (senders checkpoints final.stableCheckpoint).card
  largest : ∀ s, init.config.quorum ≤ (senders checkpoints s).card → s ≤ final.stableCheckpoint
  moved : 0 < final.stableCheckpoint → final.lowWatermark = final.stableCheckpoint ∧
    final.highWatermark.toNat
      = final.stableCheckpoint.toNat + 2 * init.config.checkpointInterval.toNat ∧
    final.log = Table.retain (fun s => final.stableCheckpoint < s) init.log
  unmoved : final.stableCheckpoint = 0 → final.lowWatermark = init.lowWatermark ∧
    final.highWatermark = init.highWatermark ∧ final.log = init.log

section

variable {init : PbftState} {checkpoints : List Checkpoint}

/-- **The stable checkpoint is the largest number with a quorum.** -/
theorem stabilizes_of_room (hvotes : init.checkpoints = ∅) (hstable : init.stableCheckpoint = 0)
    (hroom : ∀ c ∈ checkpoints,
      c.sequence.toNat + 2 * init.config.checkpointInterval.toNat < 2 ^ 64) :
    Stabilizes init checkpoints (init.handleCheckpoints checkpoints) := by
  obtain ⟨htally, hmoved⟩ := PbftState.handleCheckpoints_spec hvotes hstable checkpoints
  generalize init.handleCheckpoints checkpoints = final at htally hmoved
  have hquorum : final.config.quorum = init.config.quorum := congrArg _ hmoved.config
  have hbacked : 0 < final.stableCheckpoint →
      init.config.quorum ≤ (senders checkpoints final.stableCheckpoint).card := by
    intro hpos
    rw [← backers_map_vote, ← hquorum]
    exact htally.backed (UInt64.lt_iff_toNat_lt.mp hpos)
  refine ⟨hbacked, fun s hs => ?_, fun hpos => ?_, hmoved.unmoved⟩
  · rw [← backers_map_vote, ← hquorum] at hs
    exact UInt64.le_iff_toNat_le.mpr (htally.highest s hs)
  · have hne : final.stableCheckpoint ≠ 0 := by
      intro hzero
      rw [hzero] at hpos
      exact absurd hpos UInt64.not_lt_zero
    obtain ⟨hlow, hhigh, hlog⟩ := hmoved.moved hne
    refine ⟨hlow, ?_, hlog⟩
    -- A number with a quorum is the number of one of the checkpoints.
    have hsome : 0 < (senders checkpoints final.stableCheckpoint).card :=
      Nat.lt_of_lt_of_le (Nat.succ_pos _) (hbacked hpos)
    obtain ⟨id, hid⟩ := Finset.card_pos.mp hsome
    obtain ⟨c, hc, -⟩ := List.mem_map.mp (List.mem_toFinset.mp hid)
    obtain ⟨hmem, hseq⟩ := List.mem_filter.mp hc
    have hroom := hroom c hmem
    rw [of_decide_eq_true hseq] at hroom
    have htwo : (2 : UInt64).toNat = 2 := rfl
    rw [hhigh, UInt64.toNat_add, UInt64.toNat_mul, htwo]
    omega

/-- In whatever order the checkpoints come, and however often. -/
theorem handleCheckpoints_congr (hvotes : init.checkpoints = ∅)
    (hstable : init.stableCheckpoint = 0) {reordered : List Checkpoint}
    (hsame : ∀ c, c ∈ reordered ↔ c ∈ checkpoints) :
    (init.handleCheckpoints reordered).stableCheckpoint
        = (init.handleCheckpoints checkpoints).stableCheckpoint ∧
      (init.handleCheckpoints reordered).lowWatermark
        = (init.handleCheckpoints checkpoints).lowWatermark ∧
      (init.handleCheckpoints reordered).highWatermark
        = (init.handleCheckpoints checkpoints).highWatermark ∧
      (init.handleCheckpoints reordered).log = (init.handleCheckpoints checkpoints).log := by
  obtain ⟨htally, hmoved⟩ := PbftState.handleCheckpoints_spec hvotes hstable checkpoints
  obtain ⟨htally', hmoved'⟩ := PbftState.handleCheckpoints_spec hvotes hstable reordered
  generalize init.handleCheckpoints checkpoints = final at htally hmoved
  generalize init.handleCheckpoints reordered = final' at htally' hmoved'
  have hvote : ∀ vote, vote ∈ reordered.map Checkpoint.vote ↔
      vote ∈ checkpoints.map Checkpoint.vote := by
    intro vote
    simp only [List.mem_map, hsame]
  have hhigh' := htally'.toIsHighest.congr hvote
  rw [hmoved'.config, ← hmoved.config] at hhigh'
  have hstable : final'.stableCheckpoint = final.stableCheckpoint :=
    UInt64.toNat_inj.mp (hhigh'.unique htally.toIsHighest)
  refine ⟨hstable, ?_⟩
  by_cases hzero : final.stableCheckpoint = 0
  · obtain ⟨hlow, hhigh, hlog⟩ := hmoved.unmoved hzero
    obtain ⟨hlow', hhigh', hlog'⟩ := hmoved'.unmoved (hstable.trans hzero)
    exact ⟨hlow'.trans hlow.symm, hhigh'.trans hhigh.symm, hlog'.trans hlog.symm⟩
  · obtain ⟨hlow, hhigh, hlog⟩ := hmoved.moved hzero
    obtain ⟨hlow', hhigh', hlog'⟩ := hmoved'.moved (hstable ▸ hzero)
    rw [hlow, hlow', hhigh, hhigh', hlog, hlog', hstable]
    exact ⟨rfl, rfl, rfl⟩

/--
**The stable checkpoint is the largest number with a quorum, in any order.**  The messages
may come in any order and more than once; the state they lead to is the same.
-/
theorem checkpoints_stabilize (hvotes : init.checkpoints = ∅)
    (hstable : init.stableCheckpoint = 0)
    (hroom : ∀ c ∈ checkpoints,
      c.sequence.toNat + 2 * init.config.checkpointInterval.toNat < 2 ^ 64) :
    Stabilizes init checkpoints (init.handleCheckpoints checkpoints) ∧
      ∀ reordered : List Checkpoint, (∀ c, c ∈ reordered ↔ c ∈ checkpoints) →
        (init.handleCheckpoints reordered).stableCheckpoint
          = (init.handleCheckpoints checkpoints).stableCheckpoint ∧
        (init.handleCheckpoints reordered).lowWatermark
          = (init.handleCheckpoints checkpoints).lowWatermark ∧
        (init.handleCheckpoints reordered).highWatermark
          = (init.handleCheckpoints checkpoints).highWatermark ∧
        (init.handleCheckpoints reordered).log = (init.handleCheckpoints checkpoints).log :=
  ⟨stabilizes_of_room hvotes hstable hroom,
    fun _ hsame => handleCheckpoints_congr hvotes hstable hsame⟩

end

namespace Sample

/-- An unsigned checkpoint. -/
def checkpointBy (id : NodeId) (s : SequenceNumber) : Checkpoint :=
  ⟨s, List.Vector.replicate 32 0, id, []⟩

/-- Checkpoints of three for the number 7, and of two for numbers around it. -/
def aroundSeven : List Checkpoint :=
  [checkpointBy "a" 9, checkpointBy "a" 7, checkpointBy "b" 9, checkpointBy "b" 7,
    checkpointBy "b" 7, checkpointBy "c" 5, checkpointBy "c" 7, checkpointBy "a" 5]

/-- A node with an instance under the number 0. -/
def withZeroth : PbftState := (signer 1).setInstance 0 (ConsensusInstance.new 0 0)

end Sample

open Sample in
theorem checkpoints_stabilize_seven :
    ((signer 1).handleCheckpoints aroundSeven).stableCheckpoint = 7 ∧
      Stabilizes (signer 1) aroundSeven ((signer 1).handleCheckpoints aroundSeven) :=
  ⟨by decide +kernel, (checkpoints_stabilize rfl rfl (by decide +kernel)).1⟩

open Sample in
/--
**With no quorum the log is left as it is**, and so is not restricted to the numbers above
the stable checkpoint: an instance under 0 stays.
-/
theorem zeroth_instance_stays :
    withZeroth.checkpoints = ∅ ∧ withZeroth.stableCheckpoint = 0 ∧
      (withZeroth.handleCheckpoints []).stableCheckpoint = 0 ∧
      (withZeroth.handleCheckpoints []).log ≠
        Table.retain (fun s => (withZeroth.handleCheckpoints []).stableCheckpoint < s)
          withZeroth.log := by
  decide +kernel

end P2pPbft
