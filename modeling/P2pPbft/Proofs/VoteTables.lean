/-
What the two tables of votes still hold.

Checkpoints are kept under their numbers and view changes under their views.  The tables
are cleaned when the stable checkpoint or the view moves, so in between nothing out of date
may come in.  A view change is looked at first: it has to be for a later view.  A checkpoint
is not, whatever number it is for, and one below the stable checkpoint stays until the next
one becomes stable.
-/
import P2pPbft.Proofs.Window
import P2pPbft.Proofs.Checkpoints

namespace P2pPbft

namespace PbftState

/--
Nothing is on file that could not be of use: no checkpoint below the stable one, no view
change for a view already reached, and no checkpoint that should have become stable.
-/
structure NothingObsolete (st : PbftState) : Prop where
  checkpoints : ∀ s ∈ st.checkpoints.keys, st.stableCheckpoint ≤ s
  viewChanges : ∀ v ∈ st.viewChanges.keys, st.view < v
  pending : ∀ s ∈ st.checkpoints.keys, st.stableCheckpoint < s →
    (st.checkpointers s).card < st.config.quorum

/-- A checkpoint that is handled is not below the stable one. -/
def UpToDate (st : PbftState) : Section → Prop
  | .handleCheckpoint c => st.stableCheckpoint ≤ c.sequence
  | _ => True

instance (st : PbftState) : (sec : Section) → Decidable (st.UpToDate sec)
  | .handleCheckpoint _ => by dsimp only [UpToDate]; infer_instance
  | .handleRequest _ | .handlePrePrepare _ | .handlePrepare _ | .tryAdvanceToPrepared _
  | .handleCommit _ | .tryAdvanceToCommitted _ | .tryCheckpoint _ | .handleViewChange _
  | .handleNewView _ | .startViewChange | .checkTimeout => isTrue trivial

/-- The view is not about to wrap when a view change is started. -/
def NoViewWrap (st : PbftState) : Section → Prop
  | .startViewChange => st.viewChanging = false → st.view.toNat + 1 < 2 ^ 64
  | _ => True

instance (st : PbftState) : (sec : Section) → Decidable (st.NoViewWrap sec)
  | .startViewChange => by dsimp only [NoViewWrap]; infer_instance
  | .handleRequest _ | .handlePrePrepare _ | .handlePrepare _ | .tryAdvanceToPrepared _
  | .handleCommit _ | .tryAdvanceToCommitted _ | .tryCheckpoint _ | .handleCheckpoint _
  | .handleViewChange _ | .handleNewView _ | .checkTimeout => isTrue trivial

theorem nothingObsolete_new (nodeId : NodeId) (keypair : KeyPair) (replicas : Replicas)
    (config : PbftConfig) (now : Instant) :
    (new nodeId keypair replicas config now).NothingObsolete :=
  ⟨fun _ h => absurd h (by simp [new]), fun _ h => absurd h (by simp [new]),
    fun _ h => absurd h (by simp [new])⟩

/-! ### Counting a checkpoint -/

section

variable {st : PbftState} {c : Checkpoint} {s : SequenceNumber}

theorem mem_keys_countCheckpoint :
    s ∈ (st.countCheckpoint c).checkpoints.keys ↔ s = c.sequence ∨ s ∈ st.checkpoints.keys := by
  simp [countCheckpoint]

theorem mem_keys_stabilize_checkpoints {sequence : SequenceNumber} :
    s ∈ (st.stabilize sequence).checkpoints.keys ↔ sequence ≤ s ∧ s ∈ st.checkpoints.keys := by
  constructor
  · intro h
    obtain ⟨received, hlookup⟩ := Table.exists_lookup_of_mem_keys h
    obtain ⟨hle, hold⟩ := Table.lookup_retain_eq_some.mp hlookup
    exact ⟨of_decide_eq_true hle, Table.mem_keys_of_lookup hold⟩
  · rintro ⟨hle, h⟩
    obtain ⟨received, hlookup⟩ := Table.exists_lookup_of_mem_keys h
    exact Table.mem_keys_of_lookup (Table.lookup_retain_eq_some.mpr ⟨decide_eq_true hle, hlookup⟩)

theorem checkpointers_of_ne (hne : s ≠ c.sequence) :
    (st.countCheckpoint c).checkpointers s = st.checkpointers s := by
  rw [checkpointers_countCheckpoint, if_neg hne]

/-- **Nothing obsolete is left by a checkpoint** that is up to date. -/
theorem NothingObsolete.handleCheckpoint (h : st.NothingObsolete)
    (hdate : st.stableCheckpoint ≤ c.sequence) :
    (st.handleCheckpoint c).state.NothingObsolete := by
  by_cases hstable : st.MakesStable c
  · rw [handleCheckpoint_of_makesStable hstable]
    refine ⟨fun s hs => (mem_keys_stabilize_checkpoints.mp hs).1, h.viewChanges, ?_⟩
    intro s hs hlt
    have hlt : c.sequence < s := hlt
    have hne : s ≠ c.sequence := by
      rintro rfl
      exact UInt64.lt_irrefl _ hlt
    obtain ⟨hle, hs⟩ := mem_keys_stabilize_checkpoints.mp hs
    rw [checkpointers_stabilize _ hle, checkpointers_of_ne hne]
    exact h.pending s ((mem_keys_countCheckpoint.mp hs).resolve_left hne)
      (UInt64.lt_trans hstable.2 hlt)
  · rw [handleCheckpoint_of_not_makesStable hstable]
    refine ⟨?_, h.viewChanges, ?_⟩
    · intro s hs
      rcases mem_keys_countCheckpoint.mp hs with rfl | hold
      · exact hdate
      · exact h.checkpoints s hold
    · intro s hs hlt
      by_cases heq : s = c.sequence
      · subst heq
        rw [checkpointers_countCheckpoint, if_pos rfl, ← keys_addCheckpoint]
        exact Nat.lt_of_not_le fun hquorum => hstable ⟨hquorum, hlt⟩
      · rw [checkpointers_of_ne heq]
        exact h.pending s ((mem_keys_countCheckpoint.mp hs).resolve_left heq) hlt

theorem NothingObsolete.upToDate (h : (st.handleCheckpoint c).state.NothingObsolete) :
    st.stableCheckpoint ≤ c.sequence := by
  by_cases hstable : st.MakesStable c
  · exact UInt64.le_of_lt hstable.2
  · rw [handleCheckpoint_of_not_makesStable hstable] at h
    exact h.checkpoints c.sequence (mem_keys_countCheckpoint.mpr (Or.inl rfl))

end

/-! ### Steps and runs -/

section

variable [Crypto] {st : PbftState} {now : Instant} {sec : Section} {out : Outcome}

theorem checkpoints_cases (h : Transition st now sec out) :
    (∃ c, sec = .handleCheckpoint c) ∨ out.state.checkpoints = st.checkpoints ∧
      out.state.stableCheckpoint = st.stableCheckpoint := by
  cases h with
  | propose request h => exact Or.inr (by simp [proposed_eq, setInstance])
  | accept pp h => exact Or.inr (by simp [record_eq, setInstance])
  | countCheckpoint c => exact Or.inl ⟨c, rfl⟩
  | stabilize c hquorum hnew => exact Or.inl ⟨c, rfl⟩
  | _ => exact Or.inr ⟨rfl, rfl⟩

/-- **View changes on file stay ahead of the view.** -/
theorem viewChanges_ahead (h : ∀ v ∈ st.viewChanges.keys, st.view < v)
    (ht : Transition st now sec out) (hwrap : st.NoViewWrap sec) :
    ∀ v ∈ out.state.viewChanges.keys, out.state.view < v := by
  have hcount : ∀ vc : ViewChange, st.view < vc.newView →
      ∀ v ∈ (st.countViewChange vc).viewChanges.keys, st.view < v := by
    intro vc hnew v hv
    rw [countViewChange, Table.keys_insert] at hv
    rcases Finset.mem_insert.mp hv with rfl | hold
    · exact hnew
    · exact h v hold
  cases ht with
  | propose request hp => simpa [proposed_eq, setInstance] using h
  | accept pp hp => simpa [record_eq, setInstance] using h
  | countViewChange vc hnew | announceNewView vc hnew _ _ => exact hcount vc hnew
  | startViewChange hchanging => exact hcount _ (lt_succ_of_toNat (hwrap hchanging))
  | enterView nv hnew =>
      intro v hv
      obtain ⟨received, hlookup⟩ := Table.exists_lookup_of_mem_keys hv
      exact of_decide_eq_true (Table.lookup_retain_eq_some.mp hlookup).1
  | _ => exact h

theorem NothingObsolete.step (h : st.NothingObsolete) (ht : Transition st now sec out)
    (hwrap : st.NoViewWrap sec) (hother : ∀ c, sec ≠ .handleCheckpoint c) :
    out.state.NothingObsolete := by
  rcases checkpoints_cases ht with ⟨c, hsec⟩ | ⟨hsame, hstable⟩
  · exact absurd hsec (hother c)
  · refine ⟨?_, viewChanges_ahead h.viewChanges ht hwrap, ?_⟩
    · rw [hsame, hstable]
      exact h.checkpoints
    · unfold checkpointers
      rw [hsame, hstable, ht.static.2.2.2]
      exact h.pending

/-- **Nothing obsolete is left, exactly if no checkpoint comes late.** -/
theorem NothingObsolete.step_iff (h : st.NothingObsolete) (hwrap : st.NoViewWrap sec) :
    (sec.run st now).state.NothingObsolete ↔ st.UpToDate sec := by
  cases sec with
  | handleCheckpoint c => exact ⟨NothingObsolete.upToDate, h.handleCheckpoint⟩
  | _ =>
      refine ⟨fun _ => trivial, fun _ => ?_⟩
      exact h.step (run_transition st now _) hwrap (fun _ => Section.noConfusion)

end

end PbftState

/--
**The vote tables hold nothing obsolete, exactly if no checkpoint comes late.**  In runs in
which the view does not wrap, all states have nothing obsolete on file if and only if no
checkpoint below the stable one is handled.
-/
theorem Replica.nothing_obsolete_iff [Crypto] {nodeId : NodeId} {keypair : KeyPair}
    {replicas : Replicas} {config : PbftConfig} {now : Instant} (as : List Action) (r : Replica) :
    Run (fun r a r' => Next (Meets PbftState.NoViewWrap) r a r' ∧ r'.state.NothingObsolete)
        (new (PbftState.new nodeId keypair replicas config now)) as r ↔
      Run (fun r a r' => r.Meets PbftState.UpToDate a ∧ Next (Meets PbftState.NoViewWrap) r a r')
        (new (PbftState.new nodeId keypair replicas config now)) as r :=
  keeps_iff _ _ _ _ _ (I := fun st _ => st.NothingObsolete) (J := fun _ _ => True)
    (PbftState.nothingObsolete_new nodeId keypair replicas config now) trivial
    (fun _ _ _ => trivial) (fun hrules hsec _ h => h.step_iff (hrules _ hsec))

open Sample in
/-- **A late checkpoint stays on file**: one for 50 when the stable one is 100. -/
theorem Replica.late_checkpoint_stays :
    ∃ r, Run (Next (Meets PbftState.NoViewWrap)) (new ((cluster 3).initState (node 1)))
        (checkpointsFrom [0, 2, 3] 100 ++
          [received (.checkpoint ((signer 0).ownCheckpoint 50))]) r ∧
      r.state.stableCheckpoint = 100 ∧ 50 ∈ r.state.checkpoints.keys :=
  exists_run _ _ _ _ (by decide +kernel)

end P2pPbft
