/-
What is prepared stays prepared.

An entry that holds a prepared certificate keeps its digest and its request and only
moves on, until a stable checkpoint covers it.  Every handler respects that but one:
a primary gives a request the next number of its own counter without looking at
what the log has there, and `Reassigns` is when that hits a prepared instance.
-/
import P2pPbft.Proofs.Process
import P2pPbft.Proofs.Commits

namespace P2pPbft

/-- A prepared entry of the first state is still there in the second, or a stable checkpoint
has taken it out. -/
def Final (st st' : PbftState) : Prop :=
  ∀ s inst, st.log.lookup s = some inst → inst.isPrepared →
    (st'.log.lookup s = none ∧ s ≤ st'.stableCheckpoint) ∨
      ∃ inst', st'.log.lookup s = some inst' ∧ inst'.digest = inst.digest ∧
        inst'.request = inst.request ∧ inst.phase.rank ≤ inst'.phase.rank

/-- Every entry is still there, with its request, and none has been added or taken out. -/
structure Advances (st st' : PbftState) : Prop where
  stable : st'.stableCheckpoint = st.stableCheckpoint
  absent : ∀ s, st.log.lookup s = none → st'.log.lookup s = none
  present : ∀ s inst, st.log.lookup s = some inst →
    ∃ inst', st'.log.lookup s = some inst' ∧ inst'.digest = inst.digest ∧
      inst'.request = inst.request ∧ inst.phase.rank ≤ inst'.phase.rank

theorem Advances.refl (st : PbftState) : Advances st st where
  stable := rfl
  absent := fun _ h => h
  present := fun _ inst h => ⟨inst, h, rfl, rfl, le_rfl⟩

theorem Advances.trans {st st' st'' : PbftState} (h : Advances st st') (h' : Advances st' st'') :
    Advances st st'' where
  stable := h'.stable.trans h.stable
  absent := fun s hs => h'.absent s (h.absent s hs)
  present := by
    intro s inst hs
    obtain ⟨inst', hs', hd, hr, hphase⟩ := h.present s inst hs
    obtain ⟨inst'', hs'', hd', hr', hphase'⟩ := h'.present s inst' hs'
    exact ⟨inst'', hs'', hd'.trans hd, hr'.trans hr, hphase.trans hphase'⟩

theorem Final.trans_advances {st st' st'' : PbftState} (h : Final st st')
    (h' : Advances st' st'') : Final st st'' := by
  intro s inst hs hprep
  rcases h s inst hs hprep with ⟨hnone, hle⟩ | ⟨inst', hs', hd, hr, hphase⟩
  · refine Or.inl ⟨h'.absent s hnone, ?_⟩
    rw [h'.stable]
    exact hle
  · obtain ⟨inst'', hs'', hd', hr', hphase'⟩ := h'.present s inst' hs'
    exact Or.inr ⟨inst'', hs'', hd'.trans hd, hr'.trans hr, hphase.trans hphase'⟩

theorem advances_setInstance {st : PbftState} {s : SequenceNumber}
    {inst inst' : ConsensusInstance} {executed : Finset Hash} (hlookup : st.log.lookup s = some inst)
    (hdigest : inst'.digest = inst.digest) (hrequest : inst'.request = inst.request)
    (hphase : inst.phase.rank ≤ inst'.phase.rank) :
    Advances st { st.setInstance s inst' with executed := executed } where
  stable := rfl
  absent := by
    intro s' hnone
    have hs : s' ≠ s := fun h => absurd (hlookup.symm.trans (h ▸ hnone)) (by simp)
    exact (PbftState.lookup_setInstance st s s' inst').trans ((if_neg hs).trans hnone)
  present := by
    intro s' inst₀ h
    by_cases hs : s' = s
    · subst hs
      obtain rfl := Option.some.inj (h.symm.trans hlookup)
      exact ⟨inst', (PbftState.lookup_setInstance ..).trans (if_pos rfl), hdigest, hrequest, hphase⟩
    · exact ⟨inst₀, (PbftState.lookup_setInstance ..).trans ((if_neg hs).trans h), rfl, rfl, le_rfl⟩

theorem ConsensusInstance.isPrepared_iff {inst : ConsensusInstance} :
    inst.isPrepared ↔ 2 ≤ inst.phase.rank := by
  unfold isPrepared
  cases inst.phase <;> simp [Phase.rank]

section

variable [Crypto]

/--
The call is a request the replica would give a number whose instance is prepared
already, for another request.
-/
def PbftState.Reassigns (st : PbftState) (call : Call) : Prop :=
  ∃ request, call.request? = some request ∧ st.Proposes request ∧
    ∃ inst, st.log.lookup (st.sequence + 1) = some inst ∧ inst.isPrepared ∧
      inst.request ≠ some request

theorem PbftState.not_reassigns {st : PbftState} {call : Call}
    (h : st.log.lookup (st.sequence + 1) = none) : ¬ st.Reassigns call := by
  rintro ⟨-, -, -, inst, hlookup, -⟩
  rw [h] at hlookup
  cases hlookup

section

variable {st : PbftState} {issued : List Send} {now : Instant} {sec : Section} {out : Outcome}

theorem Transition.advances (h : Transition st now sec out) (hsec : sec.isContinuation = true) :
    Advances st out.state := by
  cases h with
  | stay _ _ => exact Advances.refl st
  | prepared s inst digest hlookup hpp hphase hquorum hdigest =>
      exact advances_setInstance hlookup rfl rfl (by simp [hphase, Phase.rank])
  | committed s inst hlookup hphase hquorum hdone =>
      exact advances_setInstance hlookup rfl rfl (by simp [hphase, Phase.rank])
  | executed s inst request hlookup hphase hquorum hrequest hfresh =>
      exact advances_setInstance hlookup rfl rfl (by simp [hphase, Phase.rank])
  | announce s hinterval hmod => exact Advances.refl st
  | startViewChange h => exact ⟨rfl, fun _ h => h, fun _ inst h => ⟨inst, h, rfl, rfl, le_rfl⟩⟩
  | _ => exact Bool.noConfusion hsec

theorem Section.drive_advances (now : Instant) (depth : Nat) :
    ∀ (st : PbftState) (sec : Section), sec.isContinuation = true →
      Advances st (sec.drive st now depth).state := by
  induction depth with
  | zero => exact fun st sec hsec => (run_transition st now sec).advances hsec
  | succ depth ih =>
      intro st sec hsec
      have hfirst := (run_transition st now sec).advances hsec
      cases hnext : (sec.run st now).next with
      | none =>
          rw [drive_of_none _ hnext]
          exact hfirst
      | some next =>
          rw [drive_of_some depth hnext]
          exact hfirst.trans (ih _ next ((run_transition st now sec).next hnext))

theorem Section.drive_advances_run (now : Instant) (depth : Nat) (st : PbftState)
    (sec : Section) : Advances (sec.run st now).state (sec.drive st now depth).state := by
  cases hnext : (sec.run st now).next with
  | none =>
      rw [drive_of_none _ hnext]
      exact Advances.refl _
  | some next =>
      cases depth with
      | zero => exact Advances.refl _
      | succ depth =>
          rw [drive_of_some depth hnext]
          exact drive_advances now depth _ next ((run_transition st now sec).next hnext)

/-- **A section keeps what is prepared**, unless it gives a request a number that is. -/
theorem Transition.final (hwf : WellFormed st issued) (h : Transition st now sec out)
    (hfree : ∀ request, sec = .handleRequest request → st.Proposes request →
      ∀ inst, st.log.lookup (st.sequence + 1) = some inst → ¬ inst.isPrepared) :
    Final st out.state := by
  intro s inst hlookup hprep
  rcases h.kept hlookup with ⟨inst', hlookup', rfl | hwrite⟩ | ⟨hnone, -, hstable, -⟩
  · exact Or.inr ⟨inst', hlookup', rfl, rfl, le_rfl⟩
  · have hrank := ConsensusInstance.isPrepared_iff.mp hprep
    cases hwrite with
    | propose request hp _ _ _ => exact absurd hprep (hfree request rfl hp inst hlookup)
    | accept pp hp _ _ =>
        obtain ⟨pp', hpp'⟩ := (hwf.entry _ inst hlookup).exists_prePrepare hprep
        exact absurd (hp.fresh inst hlookup) (by simp [hpp'])
    | storePrepare prepare hp _ =>
        rw [PbftState.instanceAt_of_lookup hlookup] at hlookup'
        exact Or.inr ⟨_, hlookup', rfl, rfl, le_rfl⟩
    | prepared s inst₀ digest hl hpp hphase hquorum hdigest _ =>
        obtain rfl := Option.some.inj (hlookup.symm.trans hl)
        exact absurd hrank (by simp [hphase, Phase.rank])
    | storeCommit commit hc _ =>
        rw [PbftState.instanceAt_of_lookup hlookup] at hlookup'
        exact Or.inr ⟨_, hlookup', rfl, rfl, le_rfl⟩
    | committed s inst₀ hl hphase hquorum _ hdone =>
        obtain rfl := Option.some.inj (hlookup.symm.trans hl)
        exact Or.inr ⟨_, hlookup', rfl, rfl, by simp [hphase, Phase.rank]⟩
  · exact Or.inl ⟨hnone, hstable⟩

theorem PbftState.handleRequest_of_proposes {request : Request} (h : st.Proposes request) :
    st.handleRequest request = .proceed (st.proposed request)
      [.broadcast (.prePrepare (st.proposal (st.sequence + 1) request)),
        .broadcast (.prepare (st.ownPrepare st.view (st.sequence + 1) request.digest))]
      (some (.tryAdvanceToPrepared (st.sequence + 1))) := by
  unfold handleRequest isPrimary
  rw [if_neg (by simpa using h.primary), if_neg h.fresh]
  simp only [UInt64.not_lt.mpr h.high, if_false]
  rfl

theorem PbftState.lookup_proposed (st : PbftState) (request : Request) (s : SequenceNumber) :
    (st.proposed request).log.lookup s =
      if s = st.sequence + 1 then
        some (st.recorded (st.proposal (st.sequence + 1) request)
          (st.ownPrepare st.view (st.sequence + 1) request.digest))
      else st.log.lookup s := by
  rw [proposed_eq]
  exact lookup_setInstance ..

theorem PbftState.tryAdvanceToPrepared_of {s : SequenceNumber} {inst : ConsensusInstance}
    {digest : Hash} (hlookup : st.log.lookup s = some inst) (hpp : inst.prePrepare.isSome)
    (hphase : inst.phase = .prePrepared) (hquorum : st.config.quorum ≤ inst.prepares.keys.card)
    (hdigest : inst.digest = some digest) :
    st.tryAdvanceToPrepared s = .proceed
      (st.setInstance s
        { inst with
          phase := .prepared
          commits := inst.commits.insert st.nodeId (st.ownCommit inst s digest) })
      [.broadcast (.commit (st.ownCommit inst s digest))]
      (some (.tryAdvanceToCommitted s)) := by
  have hnone : inst.prePrepare ≠ none := Option.isSome_iff_ne_none.mp hpp
  simp [tryAdvanceToPrepared, hlookup, hnone, hphase, Nat.not_lt.mpr hquorum, hdigest]

theorem PbftState.lookup_tryAdvanceToCommitted_of {s : SequenceNumber} {inst : ConsensusInstance}
    (hlookup : st.log.lookup s = some inst) (hphase : inst.phase = .prepared)
    (hquorum : st.config.quorum ≤ inst.commits.keys.card) :
    (st.tryAdvanceToCommitted s).state.log.lookup s = some { inst with phase := .committed } := by
  have hwritten : (st.setInstance s { inst with phase := .committed }).log.lookup s
      = some { inst with phase := .committed } :=
    (lookup_setInstance ..).trans (if_pos rfl)
  simp only [tryAdvanceToCommitted, hlookup, hphase, Nat.not_lt.mpr hquorum, if_false,
    ne_eq, not_true_eq_false]
  split
  · exact hwritten
  · split <;> exact hwritten

/--
Proposing the request of a prepared instance again sets the instance back, but the
prepares are still there, and the next section brings it forward.
-/
private theorem final_reproposed (hwf : WellFormed st issued) {request : Request}
    (hp : st.Proposes request) {inst : ConsensusInstance}
    (hlookup : st.log.lookup (st.sequence + 1) = some inst) (hprep : inst.isPrepared)
    (hsame : inst.request = some request) :
    Final st ((st.proposed request).tryAdvanceToPrepared (st.sequence + 1)).state := by
  have hok := hwf.entry _ inst hlookup
  obtain ⟨pp, hpp⟩ := hok.exists_prePrepare hprep
  have hrequest : pp.request = request := Option.some.inj ((hok.request pp hpp).symm.trans hsame)
  have hdigest : inst.digest = some request.digest := by
    rw [hok.digest pp hpp, ← hok.requestDigest pp hpp, hrequest]
  -- A committed instance would have its request among the executed ones.
  have hphase : inst.phase = .prepared := by
    rcases hprep with hphase | hphase
    · exact hphase
    · exact absurd (hok.executed hphase request hsame) hp.fresh
  have hquorum : st.config.quorum ≤
      ((st.instanceAt (st.sequence + 1)).prepares.insert st.nodeId
        (st.ownPrepare st.view (st.sequence + 1) request.digest)).keys.card := by
    rw [PbftState.instanceAt_of_lookup hlookup]
    exact (hok.quorum hprep).trans (Table.card_keys_le_insert _ _ _)
  have hrun : (st.proposed request).tryAdvanceToPrepared (st.sequence + 1) = _ :=
    PbftState.tryAdvanceToPrepared_of ((st.lookup_proposed request _).trans (if_pos rfl)) rfl rfl
      (by rw [PbftState.proposed_eq]; exact hquorum) rfl
  rw [hrun, Outcome.proceed_state]
  intro s inst₀ h₀ hprep₀
  by_cases hs : s = st.sequence + 1
  · subst hs
    obtain rfl := Option.some.inj (h₀.symm.trans hlookup)
    refine Or.inr ⟨_, (PbftState.lookup_setInstance ..).trans (if_pos rfl), hdigest.symm,
      hsame.symm, ?_⟩
    simp [hphase]
  · refine Or.inr ⟨inst₀, (PbftState.lookup_setInstance ..).trans ((if_neg hs).trans ?_), rfl, rfl,
      le_rfl⟩
    exact (st.lookup_proposed request s).trans ((if_neg hs).trans h₀)

/-- **A call keeps what is prepared exactly if it does not reassign its number.** -/
theorem final_process_iff (hwf : WellFormed st issued) (call : Call) (now : Instant) :
    Final st (st.process call now).state ↔ ¬ st.Reassigns call := by
  unfold PbftState.process
  constructor
  · rintro hfinal ⟨request, hrequest, hp, inst, hlookup, hprep, hdiffers⟩
    simp only [Call.entry_eq_handleRequest.mpr hrequest] at hfinal
    have hadvances := Section.drive_advances_run now 3 st (.handleRequest request)
    rw [Section.run, PbftState.handleRequest_of_proposes hp] at hadvances
    obtain ⟨inst', hlookup', -, hrequest', -⟩ := hadvances.present _ _
      ((st.lookup_proposed request _).trans (if_pos rfl))
    rcases hfinal _ inst hlookup hprep with ⟨hnone, -⟩ | ⟨inst'', hlookup'', -, hrequest'', -⟩
    · exact absurd (hlookup'.symm.trans hnone) (by simp)
    · obtain rfl := Option.some.inj (hlookup'.symm.trans hlookup'')
      exact hdiffers (hrequest''.symm.trans hrequest')
  · intro hfree
    cases hentry : call.entry with
    | none => exact fun s inst h _ => Or.inr ⟨inst, h, rfl, rfl, le_rfl⟩
    | some sec =>
        have hadvances := Section.drive_advances_run now 3 st sec
        by_cases hagain : ∃ request, sec = .handleRequest request ∧ st.Proposes request ∧
            ∃ inst, st.log.lookup (st.sequence + 1) = some inst ∧ inst.isPrepared
        · obtain ⟨request, rfl, hp, inst, hlookup, hprep⟩ := hagain
          have hsame : inst.request = some request := by
            by_contra hdiffers
            exact hfree ⟨request, Call.entry_eq_handleRequest.mp hentry, hp, inst, hlookup, hprep,
              hdiffers⟩
          have hrun : (Section.handleRequest request).run st now = _ :=
            PbftState.handleRequest_of_proposes hp
          have hnext : ((Section.handleRequest request).run st now).next
              = some (.tryAdvanceToPrepared (st.sequence + 1)) := by rw [hrun]; rfl
          show Final st ((Section.handleRequest request).drive st now 3).state
          rw [Section.drive_of_some 2 hnext, hrun]
          exact (final_reproposed hwf hp hlookup hprep hsame).trans_advances
            (Section.drive_advances_run now 2 (st.proposed request)
              (.tryAdvanceToPrepared (st.sequence + 1)))
        · refine ((run_transition st now sec).final hwf ?_).trans_advances hadvances
          intro request hsec hp inst hlookup hprep
          exact hagain ⟨request, hsec, hp, inst, hlookup, hprep⟩

end

/-- One call after another, each run to its end, none of which reassigns a number. -/
def PbftState.Serves (st : PbftState) (c : Call × Instant) (st' : PbftState) : Prop :=
  ¬ st.Reassigns c.1 ∧ (st.process c.1 c.2).state = st'

/-- Along such calls what was prepared is kept, or behind the stable checkpoint for good. -/
theorem PbftState.kept_of_serves {st st' : PbftState} {issued : List Send}
    {calls : List (Call × Instant)} (h : Run PbftState.Serves st calls st')
    (hwf : WellFormed st issued) {s : SequenceNumber} {inst : ConsensusInstance}
    (hlookup : st.log.lookup s = some inst) (hprep : inst.isPrepared) :
    s ≤ st'.stableCheckpoint ∨
      ∃ inst', st'.log.lookup s = some inst' ∧ inst'.digest = inst.digest ∧
        inst'.request = inst.request ∧ inst.phase.rank ≤ inst'.phase.rank := by
  refine (h.state_invariant (I := fun st' => (∃ issued, WellFormed st' issued) ∧
    (s ≤ st'.stableCheckpoint ∨ ∃ inst', st'.log.lookup s = some inst' ∧
      inst'.digest = inst.digest ∧ inst'.request = inst.request ∧
      inst.phase.rank ≤ inst'.phase.rank)) ⟨⟨issued, hwf⟩, Or.inr ⟨inst, hlookup, rfl, rfl, le_rfl⟩⟩
    ?_).2
  rintro t ⟨call, now⟩ u ⟨⟨issued, hwf⟩, hkept⟩ ⟨hfree, rfl⟩
  have hwf' := PbftState.process_keep (fun hwf ht => hwf.step ht) hwf call now
  refine ⟨⟨_, hwf'⟩, ?_⟩
  rcases hkept with hle | ⟨inst', hlookup', hd, hr, hphase⟩
  · -- The stable checkpoint is the low watermark, which never goes down.
    refine Or.inl (PbftState.process_keep
      (I := fun st issued => WellFormed st issued ∧ s ≤ st.stableCheckpoint) ?_ ⟨hwf, hle⟩
      call now).2
    rintro st issued now sec out ⟨hwf, hle⟩ ht
    refine ⟨hwf.step ht, ?_⟩
    rw [← (hwf.step ht).low]
    exact UInt64.le_trans (hwf.low ▸ hle) (hwf.low_le ht)
  · have hprep' : inst'.isPrepared :=
      ConsensusInstance.isPrepared_iff.mpr
        ((ConsensusInstance.isPrepared_iff.mp hprep).trans hphase)
    rcases (final_process_iff hwf call now).mpr hfree s inst' hlookup' hprep' with
      ⟨-, hle⟩ | ⟨inst'', hlookup'', hd', hr', hphase'⟩
    · exact Or.inl hle
    · exact Or.inr ⟨inst'', hlookup'', hd'.trans hd, hr'.trans hr, hphase.trans hphase'⟩

/--
**In every reachable state a call keeps what is prepared exactly if it does not
reassign its number**, and calls that do not keep it for as long as they go on.
-/
theorem Replica.prepared_is_final {nodeId : NodeId} {keypair : KeyPair} {replicas : Replicas}
    {config : PbftConfig} {now : Instant} {as : List Action} {r : Replica}
    (h : Run (Next fun _ _ => True)
      (new (PbftState.new nodeId keypair replicas config now)) as r) :
    (∀ call now, Final r.state (r.state.process call now).state ↔ ¬ r.state.Reassigns call) ∧
      ∀ calls st', Run PbftState.Serves r.state calls st' →
        ∀ s inst, r.state.log.lookup s = some inst → inst.isPrepared →
          s ≤ st'.stableCheckpoint ∨
            ∃ inst', st'.log.lookup s = some inst' ∧ inst'.digest = inst.digest ∧
              inst'.request = inst.request ∧ inst.phase.rank ≤ inst'.phase.rank := by
  have hwf := (sound_of_run h (sound_new nodeId keypair replicas config now)).wellFormed
  refine ⟨fun call now => final_process_iff hwf call now, ?_⟩
  intro calls st' hrun s inst hlookup hprep
  exact PbftState.kept_of_serves hrun hwf hlookup hprep

end

namespace Replica

open Sample

/-- A primary that has committed a request keeps it when it gives the next numbers to two
others. -/
theorem prepared_is_final_primary :
    ∃ r : Replica, (r.state.instanceAt 1).phase = .committed ∧ r.state.Proposes (request 2) ∧
      Final r.state (r.state.process (.handleRequest (request 2)) 0).state ∧
      ∃ st' : PbftState, (st'.instanceAt 3).phase = .committed ∧ (1 ≤ st'.stableCheckpoint ∨
        ∃ inst', st'.log.lookup 1 = some inst' ∧ inst'.request = some (request 1)) := by
  obtain ⟨r, hrun, hcommitted, hproposes, hfree, hfree', hthird, hrequest⟩ :=
    exists_run (fun _ _ => True) (new ((cluster 1).initState (node 0)))
      (toEnd (.handleRequest (request 1)) 8)
      (fun r =>
        let st' := (r.state.process (.handleRequest (request 2)) 0).state
        (r.state.instanceAt 1).phase = .committed ∧ r.state.Proposes (request 2) ∧
          r.state.log.lookup (r.state.sequence + 1) = none ∧
          st'.log.lookup (st'.sequence + 1) = none ∧
          ((st'.process (.handleRequest (request 3)) 0).state.instanceAt 3).phase = .committed ∧
          (r.state.instanceAt 1).request = some (request 1)) (by decide +kernel)
  have hserves : PbftState.Serves r.state (.handleRequest (request 2), 0) _ :=
    ⟨PbftState.not_reassigns hfree, rfl⟩
  have hserves' : PbftState.Serves _ (.handleRequest (request 3), 0) _ :=
    ⟨PbftState.not_reassigns hfree', rfl⟩
  obtain ⟨hiff, hkept⟩ := prepared_is_final hrun
  have hfinal := (hiff (.handleRequest (request 2)) 0).mpr (PbftState.not_reassigns hfree)
  refine ⟨r, hcommitted, hproposes, hfinal, _, hthird, ?_⟩
  refine (hkept _ _ ((Run.single hserves).snoc hserves') 1 _
    (PbftState.lookup_of_isPrepared (Or.inr hcommitted)) (Or.inr hcommitted)).imp_right ?_
  rintro ⟨inst', hlookup, -, hsame, -⟩
  exact ⟨inst', hlookup, hsame.trans hrequest⟩

/-- **A committed instance is given to another request** by a backup that becomes primary. -/
theorem committed_is_replaced :
    ∃ r, Run (Next fun r a => ∀ message, a.message? = some message → r.Unforged message)
        (new ((cluster 1).initState (node 1)))
        (backupCommits ++ [.call (.processMessage (.newView ⟨1, 0, node 1, []⟩)) 0, .resume 0 0]) r ∧
      ¬ Final r.state (r.state.process (.handleRequest (request 2)) 0).state := by
  obtain ⟨r, hrun, hphase, hstable, hdigest⟩ := exists_run
    (fun r a => ∀ message, a.message? = some message → r.Unforged message)
    (new ((cluster 1).initState (node 1)))
    (backupCommits ++ [.call (.processMessage (.newView ⟨1, 0, node 1, []⟩)) 0, .resume 0 0])
    (fun r => (r.state.instanceAt 1).phase = .committed ∧
      (r.state.process (.handleRequest (request 2)) 0).state.stableCheckpoint = 0 ∧
      ((r.state.process (.handleRequest (request 2)) 0).state.instanceAt 1).digest
        ≠ (r.state.instanceAt 1).digest) (by decide +kernel)
  refine ⟨r, hrun, fun hfinal => ?_⟩
  have hlookup := PbftState.lookup_of_isPrepared (Or.inr hphase)
  rcases hfinal 1 _ hlookup (Or.inr hphase) with ⟨-, hle⟩ | ⟨inst, hlookup', heq, -, -⟩
  · rw [hstable] at hle
    exact absurd hle (by decide)
  · rw [← PbftState.instanceAt_of_lookup hlookup'] at heq
    exact hdigest heq

end Replica

end P2pPbft
