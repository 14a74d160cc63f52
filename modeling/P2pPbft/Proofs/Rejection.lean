/-
What a refused call leaves behind.

Every handler of a message checks first and writes afterwards, with two exceptions to look
at.  The handlers of prepares and commits create the log entry before their last check; but
that check compares digests, and an entry that was not there before has none.  And the
handler of requests takes the next number before it looks whether the window has room for
it: a request that is refused leaves a hole in the numbers.

The sections a handler goes on to never fail, so an error is always that of the first one.
-/
import P2pPbft.Proofs.Window
import P2pPbft.Proofs.Process

namespace P2pPbft

section

variable [Crypto] {st : PbftState} {now : Instant} {sec : Section} {out : Outcome}
  {error : PbftError}

/-- A section that fails has nothing to send or to go on to, and has not written anything,
unless it is that of a request the window has no room for. -/
theorem Transition.err (h : Transition st now sec out) (herr : out.result = .err error) :
    out.sends = [] ∧ out.next = none ∧
      (out.state = st ∨ ∃ request, sec = .handleRequest request ∧ st.primary = st.nodeId ∧
        request.digest ∉ st.executed ∧ st.highWatermark < st.sequence + 1) := by
  cases h with
  | stay sec result => exact ⟨rfl, rfl, Or.inl rfl⟩
  | refuse request hprimary hfresh hhigh =>
      exact ⟨rfl, rfl, Or.inr ⟨request, rfl, hprimary, hfresh, hhigh⟩⟩
  | _ => exact absurd herr (by simp)

/-- **Only the first section of a handler fails**, and only if it is about a request or a message. -/
theorem Section.message_of_err (herr : (sec.run st now).result = .err error) :
    (∃ request, sec = .handleRequest request) ∨ ∃ message, sec.message? = some message := by
  cases sec with
  | handleRequest request => exact Or.inl ⟨request, rfl⟩
  | handlePrePrepare _ | handlePrepare _ | handleCommit _ | handleCheckpoint _
  | handleViewChange _ | handleNewView _ => exact Or.inr ⟨_, rfl⟩
  | tryAdvanceToPrepared s =>
      refine absurd herr ?_
      show (st.tryAdvanceToPrepared s).result ≠ .err error
      unfold PbftState.tryAdvanceToPrepared
      repeat' split
      all_goals simp
  | tryAdvanceToCommitted s =>
      refine absurd herr ?_
      show (st.tryAdvanceToCommitted s).result ≠ .err error
      unfold PbftState.tryAdvanceToCommitted
      simp only
      repeat' split
      all_goals simp
  | tryCheckpoint s =>
      refine absurd herr ?_
      show (st.tryCheckpoint s).result ≠ .err error
      unfold PbftState.tryCheckpoint
      repeat' split
      all_goals simp
  | startViewChange =>
      refine absurd herr ?_
      show st.startViewChange.result ≠ .err error
      unfold PbftState.startViewChange
      split <;> simp
  | checkTimeout =>
      refine absurd herr ?_
      show (st.checkTimeout now).result ≠ .err error
      unfold PbftState.checkTimeout
      repeat' split
      all_goals simp

theorem Section.not_err_of_isContinuation (hsec : sec.isContinuation = true) :
    (sec.run st now).result ≠ .err error := by
  intro herr
  rcases message_of_err herr with ⟨request, rfl⟩ | ⟨message, hmessage⟩
  · exact Bool.noConfusion hsec
  · cases sec with
    | tryAdvanceToPrepared | tryAdvanceToCommitted | tryCheckpoint | startViewChange =>
        cases hmessage
    | _ => cases hsec

theorem Section.drive_not_err (depth : Nat) :
    ∀ {st : PbftState} {sec : Section}, sec.isContinuation = true →
      (sec.drive st now depth).result ≠ .err error := by
  induction depth with
  | zero => exact fun hsec => not_err_of_isContinuation hsec
  | succ depth ih =>
      intro st sec hsec
      cases hnext : (sec.run st now).next with
      | none =>
          rw [drive_of_none _ hnext]
          exact not_err_of_isContinuation hsec
      | some next =>
          rw [drive_of_some depth hnext]
          exact ih ((run_transition st now sec).next hnext)

theorem Section.drive_err (depth : Nat) (herr : (sec.drive st now depth).result = .err error) :
    sec.drive st now depth = sec.run st now := by
  cases hnext : (sec.run st now).next with
  | none => exact drive_of_none _ hnext
  | some next =>
      cases depth with
      | zero => rfl
      | succ depth =>
          rw [drive_of_some depth hnext] at herr
          exact absurd herr (drive_not_err depth ((run_transition st now sec).next hnext))

/-- **A message that is refused changes nothing**, in any state. -/
theorem PbftState.process_err {message : ConsensusMessage}
    (hmessage : ∀ request, message ≠ .request request)
    (herr : (st.process (.processMessage message) now).result = .err error) :
    (st.process (.processMessage message) now).state = st ∧
      (st.process (.processMessage message) now).sends = [] := by
  cases hentry : (Call.processMessage message).entry with
  | none =>
      have hprocess : st.process (.processMessage message) now = .stop st .ok := by
        simp only [process, hentry]
      rw [hprocess]
      exact ⟨rfl, rfl⟩
  | some sec =>
      have hprocess : st.process (.processMessage message) now = sec.drive st now 3 := by
        simp only [process, hentry]
      rw [hprocess] at herr ⊢
      have hdrive := Section.drive_err 3 herr
      rw [hdrive] at herr ⊢
      obtain ⟨hsends, -, hstate | ⟨request, rfl, -⟩⟩ := (run_transition st now sec).err herr
      · exact ⟨hstate, hsends⟩
      · obtain ⟨message', hmessage'⟩ : ∃ request, Call.request? (.processMessage message) = some request :=
          ⟨request, Call.entry_eq_handleRequest.mp hentry⟩
        cases message with
        | request request => exact absurd rfl (hmessage request)
        | _ => cases hmessage'

end

/-! ### Refused messages -/

namespace Replica

variable [Crypto] {nodeId : NodeId} {keypair : KeyPair} {replicas : Replicas}
  {config : PbftConfig} {now : Instant}

/-- All that has come of the step is a handler that is over and has failed. -/
structure Refuses (r r' : Replica) (error : PbftError) : Prop where
  state : r'.state = r.state
  issued : r'.issued = r.issued
  outgoing : r'.outgoing = r.outgoing
  committed : r'.committed = r.committed
  tasks : r'.tasks = r.tasks ++ [⟨[], none, .err error⟩]

theorem refuses_of_err {r r' : Replica} {a : Action} {sec : Section} {error : PbftError}
    (hcascading : r.Cascading) (hact : r.act a = some r') (hsec : r.sectionOf a = some sec)
    (hother : ∀ request, sec ≠ .handleRequest request)
    (herr : (sec.run r.state a.now).result = .err error) :
    (∃ message now, a = .call (.processMessage message) now) ∧ r.Refuses r' error := by
  obtain ⟨message, hmessage⟩ := (Section.message_of_err herr).resolve_left fun ⟨request, h⟩ =>
    hother request h
  obtain ⟨now, rfl⟩ := Action.call_of_message? (hcascading.message_of_sectionOf hsec hmessage)
  refine ⟨⟨message, now, rfl⟩, ?_⟩
  obtain ⟨hsends, hnext, hstate⟩ := (run_transition r.state now sec).err herr
  have hstate := hstate.resolve_right fun ⟨request, h, _⟩ => hother request h
  have hentry : (Call.processMessage message).entry = some sec := hsec
  simp only [act, hentry] at hact
  obtain rfl := Option.some.inj hact
  refine ⟨hstate, ?_, rfl, rfl, ?_⟩
  · show r.issued ++ _ = r.issued
    rw [hsends, List.append_nil]
  · show r.tasks ++ [⟨_, _, _⟩] = _
    rw [hsends, hnext]
    exact congrArg (fun result => r.tasks ++ [⟨[], none, result⟩]) herr

/--
**Refused messages have no effect.**  In every state a replica can reach, a message other
than a request that `process_message` returns an error for leaves the state as it was, and
nothing is sent.  And where handlers take turns, an error is always returned from the
section a message has started, with the state as it was, and with nothing sent before or
to be sent.
-/
theorem refused_messages_have_no_effect {as : List Action} {r : Replica}
    (h : Run (Next fun _ _ => True) (new (PbftState.new nodeId keypair replicas config now)) as r) :
    (∀ message now error, (∀ request, message ≠ .request request) →
      (r.state.process (.processMessage message) now).result = .err error →
        (r.state.process (.processMessage message) now).state = r.state ∧
          (r.state.process (.processMessage message) now).sends = []) ∧
    ∀ a r' sec error, r.act a = some r' → r.sectionOf a = some sec →
      (∀ request, sec ≠ .handleRequest request) →
      (sec.run r.state a.now).result = .err error →
        (∃ message now, a = .call (.processMessage message) now) ∧ r.Refuses r' error := by
  have hsound := sound_of_run h (sound_new nodeId keypair replicas config now)
  refine ⟨fun message now error hmessage herr => PbftState.process_err hmessage herr, ?_⟩
  intro a r' sec error hact hsec hother herr
  exact refuses_of_err hsound.cascading hact hsec hother herr

end Replica

open Sample in
/-- A backup that gets the first prepare, and then one of another view. -/
theorem Replica.refused_messages_have_no_effect_backup :
    ∃ r : Replica, 1 ∈ r.state.log.keys ∧
      (r.state.process (.processMessage (.prepare ((signer 3).ownPrepare 1 1 (request 1).digest)))
        0).state = r.state := by
  obtain ⟨r, hrun, hkey, herr⟩ := exists_run (fun _ _ => True)
    (new ((cluster 3).initState (node 1)))
    [received (.prepare ((signer 2).ownPrepare 0 1 (request 1).digest))]
    (fun r => 1 ∈ r.state.log.keys ∧
      (r.state.process (.processMessage (.prepare ((signer 3).ownPrepare 1 1 (request 1).digest)))
        0).result = .err .invalidView) (by decide +kernel)
  exact ⟨r, hkey, ((refused_messages_have_no_effect hrun).1 _ 0 .invalidView
    (fun _ => ConsensusMessage.noConfusion) herr).1⟩

/-! ### Refused requests -/

namespace PbftState

/--
A request that a primary has not executed comes when there is a number left for it, and a
checkpoint that becomes stable less than two intervals from the last number leaves the
counter below the end of the window.
-/
def HasNumber [Crypto] (st : PbftState) : Section → Prop
  | .handleRequest request => st.primary = st.nodeId → request.digest ∉ st.executed →
      st.sequence < st.highWatermark
  | .handleCheckpoint c => st.MakesStable c →
      c.sequence.toNat + (st.config.checkpointInterval * 2).toNat < 2 ^ 64 ∨
        st.sequence ≤ c.sequence + st.config.checkpointInterval * 2
  | _ => True

instance [Crypto] (st : PbftState) : (sec : Section) → Decidable (st.HasNumber sec)
  | .handleRequest _ | .handleCheckpoint _ => by dsimp only [HasNumber]; infer_instance
  | .handlePrePrepare _ | .handlePrepare _ | .tryAdvanceToPrepared _ | .handleCommit _
  | .tryAdvanceToCommitted _ | .tryCheckpoint _ | .handleViewChange _
  | .handleNewView _ | .startViewChange | .checkTimeout => isTrue trivial

/-- The numbers proposed are all up to the counter, in order, and the window covers it. -/
structure Counts (st : PbftState) (issued : List Send) : Prop where
  numbered : (proposals issued).map (·.sequence.toNat) = List.range' 1 st.sequence.toNat
  window : st.sequence ≤ st.highWatermark

section

variable [Crypto] {st : PbftState} {issued : List Send} {now : Instant} {sec : Section}
  {out : Outcome}

omit [Crypto] in
theorem Counts.quiet (h : st.Counts issued) {sends : List Send} (hnone : proposals sends = [])
    {st' : PbftState} (hsequence : st'.sequence = st.sequence)
    (hwindow : st.sequence ≤ st'.highWatermark) : st'.Counts (issued ++ sends) := by
  constructor
  · rw [proposals_append, hnone, List.append_nil, hsequence]
    exact h.numbered
  · rw [hsequence]
    exact hwindow

omit [Crypto] in
theorem succ_le_of_lt {s t : SequenceNumber} (h : s < t) :
    (s + 1).toNat = s.toNat + 1 ∧ s + 1 ≤ t := by
  have hone : (1 : UInt64).toNat = 1 := rfl
  have hlt := UInt64.lt_iff_toNat_lt.mp h
  have htop := t.toNat_lt
  have hsum : (s + 1).toNat = s.toNat + 1 := by
    rw [UInt64.toNat_add, hone]
    omega
  refine ⟨hsum, UInt64.le_iff_toNat_le.mpr ?_⟩
  omega

theorem Counts.step (h : st.Counts issued) (hw : st.Windowed) (ht : Transition st now sec out)
    (hnumber : st.HasNumber sec) : out.state.Counts (issued ++ out.sends) := by
  cases ht with
  | refuse request hprimary hfresh hhigh =>
      have hle := (succ_le_of_lt (hnumber hprimary hfresh)).2
      exact absurd hhigh (UInt64.not_lt.mpr hle)
  | propose request hp =>
      obtain ⟨hsum, hle⟩ := succ_le_of_lt (hnumber hp.primary hp.fresh)
      constructor
      · show (proposals (issued ++ _)).map _ = _
        rw [proposals_append, List.map_append, h.numbered, Outcome.proceed_state, proposed_eq]
        show _ ++ [(st.sequence + 1).toNat] = List.range' 1 (st.sequence + 1).toNat
        rw [hsum, List.range'_1_concat, Nat.add_comm]
      · rw [Outcome.proceed_state, proposed_eq]
        exact hle
  | accept pp hp =>
      refine h.quiet rfl ?_ ?_
      · simp [record_eq]
      · simpa [record_eq, setInstance] using h.window
  | stabilize c hquorum hnew =>
      refine h.quiet rfl rfl ?_
      rcases hnumber ⟨hquorum, hnew⟩ with hroom | hle
      · exact UInt64.le_trans h.window (hw.high_le hnew hroom)
      · exact hle
  | _ => exact h.quiet rfl rfl h.window

/-- A primary whose window is full takes the next number and refuses the request. -/
theorem handleRequest_of_full {request : Request} (hprimary : st.primary = st.nodeId)
    (hfresh : request.digest ∉ st.executed) (hfull : st.highWatermark < st.sequence + 1) :
    st.handleRequest request
      = .stop { st with sequence := st.sequence + 1 } (.err .invalidSequence) := by
  unfold handleRequest isPrimary
  rw [if_neg (by simpa using hprimary), if_neg hfresh]
  simp only [hfull, if_true]

theorem Counts.hasNumber
    (hafter : (sec.run st now).state.Counts (issued ++ (sec.run st now).sends)) :
    st.HasNumber sec := by
  cases sec with
  | handleRequest request =>
      intro hprimary hfresh
      by_contra hlt
      have hfull := UInt64.not_lt.mp hlt
      by_cases hhigh : st.highWatermark < st.sequence + 1
      · rw [Section.run, handleRequest_of_full hprimary hfresh hhigh] at hafter
        exact absurd hhigh (UInt64.not_lt.mpr hafter.window)
      · -- The counter is at the last number, so the number given out is zero.
        have hle := UInt64.le_trans (UInt64.not_lt.mp hhigh) hfull
        have hzero : (st.sequence + 1).toNat = 0 := by
          have hone : (1 : UInt64).toNat = 1 := rfl
          have htop := st.sequence.toNat_lt
          rw [UInt64.le_iff_toNat_le, UInt64.toNat_add, hone] at hle
          rw [UInt64.toNat_add, hone]
          omega
        have hproposes : st.Proposes request := ⟨hprimary, hfresh, UInt64.not_lt.mp hhigh⟩
        rw [Section.run, handleRequest_of_proposes hproposes] at hafter
        have hnumbered := hafter.numbered
        rw [Outcome.proceed_state, proposed_eq] at hnumbered
        have hlength := congrArg List.length hnumbered
        rw [List.length_map, List.length_range'] at hlength
        have hnone : (proposals (issued ++ _)).length = 0 := hlength.trans hzero
        rw [proposals_append, List.length_append] at hnone
        exact absurd hnone (by simp [proposals, Send.prePrepare?, Send.broadcast])
  | handleCheckpoint c =>
      intro hstable
      rw [Section.run, handleCheckpoint_of_makesStable hstable] at hafter
      exact Or.inr hafter.window
  | _ => trivial

end

end PbftState

namespace Replica

variable [Crypto]

/--
After the step the numbers proposed so far are 1, 2, 3 and so on up to the counter, the
counter is in the window, and a request that was refused has left the state as it was.
-/
structure KeepsCount (r : Replica) (a : Action) (r' : Replica) : Prop where
  numbered : (proposals r'.issued).map (·.sequence.toNat) = List.range' 1 r'.state.sequence.toNat
  window : r'.state.sequence ≤ r'.state.highWatermark
  refused : ∀ request error, r.sectionOf a = some (.handleRequest request) →
    (Section.run r.state a.now (.handleRequest request)).result = .err error → r'.state = r.state

theorem keepsCount_of_counts {r r' : Replica} {a : Action} (hact : r.act a = some r')
    (h : r'.state.Counts r'.issued) : r.KeepsCount a r' where
  numbered := h.numbered
  window := h.window
  refused := by
    intro request error hsec herr
    have hstate := (act_of_sectionOf hact hsec).1
    obtain ⟨-, -, hsame | ⟨request', heq, hprimary, hfresh, hhigh⟩⟩ :=
      (run_transition r.state a.now (.handleRequest request)).err herr
    · exact hstate.trans hsame
    · obtain rfl := Section.handleRequest.inj heq
      have hwindow := h.window
      rw [hstate, Section.run, PbftState.handleRequest_of_full hprimary hfresh hhigh] at hwindow
      exact absurd hhigh (UInt64.not_lt.mpr hwindow)

/--
**Refused requests take no number, exactly if none is refused.**  In all states of a run the
numbers proposed are 1, 2, 3 and so on, the counter is in the window and a refused request
has changed nothing, if and only if no request that is not executed yet comes to a primary
whose counter has reached the end of the window, and no new window that passes the last
number starts over below the counter.
-/
theorem numbers_in_order_iff {nodeId : NodeId} {keypair : KeyPair} {replicas : Replicas}
    {config : PbftConfig} {now : Instant} (as : List Action) (r : Replica) :
    Run (fun r a r' => r.act a = some r' ∧ r.KeepsCount a r')
        (new (PbftState.new nodeId keypair replicas config now)) as r ↔
      Run (Next (Meets PbftState.HasNumber))
        (new (PbftState.new nodeId keypair replicas config now)) as r := by
  rw [← keeps_iff_meets PbftState.HasNumber
    (new (PbftState.new nodeId keypair replicas config now)) as r
    (I := fun st issued => st.Counts issued) (J := fun st _ => st.Windowed)
    ⟨rfl, UInt64.zero_le⟩ (PbftState.windowed_new nodeId keypair replicas config now)
    (fun {t a sec} hw => hw.step (run_transition t.state a.now sec))
    (fun {t a sec} hw hcounts => ⟨PbftState.Counts.hasNumber,
      hcounts.step hw (run_transition t.state a.now sec)⟩)]
  constructor
  · intro h
    exact h.mono fun hstep => ⟨hstep.1, hstep.2.numbered, hstep.2.window⟩
  · intro h
    exact h.mono fun hstep => ⟨hstep.1, keepsCount_of_counts hstep.1 hstep.2⟩

end Replica

namespace Sample

/-- Three requests come to a primary whose window has two numbers. -/
def threeRequests : List Action :=
  [1, 2, 3].map fun i => .call (.handleRequest (request i)) 0

/-- Then the window moves, and the third request comes again. -/
def thirdAgain : List Action :=
  threeRequests ++ checkpointsFrom [1, 2, 3] 2 ++ [.call (.handleRequest (request 3)) 0]

end Sample

open Sample in
/-- **A refused request takes the third number**, and nothing is ever proposed under it. -/
theorem Replica.refused_request_takes_number :
    (∃ r, Run (Next fun _ _ => True) (new (eager.initState (node 0))) threeRequests r ∧
      r.state.highWatermark < r.state.sequence) ∧
    (∃ r, Run (Next fun _ _ => True) (new (eager.initState (node 0)))
        (threeRequests.take 2) r ∧
      (r.state.process (.handleRequest (request 3)) 0).result = .err .invalidSequence ∧
      (r.state.process (.handleRequest (request 3)) 0).state ≠ r.state) ∧
    ∃ r, Run (Next fun _ _ => True) (new (eager.initState (node 0))) thirdAgain r ∧
      (proposals r.issued).map (·.sequence) = [1, 2, 4] :=
  ⟨exists_run _ _ _ _ (by decide +kernel), exists_run _ _ _ _ (by decide +kernel),
    exists_run _ _ _ _ (by decide +kernel)⟩

end P2pPbft
