/-
Silence after leaving a view.

A replica that has broadcast a view change should say nothing more in an earlier view.
The flag `viewChanging` marks it as being between views, but only `start_view_change`
and `check_timeout` look at it: requests, pre-prepares and votes are handled as before.
Two more things break the silence.  A commit is sent in the view its instance was
created in, which may be one that was left since, and a vote that was decided on before
the view change may be put on the channel after it.

`QuietRules` excludes the three, each by what the replica can see before the step.
-/
import P2pPbft.Sample
import P2pPbft.Proofs.Entries

namespace P2pPbft

/-! ### The views in a message -/

/-- The view of a message of the normal case. -/
def ConsensusMessage.votedView? : ConsensusMessage → Option ViewNumber
  | .prePrepare m => some m.view
  | .prepare m => some m.view
  | .commit m => some m.view
  | _ => none

/-- The view a view change asks for. -/
def ConsensusMessage.soughtView? : ConsensusMessage → Option ViewNumber
  | .viewChange m => some m.newView
  | _ => none

def OutgoingMessage.consensus? : OutgoingMessage → Option ConsensusMessage
  | .broadcast (.consensus message) => some message
  | .sendTo _ (.consensus message) => some message
  | _ => none

def OutgoingMessage.votedView? (message : OutgoingMessage) : Option ViewNumber :=
  message.consensus?.bind ConsensusMessage.votedView?

def OutgoingMessage.soughtView? (message : OutgoingMessage) : Option ViewNumber :=
  message.consensus?.bind ConsensusMessage.soughtView?

def Send.outgoing? : Send → Option OutgoingMessage
  | .outgoing message => some message
  | .committed _ => none

theorem Send.mem_outgoing? {sends : List Send} {message : OutgoingMessage} :
    message ∈ sends.filterMap Send.outgoing? ↔ Send.outgoing message ∈ sends := by
  refine ⟨fun h => ?_, fun h => List.mem_filterMap.mpr ⟨_, h, rfl⟩⟩
  obtain ⟨send, hsend, hmessage⟩ := List.mem_filterMap.mp h
  cases send with
  | outgoing m =>
      obtain rfl := Option.some.inj hmessage
      exact hsend
  | committed request => exact absurd hmessage (by simp [Send.outgoing?])

/-! ### One message at a time -/

namespace Replica

/-- The messages handlers in progress still have to put on the channel. -/
def unsent (r : Replica) : List OutgoingMessage := r.pending.filterMap Send.outgoing?

/-- The message an action puts on the channel. -/
def sendOf (r : Replica) : Action → Option OutgoingMessage
  | .call _ _ => none
  | .resume index _ =>
    match r.tasks[index]? with
    | some ⟨.outgoing message :: _, _, _⟩ => some message
    | _ => none

/-- **No vote comes after a view change that asks for a later view.** -/
def Silent (r : Replica) : Prop :=
  r.outgoing.Pairwise fun m m' => ∀ v ∈ m.soughtView?, ∀ w ∈ m'.votedView?, v ≤ w

instance (r : Replica) : Decidable r.Silent :=
  inferInstanceAs (Decidable
    (r.outgoing.Pairwise fun m m' => ∀ v ∈ m.soughtView?, ∀ w ∈ m'.votedView?, v ≤ w))

theorem mem_unsent {r : Replica} {message : OutgoingMessage} :
    message ∈ r.unsent ↔ Send.outgoing message ∈ r.pending := Send.mem_outgoing?

theorem sendOf_resume {r : Replica} {before after : List Task} {send : Send}
    {sends : List Send} {next : Option Section} {result : Result} (now : Instant)
    (htasks : r.tasks = before ++ ⟨send :: sends, next, result⟩ :: after) :
    r.sendOf (.resume before.length now) = send.outgoing? := by
  cases send <;> simp [sendOf, htasks, Send.outgoing?]

variable [Crypto]

/--
**An action puts one unsent message on the channel, or none**; and what is unsent then
was so before or comes from the section that was run.
-/
theorem unsent_act {r r' : Replica} {a : Action} (h : r.act a = some r') :
    (r'.outgoing = r.outgoing ∧ ∀ m ∈ r'.unsent, m ∈ r.unsent ∨
        ∃ sec, r.sectionOf a = some sec ∧ Send.outgoing m ∈ (sec.run r.state a.now).sends) ∨
      ∃ m ∈ r.unsent, r.sendOf a = some m ∧ r'.outgoing = r.outgoing ++ [m] ∧
        ∀ m' ∈ r'.unsent, m' ∈ r.unsent := by
  cases step_of_act h with
  | reply call now hentry => exact Or.inl ⟨rfl, fun m hm => Or.inl hm⟩
  | start call now sec hentry =>
      refine Or.inl ⟨rfl, fun m hm => ?_⟩
      rw [mem_unsent, pending, List.flatMap_append, List.flatMap_cons, List.flatMap_nil,
        List.append_nil] at hm
      rcases List.mem_append.mp hm with hold | hnew
      · exact Or.inl (mem_unsent.mpr hold)
      · exact Or.inr ⟨sec, hentry, hnew⟩
  | send before after now send sends next result htasks =>
      have hpending : r.pending = before.flatMap (·.sends) ++
          (send :: (sends ++ after.flatMap (·.sends))) := by
        simp [pending, htasks]
      have hleft : ∀ m ∈ unsent { r.emit send with tasks := before ++ ⟨sends, next, result⟩ :: after },
          m ∈ r.unsent := by
        intro m hm
        rw [mem_unsent, pending, List.flatMap_append, List.flatMap_cons] at hm
        rw [mem_unsent, hpending]
        rcases List.mem_append.mp hm with hold | hrest
        · exact List.mem_append_left _ hold
        · exact List.mem_append_right _ (List.mem_cons_of_mem _ hrest)
      have hsend := sendOf_resume now htasks
      cases send with
      | committed request => exact Or.inl ⟨rfl, fun m hm => Or.inl (hleft m hm)⟩
      | outgoing m =>
          refine Or.inr ⟨m, ?_, hsend, rfl, hleft⟩
          rw [mem_unsent, hpending]
          exact List.mem_append_right _ List.mem_cons_self
  | go before after now sec result htasks =>
      refine Or.inl ⟨rfl, fun m hm => ?_⟩
      rw [mem_unsent, pending, List.flatMap_append, List.flatMap_cons] at hm
      rw [mem_unsent, pending, htasks, List.flatMap_append, List.flatMap_cons]
      rcases List.mem_append.mp hm with hold | hrest
      · exact Or.inl (List.mem_append_left _ hold)
      · rcases List.mem_append.mp hrest with hnew | hold
        · exact Or.inr ⟨sec, sectionOf_resume htasks, hnew⟩
        · exact Or.inl (List.mem_append_right _ (List.mem_append_right _ hold))
  | finish before after now result htasks =>
      refine Or.inl ⟨rfl, fun m hm => Or.inl ?_⟩
      rw [mem_unsent, pending, List.flatMap_append] at hm
      rw [mem_unsent, pending, htasks, List.flatMap_append, List.flatMap_cons, List.nil_append]
      exact hm

end Replica

/-! ### What a section says, and when it leaves a view -/

section

variable [Crypto] {st : PbftState} {issued : List Send} {now : Instant} {sec : Section}
  {out : Outcome}

/-- A replica asks for the next view when it starts a view change, and enters one it is told of. -/
theorem Transition.leaves (h : Transition st now sec out) :
    (out.state.view = st.view ∧ out.state.viewChanging = st.viewChanging ∧
        ∀ m, Send.outgoing m ∈ out.sends → m.soughtView? = none) ∨
      (out.state.view = st.view ∧ st.viewChanging = false ∧ out.state.viewChanging = true ∧
        out.sends = [.broadcast (.viewChange st.ownViewChange)]) ∨
      (st.view < out.state.view ∧ out.state.viewChanging = false ∧ out.sends = []) := by
  have hnone : ∀ (message : ConsensusMessage), message.soughtView? = none →
      ∀ m, Send.outgoing m ∈ [Send.broadcast message] → m.soughtView? = none := by
    intro message hmessage m hm
    obtain rfl := Send.outgoing.inj (List.mem_singleton.mp hm)
    exact hmessage
  cases h with
  | propose request h =>
      refine Or.inl ⟨by simp [PbftState.proposed_eq, PbftState.setInstance],
        by simp [PbftState.proposed_eq, PbftState.setInstance], fun m hm => ?_⟩
      rcases List.mem_cons.mp hm with heq | hm
      · obtain rfl := Send.outgoing.inj heq
        rfl
      · exact hnone _ rfl m hm
  | accept pp h =>
      exact Or.inl ⟨by simp [PbftState.record_eq, PbftState.setInstance],
        by simp [PbftState.record_eq, PbftState.setInstance], hnone _ rfl⟩
  | forward request h =>
      refine Or.inl ⟨rfl, rfl, fun m hm => ?_⟩
      obtain rfl := Send.outgoing.inj (List.mem_singleton.mp hm)
      rfl
  | executed s inst request => exact Or.inl ⟨rfl, rfl, fun m hm => absurd hm (by simp)⟩
  | prepared _ _ _ _ _ _ _ _ | announce _ _ _ | announceNewView _ _ _ _ =>
      exact Or.inl ⟨rfl, rfl, hnone _ rfl⟩
  | enterView nv hnew => exact Or.inr (Or.inr ⟨hnew, rfl, rfl⟩)
  | startViewChange h => exact Or.inr (Or.inl ⟨rfl, h, rfl, rfl⟩)
  | _ => exact Or.inl ⟨rfl, rfl, fun m hm => absurd hm (by simp)⟩

omit [Crypto] in
/-- The section would prepare this instance. -/
def PbftState.Prepares (st : PbftState) (inst : ConsensusInstance) : Prop :=
  inst.prePrepare.isSome ∧ inst.phase = .prePrepared ∧ st.config.quorum ≤ inst.prepares.keys.card

omit [Crypto] in
instance (st : PbftState) (inst : ConsensusInstance) : Decidable (st.Prepares inst) :=
  inferInstanceAs (Decidable (inst.prePrepare.isSome ∧ inst.phase = .prePrepared ∧
    st.config.quorum ≤ inst.prepares.keys.card))

/-- What the section has to say, it says outside view changes and in the current view. -/
def PbftState.SpeaksInView (st : PbftState) : Section → Prop
  | .handleRequest request => st.Proposes request → st.viewChanging = false
  | .handlePrePrepare pp => st.AcceptsPrePrepare pp → st.viewChanging = false
  | .tryAdvanceToPrepared s =>
    ∀ inst ∈ st.log.lookup s, st.Prepares inst → st.viewChanging = false ∧ inst.view = st.view
  | _ => True

instance (st : PbftState) : (sec : Section) → Decidable (st.SpeaksInView sec)
  | .handleRequest _ | .handlePrePrepare _ | .tryAdvanceToPrepared _ =>
      by dsimp only [PbftState.SpeaksInView]; infer_instance
  | .handlePrepare _ | .handleCommit _ | .tryAdvanceToCommitted _ | .tryCheckpoint _
  | .handleCheckpoint _ | .handleViewChange _ | .handleNewView _ | .startViewChange
  | .checkTimeout => isTrue trivial

/-- **Every vote of the section is for the current view**, and no view change is going on. -/
theorem Transition.votedView (h : Transition st now sec out) (hspeaks : st.SpeaksInView sec)
    {m : OutgoingMessage} (hm : Send.outgoing m ∈ out.sends) {w : ViewNumber}
    (hw : m.votedView? = some w) : st.viewChanging = false ∧ w = st.view := by
  cases h with
  | propose request h =>
      refine ⟨hspeaks h, ?_⟩
      rcases List.mem_cons.mp hm with heq | hm
      · obtain rfl := Send.outgoing.inj heq
        exact (Option.some.inj hw).symm
      · obtain rfl := Send.outgoing.inj (List.mem_singleton.mp hm)
        exact (Option.some.inj hw).symm
  | accept pp h =>
      obtain rfl := Send.outgoing.inj (List.mem_singleton.mp hm)
      exact ⟨hspeaks h, (Option.some.inj hw).symm.trans h.view⟩
  | prepared s inst digest hlookup hpp hphase hquorum hdigest =>
      obtain rfl := Send.outgoing.inj (List.mem_singleton.mp hm)
      obtain ⟨hchanging, hview⟩ := hspeaks inst hlookup ⟨hpp, hphase, hquorum⟩
      exact ⟨hchanging, (Option.some.inj hw).symm.trans hview⟩
  | forward _ _ | announce _ _ _ | announceNewView _ _ _ _ | startViewChange _ =>
      obtain rfl := Send.outgoing.inj (List.mem_singleton.mp hm)
      exact absurd hw (by simp [OutgoingMessage.votedView?, OutgoingMessage.consensus?,
        ConsensusMessage.votedView?])
  | executed s inst request => exact absurd hm (by simp)
  | _ => exact absurd hm (by simp)

/-- A view that was asked for has been reached, or is the next one and asked for right now. -/
def Leaving (st : PbftState) (issued : List Send) : Prop :=
  ∀ m, Send.outgoing m ∈ issued → ∀ v, m.soughtView? = some v →
    v ≤ st.view ∨ st.viewChanging = true ∧ v = st.view + 1

theorem Leaving.step (hleaving : Leaving st issued) (h : Transition st now sec out) :
    Leaving out.state (issued ++ out.sends) := by
  intro m hm v hv
  rcases h.leaves with ⟨hview, hchanging, hnone⟩ | ⟨hview, hidle, hchanging, hsends⟩ |
    ⟨hview, hchanging, hsends⟩
  · rw [hview, hchanging]
    rcases List.mem_append.mp hm with hold | hnew
    · exact hleaving m hold v hv
    · rw [hnone m hnew] at hv
      exact absurd hv (by simp)
  · rw [hview]
    rcases List.mem_append.mp hm with hold | hnew
    · rcases hleaving m hold v hv with hle | ⟨htrue, -⟩
      · exact Or.inl hle
      · rw [hidle] at htrue
        exact absurd htrue (by simp)
    · rw [hsends] at hnew
      obtain rfl := Send.outgoing.inj (List.mem_singleton.mp hnew)
      exact Or.inr ⟨hchanging, (Option.some.inj hv).symm⟩
  · rw [hsends, List.append_nil] at hm
    refine Or.inl ?_
    rcases hleaving m hm v hv with hle | ⟨-, rfl⟩
    · exact UInt64.le_of_lt (UInt64.lt_of_le_of_lt hle hview)
    · grind

end

/-! ### Runs that keep quiet -/

namespace Replica

variable [Crypto]

/--
A replica that has broadcast a view change speaks outside view changes and in its current
view; and it broadcasts one only when no vote for an earlier view is still unsent.
-/
def QuietRules (r : Replica) (a : Action) : Prop :=
  (∀ sec, r.sectionOf a = some sec → (∃ m ∈ r.outgoing, m.soughtView?.isSome) →
      r.state.SpeaksInView sec) ∧
    ∀ m, r.sendOf a = some m → ∀ v, m.soughtView? = some v →
      ∀ m' ∈ r.unsent, ∀ w, m'.votedView? = some w → v ≤ w

instance (r : Replica) (a : Action) : Decidable (r.QuietRules a) :=
  inferInstanceAs (Decidable
    ((∀ sec, r.sectionOf a = some sec → (∃ m ∈ r.outgoing, m.soughtView?.isSome) →
        r.state.SpeaksInView sec) ∧
      ∀ m, r.sendOf a = some m → ∀ v, m.soughtView? = some v →
        ∀ m' ∈ r.unsent, ∀ w, m'.votedView? = some w → v ≤ w))

omit [Crypto] in
/-- The replica is silent, and what is unsent will not break the silence. -/
structure Quiet (r : Replica) : Prop where
  silent : r.Silent
  unsent : ∀ m ∈ r.outgoing, ∀ v, m.soughtView? = some v →
    ∀ m' ∈ r.unsent, ∀ w, m'.votedView? = some w → v ≤ w

omit [Crypto] in
theorem quiet_new (st : PbftState) : (new st).Quiet :=
  ⟨List.Pairwise.nil, fun _ h => absurd h (by simp [new])⟩

/-- **An action that meets the rules keeps the replica quiet.** -/
theorem Quiet.act {r r' : Replica} {a : Action} (hr : r.Quiet) (haccounted : r.Accounted)
    (hleaving : Leaving r.state r.issued) (h : r.act a = some r') (hrule : r.QuietRules a) :
    r'.Quiet := by
  rcases unsent_act h with ⟨hout, hunsent⟩ | ⟨m, hm, hsend, hout, hunsent⟩
  · refine ⟨?_, fun m₀ hm₀ v hv m hm w hw => ?_⟩
    · rw [Silent, hout]
      exact hr.silent
    rw [hout] at hm₀
    rcases hunsent m hm with hold | ⟨sec, hsec, hnew⟩
    · exact hr.unsent m₀ hm₀ v hv m hold w hw
    · -- A new vote is for the current view, and that is no view asked for in vain.
      have hspeaks := hrule.1 sec hsec ⟨m₀, hm₀, by rw [hv]; rfl⟩
      obtain ⟨hidle, rfl⟩ := (run_transition r.state a.now sec).votedView hspeaks hnew hw
      rcases hleaving m₀ (haccounted.outgoing hm₀) v hv with hle | ⟨htrue, -⟩
      · exact hle
      · rw [hidle] at htrue
        exact absurd htrue (by simp)
  · refine ⟨?_, fun m₀ hm₀ v hv m' hm' w hw => ?_⟩
    · rw [Silent, hout, List.pairwise_append]
      refine ⟨hr.silent, List.pairwise_singleton _ _, fun m₀ hm₀ m' hm' v hv w hw => ?_⟩
      obtain rfl := List.mem_singleton.mp hm'
      exact hr.unsent m₀ hm₀ v hv m' hm w hw
    · rw [hout] at hm₀
      rcases List.mem_append.mp hm₀ with hold | hlast
      · exact hr.unsent m₀ hold v hv m' (hunsent m' hm') w hw
      · obtain rfl := List.mem_singleton.mp hlast
        exact hrule.2 m₀ hsend v hv m' (hunsent m' hm') w hw

/--
**Silence after leaving a view.**  Once a replica has broadcast a view change it sends no
pre-prepare, prepare or commit of an earlier view, in a run that keeps the quiet rules.
-/
theorem silent_after_leaving {nodeId : NodeId} {keypair : KeyPair} {replicas : Replicas}
    {config : PbftConfig} {now : Instant} {as : List Action} {r : Replica}
    (h : Run (Next QuietRules) (new (PbftState.new nodeId keypair replicas config now)) as r) :
    r.Silent := by
  refine (h.state_invariant
    (I := fun r : Replica => r.Accounted ∧ Leaving r.state r.issued ∧ r.Quiet) ?_ ?_).2.2.silent
  · exact ⟨accounted_new _, fun m hm => absurd hm (by simp [new]), quiet_new _⟩
  · rintro t a u ⟨haccounted, hleaving, hquiet⟩ ⟨hrule, hact⟩
    refine ⟨accounted_act hact haccounted, ?_, hquiet.act haccounted hleaving hact hrule⟩
    exact keep hact hleaving fun _ ht => hleaving.step ht

end Replica

namespace Sample

/-- The pre-prepare of a node for its own view. -/
def proposalIn (i : Fin 4) (view : ViewNumber) (s : SequenceNumber) (request : Request) :
    PrePrepare :=
  { signer i with view := view }.proposal s request

/-- The first of two nodes sends the second one its first pre-prepare. -/
def firstProposal : Action :=
  .call (.processMessage (.prePrepare (((cluster 1).initState (node 0)).proposal 1 (request 1)))) 0

end Sample

namespace Replica

open Sample

/-- The second of four nodes asks for view 1, enters view 2, and votes there. -/
theorem silent_after_leaving_second :
    ∃ r : Replica, (r.outgoing.map fun m => (m.soughtView?, m.votedView?))
        = [(some 1, none), (none, some 2)] ∧ r.Silent := by
  obtain ⟨r, hrun, hsent⟩ := exists_run QuietRules (new ((cluster 3).initState (node 1)))
    [.call .startViewChange 0, .resume 0 0,
      .call (.processMessage (.newView ⟨2, 0, node 2, []⟩)) 0,
      .call (.processMessage (.prePrepare (proposalIn 2 2 1 (request 1)))) 0, .resume 2 0]
    (fun r => (r.outgoing.map fun m => (m.soughtView?, m.votedView?))
      = [(some 1, none), (none, some 2)]) (by decide +kernel)
  exact ⟨r, hsent, silent_after_leaving hrun⟩

/--
**A replica that has asked for view 1 goes on in view 0**, in each of three ways: it
accepts a pre-prepare while it waits for the new view; it prepares an instance of view 0
once it is in view 1; or it sends a prepare it had decided on before.
-/
theorem speaks_after_leaving :
    (∃ r, Run (Next fun _ _ => True) (new ((cluster 1).initState (node 1)))
        [.call .startViewChange 0, .resume 0 0, firstProposal, .resume 1 0] r ∧ ¬ r.Silent) ∧
      (∃ r, Run (Next fun _ _ => True) (new ((cluster 1).initState (node 1)))
        [firstProposal, .resume 0 0, .call .startViewChange 0, .resume 1 0,
          .call (.processMessage (.newView ⟨1, 0, node 1, []⟩)) 0, .resume 0 0, .resume 0 0] r ∧
        ¬ r.Silent) ∧
      ∃ r, Run (Next fun _ _ => True) (new ((cluster 1).initState (node 1)))
        [firstProposal, .call .startViewChange 0, .resume 1 0, .resume 0 0] r ∧ ¬ r.Silent :=
  ⟨exists_run _ _ _ _ (by decide +kernel), exists_run _ _ _ _ (by decide +kernel),
    exists_run _ _ _ _ (by decide +kernel)⟩

end Replica

end P2pPbft
