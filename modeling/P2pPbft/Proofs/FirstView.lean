/-
The program never leaves the first view.

`pbft.rs` has view changes, but nothing in the program asks for one: the main loop
calls `handle_request` and `process_message`, and a view change message is sent only by
the functions it does not call.  So all that is ever on the way is requests, checkpoints,
and the three phases of what the primary of view 0 has ordered.

If that one node is down, nothing is ever handed to the application, by anybody.
-/
import P2pPbft.Proofs.Links

namespace P2pPbft

/-! ### What is on the way -/

/-- A message of the first view: anything but a view change, with votes for what is ordered. -/
def ConsensusMessage.FirstView (ps : List PrePrepare) : ConsensusMessage → Prop
  | .request _ => True
  | .checkpoint _ => True
  | message => message.Normal ps

/-- A send of the first view. -/
def Send.FirstView (ps : List PrePrepare) : Send → Prop
  | .outgoing (.broadcast (.consensus message)) => message.FirstView ps
  | .outgoing (.sendTo _ (.consensus message)) => message.FirstView ps
  | .outgoing _ => False
  | .committed request => ∃ pp ∈ ps, pp.request = request

/-- A section of the first view. -/
def Section.FirstView (ps : List PrePrepare) : Section → Prop
  | .handlePrePrepare pp => (ConsensusMessage.prePrepare pp).Normal ps
  | .handlePrepare p => (ConsensusMessage.prepare p).Normal ps
  | .handleCommit c => (ConsensusMessage.commit c).Normal ps
  | .handleViewChange _ | .handleNewView _ | .startViewChange | .checkTimeout => False
  | _ => True

theorem ConsensusMessage.FirstView.mono {ps ps' : List PrePrepare} {message : ConsensusMessage}
    (h : message.FirstView ps) (hsub : ps ⊆ ps') : message.FirstView ps' := by
  cases message with
  | prePrepare pp => exact hsub h
  | prepare p => exact ⟨h.1, h.2.mono hsub⟩
  | commit c => exact ⟨h.1, h.2.mono hsub⟩
  | _ => exact h

theorem Section.FirstView.mono {ps ps' : List PrePrepare} {sec : Section} (h : sec.FirstView ps)
    (hsub : ps ⊆ ps') : sec.FirstView ps' := by
  cases sec with
  | handlePrePrepare pp => exact hsub h
  | handlePrepare p => exact ⟨h.1, h.2.mono hsub⟩
  | handleCommit c => exact ⟨h.1, h.2.mono hsub⟩
  | _ => exact h

theorem Send.FirstView.mono {ps ps' : List PrePrepare} {send : Send} (h : send.FirstView ps)
    (hsub : ps ⊆ ps') : send.FirstView ps' := by
  cases send with
  | committed request =>
      obtain ⟨pp, hpp, hrequest⟩ := h
      exact ⟨pp, hsub hpp, hrequest⟩
  | outgoing message =>
      cases message with
      | sendTo target message =>
          cases message with
          | consensus message => exact ConsensusMessage.FirstView.mono h hsub
          | _ => exact h
      | broadcast message =>
          cases message with
          | consensus message => exact ConsensusMessage.FirstView.mono h hsub
          | _ => exact h

/-- The state of a replica that is in the first view, and has never been in another. -/
structure PbftState.FirstView (ps : List PrePrepare) (st : PbftState) : Prop where
  view : st.view = 0
  views : ∀ s inst, st.log.lookup s = some inst → inst.view = 0

/-- A call of the main loop starts a section of the first view, if what it is about is of it. -/
theorem Call.firstView_entry {ps : List PrePrepare} {message : ConsensusMessage}
    (h : message.FirstView ps) {sec : Section}
    (hentry : (Call.processMessage message).entry = some sec) : sec.FirstView ps := by
  cases message with
  | reply _ | viewChange _ | newView _ => exact h.elim
  | request _ | checkpoint _ =>
      obtain rfl := Option.some.inj hentry
      trivial
  | _ =>
      obtain rfl := Option.some.inj hentry
      exact h

section

variable [Crypto] {ps : List PrePrepare} {st : PbftState} {issued : List Send} {now : Instant}
  {sec : Section} {out : Outcome}

omit [Crypto] in
theorem PbftState.FirstView.instanceAt_view (h : st.FirstView ps) (s : SequenceNumber) :
    (st.instanceAt s).view = 0 := by
  rcases st.instanceAt_cases s with hlookup | hnew
  · exact h.views s _ hlookup
  · rw [hnew]
    exact h.view

/-- **A section of the first view stays in it.** -/
theorem PbftState.FirstView.step (h : st.FirstView ps) (ht : Transition st now sec out)
    (hsec : sec.FirstView ps) : out.state.FirstView ps where
  view := by
    rcases ht.view with hview | ⟨nv, rfl, -, -⟩
    · rw [hview, h.view]
    · exact hsec.elim
  views := by
    intro s inst hlookup
    rcases ht.entry hlookup with hold | hwrite
    · exact h.views s inst hold
    cases hwrite with
    | propose _ _ _ _ _ => exact h.instanceAt_view _
    | accept _ _ _ _ => exact h.instanceAt_view _
    | storePrepare _ _ _ => exact h.instanceAt_view _
    | prepared s inst _ hl _ _ _ _ _ => exact h.views s inst hl
    | storeCommit _ _ _ => exact h.instanceAt_view _
    | committed s inst hl _ _ _ _ => exact h.views s inst hl

theorem ordered_of_logged (hlogged : Logged (· ∈ ps) st) (hwf : WellFormed st issued)
    {s : SequenceNumber} {d : Hash} (hdigest : (st.instanceAt s).digest = some d) :
    Ordered ps s d := by
  have hok := hwf.instanceAt s
  cases hpp : (st.instanceAt s).prePrepare with
  | none => exact absurd (hdigest.symm.trans (hok.idle hpp).1) (by simp)
  | some pp =>
      have hlookup := (st.instanceAt_cases s).resolve_right fun hnew => by
        rw [hnew] at hpp
        exact absurd hpp (by simp [ConsensusInstance.new])
      have hd : pp.digest = d := Option.some.inj ((hok.digest pp hpp).symm.trans hdigest)
      exact ⟨pp, hlogged s _ pp hlookup hpp, hok.sequence pp hpp, hd⟩

/-- **What it sends is of the first view again.** -/
theorem Transition.firstView_sends (ht : Transition st now sec out) (h : st.FirstView ps)
    (hwf : WellFormed st issued) (hlogged : Logged (· ∈ ps) st) (hsec : sec.FirstView ps)
    (hissued : ∀ pp ∈ P2pPbft.proposals out.sends, pp ∈ ps) :
    ∀ send ∈ out.sends, send.FirstView ps := by
  intro send hsend
  cases ht with
  | propose request _ =>
      have hpp : st.proposal (st.sequence + 1) request ∈ ps :=
        hissued _ (mem_proposals.mpr List.mem_cons_self)
      rcases List.mem_cons.mp hsend with rfl | hsend
      · exact hpp
      · obtain rfl := List.mem_singleton.mp hsend
        exact ⟨h.view, _, hpp, rfl, rfl⟩
  | forward request _ =>
      obtain rfl := List.mem_singleton.mp hsend
      trivial
  | accept pp haccept =>
      obtain rfl := List.mem_singleton.mp hsend
      exact ⟨haccept.view.trans h.view, pp, hsec, rfl, rfl⟩
  | prepared s inst digest hlookup _ _ _ hdigest =>
      obtain rfl := List.mem_singleton.mp hsend
      have hordered : Ordered ps s digest :=
        ordered_of_logged hlogged hwf ((congrArg ConsensusInstance.digest
          (PbftState.instanceAt_of_lookup hlookup)).trans hdigest)
      exact ⟨h.views s inst hlookup, hordered⟩
  | executed s inst request hlookup _ _ hrequest _ =>
      obtain rfl := List.mem_singleton.mp hsend
      obtain ⟨pp, hpp, heq⟩ := hwf.prePrepare_of_request hlookup hrequest
      exact ⟨pp, hlogged s inst pp hlookup hpp, heq⟩
  | announce s _ _ =>
      obtain rfl := List.mem_singleton.mp hsend
      trivial
  | announceNewView _ _ _ _ | startViewChange _ => exact hsec.elim
  | _ => cases hsend

theorem Transition.firstView_next (ht : Transition st now sec out) (hsec : sec.FirstView ps)
    {next : Section} (hnext : out.next = some next) : next.FirstView ps := by
  cases ht with
  | propose _ _ | accept _ _ | storePrepare _ _ | storeCommit _ _ | prepared _ _ _ _ _ _ _ _
  | executed _ _ _ _ _ _ _ _ =>
      obtain rfl := Option.some.inj hnext
      trivial
  | timeout _ => exact hsec.elim
  | _ => cases hnext

end

/-! ### One replica -/

/-- A replica that has never left the first view. -/
structure Replica.FirstView (ps : List PrePrepare) (r : Replica) : Prop where
  state : r.state.FirstView ps
  sends : ∀ send ∈ r.issued, send.FirstView ps
  tasks : ∀ task ∈ r.tasks, ∀ next, task.next = some next → next.FirstView ps

namespace Replica

variable {ps ps' : List PrePrepare} {r r' : Replica} {a : Action}

theorem FirstView.message (h : r.FirstView ps) {target : NodeId} {message : ConsensusMessage}
    (hissued : Send.broadcast message ∈ r.issued ∨
      Send.outgoing (.sendTo target (.consensus message)) ∈ r.issued) : message.FirstView ps := by
  rcases hissued with hissued | hissued
  · exact h.sends _ hissued
  · exact h.sends _ hissued

variable [Crypto]

theorem firstView_init (cluster : Cluster) (id : NodeId) :
    (cluster.init id).FirstView ps where
  state := ⟨rfl, fun _ _ h => absurd h
    (by simp [Cluster.init, Cluster.initState, new, PbftState.new])⟩
  sends := fun _ h => absurd h (by simp [Cluster.init, new])
  tasks := fun _ h => absurd h (by simp [Cluster.init, new])

/-- **An action of the main loop leaves a replica in the first view.** -/
theorem FirstView.act (h : r.FirstView ps) (hsound : r.Sound) (hsub : ps ⊆ ps')
    (hact : r.act a = some r') (hlogged : Logged (· ∈ ps') r.state)
    (hsec : ∀ sec, r.sectionOf a = some sec → sec.FirstView ps')
    (hissued : ∀ pp ∈ proposals r'.issued, pp ∈ ps') : r'.FirstView ps' := by
  have hstate : r.state.FirstView ps' := ⟨h.state.view, h.state.views⟩
  refine ⟨?_, ?_, ?_⟩
  · rcases act_cases hact with ⟨-, hsame, -⟩ | ⟨sec, hrun, hsame, -⟩
    · rw [hsame]
      exact hstate
    · rw [hsame]
      exact hstate.step (run_transition r.state a.now sec) (hsec sec hrun)
  · rcases act_cases hact with ⟨-, -, hsame⟩ | ⟨sec, hrun, -, hadded⟩
    · rw [hsame]
      exact fun send hsend => (h.sends send hsend).mono hsub
    · intro send hsend
      rw [hadded] at hsend hissued
      rcases List.mem_append.mp hsend with hold | hnew
      · exact (h.sends send hold).mono hsub
      · refine (run_transition r.state a.now sec).firstView_sends hstate hsound.wellFormed hlogged
          (hsec sec hrun) (fun pp hpp => hissued pp ?_) send hnew
        rw [proposals_append]
        exact List.mem_append_right _ hpp
  · intro task htask next hnext
    rcases next_act hact htask hnext with ⟨task', htask', hnext'⟩ | ⟨sec, hrun, hnext'⟩
    · exact (h.tasks task' htask' next hnext').mono hsub
    · exact (run_transition r.state a.now sec).firstView_next (hsec sec hrun) hnext'

end Replica

/-! ### All of them -/

namespace Links

variable [Crypto] {cluster : Cluster} {live : Finset NodeId} {events : List Event}
  {links links' : Links} {e : Event} {ps : List PrePrepare}

theorem Moves.firstView (h : Moves live links e links')
    (hhosts : ∀ id, cluster.Hosts id (links.net id))
    (hfirst : ∀ id, (links.net id).FirstView ps) :
    ∀ sec, (links.net e.event.node).sectionOf e.event.action = some sec → sec.FirstView ps := by
  intro sec hsec
  cases h.does with
  | submit request now hsource haction hidle =>
      rw [haction] at hsec
      obtain rfl := Option.some.inj hsec
      trivial
  | resume now hsource haction =>
      rw [haction] at hsec
      obtain ⟨task, htask, hnext⟩ := Replica.exists_task_of_resume hsec
      exact (hfirst _).tasks task htask sec hnext
  | deliver source message now hsource haction hne hidle hupcoming =>
      rw [haction] at hsec
      refine Call.firstView_entry ?_ hsec
      have hsound := (hhosts source).sound
      have hsent := mem_sentTo.mp (mem_sentTo_of_upcoming hupcoming)
      exact (hfirst source).message (hsent.imp hsound.accounted.outgoing hsound.accounted.outgoing)

/-- **No replica ever leaves the first view.** -/
theorem firstView_of_run (h : Run (Step live) (init cluster) events links) (id : NodeId) :
    (links.net id).FirstView (proposals (links.net (cluster.replicas.primary 0)).issued) := by
  revert id
  refine h.invariant (I := fun _ links => ∀ id, (links.net id).FirstView
    (proposals (links.net (cluster.replicas.primary 0)).issued)) ?_ ?_
  · exact fun id => Replica.firstView_init cluster id
  · intro cs t e u hr hfirst hstep id
    have hmoves := hstep.moves
    have hrun := net_run hr
    have hhosts := Cluster.hosts_of_run hrun
    have hsub : proposals (t.net (cluster.replicas.primary 0)).issued ⊆
        proposals (u.net (cluster.replicas.primary 0)).issued := fun pp hpp =>
      mem_proposals.mpr (Net.issued_subset_act hmoves.net _ (mem_proposals.mp hpp))
    by_cases hid : id = e.event.node
    swap
    · rw [Net.act_of_ne hmoves.net hid]
      refine ⟨⟨(hfirst id).state.view, (hfirst id).state.views⟩,
        fun send hsend => ((hfirst id).sends send hsend).mono hsub, fun task htask next hnext => ?_⟩
      exact ((hfirst id).tasks task htask next hnext).mono hsub
    subst hid
    have hsec := hmoves.firstView hhosts hfirst
    refine (hfirst e.event.node).act (hhosts _).sound hsub (Net.act_self hmoves.net)
      ((proposed_of_run hrun e.event.node).mono hsub)
      (fun sec hrun => (hsec sec hrun).mono hsub) fun pp hpp => ?_
    have hprimary := proposer_of_run (hrun.snoc hmoves.honest) e.event.node pp hpp
    rw [hprimary] at hpp
    exact hpp

theorem issued_of_down (h : Run (Step live) (init cluster) events links) {id : NodeId}
    (hdown : id ∉ live) : (links.net id).issued = [] := by
  refine h.state_invariant (I := fun links => (links.net id).issued = []) rfl ?_
  intro t e u hnone hstep
  have hmoves := hstep.moves
  have hne : id ≠ e.event.node := by
    rintro rfl
    exact hdown hmoves.node
  rw [Net.act_of_ne hmoves.net hne]
  exact hnone

/--
**The program never leaves the first view.**  Whatever is typed in, in whatever order
messages come, and whoever is down: every replica stays in view 0 and sends no view
change and no new view, and what is handed over the primary of view 0 has ordered.
So while that node is down nobody hands anything over.
-/
theorem stays_in_first_view (h : Run (Step live) (init cluster) events links) (id : NodeId) :
    (links.net id).state.view = 0 ∧
      (∀ vc, OutgoingMessage.broadcast (.consensus (.viewChange vc)) ∉ (links.net id).outgoing) ∧
      (∀ nv, OutgoingMessage.broadcast (.consensus (.newView nv)) ∉ (links.net id).outgoing) ∧
      (∀ request ∈ (links.net id).committed,
        ∃ pp ∈ proposals (links.net (cluster.replicas.primary 0)).issued, pp.request = request) ∧
      (cluster.replicas.primary 0 ∉ live → (links.net id).committed = []) := by
  have hfirst := firstView_of_run h id
  have hsound := (Cluster.hosts_of_run (net_run h) id).sound
  have hordered : ∀ request ∈ (links.net id).committed,
      ∃ pp ∈ proposals (links.net (cluster.replicas.primary 0)).issued, pp.request = request :=
    fun request hrequest => hfirst.sends _ (hsound.accounted.committed hrequest)
  refine ⟨hfirst.state.view, fun vc hsent => ?_, fun nv hsent => ?_, hordered, fun hdown => ?_⟩
  · exact hfirst.sends _ (hsound.accounted.outgoing hsent)
  · exact hfirst.sends _ (hsound.accounted.outgoing hsent)
  · refine List.eq_nil_iff_forall_not_mem.mpr fun request hrequest => ?_
    obtain ⟨pp, hpp, -⟩ := hordered request hrequest
    rw [issued_of_down h hdown] at hpp
    exact absurd hpp (by simp [proposals])

end Links

open Sample in
/-- The first of two nodes is down, and the second waits for it in vain. -/
theorem Links.stays_in_first_view_second :
    ∃ links : Links, (links.net (node 1)).outgoing
        = [.sendTo (node 0) (.consensus (.request (request 1)))] ∧
      (links.net (node 1)).state.view = 0 ∧ (links.net (node 1)).committed = [] := by
  obtain ⟨links, hrun, hsent⟩ := exists_run {node 1} (init (cluster 1))
    [typeIn 1 (request 1), goOn 1, goOn 1]
    (fun links => (links.net (node 1)).outgoing
      = [.sendTo (node 0) (.consensus (.request (request 1)))]) (by decide +kernel)
  have hstays := stays_in_first_view hrun (node 1)
  exact ⟨links, hsent, hstays.1, hstays.2.2.2.2 (by decide +kernel)⟩

end P2pPbft
