/-
No request is handled more often than it was typed in.

The first primary is asked by its own command line and by the other nodes, and each of
those passes on what was typed in at it, once.  So the bounds on how often the first primary
has been asked are bounds on how much was typed in.
-/
import P2pPbft.Proofs.AtRest
import Mathlib.Algebra.BigOperators.Group.Finset.Piecewise
import Mathlib.Algebra.Order.BigOperators.Group.Finset

namespace P2pPbft

/-- The request a consensus message is. -/
def ConsensusMessage.request? : ConsensusMessage → Option Request
  | .request r => some r
  | _ => none

section

variable [Crypto] {st : PbftState} {now : Instant} {sec : Section} {out : Outcome}

/-- **Only `handle_request` passes a request on, and only to the primary.** -/
theorem Transition.requests (h : Transition st now sec out) :
    out.sends.filterMap Send.request? = [] ∨
      ∃ request, sec = .handleRequest request ∧ st.primary ≠ st.nodeId ∧
        out.sends = [.outgoing (.sendTo st.primary (.consensus (.request request)))] := by
  cases h with
  | forward request h => exact Or.inr ⟨request, rfl, h, rfl⟩
  | _ => exact Or.inl rfl

end

theorem filterMap_to_sublist (sends : List Send) (target : NodeId) :
    ((sends.filterMap (Send.to? target)).filterMap ConsensusMessage.request?).Sublist
      (sends.filterMap Send.request?) := by
  rw [List.filterMap_filterMap]
  induction sends with
  | nil => exact List.Sublist.refl _
  | cons send rest ih =>
      rw [List.filterMap_cons, List.filterMap_cons]
      cases hto : (Send.to? target send).bind ConsensusMessage.request? with
      | none =>
          cases hrequest : send.request? with
          | none => exact ih
          | some request => exact ih.cons _
      | some request =>
          have hsend : send.request? = some request := by
            obtain ⟨message, hmessage, hrequest⟩ := Option.bind_eq_some_iff.mp hto
            cases message <;> cases hrequest
            obtain ⟨out, hout, hmessage⟩ := Option.bind_eq_some_iff.mp hmessage
            cases send with
            | committed r => cases hout
            | outgoing out' =>
                obtain rfl := Option.some.inj hout
                unfold OutgoingMessage.to? at hmessage
                split at hmessage
                · obtain rfl := Option.some.inj hmessage
                  rfl
                · split at hmessage
                  · obtain rfl := Option.some.inj hmessage
                    rfl
                  · cases hmessage
                · cases hmessage
          rw [hsend]
          exact ih.cons_cons _

namespace Links

/-- The request that the node takes from its command line. -/
def submitted? (id : NodeId) (e : Event) : Option Request :=
  match e.event.action with
  | .call (.handleRequest request) _ => if e.event.node = id then some request else none
  | _ => none

/-- The requests that were typed in at the node and taken. -/
def submittedAt (id : NodeId) (events : List Event) : List Request :=
  events.filterMap (submitted? id)

/-- How many requests were typed in and taken, at all nodes. -/
def submittedInAll (live : Finset NodeId) (events : List Event) : Nat :=
  ∑ id ∈ live, (submittedAt id events).length

theorem submittedAt_le {live : Finset NodeId} {id : NodeId} (hid : id ∈ live)
    (events : List Event) : (submittedAt id events).length ≤ submittedInAll live events :=
  Finset.single_le_sum (f := fun id => (submittedAt id events).length)
    (fun _ _ => Nat.zero_le _) hid

theorem submittedAt_concat (id : NodeId) (events : List Event) (e : Event) :
    submittedAt id (events ++ [e]) = submittedAt id events ++ (submitted? id e).toList := by
  unfold submittedAt
  rw [List.filterMap_append]
  cases h : submitted? id e <;> simp [h]

section

variable [Crypto] {cluster : Cluster} {live : Finset NodeId} {events : List Event}
  {links links' : Links} {e : Event} {id : NodeId}

/-- **Requests are passed on to the first primary alone.** -/
theorem forwarded_of_run (h : Run (Step live) (init cluster) events links) (id : NodeId) :
    ∀ send ∈ (links.net id).issued, ∀ request, send.request? = some request →
      send = .outgoing (.sendTo (cluster.replicas.primary 0) (.consensus (.request request))) := by
  revert id
  refine h.invariant (I := fun _ links => ∀ id, ∀ send ∈ (links.net id).issued, ∀ request,
    send.request? = some request →
      send = .outgoing (.sendTo (cluster.replicas.primary 0) (.consensus (.request request))))
    (fun id send hsend => absurd hsend List.not_mem_nil) ?_
  intro cs t e u hr ih hstep
  refine Net.keep (I := fun _ _ issued => ∀ send ∈ issued, ∀ request,
    send.request? = some request →
      send = .outgoing (.sendTo (cluster.replicas.primary 0) (.consensus (.request request))))
    hstep.moves.net ih fun hsec ht _ send hsend request hrequest => ?_
  rcases List.mem_append.mp hsend with hold | hnew
  · exact ih _ send hold request hrequest
  have hleads : (t.net e.event.node).state.primary = cluster.replicas.primary 0 := by
    rw [PbftState.primary, (firstView_of_run hr e.event.node).state.view,
      (Cluster.hosts_of_run (net_run hr) e.event.node).replicas]
  rcases ht.requests with hnone | ⟨request', -, -, hsends⟩
  · exact absurd (List.mem_filterMap.mpr ⟨send, hnew, hrequest⟩) (by simp [hnone])
  · rw [hsends] at hnew
    obtain rfl := List.mem_singleton.mp hnew
    obtain rfl := Option.some.inj hrequest
    rw [hleads]

/-- Who is asked for a request by another node is the first primary. -/
theorem node_of_request (hr : Run (Step live) (init cluster) events links)
    (hmoves : Moves live links e links') {request : Request}
    (hmessage : e.event.action.message? = some (.request request)) :
    e.event.node = cluster.replicas.primary 0 := by
  obtain ⟨source, hsource⟩ := hmoves.source_of_message hmessage
  obtain ⟨message, now, haction, -, hsent, -⟩ := hmoves.heard_next hsource
  rw [haction] at hmessage
  obtain rfl := Option.some.inj hmessage
  have haccounted := (Cluster.hosts_of_run (net_run hr) source).sound.accounted
  have hforwarded := forwarded_of_run hr source
  rcases mem_sentTo.mp hsent with hsent | hsent
  · exact absurd (hforwarded _ (haccounted.outgoing hsent) request rfl) (by simp)
  · have heq := hforwarded _ (haccounted.outgoing hsent) request rfl
    exact (OutgoingMessage.sendTo.inj (Send.outgoing.inj heq)).1

/-- **A backup passes on what was typed in at it**, in turn. -/
theorem forwards_sublist (h : Run (Step live) (init cluster) events links)
    (hbackup : id ≠ cluster.replicas.primary 0) :
    ((links.net id).issued.filterMap Send.request?).Sublist (submittedAt id events) := by
  refine h.invariant (I := fun events links =>
    ((links.net id).issued.filterMap Send.request?).Sublist (submittedAt id events))
    (List.Sublist.refl _) ?_
  intro cs t e u hr ih hstep
  have hmoves := hstep.moves
  rw [submittedAt_concat]
  by_cases hid : id = e.event.node
  · subst hid
    have hact := Net.act_self hmoves.net
    rcases Replica.act_cases hact with ⟨-, -, hissued⟩ | ⟨sec, hsec, -, hissued⟩
    · rw [hissued]
      exact ih.trans (List.sublist_append_left _ _)
    · rw [hissued, List.filterMap_append]
      rcases (run_transition _ e.event.action.now sec).requests with
        hnone | ⟨request, rfl, -, hsends⟩
      · rw [hnone]
        exact ih.append (List.nil_sublist _)
      · -- Nobody but its command line asks it.
        have hhosts := Cluster.hosts_of_run (net_run hr) e.event.node
        have hrequest := hhosts.sound.cascading.request_of_sectionOf hsec
        have hsubmitted : submitted? e.event.node e = some request := by
          rcases Action.submits_or_delivers hrequest with ⟨now, haction⟩ | hmessage
          · simp [submitted?, haction]
          · exact absurd (node_of_request hr hmoves hmessage) hbackup
        rw [hsends, hsubmitted]
        exact ih.append (List.Sublist.refl _)
  · rw [Net.act_of_ne hmoves.net hid]
    exact ih.trans (List.sublist_append_left _ _)

/-- The requests a node has taken off a link. -/
def asked (links : Links) (node source : NodeId) : List Request :=
  (links.heard node source).filterMap ConsensusMessage.request?

omit [Crypto] in
theorem asked_sublist_forwards (hsound : links.Sound) (node source : NodeId) :
    (links.asked node source).Sublist ((links.net source).issued.filterMap Send.request?) := by
  have hfront : links.heard node source <+: (links.net source).issued.filterMap (Send.to? node) :=
    (List.take_prefix _ _).trans ((hsound.inTurn source).sentTo_isPrefix node)
  exact (hfront.filterMap _).sublist.trans (filterMap_to_sublist _ _)

theorem asked_sublist (h : Run (Step live) (init cluster) events links) (node : NodeId)
    (hbackup : id ≠ cluster.replicas.primary 0) :
    (links.asked node id).Sublist (submittedAt id events) :=
  (asked_sublist_forwards (sound_of_run h) node id).trans (forwards_sublist h hbackup)

/-- What a step adds to what was asked over the links. -/
theorem Moves.asked (hmoves : Moves live links e links') (hsound : links.Sound)
    (node source : NodeId) :
    links'.asked node source = links.asked node source ++
      if node = e.event.node ∧ e.source = some source then
        (e.event.action.message?.bind ConsensusMessage.request?).toList
      else [] := by
  unfold Links.asked
  split
  · rename_i htakes
    obtain ⟨rfl, hsource⟩ := htakes
    obtain ⟨message, now, haction, -, -, hnext⟩ := hmoves.heard_next hsource
    rw [hnext, haction, List.filterMap_append]
    cases hrequest : message.request? <;> simp [Action.message?, hrequest]
  · rename_i htakes
    rw [hmoves.heard_same hsound fun hnode hsource => htakes ⟨hnode, hsource⟩, List.append_nil]

theorem Moves.length_asked (hmoves : Moves live links e links') (hsound : links.Sound)
    (node source : NodeId) :
    (links'.asked node source).length = (links.asked node source).length +
      if node = e.event.node ∧ e.source = some source then
        (e.event.action.message?.bind ConsensusMessage.request?).toList.length
      else 0 := by
  rw [hmoves.asked hsound, List.length_append]
  split <;> rfl

theorem Moves.requests (hmoves : Moves live links e links') (id : NodeId) :
    Replica.requests (actionsAt id [e.event]) = (submitted? id e).toList.length +
      ∑ source ∈ live.erase id, if id = e.event.node ∧ e.source = some source then
        (e.event.action.message?.bind ConsensusMessage.request?).toList.length
      else 0 := by
  by_cases hid : id = e.event.node
  · subst hid
    have hactions : actionsAt e.event.node [e.event] = [e.event.action] := by
      simp [actionsAt]
    rw [hactions]
    cases hmoves.does with
    | submit request now hsource haction hidle =>
        simp [haction, hsource, submitted?, Replica.requests, Action.request?, Call.request?]
    | resume now hsource haction =>
        simp [haction, hsource, submitted?, Replica.requests, Action.request?]
    | deliver source message now hsource haction hne hidle hupcoming =>
        have hmem : source ∈ live.erase e.event.node :=
          Finset.mem_erase.mpr ⟨hne, hmoves.source source hsource⟩
        have hsubmitted : submitted? e.event.node e = none := by simp [submitted?, haction]
        simp only [hsubmitted, hsource, haction, Option.some.injEq, true_and, Finset.sum_ite_eq,
          if_pos hmem]
        cases message <;>
          simp [Replica.requests, Action.request?, Call.request?, Action.message?,
            ConsensusMessage.request?]
  · have hactions : actionsAt id [e.event] = [] := by
      simp [actionsAt, Ne.symm hid]
    have hsubmitted : submitted? id e = none := by
      unfold submitted?
      split
      · exact if_neg (Ne.symm hid)
      · rfl
    simp [hactions, hsubmitted, hid, Replica.requests]

/-- **The first primary has been asked by its command line and over the links.** -/
theorem requestsHandled_eq (h : Run (Step live) (init cluster) events links) :
    requestsHandled cluster events = (submittedAt (cluster.replicas.primary 0) events).length +
      ∑ source ∈ live.erase (cluster.replicas.primary 0),
        (links.asked (cluster.replicas.primary 0) source).length := by
  refine h.invariant (I := fun events links => requestsHandled cluster events
    = (submittedAt (cluster.replicas.primary 0) events).length +
      ∑ source ∈ live.erase (cluster.replicas.primary 0),
        (links.asked (cluster.replicas.primary 0) source).length) ?_ ?_
  · refine (Nat.zero_add _).symm.trans ?_
    congr 1
    exact (Finset.sum_eq_zero fun _ _ => rfl).symm
  · intro cs t e u hr ih hstep
    have hmoves := hstep.moves
    have hsound := sound_of_run hr
    rw [requestsHandled_concat, submittedAt_concat, List.length_append, ih]
    simp only [hmoves.length_asked hsound, Finset.sum_add_distrib]
    rw [hmoves.requests]
    omega

/-- **Any other node only by its command line.** -/
theorem requests_of_backup (h : Run (Step live) (init cluster) events links)
    (hbackup : id ≠ cluster.replicas.primary 0) :
    Replica.requests (actionsAt id (events.map (·.event))) = (submittedAt id events).length := by
  refine h.invariant (I := fun events _ =>
    Replica.requests (actionsAt id (events.map (·.event))) = (submittedAt id events).length) rfl ?_
  intro cs t e u hr ih hstep
  have hmoves := hstep.moves
  have hnone : ∀ source ∈ live.erase id, (if id = e.event.node ∧ e.source = some source then
      (e.event.action.message?.bind ConsensusMessage.request?).toList.length else 0) = 0 := by
    intro source _
    split
    · rename_i htakes
      rw [List.length_eq_zero_iff, Option.toList_eq_nil_iff]
      refine Option.eq_none_iff_forall_ne_some.mpr fun request hrequest => ?_
      obtain ⟨message, hmessage, hrequest⟩ := Option.bind_eq_some_iff.mp hrequest
      cases message <;> cases hrequest
      exact hbackup (htakes.1.trans (node_of_request hr hmoves hmessage))
    · rfl
  have hone := hmoves.requests id
  rw [Finset.sum_eq_zero hnone, Nat.add_zero] at hone
  rw [List.map_append, List.map_singleton, actionsAt_append, Replica.requests, List.countP_append,
    submittedAt_concat, List.length_append, ← hone]
  exact congrArg (· + _) ih

theorem submittedAt_of_down (h : Run (Step live) (init cluster) events links)
    (hdown : id ∉ live) : submittedAt id events = [] := by
  refine List.filterMap_eq_nil_iff.mpr fun e he => ?_
  have hnode := node_mem_of_run h e he
  unfold submitted?
  split
  · refine if_neg ?_
    rintro rfl
    exact hdown hnode
  · rfl

/-- **The first primary is asked no more often than requests were typed in**, at all nodes. -/
theorem requestsHandled_le_submitted (h : Run (Step live) (init cluster) events links) :
    requestsHandled cluster events ≤ submittedInAll live events := by
  have hothers : ∑ source ∈ live.erase (cluster.replicas.primary 0),
      (links.asked (cluster.replicas.primary 0) source).length
        ≤ ∑ source ∈ live.erase (cluster.replicas.primary 0),
          (submittedAt source events).length := by
    refine Finset.sum_le_sum fun source hsource => ?_
    exact (asked_sublist h _ (Finset.ne_of_mem_erase hsource)).length_le
  rw [requestsHandled_eq h, submittedInAll]
  by_cases hprimary : cluster.replicas.primary 0 ∈ live
  · rw [← Finset.add_sum_erase _ _ hprimary]
    exact Nat.add_le_add_left hothers _
  · rw [submittedAt_of_down h hprimary]
    rw [Finset.erase_eq_of_notMem hprimary] at hothers ⊢
    simpa using hothers

end

end Links

end P2pPbft
