/-
Each client is served in its own order.

What is typed in at a node goes over the channel of its command line, and from a backup over
one link to the first primary; on neither does anything overtake anything.  The first
primary numbers the requests as it is asked for them, and the replicas go by the numbers.
So of the requests of a client that uses one node, every node hands over some, in the order
in which they were typed in, and in the end all of them.
-/
import P2pPbft.Proofs.Delivery

namespace P2pPbft

namespace Links

/-- What the first primary has been asked for by the node, in turn. -/
def askedBy [Crypto] (cluster : Cluster) (events : List Event) (links : Links) (id : NodeId) :
    List Request :=
  if id = cluster.replicas.primary 0 then submittedAt id events
  else links.asked (cluster.replicas.primary 0) id

section

variable [Crypto] {cluster : Cluster} {live : Finset NodeId} {events : List Event}
  {links links' : Links} {e : Event}

theorem askedBy_sublist (h : Run (Step live) (init cluster) events links) (id : NodeId) :
    (askedBy cluster events links id).Sublist (submittedAt id events) := by
  unfold askedBy
  split
  · exact List.Sublist.refl _
  · rename_i hbackup
    exact asked_sublist h _ hbackup

theorem askedBy_step (cluster : Cluster) (events : List Event)
    (hmoves : Moves live links e links') (hsound : links.Sound) (id : NodeId) :
    (askedBy cluster events links id).Sublist (askedBy cluster (events ++ [e]) links' id) := by
  unfold askedBy
  split
  · rw [submittedAt_concat]
    exact List.sublist_append_left _ _
  · rw [hmoves.asked hsound]
    exact List.sublist_append_left _ _

/-- **Whenever the first primary is asked, somebody asks.** -/
theorem exists_asker (events : List Event) (hmoves : Moves live links e links')
    (hsound : links.Sound)
    (hprimary : e.event.node = cluster.replicas.primary 0) {request : Request}
    (hrequest : e.event.action.request? = some request) :
    ∃ id, askedBy cluster (events ++ [e]) links' id
      = askedBy cluster events links id ++ [request] := by
  rcases Action.submits_or_delivers hrequest with ⟨now, haction⟩ | hmessage
  · refine ⟨cluster.replicas.primary 0, ?_⟩
    have hsubmitted : submitted? (cluster.replicas.primary 0) e = some request := by
      simp [submitted?, haction, hprimary]
    rw [askedBy, if_pos rfl, askedBy, if_pos rfl, submittedAt_concat, hsubmitted]
    rfl
  · obtain ⟨source, hsource⟩ := hmoves.source_of_message hmessage
    obtain ⟨message, now, -, hne, -, -⟩ := hmoves.heard_next hsource
    have hbackup : source ≠ cluster.replicas.primary 0 := hprimary ▸ hne
    refine ⟨source, ?_⟩
    rw [askedBy, if_neg hbackup, askedBy, if_neg hbackup, hmoves.asked hsound,
      if_pos ⟨hprimary.symm, hsource⟩, hmessage]
    rfl

/-- **What it has ordered of a client is what it was asked for by the client's node**, in
turn. -/
theorem ordered_in_turn {p : Request → Bool} {home : NodeId}
    (h : Run (Step live) (init cluster) events links)
    (hhome : ∀ id, ∀ request ∈ submittedAt id events, p request = true → id = home) :
    (((proposals (links.net (cluster.replicas.primary 0)).issued).map (·.request)).filter p).Sublist
      ((askedBy cluster events links home).filter p) := by
  revert hhome
  refine h.invariant (I := fun events links =>
    (∀ id, ∀ request ∈ submittedAt id events, p request = true → id = home) →
      (((proposals (links.net (cluster.replicas.primary 0)).issued).map
        (·.request)).filter p).Sublist ((askedBy cluster events links home).filter p))
    (fun _ => ?_) ?_
  · exact List.nil_sublist _
  intro cs t e u hr ih hstep hhome
  have hmoves := hstep.moves
  have hsound := sound_of_run hr
  have ih := ih fun id request hmem => hhome id request (by
    rw [submittedAt_concat]
    exact List.mem_append_left _ hmem)
  have hmore := (askedBy_step cluster cs hmoves hsound home).filter p
  by_cases hprimary : e.event.node = cluster.replicas.primary 0
  swap
  · rw [Net.act_of_ne hmoves.net (Ne.symm hprimary)]
    exact ih.trans hmore
  have hact := Net.act_self hmoves.net
  rw [hprimary] at hact
  rcases Replica.act_cases hact with ⟨-, -, hissued⟩ | ⟨sec, hsec, -, hissued⟩
  · rw [hissued]
    exact ih.trans hmore
  rw [hissued, proposals_append]
  rcases (run_transition _ e.event.action.now sec).proposals with
    hnone | ⟨request, rfl, -, -, hone⟩
  · rw [hnone, List.append_nil]
    exact ih.trans hmore
  -- The request is that of somebody who asks, and if it is one of the client's we know who.
  have hhosts := Cluster.hosts_of_run (net_run hr) (cluster.replicas.primary 0)
  have hrequest := hhosts.sound.cascading.request_of_sectionOf hsec
  obtain ⟨asker, hasks⟩ := exists_asker cs hmoves hsound hprimary hrequest
  have hproposed : [(t.net (cluster.replicas.primary 0)).state.proposal
      ((t.net (cluster.replicas.primary 0)).state.sequence + 1) request].map (·.request)
        = [request] := rfl
  rw [hone, List.map_append, hproposed, List.filter_append]
  by_cases hp : p request = true
  · have hmem : request ∈ submittedAt asker (cs ++ [e]) := by
      refine (askedBy_sublist (hr.snoc hstep) asker).subset ?_
      rw [hasks]
      exact List.mem_append_right _ (List.mem_singleton.mpr rfl)
    obtain rfl := hhome asker request hmem hp
    rw [hasks, List.filter_append]
    exact ih.append (List.Sublist.refl _)
  · have hnone : [request].filter p = [] := by simp [hp]
    rw [hnone, List.append_nil]
    exact ih.trans hmore

theorem proposals_ascending (h : Run (Step live) (init cluster) events links)
    (hcount : requestsHandled cluster events < 2 ^ 64) :
    (proposals (links.net (cluster.replicas.primary 0)).issued).Pairwise fun pp pp' =>
      pp.sequence.toNat < pp'.sequence.toNat := by
  revert hcount
  refine h.invariant (I := fun events links => requestsHandled cluster events < 2 ^ 64 →
    (proposals (links.net (cluster.replicas.primary 0)).issued).Pairwise fun pp pp' =>
      pp.sequence.toNat < pp'.sequence.toNat) (fun _ => List.Pairwise.nil) ?_
  intro cs t e u hr ih hstep hcount
  have hbefore := Nat.lt_of_le_of_lt (requestsHandled_le cluster cs e) hcount
  have ih := ih hbefore
  have hmoves := hstep.moves
  by_cases hprimary : e.event.node = cluster.replicas.primary 0
  swap
  · rw [Net.act_of_ne hmoves.net (Ne.symm hprimary)]
    exact ih
  have hact := Net.act_self hmoves.net
  rcases Replica.act_cases hact with ⟨-, -, hissued⟩ | ⟨sec, hsec, -, hissued⟩
  · rw [← hprimary, hissued, hprimary]
    exact ih
  rw [← hprimary, hissued, proposals_append, hprimary]
  rcases (run_transition _ e.event.action.now sec).proposals with
    hnone | ⟨request, rfl, -, -, hone⟩
  · rw [hnone, List.append_nil]
    exact ih
  have hslots := slots_of_requests (net_run hr)
    (Finset.mem_singleton_self (cluster.replicas.primary 0))
    (fun hhosts hrule => hrule.genuine hhosts) hbefore
  have hroom := succ_sequence_le hr hsec hprimary hcount
  rw [hone]
  refine List.pairwise_append.mpr ⟨ih, List.pairwise_singleton _ _, fun pp hpp pp' hpp' => ?_⟩
  obtain rfl := List.mem_singleton.mp hpp'
  have hle : pp.sequence.toNat ≤ (t.net e.event.node).state.sequence.toNat := by
    rw [hprimary]
    exact UInt64.le_iff_toNat_le.mp (hslots.proposed pp hpp).2
  have hnext : ((t.net e.event.node).state.sequence + 1).toNat
      = (t.net e.event.node).state.sequence.toNat + 1 := by
    have hone : (1 : UInt64).toNat = 1 := rfl
    rw [UInt64.toNat_add, hone]
    exact Nat.mod_eq_of_lt (by omega)
  rw [hprimary] at hle hnext
  show pp.sequence.toNat < ((t.net (cluster.replicas.primary 0)).state.sequence + 1).toNat
  omega

/-- **What a node has committed of a client**, in a run that keeps pace, is what was typed in
at the client's node, with some left out. -/
theorem committed_in_turn [LawfulCrypto] (p : Request → Bool) (home : NodeId)
    (hlive : live ⊆ cluster.members) (h : Run (PaceStep live) (init cluster) events links)
    (hcount : requestsHandled cluster events < 2 ^ 64)
    (hhome : ∀ id, ∀ request ∈ submittedAt id events, p request = true → id = home)
    (id : NodeId) :
    ((links.net id).committed.filter p).Sublist ((submittedAt home events).filter p) := by
  have hrun := steps_of_pace h
  obtain ⟨c, -, hcommitted⟩ := handed_of_pace hlive h hcount id
  have hnumbered : (links.net id).committed.Sublist
      ((proposals (links.net (cluster.replicas.primary 0)).issued).map (·.request)) := by
    rw [hcommitted]
    refine Numbered.firsts_sublist (proposals_ascending hrun hcount) (fun t request hslot => ?_) c
    obtain ⟨pp, hfind, rfl⟩ := Option.map_eq_some_iff.mp hslot
    exact ⟨pp, List.mem_of_find?_eq_some hfind, by simpa using List.find?_some hfind, rfl⟩
  have hordered := ordered_in_turn hrun hhome
  have htyped := (askedBy_sublist hrun home).filter p
  exact (hnumbered.filter p).trans (hordered.trans htyped)

end

end Links

namespace Deployment

/-- The requests of the client are typed in at its home. -/
def Event.AtHome (client : String) (home : NodeId) : Event → Prop
  | .typeIn id request => request.clientId = client → id = home
  | _ => True

instance (client : String) (home : NodeId) : (e : Event) → Decidable (e.AtHome client home)
  | .typeIn id request => inferInstanceAs (Decidable (request.clientId = client → id = home))
  | .takeRequest .. | .takeMessage .. | .goOn .. | .answer _ | .dispatch .. | .handOver _
  | .log _ | .frame .. | .write .. | .read .. | .receive .. | .enqueue .. | .stopWriter ..
  | .stopReader .. | .removePeer .. => isTrue trivial

/-- What the client has asked for, in turn. -/
def askedFor (events : List Event) (client : String) (home : NodeId) : List Request :=
  (events.filterMap (Event.typedIn? home)).filter (·.clientId = client)

/-- What the replica has handed over for the client, in turn. -/
def servedBy (r : Replica) (client : String) : List Request :=
  r.committed.filter (·.clientId = client)

section

variable [Crypto] {cluster : Cluster} {live : Finset NodeId} {bincode : Bincode NetworkMessage}
  {window limit : Nat} {events : List Event} {d : Deployment} {links : Links} {client : String}
  {home : NodeId}

theorem Follows.served_sublist [LawfulCrypto] {events' : List Links.Event}
    (hfollows : Follows bincode limit events d events' links)
    (hr : Run (Links.Step live) (Links.init cluster) events' links)
    (hlive : live ⊆ cluster.members) (hinterval : 4 * cluster.checkpointInterval.toNat < 2 ^ 64)
    (hreach : Links.InReach cluster (events.countP Event.isTyped))
    (hhome : ∀ e ∈ events, e.AtHome client home) (id : NodeId) :
    (servedBy (d.machines id).replica client).Sublist (askedFor events client home) := by
  obtain ⟨hpace, hcount⟩ := hfollows.pace hr hlive hinterval hreach
  have htyped : ∀ id, (Links.submittedAt id events').Sublist
      (events.filterMap (Event.typedIn? id)) := fun id => by
    rw [← hfollows.requests id]
    exact List.sublist_append_left _ _
  have hserved := Links.committed_in_turn (·.clientId = client) home hlive hpace hcount
    (fun id request hmem hclient =>
      hhome _ (mem_typedIn.mp ((htyped id).subset hmem)) (of_decide_eq_true hclient)) id
  rw [(hfollows.represents.runs id).replica] at hserved
  exact hserved.trans ((htyped home).filter _)

/--
**Each client is served in its own order.**  However the tasks run and whichever of the
connections of the start fail, while the requests are few enough for the window: if all
requests of a client are typed in at one node, every node hands over only such requests for
it, in the order in which they were typed in, and none more often.
-/
theorem clients_in_order [LawfulCrypto] (hlawful : bincode.Lawful)
    {peers : NodeId → Finset NodeId} (hself : ∀ id, id ∉ peers id)
    (hlive : live ⊆ cluster.members) (hinterval : 4 * cluster.checkpointInterval.toNat < 2 ^ 64)
    (h : Run (Step bincode window live) (init cluster peers) events d)
    (hreach : Links.InReach cluster (events.countP Event.isTyped))
    (hhome : ∀ e ∈ events, e.AtHome client home) (id : NodeId) :
    (servedBy (d.machines id).replica client).Sublist (askedFor events client home) := by
  obtain ⟨events', links, hr, hfollows⟩ := follows_of_run hlawful hself h
  exact hfollows.served_sublist hr hlive hinterval hreach hhome id

end

end Deployment

open Sample in
/-- The first of two nodes has handed over the two requests that were typed in at the second. -/
theorem Deployment.clients_in_order_two : ∃ d : Deployment,
    servedBy (d.machines (node 0)).replica "client" = [request 1, request 2] ∧
      (servedBy (d.machines (node 0)).replica "client").Sublist
        (askedFor throughout "client" (node 1)) := by
  obtain ⟨d, hrun, hserved⟩ := exists_run codec 1000 firstTwo connected throughout
    (fun d => servedBy (d.machines (node 0)).replica "client" = [request 1, request 2])
    (by decide +kernel)
  exact ⟨d, hserved, clients_in_order codec_lawful
    (fun id => Finset.notMem_erase id firstTwo) (by decide +kernel) (by decide +kernel) hrun
    (by decide +kernel) (by decide +kernel) (node 0)⟩

end P2pPbft
