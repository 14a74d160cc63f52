/-
When the links are drained, every request has been handed over everywhere.

Suppose the first primary is up, and a quorum of replicas with it.  Once every main loop
waits and no link between two of them has anything left on it, the replicas that are up
have all been told the whole course of each other.  So each of them has the proposal of
every number, and the votes of all of them for it; and a number with its votes is committed
by the time the handler returns.

A request typed in at another node gets to the primary on the link between them, so it is
among those that were proposed, or its digest has been executed before.
-/
import P2pPbft.Proofs.LinkWindow

namespace P2pPbft

theorem Replica.sectionOf_of_request {r : Replica} {a : Action} {request : Request}
    (h : a.request? = some request) : r.sectionOf a = some (.handleRequest request) := by
  cases a with
  | resume index now => cases h
  | call call now => exact Call.entry_eq_handleRequest.mpr h

namespace Links

/-- Every main loop waits, and no link has anything left on it. -/
structure AtRest (live : Finset NodeId) (links : Links) : Prop where
  idle : ∀ id ∈ live, links.Idle id
  drained : ∀ node ∈ live, ∀ source ∈ live, source ≠ node →
    ((links.net source).sentTo node).length = links.taken node source

instance (live : Finset NodeId) (links : Links) : Decidable (links.AtRest live) :=
  decidable_of_iff ((∀ id ∈ live, links.Idle id) ∧ ∀ node ∈ live, ∀ source ∈ live, source ≠ node →
      ((links.net source).sentTo node).length = links.taken node source)
    ⟨fun h => ⟨h.1, h.2⟩, fun h => ⟨h.idle, h.drained⟩⟩

section

variable [Crypto] {cluster : Cluster} {live : Finset NodeId} {events : List Event}
  {links links' : Links} {e : Event} {id : NodeId} {s : SequenceNumber}

/-! ### Where the requests are -/

theorem node_mem_of_run {links₀ : Links} (h : Run (Step live) links₀ events links) :
    ∀ e ∈ events, e.event.node ∈ live := by
  refine h.invariant (I := fun events _ => ∀ e ∈ events, e.event.node ∈ live)
    (fun _ he => absurd he List.not_mem_nil) fun _ ih hstep e' he' => ?_
  rcases List.mem_append.mp he' with hold | hnew
  · exact ih e' hold
  · obtain rfl := List.mem_singleton.mp hnew
    exact hstep.moves.node

theorem handled_of_run (h : Run (Step live) (init cluster) events links) {node source : NodeId}
    {message : ConsensusMessage} (hheard : message ∈ links.heard node source) :
    ∃ e ∈ events, e.event.node = node ∧ e.event.action.message? = some message := by
  revert hheard
  refine h.invariant (I := fun events links => message ∈ links.heard node source →
    ∃ e ∈ events, e.event.node = node ∧ e.event.action.message? = some message) ?_ ?_
  · exact fun hheard => absurd hheard (by simp [heard, init])
  · intro cs t e u hr ih hstep hheard
    have hold : message ∈ t.heard node source →
        ∃ e' ∈ cs ++ [e], e'.event.node = node ∧ e'.event.action.message? = some message := by
      intro hmem
      obtain ⟨e', he', hevent⟩ := ih hmem
      exact ⟨e', List.mem_append_left _ he', hevent⟩
    by_cases htakes : node = e.event.node ∧ e.source = some source
    · obtain ⟨rfl, hsource⟩ := htakes
      obtain ⟨message', now, haction, -, -, hnext⟩ := hstep.moves.heard_next hsource
      rw [hnext] at hheard
      rcases List.mem_append.mp hheard with hmem | hnew
      · exact hold hmem
      · obtain rfl := List.mem_singleton.mp hnew
        exact ⟨e, List.mem_append_right _ (List.mem_singleton.mpr rfl), rfl, by rw [haction]; rfl⟩
    · rw [hstep.moves.heard_same (sound_of_run hr) fun hnode hsource =>
        htakes ⟨hnode, hsource⟩] at hheard
      exact hold hheard

/-- The request was ordered, or one with the same digest. -/
def Placed (cluster : Cluster) (links : Links) (request : Request) : Prop :=
  ∃ pp ∈ proposals (links.net (cluster.replicas.primary 0)).issued,
    pp.request.digest = request.digest

theorem Placed.step {request : Request} (h : Placed cluster links request)
    (hmoves : Moves live links e links') : Placed cluster links' request := by
  obtain ⟨pp, hpp, hdigest⟩ := h
  exact ⟨pp, mem_proposals.mpr (Net.issued_subset_act hmoves.net _ (mem_proposals.mp hpp)), hdigest⟩

/-- **The first primary orders the requests it handles.** -/
theorem placed_of_handled (hr : Run (Step live) (init cluster) events links)
    (hstep : PaceStep live links e links') {request : Request}
    (hrequest : e.event.action.request? = some request)
    (hprimary : e.event.node = cluster.replicas.primary 0) : Placed cluster links' request := by
  have hmoves := hstep.1.moves
  have hhosts := Cluster.hosts_of_run (net_run hr) e.event.node
  have hfirst := firstView_of_run hr e.event.node
  have hsec := Replica.sectionOf_of_request (r := links.net e.event.node) hrequest
  have hself : (links.net e.event.node).state.primary = (links.net e.event.node).state.nodeId := by
    rw [PbftState.primary, hfirst.state.view, hhosts.replicas, hhosts.nodeId, hprimary]
  by_cases hfresh : request.digest ∈ (links.net e.event.node).state.executed
  · -- It was executed, so it is one that was ordered before.
    refine Placed.step ?_ hmoves
    obtain ⟨request', hmem, hdigest⟩ :=
      ((executes_of_net_run (net_run hr) e.event.node).mem_executed _).mp hfresh
    obtain ⟨pp, hpp, rfl⟩ := hfirst.sends _ (mem_deliveries.mp hmem)
    exact ⟨pp, hpp, hdigest⟩
  · have hproposes : (links.net e.event.node).state.Proposes request :=
      ⟨hself, hfresh, (hstep.2 _ hsec hself).resolve_right hfresh⟩
    obtain ⟨-, hissued⟩ := Replica.act_of_sectionOf (Net.act_self hmoves.net) hsec
    rw [Section.run, PbftState.handleRequest_of_proposes hproposes] at hissued
    rw [Placed, ← hprimary, hissued]
    refine ⟨(links.net e.event.node).state.proposal
      ((links.net e.event.node).state.sequence + 1) request, mem_proposals.mpr ?_, rfl⟩
    exact List.mem_append_right _ List.mem_cons_self

/-- **What a replica was asked is ordered, or on its way to the first primary.** -/
theorem asked_of_run (h : Run (PaceStep live) (init cluster) events links) :
    ∀ e ∈ events, ∀ request, e.event.action.request? = some request →
      if e.event.node = cluster.replicas.primary 0 then Placed cluster links request
      else Send.outgoing (.sendTo (cluster.replicas.primary 0) (.consensus (.request request)))
        ∈ (links.net e.event.node).issued := by
  refine h.invariant (I := fun events links => ∀ e ∈ events, ∀ request,
    e.event.action.request? = some request →
      if e.event.node = cluster.replicas.primary 0 then Placed cluster links request
      else Send.outgoing (.sendTo (cluster.replicas.primary 0) (.consensus (.request request)))
        ∈ (links.net e.event.node).issued) (fun _ hmem => absurd hmem List.not_mem_nil) ?_
  intro cs t e u hr ih hstep e' he' request hrequest
  have hmoves := hstep.1.moves
  have hsteps := steps_of_pace hr
  rcases List.mem_append.mp he' with hold | hnew
  · have hbefore := ih e' hold request hrequest
    split
    · rename_i hprimary
      rw [if_pos hprimary] at hbefore
      exact hbefore.step hmoves
    · rename_i hprimary
      rw [if_neg hprimary] at hbefore
      exact Net.issued_subset_act hmoves.net _ hbefore
  · obtain rfl := List.mem_singleton.mp hnew
    split
    · rename_i hprimary
      exact placed_of_handled hsteps hstep hrequest hprimary
    · rename_i hprimary
      have hhosts := Cluster.hosts_of_run (net_run hsteps) e'.event.node
      have hfirst := firstView_of_run hsteps e'.event.node
      have hsec := Replica.sectionOf_of_request (r := t.net e'.event.node) hrequest
      have hleads : (t.net e'.event.node).state.primary = cluster.replicas.primary 0 := by
        rw [PbftState.primary, hfirst.state.view, hhosts.replicas]
      have hother : (t.net e'.event.node).state.isPrimary = false := by
        rw [PbftState.isPrimary, hleads, hhosts.nodeId]
        exact beq_false_of_ne (Ne.symm hprimary)
      obtain ⟨-, hissued⟩ := Replica.act_of_sectionOf (Net.act_self hmoves.net) hsec
      rw [hissued, Section.run, PbftState.handleRequest, if_pos hother, hleads]
      exact List.mem_append_right _ List.mem_cons_self

/-! ### What they all have -/

/-- **At rest everybody has been told everything.** -/
theorem AtRest.told (h : links.AtRest live) (hr : Run (Step live) (init cluster) events links)
    {node source : NodeId} (hnode : node ∈ live) (hsource : source ∈ live) :
    links.told node source = course (links.net source).issued := by
  by_cases hself : source = node
  · rw [hself, told_self]
  · have hsigns := (Cluster.hosts_of_run (net_run hr) source).sound.signs
    have hsent := ((sound_of_run hr).inTurn source).sentTo_of_idle (h.idle source hsource) node
    rw [told_other links hself, heard, ← h.drained node hnode source hsource hself,
      List.take_length, hsent, rounds_to hsigns]

/-- What is known of a run that keeps pace and has come to rest with a quorum. -/
structure Rested (cluster : Cluster) (live : Finset NodeId) (links : Links) : Prop where
  rest : links.AtRest live
  told : ∀ node ∈ live, ∀ source ∈ live, links.told node source = course (links.net source).issued
  pace : ∀ id, (links.net id).InPace (links.told id)
  onLinks : ∀ id, (links.net id).OnLinks cluster
    (proposals (links.net (cluster.replicas.primary 0)).issued) id
  primary : cluster.replicas.primary 0 ∈ live
  quorum : cluster.config.quorum ≤ live.card

namespace Rested

theorem prepare (h : Rested cluster live links) (hid : id ∈ live) (h₀ : 0 < s)
    (hs : s ≤ (links.net (cluster.replicas.primary 0)).state.sequence) :
    (.prepare, s) ∈ course (links.net id).issued := by
  refine (h.pace id).prepares s ?_
  rw [(h.onLinks id).replicas, h.told id hid _ h.primary]
  exact (h.pace _).numbered s h₀ hs

theorem not_next (h : Rested cluster live links) (hid : id ∈ live) (sec : Section) :
    ¬ ∃ task ∈ (links.net id).tasks, task.next = some sec := by
  rintro ⟨task, htask, -⟩
  rw [h.rest.idle id hid] at htask
  exact absurd htask List.not_mem_nil

theorem isPrepared (h : Rested cluster live links) (hid : id ∈ live)
    (hlow : (links.net id).state.lowWatermark < s)
    (hs : s ≤ (links.net (cluster.replicas.primary 0)).state.sequence) :
    ((links.net id).state.instanceAt s).isPrepared := by
  have h₀ : 0 < s := UInt64.lt_of_le_of_lt UInt64.zero_le hlow
  have hproposal : (links.net id).state.Has (cluster.replicas.primary 0) .proposal s := by
    refine (h.pace id).has _ _ s ?_ Round.noConfusion hlow
    rw [h.told id hid _ h.primary]
    exact (h.pace _).numbered s h₀ hs
  have hvotes : live ⊆ ((links.net id).state.instanceAt s).prepares.keys := by
    intro voter hvoter
    have hvoted : (links.net id).state.Has voter .prepare s := by
      refine (h.pace id).has voter _ s ?_ Round.noConfusion hlow
      rw [h.told id hid voter hvoter]
      exact h.prepare hvoter h₀ hs
    exact Finmap.mem_keys.mpr hvoted
  refine ((h.onLinks id).prepared_of_votes hproposal.2 ?_).resolve_right (h.not_next hid _)
  rw [(h.onLinks id).config]
  exact h.quorum.trans (Finset.card_le_card hvotes)

theorem commit (h : Rested cluster live links) (hid : id ∈ live) (h₀ : 0 < s)
    (hs : s ≤ (links.net (cluster.replicas.primary 0)).state.sequence) :
    (.commit, s) ∈ course (links.net id).issued := by
  by_cases hlow : s ≤ (links.net id).state.lowWatermark
  · exact (h.pace id).low s h₀ hlow
  · exact mem_course_commit.mpr
      ((h.onLinks id).committing.instanceAt (h.isPrepared hid (UInt64.not_le.mp hlow) hs))

/-- **Every number that is ordered is committed everywhere.** -/
theorem committed (h : Rested cluster live links) (hid : id ∈ live)
    (hlow : (links.net id).state.lowWatermark < s)
    (hs : s ≤ (links.net (cluster.replicas.primary 0)).state.sequence) :
    ((links.net id).state.instanceAt s).phase = .committed := by
  have h₀ : 0 < s := UInt64.lt_of_le_of_lt UInt64.zero_le hlow
  have hvotes : live ⊆ ((links.net id).state.instanceAt s).commits.keys := by
    intro voter hvoter
    have hvoted : (links.net id).state.Has voter .commit s := by
      refine (h.pace id).has voter _ s ?_ Round.noConfusion hlow
      rw [h.told id hid voter hvoter]
      exact h.commit hvoter h₀ hs
    exact Finmap.mem_keys.mpr hvoted
  refine ((h.onLinks id).committed_of_votes (h.isPrepared hid hlow hs) ?_).resolve_right
    (h.not_next hid _)
  rw [(h.onLinks id).config]
  exact h.quorum.trans (Finset.card_le_card hvotes)

end Rested

theorem rested_of_run [LawfulCrypto] (hlive : live ⊆ cluster.members)
    (h : Run (PaceStep live) (init cluster) events links)
    (hcount : requestsHandled cluster events < 2 ^ 64)
    (hprimary : cluster.replicas.primary 0 ∈ live) (hquorum : cluster.config.quorum ≤ live.card)
    (hrest : links.AtRest live) : Rested cluster live links where
  rest := hrest
  told := fun _ hnode _ hsource => hrest.told (steps_of_pace h) hnode hsource
  pace := inPace_of_run hlive h hcount
  onLinks := onLinks_of_run (steps_of_pace h)
  primary := hprimary
  quorum := hquorum

/-- **At rest every replica has handed over all that the first primary has numbered.** -/
theorem Rested.handed [LawfulCrypto] (h : Rested cluster live links)
    (hlive : live ⊆ cluster.members) (hr : Run (PaceStep live) (init cluster) events links)
    (hcount : requestsHandled cluster events < 2 ^ 64) (hid : id ∈ live) :
    (links.net id).committed = Numbered.firsts Request.digest
      (orders (proposals (links.net (cluster.replicas.primary 0)).issued))
      (links.net (cluster.replicas.primary 0)).state.sequence.toNat := by
  have horderly := orderly_of_run hlive hr hcount
  have hnumbering := numbering_of_run horderly
  have hsequence := inSequence_of_run horderly id
  have hexec := executes_of_net_run (net_run (steps_of_pace hr)) id
  have hbelow : (links.net id).state.CommittedBelow
      ((links.net (cluster.replicas.primary 0)).state.sequence.toNat + 1) := by
    refine Replica.InPace.committedBelow_of_le (UInt64.toNat_lt _) fun t hlow ht => ?_
    exact h.committed hid hlow (UInt64.le_iff_toNat_le.mpr (Nat.lt_succ_iff.mp ht))
  -- Nothing is sent any more, so what was issued was sent.
  obtain ⟨front, hissued, -, hcommitted⟩ := (h.onLinks id).inTurn.sent
  rw [Replica.pending_of_idle (h.rest.idle id hid), List.append_nil] at hissued
  rw [hcommitted, ← hissued]
  obtain ⟨c, hassigned, hhanded⟩ := hsequence.handed
  have hle : c ≤ (links.net (cluster.replicas.primary 0)).state.sequence.toNat := by
    by_cases hzero : c = 0
    · omega
    obtain ⟨request, hrequest⟩ := Option.isSome_iff_exists.mp
      (hassigned c (Nat.pos_of_ne_zero hzero) (Nat.le_refl _))
    obtain ⟨pp, hfind, -⟩ := Option.map_eq_some_iff.mp hrequest
    have hslots := slots_of_requests (net_run (steps_of_pace hr))
      (Finset.mem_singleton_self (cluster.replicas.primary 0))
      (fun hhosts hrule => hrule.genuine hhosts) hcount
    have hseq : pp.sequence.toNat = c := by simpa using List.find?_some hfind
    rw [← hseq]
    exact UInt64.le_iff_toNat_le.mp (hslots.proposed pp (List.mem_of_find?_eq_some hfind)).2
  rw [hhanded]
  refine (Numbered.firsts_of_taken hle fun t hlt hle => ?_).symm
  obtain ⟨request, hrequest, hexecuted⟩ := hsequence.orders_of_committedBelow hnumbering
    (h.onLinks id).sound.wellFormed (h.onLinks id).logged hbelow (UInt64.toNat_lt _)
    (by omega) (Nat.lt_succ_of_le hle)
  refine ⟨request, hrequest, ?_⟩
  rw [← hhanded, List.mem_map]
  exact (hexec.mem_executed _).mp hexecuted

/-- **At rest every request that was typed in is ordered**, wherever that was. -/
theorem Rested.placed (h : Rested cluster live links)
    (hr : Run (PaceStep live) (init cluster) events links) {request : Request}
    (hsubmitted : Submitted (events.map (·.event)) request) : Placed cluster links request := by
  have hsteps := steps_of_pace hr
  obtain ⟨event, hevent, now, haction⟩ := hsubmitted
  obtain ⟨e, he, rfl⟩ := List.mem_map.mp hevent
  have hrequest : e.event.action.request? = some request := by
    rw [haction]
    rfl
  have hasked := asked_of_run hr e he request hrequest
  split at hasked
  · exact hasked
  · rename_i hother
    have hnode := node_mem_of_run hsteps e he
    -- It was sent to the primary, and that has taken all it was sent.
    have hsent := ((sound_of_run hsteps).inTurn e.event.node).sentTo_of_idle
      (h.rest.idle _ hnode) (cluster.replicas.primary 0)
    have hmem : ConsensusMessage.request request ∈
        (links.net e.event.node).sentTo (cluster.replicas.primary 0) := by
      rw [hsent]
      refine List.mem_filterMap.mpr ⟨_, hasked, ?_⟩
      simp [Send.to?, Send.outgoing?, OutgoingMessage.to?]
    have hheard : ConsensusMessage.request request ∈
        links.heard (cluster.replicas.primary 0) e.event.node := by
      rw [heard, ← h.rest.drained _ h.primary _ hnode hother, List.take_length]
      exact hmem
    obtain ⟨e', he', hprimary, hmessage⟩ := handled_of_run hsteps hheard
    have hrequest' : e'.event.action.request? = some request := by
      obtain ⟨now', haction'⟩ := Action.call_of_message? hmessage
      rw [haction']
      rfl
    have hasked' := asked_of_run hr e' he' request hrequest'
    rw [if_pos hprimary] at hasked'
    exact hasked'

/-- **At rest all have handed over the same list**, with every request that was typed in. -/
theorem Rested.agreed [LawfulCrypto] (h : Rested cluster live links)
    (hlive : live ⊆ cluster.members) (hr : Run (PaceStep live) (init cluster) events links)
    (hcount : requestsHandled cluster events < 2 ^ 64) :
    ∃ requests : List Request, (∀ id ∈ live, (links.net id).committed = requests) ∧
      (requests.map Request.digest).Nodup ∧
      (∀ request ∈ requests, Submitted (events.map (·.event)) request) ∧
      ∀ request, Submitted (events.map (·.event)) request →
        request.digest ∈ requests.map Request.digest := by
  have hrun := net_run (steps_of_pace hr)
  have hhanded := fun (node : NodeId) (hnode : node ∈ live) => h.handed hlive hr hcount hnode
  have hdelivered : (links.net (cluster.replicas.primary 0)).committed
      = deliveries (links.net (cluster.replicas.primary 0)).issued := by
    obtain ⟨front, hissued, -, hcommitted⟩ := (h.onLinks _).inTurn.sent
    rw [Replica.pending_of_idle (h.rest.idle _ h.primary), List.append_nil] at hissued
    rw [hcommitted, hissued]
  refine ⟨(links.net (cluster.replicas.primary 0)).committed, fun id hid => ?_, ?_, ?_, ?_⟩
  · rw [hhanded id hid, hhanded _ h.primary]
  · rw [hdelivered]
    exact (executes_of_net_run hrun _).nodup
  · intro request hrequest
    rw [hdelivered] at hrequest
    exact (sourced_of_run hrun _).delivered request hrequest
  · intro request hsubmitted
    obtain ⟨pp, hpp, hdigest⟩ := h.placed hr hsubmitted
    have hnumbering := (firstOrdering_of_run (steps_of_pace hr) hcount).toNumbering
    have hslots := slots_of_requests hrun
      (Finset.mem_singleton_self (cluster.replicas.primary 0))
      (fun hhosts hrule => hrule.genuine hhosts) hcount
    obtain ⟨hpos, hle⟩ := hslots.proposed pp hpp
    rw [hhanded _ h.primary, ← hdigest]
    exact Numbered.mem_keys_firsts (UInt64.lt_iff_toNat_lt.mp hpos)
      (UInt64.le_iff_toNat_le.mp hle) (hnumbering.orders_of_mem hpp)

/--
**Completeness on links.**  The requests fit into the window, as for total order, and the
first primary is up with a quorum.  Once every main loop waits and every link is drained,
all the nodes that are up have handed over the same list; it has the digest of every request
that was typed in, at whichever of them, once, and no other.
-/
theorem same_list_at_rest [LawfulCrypto] (hlive : live ⊆ cluster.members)
    (hinterval : 4 * cluster.checkpointInterval.toNat < 2 ^ 64)
    (h : Run (Step live) (init cluster) events links)
    (hreach : InReach cluster (requestsHandled cluster events))
    (hprimary : cluster.replicas.primary 0 ∈ live) (hquorum : cluster.config.quorum ≤ live.card)
    (hrest : links.AtRest live) :
    ∃ requests : List Request, (∀ id ∈ live, (links.net id).committed = requests) ∧
      (requests.map Request.digest).Nodup ∧
      (∀ request ∈ requests, Submitted (events.map (·.event)) request) ∧
      ∀ request, Submitted (events.map (·.event)) request →
        request.digest ∈ requests.map Request.digest := by
  have hpace := pace_of_inReach hlive hinterval h hreach
  have hcount : requestsHandled cluster events < 2 ^ 64 := by
    have hle := hreach.le
    omega
  exact (rested_of_run hlive hpace hcount hprimary hquorum hrest).agreed hlive hpace hcount

end

end Links

open Sample in
/-- With one of four nodes down the other three all hand over what was typed in at one of them. -/
theorem Links.same_list_at_rest_three :
    ∃ links : Links, ∃ requests : List Request,
      (∀ id ∈ firstThree, (links.net id).committed = requests) ∧
      (request 1).digest ∈ requests.map Request.digest ∧
      (request 2).digest ∈ requests.map Request.digest := by
  obtain ⟨links, hrun, hrest⟩ := exists_run firstThree (init (cluster 3)) fourthDown
    (AtRest firstThree) (by decide +kernel)
  obtain ⟨requests, hsame, -, -, hall⟩ := same_list_at_rest (by decide +kernel)
    (by decide +kernel) hrun (by decide +kernel) (by decide +kernel) (by decide +kernel) hrest
  have hsubmitted : ∀ i ∈ [1, 2], submit 1 (request i) ∈ fourthDown.map (·.event) := by
    decide +kernel
  exact ⟨links, requests, hsame, hall _ ⟨_, hsubmitted 1 (by decide), 0, rfl⟩,
    hall _ ⟨_, hsubmitted 2 (by decide), 0, rfl⟩⟩

end P2pPbft
