/-
Total order on links that keep their order.

In a run in which every replica keeps pace, requests are handed over in the order of the
numbers and no number is skipped.  That is what `OrderlyRules` asks for; so what the
replicas hand over are prefixes of one list, with nothing assumed about when the handlers
run, how long a message takes, or how many replicas are up.

And they do keep pace for the first two windows of requests, if there are so few replicas
that a stable checkpoint takes the vote of all the others.  With four replicas it does.
-/
import P2pPbft.Proofs.InPace

namespace P2pPbft

/-! ### What the replicas have been told -/

theorem rounds_to [Crypto] {st : PbftState} {sends : List Send} (h : Signs st sends)
    (target : NodeId) :
    (sends.filterMap (Send.to? target)).filterMap ConsensusMessage.round? = course sends := by
  rw [List.filterMap_filterMap]
  refine List.filterMap_congr fun send hsend => ?_
  cases send with
  | committed request => rfl
  | outgoing out =>
      cases out with
      | broadcast message => cases message <;> rfl
      | sendTo node message =>
          cases message with
          | consensus message =>
              -- Only requests go to one node alone.
              have hnone := h.sendTo node message hsend
              cases message <;> cases hnone <;> simp [Send.to?, Send.outgoing?,
                OutgoingMessage.to?, Send.round?, ConsensusMessage.round?]
          | _ => rfl

theorem exists_signer {message : ConsensusMessage} {round : Round} {s : SequenceNumber}
    (h : message.round? = some (round, s)) : ∃ signer, message.signer? = some signer := by
  cases message with
  | request _ | reply _ | viewChange _ | newView _ => cases h
  | _ => exact ⟨_, rfl⟩

namespace Links

/-- The rounds of the other a node has been told of; of its own it knows all. -/
def told (links : Links) (node id : NodeId) : List (Round × SequenceNumber) :=
  if id = node then course (links.net node).issued
  else (links.heard node id).filterMap ConsensusMessage.round?

theorem told_self (links : Links) (node : NodeId) :
    links.told node node = course (links.net node).issued := if_pos rfl

theorem told_other (links : Links) {node id : NodeId} (hne : id ≠ node) :
    links.told node id = (links.heard node id).filterMap ConsensusMessage.round? := if_neg hne

section

variable [Crypto] {cluster : Cluster} {live : Finset NodeId} {events : List Event}
  {links links' : Links} {e : Event}

/-- **A node has been told the first part of the course of every other.** -/
theorem told_isPrefix (hsound : links.Sound) (hhosts : ∀ id, cluster.Hosts id (links.net id))
    (node id : NodeId) : links.told node id <+: course (links.net id).issued := by
  by_cases hself : id = node
  · rw [hself, told_self]
  · rw [told_other links hself]
    have hheard := (List.take_prefix (links.taken node id) _).trans
      ((hsound.inTurn id).sentTo_isPrefix node)
    have hrounds := hheard.filterMap ConsensusMessage.round?
    rw [rounds_to (hhosts id).sound.signs] at hrounds
    exact hrounds

theorem onLinks_of_run (h : Run (Step live) (init cluster) events links) (id : NodeId) :
    (links.net id).OnLinks cluster (proposals (links.net (cluster.replicas.primary 0)).issued)
      id := by
  have hrun := net_run h
  have hone := Net.run_at hrun id (fun _ _ => True) fun _ _ => trivial
  refine {
    toHosts := Cluster.hosts_of_run hrun id
    inTurn := (sound_of_run h).inTurn id
    attentive := Replica.attentive_of_run hone (cluster.hosts_init id).sound
      (Replica.attentive_new _ _ _ _ _)
    tracked := Replica.tracked_of_run hone (PbftState.tracked_new _ _ _ _ _)
    committing := ?_
    first := firstView_of_run h id
    logged := proposed_of_run hrun id }
  refine hone.state_invariant (I := fun r => Committing r.state r.issued)
    (fun _ _ h => absurd h (by simp [init, Cluster.init, Cluster.initState, Replica.new,
      PbftState.new])) fun hcommitting hstep => ?_
  exact Replica.keep (I := Committing) hstep.2 hcommitting fun _ ht => hcommitting.step ht

/-- How often `handle_request` has run at the first primary. -/
def requestsHandled (cluster : Cluster) (events : List Event) : Nat :=
  Replica.requests (actionsAt (cluster.replicas.primary 0) (events.map (·.event)))

/-- The first primary numbers what it proposes, unless it runs out of numbers. -/
theorem firstOrdering_of_run (h : Run (Step live) (init cluster) events links)
    (hcount : requestsHandled cluster events < 2 ^ 64) :
    FirstOrdering cluster (proposals (links.net (cluster.replicas.primary 0)).issued) := by
  have hrun := net_run h
  have hhosts := Cluster.hosts_of_run hrun (cluster.replicas.primary 0)
  have hfirst := firstPrimary_of_run hrun (cluster.replicas.primary 0)
  have hslots := slots_of_requests hrun (Finset.mem_singleton_self (cluster.replicas.primary 0))
    (fun hhosts hrule => hrule.genuine hhosts) hcount
  refine {
    toNumbering := hfirst.numbering hslots
    view := fun pp hpp => (hfirst.proposal pp hpp).1
    primary := fun pp hpp => ?_
    digest := fun pp hpp => (hfirst.proposal pp hpp).2.1 }
  obtain ⟨hsigner, -⟩ := hhosts.sound.signs.broadcast _ (mem_proposals.mp hpp) _ rfl
  exact hsigner.trans hhosts.nodeId

theorem Moves.told_next (h : Moves live links e links') {source : NodeId}
    (hsource : e.source = some source) :
    ∃ message now, e.event.action = .call (.processMessage message) now ∧
      source ≠ e.event.node ∧ message ∈ (links.net source).sentTo e.event.node ∧
      links'.told e.event.node source
        = links.told e.event.node source ++ message.round?.toList := by
  obtain ⟨message, now, haction, hne, hsent, hheard⟩ := h.heard_next hsource
  refine ⟨message, now, haction, hne, hsent, ?_⟩
  rw [told_other _ hne, told_other _ hne, hheard, List.filterMap_append]
  cases hround : message.round? <;> simp [hround]

/-- **What a step tells the node that acts.** -/
theorem Moves.hears [LawfulCrypto] (h : Moves live links e links') (hsound : links.Sound)
    (hlive : live ⊆ cluster.members) (hhosts : ∀ id, cluster.Hosts id (links.net id))
    (hhosts' : ∀ id, cluster.Hosts id (links'.net id))
    {ps : List PrePrepare} (hfirst : ∀ id, (links.net id).FirstView ps)
    (hascending : ∀ id, Ascending (course (links.net id).issued)) :
    Replica.Hears ps (links.told e.event.node) (links'.told e.event.node)
      (links.net e.event.node) e.event.action (links'.net e.event.node) := by
  have hnode := (hhosts e.event.node).nodeId
  have hact := Net.act_self h.net
  -- A message that is taken was sent by the other node, which signed it.
  have hmessage : ∀ source message, message ∈ (links.net source).sentTo e.event.node →
      source ∈ live → message.FirstView ps ∧ message.Verifies ∧
        ∀ signer, message.signer? = some signer → signer = source := by
    intro source message hsent hsource
    have hsigns := (hhosts source).sound.signs
    rcases mem_sentTo.mp hsent with hsent | hsent
    · have hissued := (hhosts source).sound.accounted.outgoing hsent
      refine ⟨(hfirst source).sends _ hissued, (hhosts source).verifies (hlive hsource) hissued, ?_⟩
      intro signer hsigner
      obtain ⟨claim, hclaim, rfl⟩ := Option.map_eq_some_iff.mp hsigner
      exact (hsigns.broadcast message hissued claim hclaim).1.trans (hhosts source).nodeId
    · have hissued := (hhosts source).sound.accounted.outgoing hsent
      have hnone := hsigns.sendTo _ message hissued
      refine ⟨(hfirst source).sends _ hissued, fun claim hclaim => ?_, fun signer hsigner => ?_⟩
      · exact absurd (hnone.symm.trans hclaim) (by simp)
      · rw [ConsensusMessage.signer?, hnone] at hsigner
        cases hsigner
  have hother : ∀ id, id ≠ e.event.node → e.source ≠ some id →
      links'.told e.event.node id = links.told e.event.node id := by
    intro id hne hsource
    rw [told_other _ hne, told_other _ hne, h.heard_same hsound fun _ => hsource]
  have hnext : ∀ id, id ≠ e.event.node → e.source = some id → ∃ message now,
      e.event.action = .call (.processMessage message) now ∧ message.FirstView ps ∧
      message.Verifies ∧ (∀ signer, message.signer? = some signer → signer = id) ∧
      links'.told e.event.node id = links.told e.event.node id ++ message.round?.toList := by
    intro id hne hsource
    obtain ⟨message, now, haction, -, hsent, htold⟩ := h.told_next hsource
    obtain ⟨hview, hverifies, hsigner⟩ := hmessage id message hsent (h.source id hsource)
    exact ⟨message, now, haction, hview, hverifies, hsigner, htold⟩
  refine {
    grows := ?_
    own := by rw [hnode, told_self]
    ascending := ?_
    new := ?_
    message := ?_ }
  · intro id
    by_cases hself : id = e.event.node
    · subst hself
      rw [told_self, told_self]
      exact ((Net.issued_prefix_act h.net _).filterMap _).subset
    by_cases hsource : e.source = some id
    · obtain ⟨message, now, -, -, -, -, htold⟩ := hnext id hself hsource
      rw [htold]
      exact List.subset_append_left _ _
    · rw [hother id hself hsource]
      exact List.Subset.refl _
  · intro id hne
    rw [hnode] at hne
    have hfront := told_isPrefix (hsound.step h) hhosts' e.event.node id
    rw [Net.act_of_ne h.net hne] at hfront
    exact (hascending id).of_front hfront
  · intro id round s hmem
    rw [hnode]
    by_cases hself : id = e.event.node
    · exact Or.inr (Or.inl hself)
    by_cases hsource : e.source = some id
    · obtain ⟨message, now, haction, -, -, hsigner, htold⟩ := hnext id hself hsource
      rw [htold] at hmem
      rcases List.mem_append.mp hmem with hold | hnew
      · exact Or.inl hold
      · have hround : message.round? = some (round, s) := by simpa using hnew
        obtain ⟨signer, hsome⟩ := exists_signer hround
        refine Or.inr (Or.inr ⟨message, by rw [haction]; rfl, hround, ?_⟩)
        rw [hsome, hsigner signer hsome]
    · rw [hother id hself hsource] at hmem
      exact Or.inl hmem
  · intro message hmessage
    obtain ⟨source, hsource⟩ := h.source_of_message hmessage
    obtain ⟨message', now, haction, hne, -, -⟩ := h.heard_next hsource
    obtain ⟨message', now, haction, hview, hverifies, hsigner, htold⟩ := hnext source hne hsource
    rw [haction] at hmessage
    obtain rfl := Option.some.inj hmessage
    refine ⟨hview, hverifies, fun round s id hround hid => ?_⟩
    obtain rfl := hsigner id hid
    rw [hnode, htold, hround]
    exact ⟨hne, List.mem_append_right _ (List.mem_singleton.mpr rfl)⟩

/-- A step in which the node that acts keeps pace. -/
def PaceStep (live : Finset NodeId) (links : Links) (e : Event) (links' : Links) : Prop :=
  Step live links e links' ∧ (links.net e.event.node).Meets PbftState.KeepsPace e.event.action

theorem steps_of_pace {links₀ : Links} (h : Run (PaceStep live) links₀ events links) :
    Run (Step live) links₀ events links := h.mono fun hstep => hstep.1

theorem requestsHandled_concat (cluster : Cluster) (events : List Event) (e : Event) :
    requestsHandled cluster (events ++ [e]) = requestsHandled cluster events +
      Replica.requests (actionsAt (cluster.replicas.primary 0) [e.event]) := by
  unfold requestsHandled Replica.requests
  rw [List.map_append, actionsAt_append, List.countP_append]
  rfl

theorem requestsHandled_le (cluster : Cluster) (events : List Event) (e : Event) :
    requestsHandled cluster events ≤ requestsHandled cluster (events ++ [e]) := by
  rw [requestsHandled_concat]
  exact Nat.le_add_right _ _

theorem inPace_init (cluster : Cluster) (id : NodeId) :
    ((init cluster).net id).InPace ((init cluster).told id) := by
  have hnone : ∀ other, (init cluster).told id other = [] := by
    intro other
    unfold told
    split <;> rfl
  exact {
    own := hnone id
    ascending := fun other => by rw [hnone]; exact Ascending.nil
    has := fun other round s h => by rw [hnone] at h; exact absurd h List.not_mem_nil
    heard := fun other round s h => absurd h (ConsensusInstance.not_has_new _ _ _ _ _)
    received := received_new _ _ _ _ _ _
    prepares := fun s h => by rw [hnone] at h; exact absurd h List.not_mem_nil
    proposed := fun s h => absurd h List.not_mem_nil
    first := fun _ s => Precedes.of_notMem List.not_mem_nil
    due := fun s h => absurd h List.not_mem_nil
    low := fun s h₀ h => absurd h₀ (UInt64.not_lt.mpr h)
    checkpointing := fun _ h => absurd h List.not_mem_nil
    numbered := fun s h₀ h => absurd h₀ (UInt64.not_lt.mpr h) }

theorem hears_of_step [LawfulCrypto] (hlive : live ⊆ cluster.members)
    (hr : Run (Step live) (init cluster) events links)
    (hpace : ∀ id, (links.net id).InPace (links.told id)) (hstep : Step live links e links') :
    Replica.Hears (proposals (links.net (cluster.replicas.primary 0)).issued)
      (links.told e.event.node) (links'.told e.event.node) (links.net e.event.node)
      e.event.action (links'.net e.event.node) := by
  refine hstep.moves.hears (sound_of_run hr) hlive (Cluster.hosts_of_run (net_run hr))
    (Cluster.hosts_of_run (net_run (hr.snoc hstep))) (firstView_of_run hr) fun id => ?_
  have hascending := (hpace id).ascending id
  rw [told_self] at hascending
  exact hascending

/-- **In a run that keeps pace every replica knows what it was told**, and goes on in order. -/
theorem inPace_of_run [LawfulCrypto] (hlive : live ⊆ cluster.members)
    (h : Run (PaceStep live) (init cluster) events links)
    (hcount : requestsHandled cluster events < 2 ^ 64) :
    ∀ id, (links.net id).InPace (links.told id) := by
  revert hcount
  refine h.invariant (I := fun events links =>
    requestsHandled cluster events < 2 ^ 64 →
      ∀ id, (links.net id).InPace (links.told id)) (fun _ => inPace_init cluster) ?_
  intro cs t e u hr hpace hstep hcount id
  have hcount := Nat.lt_of_le_of_lt (requestsHandled_le cluster cs e) hcount
  have hpace := hpace hcount
  have hsteps := steps_of_pace hr
  have hmoves := hstep.1.moves
  by_cases hid : id = e.event.node
  · subst hid
    exact (hpace e.event.node).act (onLinks_of_run hsteps _) (firstOrdering_of_run hsteps hcount)
      (hears_of_step hlive hsteps hpace hstep.1) (Net.act_self hmoves.net)
      hmoves.does.takesTurns hstep.2
  · have hsame : u.told id = t.told id := by
      funext other
      by_cases hself : other = id
      · rw [hself, told_self, told_self, Net.act_of_ne hmoves.net hid]
      · rw [told_other _ hself, told_other _ hself,
          hmoves.heard_same (sound_of_run hsteps) fun heq => absurd heq hid]
    rw [hsame, Net.act_of_ne hmoves.net hid]
    exact hpace id

theorem sequence_of_backup (hr : Run (Step live) (init cluster) events links) {id : NodeId}
    (hpace : (links.net id).InPace (links.told id)) (hid : id ≠ cluster.replicas.primary 0) :
    (links.net id).state.sequence = 0 := by
  by_contra hne
  have hpos : 0 < (links.net id).state.sequence := by grind
  obtain ⟨pp, hpp, -⟩ := mem_course_proposal.mp (hpace.numbered _ hpos (UInt64.le_refl _))
  exact hid (proposer_of_run (net_run hr) id pp hpp)

theorem sequence_le (hr : Run (Step live) (init cluster) events links)
    (hcount : requestsHandled cluster events < 2 ^ 64) :
    (links.net (cluster.replicas.primary 0)).state.sequence.toNat ≤
      requestsHandled cluster events :=
  Replica.sequence_le_requests (Net.run_at (net_run hr) _ (fun _ _ => True) fun _ _ => trivial)
    (cluster.hosts_init _).sound rfl hcount

theorem succ_sequence_le (hr : Run (Step live) (init cluster) events links) {request : Request}
    (hsec : (links.net e.event.node).sectionOf e.event.action = some (.handleRequest request))
    (hprimary : e.event.node = cluster.replicas.primary 0)
    (hcount : requestsHandled cluster (events ++ [e]) < 2 ^ 64) :
    (links.net e.event.node).state.sequence.toNat + 1 ≤
      requestsHandled cluster (events ++ [e]) := by
  have hrequest := (Cluster.hosts_of_run (net_run hr) _).sound.cascading.request_of_sectionOf hsec
  have hone : Replica.requests (actionsAt (cluster.replicas.primary 0) [e.event]) = 1 := by
    simp [actionsAt, hprimary, Replica.requests, hrequest]
  have hle := sequence_le hr (Nat.lt_of_le_of_lt (requestsHandled_le cluster events e) hcount)
  rw [requestsHandled_concat, hone, hprimary]
  omega

omit [Crypto] in
theorem pending_of_section {r : Replica} {a : Action} {sec : Section} (h : r.InTurn)
    (hturn : r.TakesTurns a) (hsec : r.sectionOf a = some sec) : r.pending = [] := by
  cases a with
  | call call now => exact Replica.pending_of_idle (hturn call now rfl)
  | resume index now =>
      simp only [Replica.sectionOf] at hsec
      split at hsec
      · rename_i next result htask
        have hmem := List.mem_of_getElem? htask
        obtain ⟨before, after, htasks⟩ := List.append_of_mem hmem
        obtain ⟨rfl, rfl⟩ := h.tasks_eq htasks
        simp [Replica.pending, htasks]
      · cases hsec

/-- **A run that keeps pace hands requests over in order**, and no counter wraps. -/
theorem orderly_of_run [LawfulCrypto] (hlive : live ⊆ cluster.members)
    (h : Run (PaceStep live) (init cluster) events links)
    (hcount : requestsHandled cluster events < 2 ^ 64) :
    Run (Net.Step (OrderlyRules cluster)) cluster.init (events.map (·.event)) links.net := by
  revert hcount
  refine h.invariant (I := fun events links =>
    requestsHandled cluster events < 2 ^ 64 →
      Run (Net.Step (OrderlyRules cluster)) cluster.init (events.map (·.event)) links.net)
    (fun _ => Run.nil _) ?_
  intro cs t e u hr ih hstep hcount
  have hbefore := Nat.lt_of_le_of_lt (requestsHandled_le cluster cs e) hcount
  have hsteps := steps_of_pace hr
  have hmoves := hstep.1.moves
  have hpace := inPace_of_run hlive hr hbefore
  have hlinks := onLinks_of_run hsteps e.event.node
  have hears := hears_of_step hlive hsteps hpace hstep.1
  rw [List.map_append]
  refine (ih hbefore).snoc ⟨⟨⟨hlive hmoves.node, fun message hmessage => ?_⟩, ?_⟩, hmoves.net⟩
  · obtain ⟨sender, hsender, hsent⟩ := hmoves.honest.1.2 message hmessage
    exact ⟨sender, hlive hsender, hsent⟩
  · intro sec hsec
    refine ⟨?_, ?_⟩
    · cases sec with
      | handleRequest request =>
          show (t.net e.event.node).state.sequence.toNat + 1 < 2 ^ 64
          by_cases hprimary : e.event.node = cluster.replicas.primary 0
          · exact Nat.lt_of_le_of_lt (succ_sequence_le hsteps hsec hprimary hcount) hcount
          · rw [sequence_of_backup hsteps (hpace _) hprimary]
            decide
      | _ => trivial
    · cases sec with
      | tryAdvanceToCommitted s =>
          intro hover
          rw [pending_of_section hlinks.inTurn hmoves.does.takesTurns hsec]
          exact ⟨(hpace _).committedBelow_of_handsOver hlinks hsec hover, rfl⟩
      | handleCheckpoint c =>
          intro hquorum hnew
          exact (hpace _).committedBelow_of_checkpoint hlinks hears hmoves.does.takesTurns hsec
            (hstep.2 _ hsec) ⟨hquorum, hnew⟩
      | _ => trivial

/-- In a run that keeps pace a replica hands over what is ordered, number by number. -/
theorem handed_of_pace [LawfulCrypto] (hlive : live ⊆ cluster.members)
    (h : Run (PaceStep live) (init cluster) events links)
    (hcount : requestsHandled cluster events < 2 ^ 64) (id : NodeId) :
    ∃ c, (∀ t, 0 < t → t ≤ c →
        (orders (proposals (links.net (cluster.replicas.primary 0)).issued) t).isSome) ∧
      (links.net id).committed = Numbered.firsts Request.digest
        (orders (proposals (links.net (cluster.replicas.primary 0)).issued)) c := by
  have horderly := orderly_of_run hlive h hcount
  obtain ⟨c, hassigned, hissued⟩ := (inSequence_of_run horderly id).handed
  have hsent : (links.net id).committed <+: deliveries (links.net id).issued := by
    rw [← (sendsInOrder_of_run horderly id).sent]
    exact List.prefix_append _ _
  rw [hissued] at hsent
  obtain ⟨c', hle, hcommitted⟩ := Numbered.exists_firsts_of_prefix hsent
  exact ⟨c', fun t h₀ ht => hassigned t h₀ (by omega), hcommitted⟩

theorem comparable_of_pace [LawfulCrypto] (hlive : live ⊆ cluster.members)
    (h : Run (PaceStep live) (init cluster) events links)
    (hcount : requestsHandled cluster events < 2 ^ 64) (a b : NodeId) :
    (links.net a).committed <+: (links.net b).committed ∨
      (links.net b).committed <+: (links.net a).committed := by
  obtain ⟨c, -, ha⟩ := handed_of_pace hlive h hcount a
  obtain ⟨c', -, hb⟩ := handed_of_pace hlive h hcount b
  rw [ha, hb]
  exact Numbered.firsts_prefix_or _ c c'

/-- **Total order.**  In a run that keeps pace every replica has handed over what the first
primary has ordered under the numbers up to some `c`, in the order of the numbers and
without holes; so of what two replicas have handed over one is a prefix of the other. -/
theorem handed_over_in_order [LawfulCrypto] (hlive : live ⊆ cluster.members)
    (h : Run (PaceStep live) (init cluster) events links)
    (hcount : requestsHandled cluster events < 2 ^ 64) :
    (∀ id, ∃ c, (∀ t, 0 < t → t ≤ c →
        (orders (proposals (links.net (cluster.replicas.primary 0)).issued) t).isSome) ∧
      (links.net id).committed = Numbered.firsts Request.digest
        (orders (proposals (links.net (cluster.replicas.primary 0)).issued)) c) ∧
      ∀ a b, (links.net a).committed <+: (links.net b).committed ∨
        (links.net b).committed <+: (links.net a).committed :=
  ⟨handed_of_pace hlive h hcount, comparable_of_pace hlive h hcount⟩

end

end Links

namespace Sample

/-- The first of two nodes hands two requests over, and the second the first of them. -/
def oneAhead : List Links.Event :=
  ([1, 2].flatMap fun i => typeIn 0 (request i) :: List.replicate 8 (goOn 0)) ++
    takeFrom 0 1 (.prePrepare ((signer 0).proposal 1 (request 1))) 7

end Sample

open Sample in
/-- The second of two nodes is one request behind the first. -/
theorem Links.handed_over_in_order_two :
    ∃ links : Links, (links.net (node 0)).committed = [request 1, request 2] ∧
      (links.net (node 1)).committed = [request 1] ∧
      ((links.net (node 0)).committed <+: (links.net (node 1)).committed ∨
        (links.net (node 1)).committed <+: (links.net (node 0)).committed) := by
  obtain ⟨links, hrun, hfirst, hsecond⟩ := exists_run_of_execute
    (fun links e => if (links.net e.event.node).Meets PbftState.KeepsPace e.event.action
      then links.next (cluster 1).members e else none) (init (cluster 1)) oneAhead
    (fun links => (links.net (node 0)).committed = [request 1, request 2] ∧
      (links.net (node 1)).committed = [request 1]) (by decide +kernel)
  have hpace : Run (PaceStep (cluster 1).members) (init (cluster 1)) oneAhead links := by
    refine hrun.mono fun hstep => ?_
    split at hstep
    · exact ⟨next_eq_some.mp hstep, ‹_›⟩
    · cases hstep
  have horder := handed_over_in_order (Finset.Subset.refl _) hpace (by decide +kernel)
  exact ⟨links, hfirst, hsecond, horder.2 (node 0) (node 1)⟩

end P2pPbft
