/-
Everything that is typed in is logged, at every node.

For a deadlock some main loop has to find the outgoing channel full, and a node sends no
more than four messages for each request that was typed in.  So as long as the requests are
few enough for the channel, the tasks stop only when everything is done.  Then nothing is on
its way, the links are drained, and all nodes have committed the same list.
-/
import P2pPbft.Proofs.Deadlock
import P2pPbft.Proofs.Volume

namespace P2pPbft

theorem frame_ne_nil (data : List UInt8) : frame data ≠ [] := by
  intro hnil
  have hlength := congrArg List.length (List.append_eq_nil_iff.mp hnil).1
  rw [LittleEndian.length_bytes] at hlength
  exact absurd hlength (by decide)

theorem Pipe.Frames.eq_nil {bincode : Bincode NetworkMessage} {limit : Nat} {pipe : Pipe}
    {framed : List NetworkMessage} (h : pipe.Frames bincode limit framed)
    (hbytes : pipe.bytes = []) : framed = [] := by
  obtain ⟨encodings, hencodings, heq⟩ := h
  cases hencodings with
  | nil => rfl
  | cons _ _ =>
      rw [hbytes, List.flatMap_cons] at heq
      exact absurd (List.append_eq_nil_iff.mp heq.symm).1 (frame_ne_nil _)

namespace Links

theorem submitted_iff {events : List Event} {request : Request} :
    Submitted (events.map (·.event)) request ↔ ∃ id, request ∈ submittedAt id events := by
  constructor
  · rintro ⟨event, hevent, now, haction⟩
    obtain ⟨e, he, rfl⟩ := List.mem_map.mp hevent
    exact ⟨e.event.node, List.mem_filterMap.mpr ⟨e, he, by simp [submitted?, haction]⟩⟩
  · rintro ⟨id, hmem⟩
    obtain ⟨e, he, hsubmitted⟩ := List.mem_filterMap.mp hmem
    unfold submitted? at hsubmitted
    split at hsubmitted
    · rename_i now haction
      split at hsubmitted
      · obtain rfl := Option.some.inj hsubmitted
        exact ⟨e.event, List.mem_map_of_mem he, now, haction⟩
      · cases hsubmitted
    · cases hsubmitted

end Links

namespace Deployment

/-- A request was typed in, at some node. -/
def TypedIn (events : List Event) (request : Request) : Prop :=
  ∃ id, Event.typeIn id request ∈ events

theorem mem_typedIn {events : List Event} {id : NodeId} {request : Request} :
    request ∈ events.filterMap (Event.typedIn? id) ↔ Event.typeIn id request ∈ events := by
  rw [List.mem_filterMap]
  constructor
  · rintro ⟨e, he, htyped⟩
    cases e with
    | typeIn node r =>
        simp only [Event.typedIn?] at htyped
        split at htyped
        · rename_i hnode
          obtain rfl := Option.some.inj htyped
          exact hnode ▸ he
        · cases htyped
    | _ => cases htyped
  · exact fun he => ⟨_, he, if_pos rfl⟩

variable {live : Finset NodeId} {d : Deployment} {bincode : Bincode NetworkMessage} {limit : Nat}
  {links : Links} {source target : NodeId}

/-- **Where everything is done everything has been heard.** -/
theorem Done.heard (h : Done live d) (hup : d.Up live)
    (hrepresents : d.Represents bincode limit links) (hjoined : Joined live source target) :
    links.heard target source = (links.net source).sentTo target := by
  have hsource := hjoined.1
  have htarget := hjoined.2
  have hlive := Finset.mem_of_mem_erase htarget
  obtain ⟨framed, hframes, -, hwhole⟩ := hrepresents.carries source target
  have hpeer : target ∈ (d.machines source).peers := by
    rw [hup.peers source hsource]
    exact htarget
  have hall := hwhole (hup.writer source target hjoined) (Or.inl hpeer)
  have hframed := hframes.eq_nil (h.bytes source target hjoined)
  have hnew :
      (d.machines source).dispatchedTo source target = (links.net source).sentTo target := by
    rw [Machine.dispatchedTo, if_neg (Finset.ne_of_mem_erase htarget).symm,
      h.dispatched source hsource, List.take_length, (hrepresents.runs source).replica]
    rfl
  rw [Pipe.contents, h.arrived source target hjoined, h.channel source target hjoined, hframed,
    Machine.handing, h.sending source hsource, Machine.inboxFrom, h.inbox target hlive,
    hnew] at hall
  refine List.map_injective_iff.mpr (fun _ _ heq => NetworkMessage.consensus.inj heq) ?_
  simpa using hall

theorem Done.atRest (h : Done live d) (hup : d.Up live)
    (hrepresents : d.Represents bincode limit links) (hsound : links.Sound) :
    links.AtRest live where
  idle := fun id hid => by
    rw [Links.Idle, (hrepresents.runs id).replica]
    exact (h.waits id hid).1
  drained := fun node hnode source hsource hne => by
    have htarget : node ∈ live.erase source := Finset.mem_erase.mpr ⟨hne.symm, hnode⟩
    have hlength := congrArg List.length (h.heard hup hrepresents ⟨hsource, htarget⟩)
    rw [Links.heard, List.length_take, Nat.min_eq_left (hsound.taken node source)] at hlength
    exact hlength.symm

section

variable [Crypto] {cluster : Cluster} {window : Nat} {events : List Event}

theorem node_mem_of_run {d₀ : Deployment}
    (h : Run (HealthyStep bincode window live) d₀ events d) : ∀ e ∈ events, e.node ∈ live := by
  refine h.invariant (I := fun events _ => ∀ e ∈ events, e.node ∈ live)
    (fun _ he => absurd he List.not_mem_nil) fun _ ih hstep e' he' => ?_
  rcases List.mem_append.mp he' with hold | hnew
  · exact ih e' hold
  · obtain rfl := List.mem_singleton.mp hnew
    exact hstep.2.1.1

theorem Follows.outgoing_le {events' : List Links.Event}
    (hfollows : Follows bincode limit events d events' links)
    (hr : Run (Links.Step live) (Links.init cluster) events' links)
    (hcount : events.countP Event.isTyped < 2 ^ 64) (id : NodeId) :
    (d.machines id).replica.outgoing.length ≤ 4 * events.countP Event.isTyped := by
  have htyped : Links.submittedInAll live events' ≤ events.countP Event.isTyped :=
    submittedInAll_le hfollows.requests
  have hle := Links.outgoing_le hr (Nat.lt_of_le_of_lt htyped hcount) id
  rw [(hfollows.represents.runs id).replica] at hle
  omega

/--
**No storm of messages.**  However the tasks run and whichever connections fail, a node puts
no more than four messages on its outgoing channel for each request that was typed in at any
node: its prepare, its commit and its checkpoint, and its proposal or the request itself.
-/
theorem four_messages (hlawful : bincode.Lawful) {peers : NodeId → Finset NodeId}
    (hself : ∀ id, id ∉ peers id)
    (h : Run (Step bincode window live) (init cluster peers) events d)
    (hcount : events.countP Event.isTyped < 2 ^ 64) (id : NodeId) :
    (d.machines id).replica.outgoing.length ≤ 4 * events.countP Event.isTyped := by
  obtain ⟨events', links, hr, hfollows⟩ := follows_of_run hlawful hself h
  exact hfollows.outgoing_le hr hcount id

theorem Done.typedIn_iff {events' : List Links.Event} (h : Done live d)
    (hr : Run (HealthyStep bincode window live) (init cluster fun id => live.erase id) events d)
    (hfollows : Follows bincode limit events d events' links) {request : Request} :
    TypedIn events request ↔ Submitted (events'.map (·.event)) request := by
  rw [Links.submitted_iff, TypedIn]
  refine exists_congr fun id => ?_
  rw [← mem_typedIn, ← hfollows.requests id]
  by_cases hid : id ∈ live
  · rw [h.requests id hid, List.append_nil]
  · -- Nothing was typed in at a node that is down.
    have hnone : events.filterMap (Event.typedIn? id) = [] := by
      refine List.filterMap_eq_nil_iff.mpr fun e he => Option.eq_none_iff_forall_ne_some.mpr ?_
      intro r hr'
      have hmem := mem_typedIn.mp (List.mem_filterMap.mpr ⟨e, he, hr'⟩)
      exact hid (node_mem_of_run hr _ hmem)
    rw [← hfollows.requests id] at hnone
    rw [(List.append_eq_nil_iff.mp hnone).1, (List.append_eq_nil_iff.mp hnone).2]
    rfl

/-- When everything is done all nodes have committed the same list, and it is what was typed in. -/
theorem Done.agreed [LawfulCrypto] {events' : List Links.Event} (hdone : Done live d)
    (h : Run (HealthyStep bincode window live) (init cluster fun id => live.erase id) events d)
    (hr : Run (Links.Step live) (Links.init cluster) events' links)
    (hfollows : Follows bincode limit events d events' links) (hup : d.Up live)
    (hlive : live ⊆ cluster.members) (hinterval : 4 * cluster.checkpointInterval.toNat < 2 ^ 64)
    (hreach : Links.InReach cluster (events.countP Event.isTyped))
    (hprimary : cluster.replicas.primary 0 ∈ live)
    (hquorum : cluster.config.quorum ≤ live.card) :
    ∃ requests : List Request,
      (∀ id ∈ live, (d.machines id).replica.committed = requests) ∧
      (requests.map Request.digest).Nodup ∧
      (∀ request ∈ requests, TypedIn events request) ∧
      ∀ request, TypedIn events request → request.digest ∈ requests.map Request.digest := by
  obtain ⟨hpace, hcount⟩ := hfollows.pace hr hlive hinterval hreach
  have hrested := Links.rested_of_run hlive hpace hcount hprimary hquorum
    (hdone.atRest hup hfollows.represents (Links.sound_of_run hr))
  obtain ⟨requests, hsame, hnodup, hvalid, hall⟩ := hrested.agreed hlive hpace hcount
  refine ⟨requests, fun id hid => ?_, hnodup, fun request hrequest => ?_,
    fun request htyped => ?_⟩
  · rw [← (hfollows.represents.runs id).replica, hsame id hid]
  · exact (hdone.typedIn_iff h hfollows).mpr (hvalid request hrequest)
  · exact hall request ((hdone.typedIn_iff h hfollows).mp htyped)

end

end Deployment

open Sample in
/-- The second of two nodes has passed on two requests, and sent its prepares and commits. -/
theorem Deployment.four_messages_two : ∃ d : Deployment,
    (d.machines (node 1)).replica.committed = [request 1, request 2] ∧
      (d.machines (node 1)).replica.outgoing.length ≤ 4 * 2 := by
  obtain ⟨d, hrun, hcommitted⟩ := exists_throughout
  exact ⟨d, hcommitted, four_messages codec_lawful
    (fun id => Finset.notMem_erase id firstTwo) hrun (by decide +kernel) (node 1)⟩

end P2pPbft
