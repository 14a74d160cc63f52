/-
How much is sent.

In the first view a replica broadcasts, for every number, its prepare once, its commit at
most as often as its prepare, and its checkpoint at most as often as it hands a request
over; the primary broadcasts each proposal once as well, and every other replica passes on
what was typed in at it.  There are no more numbers than requests, so a node sends no more
than four messages for each request that was typed in anywhere.
-/
import Mathlib.Algebra.GroupWithZero.Nat
import P2pPbft.Proofs.Boundaries
import P2pPbft.Proofs.Demand

namespace P2pPbft

/-- The numbers prepares have been issued for. -/
def voteNumbers (sends : List Send) : List SequenceNumber := (votes sends).map (·.sequence)

/-- The numbers commits have been issued for. -/
def commitNumbers (sends : List Send) : List SequenceNumber := (commits sends).map (·.sequence)

@[simp] theorem voteNumbers_append (sends sends' : List Send) :
    voteNumbers (sends ++ sends') = voteNumbers sends ++ voteNumbers sends' := by
  simp [voteNumbers]

@[simp] theorem commitNumbers_append (sends sends' : List Send) :
    commitNumbers (sends ++ sends') = commitNumbers sends ++ commitNumbers sends' := by
  simp [commitNumbers]

@[simp] theorem announcedNumbers_append (sends sends' : List Send) :
    announcedNumbers (sends ++ sends') = announcedNumbers sends ++ announcedNumbers sends' :=
  List.filterMap_append

/-! ### A commit for each prepare -/

/-- How many commits for the number are still to come. -/
def PbftState.owed (st : PbftState) (s : SequenceNumber) : Nat :=
  if (st.instanceAt s).phase = .prePrepared then 1 else 0

namespace PbftState

variable {st st' : PbftState} {s t : SequenceNumber} {inst : ConsensusInstance}

theorem owed_setInstance (st : PbftState) (s t : SequenceNumber) (inst : ConsensusInstance) :
    (st.setInstance s inst).owed t
      = if t = s then (if inst.phase = .prePrepared then 1 else 0) else st.owed t := by
  unfold owed instanceAt
  rw [lookup_setInstance]
  split <;> rfl

theorem owed_congr (hlog : st'.log = st.log) (s : SequenceNumber) : st'.owed s = st.owed s := by
  unfold owed instanceAt
  rw [hlog]
  cases st.log.lookup s <;> rfl

theorem owed_of_lookup (hlookup : st.log.lookup s = some inst) :
    st.owed s = if inst.phase = .prePrepared then 1 else 0 := by
  rw [owed, instanceAt_of_lookup hlookup]

/-- Recording a proposal owes one commit, for its number. -/
theorem owed_record_le (st : PbftState) (pp : PrePrepare) (p : Prepare) (s : SequenceNumber) :
    (st.record pp p).owed s ≤ [pp.sequence].count s + st.owed s := by
  rw [record_eq, owed_setInstance, List.count_singleton]
  by_cases hs : s = pp.sequence
  · simp [hs, recorded]
  · simp [hs]

theorem owed_setInstance_le (hphase : inst.phase = (st.instanceAt s).phase) (t : SequenceNumber) :
    (st.setInstance s inst).owed t ≤ st.owed t := by
  rw [owed_setInstance, hphase]
  split
  · rename_i hs
    rw [hs]
    exact Nat.le_refl _
  · exact Nat.le_refl _

theorem owed_stabilize_le (st : PbftState) (sequence s : SequenceNumber) :
    (st.stabilize sequence).owed s ≤ st.owed s := by
  unfold owed instanceAt stabilize
  dsimp only
  rw [Table.lookup_retain]
  split
  · cases st.log.lookup s <;> exact Nat.le_refl _
  · exact Nat.zero_le _

end PbftState

section

variable [Crypto] {st : PbftState} {issued : List Send} {now : Instant} {sec : Section}
  {out : Outcome}

/-- **A section that leaves more commits owed has voted, and one that commits is owed it.** -/
theorem Transition.owed (ht : Transition st now sec out) (s : SequenceNumber) :
    (commitNumbers out.sends).count s + out.state.owed s
      ≤ (voteNumbers out.sends).count s + st.owed s := by
  cases ht with
  | propose request _ =>
      show 0 + (st.proposed request).owed s ≤ [st.sequence + 1].count s + st.owed s
      rw [Nat.zero_add]
      exact PbftState.owed_record_le _ _ _ s
  | accept pp _ =>
      show 0 + (st.record pp (st.ownPrepare pp.view pp.sequence pp.digest)).owed s
        ≤ [pp.sequence].count s + st.owed s
      rw [Nat.zero_add]
      exact PbftState.owed_record_le _ _ _ s
  | storePrepare prepare _ =>
      show 0 + (st.setInstance prepare.sequence _).owed s ≤ 0 + st.owed s
      refine Nat.add_le_add_left (PbftState.owed_setInstance_le ?_ s) 0
      rfl
  | storeCommit commit _ =>
      show 0 + (st.setInstance commit.sequence _).owed s ≤ 0 + st.owed s
      refine Nat.add_le_add_left (PbftState.owed_setInstance_le ?_ s) 0
      rfl
  | prepared t inst digest hlookup _ hphase _ _ =>
      show [t].count s + (st.setInstance t _).owed s ≤ 0 + st.owed s
      rw [PbftState.owed_setInstance, List.count_singleton]
      by_cases hs : s = t
      · subst hs
        simp [PbftState.owed_of_lookup hlookup, hphase]
      · simp [hs, Ne.symm hs]
  | committed t inst hlookup _ _ _ =>
      show 0 + (st.setInstance t _).owed s ≤ 0 + st.owed s
      rw [PbftState.owed_setInstance]
      split
      · exact Nat.zero_le _
      · exact Nat.le_refl _
  | executed t inst request hlookup _ _ _ _ =>
      show 0 + (st.setInstance t _).owed s ≤ 0 + st.owed s
      rw [PbftState.owed_setInstance]
      split
      · exact Nat.zero_le _
      · exact Nat.le_refl _
  | stabilize checkpoint _ _ =>
      show 0 + ((st.countCheckpoint checkpoint).stabilize checkpoint.sequence).owed s
        ≤ 0 + st.owed s
      exact Nat.add_le_add_left ((st.countCheckpoint checkpoint).owed_stabilize_le _ s) 0
  | enterView nv _ =>
      show 0 + (st.enterView now nv.newView).owed s ≤ 0 + st.owed s
      refine Nat.add_le_add_left (Nat.le_of_eq (PbftState.owed_congr ?_ s)) 0
      rfl
  | _ => exact Nat.le_refl _

/-- For every number there are as many prepares as commits, counting those that are owed. -/
def Owing (st : PbftState) (issued : List Send) : Prop :=
  ∀ s, (commitNumbers issued).count s + st.owed s ≤ (voteNumbers issued).count s

/-- **Every section keeps it so.** -/
theorem Owing.step (h : Owing st issued) (ht : Transition st now sec out) :
    Owing out.state (issued ++ out.sends) := by
  intro s
  have hold := h s
  have hnew := ht.owed s
  rw [commitNumbers_append, voteNumbers_append, List.count_append, List.count_append]
  omega

/-! ### A checkpoint for each delivery -/

omit [Crypto] in
/-- Whether what runs next is the announcement of a checkpoint, as a number. -/
def checkpointsDue : Option Section → Nat
  | some (.tryCheckpoint _) => 1
  | _ => 0

/-- **A checkpoint is announced by the section for it, which follows a delivery.** -/
theorem Transition.checkpointsDue (ht : Transition st now sec out) :
    (announcedNumbers out.sends).length + P2pPbft.checkpointsDue out.next
      ≤ (P2pPbft.deliveries out.sends).length + P2pPbft.checkpointsDue (some sec) := by
  cases ht with
  | executed s inst request _ _ _ _ _ => exact Nat.le_refl _
  | announce s _ _ => exact Nat.le_refl _
  | _ => exact Nat.zero_le _

end

namespace Replica

variable [Crypto] {r r' : Replica} {a : Action}

/-- Every checkpoint that was announced, or is about to be, is for a request handed over. -/
def Announcing (r : Replica) : Prop :=
  (announcedNumbers r.issued).length + (r.tasks.map fun task => checkpointsDue task.next).sum
    ≤ (P2pPbft.deliveries r.issued).length

/-- **Every action keeps it so.** -/
theorem Announcing.act (h : r.Announcing) (hact : r.act a = some r') : r'.Announcing := by
  unfold Announcing at h ⊢
  cases step_of_act hact with
  | reply call now hentry => exact h
  | start call now sec hentry =>
      have hnew := (run_transition r.state now sec).checkpointsDue
      have hsec : checkpointsDue (some sec) = 0 := by
        cases call with
        | processMessage message => cases message <;> cases hentry <;> rfl
        | _ => cases hentry; rfl
      simp only [enter_issued, announcedNumbers_append, deliveries_append, List.length_append,
        List.map_append, List.map_cons, List.map_nil, List.sum_append, List.sum_cons,
        List.sum_nil, Outcome.task]
      omega
  | send before after now send sends next result htasks =>
      rw [htasks] at h
      simpa using h
  | go before after now sec result htasks =>
      have hnew := (run_transition r.state now sec).checkpointsDue
      rw [htasks] at h
      simp only [enter_issued, announcedNumbers_append, deliveries_append, List.length_append,
        List.map_append, List.map_cons, List.sum_append, List.sum_cons, Outcome.task] at h ⊢
      omega
  | finish before after now result htasks =>
      rw [htasks] at h
      simp only [List.map_append, List.map_cons, List.sum_append, List.sum_cons] at h ⊢
      exact (Nat.add_le_add_left (by omega) _).trans h

end Replica

/-! ### All that is sent in the first view -/

/-- The messages of the first view, kind by kind. -/
theorem length_outgoing {ps : List PrePrepare} {sends : List Send}
    (h : ∀ send ∈ sends, send.FirstView ps)
    (hrequests : ∀ target message, Send.outgoing (.sendTo target (.consensus message)) ∈ sends →
      message.claim = none) :
    (sends.filterMap Send.outgoing?).length = (proposals sends).length + (votes sends).length +
      (commits sends).length + (announcedNumbers sends).length +
      (sends.filterMap Send.request?).length := by
  induction sends with
  | nil => rfl
  | cons send rest ih =>
      have hfirst := h send List.mem_cons_self
      have ih := ih (fun send hsend => h send (List.mem_cons_of_mem _ hsend))
        fun target message hsend => hrequests target message (List.mem_cons_of_mem _ hsend)
      unfold proposals votes commits announcedNumbers at ih ⊢
      cases send with
      | committed request => exact ih
      | outgoing out =>
          cases out with
          | broadcast message =>
              cases message with
              | consensus message =>
                  cases message with
                  | reply _ | viewChange _ | newView _ => exact hfirst.elim
                  | _ =>
                      simp only [List.filterMap_cons, Send.outgoing?, Send.prePrepare?,
                        Send.prepare?, Send.commit?, Send.request?, List.length_cons]
                      omega
              | _ => exact hfirst.elim
          | sendTo target message =>
              cases message with
              | consensus message =>
                  have hnone := hrequests target message List.mem_cons_self
                  cases message with
                  | request r =>
                      simp only [List.filterMap_cons, Send.outgoing?, Send.prePrepare?,
                        Send.prepare?, Send.commit?, Send.request?, List.length_cons]
                      omega
                  | reply _ => exact hfirst.elim
                  | _ => cases hnone
              | _ => exact hfirst.elim

theorem length_le_of_numbers {numbers : List SequenceNumber} {n : Nat} (hnodup : numbers.Nodup)
    (h : ∀ s ∈ numbers, 0 < s.toNat ∧ s.toNat ≤ n) : numbers.length ≤ n := by
  have hmap : (numbers.map UInt64.toNat).Nodup :=
    hnodup.map fun _ _ heq => UInt64.toNat_inj.mp heq
  have hsub : numbers.map UInt64.toNat ⊆ List.range' 1 n := by
    intro k hk
    obtain ⟨s, hs, rfl⟩ := List.mem_map.mp hk
    obtain ⟨hpos, hle⟩ := h s hs
    exact List.mem_range'_1.mpr ⟨hpos, by omega⟩
  have hle := (hmap.subperm hsub).length_le
  rwa [List.length_map, List.length_range'] at hle

namespace Links

section

variable [Crypto] {cluster : Cluster} {live : Finset NodeId} {events : List Event}
  {links : Links} {id : NodeId}

theorem owing_of_run (h : Run (Step live) (init cluster) events links) (id : NodeId) :
    Owing (links.net id).state (links.net id).issued := by
  have hone := Net.run_at (net_run h) id (fun _ _ => True) fun _ _ => trivial
  refine hone.state_invariant (I := fun r => Owing r.state r.issued) ?_ ?_
  · exact fun s => Nat.le_refl _
  · exact fun howing hstep => Replica.keep (I := Owing) hstep.2 howing fun _ ht => howing.step ht

theorem announcing_of_run (h : Run (Step live) (init cluster) events links) (id : NodeId) :
    (links.net id).Announcing :=
  (Net.run_at (net_run h) id (fun _ _ => True) fun _ _ => trivial).state_invariant
    (I := Replica.Announcing) (Nat.le_refl _) fun hold hstep => hold.act hstep.2

theorem forwards_of_primary (h : Run (Step live) (init cluster) events links) :
    (links.net (cluster.replicas.primary 0)).issued.filterMap Send.request? = [] := by
  refine h.invariant (I := fun _ links =>
    (links.net (cluster.replicas.primary 0)).issued.filterMap Send.request? = []) rfl ?_
  intro cs t e u hr ih hstep
  refine Net.keep (I := fun id _ issued => id = cluster.replicas.primary 0 →
    issued.filterMap Send.request? = []) hstep.moves.net (fun id hid => hid ▸ ih) ?_ _ rfl
  intro sec out hsec ht _ hself
  rw [List.filterMap_append, hself, ih, List.nil_append]
  rcases ht.requests with hnone | ⟨request, -, hother, -⟩
  · exact hnone
  · refine absurd ?_ hother
    have hhosts := Cluster.hosts_of_run (net_run hr) e.event.node
    rw [PbftState.primary, (firstView_of_run hr e.event.node).state.view, hhosts.replicas,
      hhosts.nodeId, hself]

theorem requests_le (h : Run (Step live) (init cluster) events links) (hid : id ∈ live) :
    Replica.requests (actionsAt id (events.map (·.event))) ≤ submittedInAll live events := by
  by_cases hprimary : id = cluster.replicas.primary 0
  · rw [hprimary]
    exact requestsHandled_le_submitted h
  · rw [requests_of_backup h hprimary]
    exact submittedAt_le hid events

theorem votes_le (h : Run (Step live) (init cluster) events links)
    (hcount : submittedInAll live events < 2 ^ 64) (hid : id ∈ live) :
    (votes (links.net id).issued).length ≤ requestsHandled cluster events := by
  have hslots := slots_of_requests (net_run h) (Finset.mem_singleton_self id)
    (fun hhosts hrule => hrule.genuine hhosts) (Nat.lt_of_le_of_lt (requests_le h hid) hcount)
  have hnormal : ∀ p ∈ votes (links.net id).issued, p.view = 0 ∧
      Ordered (proposals (links.net (cluster.replicas.primary 0)).issued) p.sequence p.digest :=
    fun p hp => (firstView_of_run h id).sends _ (mem_votes.mp hp)
  have hnodup : (voteNumbers (links.net id).issued).Nodup := by
    refine List.Nodup.map_on ?_ (List.Nodup.of_map _ hslots.votes_nodup)
    intro p hp p' hp' heq
    refine List.inj_on_of_nodup_map hslots.votes_nodup hp hp' ?_
    rw [(hnormal p hp).1, (hnormal p' hp').1, heq]
  rw [← List.length_map]
  refine length_le_of_numbers hnodup fun s hs => ?_
  obtain ⟨p, hp, rfl⟩ := List.mem_map.mp hs
  exact ordered_le h (Nat.lt_of_le_of_lt (requestsHandled_le_submitted h) hcount) (hnormal p hp).2

theorem commits_le (h : Run (Step live) (init cluster) events links) (id : NodeId) :
    (commits (links.net id).issued).length ≤ (votes (links.net id).issued).length := by
  have howing := owing_of_run h id
  have hsub : (commitNumbers (links.net id).issued).Subperm (voteNumbers (links.net id).issued) :=
    List.subperm_ext_iff.mpr fun s _ => (Nat.le_add_right _ _).trans (howing s)
  simpa [commitNumbers, voteNumbers] using hsub.length_le

theorem proposals_le (h : Run (Step live) (init cluster) events links)
    (hcount : requestsHandled cluster events < 2 ^ 64) :
    (proposals (links.net (cluster.replicas.primary 0)).issued).length
      ≤ requestsHandled cluster events := by
  have hslots := slots_of_requests (net_run h)
    (Finset.mem_singleton_self (cluster.replicas.primary 0))
    (fun hhosts hrule => hrule.genuine hhosts) hcount
  have hfirst := firstOrdering_of_run h hcount
  have hnodup : ((proposals (links.net (cluster.replicas.primary 0)).issued).map
      (·.sequence)).Nodup := by
    refine List.Nodup.map_on ?_ (List.Nodup.of_map _ hslots.proposals_nodup)
    intro pp hpp pp' hpp' heq
    refine List.inj_on_of_nodup_map hslots.proposals_nodup hpp hpp' ?_
    rw [hfirst.view pp hpp, hfirst.view pp' hpp', heq]
  rw [← List.length_map (·.sequence)]
  refine length_le_of_numbers hnodup fun s hs => ?_
  obtain ⟨pp, hpp, rfl⟩ := List.mem_map.mp hs
  exact ordered_le h hcount ⟨pp, hpp, rfl, rfl⟩

theorem deliveries_le (h : Run (Step live) (init cluster) events links) (id : NodeId) :
    (deliveries (links.net id).issued).length
      ≤ (proposals (links.net (cluster.replicas.primary 0)).issued).length := by
  have hnodup := (executes_of_net_run (net_run h) id).nodup
  have hsub : (deliveries (links.net id).issued).map Request.digest ⊆
      (proposals (links.net (cluster.replicas.primary 0)).issued).map (·.request.digest) := by
    intro d hd
    obtain ⟨request, hrequest, rfl⟩ := List.mem_map.mp hd
    obtain ⟨pp, hpp, rfl⟩ := (firstView_of_run h id).sends _ (mem_deliveries.mp hrequest)
    exact List.mem_map.mpr ⟨pp, hpp, rfl⟩
  simpa using (hnodup.subperm hsub).length_le

/--
**A node sends no more than four messages for each request** that was typed in anywhere:
a prepare, a commit and a checkpoint, and the primary its proposal or another node the
request itself.
-/
theorem outgoing_le (h : Run (Step live) (init cluster) events links)
    (hcount : submittedInAll live events < 2 ^ 64) (id : NodeId) :
    (links.net id).outgoing.length ≤ 4 * submittedInAll live events := by
  have hhosts := Cluster.hosts_of_run (net_run h) id
  obtain ⟨front, hissued, houtgoing, -⟩ := ((sound_of_run h).inTurn id).sent
  have hsent : (links.net id).outgoing.length
      ≤ ((links.net id).issued.filterMap Send.outgoing?).length := by
    rw [houtgoing, hissued, List.filterMap_append, List.length_append]
    exact Nat.le_add_right _ _
  by_cases hid : id ∈ live
  swap
  · rw [issued_of_down h hid] at hsent
    exact (hsent.trans (Nat.zero_le _))
  rw [length_outgoing (firstView_of_run h id).sends hhosts.sound.signs.sendTo] at hsent
  have hhandled := requestsHandled_le_submitted h
  have hvotes := votes_le h hcount hid
  have hcommits := commits_le h id
  have hannounced := announcing_of_run h id
  have hproposals := proposals_le h (Nat.lt_of_le_of_lt hhandled hcount)
  have hdeliveries := deliveries_le h id
  unfold Replica.Announcing at hannounced
  by_cases hprimary : id = cluster.replicas.primary 0
  · have hforwards := congrArg List.length (forwards_of_primary h)
    rw [← hprimary] at hforwards hproposals hdeliveries
    rw [List.length_nil] at hforwards
    omega
  · have hnone : proposals (links.net id).issued = [] :=
      List.eq_nil_iff_forall_not_mem.mpr fun pp hpp =>
        hprimary (proposer_of_run (net_run h) id pp hpp)
    have hforwards := (forwards_sublist h hprimary).length_le
    have hown := submittedAt_le hid events
    rw [hnone, List.length_nil] at hsent
    omega

end

end Links

end P2pPbft
