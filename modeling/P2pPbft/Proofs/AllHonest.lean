/-
Networks in which every replica is honest.

A replica never enters a view it is primary of, but the one it starts in: a new view
is announced by its primary, and a broadcast does not come back to whoever made it.
So only the first primary ever proposes, and what the logs hold is what it proposed.

No quorum is needed for that, so it holds for any number of replicas.
-/
import P2pPbft.Proofs.Counter

namespace P2pPbft

section

variable [Crypto]

/-! ### What is delivered -/

/-- What a handler works on was broadcast by another live replica. -/
theorem HonestRules.sent {cluster : Cluster} {live : Finset NodeId} {net : Net} {e : Event}
    (h : HonestRules live net e) (hhosts : ∀ id, cluster.Hosts id (net id)) {sec : Section}
    (hsec : (net e.node).sectionOf e.action = some sec) {message : ConsensusMessage}
    (hmessage : sec.message? = some message) :
    ∃ sender ∈ live, sender ≠ e.node ∧
      OutgoingMessage.broadcast (.consensus message) ∈ (net sender).outgoing := by
  have hdelivered := (hhosts e.node).sound.cascading.message_of_sectionOf hsec hmessage
  obtain ⟨sender, hlive, ⟨hne, hsent⟩ | hsent⟩ := h.2 message hdelivered
  · exact ⟨sender, hlive, hne, hsent⟩
  · -- Only requests are sent to one node, and no handler of these works on a request.
    have hissued := (hhosts sender).sound.accounted.outgoing hsent
    have hnone := (hhosts sender).sound.signs.sendTo e.node message hissued
    cases sec <;> cases hmessage <;> cases hnone

theorem HonestRules.broadcast {cluster : Cluster} {live : Finset NodeId} {net : Net} {e : Event}
    (h : HonestRules live net e) (hhosts : ∀ id, cluster.Hosts id (net id)) {sec : Section}
    (hsec : (net e.node).sectionOf e.action = some sec) {message : ConsensusMessage}
    (hmessage : sec.message? = some message) :
    ∃ sender ∈ live, sender ≠ e.node ∧ Send.broadcast message ∈ (net sender).issued := by
  obtain ⟨sender, hlive, hne, hsent⟩ := h.sent hhosts hsec hmessage
  exact ⟨sender, hlive, hne, (hhosts sender).sound.accounted.outgoing hsent⟩

/-! ### The first primary -/

section

variable {st : PbftState} {issued : List Send} {now : Instant} {sec : Section} {out : Outcome}

theorem Transition.newView (h : Transition st now sec out) {nv : NewView}
    (hsend : Send.broadcast (.newView nv) ∈ out.sends) :
    st.replicas.primary nv.newView = st.nodeId := by
  cases h with
  | propose request h =>
      rcases List.mem_cons.mp hsend with heq | hsend
      · cases heq
      · cases List.mem_singleton.mp hsend
  | announceNewView viewChange hnew hquorum hprimary =>
      cases List.mem_singleton.mp hsend
      exact hprimary
  | forward _ _ | accept _ _ | prepared _ _ _ _ _ _ _ _ | executed _ _ _ _ _ _ _ _
  | announce _ _ _ | startViewChange _ => cases List.mem_singleton.mp hsend
  | _ => cases hsend

/-- The replica is primary of the first view or of none it is ever in. -/
structure FirstPrimary (st : PbftState) (issued : List Send) : Prop where
  view : st.view = 0 ∨ st.primary ≠ st.nodeId
  newView : ∀ nv, Send.broadcast (.newView nv) ∈ issued →
    st.replicas.primary nv.newView = st.nodeId
  proposal : ∀ pp ∈ proposals issued,
    pp.view = 0 ∧ pp.request.digest = pp.digest ∧ st.replicas.primary 0 = st.nodeId

/-- **It stays so as long as every new view comes from another replica.** -/
theorem FirstPrimary.step (hfirst : FirstPrimary st issued) (h : Transition st now sec out)
    (hother : ∀ nv, sec = .handleNewView nv → st.replicas.primary nv.newView ≠ st.nodeId) :
    FirstPrimary out.state (issued ++ out.sends) := by
  obtain ⟨hnode, -, hreplicas, -⟩ := h.static
  constructor
  · rw [PbftState.primary, hreplicas, hnode]
    rcases h.view with hview | ⟨nv, hsec, -, hview⟩
    · rw [hview]
      exact hfirst.view
    · rw [hview]
      exact Or.inr (hother nv hsec)
  · intro nv hnv
    rw [hreplicas, hnode]
    rcases List.mem_append.mp hnv with hold | hnew
    · exact hfirst.newView nv hold
    · exact h.newView hnew
  · intro pp hpp
    rw [hreplicas, hnode]
    rw [proposals_append] at hpp
    rcases List.mem_append.mp hpp with hold | hnew
    · exact hfirst.proposal pp hold
    · rcases h.proposals with hnone | ⟨request, -, hp, -, hone⟩
      · rw [hnone] at hnew
        exact absurd hnew (by simp)
      · rw [hone] at hnew
        obtain rfl := List.mem_singleton.mp hnew
        have hzero : st.view = 0 := hfirst.view.resolve_right fun hne => hne hp.primary
        refine ⟨hzero, rfl, ?_⟩
        rw [← hzero]
        exact hp.primary

/-! ### Pre-prepares in the log -/

/-- Every pre-prepare in the log has the property. -/
def Logged (P : PrePrepare → Prop) (st : PbftState) : Prop :=
  ∀ s inst pp, st.log.lookup s = some inst → inst.prePrepare = some pp → P pp

omit [Crypto] in
theorem logged_new (P : PrePrepare → Prop) (nodeId : NodeId) (keypair : KeyPair)
    (replicas : Replicas) (config : PbftConfig) (now : Instant) :
    Logged P (PbftState.new nodeId keypair replicas config now) :=
  fun _ _ _ h => absurd h (by simp [PbftState.new])

omit [Crypto] in
theorem Logged.mono {P Q : PrePrepare → Prop} (h : Logged P st) (hsub : ∀ pp, P pp → Q pp) :
    Logged Q st :=
  fun s inst pp hlookup hpp => hsub pp (h s inst pp hlookup hpp)

/-- **It stays so if what is proposed and what is accepted has it.** -/
theorem Logged.step {P : PrePrepare → Prop} (hlogged : Logged P st)
    (h : Transition st now sec out) (hissued : ∀ pp ∈ proposals out.sends, P pp)
    (haccept : ∀ pp, sec = .handlePrePrepare pp → P pp) : Logged P out.state := by
  intro s inst pp hlookup hpp
  have hbase : ∀ s, (st.instanceAt s).prePrepare = some pp → P pp := by
    intro s hpp
    rcases st.instanceAt_cases s with hl | hnew
    · exact hlogged s _ pp hl hpp
    · rw [hnew] at hpp
      exact absurd hpp (by simp [ConsensusInstance.new])
  rcases h.entry hlookup with hold | hwrite
  · exact hlogged s inst pp hold hpp
  cases hwrite with
  | propose request _ _ _ hsends =>
      obtain rfl := Option.some.inj hpp
      exact hissued _ (mem_proposals.mpr (by rw [hsends]; exact List.mem_cons_self))
  | accept pp' _ _ _ =>
      obtain rfl := Option.some.inj hpp
      exact haccept _ rfl
  | storePrepare _ _ _ => exact hbase _ hpp
  | prepared s inst digest hl _ _ _ _ _ => exact hlogged s inst pp hl hpp
  | storeCommit _ _ _ => exact hbase _ hpp
  | committed s inst hl _ _ _ _ => exact hlogged s inst pp hl hpp

end

section

variable {cluster : Cluster} {live : Finset NodeId} {events : List Event} {net : Net}

theorem firstPrimary_of_run (h : Run (Net.Step (HonestRules live)) cluster.init events net) :
    ∀ id, FirstPrimary (net id).state (net id).issued := by
  refine h.invariant (I := fun _ net => ∀ id, FirstPrimary (net id).state (net id).issued) ?_ ?_
  · intro id
    exact ⟨Or.inl rfl, fun _ h => absurd h (by simp [Cluster.init, Replica.new]),
      fun _ h => absurd h (by simp [Cluster.init, Replica.new, proposals])⟩
  · intro cs t e u hr hfirst hstep
    have hhosts := Cluster.hosts_of_run hr
    refine Net.keep (I := fun _ => FirstPrimary) hstep.2 hfirst fun hsec ht _ => ?_
    refine (hfirst e.node).step ht ?_
    rintro nv rfl heq
    obtain ⟨sender, -, hne, hsent⟩ := hstep.1.broadcast hhosts hsec rfl
    have hsender := (hfirst sender).newView nv hsent
    rw [(hhosts sender).replicas, (hhosts sender).nodeId] at hsender
    rw [(hhosts e.node).replicas, (hhosts e.node).nodeId] at heq
    exact hne (hsender.symm.trans heq)

theorem proposer_of_run (h : Run (Net.Step (HonestRules live)) cluster.init events net)
    (id : NodeId) : ∀ pp ∈ proposals (net id).issued, id = cluster.replicas.primary 0 := by
  intro pp hpp
  have hprimary := ((firstPrimary_of_run h id).proposal pp hpp).2.2
  rw [(Cluster.hosts_of_run h id).replicas, (Cluster.hosts_of_run h id).nodeId] at hprimary
  exact hprimary.symm

/-- **Every pre-prepare in a log is one the first primary has proposed.** -/
theorem proposed_of_run (h : Run (Net.Step (HonestRules live)) cluster.init events net) :
    ∀ id, Logged (· ∈ proposals (net (cluster.replicas.primary 0)).issued) (net id).state := by
  refine h.invariant (I := fun _ net => ∀ id,
    Logged (· ∈ proposals (net (cluster.replicas.primary 0)).issued) (net id).state) ?_ ?_
  · exact fun id => logged_new _ _ _ _ _ _
  · intro cs t e u hr hlogged hstep
    have hsub := Net.issued_subset_act hstep.2 (cluster.replicas.primary 0)
    have hmono : ∀ pp ∈ proposals (t (cluster.replicas.primary 0)).issued,
        pp ∈ proposals (u (cluster.replicas.primary 0)).issued :=
      fun pp hpp => mem_proposals.mpr (hsub (mem_proposals.mp hpp))
    refine Net.keep (I := fun _ st _ =>
      Logged (· ∈ proposals (u (cluster.replicas.primary 0)).issued) st) hstep.2
      (fun id => (hlogged id).mono hmono) fun hsec ht hissued => ?_
    refine ((hlogged e.node).mono hmono).step ht ?_ ?_
    · intro pp hpp
      have hnew : pp ∈ proposals (u e.node).issued := by
        rw [hissued, proposals_append]
        exact List.mem_append_right _ hpp
      rw [proposer_of_run (Run.snoc hr hstep) e.node pp hnew] at hnew
      exact hnew
    · rintro pp rfl
      obtain ⟨sender, -, -, hsent⟩ := hstep.1.broadcast (Cluster.hosts_of_run hr) hsec rfl
      have hold := mem_proposals.mpr hsent
      rw [proposer_of_run hr sender pp hold] at hold
      exact hmono pp hold

end

/-! ### Where requests come from -/

omit [Crypto] in
/-- The request a send passes on to another replica. -/
def Send.request? : Send → Option Request
  | .outgoing (.broadcast (.consensus (.request request))) => some request
  | .outgoing (.sendTo _ (.consensus (.request request))) => some request
  | _ => none

/-- Every request the replica passes on, proposes, holds or hands over has the property. -/
structure Sourced (source : Request → Prop) (st : PbftState) (issued : List Send) : Prop where
  forwarded : ∀ send ∈ issued, ∀ request, send.request? = some request → source request
  proposed : ∀ pp ∈ proposals issued, source pp.request
  logged : Logged (fun pp => source pp.request) st
  delivered : ∀ request ∈ deliveries issued, source request

section

variable {st : PbftState} {issued : List Send} {now : Instant} {sec : Section} {out : Outcome}
  {source : Request → Prop}

omit [Crypto] in
theorem Sourced.mono {source' : Request → Prop} (h : Sourced source st issued)
    (hsub : ∀ request, source request → source' request) : Sourced source' st issued where
  forwarded := fun send hsend request hrequest => hsub _ (h.forwarded send hsend request hrequest)
  proposed := fun pp hpp => hsub _ (h.proposed pp hpp)
  logged := h.logged.mono fun pp => hsub pp.request
  delivered := fun request hrequest => hsub _ (h.delivered request hrequest)

theorem Transition.forwards (h : Transition st now sec out) {send : Send}
    (hsend : send ∈ out.sends) {request : Request} (hrequest : send.request? = some request) :
    sec = .handleRequest request := by
  cases h with
  | forward request' h =>
      obtain rfl := List.mem_singleton.mp hsend
      obtain rfl := Option.some.inj hrequest
      rfl
  | propose request' h =>
      rcases List.mem_cons.mp hsend with rfl | hsend
      · cases hrequest
      · obtain rfl := List.mem_singleton.mp hsend
        cases hrequest
  | accept _ _ | prepared _ _ _ _ _ _ _ _ | executed _ _ _ _ _ _ _ _ | announce _ _ _
  | announceNewView _ _ _ _ | startViewChange _ =>
      obtain rfl := List.mem_singleton.mp hsend
      cases hrequest
  | _ => cases hsend

/-- The request of an instance is the one of its pre-prepare. -/
theorem WellFormed.prePrepare_of_request (hwf : WellFormed st issued) {s : SequenceNumber}
    {inst : ConsensusInstance} {request : Request} (hlookup : st.log.lookup s = some inst)
    (hrequest : inst.request = some request) :
    ∃ pp, inst.prePrepare = some pp ∧ pp.request = request := by
  have hok := hwf.entry s inst hlookup
  cases hpp : inst.prePrepare with
  | none =>
      have hnone := (hok.idle hpp).2.1
      exact absurd (hrequest.symm.trans hnone) (by simp)
  | some pp => exact ⟨pp, rfl, Option.some.inj ((hok.request pp hpp).symm.trans hrequest)⟩

/-- **It stays so if the request and the pre-prepare handled have it.** -/
theorem Sourced.step (hsourced : Sourced source st issued) (hwf : WellFormed st issued)
    (h : Transition st now sec out)
    (hrequest : ∀ request, sec = .handleRequest request → source request)
    (haccept : ∀ pp, sec = .handlePrePrepare pp → source pp.request) :
    Sourced source out.state (issued ++ out.sends) := by
  have hproposed : ∀ pp ∈ proposals out.sends, source pp.request := by
    intro pp hpp
    rcases h.proposals with hnone | ⟨request, hsec, -, -, hone⟩
    · rw [hnone] at hpp
      exact absurd hpp (by simp)
    · rw [hone] at hpp
      obtain rfl := List.mem_singleton.mp hpp
      exact hrequest request hsec
  constructor
  · intro send hsend request heq
    rcases List.mem_append.mp hsend with hold | hnew
    · exact hsourced.forwarded send hold request heq
    · exact hrequest request (h.forwards hnew heq)
  · intro pp hpp
    rw [proposals_append] at hpp
    rcases List.mem_append.mp hpp with hold | hnew
    · exact hsourced.proposed pp hold
    · exact hproposed pp hnew
  · exact hsourced.logged.step h hproposed haccept
  · intro request hmem
    rw [deliveries_append] at hmem
    rcases List.mem_append.mp hmem with hold | hnew
    · exact hsourced.delivered request hold
    · rcases h.deliveries with ⟨hnone, -⟩ | ⟨s, inst, request', -, hl, hinst, -, -, hsends⟩
      · rw [hnone] at hnew
        exact absurd hnew (by simp)
      · rw [hsends] at hnew
        obtain rfl := List.mem_singleton.mp hnew
        obtain ⟨pp, hpp, rfl⟩ := hwf.prePrepare_of_request hl hinst
        exact hsourced.logged s inst pp hl hpp

end

omit [Crypto] in
theorem Action.submits_or_delivers {a : Action} {request : Request}
    (h : a.request? = some request) :
    (∃ now, a = .call (.handleRequest request) now) ∨ a.message? = some (.request request) := by
  cases a with
  | resume index now => cases h
  | call call now =>
      cases call with
      | handleRequest request' =>
          obtain rfl := Option.some.inj h
          exact Or.inl ⟨now, rfl⟩
      | processMessage message =>
          cases message <;> cases h
          exact Or.inr rfl
      | _ => cases h

/-- The request was passed to `handle_request` at some replica. -/
def Submitted (events : List Event) (request : Request) : Prop :=
  ∃ e ∈ events, ∃ now, e.action = .call (.handleRequest request) now

section

variable {cluster : Cluster} {live : Finset NodeId} {events : List Event} {net : Net}

/-- **Among honest replicas every request was once submitted.** -/
theorem sourced_of_run (h : Run (Net.Step (HonestRules live)) cluster.init events net) :
    ∀ id, Sourced (Submitted events) (net id).state (net id).issued := by
  refine h.invariant (I := fun events net => ∀ id,
    Sourced (Submitted events) (net id).state (net id).issued) ?_ ?_
  · intro id
    exact ⟨fun _ h => absurd h (by simp [Cluster.init, Replica.new]),
      fun _ h => absurd h (by simp [Cluster.init, Replica.new, proposals]),
      logged_new _ _ _ _ _ _,
      fun _ h => absurd h (by simp [Cluster.init, Replica.new, deliveries])⟩
  · intro cs t e u hr hsourced hstep
    have hhosts := Cluster.hosts_of_run hr
    have hmono : ∀ request, Submitted cs request → Submitted (cs ++ [e]) request := by
      rintro request ⟨e', he', hsubmit⟩
      exact ⟨e', List.mem_append_left _ he', hsubmit⟩
    refine Net.keep (I := fun _ => Sourced (Submitted (cs ++ [e]))) hstep.2
      (fun id => (hsourced id).mono hmono) fun hsec ht _ => ?_
    refine ((hsourced e.node).mono hmono).step (hhosts e.node).sound.wellFormed ht ?_ ?_
    · rintro request rfl
      have hrequest := (hhosts e.node).sound.cascading.request_of_sectionOf hsec
      rcases Action.submits_or_delivers hrequest with ⟨now, hsubmit⟩ | hdelivers
      · exact ⟨e, List.mem_append_right _ (List.mem_singleton.mpr rfl), now, hsubmit⟩
      · obtain ⟨sender, -, ⟨-, hsent⟩ | hsent⟩ := hstep.1.2 _ hdelivers
        · have hissued := (hhosts sender).sound.accounted.outgoing hsent
          exact hmono _ ((hsourced sender).forwarded _ hissued request rfl)
        · have hissued := (hhosts sender).sound.accounted.outgoing hsent
          exact hmono _ ((hsourced sender).forwarded _ hissued request rfl)
    · rintro pp rfl
      obtain ⟨sender, -, -, hsent⟩ := hstep.1.broadcast hhosts hsec rfl
      exact hmono _ ((hsourced sender).proposed pp (mem_proposals.mpr hsent))

end

/--
**Agreement and validity among honest replicas**, of any number and over any view
changes.  What is committed under a number has one digest if the first primary has
handled fewer than `2 ^ 64` requests, and what is handed over was once submitted.
-/
theorem honest_agreement_and_validity {cluster : Cluster} {events : List Event} {net : Net}
    (h : Run (Net.Step (HonestRules cluster.members)) cluster.init events net) :
    (Replica.requests (actionsAt (cluster.replicas.primary 0) events) < 2 ^ 64 →
        ∀ a b s inst inst', (net a).state.log.lookup s = some inst →
          (net b).state.log.lookup s = some inst' → inst.phase = .committed →
          inst'.phase = .committed → inst.digest = inst'.digest) ∧
      ∀ id, ∀ request ∈ (net id).committed, Submitted events request := by
  have hhosts := Cluster.hosts_of_run h
  constructor
  · intro hcount a b s inst inst' hlookup hlookup' hphase hphase'
    have hself : cluster.replicas.primary 0 ∈ ({cluster.replicas.primary 0} : Finset NodeId) :=
      Finset.mem_singleton_self _
    have hslots := slots_of_requests h hself (fun hhosts hrule => hrule.genuine hhosts) hcount
    have hfirst := firstPrimary_of_run h (cluster.replicas.primary 0)
    -- Both entries hold what the first primary proposed under this number in view 0.
    have hheld : ∀ id inst, (net id).state.log.lookup s = some inst → inst.phase = .committed →
        ∃ pp ∈ proposals (net (cluster.replicas.primary 0)).issued,
          pp.sequence = s ∧ inst.digest = some pp.digest := by
      intro id inst hlookup hphase
      have hok := (hhosts id).sound.wellFormed.entry s inst hlookup
      obtain ⟨pp, hpp⟩ := hok.exists_prePrepare (Or.inr hphase)
      exact ⟨pp, proposed_of_run h id s inst pp hlookup hpp, hok.sequence pp hpp, hok.digest pp hpp⟩
    obtain ⟨pp, hpp, hs, hd⟩ := hheld a inst hlookup hphase
    obtain ⟨pp', hpp', hs', hd'⟩ := hheld b inst' hlookup' hphase'
    have hslot : (pp.view, pp.sequence) = (pp'.view, pp'.sequence) := by
      rw [(hfirst.proposal pp hpp).1, (hfirst.proposal pp' hpp').1, hs, hs']
    rw [hd, hd', List.inj_on_of_nodup_map hslots.proposals_nodup hpp hpp' hslot]
  · intro id request hrequest
    refine (sourced_of_run h id).delivered request ?_
    exact mem_deliveries.mpr ((hhosts id).sound.accounted.committed hrequest)

end

namespace Sample

/-- The second of two replicas commits the first request, while the first holds its vote back. -/
def secondCommits : List Event :=
  [submit 0 (request 1), resume 0 0, deliver 1 (.prePrepare ((signer 0).proposal 1 (request 1)))] ++
    List.replicate 4 (resume 1 0)

end Sample

open Sample in
/-- Two replicas that commit the same request, and one that hands it over. -/
theorem honest_agreement_and_validity_two :
    ∃ net : Net, ((net (node 0)).state.instanceAt 1).digest
        = ((net (node 1)).state.instanceAt 1).digest ∧
      (net (node 1)).committed = [request 1] ∧
      Submitted (secondCommits ++ [resume 1 0] ++ List.replicate 4 (resume 0 0)) (request 1) := by
  obtain ⟨net, hrun, hphase, hphase', hcommitted⟩ := Net.exists_run
    (HonestRules (cluster 1).members) (cluster 1).init
    (secondCommits ++ [resume 1 0] ++ List.replicate 4 (resume 0 0))
    (fun net => ((net (node 0)).state.instanceAt 1).phase = .committed ∧
      ((net (node 1)).state.instanceAt 1).phase = .committed ∧
      (net (node 1)).committed = [request 1]) (by decide +kernel)
  obtain ⟨hagree, hvalid⟩ := honest_agreement_and_validity hrun
  refine ⟨net, ?_, hcommitted, hvalid (node 1) _ (by rw [hcommitted]; exact List.mem_singleton.mpr rfl)⟩
  exact hagree (by decide +kernel) (node 0) (node 1) 1 _ _
    (PbftState.lookup_of_isPrepared (Or.inr hphase))
    (PbftState.lookup_of_isPrepared (Or.inr hphase')) hphase hphase'

open Sample in
/--
**After `2 ^ 64` requests two honest replicas disagree.**  The second has committed the
first request under the first number.  Then the numbers of the first one start over,
and it gives that number to the second request and commits it on its own vote.
-/
theorem honest_disagreement :
    ∃ net events, Run (Net.Step (HonestRules (cluster 1).members)) (cluster 1).init events net ∧
      ((net (node 0)).state.instanceAt 1).phase = .committed ∧
      ((net (node 1)).state.instanceAt 1).phase = .committed ∧
      ((net (node 0)).state.instanceAt 1).digest ≠ ((net (node 1)).state.instanceAt 1).digest := by
  have hsubmits : ∀ net : Net, HonestRules (cluster 1).members net
      ⟨node 0, .call (.handleRequest (request 2)) 0⟩ := fun net =>
    ⟨by decide +kernel, fun message h => absurd h (by simp [Action.message?])⟩
  have hresumes : ∀ net : Net, HonestRules (cluster 1).members net ⟨node 0, .resume 0 0⟩ :=
    fun net => ⟨by decide +kernel, fun message h => absurd h (by simp [Action.message?])⟩
  obtain ⟨net₁, hrun₁, ⟨hprimary, hexecuted, hone, hhigh⟩, htasks, hphase, hdigest⟩ :=
    Net.exists_run (HonestRules (cluster 1).members) (cluster 1).init secondCommits
    (fun net => ((net (node 0)).state.primary = (net (node 0)).state.nodeId ∧
        (net (node 0)).state.executed = ∅ ∧ (net (node 0)).state.sequence = 1 ∧
        (net (node 0)).state.sequence ≤ (net (node 0)).state.highWatermark) ∧
      (net (node 0)).tasks = [⟨[.broadcast (.prepare ((signer 0).ownPrepare 0 1 (request 1).digest))],
        some (.tryAdvanceToPrepared 1), .ok⟩] ∧
      ((net (node 1)).state.instanceAt 1).phase = .committed ∧
      ((net (node 1)).state.instanceAt 1).digest ≠ some (request 2).digest) (by decide +kernel)
  obtain ⟨r, net₂, hrun₂, hcounted, hnext, hproposed, hothers₂⟩ :=
    exists_run_around hsubmits net₁ hprimary (by simp [hexecuted]) hhigh
  rw [hone] at hnext
  -- The handler of the first request is still the first in progress.
  obtain ⟨rest, hrest⟩ : ∃ rest, (net₂ (node 0)).tasks =
      ⟨[.broadcast (.prepare ((signer 0).ownPrepare 0 1 (request 1).digest))],
        some (.tryAdvanceToPrepared 1), .ok⟩ :: rest := by
    obtain ⟨rest, hrest⟩ := hcounted.tasks.trans hproposed.tasks
    rw [htasks] at hrest
    exact ⟨rest, hrest.symm⟩
  have hquorum : (net₂ (node 0)).state.config.quorum = 1 := by
    rw [(Cluster.hosts_of_run (hrun₁.append hrun₂) (node 0)).config]
    rfl
  have hlookup := r.state.lookup_proposed (request 2) 1
  rw [hnext, if_pos rfl, ← hproposed.state] at hlookup
  obtain ⟨events, net₃, hrun₃, hphase₃, hdigest₃, hothers₃⟩ :=
    exists_run_commit hresumes hrest hlookup rfl rfl rfl hquorum
      (Finset.card_pos.mpr ⟨_, Table.mem_keys_of_lookup (Finmap.lookup_insert _)⟩)
  have hsame : net₃ (node 1) = net₁ (node 1) := by
    rw [hothers₃ _ (by decide +kernel), hothers₂ _ (by decide +kernel)]
  refine ⟨net₃, _, (hrun₁.append hrun₂).append hrun₃, hphase₃, ?_, ?_⟩
  · rw [hsame]
    exact hphase
  · rw [hsame, hdigest₃]
    exact hdigest.symm

end P2pPbft
