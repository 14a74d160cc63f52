/-
In the normal case every request gets through.

Requests come to the first primary, fewer than it takes to reach a checkpoint, and nobody
starts a view change.  Some replicas may be silent, but those that are live are honest and
make up a quorum.  Then no handler fails; and once all handlers have returned, and every
broadcast has reached every other live replica, every live replica has sent every request
to its application.

A message that was delivered is in the log from then on, and an instance that could move on
has a handler that will move it on.  So when nothing is left to happen each instance holds
the votes of all live replicas, and has come to the end.
-/
import P2pPbft.Proofs.AnyOrder
import P2pPbft.Proofs.Silence
import P2pPbft.Proofs.SigningKeys

namespace P2pPbft

/-! ### One replica -/

/-- The results of the handlers, of those that have returned and of those in progress. -/
def Replica.allResults (r : Replica) : List Result := r.results ++ r.tasks.map (·.result)

section

variable [Crypto]

/-- **A result was there before, or it is the one of the section that was run.** -/
theorem Replica.allResults_act {r r' : Replica} {a : Action} (h : r.act a = some r')
    {result : Result} (hresult : result ∈ r'.allResults) :
    result ∈ r.allResults ∨ result = .ok ∨
      ∃ sec, r.sectionOf a = some sec ∧ (sec.run r.state a.now).result = result := by
  cases step_of_act h with
  | reply call now hentry =>
      simp only [allResults, List.mem_append, List.mem_singleton] at hresult ⊢
      tauto
  | start call now sec hentry =>
      simp only [allResults, enter_results, List.map_append, List.mem_append, List.map_cons,
        List.map_nil, List.mem_singleton] at hresult ⊢
      rcases hresult with hold | hold | rfl
      · exact Or.inl (Or.inl hold)
      · exact Or.inl (Or.inr hold)
      · exact Or.inr (Or.inr ⟨sec, hentry, rfl⟩)
  | send before after now send sends next result' htasks =>
      refine Or.inl ?_
      simpa [allResults, htasks] using hresult
  | go before after now sec result' htasks =>
      have hsec : r.sectionOf (.resume before.length now) = some sec := sectionOf_resume htasks
      simp only [allResults, enter_results, htasks, List.map_append, List.mem_append, List.map_cons,
        List.mem_cons] at hresult ⊢
      rcases hresult with hold | hold | rfl | hold
      · exact Or.inl (Or.inl hold)
      · exact Or.inl (Or.inr (Or.inl hold))
      · exact Or.inr (Or.inr ⟨sec, hsec, rfl⟩)
      · exact Or.inl (Or.inr (Or.inr (Or.inr hold)))
  | finish before after now result' htasks =>
      refine Or.inl ?_
      simp only [allResults, htasks, List.map_append, List.mem_append, List.map_cons,
        List.mem_cons] at hresult ⊢
      tauto

section

variable {cluster : Cluster} {ps ps' : List PrePrepare} {st : PbftState} {issued : List Send}
  {now : Instant} {sec : Section} {out : Outcome}

theorem Transition.issues_commit {s : SequenceNumber} {inst inst' : ConsensusInstance}
    (ht : Transition st now (.tryAdvanceToPrepared s) out) (hlookup : st.log.lookup s = some inst)
    (hphase : inst.phase = .prePrepared) (hlookup' : out.state.log.lookup s = some inst')
    (hprep : inst'.isPrepared) : ∃ c ∈ P2pPbft.commits out.sends, c.sequence = s := by
  cases ht with
  | stay sec result =>
      obtain rfl := Option.some.inj (hlookup.symm.trans hlookup')
      exact absurd hprep (by simp [ConsensusInstance.isPrepared, hphase])
  | prepared s inst digest _ _ _ _ _ =>
      exact ⟨st.ownCommit inst s digest, mem_commits.mpr (List.mem_singleton.mpr rfl), rfl⟩

/-- Behind every prepared instance there is a commit that was issued. -/
def Committing (st : PbftState) (issued : List Send) : Prop :=
  ∀ s inst, st.log.lookup s = some inst → inst.isPrepared → ∃ c ∈ commits issued, c.sequence = s

omit [Crypto] in
theorem Committing.instanceAt (h : Committing st issued) {s : SequenceNumber}
    (hprep : (st.instanceAt s).isPrepared) : ∃ c ∈ commits issued, c.sequence = s :=
  h s _ (PbftState.lookup_of_isPrepared hprep) hprep

theorem Committing.step (h : Committing st issued) (ht : Transition st now sec out) :
    Committing out.state (issued ++ out.sends) := by
  intro s inst hlookup hprep
  rw [commits_append]
  have hold : (∃ c ∈ commits issued, c.sequence = s) →
      ∃ c ∈ commits issued ++ commits out.sends, c.sequence = s := by
    rintro ⟨c, hc, hs⟩
    exact ⟨c, List.mem_append_left _ hc, hs⟩
  rcases ht.entry hlookup with hkept | hwrite
  · exact hold (h s inst hkept hprep)
  cases hwrite with
  | propose _ _ _ _ _ =>
      exact absurd hprep (by simp [ConsensusInstance.isPrepared, PbftState.recorded])
  | accept _ _ _ _ =>
      exact absurd hprep (by simp [ConsensusInstance.isPrepared, PbftState.recorded])
  | storePrepare p _ _ => exact hold (h.instanceAt hprep)
  | prepared s inst digest hl _ hphase _ _ _ =>
      obtain ⟨c, hc, hs⟩ := ht.issues_commit hl hphase hlookup hprep
      exact ⟨c, List.mem_append_right _ hc, hs⟩
  | storeCommit c _ _ => exact hold (h.instanceAt hprep)
  | committed s inst hl hphase _ _ _ => exact hold (h s inst hl (Or.inl hphase))

/-- Every number up to the counter is ordered. -/
def FullyOrdered (ps : List PrePrepare) (st : PbftState) : Prop :=
  ∀ s, 0 < s → s ≤ st.sequence → ∃ d, Ordered ps s d

theorem FullyOrdered.step (h : FullyOrdered ps st) (ht : Transition st now sec out)
    (hroom : st.HasRoom sec) (hissued : ∀ pp ∈ proposals out.sends, pp ∈ ps) :
    FullyOrdered ps out.state := by
  intro s hpos hle
  cases ht with
  | propose request _ =>
      have hlast : (st.proposed request).sequence = st.sequence + 1 := by
        simp [PbftState.proposed_eq]
      rw [Outcome.proceed_state, hlast] at hle
      by_cases hs : s = st.sequence + 1
      · subst hs
        exact ⟨_, _, hissued _ (mem_proposals.mpr List.mem_cons_self), rfl, rfl⟩
      · exact h s hpos (by grind)
  | refuse request _ _ hhigh => exact absurd hroom.2 (UInt64.not_le.mpr hhigh)
  | accept pp _ => exact h s hpos (by simpa [PbftState.record_eq] using hle)
  | _ => exact h s hpos hle

theorem PbftState.Normal.ordered_of_request (h : st.Normal cluster ps) {request : Request}
    (hroom : st.HasRoom (.handleRequest request))
    (hissued : ∀ pp ∈ proposals (st.handleRequest request).sends, pp ∈ ps) :
    ∃ s, Ordered ps s request.digest := by
  rcases (handleRequest_ok hroom.1 hroom.2).2 with hexecuted | hproposed
  · exact h.executed _ hexecuted
  · rw [hproposed] at hissued
    exact ⟨_, _, hissued _ (mem_proposals.mpr List.mem_cons_self), rfl, rfl⟩

end

/-- A replica in the normal case, after the actions. -/
structure Replica.Normal (cluster : Cluster) (ps : List PrePrepare) (as : List Action)
    (r : Replica) : Prop where
  state : r.state.Normal cluster ps
  sends : ∀ send ∈ r.issued, send.Normal ps
  tasks : ∀ task ∈ r.tasks, ∀ next, task.next = some next → next.Normal ps
  results : ∀ result ∈ r.allResults, result = .ok
  committing : Committing r.state r.issued
  numbered : FullyOrdered ps r.state
  ordered : ∀ a ∈ as, ∀ request, a.request? = some request → ∃ s, Ordered ps s request.digest
  held : ∀ a ∈ as, ∀ m, a.message? = some m → r.state.Holds m

namespace Replica

variable {cluster : Cluster} {ps ps' : List PrePrepare} {as : List Action} {r r' : Replica}
  {a : Action} {id : NodeId}

theorem normal_init (cluster : Cluster) (id : NodeId) :
    (cluster.init id).Normal cluster [] [] where
  state := {
    view := rfl
    low := rfl
    high := rfl
    views := fun _ _ h => absurd h (by simp [Cluster.init, Cluster.initState, new, PbftState.new])
    logged := logged_new _ _ _ _ _ _
    executed := fun _ h => absurd h
      (by simp [Cluster.init, Cluster.initState, new, PbftState.new]) }
  sends := fun _ h => absurd h (by simp [Cluster.init, new])
  tasks := fun _ h => absurd h (by simp [Cluster.init, new])
  results := fun _ h => absurd h (by simp [Cluster.init, new, allResults])
  committing := fun _ _ h => absurd h
    (by simp [Cluster.init, Cluster.initState, new, PbftState.new])
  numbered := fun s hpos hle => absurd hpos (UInt64.not_lt.mpr hle)
  ordered := fun _ h => absurd h (by simp)
  held := fun _ h => absurd h (by simp)

theorem Normal.mono (h : r.Normal cluster ps as) (hsub : ps ⊆ ps') : r.Normal cluster ps' as where
  state := h.state.mono hsub
  sends := fun send hsend => (h.sends send hsend).mono hsub
  tasks := fun task htask next hnext => (h.tasks task htask next hnext).mono hsub
  results := h.results
  committing := h.committing
  numbered := fun s hpos hle => (h.numbered s hpos hle).imp fun _ hd => hd.mono hsub
  ordered := fun a ha request hrequest =>
    (h.ordered a ha request hrequest).imp fun _ hs => hs.mono hsub
  held := h.held

omit [Crypto] in
/-- A message with a place in the log is delivered to the section that puts it there. -/
theorem sectionOf_message {m : ConsensusMessage} (hm : m.Normal ps) (r : Replica) (now : Instant) :
    ∃ sec, r.sectionOf (.call (.processMessage m) now) = some sec ∧ sec.message? = some m ∧
      sec.Normal ps := by
  cases m with
  | prePrepare pp => exact ⟨.handlePrePrepare pp, rfl, rfl, hm⟩
  | prepare p => exact ⟨.handlePrepare p, rfl, rfl, hm⟩
  | commit c => exact ⟨.handleCommit c, rfl, rfl, hm⟩
  | _ => exact hm.elim

/-- What an action has to be for the normal case to go on. -/
structure Proceeds (ps : List PrePrepare) (r : Replica) (a : Action) : Prop where
  sec : ∀ sec, r.sectionOf a = some sec → sec.Normal ps ∧ r.state.HasRoom sec
  message : ∀ m, a.message? = some m → m.Normal ps ∧ m.Verifies

/-- **An action of the normal case leaves a replica in the normal case.** -/
theorem Normal.act (h : r.Normal cluster ps as) (hhosts : cluster.Hosts id r)
    (hinterval : cluster.checkpointInterval.toNat * 2 < 2 ^ 64) (hordering : Ordering cluster ps)
    (hact : r.act a = some r') (hproceeds : r.Proceeds ps a)
    (hissued : ∀ pp ∈ proposals r'.issued, pp ∈ ps) : r'.Normal cluster ps (as ++ [a]) := by
  have hwf := hhosts.sound.wellFormed
  have hrun : ∀ sec, r.sectionOf a = some sec → (sec.run r.state a.now).result = .ok ∧
      ∀ m, sec.message? = some m → (sec.run r.state a.now).state.Holds m := by
    intro sec hsec
    obtain ⟨hnormal, hroom⟩ := hproceeds.sec sec hsec
    refine h.state.run_ok hwf hhosts.replicas hhosts.config hinterval hordering hnormal hroom ?_
    intro m hm
    exact (hproceeds.message m (hhosts.sound.cascading.message_of_sectionOf hsec hm)).2
  have hproposals : ∀ sec, r.sectionOf a = some sec →
      ∀ pp ∈ proposals (sec.run r.state a.now).sends, pp ∈ ps := by
    intro sec hsec pp hpp
    rw [(act_of_sectionOf hact hsec).2, proposals_append] at hissued
    exact hissued pp (List.mem_append_right _ hpp)
  refine {
    state := ?_
    sends := ?_
    tasks := ?_
    results := ?_
    committing := keep hact h.committing fun _ ht => h.committing.step ht
    ordered := ?_
    numbered := ?_
    held := ?_ }
  · rcases act_cases hact with ⟨-, hstate, -⟩ | ⟨sec, hsec, hstate, -⟩
    · exact hstate ▸ h.state
    · rw [hstate]
      exact h.state.step hwf hordering (run_transition r.state a.now sec)
        (hproceeds.sec sec hsec).1 (hproposals sec hsec)
  · rcases act_cases hact with ⟨-, -, hsame⟩ | ⟨sec, hsec, -, hadded⟩
    · exact hsame ▸ h.sends
    · obtain ⟨hnormal, hroom⟩ := hproceeds.sec sec hsec
      intro send hsend
      rw [hadded] at hsend
      rcases List.mem_append.mp hsend with hold | hnew
      · exact h.sends send hold
      · exact (run_transition r.state a.now sec).normal_sends h.state hwf hhosts.config hordering
          hnormal hroom (hproposals sec hsec) send hnew
  · intro task htask next hnext
    rcases next_act hact htask hnext with ⟨task', htask', hnext'⟩ | ⟨sec, hsec, hnext'⟩
    · exact h.tasks task' htask' next hnext'
    · exact (run_transition r.state a.now sec).normal_next (hproceeds.sec sec hsec).1
        (hproposals sec hsec) hnext'
  · intro result hresult
    rcases allResults_act hact hresult with hold | hok | ⟨sec, hsec, rfl⟩
    · exact h.results result hold
    · exact hok
    · exact (hrun sec hsec).1
  · rcases act_cases hact with ⟨-, hstate, -⟩ | ⟨sec, hsec, hstate, -⟩
    · exact hstate ▸ h.numbered
    · rw [hstate]
      exact h.numbered.step (run_transition r.state a.now sec) (hproceeds.sec sec hsec).2
        (hproposals sec hsec)
  · intro b hb request hrequest
    rcases List.mem_append.mp hb with hold | hlast
    · exact h.ordered b hold request hrequest
    obtain rfl := List.mem_singleton.mp hlast
    have hsec : r.sectionOf b = some (.handleRequest request) := by
      cases b with
      | call call now => exact Call.entry_eq_handleRequest.mpr hrequest
      | resume index now => cases hrequest
    exact h.state.ordered_of_request (hproceeds.sec _ hsec).2 (hproposals _ hsec)
  · intro b hb m hm
    rcases List.mem_append.mp hb with hold | hlast
    · have hgrows : Grows r.state r'.state :=
        grows_act hact fun _ hsec => (hproceeds.sec _ hsec).1
      exact (h.held b hold m hm).mono hgrows
    obtain rfl := List.mem_singleton.mp hlast
    obtain ⟨now, rfl⟩ := Action.call_of_message? hm
    obtain ⟨sec, hsec, hmessage, -⟩ := sectionOf_message (hproceeds.message m hm).1 r now
    rw [(act_of_sectionOf hact hsec).1]
    exact (hrun sec hsec).2 m hmessage

end Replica

/-! ### All of them -/

omit [Crypto] in
/-- Requests are passed to the primary, and nobody starts a view change. -/
def Event.Plain (primary : NodeId) (e : Event) : Prop :=
  match e.action with
  | .call (.handleRequest _) _ => e.node = primary
  | .call (.processMessage _) _ => True
  | .call _ _ => False
  | .resume _ _ => True

omit [Crypto] in
instance (primary : NodeId) (e : Event) : Decidable (e.Plain primary) := by
  unfold Event.Plain
  split <;> infer_instance

/-- The normal case: the live replicas are honest, and the others silent. -/
def NormalRules (cluster : Cluster) (live : Finset NodeId) (net : Net) (e : Event) : Prop :=
  HonestRules live net e ∧ e.Plain (cluster.replicas.primary 0)

instance (cluster : Cluster) (live : Finset NodeId) (net : Net) (e : Event) :
    Decidable (NormalRules cluster live net e) :=
  inferInstanceAs (Decidable (HonestRules live net e ∧ e.Plain (cluster.replicas.primary 0)))

theorem Cluster.Hosts.verifies [LawfulCrypto] {cluster : Cluster} {id : NodeId} {r : Replica}
    (h : cluster.Hosts id r) (hmember : id ∈ cluster.members) {m : ConsensusMessage}
    (hsent : Send.broadcast m ∈ r.issued) : m.Verifies := by
  intro claim hclaim
  obtain ⟨hsigner, hsignature⟩ := h.sound.signs.broadcast m hsent claim hclaim
  have hkey := cluster.publicKey id (List.mem_toFinset.mp hmember)
  rw [hsigner, hsignature, h.nodeId, PbftState.sign, h.keypair]
  have hown := verifyNodeSignature_own (cluster.seed id) (asBytes claim.data)
  rw [hkey] at hown
  exact hown

section

variable {cluster : Cluster} {live : Finset NodeId} {events : List Event} {net : Net}

theorem honest_of_normal (h : Run (Net.Step (NormalRules cluster live)) cluster.init events net) :
    Run (Net.Step (HonestRules live)) cluster.init events net :=
  h.mono fun hstep => ⟨hstep.1.1, hstep.2⟩

/-- The primary has ordered what it was passed, in view 0 and below the first checkpoint. -/
theorem ordering_of_run (h : Run (Net.Step (NormalRules cluster live)) cluster.init events net)
    (hcount : Replica.requests (actionsAt (cluster.replicas.primary 0) events)
      < cluster.checkpointInterval.toNat) :
    Ordering cluster (proposals (net (cluster.replicas.primary 0)).issued) := by
  have hbound := cluster.checkpointInterval.toNat_lt
  have hhosts := Cluster.hosts_of_run h (cluster.replicas.primary 0)
  have hfirst := firstPrimary_of_run (honest_of_normal h) (cluster.replicas.primary 0)
  have hslots := slots_of_requests h (Finset.mem_singleton_self (cluster.replicas.primary 0))
    (fun hhosts hrule => hrule.1.genuine hhosts) (by omega)
  have hsequence := Replica.sequence_le_requests
    (Net.run_at h (cluster.replicas.primary 0) (fun _ _ => True) fun _ _ => trivial)
    (cluster.hosts_init _).sound rfl (by omega)
  refine {
    toNumbering := hfirst.numbering hslots
    view := fun pp hpp => (hfirst.proposal pp hpp).1
    primary := ?_
    digest := fun pp hpp => (hfirst.proposal pp hpp).2.1
    below := ?_ }
  · intro pp hpp
    obtain ⟨hsigner, -⟩ := hhosts.sound.signs.broadcast _ (mem_proposals.mp hpp) _ rfl
    exact hsigner.trans hhosts.nodeId
  · intro pp hpp
    have hle := UInt64.le_iff_toNat_le.mp (hslots.proposed pp hpp).2
    omega

theorem NormalRules.proceeds [LawfulCrypto] {ps : List PrePrepare} {as : NodeId → List Action}
    {e : Event} (h : NormalRules cluster live net e) (hlive : live ⊆ cluster.members)
    (hinterval : cluster.checkpointInterval.toNat * 2 < 2 ^ 64)
    (hhosts : ∀ id, cluster.Hosts id (net id)) (hnormal : ∀ id, (net id).Normal cluster ps (as id))
    (hcount : ∀ request now, e.action = .call (.handleRequest request) now →
      (net e.node).state.sequence.toNat + 1 < cluster.checkpointInterval.toNat) :
    (net e.node).Proceeds ps e.action := by
  have hmessage : ∀ m, e.action.message? = some m → m.Normal ps ∧ m.Verifies := by
    intro m hm
    obtain ⟨sender, hsender, ⟨-, hsent⟩ | hsent⟩ := h.1.2 m hm
    · have hissued := (hhosts sender).sound.accounted.outgoing hsent
      exact ⟨(hnormal sender).sends _ hissued, (hhosts sender).verifies (hlive hsender) hissued⟩
    · exact ((hnormal sender).sends _ ((hhosts sender).sound.accounted.outgoing hsent)).elim
  refine ⟨fun sec hsec => ?_, hmessage⟩
  obtain ⟨node, action⟩ := e
  cases action with
  | resume index now =>
      obtain ⟨task, htask, hnext⟩ := Replica.exists_task_of_resume hsec
      have hlater := (hhosts node).sound.cascading task htask sec hnext
      refine ⟨(hnormal node).tasks task htask sec hnext, ?_⟩
      cases sec with
      | handleRequest request => exact Bool.noConfusion hlater
      | _ => trivial
  | call call now =>
      cases call with
      | processMessage m =>
          have hm := (hmessage m rfl).1
          obtain ⟨sec', hsec', hof, hnormal'⟩ := Replica.sectionOf_message hm (net node) now
          obtain rfl := Option.some.inj (hsec.symm.trans hsec')
          refine ⟨hnormal', ?_⟩
          cases sec with
          | handleRequest request => cases hof
          | _ => trivial
      | handleRequest request =>
          obtain rfl := Option.some.inj hsec
          have hnode : node = cluster.replicas.primary 0 := h.2
          refine ⟨trivial, ?_, ?_⟩
          · rw [PbftState.primary, (hnormal node).state.view, (hhosts node).replicas,
              (hhosts node).nodeId]
            exact hnode.symm
          · have hlt := hcount request now rfl
            have htwo : (2 : UInt64).toNat = 2 := rfl
            have hone : (1 : UInt64).toNat = 1 := rfl
            rw [(hnormal node).state.high, UInt64.le_iff_toNat_le, UInt64.toNat_mul,
              UInt64.toNat_add, htwo, hone, Nat.mod_eq_of_lt hinterval]
            omega
      | _ => exact h.2.elim

/-- **In every run of the normal case all replicas are in it.** -/
theorem normal_of_run [LawfulCrypto] (hlive : live ⊆ cluster.members)
    (hinterval : cluster.checkpointInterval.toNat * 2 < 2 ^ 64)
    (h : Run (Net.Step (NormalRules cluster live)) cluster.init events net)
    (hcount : Replica.requests (actionsAt (cluster.replicas.primary 0) events)
      < cluster.checkpointInterval.toNat) :
    ∀ id, (net id).Normal cluster (proposals (net (cluster.replicas.primary 0)).issued)
      (actionsAt id events) := by
  revert hcount
  refine h.invariant (I := fun events net =>
    Replica.requests (actionsAt (cluster.replicas.primary 0) events)
      < cluster.checkpointInterval.toNat → ∀ id, (net id).Normal cluster
        (proposals (net (cluster.replicas.primary 0)).issued) (actionsAt id events)) ?_ ?_
  · exact fun _ id => Replica.normal_init cluster id
  · intro cs t e u hr hnormal hstep hcount id
    have hhosts := Cluster.hosts_of_run hr
    have hordering := ordering_of_run (Run.snoc hr hstep) hcount
    have hsub : proposals (t (cluster.replicas.primary 0)).issued
        ⊆ proposals (u (cluster.replicas.primary 0)).issued :=
      ((Net.issued_prefix_act hstep.2 _).filterMap Send.prePrepare?).subset
    have hsplit : Replica.requests (actionsAt (cluster.replicas.primary 0) (cs ++ [e])) =
        Replica.requests (actionsAt (cluster.replicas.primary 0) cs) +
          Replica.requests (actionsAt (cluster.replicas.primary 0) [e]) := by
      rw [actionsAt_append]
      exact List.countP_append
    have hnormal := fun id => (hnormal (by omega) id).mono hsub
    by_cases hid : id = e.node
    swap
    · have hnone : actionsAt id [e] = [] := by simp [actionsAt, Ne.symm hid]
      rw [actionsAt_append, hnone, List.append_nil, Net.act_of_ne hstep.2 hid]
      exact hnormal id
    subst hid
    have hone : actionsAt e.node [e] = [e.action] := by simp [actionsAt]
    rw [actionsAt_append, hone]
    refine (hnormal e.node).act (hhosts e.node) hinterval hordering (Net.act_self hstep.2) ?_ ?_
    · refine hstep.1.proceeds hlive hinterval hhosts hnormal fun request now heq => ?_
      have hnode : e.node = cluster.replicas.primary 0 := by
        have hplain := hstep.1.2
        rw [Event.Plain, heq] at hplain
        exact hplain
      have hcounted : Replica.requests [e.action] = 1 := by
        rw [heq]
        rfl
      have hbound := cluster.checkpointInterval.toNat_lt
      have hsequence := Replica.sequence_le_requests
        (Net.run_at hr e.node (fun _ _ => True) fun _ _ => trivial)
        (cluster.hosts_init _).sound rfl
      rw [← hnode, hone, hcounted] at hsplit
      rw [← hnode] at hcount
      have hle := hsequence (by omega)
      omega
    · intro pp hpp
      rw [proposer_of_run (honest_of_normal (Run.snoc hr hstep)) e.node pp hpp] at hpp
      exact hpp

end

/-! ### When nothing is left to happen -/

/-- All handlers have returned, and every broadcast has reached every other live replica. -/
structure Quiescent (live : Finset NodeId) (events : List Event) (net : Net) : Prop where
  returned : ∀ id ∈ live, (net id).tasks = []
  delivered : ∀ sender ∈ live, ∀ m, .broadcast (.consensus m) ∈ (net sender).outgoing →
    ∀ id ∈ live, id ≠ sender → ∃ e ∈ events, e.node = id ∧ e.action.message? = some m

/-- All requests have been sent, each once, and the instances up to `last` are committed. -/
structure Replica.Completed (events : List Event) (last : SequenceNumber) (r : Replica) :
    Prop where
  committed : ∀ s, 0 < s → s ≤ last → (r.state.instanceAt s).phase = .committed
  once : (r.committed.map Request.digest).Nodup
  sent : ∀ d, d ∈ r.committed.map Request.digest ↔
    ∃ request, Submitted events request ∧ request.digest = d

/-- What holds of a network in the normal case when nothing is left to happen. -/
structure Settles (cluster : Cluster) (live : Finset NodeId) (ps : List PrePrepare)
    (events : List Event) (net : Net) : Prop where
  quiescent : Quiescent live events net
  hosts : ∀ id, cluster.Hosts id (net id)
  normal : ∀ id, (net id).Normal cluster ps (actionsAt id events)
  tracked : ∀ id, (net id).state.Tracked
  attentive : ∀ id, (net id).Attentive
  quorum : cluster.config.quorum ≤ live.card

namespace Settles

variable {cluster : Cluster} {live : Finset NodeId} {ps : List PrePrepare} {events : List Event}
  {net : Net} {id sender : NodeId} {s : SequenceNumber}

/-- **What a live replica has issued every other one holds.** -/
theorem holds (h : Settles cluster live ps events net) (hsender : sender ∈ live) (hid : id ∈ live)
    (hne : id ≠ sender) {m : ConsensusMessage} (hissued : Send.broadcast m ∈ (net sender).issued) :
    (net id).state.Holds m := by
  have hsent := (h.hosts sender).sound.accounted.outgoing_of_idle
    (h.quiescent.returned sender hsender) hissued
  obtain ⟨e, he, rfl, hm⟩ := h.quiescent.delivered sender hsender m hsent id hid hne
  refine (h.normal e.node).held e.action ?_ m hm
  exact List.mem_map_of_mem (List.mem_filter.mpr ⟨he, by simp⟩)

theorem not_due (h : Settles cluster live ps events net) (hid : id ∈ live) (due : Section) :
    ¬ ((net id).state.instanceAt s).Due cluster.config.quorum s due := by
  intro hdue
  rw [← (h.hosts id).config] at hdue
  obtain ⟨task, htask, -⟩ := h.attentive id due (PbftState.due_of_instanceAt hdue)
  rw [h.quiescent.returned id hid] at htask
  exact absurd htask (by simp)

theorem prepares (h : Settles cluster live ps events net) (hid : id ∈ live)
    (hproposed : ∀ id ∈ live, ((net id).state.instanceAt s).prePrepare.isSome) :
    live ⊆ ((net id).state.instanceAt s).prepares.keys := by
  intro voter hvoter
  by_cases hself : id = voter
  · subst hself
    have htracked := (h.tracked id).instanceAt s
    have hown := htracked.ownPrepare (htracked.active (hproposed id hid))
    rw [(h.hosts id).nodeId] at hown
    exact hown
  · obtain ⟨pp, hpp⟩ := Option.isSome_iff_exists.mp (hproposed voter hvoter)
    obtain ⟨p, hp, -, rfl, -⟩ := ((h.hosts voter).sound.wellFormed.instanceAt s).voted pp hpp
    have hissued := mem_votes.mp hp
    obtain ⟨hsigner, -⟩ := (h.hosts voter).sound.signs.broadcast _ hissued _ rfl
    have hvoted := h.holds hvoter hid hself hissued
    have hname : p.replicaId = voter := hsigner.trans (h.hosts voter).nodeId
    rw [← hname]
    exact Finmap.mem_keys.mpr hvoted

theorem prepared (h : Settles cluster live ps events net) (hid : id ∈ live)
    (hproposed : ∀ id ∈ live, ((net id).state.instanceAt s).prePrepare.isSome) :
    ((net id).state.instanceAt s).isPrepared := by
  have hquorum := h.quorum.trans (Finset.card_le_card (h.prepares hid hproposed))
  cases hphase : ((net id).state.instanceAt s).phase with
  | idle => exact absurd hphase (((h.tracked id).instanceAt s).active (hproposed id hid))
  | prePrepared => exact absurd (.prepared hphase hquorum) (h.not_due hid (.tryAdvanceToPrepared s))
  | prepared => exact Or.inl hphase
  | committed => exact Or.inr hphase

theorem commits (h : Settles cluster live ps events net) (hid : id ∈ live)
    (hprepared : ∀ id ∈ live, ((net id).state.instanceAt s).isPrepared) :
    live ⊆ ((net id).state.instanceAt s).commits.keys := by
  intro voter hvoter
  by_cases hself : id = voter
  · subst hself
    have hown := ((h.tracked id).instanceAt s).ownCommit (hprepared id hid)
    rw [(h.hosts id).nodeId] at hown
    exact hown
  · obtain ⟨c, hc, rfl⟩ := (h.normal voter).committing.instanceAt (hprepared voter hvoter)
    have hissued := mem_commits.mp hc
    obtain ⟨hsigner, -⟩ := (h.hosts voter).sound.signs.broadcast _ hissued _ rfl
    have hvoted := h.holds hvoter hid hself hissued
    have hname : c.replicaId = voter := hsigner.trans (h.hosts voter).nodeId
    rw [← hname]
    exact Finmap.mem_keys.mpr hvoted

/-- **What all live replicas have the pre-prepare of, they have committed.** -/
theorem committed (h : Settles cluster live ps events net) (hid : id ∈ live)
    (hproposed : ∀ id ∈ live, ((net id).state.instanceAt s).prePrepare.isSome) :
    ((net id).state.instanceAt s).phase = .committed := by
  have hprepared : ∀ id ∈ live, ((net id).state.instanceAt s).isPrepared :=
    fun id hid => h.prepared hid hproposed
  have hquorum := h.quorum.trans (Finset.card_le_card (h.commits hid hprepared))
  rcases hprepared id hid with hphase | hphase
  · exact absurd (.committed hphase hquorum) (h.not_due hid (.tryAdvanceToCommitted s))
  · exact hphase

theorem proposed (h : Settles cluster live ps events net) (hordering : Ordering cluster ps)
    (hsender : sender ∈ live) (hid : id ∈ live) {pp : PrePrepare} (hpp : pp ∈ ps)
    (hissued : pp ∈ proposals (net sender).issued) :
    ((net id).state.instanceAt pp.sequence).prePrepare.isSome := by
  by_cases hself : id = sender
  · subst hself
    obtain ⟨p, hp, -, hs, -⟩ := (h.hosts id).sound.backed pp hissued
    rcases (h.hosts id).sound.covered p hp with hlow | ⟨inst, hlookup, hsome⟩
    · rw [(h.normal id).state.low, hs] at hlow
      exact absurd (hordering.pos pp hpp) (UInt64.not_lt.mpr hlow)
    · rw [← hs, PbftState.instanceAt_of_lookup hlookup]
      exact hsome
  · exact h.holds hsender hid hself (mem_proposals.mp hissued)

theorem executed (h : Settles cluster live ps events net) (hordering : Ordering cluster ps)
    {d : Hash} (hd : Ordered ps s d)
    (hcommitted : ((net id).state.instanceAt s).phase = .committed) :
    d ∈ (net id).state.executed := by
  have hwf := (h.hosts id).sound.wellFormed
  have hok := hwf.instanceAt s
  obtain ⟨pp, hpp⟩ := hok.exists_prePrepare (Or.inr hcommitted)
  have hsame := hordering.ordered_unique hd
    ((h.normal id).state.ordered_at hwf (hok.digest pp hpp))
  rw [hsame, ← hok.requestDigest pp hpp]
  exact hok.executed hcommitted pp.request (hok.request pp hpp)

end Settles

section

variable {cluster : Cluster} {live : Finset NodeId} {events : List Event} {net : Net}

theorem settles_of_run [LawfulCrypto] (hlive : live ⊆ cluster.members)
    (hquorum : cluster.config.quorum ≤ live.card)
    (hinterval : cluster.checkpointInterval.toNat * 2 < 2 ^ 64)
    (h : Run (Net.Step (NormalRules cluster live)) cluster.init events net)
    (hcount : Replica.requests (actionsAt (cluster.replicas.primary 0) events)
      < cluster.checkpointInterval.toNat) (hquiescent : Quiescent live events net) :
    Settles cluster live (proposals (net (cluster.replicas.primary 0)).issued) events net where
  quiescent := hquiescent
  hosts := Cluster.hosts_of_run h
  normal := normal_of_run hlive hinterval h hcount
  tracked := fun id => Replica.tracked_of_run
    (Net.run_at h id (fun _ _ => True) fun _ _ => trivial) (PbftState.tracked_new _ _ _ _ _)
  attentive := fun id => Replica.attentive_of_run
    (Net.run_at h id (fun _ _ => True) fun _ _ => trivial) (cluster.hosts_init id).sound
    (Replica.attentive_new _ _ _ _ _)
  quorum := hquorum

/--
**In the normal case every request gets through.**  No handler ever fails; and when
nothing is left to happen, every live replica has sent every request that was submitted,
each digest once, and has committed the instances of all numbers the primary has assigned.
-/
theorem completeness [LawfulCrypto] (hlive : live ⊆ cluster.members)
    (hprimary : cluster.replicas.primary 0 ∈ live)
    (hquorum : (PbftConfig.new cluster.replicas.ids.length).quorum ≤ live.card)
    (hinterval : cluster.checkpointInterval.toNat * 2 < 2 ^ 64)
    (h : Run (Net.Step (NormalRules cluster live)) cluster.init events net)
    (hcount : Replica.requests (actionsAt (cluster.replicas.primary 0) events)
      < cluster.checkpointInterval.toNat) :
    (∀ id, ∀ result ∈ (net id).results, result = .ok) ∧
      (Quiescent live events net → ∀ id ∈ live,
        (net id).Completed events (net (cluster.replicas.primary 0)).state.sequence) := by
  have hnormal := normal_of_run hlive hinterval h hcount
  refine ⟨fun id result hresult => ?_, fun hquiescent id hid => ?_⟩
  · exact (hnormal id).results result (List.mem_append_left _ hresult)
  have hordering := ordering_of_run h hcount
  have hsettles := settles_of_run hlive hquorum hinterval h hcount hquiescent
  have haccounted := (hsettles.hosts id).sound.accounted
  have hexecutes := executes_of_net_run h id
  have hcommitted : ∀ s d, Ordered (proposals (net (cluster.replicas.primary 0)).issued) s d →
      ((net id).state.instanceAt s).phase = .committed := by
    rintro s d ⟨pp, hpp, rfl, -⟩
    exact hsettles.committed hid fun id' hid' =>
      hsettles.proposed hordering hprimary hid' hpp hpp
  constructor
  · intro s hpos hle
    obtain ⟨d, hd⟩ := (hnormal (cluster.replicas.primary 0)).numbered s hpos hle
    exact hcommitted s d hd
  · have hnodup : ((P2pPbft.deliveries (net id).made).map Request.digest).Nodup :=
      haccounted.nodup hexecutes.nodup
    rw [Replica.deliveries_made] at hnodup
    exact hnodup
  · intro d
    rw [List.mem_map]
    constructor
    · rintro ⟨request, hrequest, rfl⟩
      have hissued := mem_deliveries.mpr (haccounted.committed hrequest)
      exact ⟨request, (sourced_of_run (honest_of_normal h) id).delivered request hissued, rfl⟩
    · rintro ⟨request, ⟨e, he, now, hsubmit⟩, rfl⟩
      have hrequest : e.action.request? = some request := by rw [hsubmit]; rfl
      obtain ⟨s, hs⟩ := (hnormal e.node).ordered e.action
        (List.mem_map_of_mem (List.mem_filter.mpr ⟨he, by simp⟩)) request hrequest
      have hexecuted := hsettles.executed hordering hs (hcommitted s _ hs)
      obtain ⟨request', hissued, hsame⟩ := (hexecutes.mem_executed _).mp hexecuted
      rcases haccounted.deliveries hissued with hsent | ⟨task, htask, -⟩
      · exact ⟨request', hsent, hsame⟩
      · rw [hquiescent.returned id hid] at htask
        exact absurd htask (by simp)

end

end

namespace Sample

/-- Three of four replicas take a request to its end, one message after another. -/
def withOneSilent : List Event :=
  let digest := (request 1).digest
  let proposal := ConsensusMessage.prePrepare ((signer 0).proposal 1 (request 1))
  let prepare := fun i => ConsensusMessage.prepare ((signer i).ownPrepare 0 1 digest)
  let commit := fun i =>
    ConsensusMessage.commit ((signer i).ownCommit (ConsensusInstance.new 1 0) 1 digest)
  submit 0 (request 1) :: List.replicate 4 (resume 0 0) ++
    [(1, proposal, 3), (2, proposal, 3), (1, prepare 0, 2), (1, prepare 2, 4), (2, prepare 0, 2),
      (2, prepare 1, 4), (0, prepare 1, 2), (0, prepare 2, 4), (0, commit 1, 2), (0, commit 2, 4),
      (1, commit 0, 2), (1, commit 2, 4), (2, commit 0, 2), (2, commit 1, 4)].flatMap
        fun (i, message, n) => deliver i message :: List.replicate n (resume i 0)

/-- The three of them. -/
def firstThree : Finset NodeId := {node 0, node 1, node 2}

end Sample

open Sample in
/-- One of four replicas is silent, and the other three send the request on. -/
theorem completeness_one_silent :
    ∃ net : Net, (∀ id, ∀ result ∈ (net id).results, result = .ok) ∧
      ∀ id ∈ firstThree, (net id).Completed withOneSilent 1 := by
  obtain ⟨net, hrun, hsequence, hreturned, hdelivered⟩ := Net.exists_run
    (NormalRules (cluster 3) firstThree) (cluster 3).init withOneSilent
    (fun net => (net ((cluster 3).replicas.primary 0)).state.sequence = 1 ∧
      (∀ id ∈ firstThree, (net id).tasks = []) ∧
      ∀ sender ∈ firstThree, ∀ message ∈ (net sender).outgoing, ∀ m, message.consensus? = some m →
        ∀ id ∈ firstThree, id ≠ sender →
          ∃ e ∈ withOneSilent, e.node = id ∧ e.action.message? = some m) (by decide +kernel)
  have hquiescent : Quiescent firstThree withOneSilent net :=
    ⟨hreturned, fun sender hsender m hm => hdelivered sender hsender _ hm m rfl⟩
  have hlive : firstThree ⊆ (cluster 3).members := by decide +kernel
  have hmain := completeness hlive (by decide +kernel) (by decide +kernel) (by decide +kernel) hrun
    (by decide +kernel)
  have hcompleted := hmain.2 hquiescent
  rw [hsequence] at hcompleted
  exact ⟨net, hmain.1, hcompleted⟩

end P2pPbft
