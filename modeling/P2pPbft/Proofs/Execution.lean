/-
A request is executed at most once.

A digest enters the set of executed ones in the section that decides to hand its
request over, and only if it was not there yet.  The send comes later, when the lock
has been dropped, so between the two the request is pending in one handler.
-/
import P2pPbft.Proofs.Proposals

namespace P2pPbft

section

variable [Crypto]

/-- The executed digests are those of the requests handed over, each handed over once. -/
structure Executes (st : PbftState) (issued : List Send) : Prop where
  nodup : ((deliveries issued).map Request.digest).Nodup
  mem_executed : ∀ d, d ∈ st.executed ↔ ∃ request ∈ deliveries issued, request.digest = d

/-- **Every section keeps the two in step.** -/
theorem Executes.step {st : PbftState} {issued : List Send} {now : Instant} {sec : Section}
    {out : Outcome} (hexec : Executes st issued) (h : Transition st now sec out) :
    Executes out.state (issued ++ out.sends) := by
  rcases h.deliveries with ⟨hnone, hsame⟩ | ⟨s, inst, request, -, -, -, hfresh, hnew, hsends⟩
  · refine ⟨?_, ?_⟩
    · rw [deliveries_append, hnone, List.append_nil]
      exact hexec.nodup
    · rw [deliveries_append, hnone, List.append_nil, hsame]
      exact hexec.mem_executed
  · have hone : deliveries out.sends = [request] := by rw [hsends]; rfl
    refine ⟨?_, fun d => ?_⟩
    · rw [deliveries_append, hone]
      refine nodup_map_concat hexec.nodup fun request' h' heq => hfresh ?_
      exact (hexec.mem_executed _).mpr ⟨request', h', heq⟩
    · rw [deliveries_append, hone, hnew, Finset.mem_insert, hexec.mem_executed d]
      constructor
      · rintro (rfl | ⟨request', h', heq⟩)
        · exact ⟨request, by simp, rfl⟩
        · exact ⟨request', by simp [h'], heq⟩
      · rintro ⟨request', h', heq⟩
        rcases List.mem_append.mp h' with hold | hlast
        · exact Or.inr ⟨request', hold, heq⟩
        · obtain rfl := List.mem_singleton.mp hlast
          exact Or.inl heq.symm

theorem executes_new (nodeId : NodeId) (keypair : KeyPair) (replicas : Replicas)
    (config : PbftConfig) (now : Instant) :
    Executes (PbftState.new nodeId keypair replicas config now) [] where
  nodup := List.nodup_nil
  mem_executed := fun d => by simp [PbftState.new, deliveries]

namespace Replica

variable {r : Replica} {as : List Action}

theorem executes_of_run {rules : Replica → Action → Prop} {r₀ : Replica}
    (h : Run (Next rules) r₀ as r) (h₀ : Executes r₀.state r₀.issued) :
    Executes r.state r.issued :=
  h.state_invariant (I := fun r => Executes r.state r.issued) h₀
    fun hexec hstep => keep hstep.2 hexec fun _ ht => hexec.step ht

/-- The place, among the handlers in progress, of the one that acts. -/
def handler (r : Replica) : Action → Nat
  | .call _ _ => r.tasks.length
  | .resume index _ => index

theorem task_of_act {r r' : Replica} {a : Action} {sec : Section} (h : r.act a = some r')
    (hsec : r.sectionOf a = some sec) :
    r'.tasks[r.handler a]? = some (sec.run r.state a.now).task := by
  cases step_of_act h with
  | reply call now hentry => exact absurd (hentry.symm.trans hsec) (by simp)
  | start call now sec' hentry =>
      obtain rfl := Option.some.inj (hentry.symm.trans hsec)
      simp [handler, Action.now]
  | send before after now send sends next result htasks =>
      exact absurd ((sectionOf_resume_send htasks).symm.trans hsec) (by simp)
  | go before after now sec' result htasks =>
      obtain rfl := Option.some.inj ((sectionOf_resume htasks).symm.trans hsec)
      simp [handler, Action.now]
  | finish before after now result htasks =>
      exact absurd ((sectionOf_resume htasks).symm.trans hsec) (by simp)

omit [Crypto] in
/-- A request handed over was sent, or is pending in a handler. -/
theorem Accounted.deliveries {request : Request} (h : r.Accounted)
    (hrequest : request ∈ deliveries r.issued) :
    request ∈ r.committed ∨ ∃ task ∈ r.tasks, Send.committed request ∈ task.sends := by
  rcases List.mem_append.mp (h.mem_iff.mp (mem_deliveries.mp hrequest)) with hmade | hpending
  · rcases List.mem_append.mp hmade with hout | hcommitted
    · obtain ⟨message, -, heq⟩ := List.mem_map.mp hout
      exact Send.noConfusion heq
    · obtain ⟨request', hmem, heq⟩ := List.mem_map.mp hcommitted
      obtain rfl := Send.committed.inj heq
      exact Or.inl hmem
  · obtain ⟨task, htask, hmem⟩ := List.mem_flatMap.mp hpending
    exact Or.inr ⟨task, htask, hmem⟩

omit [Crypto] in
theorem deliveries_made (r : Replica) : P2pPbft.deliveries r.made = r.committed := by
  have hout : ∀ messages : List OutgoingMessage,
      P2pPbft.deliveries (messages.map Send.outgoing) = [] := by
    intro messages
    induction messages with
    | nil => rfl
    | cons _ rest ih => exact ih
  have hcommitted : ∀ requests : List Request,
      P2pPbft.deliveries (requests.map Send.committed) = requests := by
    intro requests
    induction requests with
    | nil => rfl
    | cons request rest ih => exact congrArg (request :: ·) ih
  rw [made, deliveries_append, hout, hcommitted, List.nil_append]

/--
**A replica executes a request at most once**, whatever it is sent and however its
handlers interleave.  The digests it executed are those of the requests it handed
over or is about to, and it is the handler that adds a digest that is about to.
-/
theorem executes_once {nodeId : NodeId} {keypair : KeyPair} {replicas : Replicas}
    {config : PbftConfig} {now : Instant}
    (h : Run (Next fun _ _ => True)
      (new (PbftState.new nodeId keypair replicas config now)) as r) :
    (r.committed.map Request.digest).Nodup ∧
      (∀ request ∈ r.committed, request.digest ∈ r.state.executed) ∧
      (∀ d ∈ r.state.executed,
        (∃ request ∈ r.committed, request.digest = d) ∨
          ∃ task ∈ r.tasks, ∃ request, Send.committed request ∈ task.sends ∧ request.digest = d) ∧
      ∀ a r', r.act a = some r' → ∀ d ∈ r'.state.executed, d ∉ r.state.executed →
        ∃ task request, r'.tasks[r.handler a]? = some task ∧
          task.sends = [.committed request] ∧ request.digest = d := by
  have hsound : r.Sound := sound_of_run h (sound_new nodeId keypair replicas config now)
  have hexec : Executes r.state r.issued := executes_of_run h (executes_new _ _ _ _ _)
  refine ⟨?_, ?_, ?_, ?_⟩
  · rw [← deliveries_made r]
    exact hsound.accounted.nodup hexec.nodup
  · intro request hrequest
    refine (hexec.mem_executed _).mpr ⟨request, ?_, rfl⟩
    exact mem_deliveries.mpr (hsound.accounted.committed hrequest)
  · intro d hd
    obtain ⟨request, hrequest, rfl⟩ := (hexec.mem_executed d).mp hd
    rcases hsound.accounted.deliveries hrequest with hsent | ⟨task, htask, hpending⟩
    · exact Or.inl ⟨request, hsent, rfl⟩
    · exact Or.inr ⟨task, htask, request, hpending, rfl⟩
  · intro a r' hact d hd hnew
    rcases act_cases hact with ⟨-, hstate, -⟩ | ⟨sec, hsec, hstate, -⟩
    · rw [hstate] at hd
      exact absurd hd hnew
    · have ht := run_transition r.state a.now sec
      rw [hstate] at hd
      rcases ht.deliveries with ⟨-, hsame⟩ | ⟨s, inst, request, -, -, -, -, hinsert, hsends⟩
      · rw [hsame] at hd
        exact absurd hd hnew
      · rw [hinsert] at hd
        rcases Finset.mem_insert.mp hd with rfl | hold
        · exact ⟨_, request, task_of_act hact hsec, hsends, rfl⟩
        · exact absurd hold hnew

end Replica

end

open Sample in
/-- A replica on its own, handling one request to its end and another one in part. -/
theorem Replica.executes_once_alone :
    ∃ r : Replica, r.committed = [request 1] ∧ r.state.executed.card = 2 ∧
      (r.committed.map Request.digest).Nodup ∧
      ∀ d ∈ r.state.executed, (∃ request ∈ r.committed, request.digest = d) ∨
        ∃ task ∈ r.tasks, ∃ request, Send.committed request ∈ task.sends ∧ request.digest = d := by
  obtain ⟨r, hrun, hcommitted, hcard⟩ := exists_run (fun _ _ => True)
    (new ((cluster 0).initState (node 0)))
    (.call (.handleRequest (request 1)) 0 :: List.replicate 8 (.resume 0 0) ++
      .call (.handleRequest (request 2)) 0 :: List.replicate 5 (.resume 0 0))
    (fun r => r.committed = [request 1] ∧ r.state.executed.card = 2) (by decide +kernel)
  obtain ⟨hnodup, -, hsent, -⟩ := executes_once hrun
  exact ⟨r, hcommitted, hcard, hnodup, hsent⟩

end P2pPbft
