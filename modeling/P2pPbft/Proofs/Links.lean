/-
Replicas that finish one message before they take the next.

Two things follow from that.  What such a replica has sent is the first part of what
it has issued, so whoever takes its messages off a stream takes them in the order in
which the handlers decided on them.  And since the main loop is the only one to call
the handlers, and calls neither `start_view_change` nor `check_timeout`, no view
change is ever started: the replicas stay in the first view, whoever its primary is.
-/
import P2pPbft.Links
import P2pPbft.Proofs.Silence
import P2pPbft.Proofs.NormalCase

namespace P2pPbft

/-! ### One handler at a time -/

namespace Replica

/-- What was sent is the first part of what was issued, and one handler still has the rest. -/
structure InTurn (r : Replica) : Prop where
  alone : r.tasks.length ≤ 1
  sent : ∃ front, r.issued = front ++ r.pending ∧
    r.outgoing = front.filterMap Send.outgoing? ∧ r.committed = deliveries front

theorem inTurn_new (st : PbftState) : (new st).InTurn where
  alone := Nat.zero_le _
  sent := ⟨[], rfl, rfl, rfl⟩

/-- A handler is started only when no other is in progress. -/
def TakesTurns (r : Replica) (a : Action) : Prop := ∀ call now, a = .call call now → r.tasks = []

theorem InTurn.tasks_eq {r : Replica} (h : r.InTurn) {before after : List Task} {task : Task}
    (htasks : r.tasks = before ++ task :: after) : before = [] ∧ after = [] := by
  have halone := h.alone
  rw [htasks, List.length_append, List.length_cons] at halone
  exact ⟨List.length_eq_zero_iff.mp (by omega), List.length_eq_zero_iff.mp (by omega)⟩

theorem InTurn.task_eq {r : Replica} (h : r.InTurn) {task task' : Task} (htask : task ∈ r.tasks)
    (htask' : task' ∈ r.tasks) : task = task' := by
  obtain ⟨before, after, htasks⟩ := List.append_of_mem htask
  obtain ⟨rfl, rfl⟩ := h.tasks_eq htasks
  rw [htasks] at htask'
  exact (List.mem_singleton.mp htask').symm

theorem pending_of_idle {r : Replica} (h : r.tasks = []) : r.pending = [] := by
  rw [pending, h, List.flatMap_nil]

variable [Crypto]

/-- **Taking turns, a replica sends what it has issued in order.** -/
theorem InTurn.act {r r' : Replica} {a : Action} (h : r.InTurn) (hact : r.act a = some r')
    (hturn : r.TakesTurns a) : r'.InTurn := by
  obtain ⟨front, hissued, houtgoing, hcommitted⟩ := h.sent
  cases step_of_act hact with
  | reply call now hentry => exact ⟨h.alone, front, hissued, houtgoing, hcommitted⟩
  | start call now sec hentry =>
      have hidle := hturn call now rfl
      rw [pending_of_idle hidle, List.append_nil] at hissued
      refine ⟨by simp [hidle], front, ?_, houtgoing, hcommitted⟩
      simp [pending, hidle, Outcome.task, hissued]
  | send before after now send sends next result htasks =>
      obtain ⟨rfl, rfl⟩ := h.tasks_eq htasks
      have hpending : r.pending = send :: sends := by simp [pending, htasks]
      rw [hpending] at hissued
      refine ⟨by simp, front ++ [send], ?_, ?_, ?_⟩
      · simp [pending, hissued]
      · cases send with
        | outgoing message => simp [emit, houtgoing, Send.outgoing?]
        | committed request => simp [emit, houtgoing, Send.outgoing?]
      · cases send with
        | outgoing message => simp [emit, hcommitted, deliveries, Send.committed?]
        | committed request => simp [emit, hcommitted, deliveries, Send.committed?]
  | go before after now sec result htasks =>
      obtain ⟨rfl, rfl⟩ := h.tasks_eq htasks
      have hpending : r.pending = [] := by simp [pending, htasks]
      rw [hpending, List.append_nil] at hissued
      refine ⟨by simp, front, ?_, houtgoing, hcommitted⟩
      simp [pending, Outcome.task, hissued]
  | finish before after now result htasks =>
      obtain ⟨rfl, rfl⟩ := h.tasks_eq htasks
      have hpending : r.pending = [] := by simp [pending, htasks]
      rw [hpending, List.append_nil] at hissued
      refine ⟨by simp, front, ?_, houtgoing, hcommitted⟩
      simp [pending, hissued]

end Replica

/-- The consensus message a send takes to the node, if it does. -/
def Send.to? (target : NodeId) (send : Send) : Option ConsensusMessage :=
  send.outgoing?.bind (OutgoingMessage.to? target)

/-- **A stream of its messages is a first part of what a replica has issued.** -/
theorem Replica.InTurn.sentTo_isPrefix {r : Replica} (h : r.InTurn) (target : NodeId) :
    r.sentTo target <+: r.issued.filterMap (Send.to? target) := by
  obtain ⟨front, hissued, houtgoing, -⟩ := h.sent
  have hsent : r.sentTo target = front.filterMap (Send.to? target) := by
    rw [sentTo, houtgoing, List.filterMap_filterMap]
    rfl
  rw [hsent, hissued, List.filterMap_append]
  exact List.prefix_append _ _

theorem Replica.InTurn.sentTo_of_idle {r : Replica} (h : r.InTurn) (hidle : r.tasks = [])
    (target : NodeId) : r.sentTo target = r.issued.filterMap (Send.to? target) := by
  obtain ⟨front, hissued, houtgoing, -⟩ := h.sent
  rw [pending_of_idle hidle, List.append_nil] at hissued
  rw [sentTo, houtgoing, hissued, List.filterMap_filterMap]
  rfl

theorem Replica.outgoing_prefix_act [Crypto] {r r' : Replica} {a : Action}
    (h : r.act a = some r') : r.outgoing <+: r'.outgoing := by
  cases step_of_act h with
  | send before after now send sends next result htasks =>
      cases send with
      | outgoing message => exact List.prefix_append _ _
      | committed request => exact List.prefix_refl _
  | _ => exact List.prefix_refl _

/-! ### Networks on links that keep their order -/

namespace Links

variable {links links' : Links} {live : Finset NodeId} {e : Event}

/-- The three things a main loop does. -/
inductive Does (links : Links) (e : Event) : Prop
  | submit (request : Request) (now : Instant) (hsource : e.source = none)
      (haction : e.event.action = .call (.handleRequest request) now)
      (hidle : (links.net e.event.node).tasks = [])
  | resume (now : Instant) (hsource : e.source = none) (haction : e.event.action = .resume 0 now)
  | deliver (source : NodeId) (message : ConsensusMessage) (now : Instant)
      (hsource : e.source = some source)
      (haction : e.event.action = .call (.processMessage message) now)
      (hne : source ≠ e.event.node) (hidle : (links.net e.event.node).tasks = [])
      (hupcoming : links.upcoming e.event.node source = some message)

theorem does_of_admits (h : links.Admits e) : links.Does e := by
  unfold Admits at h
  split at h
  · exact Does.submit _ _ ‹_› ‹_› h
  · subst h
    exact Does.resume _ ‹_› ‹_›
  · exact Does.deliver _ _ _ ‹_› ‹_› h.1 h.2.1 h.2.2
  · exact h.elim

theorem Does.takesTurns (h : links.Does e) :
    (links.net e.event.node).TakesTurns e.event.action := by
  intro call now hcall
  cases h with
  | submit _ _ _ _ hidle => exact hidle
  | resume now' _ haction => exact absurd (haction.symm.trans hcall) (by simp)
  | deliver _ _ _ _ _ _ hidle _ => exact hidle

theorem mem_sentTo_of_upcoming {node source : NodeId} {message : ConsensusMessage}
    (h : links.upcoming node source = some message) :
    message ∈ (links.net source).sentTo node :=
  List.mem_of_getElem? h

theorem mem_sentTo {r : Replica} {target : NodeId} {message : ConsensusMessage} :
    message ∈ r.sentTo target ↔ OutgoingMessage.broadcast (.consensus message) ∈ r.outgoing ∨
      OutgoingMessage.sendTo target (.consensus message) ∈ r.outgoing := by
  rw [Replica.sentTo, List.mem_filterMap]
  constructor
  · rintro ⟨out, hout, hto⟩
    unfold OutgoingMessage.to? at hto
    split at hto
    · obtain rfl := Option.some.inj hto
      exact Or.inl hout
    · split at hto
      · rename_i htarget
        obtain rfl := Option.some.inj hto
        exact Or.inr (htarget ▸ hout)
      · cases hto
    · cases hto
  · rintro (hout | hout)
    · exact ⟨_, hout, rfl⟩
    · exact ⟨_, hout, if_pos rfl⟩

variable [Crypto]

/-- What a step does: one replica acts, and if it takes a message that is counted. -/
structure Moves (live : Finset NodeId) (links : Links) (e : Event) (links' : Links) : Prop where
  node : e.event.node ∈ live
  source : ∀ source ∈ e.source, source ∈ live
  does : links.Does e
  net : links.net.act e.event = some links'.net
  taken : links'.taken = links.take e.event.node e.source

theorem Step.moves (h : Step live links e links') : Moves live links e links' := by
  obtain ⟨⟨hnode, hsource⟩, hact⟩ := h
  unfold act at hact
  split at hact
  · rename_i hadmits
    obtain ⟨net, hnet, rfl⟩ := Option.map_eq_some_iff.mp hact
    exact ⟨hnode, hsource, does_of_admits hadmits, hnet, rfl⟩
  · cases hact

/-- **A step on the links is one of the network**, among honest replicas. -/
theorem Moves.honest (h : Moves live links e links') :
    links.net.Step (HonestRules live) e.event links'.net := by
  refine ⟨⟨h.node, fun m hm => ?_⟩, h.net⟩
  cases h.does with
  | submit _ _ _ haction _ =>
      rw [haction] at hm
      cases hm
  | resume _ _ haction =>
      rw [haction] at hm
      cases hm
  | deliver source message now hsource haction hne _ hupcoming =>
      rw [haction] at hm
      obtain rfl := Option.some.inj hm
      refine ⟨source, h.source source hsource, ?_⟩
      rcases mem_sentTo.mp (mem_sentTo_of_upcoming hupcoming) with hsent | hsent
      · exact Or.inl ⟨hne, hsent⟩
      · exact Or.inr hsent

/-- **A run on the links is a run of the network**, so what holds of those holds here. -/
theorem net_run {links₀ : Links} {events : List Event} (h : Run (Step live) links₀ events links) :
    Run (Net.Step (HonestRules live)) links₀.net (events.map (·.event)) links.net :=
  h.map Links.net (·.event) fun hstep => hstep.moves.honest

/-- Every replica takes turns, and none has taken more of another than was sent. -/
structure Sound (links : Links) : Prop where
  inTurn : ∀ id, (links.net id).InTurn
  taken : ∀ node source, links.taken node source ≤ ((links.net source).sentTo node).length

theorem sound_init (cluster : Cluster) : (init cluster).Sound where
  inTurn := fun _ => Replica.inTurn_new _
  taken := fun _ _ => Nat.zero_le _

theorem Moves.sentTo_isPrefix (h : Moves live links e links') (node source : NodeId) :
    (links.net source).sentTo node <+: (links'.net source).sentTo node := by
  by_cases hid : source = e.event.node
  · subst hid
    exact (Replica.outgoing_prefix_act (Net.act_self h.net)).filterMap _
  · rw [Net.act_of_ne h.net hid]

theorem Moves.heard_of_taken (h : Moves live links e links') (hsound : links.Sound)
    {node source : NodeId} (htaken : links'.taken node source = links.taken node source) :
    links'.heard node source = links.heard node source := by
  obtain ⟨rest, hrest⟩ := h.sentTo_isPrefix node source
  rw [heard, htaken, ← hrest, List.take_append_of_le_length (hsound.taken node source)]
  rfl

theorem Moves.heard_same (h : Moves live links e links') (hsound : links.Sound)
    {node source : NodeId} (hother : node = e.event.node → e.source ≠ some source) :
    links'.heard node source = links.heard node source := by
  refine h.heard_of_taken hsound ?_
  rw [h.taken]
  cases hsource : e.source with
  | none => rfl
  | some source' =>
      simp only [take]
      by_cases hnode : node = e.event.node
      · subst hnode
        have hne : source ≠ source' := by
          rintro rfl
          exact hother rfl hsource
        rw [Function.update_self, Function.update_of_ne hne]
      · rw [Function.update_of_ne hnode]

/-- **A step takes the next message off the link it is about**, and its node handles it. -/
theorem Moves.heard_next (h : Moves live links e links') {source : NodeId}
    (hsource : e.source = some source) :
    ∃ message now, e.event.action = .call (.processMessage message) now ∧
      source ≠ e.event.node ∧ message ∈ (links.net source).sentTo e.event.node ∧
      links'.heard e.event.node source = links.heard e.event.node source ++ [message] := by
  obtain ⟨rest, hrest⟩ := h.sentTo_isPrefix e.event.node source
  cases h.does with
  | submit request now hnone haction hidle => exact absurd (hnone.symm.trans hsource) (by simp)
  | resume now hnone haction => exact absurd (hnone.symm.trans hsource) (by simp)
  | deliver source' message now hsource' haction hne hidle hupcoming =>
      obtain rfl := Option.some.inj (hsource.symm.trans hsource')
      refine ⟨message, now, haction, hne, mem_sentTo_of_upcoming hupcoming, ?_⟩
      have hcount : links'.taken e.event.node source = links.taken e.event.node source + 1 := by
        rw [h.taken, hsource]
        simp [take]
      obtain ⟨hlt, hget⟩ := List.getElem?_eq_some_iff.mp hupcoming
      rw [heard, hcount, ← hrest, List.take_append_of_le_length hlt, List.take_add_one,
        List.getElem?_eq_getElem hlt, hget]
      rfl

/-- A message that is handled was taken off a link. -/
theorem Moves.source_of_message (h : Moves live links e links') {message : ConsensusMessage}
    (hmessage : e.event.action.message? = some message) : ∃ source, e.source = some source := by
  cases h.does with
  | submit request now hsource haction hidle =>
      rw [haction] at hmessage
      cases hmessage
  | resume now hsource haction =>
      rw [haction] at hmessage
      cases hmessage
  | deliver source message now hsource haction hne hidle hupcoming => exact ⟨source, hsource⟩

theorem Sound.step (hsound : links.Sound) (h : Moves live links e links') : links'.Sound where
  inTurn := by
    intro id
    by_cases hid : id = e.event.node
    · subst hid
      exact (hsound.inTurn _).act (Net.act_self h.net) h.does.takesTurns
    · rw [Net.act_of_ne h.net hid]
      exact hsound.inTurn id
  taken := by
    intro node source
    have hgrow := (h.sentTo_isPrefix node source).length_le
    have hold := hsound.taken node source
    rw [h.taken]
    cases h.does with
    | submit _ _ hsource _ _ =>
        rw [hsource]
        exact hold.trans hgrow
    | resume _ hsource _ =>
        rw [hsource]
        exact hold.trans hgrow
    | deliver source' message now hsource haction hne hidle hupcoming =>
        rw [hsource]
        simp only [take]
        obtain ⟨hlt, -⟩ := List.getElem?_eq_some_iff.mp hupcoming
        by_cases hnode : node = e.event.node
        · subst hnode
          by_cases hsame : source = source'
          · subst hsame
            rw [Function.update_self, Function.update_self]
            omega
          · rw [Function.update_self, Function.update_of_ne hsame]
            omega
        · rw [Function.update_of_ne hnode]
          omega

theorem sound_of_run {cluster : Cluster} {events : List Event}
    (h : Run (Step live) (init cluster) events links) : links.Sound :=
  h.state_invariant (sound_init cluster) fun hsound hstep => hsound.step hstep.moves

theorem exists_run (live : Finset NodeId) (links₀ : Links) (events : List Event) (p : Links → Prop)
    [DecidablePred p]
    (h : (execute (Links.next live) links₀ events).any (fun links => decide (p links)) = true) :
    ∃ links, Run (Step live) links₀ events links ∧ p links := by
  obtain ⟨links, hrun, hp⟩ := exists_run_of_execute _ _ _ p h
  exact ⟨links, hrun.mono fun hstep => next_eq_some.mp hstep, hp⟩

end Links

end P2pPbft
