/-
Which ids crash a node.

An id from a stranger is a text that nobody looks at before a log line cuts it.  There are
four ways to a log line: the handshake of an incoming connection, the ack of one that
`Network` has dialed, the peers such an ack names, and the message loop, which sees the ids
of the connections `NetworkHandle` has dialed as well.  The log lines of a peer that leaves
come after one that has cut the same id.

A peer is stored before it is logged.  So the panic that ends the task of an incoming
connection leaves a peer that nobody reads from, and that nobody will remove.
-/
import P2pPbft.Sessions
import P2pPbft.Sample
import P2pPbft.Proofs.Replica

namespace P2pPbft

/-- The session has stored the id, and its reader task is there to remove it. -/
def Session.Owns (session : Session) (id : NodeId) : Prop :=
  session.stage = .reading id ∨ session.stage = .ended id

instance (session : Session) (id : NodeId) : Decidable (session.Owns id) :=
  inferInstanceAs (Decidable (_ ∨ _))

/-- The id, if the session's log lines cut it. -/
def Session.cut? (session : Session) (id : NodeId) : Option NodeId :=
  if session.origin.cutsId = true then some id else none

namespace Host

/-- The id that the event is the first to cut, if there is one. -/
def cut? (host : Host) : Event → Option NodeId
  | .receive i message => host.sessions[i]?.bind fun session =>
    match session.stage, session.origin, message with
    | .greeting, .dialed _, .handshakeAck peer _ => session.cut? peer
    | _, _, _ => none
  | .ackSent i => host.sessions[i]?.bind fun session =>
    match session.stage with
    | .greeted peer => session.cut? peer
    | _ => none
  | .discover i _ => host.sessions[i]?.bind fun session =>
    match session.toDiscover with
    | (peer, _) :: _ => if peer = host.nodeId ∨ peer ∈ host.peers.keys then none else some peer
    | [] => none
  | .processMessage _ =>
    match host.inbox with
    | (peer, .consensus _) :: _ => some peer
    | _ => none
  | _ => none

/-- The id that the event is the first to cut has sixteen bytes to cut off. -/
def CutsWhole (host : Host) (event : Event) : Prop := ∀ id ∈ host.cut? event, Shortens id

instance (host : Host) (event : Event) : Decidable (host.CutsWhole event) :=
  inferInstanceAs (Decidable (∀ id ∈ host.cut? event, Shortens id))

/-- The ids of the peers stored by sessions that cut them have been cut. -/
def HasCut (host : Host) : Prop :=
  ∀ session ∈ host.sessions, ∀ id, session.Owns id → session.origin.cutsId = true → Shortens id

/-- Every stored peer has a session that will remove it. -/
def Owned (host : Host) : Prop :=
  ∀ id ∈ host.peers.keys, ∃ session ∈ host.sessions, session.Owns id

/-! ### Sessions that are written -/

variable {host : Host} {i : Nat} {session session' : Session} {id : NodeId}

theorem hasCut_setSession (h : host.HasCut)
    (hnew : ∀ id, session'.Owns id → session'.origin.cutsId = true → Shortens id) :
    (host.setSession i session').HasCut := by
  intro other hother id howns hcuts
  rcases List.mem_or_eq_of_mem_set hother with hold | rfl
  · exact h other hold id howns hcuts
  · exact hnew id howns hcuts

theorem owned_setSession (hsession : host.sessions[i]? = some session)
    (h : ∃ other ∈ host.sessions, other.Owns id) (hkeep : session.Owns id → session'.Owns id) :
    ∃ other ∈ (host.setSession i session').sessions, other.Owns id := by
  obtain ⟨other, hother, howns⟩ := h
  obtain ⟨j, hj⟩ := List.mem_iff_getElem?.mp hother
  by_cases hij : i = j
  · subst hij
    obtain rfl := Option.some.inj (hsession.symm.trans hj)
    exact ⟨session', List.mem_set (List.getElem?_eq_some_iff.mp hsession).1 _, hkeep howns⟩
  · refine ⟨other, List.mem_iff_getElem?.mpr ⟨j, ?_⟩, howns⟩
    show (host.sessions.set i session')[j]? = some other
    rw [List.getElem?_set_ne hij, hj]

theorem hasCut_addSession (h : host.HasCut) (origin : Origin) (address : String) :
    (host.addSession origin address).HasCut := by
  intro session hsession id howns hcuts
  rcases List.mem_append.mp hsession with hold | hlast
  · exact h session hold id howns hcuts
  · obtain rfl := List.mem_singleton.mp hlast
    exact absurd howns (by simp [Session.Owns])

theorem owned_addSession (h : host.Owned) (origin : Origin) (address : String) :
    (host.addSession origin address).Owned := by
  intro id hid
  obtain ⟨session, hsession, howns⟩ := h id hid
  exact ⟨session, List.mem_append_left _ hsession, howns⟩

variable [Crypto]

/-! ### The steps -/

/-- What an event does to a host. -/
inductive Step (host : Host) : Event → Host → Prop
  | accept (address : String) : Step host (.accept address) (host.addSession .incoming address)
  | connectToPeer (address : String) :
      Step host (.connectToPeer address) (host.addSession (.dialed .network) address)
  | greet (i : Nat) (session : Session) (peer : NodeId) (port : UInt16)
      (hsession : host.sessions[i]? = some session) (hstage : session.stage = .greeting)
      (horigin : session.origin = .incoming) :
      Step host (.receive i (.handshake peer port))
        (host.setSession i
          { session with address := peerAddress session.address port, stage := .greeted peer })
  | acked (i : Nat) (session : Session) (caller : Caller) (peer : NodeId)
      (knownPeers : List (NodeId × String)) (hsession : host.sessions[i]? = some session)
      (hstage : session.stage = .greeting) (horigin : session.origin = .dialed caller) :
      Step host (.receive i (.handshakeAck peer knownPeers))
        (host.storePeer i session peer knownPeers)
  | refuse (i : Nat) (session : Session) (message : NetworkMessage)
      (hsession : host.sessions[i]? = some session) (hstage : session.stage = .greeting)
      (hother : host.cut? (.receive i message) = none) :
      Step host (.receive i message) (host.setSession i { session with stage := .closed })
  | deliver (i : Nat) (session : Session) (peer : NodeId) (message : NetworkMessage)
      (hsession : host.sessions[i]? = some session) (hstage : session.stage = .reading peer) :
      Step host (.receive i message) { host with inbox := host.inbox ++ [(peer, message)] }
  | ackSent (i : Nat) (session : Session) (peer : NodeId)
      (hsession : host.sessions[i]? = some session) (hstage : session.stage = .greeted peer) :
      Step host (.ackSent i) (host.storePeer i session peer [])
  | hangUp (i : Nat) (session : Session) (hsession : host.sessions[i]? = some session)
      (hstage : ∀ id, ¬ session.Owns id) :
      Step host (.streamFails i) (host.setSession i { session with stage := .closed })
  | readerEnds (i : Nat) (session : Session) (peer : NodeId)
      (hsession : host.sessions[i]? = some session) (hstage : session.stage = .reading peer) :
      Step host (.streamFails i) (host.setSession i { session with stage := .ended peer })
  | removePeer (i : Nat) (session : Session) (peer : NodeId)
      (hsession : host.sessions[i]? = some session) (hstage : session.stage = .ended peer)
      (hcut : session.origin.cutsId = true → Shortens peer) :
      Step host (.removePeer i)
        ({ host with peers := host.peers.erase peer }.setSession i
          { session with stage := .closed })
  | removeFails (i : Nat) (session : Session) (peer : NodeId)
      (hsession : host.sessions[i]? = some session) (hstage : session.stage = .ended peer)
      (hcuts : session.origin.cutsId = true) (hshort : ¬ Shortens peer) :
      Step host (.removePeer i)
        ({ host with peers := host.peers.erase peer }.fail i
          { session with stage := .panicked } (.disconnected session.origin))
  | skip (i : Nat) (session : Session) (peer : NodeId) (address : String)
      (rest : List (NodeId × String)) (reached : Bool)
      (hsession : host.sessions[i]? = some session)
      (htodo : session.toDiscover = (peer, address) :: rest)
      (hknown : peer = host.nodeId ∨ peer ∈ host.peers.keys) :
      Step host (.discover i reached) (host.setSession i { session with toDiscover := rest })
  | discoverFails (i : Nat) (session : Session) (peer : NodeId) (address : String)
      (rest : List (NodeId × String)) (reached : Bool)
      (hsession : host.sessions[i]? = some session)
      (htodo : session.toDiscover = (peer, address) :: rest)
      (hnew : ¬ (peer = host.nodeId ∨ peer ∈ host.peers.keys)) (hshort : ¬ Shortens peer) :
      Step host (.discover i reached)
        (host.fail i { session with toDiscover := [] } .discovered)
  | discover (i : Nat) (session : Session) (peer : NodeId) (address : String)
      (rest : List (NodeId × String)) (reached : Bool)
      (hsession : host.sessions[i]? = some session)
      (htodo : session.toDiscover = (peer, address) :: rest)
      (hnew : ¬ (peer = host.nodeId ∨ peer ∈ host.peers.keys)) (hcut : Shortens peer) :
      Step host (.discover i reached)
        (if reached then
          (host.setSession i { session with toDiscover := rest }).addSession (.dialed .handle)
            address
        else host.setSession i { session with toDiscover := rest })
  | receiveFails (peer : NodeId) (message : ConsensusMessage)
      (rest : List (NodeId × NetworkMessage)) (now : Instant)
      (hinbox : host.inbox = (peer, .consensus message) :: rest) (hshort : ¬ Shortens peer) :
      Step host (.processMessage now)
        { host with inbox := rest, panics := host.panics ++ [.received] }
  | process (peer : NodeId) (message : ConsensusMessage)
      (rest : List (NodeId × NetworkMessage)) (now : Instant)
      (hinbox : host.inbox = (peer, .consensus message) :: rest) (hcut : Shortens peer) :
      Step host (.processMessage now)
        { host with
          inbox := rest
          state := (host.state.process (.processMessage message) now).state }
  | passOver (peer : NodeId) (message : NetworkMessage)
      (rest : List (NodeId × NetworkMessage)) (now : Instant)
      (hinbox : host.inbox = (peer, message) :: rest)
      (hother : host.cut? (.processMessage now) = none) :
      Step host (.processMessage now) { host with inbox := rest }
  | submit (request : Request) (now : Instant) :
      Step host (.submit request now)
        { host with state := (host.state.process (.handleRequest request) now).state }

theorem step_receive {message : NetworkMessage} {host' : Host}
    (h : host.receive i message = some host') : Step host (.receive i message) host' := by
  obtain ⟨⟨origin, address, stage, toDiscover⟩, hsession, h⟩ := Option.bind_eq_some_iff.mp h
  cases stage with
  | greeting =>
      cases origin with
      | incoming =>
          cases message with
          | handshake peer port =>
              obtain rfl := Option.some.inj h
              exact Step.greet i _ peer port hsession rfl rfl
          | handshakeAck | ping | pong | consensus =>
              obtain rfl := Option.some.inj h
              exact Step.refuse i _ _ hsession rfl (by simp [cut?, hsession])
      | dialed caller =>
          cases message with
          | handshakeAck peer knownPeers =>
              obtain rfl := Option.some.inj h
              exact Step.acked i _ caller peer knownPeers hsession rfl rfl
          | handshake | ping | pong | consensus =>
              obtain rfl := Option.some.inj h
              exact Step.refuse i _ _ hsession rfl (by simp [cut?, hsession])
  | reading peer =>
      obtain rfl := Option.some.inj h
      exact Step.deliver i _ peer message hsession rfl
  | greeted | ended | closed | panicked => exact absurd h (by simp)

theorem step_streamFails {host' : Host} (h : host.streamFails i = some host') :
    Step host (.streamFails i) host' := by
  obtain ⟨session, hsession, h⟩ := Option.bind_eq_some_iff.mp h
  cases hstage : session.stage with
  | greeting | greeted _ =>
      simp only [hstage] at h
      obtain rfl := Option.some.inj h
      exact Step.hangUp i session hsession fun id howns => by simp [Session.Owns, hstage] at howns
  | reading peer =>
      simp only [hstage] at h
      obtain rfl := Option.some.inj h
      exact Step.readerEnds i session peer hsession hstage
  | ended _ | closed | panicked =>
      simp only [hstage] at h
      exact absurd h (by simp)

theorem step_removePeer {host' : Host} (h : host.removePeer i = some host') :
    Step host (.removePeer i) host' := by
  obtain ⟨session, hsession, h⟩ := Option.bind_eq_some_iff.mp h
  cases hstage : session.stage with
  | ended peer =>
      simp only [hstage] at h
      split at h
      · rename_i hshort
        obtain rfl := Option.some.inj h
        exact Step.removeFails i session peer hsession hstage hshort.1 hshort.2
      · rename_i hcut
        obtain rfl := Option.some.inj h
        refine Step.removePeer i session peer hsession hstage fun hcuts => ?_
        exact not_not.mp fun hshort => hcut ⟨hcuts, hshort⟩
  | greeting | greeted _ | reading _ | closed | panicked =>
      simp only [hstage] at h
      exact absurd h (by simp)

theorem step_discover {reached : Bool} {host' : Host} (h : host.discover i reached = some host') :
    Step host (.discover i reached) host' := by
  obtain ⟨session, hsession, h⟩ := Option.bind_eq_some_iff.mp h
  cases htodo : session.toDiscover with
  | nil =>
      simp only [htodo] at h
      exact absurd h (by simp)
  | cons next rest =>
      obtain ⟨peer, address⟩ := next
      simp only [htodo] at h
      split at h
      · rename_i hknown
        obtain rfl := Option.some.inj h
        exact Step.skip i session peer address rest reached hsession htodo hknown
      rename_i hnew
      split at h
      · rename_i hshort
        obtain rfl := Option.some.inj h
        exact Step.discoverFails i session peer address rest reached hsession htodo hnew hshort
      · rename_i hcut
        obtain rfl := Option.some.inj h
        exact Step.discover i session peer address rest reached hsession htodo hnew
          (not_not.mp hcut)

theorem step_processMessage {now : Instant} {host' : Host}
    (h : host.processMessage now = some host') : Step host (.processMessage now) host' := by
  cases hinbox : host.inbox with
  | nil =>
      simp only [processMessage, hinbox] at h
      exact absurd h (by simp)
  | cons next rest =>
      obtain ⟨peer, message⟩ := next
      cases message with
      | consensus message =>
          simp only [processMessage, hinbox] at h
          by_cases hcut : Shortens peer
          · -- The second log line cuts the same id as the first.
            simp only [hcut, not_true_eq_false, if_false] at h
            have hsame : host' = { host with
                inbox := rest
                state := (host.state.process (.processMessage message) now).state } := by
              split at h <;> exact (Option.some.inj h).symm
            rw [hsame]
            exact Step.process peer message rest now hinbox hcut
          · simp only [hcut, not_false_eq_true, if_true] at h
            obtain rfl := Option.some.inj h
            exact Step.receiveFails peer message rest now hinbox hcut
      | _ =>
          simp only [processMessage, hinbox] at h
          obtain rfl := Option.some.inj h
          exact Step.passOver peer _ rest now hinbox (by simp [cut?, hinbox])

/-- **Every event is one of these steps**, in a node whose main task is alive. -/
theorem step_of_act {event : Event} {host' : Host} (h : host.act event = some host') :
    host.running = true ∧ Step host event host' := by
  unfold act at h
  split at h
  · exact absurd h (by simp)
  rename_i hrunning
  refine ⟨by simpa using hrunning, ?_⟩
  cases event with
  | accept address =>
      obtain rfl := Option.some.inj h
      exact Step.accept address
  | connectToPeer address =>
      obtain rfl := Option.some.inj h
      exact Step.connectToPeer address
  | receive i message => exact step_receive h
  | ackSent i =>
      obtain ⟨session, hsession, h⟩ := Option.bind_eq_some_iff.mp h
      cases hstage : session.stage with
      | greeted peer =>
          simp only [hstage] at h
          obtain rfl := Option.some.inj h
          exact Step.ackSent i session peer hsession hstage
      | greeting | reading _ | ended _ | closed | panicked =>
          simp only [hstage] at h
          exact absurd h (by simp)
  | streamFails i => exact step_streamFails h
  | removePeer i => exact step_removePeer h
  | discover i reached => exact step_discover h
  | processMessage now => exact step_processMessage h
  | submit request now =>
      obtain rfl := Option.some.inj h
      exact Step.submit request now

/-! ### Storing a peer -/

omit [Crypto] in
theorem storePeer_cases (host : Host) (i : Nat) (session : Session) (peer : NodeId)
    (knownPeers : List (NodeId × String)) :
    let stored := { host with peers := host.peers.insert peer ⟨peer, session.address⟩ }
    (session.origin.cutsId = true ∧ ¬ Shortens peer ∧
        host.storePeer i session peer knownPeers =
          stored.fail i { session with stage := .panicked } (.connected session.origin)) ∨
      ((session.origin.cutsId = true → Shortens peer) ∧ ∃ toDiscover,
        host.storePeer i session peer knownPeers =
          stored.setSession i
            { session with stage := .reading peer, toDiscover := toDiscover }) := by
  unfold storePeer
  by_cases h : session.origin.cutsId = true ∧ ¬ Shortens peer
  · exact Or.inl ⟨h.1, h.2, if_pos h⟩
  · exact Or.inr ⟨fun hcuts => not_not.mp fun hshort => h ⟨hcuts, hshort⟩, _, if_neg h⟩

omit [Crypto] in
theorem hasCut_storePeer (h : host.HasCut) (peer : NodeId)
    (knownPeers : List (NodeId × String)) : (host.storePeer i session peer knownPeers).HasCut := by
  rcases host.storePeer_cases i session peer knownPeers with
    ⟨-, -, heq⟩ | ⟨hcut, toDiscover, heq⟩
  · rw [heq]
    exact hasCut_setSession h fun id howns => absurd howns (by simp [Session.Owns])
  · rw [heq]
    refine hasCut_setSession h fun id howns hcuts => ?_
    rcases howns with hreading | hended
    · obtain rfl := Session.Stage.reading.inj hreading
      exact hcut hcuts
    · exact Session.Stage.noConfusion hended

omit [Crypto] in
theorem owned_storePeer (hsession : host.sessions[i]? = some session)
    (hfree : ∀ id, ¬ session.Owns id) (h : host.Owned) {peer : NodeId}
    (hcut : session.origin.cutsId = true → Shortens peer)
    (knownPeers : List (NodeId × String)) : (host.storePeer i session peer knownPeers).Owned := by
  rcases host.storePeer_cases i session peer knownPeers with
    ⟨hcuts, hshort, -⟩ | ⟨-, toDiscover, heq⟩
  · exact absurd (hcut hcuts) hshort
  rw [heq]
  intro id hid
  have hid : id ∈ (host.peers.insert peer ⟨peer, session.address⟩).keys := hid
  rw [Table.keys_insert] at hid
  rcases Finset.mem_insert.mp hid with rfl | hold
  · exact ⟨_, List.mem_set (List.getElem?_eq_some_iff.mp hsession).1 _, Or.inl rfl⟩
  · exact owned_setSession hsession (h id hold) fun howns => absurd howns (hfree id)

omit [Crypto] in
/-- The log line of a peer that is stored panics exactly if it does not cut the id whole. -/
theorem panics_storePeer (host : Host) (i : Nat) (session : Session) (peer : NodeId)
    (knownPeers : List (NodeId × String)) :
    ((∀ id ∈ session.cut? peer, Shortens id) ∧
        (host.storePeer i session peer knownPeers).panics = host.panics) ∨
      ((¬ ∀ id ∈ session.cut? peer, Shortens id) ∧
        ∃ line, (host.storePeer i session peer knownPeers).panics = host.panics ++ [line]) := by
  rcases host.storePeer_cases i session peer knownPeers with
    ⟨hcuts, hshort, heq⟩ | ⟨hcut, toDiscover, heq⟩
  · rw [heq]
    refine Or.inr ⟨fun hall => hshort (hall peer ?_), _, rfl⟩
    rw [Session.cut?, if_pos hcuts]
    rfl
  · rw [heq]
    refine Or.inl ⟨fun id hid => ?_, rfl⟩
    unfold Session.cut? at hid
    split at hid
    · rename_i hcuts
      obtain rfl := Option.mem_some_iff.mp hid
      exact hcut hcuts
    · exact absurd hid (by simp)

/-! ### What a step keeps -/

namespace Step

variable {event : Event} {host' : Host}

theorem hasCut (h : Step host event host') (hc : host.HasCut) : host'.HasCut := by
  cases h with
  | accept address => exact hasCut_addSession hc _ _
  | connectToPeer address => exact hasCut_addSession hc _ _
  | greet | refuse | hangUp =>
      exact hasCut_setSession hc fun id howns => absurd howns (by simp [Session.Owns])
  | acked i session caller peer knownPeers => exact hasCut_storePeer hc peer knownPeers
  | ackSent i session peer => exact hasCut_storePeer hc peer []
  | readerEnds i session peer hsession hstage =>
      refine hasCut_setSession hc fun id howns hcuts => ?_
      rcases howns with hreading | hended
      · exact Session.Stage.noConfusion hreading
      · obtain rfl := Session.Stage.ended.inj hended
        exact hc session (List.mem_of_getElem? hsession) _ (Or.inl hstage) hcuts
  | removePeer | removeFails =>
      exact hasCut_setSession hc fun id howns => absurd howns (by simp [Session.Owns])
  | skip i session peer address rest reached hsession
  | discoverFails i session peer address rest reached hsession =>
      exact hasCut_setSession hc fun id howns => hc session (List.mem_of_getElem? hsession) id howns
  | discover i session peer address rest reached hsession =>
      have hset : (host.setSession i { session with toDiscover := rest }).HasCut :=
        hasCut_setSession hc fun id howns => hc session (List.mem_of_getElem? hsession) id howns
      split
      · exact hasCut_addSession hset _ _
      · exact hset
  | deliver | receiveFails | process | passOver | submit => exact hc

/-- **A step panics exactly if the id it is the first to cut is not cut whole.** -/
theorem panics (h : Step host event host') (hc : host.HasCut) :
    (host.CutsWhole event ∧ host'.panics = host.panics) ∨
      (¬ host.CutsWhole event ∧ ∃ line, host'.panics = host.panics ++ [line]) := by
  have hquiet : host.cut? event = none → host.CutsWhole event := by
    intro hnone id hid
    rw [hnone] at hid
    exact absurd hid (by simp)
  have hcut : ∀ {id}, host.cut? event = some id → (host.CutsWhole event ↔ Shortens id) := by
    intro id hsome
    rw [CutsWhole, hsome]
    exact ⟨fun hall => hall id rfl, fun hid id' heq => Option.mem_some_iff.mp heq ▸ hid⟩
  cases h with
  | accept | connectToPeer | hangUp | readerEnds | submit => exact Or.inl ⟨hquiet rfl, rfl⟩
  | greet i session peer port hsession =>
      exact Or.inl ⟨hquiet (by simp [cut?, hsession]), rfl⟩
  | acked i session caller peer knownPeers hsession hstage horigin =>
      have hsame : host.cut? (.receive i (.handshakeAck peer knownPeers)) = session.cut? peer := by
        simp [cut?, hsession, hstage, horigin]
      rw [CutsWhole, hsame]
      exact host.panics_storePeer i session peer knownPeers
  | refuse i session message hsession hstage hother => exact Or.inl ⟨hquiet hother, rfl⟩
  | deliver i session peer message hsession hstage =>
      exact Or.inl ⟨hquiet (by simp [cut?, hsession, hstage]), rfl⟩
  | ackSent i session peer hsession hstage =>
      have hsame : host.cut? (.ackSent i) = session.cut? peer := by
        simp [cut?, hsession, hstage]
      rw [CutsWhole, hsame]
      exact host.panics_storePeer i session peer []
  | removePeer => exact Or.inl ⟨hquiet rfl, rfl⟩
  | removeFails i session peer hsession hstage hcuts hshort =>
      exact absurd (hc session (List.mem_of_getElem? hsession) peer (Or.inr hstage) hcuts) hshort
  | skip i session peer address rest reached hsession htodo hknown =>
      exact Or.inl ⟨hquiet (by simp [cut?, hsession, htodo, hknown]), rfl⟩
  | discoverFails i session peer address rest reached hsession htodo hnew hshort =>
      have hsome : host.cut? (.discover i reached) = some peer := by
        simp [cut?, hsession, htodo, hnew]
      exact Or.inr ⟨fun hall => hshort ((hcut hsome).mp hall), _, rfl⟩
  | discover i session peer address rest reached hsession htodo hnew hwhole =>
      have hsome : host.cut? (.discover i reached) = some peer := by
        simp [cut?, hsession, htodo, hnew]
      refine Or.inl ⟨(hcut hsome).mpr hwhole, ?_⟩
      split <;> rfl
  | receiveFails peer message rest now hinbox hshort =>
      have hsome : host.cut? (.processMessage now) = some peer := by simp [cut?, hinbox]
      exact Or.inr ⟨fun hall => hshort ((hcut hsome).mp hall), _, rfl⟩
  | process peer message rest now hinbox hwhole =>
      have hsome : host.cut? (.processMessage now) = some peer := by simp [cut?, hinbox]
      exact Or.inl ⟨(hcut hsome).mpr hwhole, rfl⟩
  | passOver peer message rest now hinbox hother => exact Or.inl ⟨hquiet hother, rfl⟩

/-- **As long as the ids are cut whole, every stored peer has somebody to remove it.** -/
theorem owned (h : Step host event host') (hc : host.HasCut) (hwhole : host.CutsWhole event)
    (ho : host.Owned) : host'.Owned := by
  have hkept : ∀ {i session session'}, host.sessions[i]? = some session →
      (∀ id, session.Owns id → Session.Owns session' id) → (host.setSession i session').Owned :=
    fun hsession hkeep id hid => owned_setSession hsession (ho id hid) (hkeep id)
  cases h with
  | accept address => exact owned_addSession ho _ _
  | connectToPeer address => exact owned_addSession ho _ _
  | greet i session peer port hsession hstage =>
      exact hkept hsession fun id howns => absurd howns (by simp [Session.Owns, hstage])
  | acked i session caller peer knownPeers hsession hstage horigin =>
      refine owned_storePeer hsession (by simp [Session.Owns, hstage]) ho (fun hcuts => ?_) _
      refine hwhole peer ?_
      simp [cut?, hsession, hstage, horigin, Session.cut?, horigin ▸ hcuts]
  | refuse i session message hsession hstage =>
      exact hkept hsession fun id howns => absurd howns (by simp [Session.Owns, hstage])
  | ackSent i session peer hsession hstage =>
      refine owned_storePeer hsession (by simp [Session.Owns, hstage]) ho (fun hcuts => ?_) _
      refine hwhole peer ?_
      simp [cut?, hsession, hstage, Session.cut?, hcuts]
  | hangUp i session hsession hfree =>
      exact hkept hsession fun id howns => absurd howns (hfree id)
  | readerEnds i session peer hsession hstage =>
      refine hkept hsession fun id howns => Or.inr ?_
      rcases howns with hreading | hended
      · rw [hstage] at hreading
        exact congrArg _ (Session.Stage.reading.inj hreading)
      · rw [hstage] at hended
        exact Session.Stage.noConfusion hended
  | removePeer i session peer hsession hstage =>
      intro id hid
      have hid : id ∈ (host.peers.erase peer).keys := hid
      rw [Finmap.mem_keys, Finmap.mem_erase] at hid
      refine owned_setSession hsession (ho id (Finmap.mem_keys.mpr hid.2)) fun howns => ?_
      rcases howns with hreading | hended
      · rw [hstage] at hreading
        exact Session.Stage.noConfusion hreading
      · rw [hstage] at hended
        exact absurd (Session.Stage.ended.inj hended).symm hid.1
  | removeFails i session peer hsession hstage hcuts hshort =>
      exact absurd (hc session (List.mem_of_getElem? hsession) peer (Or.inr hstage) hcuts) hshort
  | skip i session peer address rest reached hsession
  | discoverFails i session peer address rest reached hsession =>
      exact hkept hsession fun id howns => howns
  | discover i session peer address rest reached hsession =>
      have hset : (host.setSession i { session with toDiscover := rest }).Owned :=
        hkept hsession fun id howns => howns
      split
      · exact owned_addSession hset _ _
      · exact hset
  | deliver | receiveFails | process | passOver | submit => exact ho

end Step

/--
No log line has panicked, every stored peer has a session that reads from it or is about to
remove it, and whoever is about to remove a peer can do so.
-/
structure Safe (host : Host) : Prop where
  noPanic : host.panics = []
  owned : host.Owned
  removes : ∀ i session id, host.sessions[i]? = some session → session.stage = .ended id →
    ∃ host', host.act (.removePeer i) = some host' ∧ host'.panics = [] ∧ id ∉ host'.peers.keys

theorem removes_of_hasCut (hnone : host.panics = []) (hc : host.HasCut)
    (hsession : host.sessions[i]? = some session) (hstage : session.stage = .ended id) :
    ∃ host', host.act (.removePeer i) = some host' ∧ host'.panics = [] ∧
      id ∉ host'.peers.keys := by
  have hcut : ¬ (session.origin.cutsId = true ∧ ¬ Shortens id) := fun ⟨hcuts, hshort⟩ =>
    hshort (hc session (List.mem_of_getElem? hsession) id (Or.inr hstage) hcuts)
  refine ⟨{ host with peers := host.peers.erase id }.setSession i { session with stage := .closed },
    ?_, hnone, ?_⟩
  · simp only [act, running, hnone, List.all_nil, Bool.true_eq_false, if_false, removePeer,
      hsession, Option.bind_some, hstage, hcut]
  · show id ∉ (host.peers.erase id).keys
    rw [Finmap.mem_keys, Finmap.mem_erase]
    exact fun h => h.1 rfl

/--
**No id crashes a node, exactly if the ids it cuts are cut whole.**  In all states of a run
there has been no panic and every peer is removed when its reader ends, if and only if every
id that is cut for the first time has sixteen bytes that end with a character: that of a
handshake that is answered, that of an ack to `Network`, that of a discovered peer that is
new, and that under which a consensus message comes to the message loop.
-/
theorem no_id_crashes_iff (nodeId : NodeId) (state : PbftState) (events : List Event)
    (host' : Host) :
    Run (fun host event host' => host.act event = some host' ∧ host'.Safe)
        (new nodeId state) events host' ↔
      Run (fun host event host' => host.CutsWhole event ∧ host.act event = some host')
        (new nodeId state) events host' := by
  refine Run.keeps_iff (I := Safe) (J := HasCut) ?_ ?_ ?_ ?_
  · exact ⟨rfl, fun id hid => absurd hid (by simp [new]), fun i session id hsession =>
      absurd hsession (by simp [new])⟩
  · exact fun session hsession => absurd hsession (by simp [new])
  · exact fun hc hact => (step_of_act hact).2.hasCut hc
  · intro host event next hc hsafe hact
    have hstep := (step_of_act hact).2
    constructor
    · intro hnext
      rcases hstep.panics hc with ⟨hwhole, -⟩ | ⟨-, line, hpanics⟩
      · exact hwhole
      · rw [hnext.noPanic] at hpanics
        exact absurd hpanics (by simp)
    · intro hwhole
      have hnone : next.panics = [] := by
        rcases hstep.panics hc with ⟨-, hpanics⟩ | ⟨hbad, -⟩
        · rw [hpanics, hsafe.noPanic]
        · exact absurd hwhole hbad
      exact ⟨hnone, hstep.owned hc hwhole hsafe.owned, fun i session id hsession hstage =>
        removes_of_hasCut hnone (hstep.hasCut hc) hsession hstage⟩

end Host

namespace Sample

/-- Somebody connects and gives an id. -/
def connectsAs (id : NodeId) : List Host.Event :=
  [.accept "10.0.0.7:50412", .receive 0 (.handshake id 8000), .ackSent 0]

/-- An id of seventeen bytes, of which the last character takes two. -/
def cutInside : NodeId := "aaaaaaaaaaaaaaaé"

/-- A peer names another one, that one has such an id, and sends a request. -/
def discoveredAs (id : NodeId) : List Host.Event :=
  [.connectToPeer "10.0.0.1:8000", .receive 0 (.handshakeAck (node 1) [(node 2, "10.0.0.2:8000")]),
    .discover 0 true, .receive 1 (.handshakeAck id []),
    .receive 1 (.consensus (.request (request 1))), .processMessage 0]

end Sample

open Sample in
/--
**Short ids, and ids with a character at the wrong place, crash a node.**  After the
handshake of one the peer table has a peer that no session will remove.  The message of
another ends the main task.
-/
theorem Host.ids_crash :
    (∃ host, Run (fun host event host' => host.act event = some host')
        (new (node 0) (signer 0)) (connectsAs "a") host ∧
      host.panics = [.connected .incoming] ∧ "a" ∈ host.peers.keys ∧
      ∀ session ∈ host.sessions, ¬ session.Owns "a") ∧
    ∃ host, Run (fun host event host' => host.act event = some host')
        (new (node 0) (signer 0)) (discoveredAs cutInside) host ∧
      host.panics = [.received] ∧ host.running = false :=
  ⟨exists_run_of_execute _ _ _ _ (by decide +kernel),
    exists_run_of_execute _ _ _ _ (by decide +kernel)⟩

end P2pPbft
