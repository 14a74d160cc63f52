/-
What a step does to connections and tables.

`Step` is `Mesh.act` read the other way round, one constructor for each kind of change.
From it come the few facts every invariant is built on: which sockets become live and
which stop being so, and which of them the tables name.
-/
import P2pPbft.Connections
import P2pPbft.Lib.Run

namespace P2pPbft

@[simp] theorem Side.other_other (side : Side) : side.other.other = side := by
  cases side <;> rfl

theorem Side.eq_or_eq_other (side side' : Side) : side' = side ∨ side' = side.other := by
  cases side <;> cases side' <;> simp [Side.other]

/-! ### One connection -/

namespace Connection

variable (conn : Connection) (side side' : Side) (stage : Stage)

@[simp] theorem node_setStage : (conn.setStage side stage).node side' = conn.node side' := by
  cases side' <;> rfl

theorem stage_setStage : (conn.setStage side stage).stage side'
    = if side' = side then stage else conn.stage side' := by
  by_cases h : side' = side
  · subst h
    simp [Connection.stage, setStage]
  · simp [Connection.stage, setStage, h]

@[simp] theorem writing_setStage : (conn.setStage side stage).writing side' = conn.writing side' := by
  by_cases h : side' = side
  · subst h
    simp [writing, setStage]
  · simp [writing, setStage, h]

@[simp] theorem node_stopWriting : (conn.stopWriting side).node side' = conn.node side' := by
  cases side' <;> rfl

@[simp] theorem stage_stopWriting : (conn.stopWriting side).stage side' = conn.stage side' := by
  by_cases h : side' = side
  · subst h
    simp [Connection.stage, stopWriting]
  · simp [Connection.stage, stopWriting, h]

theorem writing_stopWriting : (conn.stopWriting side).writing side'
    = if side' = side then false else conn.writing side' := by
  by_cases h : side' = side
  · subst h
    simp [writing, stopWriting]
  · simp [writing, stopWriting, h]

@[simp] theorem node_startReading : (conn.startReading side).node side' = conn.node side' := by
  cases side' <;> rfl

theorem stage_startReading : (conn.startReading side).stage side'
    = if side' = side then .reading else conn.stage side' :=
  stage_setStage ..

@[simp] theorem writing_startReading :
    (conn.startReading side).writing side' = conn.writing side' :=
  writing_setStage ..

end Connection

/-! ### Tables and connections of a mesh -/

namespace Mesh

variable {addressing : Addressing} {mesh mesh' : Mesh} {conn conn' : Connection}

theorem connection_setConnection {c : Nat} (hc : mesh.connection c = some conn) (c' : Nat) :
    (mesh.setConnection c conn').connection c'
      = if c' = c then some conn' else mesh.connection c' := by
  obtain ⟨hlt, -⟩ := List.getElem?_eq_some_iff.mp hc
  show (mesh.connections.set c conn')[c']? = _
  rw [List.getElem?_set]
  by_cases h : c' = c
  · subst h
    simp [hlt]
  · simp [h, Ne.symm h, connection]

theorem connection_addConnection (mesh : Mesh) (conn : Connection) (c : Nat) :
    (mesh.addConnection conn).connection c
      = if c = mesh.connections.length then some conn else mesh.connection c := by
  show (mesh.connections ++ [conn])[c]? = _
  by_cases h : c = mesh.connections.length
  · subst h
    simp
  · rw [if_neg h]
    rcases Nat.lt_or_gt_of_ne h with hlt | hgt
    · rw [List.getElem?_append_left hlt]
      rfl
    · rw [connection, List.getElem?_eq_none (by simp; omega), List.getElem?_eq_none (by omega)]

@[simp] theorem connection_insertPeer (node : NodeId) (handle : PeerHandle) (c : Nat) :
    (mesh.insertPeer node handle).connection c = mesh.connection c := rfl

@[simp] theorem stored_setConnection (c : Nat) (node id : NodeId) :
    (mesh.setConnection c conn).stored node id = mesh.stored node id := rfl

theorem lookup_insertPeer (mesh : Mesh) (node : NodeId) (handle : PeerHandle) (node' id : NodeId) :
    ((mesh.insertPeer node handle).peers node').lookup id
      = if node' = node ∧ id = handle.info.nodeId then some handle
        else (mesh.peers node').lookup id := by
  by_cases hn : node' = node
  · subst hn
    by_cases hid : id = handle.info.nodeId
    · subst hid
      simp [insertPeer]
    · simp [insertPeer, hid]
  · simp [insertPeer, hn]

theorem lookup_erasePeer (mesh : Mesh) (node id node' id' : NodeId) :
    ((mesh.erasePeer node id).peers node').lookup id'
      = if node' = node ∧ id' = id then none else (mesh.peers node').lookup id' := by
  by_cases hn : node' = node
  · subst hn
    by_cases hid : id' = id
    · subst hid
      simp [erasePeer]
    · simp [erasePeer, hid]
  · simp [erasePeer, hn]

@[simp] theorem nodeId_handle (conn : Connection) (socket : Socket) :
    (handle addressing conn socket).info.nodeId = conn.peer socket.side := rfl

theorem mem_knownPeers {node : NodeId} {peer : NodeId × String} :
    peer ∈ mesh.knownPeers node ↔ ∃ id handle, (mesh.peers node).lookup id = some handle ∧
      (handle.info.nodeId, handle.info.address) = peer := by
  rw [knownPeers, Multiset.mem_toFinset, Multiset.mem_map]
  constructor
  · rintro ⟨handle, hmem, rfl⟩
    obtain ⟨id, hlookup⟩ := Table.mem_values.mp hmem
    exact ⟨id, handle, hlookup, rfl⟩
  · rintro ⟨id, handle, hlookup, rfl⟩
    exact ⟨handle, Table.mem_values.mpr ⟨id, hlookup⟩, rfl⟩

theorem mem_peers_iff {node id : NodeId} :
    id ∈ mesh.peers node ↔ ∃ socket, mesh.stored node id = some socket := by
  rw [Finmap.mem_iff]
  simp [stored]

/-! ### The steps -/

/-- One step, by what it changes. -/
inductive Step (addressing : Addressing) (mesh : Mesh) : Event → Mesh → Prop
  | connectToPeer {node listener : NodeId} {address : String}
      (hl : addressing.listener address = some listener) :
      Step addressing mesh (.connectToPeer node address)
        (mesh.addConnection (.new .network node listener address))
  | sendAck {c : Nat} {conn : Connection} (hc : mesh.connection c = some conn)
      (hstage : conn.stage .listener = .handshake) (hack : conn.knownPeers = none) :
      Step addressing mesh (.sendAck c)
        (mesh.setConnection c { conn with knownPeers := some (mesh.knownPeers conn.listener) })
  | storePeer {socket : Socket} {conn : Connection} {known : Finset (NodeId × String)}
      (hc : mesh.connection socket.connection = some conn)
      (hstage : conn.stage socket.side = .handshake) (hack : conn.knownPeers = some known) :
      Step addressing mesh (.storePeer socket)
        ((mesh.insertPeer (conn.node socket.side) (handle addressing conn socket)).setConnection
          socket.connection (conn.startReading socket.side))
  | skip {c : Nat} {conn : Connection} {peer : NodeId × String}
      (hc : mesh.connection c = some conn) (hpeer : peer ∈ conn.toDiscover)
      (hskip : peer.1 = conn.dialer ∨ peer.1 ∈ mesh.peers conn.dialer ∨
        addressing.listener peer.2 = none) :
      Step addressing mesh (.discover c peer)
        (mesh.setConnection c { conn with toDiscover := conn.toDiscover.erase peer })
  | discover {c : Nat} {conn : Connection} {peer : NodeId × String} {listener : NodeId}
      (hc : mesh.connection c = some conn) (hpeer : peer ∈ conn.toDiscover)
      (hself : peer.1 ≠ conn.dialer) (hnew : peer.1 ∉ mesh.peers conn.dialer)
      (hl : addressing.listener peer.2 = some listener) :
      Step addressing mesh (.discover c peer)
        ((mesh.setConnection c { conn with toDiscover := conn.toDiscover.erase peer }).addConnection
          (.new .handle conn.dialer listener peer.2))
  | endOfStream {socket : Socket} {conn : Connection}
      (hc : mesh.connection socket.connection = some conn)
      (hstage : conn.stage socket.side = .reading)
      (hend : conn.writing socket.side.other = false ∨ conn.broken = true) :
      Step addressing mesh (.endOfStream socket)
        (mesh.setConnection socket.connection (conn.setStage socket.side .ended))
  | removePeer {socket : Socket} {conn : Connection}
      (hc : mesh.connection socket.connection = some conn)
      (hstage : conn.stage socket.side = .ended) :
      Step addressing mesh (.removePeer socket)
        ((mesh.erasePeer (conn.node socket.side) (conn.peer socket.side)).setConnection
          socket.connection (conn.setStage socket.side .closed))
  | channelClosed {socket : Socket} {conn : Connection}
      (hc : mesh.connection socket.connection = some conn)
      (hstage : conn.stage socket.side ≠ .handshake) (hwriting : conn.writing socket.side = true)
      (hgone : mesh.stored (conn.node socket.side) (conn.peer socket.side) ≠ some socket) :
      Step addressing mesh (.channelClosed socket)
        (mesh.setConnection socket.connection (conn.stopWriting socket.side))
  | handshakeFails {socket : Socket} {conn : Connection}
      (hc : mesh.connection socket.connection = some conn)
      (hstage : conn.stage socket.side = .handshake) (hbroken : conn.broken = true) :
      Step addressing mesh (.handshakeFails socket)
        (mesh.setConnection socket.connection
          ((conn.setStage socket.side .closed).stopWriting socket.side))
  | cut {c : Nat} {conn : Connection} (hc : mesh.connection c = some conn) :
      Step addressing mesh (.cut c) (mesh.setConnection c { conn with broken := true })
  | readerFails {socket : Socket} {conn : Connection}
      (hc : mesh.connection socket.connection = some conn)
      (hstage : conn.stage socket.side = .reading) :
      Step addressing mesh (.readerFails socket)
        (mesh.setConnection socket.connection (conn.setStage socket.side .ended))
  | writerFails {socket : Socket} {conn : Connection}
      (hc : mesh.connection socket.connection = some conn)
      (hstage : conn.stage socket.side ≠ .handshake) (hwriting : conn.writing socket.side = true) :
      Step addressing mesh (.writerFails socket)
        (mesh.setConnection socket.connection (conn.stopWriting socket.side))

theorem step_eq_some {c : Nat} {ready : Connection → Prop} [DecidablePred ready]
    {effect : Connection → Mesh} : mesh.step c ready effect = some mesh' ↔
      ∃ conn, mesh.connection c = some conn ∧ ready conn ∧ effect conn = mesh' := by
  simp [step, Option.bind_eq_some_iff]

theorem step_eq_none {c : Nat} {ready : Connection → Prop} [DecidablePred ready]
    {effect : Connection → Mesh} : mesh.step c ready effect = none ↔
      ∀ conn, mesh.connection c = some conn → ¬ ready conn := by
  simp [step, Option.bind_eq_none_iff]

theorem step_of_act {event : Event} (h : mesh.act addressing event = some mesh') :
    Step addressing mesh event mesh' := by
  cases event with
  | connectToPeer node address =>
      obtain ⟨listener, hl, rfl⟩ := Option.map_eq_some_iff.mp h
      exact .connectToPeer hl
  | sendAck c =>
      obtain ⟨conn, hc, ⟨hstage, hack⟩, rfl⟩ := step_eq_some.mp h
      exact .sendAck hc hstage hack
  | storePeer socket =>
      obtain ⟨conn, hc, ⟨hstage, hack⟩, rfl⟩ := step_eq_some.mp h
      obtain ⟨known, hack⟩ := Option.isSome_iff_exists.mp hack
      exact .storePeer hc hstage hack
  | discover c peer =>
      obtain ⟨conn, hc, hpeer, rfl⟩ := step_eq_some.mp h
      by_cases hskip : peer.1 = conn.dialer ∨ peer.1 ∈ mesh.peers conn.dialer
      · rw [if_pos hskip]
        exact .skip hc hpeer (hskip.imp_right Or.inl)
      · rw [if_neg hskip]
        obtain ⟨hself, hnew⟩ := not_or.mp hskip
        cases hl : addressing.listener peer.2 with
        | none =>
            simp only [dial, hl, Option.map_none, Option.getD_none]
            exact .skip hc hpeer (.inr (.inr hl))
        | some listener =>
            simp only [dial, hl, Option.map_some, Option.getD_some]
            exact .discover hc hpeer hself hnew hl
  | endOfStream socket =>
      obtain ⟨conn, hc, ⟨hstage, hend⟩, rfl⟩ := step_eq_some.mp h
      exact .endOfStream hc hstage hend
  | removePeer socket =>
      obtain ⟨conn, hc, hstage, rfl⟩ := step_eq_some.mp h
      exact .removePeer hc hstage
  | channelClosed socket =>
      obtain ⟨conn, hc, ⟨hstage, hwriting, hgone⟩, rfl⟩ := step_eq_some.mp h
      exact .channelClosed hc hstage hwriting hgone
  | handshakeFails socket =>
      obtain ⟨conn, hc, ⟨hstage, hbroken⟩, rfl⟩ := step_eq_some.mp h
      exact .handshakeFails hc hstage hbroken
  | cut c =>
      obtain ⟨conn, hc, -, rfl⟩ := step_eq_some.mp h
      exact .cut hc
  | readerFails socket =>
      obtain ⟨conn, hc, hstage, rfl⟩ := step_eq_some.mp h
      exact .readerFails hc hstage
  | writerFails socket =>
      obtain ⟨conn, hc, ⟨hstage, hwriting⟩, rfl⟩ := step_eq_some.mp h
      exact .writerFails hc hstage hwriting

/-! ### What a step does to one connection -/

/-- The event moves one end of a connection on to another stage. -/
inductive Moves (conn : Connection) : Event → Socket → Stage → Prop
  | storePeer {socket : Socket} (hstage : conn.stage socket.side = .handshake)
      (hack : conn.knownPeers ≠ none) : Moves conn (.storePeer socket) socket .reading
  | endOfStream {socket : Socket} (hstage : conn.stage socket.side = .reading)
      (hend : conn.writing socket.side.other = false ∨ conn.broken = true) :
      Moves conn (.endOfStream socket) socket .ended
  | readerFails {socket : Socket} (hstage : conn.stage socket.side = .reading) :
      Moves conn (.readerFails socket) socket .ended
  | removePeer {socket : Socket} (hstage : conn.stage socket.side = .ended) :
      Moves conn (.removePeer socket) socket .closed
  | handshakeFails {socket : Socket} (hstage : conn.stage socket.side = .handshake)
      (hbroken : conn.broken = true) : Moves conn (.handshakeFails socket) socket .closed

theorem Moves.at_side {event : Event} {socket : Socket} {stage : Stage}
    (h : Moves conn event socket stage) (side : Side) :
    (if side = socket.side then stage else conn.stage side) = conn.stage side ∨
      Moves conn event ⟨socket.connection, side⟩
        (if side = socket.side then stage else conn.stage side) := by
  by_cases hs : side = socket.side
  · subst hs
    rw [if_pos rfl]
    exact .inr h
  · exact .inl (if_neg hs)

theorem Moves.stage_ne_closed {event : Event} {socket : Socket} {stage : Stage}
    (h : Moves conn event socket stage) : conn.stage socket.side ≠ .closed := by
  intro hclosed
  cases h with
  | storePeer hs => exact absurd (hclosed.symm.trans hs) (by simp)
  | endOfStream hs => exact absurd (hclosed.symm.trans hs) (by simp)
  | readerFails hs => exact absurd (hclosed.symm.trans hs) (by simp)
  | removePeer hs => exact absurd (hclosed.symm.trans hs) (by simp)
  | handshakeFails hs => exact absurd (hclosed.symm.trans hs) (by simp)

/-- The event makes one end of a connection drop its write half. -/
inductive Stops (mesh : Mesh) (conn : Connection) : Event → Socket → Prop
  | channelClosed {socket : Socket} (hstage : conn.stage socket.side ≠ .handshake)
      (hgone : mesh.stored (conn.node socket.side) (conn.peer socket.side) ≠ some socket) :
      Stops mesh conn (.channelClosed socket) socket
  | handshakeFails {socket : Socket} (hbroken : conn.broken = true) :
      Stops mesh conn (.handshakeFails socket) socket
  | writerFails (socket : Socket) : Stops mesh conn (.writerFails socket) socket

theorem Stops.at_side {event : Event} {socket : Socket} (h : Stops mesh conn event socket)
    (side : Side) :
    (if side = socket.side then false else conn.writing side) = conn.writing side ∨
      Stops mesh conn event ⟨socket.connection, side⟩ := by
  by_cases hs : side = socket.side
  · subst hs
    exact .inr h
  · exact .inl (if_neg hs)

/-- What an event makes of the ack of a connection. -/
inductive Acks (mesh : Mesh) (conn : Connection) :
    Event → Nat → Option (Finset (NodeId × String)) → Prop
  | sendAck {c : Nat} (hstage : conn.stage .listener = .handshake) (hack : conn.knownPeers = none) :
      Acks mesh conn (.sendAck c) c (some (mesh.knownPeers conn.listener))
  | other {event : Event} {c : Nat} (h : event ≠ .sendAck c) :
      Acks mesh conn event c conn.knownPeers

theorem Acks.eq_none_of_eq_none {event : Event} {c : Nat} {known : Option (Finset (NodeId × String))}
    (h : Acks mesh conn event c known) (hnone : known = none) : conn.knownPeers = none := by
  cases h with
  | sendAck => cases hnone
  | other => exact hnone

/-- What an event leaves a connection to discover. -/
inductive Discovers (conn : Connection) : Event → Nat → Finset (NodeId × String) → Prop
  | storePeer {c : Nat} : Discovers conn (.storePeer ⟨c, .dialer⟩) c (conn.discovered .dialer)
  | discover {c : Nat} {peer : NodeId × String} (hpeer : peer ∈ conn.toDiscover) :
      Discovers conn (.discover c peer) c (conn.toDiscover.erase peer)
  | other {event : Event} {c : Nat} (hstore : event ≠ .storePeer ⟨c, .dialer⟩)
      (hdiscover : ∀ peer, event ≠ .discover c peer) : Discovers conn event c conn.toDiscover

/-- What an event does to a connection. -/
structure Evolves (mesh : Mesh) (event : Event) (c : Nat) (conn conn' : Connection) : Prop where
  caller : conn'.caller = conn.caller := by exact rfl
  node : ∀ side, conn'.node side = conn.node side := by simp
  stage : ∀ side, conn'.stage side = conn.stage side ∨
    Moves conn event ⟨c, side⟩ (conn'.stage side) := by simp
  writing : ∀ side, conn'.writing side = conn.writing side ∨ Stops mesh conn event ⟨c, side⟩ := by
    simp
  knownPeers : Acks mesh conn event c conn'.knownPeers := by exact .other (by simp)
  toDiscover : Discovers conn event c conn'.toDiscover := by exact .other (by simp) (by simp)
  broken : conn'.broken = conn.broken ∨ conn'.broken = true ∧ event = .cut c := by
    exact .inl rfl

theorem Evolves.knownPeers_eq {event : Event} {c : Nat} (h : Evolves mesh event c conn conn') :
    conn'.knownPeers = conn.knownPeers ∨ event = .sendAck c ∧ conn.stage .listener = .handshake ∧
      conn.knownPeers = none ∧ conn'.knownPeers = some (mesh.knownPeers conn.listener) := by
  have hacks := h.knownPeers
  generalize conn'.knownPeers = known at hacks
  cases hacks with
  | sendAck hs hk => exact .inr ⟨rfl, hs, hk, rfl⟩
  | other => exact .inl rfl

/-- Which connection an event is about, if it is about one that is there already. -/
def Event.connection : Event → Option Nat
  | .connectToPeer _ _ => none
  | .sendAck c | .discover c _ | .cut c => some c
  | .storePeer s | .endOfStream s | .removePeer s | .channelClosed s | .handshakeFails s
  | .readerFails s | .writerFails s => some s.connection

theorem Evolves.refl {event : Event} {c : Nat} (conn : Connection)
    (h : event.connection ≠ some c) : Evolves mesh event c conn conn where
  knownPeers := by
    refine .other ?_
    rintro rfl
    exact h rfl
  toDiscover := by
    refine .other ?_ fun peer => ?_
    all_goals
      rintro rfl
      exact h rfl

/-- What an event opens. -/
inductive Opens (addressing : Addressing) (mesh : Mesh) : Event → Connection → Prop
  | connectToPeer {node listener : NodeId} {address : String}
      (hl : addressing.listener address = some listener) :
      Opens addressing mesh (.connectToPeer node address) (.new .network node listener address)
  | discover {c : Nat} {conn : Connection} {peer : NodeId × String} {listener : NodeId}
      (hc : mesh.connection c = some conn) (hpeer : peer ∈ conn.toDiscover)
      (hl : addressing.listener peer.2 = some listener) :
      Opens addressing mesh (.discover c peer) (.new .handle conn.dialer listener peer.2)

theorem Opens.eq_new {event : Event} (h : Opens addressing mesh event conn) :
    ∃ caller dialer listener address, conn = .new caller dialer listener address := by
  cases h <;> exact ⟨_, _, _, _, rfl⟩

theorem forall_setConnection {P : Nat → Connection → Prop} {c₀ : Nat}
    (hc₀ : mesh.connection c₀ = some conn) (hnew : P c₀ conn')
    (hold : ∀ c conn, c ≠ c₀ → mesh.connection c = some conn → P c conn) :
    ∀ c conn, (mesh.setConnection c₀ conn').connection c = some conn → P c conn := by
  intro c conn₁ hc
  rw [connection_setConnection hc₀] at hc
  by_cases h : c = c₀
  · rw [if_pos h] at hc
    obtain rfl := Option.some.inj hc
    exact h ▸ hnew
  · rw [if_neg h] at hc
    exact hold c conn₁ h hc

theorem forall_addConnection {P : Nat → Connection → Prop}
    (hnew : P mesh.connections.length conn)
    (hold : ∀ c conn, mesh.connection c = some conn → P c conn) :
    ∀ c conn', (mesh.addConnection conn).connection c = some conn' → P c conn' := by
  intro c conn₁ hc
  rw [connection_addConnection] at hc
  by_cases h : c = mesh.connections.length
  · rw [if_pos h] at hc
    obtain rfl := Option.some.inj hc
    exact h ▸ hnew
  · rw [if_neg h] at hc
    exact hold c conn₁ hc

theorem stage_mk {c : Nat} (hc : mesh.connection c = some conn) (side : Side) :
    mesh.stage ⟨c, side⟩ = some (conn.stage side) := by
  rw [stage, hc, Option.map_some]

theorem place_mk {c : Nat} (hc : mesh.connection c = some conn) (side : Side) :
    mesh.place ⟨c, side⟩ = some (conn.node side, conn.peer side) := by
  rw [place, hc, Option.map_some]

theorem stage_of_connection {socket : Socket} (hc : mesh.connection socket.connection = some conn) :
    mesh.stage socket = some (conn.stage socket.side) :=
  stage_mk hc socket.side

theorem place_of_connection {socket : Socket} (hc : mesh.connection socket.connection = some conn) :
    mesh.place socket = some (conn.node socket.side, conn.peer socket.side) :=
  place_mk hc socket.side

theorem exists_connection_of_stage {socket : Socket} {stage : Stage}
    (h : mesh.stage socket = some stage) :
    ∃ conn, mesh.connection socket.connection = some conn ∧ conn.stage socket.side = stage := by
  simpa [Mesh.stage] using h

theorem exists_connection_of_place {socket : Socket} {node id : NodeId}
    (h : mesh.place socket = some (node, id)) :
    ∃ conn, mesh.connection socket.connection = some conn ∧ conn.node socket.side = node ∧
      conn.peer socket.side = id := by
  simpa [place] using h

namespace Step

variable {event : Event} {socket : Socket} {node id : NodeId}

theorem origin (h : Step addressing mesh event mesh') : ∀ c conn', mesh'.connection c = some conn' →
    (∃ conn, mesh.connection c = some conn ∧ Evolves mesh event c conn conn') ∨
      c = mesh.connections.length ∧ Opens addressing mesh event conn' := by
  -- All but the connection that the event is about are as they were.
  have hold : ∀ {mesh₁ : Mesh} c conn', mesh₁.connection c = mesh.connection c →
      event.connection ≠ some c → mesh₁.connection c = some conn' →
      (∃ conn, mesh.connection c = some conn ∧ Evolves mesh event c conn conn') ∨
        c = mesh.connections.length ∧ Opens addressing mesh event conn' :=
    fun c conn' hsame he hc => .inl ⟨conn', hsame ▸ hc, .refl conn' he⟩
  -- What is left to show of a step that changes one connection.
  have hset : ∀ {mesh₁ : Mesh} {c₀ : Nat} (conn₀ : Connection) {conn₁ : Connection},
      event.connection = some c₀ → mesh.connection c₀ = some conn₀ →
      (∀ c, mesh₁.connection c = mesh.connection c) → Evolves mesh event c₀ conn₀ conn₁ →
      ∀ c conn', (mesh₁.setConnection c₀ conn₁).connection c = some conn' →
        (∃ conn, mesh.connection c = some conn ∧ Evolves mesh event c conn conn') ∨
          c = mesh.connections.length ∧ Opens addressing mesh event conn' := by
    intro mesh₁ c₀ conn₀ conn₁ he hc₀ hsame hevolves
    refine forall_setConnection (by rw [hsame, hc₀]) (.inl ⟨conn₀, hc₀, hevolves⟩) ?_
    intro c conn' hne
    refine hold c conn' (hsame c) ?_
    rw [he]
    simpa using hne.symm
  cases h with
  | connectToPeer hl =>
      exact forall_addConnection (.inr ⟨rfl, .connectToPeer hl⟩) fun c conn' =>
        hold c conn' rfl (by simp [Event.connection])
  | sendAck hc hstage hack =>
      exact hset _ rfl hc (fun _ => rfl)
        { node := fun side => by cases side <;> rfl
          stage := fun side => .inl rfl
          writing := fun side => .inl rfl
          knownPeers := .sendAck hstage hack }
  | @storePeer s conn known hc hstage hack =>
      refine hset conn rfl hc (fun _ => rfl) { stage := ?_, toDiscover := ?_ }
      · intro side
        rw [Connection.stage_startReading]
        exact Moves.at_side (.storePeer hstage (by simp [hack])) side
      · obtain ⟨c, side⟩ := s
        cases side with
        | dialer => exact .storePeer
        | listener => exact .other (by simp) (by simp)
  | skip hc hpeer =>
      exact hset _ rfl hc (fun _ => rfl)
        { node := fun side => by cases side <;> rfl
          stage := fun side => .inl rfl
          writing := fun side => .inl rfl
          toDiscover := .discover hpeer }
  | @discover c₀ conn peer listener hc hpeer hself hnew hl =>
      refine forall_addConnection (.inr ⟨?_, .discover hc hpeer hl⟩) (hset _ rfl hc (fun _ => rfl)
        { node := fun side => by cases side <;> rfl
          stage := fun side => .inl rfl
          writing := fun side => .inl rfl
          toDiscover := .discover hpeer })
      simp [setConnection]
  | @endOfStream s conn hc hstage hend =>
      refine hset _ rfl hc (fun _ => rfl) { stage := fun side => ?_ }
      rw [Connection.stage_setStage]
      exact Moves.at_side (.endOfStream hstage hend) side
  | @removePeer s conn hc hstage =>
      refine hset conn rfl hc (fun _ => rfl) { stage := fun side => ?_ }
      rw [Connection.stage_setStage]
      exact Moves.at_side (.removePeer hstage) side
  | @channelClosed s conn hc hstage hwriting hgone =>
      refine hset _ rfl hc (fun _ => rfl) { writing := fun side => ?_ }
      rw [Connection.writing_stopWriting]
      exact Stops.at_side (.channelClosed hstage hgone) side
  | @handshakeFails s conn hc hstage hbroken =>
      refine hset _ rfl hc (fun _ => rfl) { stage := fun side => ?_, writing := fun side => ?_ }
      · rw [Connection.stage_stopWriting, Connection.stage_setStage]
        exact Moves.at_side (.handshakeFails hstage hbroken) side
      · rw [Connection.writing_stopWriting, Connection.writing_setStage]
        exact Stops.at_side (.handshakeFails hbroken) side
  | cut hc =>
      exact hset _ rfl hc (fun _ => rfl)
        { node := fun side => by cases side <;> rfl
          stage := fun side => .inl rfl
          writing := fun side => .inl rfl
          broken := .inr ⟨rfl, rfl⟩ }
  | @readerFails s conn hc hstage =>
      refine hset _ rfl hc (fun _ => rfl) { stage := fun side => ?_ }
      rw [Connection.stage_setStage]
      exact Moves.at_side (.readerFails hstage) side
  | @writerFails s conn hc hstage hwriting =>
      refine hset _ rfl hc (fun _ => rfl) { writing := fun side => ?_ }
      rw [Connection.writing_stopWriting]
      exact Stops.at_side (.writerFails s) side

theorem length_le (h : Step addressing mesh event mesh') :
    mesh.connections.length ≤ mesh'.connections.length := by
  cases h <;> simp [addConnection, setConnection, insertPeer, erasePeer]

theorem connection (h : Step addressing mesh event mesh') {c : Nat}
    (hc : mesh.connection c = some conn) :
    ∃ conn', mesh'.connection c = some conn' ∧ Evolves mesh event c conn conn' := by
  obtain ⟨hlt, -⟩ := List.getElem?_eq_some_iff.mp hc
  have hc' := List.getElem?_eq_getElem (lt_of_lt_of_le hlt h.length_le)
  rcases h.origin c _ hc' with ⟨conn₀, hc₀, hevolves⟩ | ⟨heq, -⟩
  · obtain rfl := Option.some.inj (hc₀.symm.trans hc)
    exact ⟨_, hc', hevolves⟩
  · omega

theorem place (h : Step addressing mesh event mesh')
    (hp : mesh.place socket = some (node, id)) : mesh'.place socket = some (node, id) := by
  obtain ⟨conn, hc, rfl, rfl⟩ := exists_connection_of_place hp
  obtain ⟨conn', hc', hevolves⟩ := h.connection hc
  rw [place_of_connection hc', hevolves.node, Connection.peer, hevolves.node]
  rfl

theorem stage (h : Step addressing mesh event mesh') {stage : Stage}
    (hs : mesh.stage socket = some stage) :
    mesh'.stage socket = some stage ∨ ∃ conn stage', mesh.connection socket.connection = some conn ∧
      mesh'.stage socket = some stage' ∧ Moves conn event socket stage' := by
  obtain ⟨conn, hc, rfl⟩ := exists_connection_of_stage hs
  obtain ⟨conn', hc', hevolves⟩ := h.connection hc
  rw [stage_of_connection hc']
  rcases hevolves.stage socket.side with heq | hmoves
  · exact .inl (congrArg some heq)
  · exact .inr ⟨conn, _, hc, rfl, hmoves⟩

/-- What a node has stored under an id changes when a socket between the two stores its
peer or removes it. -/
theorem lookup (h : Step addressing mesh event mesh') (node id : NodeId) :
    (mesh'.peers node).lookup id = (mesh.peers node).lookup id ∨
      (∃ socket conn, event = .storePeer socket ∧
        mesh.connection socket.connection = some conn ∧ conn.node socket.side = node ∧
        conn.peer socket.side = id ∧
        (mesh'.peers node).lookup id = some (handle addressing conn socket)) ∨
      ∃ socket, event = .removePeer socket ∧ mesh.place socket = some (node, id) ∧
        (mesh'.peers node).lookup id = none := by
  cases h with
  | @storePeer s conn known hc hstage hack =>
      have heq := lookup_insertPeer mesh (conn.node s.side) (handle addressing conn s)
        node id
      rw [nodeId_handle] at heq
      by_cases hat : node = conn.node s.side ∧ id = conn.peer s.side
      · rw [if_pos hat] at heq
        exact .inr (.inl ⟨s, conn, rfl, hc, hat.1.symm, hat.2.symm, heq⟩)
      · rw [if_neg hat] at heq
        exact .inl heq
  | @removePeer s conn hc hstage =>
      have heq := lookup_erasePeer mesh (conn.node s.side) (conn.peer s.side) node id
      by_cases hat : node = conn.node s.side ∧ id = conn.peer s.side
      · rw [if_pos hat] at heq
        exact .inr (.inr ⟨s, rfl, by rw [hat.1, hat.2, place_of_connection hc], heq⟩)
      · rw [if_neg hat] at heq
        exact .inl heq
  | _ => exact .inl rfl

theorem stored (h : Step addressing mesh event mesh') (node id : NodeId) :
    mesh'.stored node id = mesh.stored node id ∨
      (∃ socket, event = .storePeer socket ∧ mesh.place socket = some (node, id) ∧
        mesh'.stored node id = some socket) ∨
      ∃ socket, event = .removePeer socket ∧ mesh.place socket = some (node, id) ∧
        mesh'.stored node id = none := by
  unfold Mesh.stored
  rcases h.lookup node id with hsame | ⟨s, conn, he, hc, rfl, rfl, hl⟩ | ⟨s, he, hplace, hl⟩
  · exact .inl (by rw [hsame])
  · exact .inr (.inl ⟨s, he, place_of_connection hc, by rw [hl]; rfl⟩)
  · exact .inr (.inr ⟨s, he, hplace, by rw [hl]; rfl⟩)

theorem storePeer_stored (h : Step addressing mesh (.storePeer socket) mesh')
    (hp : mesh.place socket = some (node, id)) :
    mesh'.stored node id = some socket ∧ mesh'.stage socket = some .reading := by
  cases h with
  | @storePeer _ conn known hc hstage hack =>
      obtain ⟨rfl, rfl⟩ : conn.node socket.side = node ∧ conn.peer socket.side = id := by
        simpa [place_of_connection hc] using hp
      refine ⟨?_, ?_⟩
      · rw [stored_setConnection, Mesh.stored, lookup_insertPeer, if_pos ⟨rfl, rfl⟩]
        rfl
      · rw [Mesh.stage, connection_setConnection (by rwa [connection_insertPeer]), if_pos rfl,
          Option.map_some, Connection.stage_startReading, if_pos rfl]

theorem removePeer_stage (h : Step addressing mesh (.removePeer socket) mesh') :
    mesh.stage socket = some .ended := by
  cases h with
  | removePeer hc hstage => rw [stage_of_connection hc, hstage]

theorem storePeer_stage (h : Step addressing mesh (.storePeer socket) mesh') :
    mesh.stage socket = some .handshake := by
  cases h with
  | storePeer hc hstage => rw [stage_of_connection hc, hstage]

theorem removePeer_stored (h : Step addressing mesh (.removePeer socket) mesh')
    (hp : mesh.place socket = some (node, id)) : mesh'.stored node id = none := by
  cases h with
  | @removePeer _ conn hc hstage =>
      obtain ⟨rfl, rfl⟩ : conn.node socket.side = node ∧ conn.peer socket.side = id := by
        simpa [place_of_connection hc] using hp
      rw [stored_setConnection, Mesh.stored, lookup_erasePeer, if_pos ⟨rfl, rfl⟩]
      rfl

end Step

end Mesh

end P2pPbft
