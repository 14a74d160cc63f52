/-
One node among strangers: the connection tasks of `network.rs` with the message loop of
`main.rs`.

`P2pPbft/Connections.lean` has nodes at both ends of a connection.  Here there is one node,
and what comes over a stream can be anything; an id in a handshake is any string.  At the
info level, which `main` sets, some log lines cut an id after its first sixteen bytes, and
`&id[..16]` panics where there is no such place.  A panic is the end of the task it happens
in, and the end of the node if that is the main task: the message loop, or `start_node`
before it, which waits for `Network::connect_to_peer`.

What the node sends is left out.
-/
import P2pPbft.Startup
import P2pPbft.Connections
import P2pPbft.Replica

namespace P2pPbft

/-- Which function runs a session. -/
inductive Origin
  /-- `handle_incoming_connection` -/
  | incoming
  /-- One of the two `connect_to_peer`s. -/
  | dialed (caller : Caller)
  deriving DecidableEq

/-- Whether its log lines cut the id of the peer; those of `NetworkHandle` do not. -/
def Origin.cutsId : Origin → Bool
  | .dialed .handle => false
  | _ => true

/-- How far the task of a session is. -/
inductive Session.Stage
  /-- It waits for the handshake, or for the ack. -/
  | greeting
  /-- The handshake of an incoming connection has come, and is to be answered. -/
  | greeted (peer : NodeId)
  /-- The peer is stored, and `peer_reader` runs. -/
  | reading (peer : NodeId)
  /-- `peer_reader` has returned, and the peer is still to be removed. -/
  | ended (peer : NodeId)
  | closed
  | panicked
  deriving DecidableEq

/-- One connection of the node. -/
structure Session where
  origin : Origin
  /-- The address that was dialed or accepted, and later that of the peer. -/
  address : String
  stage : Session.Stage
  /-- The known peers that the loop of `Network::connect_to_peer` has still to look at. -/
  toDiscover : List (NodeId × String)
  deriving DecidableEq

/-- A log line that cuts an id. -/
inductive LogLine
  /-- `✓ Peer connected` -/
  | connected (origin : Origin)
  /-- `✗ Peer disconnected` -/
  | disconnected (origin : Origin)
  /-- `Discovered new peer` -/
  | discovered
  /-- `Received .. from` -/
  | received
  /-- `Error processing message from` -/
  | processed
  deriving DecidableEq

/-- Whether the main task writes it. -/
def LogLine.inMain : LogLine → Bool
  | .connected origin => origin = .dialed .network
  | .disconnected _ => false
  | .discovered | .received | .processed => true

/-- A node: its peer table, its connections, the messages that wait for the message loop,
its consensus state, and the log lines it has panicked in. -/
structure Host where
  nodeId : NodeId
  peers : Table NodeId PeerInfo
  sessions : List Session
  inbox : List (NodeId × NetworkMessage)
  state : PbftState
  panics : List LogLine
  deriving DecidableEq

/-- The address of an incoming peer: the host it connects from, and the port it listens on. -/
def peerAddress (address : String) (peerPort : UInt16) : String :=
  String.ofList (address.toList.takeWhile (· ≠ ':')) ++ ":" ++ toString peerPort

namespace Host

def new (nodeId : NodeId) (state : PbftState) : Host where
  nodeId := nodeId
  peers := ∅
  sessions := []
  inbox := []
  state := state
  panics := []

variable (host : Host)

/-- The main task is alive. -/
def running : Bool := host.panics.all fun line => !line.inMain

def setSession (i : Nat) (session : Session) : Host :=
  { host with sessions := host.sessions.set i session }

/-- A new connection, on which the handshake is waited for. -/
def addSession (origin : Origin) (address : String) : Host :=
  { host with sessions := host.sessions ++ [⟨origin, address, .greeting, []⟩] }

/-- A log line panics, and this is what becomes of the session. -/
def fail (i : Nat) (session : Session) (line : LogLine) : Host :=
  { host.setSession i session with panics := host.panics ++ [line] }

/-- Store the peer, log it and start the reader, as `handle_incoming_connection` does after
its ack and both `connect_to_peer`s do after that of the peer.  The peers in the ack are for
`Network::connect_to_peer` alone. -/
def storePeer (i : Nat) (session : Session) (peer : NodeId) (knownPeers : List (NodeId × String)) :
    Host :=
  let stored := { host with peers := host.peers.insert peer ⟨peer, session.address⟩ }
  if session.origin.cutsId = true ∧ ¬ Shortens peer then
    stored.fail i { session with stage := .panicked } (.connected session.origin)
  else
    stored.setSession i
      { session with
        stage := .reading peer
        toDiscover := if session.origin = .dialed .network then knownPeers else [] }

/-- `receive_message` returns a message. -/
def receive (i : Nat) (message : NetworkMessage) : Option Host :=
  host.sessions[i]?.bind fun session =>
    match session.stage with
    | .greeting =>
      match session.origin, message with
      | .incoming, .handshake peer port =>
        some (host.setSession i
          { session with address := peerAddress session.address port, stage := .greeted peer })
      | .dialed _, .handshakeAck peer knownPeers =>
        some (host.storePeer i session peer knownPeers)
      -- Expected handshake, or an invalid handshake response.
      | _, _ => some (host.setSession i { session with stage := .closed })
    | .reading peer => some { host with inbox := host.inbox ++ [(peer, message)] }
    | _ => none

/-- `handle_incoming_connection` has sent its ack. -/
def ackSent (i : Nat) : Option Host :=
  host.sessions[i]?.bind fun session =>
    match session.stage with
    | .greeted peer => some (host.storePeer i session peer [])
    | _ => none

/-- Sending or receiving fails, or the message cannot be decoded. -/
def streamFails (i : Nat) : Option Host :=
  host.sessions[i]?.bind fun session =>
    match session.stage with
    | .greeting | .greeted _ => some (host.setSession i { session with stage := .closed })
    | .reading peer => some (host.setSession i { session with stage := .ended peer })
    | _ => none

/-- The reader has returned: remove the peer and log that. -/
def removePeer (i : Nat) : Option Host :=
  host.sessions[i]?.bind fun session =>
    match session.stage with
    | .ended peer =>
      let removed := { host with peers := host.peers.erase peer }
      if session.origin.cutsId = true ∧ ¬ Shortens peer then
        some (removed.fail i { session with stage := .panicked } (.disconnected session.origin))
      else some (removed.setSession i { session with stage := .closed })
    | _ => none

/-- One turn of the loop at the end of `Network::connect_to_peer`; `reached` says whether
somebody answers at the address. -/
def discover (i : Nat) (reached : Bool) : Option Host :=
  host.sessions[i]?.bind fun session =>
    match session.toDiscover with
    | [] => none
    | (peer, address) :: rest =>
      let next := host.setSession i { session with toDiscover := rest }
      -- Skip if we already have this peer or if it's ourselves.
      if peer = host.nodeId ∨ peer ∈ host.peers.keys then some next
      else if ¬ Shortens peer then
        some (host.fail i { session with toDiscover := [] } .discovered)
      else some (if reached then next.addSession (.dialed .handle) address else next)

variable [Crypto]

/-- One turn of the message loop.  A message from a peer is handled at once, and an error is
logged; pings and the rest do nothing here. -/
def processMessage (now : Instant) : Option Host :=
  match host.inbox with
  | [] => none
  | (peer, .consensus message) :: rest =>
    let next := { host with inbox := rest }
    if ¬ Shortens peer then some { next with panics := host.panics ++ [.received] }
    else
      let out := host.state.process (.processMessage message) now
      let next := { next with state := out.state }
      match out.result with
      | .err _ =>
        if ¬ Shortens peer then some { next with panics := host.panics ++ [.processed] }
        else some next
      | _ => some next
  | _ :: rest => some { host with inbox := rest }

inductive Event
  | accept (address : String)
  | connectToPeer (address : String)
  | receive (session : Nat) (message : NetworkMessage)
  | ackSent (session : Nat)
  | streamFails (session : Nat)
  | removePeer (session : Nat)
  | discover (session : Nat) (reached : Bool)
  | processMessage (now : Instant)
  /-- A request from the command line. -/
  | submit (request : Request) (now : Instant)
  deriving DecidableEq

/-- What the event does, if it can happen; nothing can once the main task is over. -/
def act (event : Event) : Option Host :=
  if host.running = false then none
  else
    match event with
    | .accept address => some (host.addSession .incoming address)
    | .connectToPeer address => some (host.addSession (.dialed .network) address)
    | .receive i message => host.receive i message
    | .ackSent i => host.ackSent i
    | .streamFails i => host.streamFails i
    | .removePeer i => host.removePeer i
    | .discover i reached => host.discover i reached
    | .processMessage now => host.processMessage now
    | .submit request now =>
      some { host with state := (host.state.process (.handleRequest request) now).state }

end Host

end P2pPbft
