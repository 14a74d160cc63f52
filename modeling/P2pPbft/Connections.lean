/-
The connections of `network.rs`: handshakes, peer tables, readers and writers.

Every node runs many tasks side by side, and what one of them does between two points
where it waits is one step here.  A task is where its connection is: either end of a
connection is at some stage, and what its tasks can do next depends on the stage, on the
peer tables and on what the other end has done.

A stored handle owns the sending end of a channel.  When the table lets go of it the
channel closes, the writer that drains it ends, and the stream ends in that direction.

Node ids are the hex of a public key, so the log lines that cut one after 16 characters
always can.  What happens where they are not is in `P2pPbft/Sessions.lean`.
-/
import P2pPbft.Message
import P2pPbft.Lib.Table
import Mathlib.Data.Finset.Image
import Mathlib.Logic.Function.Basic

namespace P2pPbft

/-- Information about a connected peer. -/
structure PeerInfo where
  nodeId : NodeId
  address : String
  deriving DecidableEq

/-- The two ends of a connection: who connected, and who accepted. -/
inductive Side
  | dialer
  | listener
  deriving DecidableEq

def Side.other : Side → Side
  | dialer => listener
  | listener => dialer

/-- One end of one connection. -/
structure Socket where
  connection : Nat
  side : Side
  deriving DecidableEq

/-- Handle for sending messages to a peer; `sender` is the channel that the writer of
this socket drains. -/
structure PeerHandle where
  info : PeerInfo
  sender : Socket
  deriving DecidableEq

/-- Which of the two `connect_to_peer`s has dialed: `Network`'s or `NetworkHandle`'s. -/
inductive Caller
  | network
  | handle
  deriving DecidableEq

/-- How far one end of a connection is. -/
inductive Stage
  /-- The peer is not stored yet. -/
  | handshake
  /-- `peer_reader` runs. -/
  | reading
  /-- `peer_reader` has returned, and the peer is still to be removed. -/
  | ended
  | closed
  deriving DecidableEq

structure Endpoint where
  stage : Stage
  /-- Someone holds the write half: the handshake, and `peer_writer` after it. -/
  writing : Bool
  deriving DecidableEq

structure Connection where
  caller : Caller
  dialer : NodeId
  listener : NodeId
  /-- The address that was dialed. -/
  address : String
  ends : Side → Endpoint
  /-- The peers that the `HandshakeAck` names, once it is sent. -/
  knownPeers : Option (Finset (NodeId × String))
  /-- Those of them that the loop of `Network::connect_to_peer` has still to look at. -/
  toDiscover : Finset (NodeId × String)
  /-- The stream has failed. -/
  broken : Bool

namespace Connection

/-- A new stream, with the dialer's `Handshake` on its way. -/
def new (caller : Caller) (dialer listener : NodeId) (address : String) : Connection where
  caller := caller
  dialer := dialer
  listener := listener
  address := address
  ends := fun _ => ⟨.handshake, true⟩
  knownPeers := none
  toDiscover := ∅
  broken := false

variable (conn : Connection)

/-- The node at one end. -/
def node : Side → NodeId
  | .dialer => conn.dialer
  | .listener => conn.listener

/-- The node at the other end. -/
def peer (side : Side) : NodeId := conn.node side.other

def stage (side : Side) : Stage := (conn.ends side).stage

def writing (side : Side) : Bool := (conn.ends side).writing

def setStage (side : Side) (stage : Stage) : Connection :=
  { conn with ends := Function.update conn.ends side ⟨stage, conn.writing side⟩ }

/-- Drop the write half. -/
def stopWriting (side : Side) : Connection :=
  { conn with ends := Function.update conn.ends side ⟨conn.stage side, false⟩ }

/-- What is left to discover once an end has stored its peer.  `NetworkHandle` ignores the
peers in the ack. -/
def discovered : Side → Finset (NodeId × String)
  | .dialer => match conn.caller with
    | .network => conn.knownPeers.getD ∅
    | .handle => ∅
  | .listener => conn.toDiscover

/-- The peer is stored, and the reader starts. -/
def startReading (side : Side) : Connection :=
  { conn.setStage side .reading with toDiscover := conn.discovered side }

end Connection

/-- Where nodes listen. -/
structure Addressing where
  /-- Who answers at an address, if anyone does. -/
  listener : String → Option NodeId
  /-- The address a node is given by those who accept it: the host it connects from, and
  the port in its handshake. -/
  address : NodeId → String

/-- The peer tables of all nodes, and all connections there have been. -/
structure Mesh where
  peers : NodeId → Table NodeId PeerHandle
  connections : List Connection

namespace Mesh

def empty : Mesh where
  peers := fun _ => ∅
  connections := []

variable (addressing : Addressing) (mesh : Mesh)

def connection (c : Nat) : Option Connection := mesh.connections[c]?

def setConnection (c : Nat) (conn : Connection) : Mesh :=
  { mesh with connections := mesh.connections.set c conn }

def addConnection (conn : Connection) : Mesh :=
  { mesh with connections := mesh.connections ++ [conn] }

/-- The socket of the handle that a node has stored under an id. -/
def stored (node id : NodeId) : Option Socket := ((mesh.peers node).lookup id).map PeerHandle.sender

/-- Whose end a socket is, and whom it leads to. -/
def place (socket : Socket) : Option (NodeId × NodeId) :=
  (mesh.connection socket.connection).map fun conn => (conn.node socket.side, conn.peer socket.side)

def stage (socket : Socket) : Option Stage :=
  (mesh.connection socket.connection).map fun conn => conn.stage socket.side

def writing (socket : Socket) : Option Bool :=
  (mesh.connection socket.connection).map fun conn => conn.writing socket.side

/-- `peers.write().insert(..)`. -/
def insertPeer (node : NodeId) (handle : PeerHandle) : Mesh :=
  { mesh with
    peers := Function.update mesh.peers node ((mesh.peers node).insert handle.info.nodeId handle) }

/-- `peers.write().remove(..)`. -/
def erasePeer (node id : NodeId) : Mesh :=
  { mesh with peers := Function.update mesh.peers node ((mesh.peers node).erase id) }

/-- What a `HandshakeAck` of a node says: the id and the address of every peer. -/
def knownPeers (node : NodeId) : Finset (NodeId × String) :=
  ((mesh.peers node).values.map fun p => (p.info.nodeId, p.info.address)).toFinset

/-- Connect and send the handshake, as both `connect_to_peer`s begin. -/
def dial (caller : Caller) (dialer : NodeId) (address : String) : Option Mesh :=
  (addressing.listener address).map fun listener =>
    mesh.addConnection (.new caller dialer listener address)

/-- A step of a task of connection `c`, for which it has to be ready. -/
def step (c : Nat) (ready : Connection → Prop) [DecidablePred ready]
    (effect : Connection → Mesh) : Option Mesh :=
  (mesh.connection c).bind fun conn => if ready conn then some (effect conn) else none

/-- `handle_incoming_connection` up to its ack. -/
def sendAck (c : Nat) : Option Mesh :=
  mesh.step c (fun conn => conn.stage .listener = .handshake ∧ conn.knownPeers = none) fun conn =>
    mesh.setConnection c { conn with knownPeers := some (mesh.knownPeers conn.listener) }

/-- The handle that one end of a connection stores. -/
def handle (conn : Connection) (socket : Socket) : PeerHandle where
  info :=
    { nodeId := conn.peer socket.side
      address := match socket.side with
        | .dialer => conn.address
        | .listener => addressing.address conn.dialer }
  sender := socket

/-- Create and store the peer handle, spawn reader and writer: the same in both
`connect_to_peer`s, after the ack has come, and in `handle_incoming_connection`, after it
has been sent. -/
def storePeer (socket : Socket) : Option Mesh :=
  mesh.step socket.connection
    (fun conn => conn.stage socket.side = .handshake ∧ conn.knownPeers.isSome) fun conn =>
    (mesh.insertPeer (conn.node socket.side) (handle addressing conn socket)).setConnection
      socket.connection (conn.startReading socket.side)

/-- One turn of the loop at the end of `Network::connect_to_peer`.  The connection it spawns
is dialed at once; the peer may answer at any later time. -/
def discover (c : Nat) (peer : NodeId × String) : Option Mesh :=
  mesh.step c (fun conn => peer ∈ conn.toDiscover) fun conn =>
    let next := mesh.setConnection c { conn with toDiscover := conn.toDiscover.erase peer }
    -- Skip if we already have this peer or if it's ourselves.
    if peer.1 = conn.dialer ∨ peer.1 ∈ mesh.peers conn.dialer then next
    else (next.dial addressing .handle conn.dialer peer.2).getD next

/-- `peer_reader` meets the end of the stream. -/
def endOfStream (socket : Socket) : Option Mesh :=
  mesh.step socket.connection
    (fun conn => conn.stage socket.side = .reading ∧
      (conn.writing socket.side.other = false ∨ conn.broken = true)) fun conn =>
    mesh.setConnection socket.connection (conn.setStage socket.side .ended)

/-- The reader task removes the peer, by its id. -/
def removePeer (socket : Socket) : Option Mesh :=
  mesh.step socket.connection (fun conn => conn.stage socket.side = .ended) fun conn =>
    (mesh.erasePeer (conn.node socket.side) (conn.peer socket.side)).setConnection
      socket.connection (conn.setStage socket.side .closed)

/-- `rx.recv()` returns `None` in `peer_writer`: no handle with its channel is left. -/
def channelClosed (socket : Socket) : Option Mesh :=
  mesh.step socket.connection
    (fun conn => conn.stage socket.side ≠ .handshake ∧ conn.writing socket.side = true ∧
      mesh.stored (conn.node socket.side) (conn.peer socket.side) ≠ some socket) fun conn =>
    mesh.setConnection socket.connection (conn.stopWriting socket.side)

/-- Sending or receiving fails during the handshake, and the task returns the error. -/
def handshakeFails (socket : Socket) : Option Mesh :=
  mesh.step socket.connection
    (fun conn => conn.stage socket.side = .handshake ∧ conn.broken = true) fun conn =>
    mesh.setConnection socket.connection
      ((conn.setStage socket.side .closed).stopWriting socket.side)

/-- The stream fails. -/
def cut (c : Nat) : Option Mesh :=
  mesh.step c (fun _ => True) fun conn => mesh.setConnection c { conn with broken := true }

/-- `peer_reader` returns for a reason of its own, such as a message it cannot decode. -/
def readerFails (socket : Socket) : Option Mesh :=
  mesh.step socket.connection (fun conn => conn.stage socket.side = .reading) fun conn =>
    mesh.setConnection socket.connection (conn.setStage socket.side .ended)

/-- `peer_writer` returns because it could not send a message. -/
def writerFails (socket : Socket) : Option Mesh :=
  mesh.step socket.connection
    (fun conn => conn.stage socket.side ≠ .handshake ∧ conn.writing socket.side = true) fun conn =>
    mesh.setConnection socket.connection (conn.stopWriting socket.side)

inductive Event
  /-- Somebody calls `Network::connect_to_peer`. -/
  | connectToPeer (node : NodeId) (address : String)
  | sendAck (connection : Nat)
  | storePeer (socket : Socket)
  | discover (connection : Nat) (peer : NodeId × String)
  | endOfStream (socket : Socket)
  | removePeer (socket : Socket)
  | channelClosed (socket : Socket)
  | handshakeFails (socket : Socket)
  | cut (connection : Nat)
  | readerFails (socket : Socket)
  | writerFails (socket : Socket)
  deriving DecidableEq

/-- What the event does, if it can happen. -/
def act : Event → Option Mesh
  | .connectToPeer node address => mesh.dial addressing .network node address
  | .sendAck c => mesh.sendAck c
  | .storePeer socket => mesh.storePeer addressing socket
  | .discover c peer => mesh.discover addressing c peer
  | .endOfStream socket => mesh.endOfStream socket
  | .removePeer socket => mesh.removePeer socket
  | .channelClosed socket => mesh.channelClosed socket
  | .handshakeFails socket => mesh.handshakeFails socket
  | .cut c => mesh.cut c
  | .readerFails socket => mesh.readerFails socket
  | .writerFails socket => mesh.writerFails socket

/-- One event after another. -/
def Acts (mesh : Mesh) (event : Event) (mesh' : Mesh) : Prop :=
  mesh.act addressing event = some mesh'

/-- A connection ends for a reason that is not in the program. -/
def Event.isFailure : Event → Bool
  | .cut _ | .readerFails _ | .writerFails _ => true
  | _ => false

/-- A step that a task takes when it is scheduled, with nobody calling or failing. -/
def Event.isTask : Event → Bool
  | .connectToPeer .. | .cut _ | .readerFails _ | .writerFails _ => false
  | _ => true

/-- No task is between two steps: every one of them waits for something to come. -/
def Settled : Prop :=
  ∀ event : Event, event.isTask = true → mesh.act addressing event = none

/-- The connection is open at this end: the node reads from the peer. -/
def Reads (node id : NodeId) (socket : Socket) : Prop :=
  mesh.place socket = some (node, id) ∧ mesh.stage socket = some .reading

/-- The node has stored the peer from this end, and this end has not removed it yet. -/
def Live (node id : NodeId) (socket : Socket) : Prop :=
  mesh.place socket = some (node, id) ∧
    (mesh.stage socket = some .reading ∨ mesh.stage socket = some .ended)

/-- A peer is stored only where no connection to it is live already. -/
def StoresOnce : Event → Prop
  | .storePeer socket => ∀ node id, mesh.place socket = some (node, id) →
      ∀ other, ¬ mesh.Live node id other
  | _ => True

end Mesh

end P2pPbft
