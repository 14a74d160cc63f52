/-
The tasks of the nodes, and the streams between them.

`P2pPbft/Links.lean` has a link between any two nodes.  This is what a link is made of.
A node is its main loop, the task that reads the command line, the one that hands outgoing
messages to the peers and the one that logs what is committed; and for every connection
there are a writer at one end and a reader at the other.  They talk over channels, each
with room for so many messages, and whoever sends on a full one waits.  In between there
are bytes on a stream, written and read in pieces of any size.

The handshakes are over when a run starts, and no connection is opened or accepted during
it: the listener and the discovery, which never end, are in `P2pPbft/Connections.lean`.  So
a run here says nothing of a node whose connection comes up when the others are already at
work, and which has missed what they broadcast.  A reader or a writer may end at any time,
for whatever reason; what a reader leaves behind is taken off the table.

Node ids are the hex of a public key, so the log lines that cut one after 16 characters
always can.
-/
import P2pPbft.Framing
import P2pPbft.Links

namespace P2pPbft

/-! ### The room in the channels -/

/-- `outgoing_tx` -/
def outgoingRoom : Nat := 1000

/-- `committed_tx` -/
def committedRoom : Nat := 1000

/-- `cli_request_tx` -/
def requestRoom : Nat := 100

/-- `message_tx` of the network -/
def inboxRoom : Nat := 1000

/-- The `sender` of a peer handle -/
def peerRoom : Nat := 100

/-! ### One direction of a connection -/

/-- From the channel of a peer handle to the reader at the other node. -/
structure Pipe where
  channel : List NetworkMessage
  /-- What `peer_writer` has still to write of the message it is sending. -/
  writing : List UInt8
  stream : List UInt8
  /-- What `peer_reader` has read and not used yet. -/
  buffer : List UInt8
  /-- A message that waits for room in the inbox. -/
  arrived : Option NetworkMessage
  /-- `peer_writer` runs. -/
  writer : Bool
  /-- `peer_reader` runs. -/
  reader : Bool
  deriving DecidableEq

namespace Pipe

/-- Nothing is on the way; the tasks run if there is a connection. -/
def new (connected : Bool) : Pipe where
  channel := []
  writing := []
  stream := []
  buffer := []
  arrived := none
  writer := connected
  reader := connected

variable (pipe : Pipe)

/-- `PeerHandle::send`, which waits where there is no room.  Nothing receives what is sent
to a writer that has ended, and the error is logged. -/
def send (message : NetworkMessage) : Option Pipe :=
  if pipe.writer = false then some pipe
  else if pipe.channel.length < peerRoom then
    some { pipe with channel := pipe.channel ++ [message] }
  else none

/-- `peer_writer` ends, and its channel with it. -/
def stopWriter : Pipe := { pipe with channel := [], writer := false }

/-- `peer_writer` takes the next message. -/
def frame (bincode : Bincode NetworkMessage) : Option Pipe :=
  if pipe.writer = true ∧ pipe.writing = [] then
    match pipe.channel with
    | [] => none
    | message :: rest =>
      match bincode.sendMessage [] message with
      | .ok bytes => some { pipe with channel := rest, writing := bytes }
      | .error _ => some pipe.stopWriter
  else none

/-- Some more bytes fit into the stream. -/
def write (window k : Nat) : Option Pipe :=
  if pipe.writer = true ∧ 0 < k ∧ k ≤ pipe.writing.length ∧ pipe.stream.length + k ≤ window then
    some { pipe with
      writing := pipe.writing.drop k
      stream := pipe.stream ++ pipe.writing.take k }
  else none

/-- Some more bytes have come. -/
def read (k : Nat) : Option Pipe :=
  if pipe.reader = true ∧ pipe.arrived = none ∧ 0 < k ∧ k ≤ pipe.stream.length then
    some { pipe with
      stream := pipe.stream.drop k
      buffer := pipe.buffer ++ pipe.stream.take k }
  else none

/-- `receive_message` returns.  It waits while there are not enough bytes, and another error
is the end of the reader. -/
def receive (bincode : Bincode NetworkMessage) : Option Pipe :=
  if pipe.reader = true ∧ pipe.arrived = none then
    match bincode.receiveMessage pipe.buffer with
    | .ok (message, rest) => some { pipe with buffer := rest, arrived := some message }
    | .error (.io .unexpectedEof) => none
    | .error _ => some { pipe with reader := false }
  else none

end Pipe

/-! ### One node -/

structure Machine where
  replica : Replica
  /-- How many of the outgoing messages have been received from their channel. -/
  dispatched : Nat
  /-- How many of the committed requests have been received from theirs. -/
  logged : Nat
  requests : List Request
  inbox : List (NodeId × NetworkMessage)
  /-- The pong the main loop is sending. -/
  answer : Option (NodeId × NetworkMessage)
  /-- To whom the outgoing task has still to send what. -/
  sending : List (NodeId × NetworkMessage)
  peers : Finset NodeId
  deriving DecidableEq

namespace Machine

def new (state : PbftState) (peers : Finset NodeId) : Machine where
  replica := Replica.new state
  dispatched := 0
  logged := 0
  requests := []
  inbox := []
  answer := none
  sending := []
  peers := peers

variable (machine : Machine)

/-- The main loop waits for a request or a message. -/
def Waits : Prop := machine.replica.tasks = [] ∧ machine.answer = none

instance : Decidable machine.Waits := inferInstanceAs (Decidable (_ ∧ _))

/-- What the main loop sends next has room in its channel, if it is about to send. -/
def HasRoom : Prop :=
  match machine.replica.tasks with
  | ⟨.outgoing _ :: _, _, _⟩ :: _ =>
    machine.replica.outgoing.length - machine.dispatched < outgoingRoom
  | ⟨.committed _ :: _, _, _⟩ :: _ =>
    machine.replica.committed.length - machine.logged < committedRoom
  | _ => True

instance : Decidable machine.HasRoom := by
  unfold HasRoom
  split <;> infer_instance

/-- A request from the command line. -/
def typeIn (request : Request) : Option Machine :=
  if machine.requests.length < requestRoom then
    some { machine with requests := machine.requests ++ [request] }
  else none

/-- To whom an outgoing message goes; the peers come in the order in which the map has them. -/
def addressees (order : List NodeId) : OutgoingMessage → Option (List (NodeId × NetworkMessage))
  | .broadcast message =>
    if order.Nodup ∧ order.toFinset = machine.peers then some (order.map fun id => (id, message))
    else none
  | .sendTo target message => some (if target ∈ machine.peers then [(target, message)] else [])

/-- The outgoing task receives the next message. -/
def dispatch (order : List NodeId) : Option Machine :=
  if machine.sending = [] then
    machine.replica.outgoing[machine.dispatched]?.bind fun out =>
      (machine.addressees order out).map fun sending =>
        { machine with dispatched := machine.dispatched + 1, sending := sending }
  else none

/-- The committed request handler receives the next request and logs it. -/
def log : Option Machine :=
  if machine.logged < machine.replica.committed.length then
    some { machine with logged := machine.logged + 1 }
  else none

variable [Crypto]

/-- The main loop takes a request. -/
def takeRequest (now : Instant) : Option Machine :=
  if machine.Waits then
    match machine.requests with
    | [] => none
    | request :: rest =>
      (machine.replica.act (.call (.handleRequest request) now)).map fun replica =>
        { machine with replica := replica, requests := rest }
  else none

/-- The main loop of the node takes a message. -/
def takeMessage (id : NodeId) (now : Instant) : Option Machine :=
  if machine.Waits then
    match machine.inbox with
    | [] => none
    | (_, .consensus message) :: rest =>
      (machine.replica.act (.call (.processMessage message) now)).map fun replica =>
        { machine with replica := replica, inbox := rest }
    | (peer, .ping _ timestamp) :: rest =>
      some { machine with
        inbox := rest
        answer := if peer ∈ machine.peers then some (peer, .pong id timestamp) else none }
    | _ :: rest => some { machine with inbox := rest }
  else none

/-- The main loop goes on with the handler in progress. -/
def goOn (now : Instant) : Option Machine :=
  if machine.HasRoom then
    (machine.replica.act (.resume 0 now)).map fun replica => { machine with replica := replica }
  else none

end Machine

/-! ### All of them -/

/-- All nodes, and the pipe from each (the first) to each other. -/
structure Deployment where
  machines : NodeId → Machine
  pipes : NodeId → NodeId → Pipe

namespace Deployment

inductive Event
  | typeIn (node : NodeId) (request : Request)
  | takeRequest (node : NodeId) (now : Instant)
  | takeMessage (node : NodeId) (now : Instant)
  | goOn (node : NodeId) (now : Instant)
  | answer (node : NodeId)
  | dispatch (node : NodeId) (order : List NodeId)
  | handOver (node : NodeId)
  | log (node : NodeId)
  | frame (source target : NodeId)
  | write (source target : NodeId) (k : Nat)
  | read (source target : NodeId) (k : Nat)
  | receive (source target : NodeId)
  | enqueue (source target : NodeId)
  | stopWriter (source target : NodeId)
  | stopReader (source target : NodeId)
  | removePeer (node peer : NodeId)
  deriving DecidableEq

/-- Whose task it is. -/
def Event.node : Event → NodeId
  | .typeIn node _ | .takeRequest node _ | .takeMessage node _ | .goOn node _ | .answer node
  | .dispatch node _ | .handOver node | .log node => node
  | .frame source _ | .write source _ _ | .stopWriter source _ => source
  | .read _ target _ | .receive _ target | .enqueue _ target | .stopReader _ target => target
  | .removePeer node _ => node

/-- A connection fails, for a reason that is not in the program. -/
def Event.isFailure : Event → Bool
  | .stopWriter .. | .stopReader .. => true
  | _ => false

/-- A request is typed in. -/
def Event.isTyped : Event → Bool
  | .typeIn .. => true
  | _ => false

/-- Every node knows some of the others, and is connected to them. -/
def init [Crypto] (cluster : Cluster) (peers : NodeId → Finset NodeId) : Deployment where
  machines := fun id => Machine.new (cluster.initState id) (peers id)
  pipes := fun source target => Pipe.new (target ∈ peers source)

variable (d : Deployment)

def setMachine (id : NodeId) (machine : Machine) : Deployment :=
  { d with machines := Function.update d.machines id machine }

def setPipe (source target : NodeId) (pipe : Pipe) : Deployment :=
  { d with
    pipes := Function.update d.pipes source (Function.update (d.pipes source) target pipe) }

/-- Send a message to a peer. -/
def send (source target : NodeId) (message : NetworkMessage) : Option Deployment :=
  ((d.pipes source target).send message).map (d.setPipe source target)

/-- The main loop sends its pong. -/
def answer (id : NodeId) : Option Deployment :=
  (d.machines id).answer.bind fun (peer, message) =>
    (d.send id peer message).map fun d => d.setMachine id { d.machines id with answer := none }

/-- The outgoing task sends to the next peer. -/
def handOver (id : NodeId) : Option Deployment :=
  match (d.machines id).sending with
  | [] => none
  | (target, message) :: rest =>
    (d.send id target message).map fun d => d.setMachine id { d.machines id with sending := rest }

/-- The reader puts a message into the inbox. -/
def enqueue (source target : NodeId) : Option Deployment :=
  let pipe := d.pipes source target
  let machine := d.machines target
  if pipe.reader = true ∧ machine.inbox.length < inboxRoom then
    pipe.arrived.map fun message =>
      (d.setPipe source target { pipe with arrived := none }).setMachine target
        { machine with inbox := machine.inbox ++ [(source, message)] }
  else none

/-- Where the reader has ended, its peer is removed. -/
def removePeer (id peer : NodeId) : Option Deployment :=
  let machine := d.machines id
  if (d.pipes peer id).reader = false ∧ peer ∈ machine.peers then
    some (d.setMachine id { machine with peers := machine.peers.erase peer })
  else none

variable [Crypto] (bincode : Bincode NetworkMessage) (window : Nat)

/-- What the event does, if it can happen. -/
def act : Event → Option Deployment
  | .typeIn id request => ((d.machines id).typeIn request).map (d.setMachine id)
  | .takeRequest id now => ((d.machines id).takeRequest now).map (d.setMachine id)
  | .takeMessage id now => ((d.machines id).takeMessage id now).map (d.setMachine id)
  | .goOn id now => ((d.machines id).goOn now).map (d.setMachine id)
  | .answer id => d.answer id
  | .dispatch id order => ((d.machines id).dispatch order).map (d.setMachine id)
  | .handOver id => d.handOver id
  | .log id => (d.machines id).log.map (d.setMachine id)
  | .frame source target =>
    ((d.pipes source target).frame bincode).map (d.setPipe source target)
  | .write source target k =>
    ((d.pipes source target).write window k).map (d.setPipe source target)
  | .read source target k => ((d.pipes source target).read k).map (d.setPipe source target)
  | .receive source target =>
    ((d.pipes source target).receive bincode).map (d.setPipe source target)
  | .enqueue source target => d.enqueue source target
  | .stopWriter source target =>
    some (d.setPipe source target (d.pipes source target).stopWriter)
  | .stopReader source target =>
    some (d.setPipe source target { d.pipes source target with reader := false })
  | .removePeer id peer => d.removePeer id peer

/-- What is framed is shorter than the limit. -/
def Fits (limit : Nat) : Event → Prop
  | .frame source target => ∀ message ∈ (d.pipes source target).channel.head?,
      ∀ data ∈ bincode.serialize message, data.length < limit
  | _ => True

instance (limit : Nat) (e : Event) : Decidable (d.Fits bincode limit e) := by
  unfold Fits
  split <;> infer_instance

/-- A step in which only the nodes that are up take part, and no message is longer than its
length can say. -/
def Step (live : Finset NodeId) (d : Deployment) (e : Event) (d' : Deployment) : Prop :=
  (e.node ∈ live ∧ d.Fits bincode (2 ^ 32) e) ∧ d.act bincode window e = some d'

/-- The step as a function. -/
def next (live : Finset NodeId) (d : Deployment) (e : Event) : Option Deployment :=
  if e.node ∈ live ∧ d.Fits bincode (2 ^ 32) e then d.act bincode window e else none

theorem next_eq_some {live : Finset NodeId} {d d' : Deployment} {e : Event} :
    d.next bincode window live e = some d' ↔ d.Step bincode window live e d' := by
  unfold next Step
  by_cases h : e.node ∈ live ∧ d.Fits bincode (2 ^ 32) e <;> simp [h]

end Deployment

end P2pPbft
