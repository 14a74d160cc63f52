/-
Replicas on links that keep their order.

A network of `P2pPbft/Cluster.lean` delivers messages in any order and as often as it likes.
What `main.rs` sets up does less.  Two nodes are joined by a stream, so of what one sends
the other nothing overtakes anything, and nothing comes twice.  The main loop finishes with
a message before it takes the next one.  And nobody calls `start_view_change` or
`check_timeout`: the task called a timeout checker only writes a status line.

So besides the network there is only one thing to know: how much of what a node has been
sent by each other node it has taken.
-/
import P2pPbft.Sample

namespace P2pPbft

/-- The consensus message an outgoing message takes to the node, if it does. -/
def OutgoingMessage.to? (target : NodeId) : OutgoingMessage → Option ConsensusMessage
  | .broadcast (.consensus message) => some message
  | .sendTo node (.consensus message) => if node = target then some message else none
  | _ => none

/-- What the replica has sent the node, oldest first. -/
def Replica.sentTo (r : Replica) (target : NodeId) : List ConsensusMessage :=
  r.outgoing.filterMap (OutgoingMessage.to? target)

/-- A network, and how many messages each node (the first) has taken of each other. -/
structure Links where
  net : Net
  taken : NodeId → NodeId → Nat

namespace Links

/-- An event at a node, and where the message it takes comes from. -/
structure Event where
  source : Option NodeId
  event : P2pPbft.Event
  deriving DecidableEq

def init [Crypto] (cluster : Cluster) : Links where
  net := cluster.init
  taken := fun _ _ => 0

variable (links : Links)

/-- The main loop waits for a request or a message. -/
def Idle (id : NodeId) : Prop := (links.net id).tasks = []

instance (id : NodeId) : Decidable (links.Idle id) :=
  inferInstanceAs (Decidable ((links.net id).tasks = []))

/-- The next message on the link. -/
def upcoming (node source : NodeId) : Option ConsensusMessage :=
  ((links.net source).sentTo node)[links.taken node source]?

/-- What the node has taken of the other, oldest first. -/
def heard (node source : NodeId) : List ConsensusMessage :=
  ((links.net source).sentTo node).take (links.taken node source)

/-- What a main loop does: take a request from the command line, take the next message of
another node, or go on with what it has taken. -/
def Admits (e : Event) : Prop :=
  match e.source, e.event.action with
  | none, .call (.handleRequest _) _ => links.Idle e.event.node
  | none, .resume index _ => index = 0
  | some source, .call (.processMessage message) _ =>
    source ≠ e.event.node ∧ links.Idle e.event.node ∧
      links.upcoming e.event.node source = some message
  | _, _ => False

instance (e : Event) : Decidable (links.Admits e) := by
  unfold Admits
  split <;> infer_instance

/-- One more message taken. -/
def take (node : NodeId) : Option NodeId → NodeId → NodeId → Nat
  | none => links.taken
  | some source => Function.update links.taken node
      (Function.update (links.taken node) source (links.taken node source + 1))

variable [Crypto]

def act (e : Event) : Option Links :=
  if links.Admits e then
    (links.net.act e.event).map fun net => ⟨net, links.take e.event.node e.source⟩
  else none

/-- A step in which only the nodes that are up take part. -/
def Step (live : Finset NodeId) (links : Links) (e : Event) (links' : Links) : Prop :=
  (e.event.node ∈ live ∧ ∀ source ∈ e.source, source ∈ live) ∧ links.act e = some links'

/-- The step as a function. -/
def next (live : Finset NodeId) (links : Links) (e : Event) : Option Links :=
  if e.event.node ∈ live ∧ ∀ source ∈ e.source, source ∈ live then links.act e else none

theorem next_eq_some {live : Finset NodeId} {links links' : Links} {e : Event} :
    links.next live e = some links' ↔ links.Step live e links' := by
  unfold next Step
  by_cases h : e.event.node ∈ live ∧ ∀ source ∈ e.source, source ∈ live <;> simp [h]

end Links

/-! ### Events on the links -/

namespace Sample

/-- A request is typed in at one of the four nodes. -/
def typeIn (i : Fin 4) (request : Request) : Links.Event := ⟨none, submit i request⟩

def goOn (i : Fin 4) : Links.Event := ⟨none, resume i 0⟩

/-- One of the nodes takes the next message of another and finishes with it. -/
def takeFrom (source i : Fin 4) (message : ConsensusMessage) (steps : Nat) : List Links.Event :=
  ⟨some (node source), deliver i message⟩ :: List.replicate steps (goOn i)

end Sample

end P2pPbft
