/-
Replicas on a network.

A network is a replica under each node id; a step is one action of one of them.
No queue of messages in flight is kept.  What can be delivered is anything that
somebody could have sent by then, and it can be delivered any number of times, in
any order, or never, so delay, duplication, reordering and loss need no steps of
their own.

Byzantine replicas have no state either: they are the part of the network that
may deliver whatever it likes, short of a signature no correct replica has made.
-/
import P2pPbft.Replica
import Mathlib.Logic.Function.Basic

namespace P2pPbft

/-- An action at one of the nodes. -/
structure Event where
  node : NodeId
  action : Action
  deriving DecidableEq

/-- A replica under each node id. -/
abbrev Net : Type := NodeId → Replica

variable [Crypto]

/-- Replicas with the keys their ids stand for, set up as `main.rs` and `node.rs` do. -/
structure Cluster where
  replicas : Replicas
  seed : NodeId → Bytes 32
  checkpointInterval : UInt64
  nodup : replicas.ids.Nodup
  publicKey : ∀ id ∈ replicas.ids, (KeyPair.fromSeed (seed id)).publicKeyHex = id

namespace Cluster

variable (cluster : Cluster)

/-- `PbftConfig::new` for the number of replicas. -/
def config : PbftConfig :=
  { PbftConfig.new cluster.replicas.ids.length with
    checkpointInterval := cluster.checkpointInterval }

def members : Finset NodeId := cluster.replicas.ids.toFinset

/-- The state a replica starts in. -/
def initState (id : NodeId) : PbftState :=
  PbftState.new id (KeyPair.fromSeed (cluster.seed id)) cluster.replicas cluster.config 0

/-- The network before anything has happened. -/
def init : Net := fun id => Replica.new (cluster.initState id)

end Cluster

namespace Net

/-- Let one node act. -/
def act (net : Net) (e : Event) : Option Net :=
  ((net e.node).act e.action).map fun r => Function.update net e.node r

/-- A step of a network in which only the events `rules` admits can happen. -/
def Step (rules : Net → Event → Prop) (net : Net) (e : Event) (net' : Net) : Prop :=
  rules net e ∧ net.act e = some net'

/-- The step as a function. -/
def next (rules : Net → Event → Prop) [∀ net e, Decidable (rules net e)] (net : Net)
    (e : Event) : Option Net :=
  if rules net e then net.act e else none

theorem next_eq_some {rules : Net → Event → Prop} [∀ net e, Decidable (rules net e)]
    {net net' : Net} {e : Event} : net.next rules e = some net' ↔ net.Step rules e net' := by
  unfold next Step
  by_cases h : rules net e <;> simp [h]

end Net

/-! ### What can be delivered -/

/-- One of the senders has broadcast the message, or sent it to the node itself. -/
def SentTo (senders : Finset NodeId) (net : Net) (node : NodeId) (message : ConsensusMessage) :
    Prop :=
  ∃ sender ∈ senders,
    (sender ≠ node ∧ OutgoingMessage.broadcast (.consensus message) ∈ (net sender).outgoing) ∨
      OutgoingMessage.sendTo node (.consensus message) ∈ (net sender).outgoing

instance (senders : Finset NodeId) (net : Net) (node : NodeId) (message : ConsensusMessage) :
    Decidable (SentTo senders net node message) :=
  inferInstanceAs (Decidable (∃ sender ∈ senders,
    (sender ≠ node ∧ OutgoingMessage.broadcast (.consensus message) ∈ (net sender).outgoing) ∨
      OutgoingMessage.sendTo node (.consensus message) ∈ (net sender).outgoing))

/-- The message carries no valid signature of a correct node on a string it never signed. -/
def Unforged (correct : Finset NodeId) (net : Net) (message : ConsensusMessage) : Prop :=
  ∀ claim, message.claim = some claim → claim.signer ∈ correct →
    verifyNodeSignature claim.signer (asBytes claim.data) claim.signature = true →
      claim.data ∈ (net claim.signer).signed

instance (correct : Finset NodeId) (net : Net) (message : ConsensusMessage) :
    Decidable (Unforged correct net message) :=
  inferInstanceAs (Decidable (∀ claim, message.claim = some claim → claim.signer ∈ correct →
    verifyNodeSignature claim.signer (asBytes claim.data) claim.signature = true →
      claim.data ∈ (net claim.signer).signed))

/--
The rules when some replicas are Byzantine: the correct ones get what a correct one
sent them, and from the Byzantine ones anything in which no signature of `trusted`
nodes is forged.
-/
def ByzantineRules (cluster : Cluster) (byzantine trusted : Finset NodeId) (net : Net)
    (e : Event) : Prop :=
  e.node ∈ cluster.members \ byzantine ∧
    ∀ message, e.action.message? = some message →
      SentTo (cluster.members \ byzantine) net e.node message ∨
        (byzantine.Nonempty ∧ Unforged trusted net message)

instance (cluster : Cluster) (byzantine trusted : Finset NodeId) (net : Net) (e : Event) :
    Decidable (ByzantineRules cluster byzantine trusted net e) :=
  inferInstanceAs (Decidable (e.node ∈ cluster.members \ byzantine ∧
    ∀ message, e.action.message? = some message →
      SentTo (cluster.members \ byzantine) net e.node message ∨
        (byzantine.Nonempty ∧ Unforged trusted net message)))

/-- The rules when the live replicas are all honest and the others silent. -/
def HonestRules (live : Finset NodeId) (net : Net) (e : Event) : Prop :=
  e.node ∈ live ∧ ∀ message, e.action.message? = some message → SentTo live net e.node message

instance (live : Finset NodeId) (net : Net) (e : Event) : Decidable (HonestRules live net e) :=
  inferInstanceAs (Decidable (e.node ∈ live ∧
    ∀ message, e.action.message? = some message → SentTo live net e.node message))

end P2pPbft
