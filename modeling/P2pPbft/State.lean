/-
The replica state of `pbft.rs`.

Everything a handler reads or writes is here; the clock reading a log entry keeps
about its creation is not, since nothing ever looks at it.
-/
import P2pPbft.Message
import P2pPbft.Lib.Table

namespace P2pPbft

/-- A reading of the monotone clock, in milliseconds. -/
abbrev Instant : Type := Nat

inductive PbftError
  | invalidMessage
  | invalidSignature
  | invalidView
  | invalidSequence
  | notPrimary
  | duplicateMessage
  deriving DecidableEq, Repr

/-- Outgoing message wrapper that supports both broadcast and targeted sends. -/
inductive OutgoingMessage
  | broadcast (message : NetworkMessage)
  | sendTo (target : NodeId) (message : NetworkMessage)
  deriving DecidableEq

/-- PBFT consensus phase. -/
inductive Phase
  | idle
  | prePrepared
  | prepared
  | committed
  deriving DecidableEq, Repr

/-- How far an instance has come: the phases in the order they are declared. -/
def Phase.rank : Phase → Nat
  | .idle => 0
  | .prePrepared => 1
  | .prepared => 2
  | .committed => 3

/-- State for a single consensus instance. -/
structure ConsensusInstance where
  sequence : SequenceNumber
  view : ViewNumber
  request : Option Request
  digest : Option Hash
  phase : Phase
  prePrepare : Option PrePrepare
  prepares : Table NodeId Prepare
  commits : Table NodeId Commit
  deriving DecidableEq

def ConsensusInstance.new (sequence : SequenceNumber) (view : ViewNumber) : ConsensusInstance where
  sequence := sequence
  view := view
  request := none
  digest := none
  phase := .idle
  prePrepare := none
  prepares := ∅
  commits := ∅

/-- `usize` subtraction: below zero it wraps. -/
def usizeSub (a b : Nat) : Nat := if b ≤ a then a - b else a + 2 ^ 64 - b

/-- Configuration for PBFT; the timeout is in milliseconds. -/
structure PbftConfig where
  n : Nat
  f : Nat
  viewChangeTimeout : Nat
  checkpointInterval : UInt64
  deriving DecidableEq, Repr

def PbftConfig.new (n : Nat) : PbftConfig where
  n := n
  f := usizeSub n 1 / 3
  viewChangeTimeout := 10000
  checkpointInterval := 100

/-- Quorum size. -/
def PbftConfig.quorum (config : PbftConfig) : Nat := 2 * config.f + 1

/-- All replica ids in order.  A primary is picked by index, so there is at least one. -/
structure Replicas where
  ids : List NodeId
  pos : 0 < ids.length
  deriving DecidableEq

/-- The replica at index `view % len`. -/
def Replicas.primary (replicas : Replicas) (view : ViewNumber) : NodeId :=
  replicas.ids.get ⟨view.toNat % replicas.ids.length, Nat.mod_lt _ replicas.pos⟩

/-- PBFT replica state. -/
structure PbftState where
  nodeId : NodeId
  keypair : KeyPair
  view : ViewNumber
  sequence : SequenceNumber
  lowWatermark : SequenceNumber
  highWatermark : SequenceNumber
  config : PbftConfig
  replicas : Replicas
  log : Table SequenceNumber ConsensusInstance
  executed : Finset Hash
  checkpoints : Table SequenceNumber (Table NodeId Checkpoint)
  stableCheckpoint : SequenceNumber
  viewChanges : Table ViewNumber (Table NodeId ViewChange)
  viewChanging : Bool
  lastPrimaryActivity : Instant
  deriving DecidableEq

namespace PbftState

def new (nodeId : NodeId) (keypair : KeyPair) (replicas : Replicas) (config : PbftConfig)
    (now : Instant) : PbftState where
  nodeId := nodeId
  keypair := keypair
  view := 0
  sequence := 0
  lowWatermark := 0
  highWatermark := config.checkpointInterval * 2
  config := config
  replicas := replicas
  log := ∅
  executed := ∅
  checkpoints := ∅
  stableCheckpoint := 0
  viewChanges := ∅
  viewChanging := false
  lastPrimaryActivity := now

/-- The primary for the current view. -/
def primary (st : PbftState) : NodeId := st.replicas.primary st.view

/-- Whether we are the primary. -/
def isPrimary (st : PbftState) : Bool := st.primary == st.nodeId

/-- Write a log entry. -/
def setInstance (st : PbftState) (sequence : SequenceNumber) (inst : ConsensusInstance) :
    PbftState :=
  { st with log := st.log.insert sequence inst }

/-- Get or create a consensus instance: the state that holds it, and the instance. -/
def getOrCreateInstance (st : PbftState) (sequence : SequenceNumber) :
    PbftState × ConsensusInstance :=
  match st.log.lookup sequence with
  | some inst => (st, inst)
  | none =>
    let inst := ConsensusInstance.new sequence st.view
    (st.setInstance sequence inst, inst)

/-- Sign data. -/
def sign [Crypto] (st : PbftState) (data : String) : List UInt8 :=
  st.keypair.sign (asBytes data)

end PbftState

end P2pPbft
