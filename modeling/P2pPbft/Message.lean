/-
The messages of `message.rs`, and the strings `pbft.rs` signs.

View and sequence numbers are `u64`, so their arithmetic wraps as it does in the
release build the project's scripts and README make.

The vector of view changes a `NewView` carries is filled from a hash map, in no
order the program fixes, and nothing reads it; it is a multiset here.
-/
import P2pPbft.Crypto
import Mathlib.Data.Multiset.Basic

namespace P2pPbft

/-- Unique identifier for a node in the network. -/
abbrev NodeId : Type := String

abbrev ViewNumber : Type := UInt64

abbrev SequenceNumber : Type := UInt64

abbrev Hash : Type := Bytes 32

/-- A client request to be processed. -/
structure Request where
  clientId : String
  timestamp : UInt64
  operation : List UInt8
  deriving DecidableEq

/-- `u64::to_le_bytes`. -/
def toLeBytes (x : UInt64) : List UInt8 :=
  (List.range 8).map fun i => (x >>> (UInt64.ofNat (8 * i))).toUInt8

/-- The hash of the three fields, one after another. -/
def Request.digest [Crypto] (request : Request) : Hash :=
  Crypto.sha256 (asBytes request.clientId ++ toLeBytes request.timestamp ++ request.operation)

structure PrePrepare where
  view : ViewNumber
  sequence : SequenceNumber
  digest : Hash
  request : Request
  primaryId : NodeId
  signature : List UInt8
  deriving DecidableEq

structure Prepare where
  view : ViewNumber
  sequence : SequenceNumber
  digest : Hash
  replicaId : NodeId
  signature : List UInt8
  deriving DecidableEq

structure Commit where
  view : ViewNumber
  sequence : SequenceNumber
  digest : Hash
  replicaId : NodeId
  signature : List UInt8
  deriving DecidableEq

structure Reply where
  view : ViewNumber
  timestamp : UInt64
  clientId : String
  replicaId : NodeId
  result : List UInt8
  signature : List UInt8
  deriving DecidableEq

structure ViewChange where
  newView : ViewNumber
  replicaId : NodeId
  lastSequence : SequenceNumber
  signature : List UInt8
  deriving DecidableEq

structure NewView where
  newView : ViewNumber
  viewChanges : Multiset ViewChange
  primaryId : NodeId
  signature : List UInt8
  deriving DecidableEq

structure Checkpoint where
  sequence : SequenceNumber
  digest : Hash
  replicaId : NodeId
  signature : List UInt8
  deriving DecidableEq

inductive ConsensusMessage
  | request (request : Request)
  | prePrepare (prePrepare : PrePrepare)
  | prepare (prepare : Prepare)
  | commit (commit : Commit)
  | reply (reply : Reply)
  | viewChange (viewChange : ViewChange)
  | newView (newView : NewView)
  | checkpoint (checkpoint : Checkpoint)
  deriving DecidableEq

inductive NetworkMessage
  | handshake (nodeId : NodeId) (listenPort : UInt16)
  | handshakeAck (nodeId : NodeId) (knownPeers : List (NodeId × String))
  | ping (nodeId : NodeId) (timestamp : UInt64)
  | pong (nodeId : NodeId) (timestamp : UInt64)
  | consensus (message : ConsensusMessage)
  deriving DecidableEq

/-! ### The strings that are signed

`pbft.rs` formats what it signs in place, at every signature and every check.  A
pre-prepare and a prepare are signed over the same string.
-/

/-- `{:?}` of a `[u8; 32]`: the bytes in decimal, between brackets. -/
def Hash.debug (digest : Hash) : String :=
  "[" ++ ", ".intercalate (digest.toList.map toString) ++ "]"

/-- What a `PrePrepare` and a `Prepare` sign: `{}-{}-{:?}`. -/
def prepareSignData (view : ViewNumber) (sequence : SequenceNumber) (digest : Hash) : String :=
  toString view ++ "-" ++ toString sequence ++ "-" ++ digest.debug

/-- What a `Commit` signs: `{}-{}-{:?}-commit`. -/
def commitSignData (view : ViewNumber) (sequence : SequenceNumber) (digest : Hash) : String :=
  toString view ++ "-" ++ toString sequence ++ "-" ++ digest.debug ++ "-commit"

/-- What a `Checkpoint` signs: `{}-{:?}`. -/
def checkpointSignData (sequence : SequenceNumber) (digest : Hash) : String :=
  toString sequence ++ "-" ++ digest.debug

/-- What a `ViewChange` signs: `{}-view-change`. -/
def viewChangeSignData (newView : ViewNumber) : String :=
  toString newView ++ "-view-change"

/-- What a `NewView` signs: `{}-new-view`. -/
def newViewSignData (newView : ViewNumber) : String :=
  toString newView ++ "-new-view"

/-- A signature a message carries: who is said to have signed which string. -/
structure Claim where
  signer : NodeId
  data : String
  signature : List UInt8
  deriving DecidableEq

/-- The signature on the message itself; requests are not signed. -/
def ConsensusMessage.claim : ConsensusMessage → Option Claim
  | .request _ => none
  | .prePrepare m => some ⟨m.primaryId, prepareSignData m.view m.sequence m.digest, m.signature⟩
  | .prepare m => some ⟨m.replicaId, prepareSignData m.view m.sequence m.digest, m.signature⟩
  | .commit m => some ⟨m.replicaId, commitSignData m.view m.sequence m.digest, m.signature⟩
  | .reply _ => none
  | .viewChange m => some ⟨m.replicaId, viewChangeSignData m.newView, m.signature⟩
  | .newView m => some ⟨m.primaryId, newViewSignData m.newView, m.signature⟩
  | .checkpoint m => some ⟨m.replicaId, checkpointSignData m.sequence m.digest, m.signature⟩

end P2pPbft
