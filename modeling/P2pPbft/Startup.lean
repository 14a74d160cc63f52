/-
How a node is set up, as in `main.rs`.

`start_node` makes three things of the options: a keypair, the list of replicas and the
configuration.  They are what `PbftState::new` gets.  In between it opens the port and
connects to peers, which changes none of the three.
-/
import P2pPbft.State
import Mathlib.Data.List.Sort

namespace P2pPbft

/-- The options of `start` the setup reads; `numNodes` is `--nodes`, 4 if it is not given. -/
structure Options where
  seed : Option String
  numNodes : Nat
  index : Option Nat
  deriving DecidableEq

inductive StartError
  | fromHex
  | text (message : String)
  deriving DecidableEq, Repr

/-- The arguments of `PbftState::new`. -/
structure Setup where
  nodeId : NodeId
  keypair : KeyPair
  replicas : List NodeId
  config : PbftConfig
  deriving DecidableEq

/-- How the setup ends. -/
inductive Started
  | ready (setup : Setup)
  | err (error : StartError)
  | panic
  deriving DecidableEq

/-- `&id[..16]` does not panic: there are sixteen bytes, and no character is cut. -/
def Shortens (id : NodeId) : Prop := (⟨16⟩ : String.Pos.Raw).IsValid id

instance (id : NodeId) : Decidable (Shortens id) :=
  inferInstanceAs (Decidable ((⟨16⟩ : String.Pos.Raw).IsValid id))

/-- The seed of an index: `[0u8; 32]` with the first byte `i as u8`, which is cut off at 256. -/
def indexSeed (i : Nat) : Bytes 32 := UInt8.ofNat i ::ᵥ List.Vector.replicate 31 0

section

variable [Crypto]

/-- The id of the node with the index. -/
def indexId (i : Nat) : NodeId := (KeyPair.fromSeed (indexSeed i)).publicKeyHex

/-- Parse or generate seed; `random` is what `KeyPair::generate` draws. -/
def startKeypair (options : Options) (random : Bytes 32) : Except StartError KeyPair :=
  match options.seed with
  | some seedHex =>
    match Crypto.hexDecode seedHex with
    | none => .error .fromHex
    | some bytes =>
      match tryInto 32 bytes with
      | none => .error (.text "Seed must be 32 bytes")
      | some seedBytes => .ok (KeyPair.fromSeed seedBytes)
  | none =>
    match options.index with
    | some idx => .ok (KeyPair.fromSeed (indexSeed idx))
    | none => .ok (KeyPair.fromSeed random)

/-- Generate replica ids for deterministic setup. -/
def replicaIds (options : Options) (nodeId : NodeId) : List NodeId :=
  match options.index with
  | some _ => ((List.range options.numNodes).map indexId).insertionSort (· ≤ ·)
  | none => [nodeId]

/-- `start_node`, up to `PbftState::new`.  With an index it logs the start of every id. -/
def startNode (options : Options) (random : Bytes 32) : Started :=
  match startKeypair options random with
  | .error error => .err error
  | .ok keypair =>
    let nodeId := keypair.publicKeyHex
    let replicas := replicaIds options nodeId
    if options.index.isSome ∧ ∃ r ∈ replicas, ¬ Shortens r then .panic
    else .ready ⟨nodeId, keypair, replicas, PbftConfig.new options.numNodes⟩

end

/-- The state of a node that has been set up, if it has a replica at all. -/
def Setup.state (setup : Setup) (h : 0 < setup.replicas.length) (now : Instant) : PbftState :=
  PbftState.new setup.nodeId setup.keypair ⟨setup.replicas, h⟩ setup.config now

end P2pPbft
