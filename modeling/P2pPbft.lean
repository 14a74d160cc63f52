import P2pPbft.Lib.Table
import P2pPbft.Lib.Quorum
import P2pPbft.Lib.Run
import P2pPbft.Lib.Numbered
import P2pPbft.Lib.LittleEndian
import P2pPbft.Lib.Follows
import P2pPbft.Lib.Hex
import P2pPbft.Lib.Precedes
import P2pPbft.Message
import P2pPbft.State
import P2pPbft.Handlers
import P2pPbft.Replica
import P2pPbft.Proofs.Transition
import P2pPbft.Proofs.Replica
import P2pPbft.Cluster
import P2pPbft.Sample
import P2pPbft.Proofs.Issued
import P2pPbft.Proofs.SignData
import P2pPbft.Proofs.Entries
import P2pPbft.Proofs.Proposals
import P2pPbft.Proofs.Execution
import P2pPbft.Proofs.Commits
import P2pPbft.Proofs.Silence
import P2pPbft.Proofs.Process
import P2pPbft.Proofs.Finality
import P2pPbft.Proofs.Network
import P2pPbft.Proofs.Certificate
import P2pPbft.Proofs.Agreement
import P2pPbft.Proofs.Matching
import P2pPbft.Proofs.Counter
import P2pPbft.Proofs.HonestPrimary
import P2pPbft.Proofs.Digests
import P2pPbft.Proofs.Stability
import P2pPbft.Proofs.ViewEntry
import P2pPbft.Proofs.AllHonest
import P2pPbft.Proofs.Forwarding
import P2pPbft.Proofs.Order
import P2pPbft.Proofs.Collection
import P2pPbft.Proofs.NormalCase
import P2pPbft.Proofs.Progress
import P2pPbft.Framing
import P2pPbft.Proofs.Framing
import P2pPbft.Connections
import P2pPbft.Proofs.Connections
import P2pPbft.Proofs.PeerTable
import P2pPbft.Proofs.Discovery
import P2pPbft.Proofs.Quorums
import P2pPbft.Proofs.Representation
import P2pPbft.Proofs.Checkpoints
import P2pPbft.Proofs.Supporters
import P2pPbft.Proofs.NewPrimary
import P2pPbft.Proofs.Voters
import P2pPbft.Proofs.SigningKeys
import P2pPbft.Proofs.CurrentView
import P2pPbft.Proofs.AnyOrder
import P2pPbft.Proofs.Completeness
import P2pPbft.Proofs.Window
import P2pPbft.Proofs.VoteTables
import P2pPbft.Proofs.Rejection
import P2pPbft.Proofs.Boundaries
import P2pPbft.Proofs.LastSequence
import P2pPbft.Startup
import P2pPbft.Proofs.Startup
import P2pPbft.Sessions
import P2pPbft.Proofs.Sessions
import P2pPbft.Links
import P2pPbft.Proofs.Links
import P2pPbft.Proofs.FirstView
import P2pPbft.Proofs.Rounds
import P2pPbft.Proofs.InPace
import P2pPbft.Proofs.LinkOrder
import P2pPbft.Proofs.LinkWindow
import P2pPbft.Proofs.AtRest
import P2pPbft.Proofs.Stall
import P2pPbft.Lib.Simulation
import P2pPbft.Deployment
import P2pPbft.Proofs.Demand
import P2pPbft.Proofs.Deployment
import P2pPbft.Proofs.Deadlock
import P2pPbft.Proofs.Volume
import P2pPbft.Proofs.Delivery
import P2pPbft.Lib.Potential
import P2pPbft.Proofs.Termination
import P2pPbft.Proofs.ClientOrder
