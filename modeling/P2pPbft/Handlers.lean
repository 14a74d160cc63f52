/-
The handlers of `pbft.rs`, one lock-held section at a time.

A handler takes the state lock, reads and writes, drops the lock, sends on its
channels and, in the cascade from pre-prepare to commit, calls the next function,
which takes the lock again.  Between two sections, and before each send, another
handler may run.  So a section is a function from the state to what it leaves:
the new state, the sends still to be made, the section the handler runs after
them, and the result it returns if there is none.

`?` after a call of the cascade passes an error on and every caller returns `Ok`
after it, so the result of a handler is the result of its last section.
-/
import P2pPbft.State
import Mathlib.Tactic.Simps.Basic

namespace P2pPbft

/-- A send on one of the two channels a handler holds. -/
inductive Send
  | outgoing (message : OutgoingMessage)
  | committed (request : Request)
  deriving DecidableEq

/-- Broadcast a consensus message. -/
def Send.broadcast (message : ConsensusMessage) : Send :=
  .outgoing (.broadcast (.consensus message))

/-- What a handler returns; a failed `unwrap` or a division by zero panics. -/
inductive Result
  | ok
  | err (error : PbftError)
  | panic
  deriving DecidableEq, Repr

/-- The lock-held sections. -/
inductive Section
  | handleRequest (request : Request)
  | handlePrePrepare (prePrepare : PrePrepare)
  | handlePrepare (prepare : Prepare)
  | tryAdvanceToPrepared (sequence : SequenceNumber)
  | handleCommit (commit : Commit)
  | tryAdvanceToCommitted (sequence : SequenceNumber)
  | tryCheckpoint (sequence : SequenceNumber)
  | handleCheckpoint (checkpoint : Checkpoint)
  | handleViewChange (viewChange : ViewChange)
  | handleNewView (newView : NewView)
  | startViewChange
  | checkTimeout
  deriving DecidableEq

/-- What a section leaves behind. -/
structure Outcome where
  state : PbftState
  sends : List Send
  next : Option Section
  result : Result
  deriving DecidableEq

/-- The handler returns from inside the section. -/
@[simps]
def Outcome.stop (state : PbftState) (result : Result) : Outcome where
  state := state
  sends := []
  next := none
  result := result

/-- The handler goes on to `next`, sending `sends` on the way. -/
@[simps]
def Outcome.proceed (state : PbftState) (sends : List Send) (next : Option Section) : Outcome where
  state := state
  sends := sends
  next := next
  result := .ok

variable [Crypto]

/-- Convert a hex-encoded node id to public key bytes. -/
def nodeIdToPublicKey (nodeId : NodeId) : Option (List UInt8) :=
  Crypto.hexDecode nodeId

/-- Verify a signature from a node. -/
def verifyNodeSignature (nodeId : NodeId) (message signature : List UInt8) : Bool :=
  match nodeIdToPublicKey nodeId with
  | some pk => (verifySignature pk message signature).isOk
  | none => false

namespace PbftState

/-! ### Requests and pre-prepares -/

/-- The pre-prepare a primary makes for a request it gives the number `sequence`. -/
def proposal (st : PbftState) (sequence : SequenceNumber) (request : Request) : PrePrepare where
  view := st.view
  sequence := sequence
  digest := request.digest
  request := request
  primaryId := st.nodeId
  signature := st.sign (prepareSignData st.view sequence request.digest)

/-- Our own prepare vote. -/
def ownPrepare (st : PbftState) (view : ViewNumber) (sequence : SequenceNumber) (digest : Hash) :
    Prepare where
  view := view
  sequence := sequence
  digest := digest
  replicaId := st.nodeId
  signature := st.sign (prepareSignData view sequence digest)

/-- Record a pre-prepare in its instance, together with our own prepare. -/
def record (st : PbftState) (prePrepare : PrePrepare) (prepare : Prepare) : PbftState :=
  let entry := st.getOrCreateInstance prePrepare.sequence
  entry.1.setInstance prePrepare.sequence
    { entry.2 with
      request := some prePrepare.request
      digest := some prePrepare.digest
      prePrepare := some prePrepare
      phase := .prePrepared
      prepares := entry.2.prepares.insert st.nodeId prepare }

/-- Handle a new client request (as primary). -/
def handleRequest (st : PbftState) (request : Request) : Outcome :=
  if st.isPrimary = false then
    -- Forward to the primary only.
    .proceed st [.outgoing (.sendTo st.primary (.consensus (.request request)))] none
  else if request.digest ∈ st.executed then .stop st .ok
  else
    -- The number is taken before the watermark is looked at.
    let sequence := st.sequence + 1
    let st := { st with sequence := sequence }
    if st.highWatermark < sequence then .stop st (.err .invalidSequence)
    else
      let prePrepare := st.proposal sequence request
      let prepare := st.ownPrepare st.view sequence request.digest
      .proceed (st.record prePrepare prepare)
        [.broadcast (.prePrepare prePrepare), .broadcast (.prepare prepare)]
        (some (.tryAdvanceToPrepared sequence))

/-- The end of `handle_pre_prepare`: the digest check, and the update. -/
def acceptPrePrepare (st : PbftState) (now : Instant) (prePrepare : PrePrepare) : Outcome :=
  if prePrepare.request.digest ≠ prePrepare.digest then .stop st (.err .invalidMessage)
  else
    let prepare := st.ownPrepare prePrepare.view prePrepare.sequence prePrepare.digest
    .proceed { st.record prePrepare prepare with lastPrimaryActivity := now }
      [.broadcast (.prepare prepare)] (some (.tryAdvanceToPrepared prePrepare.sequence))

/-- Handle a pre-prepare message (as backup). -/
def handlePrePrepare (st : PbftState) (now : Instant) (prePrepare : PrePrepare) : Outcome :=
  if prePrepare.view ≠ st.view then .stop st (.err .invalidView)
  else if prePrepare.primaryId ≠ st.primary then .stop st (.err .notPrimary)
  else if prePrepare.sequence ≤ st.lowWatermark ∨ st.highWatermark < prePrepare.sequence then
    .stop st (.err .invalidSequence)
  else if verifyNodeSignature prePrepare.primaryId
      (asBytes (prepareSignData prePrepare.view prePrepare.sequence prePrepare.digest))
      prePrepare.signature = false then
    .stop st (.err .invalidSignature)
  else
    match st.log.lookup prePrepare.sequence with
    | some inst =>
      if inst.prePrepare.isSome then
        if inst.digest ≠ some prePrepare.digest then .stop st (.err .invalidMessage)
        else .stop st .ok
      else st.acceptPrePrepare now prePrepare
    | none => st.acceptPrePrepare now prePrepare

/-! ### Prepares and commits -/

/-- Handle a prepare message. -/
def handlePrepare (st : PbftState) (prepare : Prepare) : Outcome :=
  if prepare.view ≠ st.view then .stop st (.err .invalidView)
  else if prepare.sequence ≤ st.lowWatermark ∨ st.highWatermark < prepare.sequence then
    .stop st (.err .invalidSequence)
  else if verifyNodeSignature prepare.replicaId
      (asBytes (prepareSignData prepare.view prepare.sequence prepare.digest))
      prepare.signature = false then
    .stop st (.err .invalidSignature)
  else
    let entry := st.getOrCreateInstance prepare.sequence
    -- The digest is compared only once a pre-prepare is there to compare it with.
    if entry.2.prePrepare.any fun pp => pp.digest ≠ prepare.digest then
      .stop entry.1 (.err .invalidMessage)
    else if prepare.replicaId ∈ entry.2.prepares then .stop entry.1 .ok
    else
      .proceed
        (entry.1.setInstance prepare.sequence
          { entry.2 with prepares := entry.2.prepares.insert prepare.replicaId prepare })
        [] (some (.tryAdvanceToPrepared prepare.sequence))

/-- The commit we send once an instance is prepared; its view is the instance's. -/
def ownCommit (st : PbftState) (inst : ConsensusInstance) (sequence : SequenceNumber)
    (digest : Hash) : Commit where
  view := inst.view
  sequence := sequence
  digest := digest
  replicaId := st.nodeId
  signature := st.sign (commitSignData inst.view sequence digest)

/-- Try to advance to prepared state. -/
def tryAdvanceToPrepared (st : PbftState) (sequence : SequenceNumber) : Outcome :=
  match st.log.lookup sequence with
  | none => .stop st .ok
  | some inst =>
    if inst.prePrepare.isNone then .stop st .ok
    else if inst.phase ≠ .prePrepared then .stop st .ok
    else if inst.prepares.keys.card < st.config.quorum then .stop st .ok
    else
      match inst.digest with
      | none => .stop st .panic
      | some digest =>
        let commit := st.ownCommit inst sequence digest
        .proceed
          (st.setInstance sequence
            { inst with
              phase := .prepared
              commits := inst.commits.insert st.nodeId commit })
          [.broadcast (.commit commit)] (some (.tryAdvanceToCommitted sequence))

/-- Handle a commit message. -/
def handleCommit (st : PbftState) (commit : Commit) : Outcome :=
  if commit.view ≠ st.view then .stop st (.err .invalidView)
  else if commit.sequence ≤ st.lowWatermark ∨ st.highWatermark < commit.sequence then
    .stop st (.err .invalidSequence)
  else if verifyNodeSignature commit.replicaId
      (asBytes (commitSignData commit.view commit.sequence commit.digest))
      commit.signature = false then
    .stop st (.err .invalidSignature)
  else
    let entry := st.getOrCreateInstance commit.sequence
    if entry.2.digest.any fun digest => commit.digest ≠ digest then
      .stop entry.1 (.err .invalidMessage)
    else if commit.replicaId ∈ entry.2.commits then .stop entry.1 .ok
    else
      .proceed
        (entry.1.setInstance commit.sequence
          { entry.2 with commits := entry.2.commits.insert commit.replicaId commit })
        [] (some (.tryAdvanceToCommitted commit.sequence))

/-- Try to advance to committed state. -/
def tryAdvanceToCommitted (st : PbftState) (sequence : SequenceNumber) : Outcome :=
  match st.log.lookup sequence with
  | none => .stop st .ok
  | some inst =>
    if inst.phase ≠ .prepared then .stop st .ok
    else if inst.commits.keys.card < st.config.quorum then .stop st .ok
    else
      let committed := st.setInstance sequence { inst with phase := .committed }
      match inst.request with
      | none => .stop committed .ok
      | some request =>
        if request.digest ∈ st.executed then .stop committed .ok
        else
          .proceed { committed with executed := insert request.digest st.executed }
            [.committed request] (some (.tryCheckpoint sequence))

/-! ### Checkpoints -/

/-- Try to create a checkpoint; the digest is a constant. -/
def tryCheckpoint (st : PbftState) (sequence : SequenceNumber) : Outcome :=
  if st.config.checkpointInterval = 0 then .stop st .panic
  else if sequence % st.config.checkpointInterval ≠ 0 then .stop st .ok
  else
    let digest : Hash := List.Vector.replicate 32 0
    .proceed st
      [.broadcast (.checkpoint {
        sequence := sequence
        digest := digest
        replicaId := st.nodeId
        signature := st.sign (checkpointSignData sequence digest) })] none

/-- Add a checkpoint message to the ones received for its sequence number. -/
def addCheckpoint (st : PbftState) (checkpoint : Checkpoint) : Table NodeId Checkpoint :=
  ((st.checkpoints.lookup checkpoint.sequence).getD ∅).insert checkpoint.replicaId checkpoint

/-- Move the stable checkpoint, the window and the log. -/
def stabilize (st : PbftState) (sequence : SequenceNumber) : PbftState :=
  { st with
    stableCheckpoint := sequence
    lowWatermark := sequence
    highWatermark := sequence + st.config.checkpointInterval * 2
    log := Table.retain (fun s => sequence < s) st.log
    checkpoints := Table.retain (fun s => sequence ≤ s) st.checkpoints }

/-- Handle a checkpoint message. -/
def handleCheckpoint (st : PbftState) (checkpoint : Checkpoint) : Outcome :=
  let entry := st.addCheckpoint checkpoint
  let st := { st with checkpoints := st.checkpoints.insert checkpoint.sequence entry }
  if st.config.quorum ≤ entry.keys.card ∧ st.stableCheckpoint < checkpoint.sequence then
    .stop (st.stabilize checkpoint.sequence) .ok
  else .stop st .ok

/-! ### View changes -/

/-- Add a view change message to the ones received for its view. -/
def addViewChange (st : PbftState) (viewChange : ViewChange) : Table NodeId ViewChange :=
  ((st.viewChanges.lookup viewChange.newView).getD ∅).insert viewChange.replicaId viewChange

/-- Handle a view change message. -/
def handleViewChange (st : PbftState) (viewChange : ViewChange) : Outcome :=
  if viewChange.newView ≤ st.view then .stop st .ok
  else
    let newView := viewChange.newView
    let entry := st.addViewChange viewChange
    let st := { st with viewChanges := st.viewChanges.insert newView entry }
    if st.config.quorum ≤ entry.keys.card ∧ st.replicas.primary newView = st.nodeId then
      .proceed st
        [.broadcast (.newView {
          newView := newView
          viewChanges := entry.values
          primaryId := st.nodeId
          signature := st.sign (newViewSignData newView) })] none
    else .stop st .ok

/-- Handle a new view message. -/
def handleNewView (st : PbftState) (now : Instant) (newView : NewView) : Outcome :=
  if newView.newView ≤ st.view then .stop st .ok
  else
    .stop
      { st with
        view := newView.newView
        viewChanging := false
        lastPrimaryActivity := now
        viewChanges := Table.retain (fun v => newView.newView < v) st.viewChanges } .ok

/-- Start a view change. -/
def startViewChange (st : PbftState) : Outcome :=
  if st.viewChanging then .stop st .ok
  else
    let newView := st.view + 1
    let viewChange : ViewChange := {
      newView := newView
      replicaId := st.nodeId
      lastSequence := st.sequence
      signature := st.sign (viewChangeSignData newView) }
    .proceed
      { st with
        viewChanging := true
        viewChanges := st.viewChanges.insert newView (st.addViewChange viewChange) }
      [.broadcast (.viewChange viewChange)] none

/-- Check view change timeout. -/
def checkTimeout (st : PbftState) (now : Instant) : Outcome :=
  if st.viewChanging then .stop st .ok
  else if st.isPrimary = false ∧ st.config.viewChangeTimeout < now - st.lastPrimaryActivity then
    .proceed st [] (some .startViewChange)
  else .stop st .ok

end PbftState

/-- Run a section on the state, the clock standing at `now`. -/
def Section.run (st : PbftState) (now : Instant) : Section → Outcome
  | .handleRequest request => st.handleRequest request
  | .handlePrePrepare prePrepare => st.handlePrePrepare now prePrepare
  | .handlePrepare prepare => st.handlePrepare prepare
  | .tryAdvanceToPrepared sequence => st.tryAdvanceToPrepared sequence
  | .handleCommit commit => st.handleCommit commit
  | .tryAdvanceToCommitted sequence => st.tryAdvanceToCommitted sequence
  | .tryCheckpoint sequence => st.tryCheckpoint sequence
  | .handleCheckpoint checkpoint => st.handleCheckpoint checkpoint
  | .handleViewChange viewChange => st.handleViewChange viewChange
  | .handleNewView newView => st.handleNewView now newView
  | .startViewChange => st.startViewChange
  | .checkTimeout => st.checkTimeout now

end P2pPbft
