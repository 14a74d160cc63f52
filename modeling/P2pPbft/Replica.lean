/-
A running replica.

Its handlers may run concurrently: they share the state behind one lock and each
of them, once started, has sends to make and perhaps a section to run next.  A
replica is that state, the handlers in progress, and what went out on the two
channels.  Starting a handler runs its first section; every later step lets one
handler in progress make its next send or run its next section.

`process` is the other reading, the one of the main loop: one call, run to its
end before anything else happens.
-/
import P2pPbft.Handlers

namespace P2pPbft

/-- How a handler is started. -/
inductive Call
  | processMessage (message : ConsensusMessage)
  | handleRequest (request : Request)
  | startViewChange
  | checkTimeout
  deriving DecidableEq

/-- The first section of a call; a reply is for clients and has none. -/
def Call.entry : Call → Option Section
  | .processMessage (.request request) => some (.handleRequest request)
  | .processMessage (.prePrepare prePrepare) => some (.handlePrePrepare prePrepare)
  | .processMessage (.prepare prepare) => some (.handlePrepare prepare)
  | .processMessage (.commit commit) => some (.handleCommit commit)
  | .processMessage (.reply _) => none
  | .processMessage (.viewChange viewChange) => some (.handleViewChange viewChange)
  | .processMessage (.newView newView) => some (.handleNewView newView)
  | .processMessage (.checkpoint checkpoint) => some (.handleCheckpoint checkpoint)
  | .handleRequest request => some (.handleRequest request)
  | .startViewChange => some .startViewChange
  | .checkTimeout => some .checkTimeout

/-- The request a call hands to `handle_request`. -/
def Call.request? : Call → Option Request
  | .processMessage (.request request) => some request
  | .handleRequest request => some request
  | _ => none

/-- A handler in progress: its pending sends, then its next section, then its result. -/
structure Task where
  sends : List Send
  next : Option Section
  result : Result
  deriving DecidableEq

/-- The handler in progress that a section leaves behind. -/
def Outcome.task (out : Outcome) : Task where
  sends := out.sends
  next := out.next
  result := out.result

/--
A replica.  `issued` lists every send a section has decided on, in the order of the
sections; `outgoing` and `committed` list the ones that were made.  `results` are
the results of the handlers that have returned.
-/
structure Replica where
  state : PbftState
  tasks : List Task
  issued : List Send
  outgoing : List OutgoingMessage
  committed : List Request
  results : List Result
  deriving DecidableEq

/-- What can happen at a replica: a handler is started, or one in progress goes on. -/
inductive Action
  | call (call : Call) (now : Instant)
  | resume (index : Nat) (now : Instant)
  deriving DecidableEq

namespace Action

/-- The clock reading an action sees. -/
def now : Action → Instant
  | .call _ now => now
  | .resume _ now => now

/-- The consensus message an action delivers. -/
def message? : Action → Option ConsensusMessage
  | .call (.processMessage message) _ => some message
  | _ => none

/-- The new view an action delivers. -/
def newView? (a : Action) : Option NewView :=
  match a.message? with
  | some (.newView newView) => some newView
  | _ => none

/-- The request an action hands to `handle_request`. -/
def request? : Action → Option Request
  | .call c _ => c.request?
  | .resume _ _ => none

end Action

namespace Replica

/-- A replica in which nothing has happened yet. -/
def new (state : PbftState) : Replica where
  state := state
  tasks := []
  issued := []
  outgoing := []
  committed := []
  results := []

/-- Make a send. -/
def emit (r : Replica) : Send → Replica
  | .outgoing message => { r with outgoing := r.outgoing ++ [message] }
  | .committed request => { r with committed := r.committed ++ [request] }

/-- The state and the record of sends after a section. -/
def enter (r : Replica) (out : Outcome) : Replica :=
  { r with state := out.state, issued := r.issued ++ out.sends }

/-- The section an action runs, if it runs one. -/
def sectionOf (r : Replica) : Action → Option Section
  | .call call _ => call.entry
  | .resume index _ =>
    match r.tasks[index]? with
    | some ⟨[], next, _⟩ => next
    | _ => none

/-- Do an action; `none` if there is no such handler in progress. -/
def act [Crypto] (r : Replica) : Action → Option Replica
  | .call call now =>
    match call.entry with
    | none => some { r with results := r.results ++ [.ok] }
    | some sec =>
      let out := sec.run r.state now
      some { r.enter out with tasks := r.tasks ++ [out.task] }
  | .resume index now =>
    match r.tasks[index]? with
    | none => none
    | some ⟨send :: sends, next, result⟩ =>
      some { r.emit send with tasks := r.tasks.set index ⟨sends, next, result⟩ }
    | some ⟨[], some sec, _⟩ =>
      let out := sec.run r.state now
      some { r.enter out with tasks := r.tasks.set index out.task }
    | some ⟨[], none, result⟩ =>
      some { r with tasks := r.tasks.eraseIdx index, results := r.results ++ [result] }

/-- The strings the replica has signed: one for each signed message it issued. -/
def signed (r : Replica) : List String :=
  r.issued.filterMap fun
    | .outgoing (.broadcast (.consensus message)) => message.claim.map (·.data)
    | _ => none

/-- The message carries no valid signature of the replica on a string it never signed. -/
def Unforged [Crypto] (r : Replica) (message : ConsensusMessage) : Prop :=
  ∀ claim, message.claim = some claim → claim.signer = r.state.nodeId →
    verifyNodeSignature claim.signer (asBytes claim.data) claim.signature = true →
      claim.data ∈ r.signed

instance [Crypto] (r : Replica) (message : ConsensusMessage) : Decidable (r.Unforged message) :=
  inferInstanceAs (Decidable (∀ claim, message.claim = some claim → claim.signer = r.state.nodeId →
    verifyNodeSignature claim.signer (asBytes claim.data) claim.signature = true →
      claim.data ∈ r.signed))

/-- A step of a replica at which only the actions `rules` admits can happen. -/
def Next [Crypto] (rules : Replica → Action → Prop) (r : Replica) (a : Action) (r' : Replica) :
    Prop :=
  rules r a ∧ r.act a = some r'

/-- The step as a function. -/
def next [Crypto] (rules : Replica → Action → Prop) [∀ r a, Decidable (rules r a)] (r : Replica)
    (a : Action) : Option Replica :=
  if rules r a then r.act a else none

theorem next_eq_some [Crypto] {rules : Replica → Action → Prop} [∀ r a, Decidable (rules r a)]
    {r r' : Replica} {a : Action} : r.next rules a = some r' ↔ Next rules r a r' := by
  unfold next Next
  by_cases h : rules r a <;> simp [h]

end Replica

/-! ### One call at a time -/

/-- Run a section and, at most `depth` times, the section it goes on to. -/
def Section.drive [Crypto] (st : PbftState) (now : Instant) : Nat → Section → Outcome
  | 0, sec => sec.run st now
  | depth + 1, sec =>
    let out := sec.run st now
    match out.next with
    | none => out
    | some next =>
      let rest := drive out.state now depth next
      { rest with sends := out.sends ++ rest.sends }

/--
A call, run to its end: `process_message`, `handle_request`, `start_view_change` or
`check_timeout`.  The longest cascade, from a request to a checkpoint, has four sections.
-/
def PbftState.process [Crypto] (st : PbftState) (call : Call) (now : Instant) : Outcome :=
  match call.entry with
  | none => .stop st .ok
  | some sec => sec.drive st now 3

end P2pPbft
