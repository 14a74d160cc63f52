/-
The tasks come to rest.

Whatever the order in which the tasks run, and into whatever pieces the bytes are cut, a
deployment in which nothing fails does no more than so many steps for each request that is
typed in.  For a node sends only so many messages, a message is only so many bytes, and a
handler has only so many sections.  The potential of a deployment counts the steps that are
still to come: those of a byte, of a message in each place it can be, and of a handler.
-/
import P2pPbft.Proofs.Delivery
import P2pPbft.Lib.Potential

namespace P2pPbft

/-! ### What is left to a handler -/

/-- How many sections a handler runs from here on, at most. -/
def Section.rank : Section → Nat
  | .tryAdvanceToPrepared _ => 3
  | .tryAdvanceToCommitted _ => 2
  | .tryCheckpoint _ | .startViewChange => 1
  | _ => 4

/-- A section makes two sends at most; handing a request over takes a second step, to log it. -/
def Task.work (task : Task) : Nat :=
  2 * task.sends.length + 8 * task.next.elim 0 Section.rank + 1

/-- **A section leaves less to do than it was itself.** -/
theorem Transition.work [Crypto] {st : PbftState} {now : Instant} {sec : Section} {out : Outcome}
    (ht : Transition st now sec out) : out.task.work ≤ 8 * sec.rank := by
  cases ht with
  | stay sec result => cases sec <;> exact of_decide_eq_true rfl
  | _ => exact of_decide_eq_true rfl

theorem Section.rank_le (sec : Section) : sec.rank ≤ 4 := by
  cases sec <;> exact of_decide_eq_true rfl

namespace Replica

/-- What is left to the handlers in progress, and to the task that logs what is committed. -/
def work (r : Replica) (logged : Nat) : Nat :=
  (r.tasks.map Task.work).sum + (r.committed.length - logged)

variable [Crypto] {r r' : Replica} {now : Instant} {logged : Nat}

theorem work_call {call : Call} (h : r.act (.call call now) = some r') :
    r'.work logged ≤ r.work logged + 32 := by
  cases step_of_act h with
  | reply call now hentry => exact Nat.le_add_right _ _
  | start call now sec hentry =>
      have hwork := (run_transition r.state now sec).work
      have hrank := sec.rank_le
      simp only [work, enter, List.map_append, List.map_cons, List.map_nil, List.sum_append,
        List.sum_cons, List.sum_nil]
      omega

/-- **A handler that goes on has less to do.** -/
theorem work_resume {index : Nat} (h : r.act (.resume index now) = some r') :
    r'.work logged + 1 ≤ r.work logged := by
  cases step_of_act h with
  | send before after now send sends next result htasks =>
      cases send <;>
        simp only [work, emit, htasks, Task.work, List.map_append, List.map_cons, List.sum_append,
          List.sum_cons, List.length_cons, List.length_append, List.length_nil] <;>
        omega
  | go before after now sec result htasks =>
      have hwork := (run_transition r.state now sec).work
      have hold : Task.work ⟨[], some sec, result⟩ = 8 * sec.rank + 1 := by simp [Task.work]
      simp only [work, enter, htasks, List.map_append, List.map_cons, List.sum_append,
        List.sum_cons, hold]
      omega
  | finish before after now result htasks =>
      have hold : Task.work ⟨[], none, result⟩ = 1 := rfl
      simp only [work, htasks, List.map_append, List.map_cons, List.sum_append, List.sum_cons, hold]
      omega

end Replica

theorem Bincode.length_of_receive {Message : Type} {bincode : Bincode Message} {message : Message}
    {stream rest : List UInt8} (h : bincode.receiveMessage stream = .ok (message, rest)) :
    rest.length + 4 ≤ stream.length := by
  unfold receiveMessage at h
  split at h
  · cases h
  rename_i lenBuf body hlen
  obtain ⟨rfl, hfour⟩ := readExact_eq_some hlen
  dsimp only at h
  split at h
  · cases h
  split at h
  · cases h
  rename_i data body' hdata
  obtain ⟨rfl, -⟩ := readExact_eq_some hdata
  split at h
  · cases h
  obtain ⟨-, rfl⟩ := Prod.mk.inj (Except.ok.inj h)
  rw [List.length_append, List.length_append]
  omega

theorem Machine.length_addressees {machine : Machine} {order : List NodeId} {out : OutgoingMessage}
    {sending : List (NodeId × NetworkMessage)} (h : machine.addressees order out = some sending) :
    sending.length ≤ machine.peers.card := by
  cases out with
  | broadcast message =>
      simp only [addressees] at h
      split at h
      · rename_i horder
        obtain rfl := Option.some.inj h
        rw [List.length_map, ← horder.2, List.toFinset_card_of_nodup horder.1]
      · cases h
  | sendTo target message =>
      obtain rfl := Option.some.inj h
      split
      · exact Finset.card_pos.mpr ⟨target, ‹_›⟩
      · exact Nat.zero_le _

/-! ### What is left to a node and to a pipe -/

/-- The steps of a message from the channel of a peer handle on: each of its bytes is written
and read, and makes up for what comes after. -/
def channelWork : Nat := 37 * (maxMessageSize + 4) + 1

/-- The steps of a message once the outgoing task has received it, for `n` peers at most. -/
def dispatchWork (n : Nat) : Nat := n * (channelWork + 1) + 1

/-- What is left to a node, which has `n` peers at most and sends no more than `bound` messages. -/
def Machine.work (machine : Machine) (n bound : Nat) : Nat :=
  33 * machine.requests.length + 33 * machine.inbox.length +
    machine.replica.work machine.logged +
    (channelWork + 1) * machine.sending.length +
    dispatchWork n * (bound - machine.dispatched)

def Pipe.work (pipe : Pipe) : Nat :=
  34 * pipe.arrived.toList.length + 35 * pipe.buffer.length + 36 * pipe.stream.length +
    37 * pipe.writing.length + channelWork * pipe.channel.length

namespace Pipe

variable {bincode : Bincode NetworkMessage} {pipe pipe' : Pipe} {window k : Nat}
  {message : NetworkMessage}

theorem work_send (h : pipe.send message = some pipe') : pipe'.work ≤ pipe.work + channelWork := by
  obtain ⟨-, rfl⟩ | ⟨-, -, rfl⟩ := send_cases h
  · exact Nat.le_add_right _ _
  · simp only [work, List.length_append, List.length_singleton, Nat.mul_add, Nat.mul_one]
    omega

theorem work_frame (h : pipe.frame bincode = some pipe')
    (hdeliverable : ∀ message ∈ pipe.channel.head?,
      ∃ data, bincode.serialize message = some data ∧ data.length ≤ maxMessageSize) :
    pipe'.work + 1 ≤ pipe.work := by
  obtain ⟨hfree, message, rest, data, hchannel, hle, rfl⟩ :=
    frame_cases_of_deliverable h hdeliverable
  have hframe : (P2pPbft.frame data).length = data.length + 4 := by
    unfold P2pPbft.frame
    rw [List.length_append, LittleEndian.length_bytes, Nat.add_comm]
  simp only [work, hfree, hchannel, hframe, List.length_cons, List.length_nil,
    channelWork, Nat.mul_add]
  omega

theorem work_write (h : pipe.write window k = some pipe') : pipe'.work + 1 ≤ pipe.work := by
  obtain ⟨hready, rfl⟩ := write_cases h
  simp only [work, List.length_drop, List.length_append, List.length_take]
  omega

theorem work_read (h : pipe.read k = some pipe') : pipe'.work + 1 ≤ pipe.work := by
  obtain ⟨hready, rfl⟩ := read_cases h
  simp only [work, List.length_drop, List.length_append, List.length_take]
  omega

theorem work_receive {framed : List NetworkMessage} (hlawful : bincode.Lawful)
    (hframes : pipe.Frames bincode (maxMessageSize + 1) framed)
    (h : pipe.receive bincode = some pipe') : pipe'.work + 1 ≤ pipe.work := by
  obtain ⟨hfree, message, rest, hreceived, rfl⟩ := hframes.receive_cases hlawful h
  have hlength := Bincode.length_of_receive hreceived
  simp only [work, hfree, Option.toList_some, Option.toList_none, List.length_singleton,
    List.length_nil]
  omega

end Pipe

namespace Machine

variable {machine machine' : Machine} {n bound : Nat} {id : NodeId} {now : Instant}

theorem work_typeIn {request : Request} (h : machine.typeIn request = some machine') :
    machine'.work n bound = machine.work n bound + 33 := by
  obtain ⟨-, rfl⟩ := typeIn_cases h
  simp only [work, List.length_append, List.length_singleton]
  omega

theorem work_log (h : machine.log = some machine') :
    machine'.work n bound + 1 ≤ machine.work n bound := by
  obtain ⟨hleft, rfl⟩ := log_cases h
  simp only [work, Replica.work]
  omega

theorem work_dispatch {order : List NodeId} (h : machine.dispatch order = some machine')
    (hpeers : machine.peers.card ≤ n) (hbound : machine.replica.outgoing.length ≤ bound) :
    machine'.work n bound + 1 ≤ machine.work n bound := by
  obtain ⟨out, sending, hfree, hout, hsending, rfl⟩ := Deployment.dispatch_cases h
  obtain ⟨hlt, -⟩ := List.getElem?_eq_some_iff.mp hout
  have hlength : sending.length ≤ n := (length_addressees hsending).trans hpeers
  have hsend : (channelWork + 1) * sending.length ≤ n * (channelWork + 1) := by
    rw [Nat.mul_comm n]
    exact Nat.mul_le_mul_left _ hlength
  have hleft : bound - machine.dispatched = (bound - (machine.dispatched + 1)) + 1 := by omega
  simp only [work, hfree, hleft, List.length_nil, Nat.mul_zero, Nat.mul_add, Nat.mul_one]
  have hone : dispatchWork n = n * (channelWork + 1) + 1 := rfl
  omega

variable [Crypto]

theorem work_takeRequest (h : machine.takeRequest now = some machine') :
    machine'.work n bound + 1 ≤ machine.work n bound := by
  obtain ⟨-, request, rest, r, hrequests, hreplica, rfl⟩ := takeRequest_cases h
  have hwork : r.work machine.logged ≤ machine.replica.work machine.logged + 32 :=
    Replica.work_call hreplica
  simp only [work, hrequests, List.length_cons]
  omega

theorem work_takeMessage (h : machine.takeMessage id now = some machine') :
    machine'.work n bound + 1 ≤ machine.work n bound := by
  obtain ⟨-, peer, message, rest, hinbox, hnext⟩ := takeMessage_cases h
  obtain ⟨m, r, -, hreplica, rfl⟩ | ⟨-, ⟨sender, timestamp, -, rfl⟩ | rfl⟩ := hnext
  · have hwork : r.work machine.logged ≤ machine.replica.work machine.logged + 32 :=
      Replica.work_call hreplica
    simp only [work, hinbox, List.length_cons]
    omega
  · simp only [work, hinbox, List.length_cons]
    omega
  · simp only [work, hinbox, List.length_cons]
    omega

theorem work_goOn (h : machine.goOn now = some machine') :
    machine'.work n bound + 1 ≤ machine.work n bound := by
  obtain ⟨-, r, hreplica, rfl⟩ := goOn_cases h
  have hwork : r.work machine.logged + 1 ≤ machine.replica.work machine.logged :=
    Replica.work_resume hreplica
  simp only [work]
  omega

end Machine

namespace Deployment

/-! ### What is left to all of them -/

/-- The steps that are left to the nodes that are up, if none of them sends more messages than
the bound. -/
def work (live : Finset NodeId) (bound : Nat) (d : Deployment) : Nat :=
  ∑ id ∈ live, (d.machines id).work live.card bound +
    ∑ pair ∈ live ×ˢ live, (d.pipes pair.1 pair.2).work

section

variable {live : Finset NodeId} {bound : Nat} {d : Deployment} {id source target : NodeId}
  {machine : Machine} {pipe : Pipe}

theorem work_setMachine (hid : id ∈ live) :
    (d.setMachine id machine).work live bound + (d.machines id).work live.card bound
      = d.work live bound + machine.work live.card bound := by
  have hsum := Finset.sum_add_of_eq_off hid
    (f := fun id => (d.machines id).work live.card bound)
    (g := fun id' => ((d.setMachine id machine).machines id').work live.card bound)
    fun id' hne => by rw [machines_setMachine, if_neg hne]
  rw [machines_setMachine, if_pos rfl] at hsum
  unfold work
  have hpipes : (d.setMachine id machine).pipes = d.pipes := rfl
  rw [hpipes]
  omega

theorem work_setPipe (hjoined : Joined live source target) :
    (d.setPipe source target pipe).work live bound + (d.pipes source target).work
      = d.work live bound + pipe.work := by
  have hpair : (source, target) ∈ live ×ˢ live :=
    Finset.mem_product.mpr ⟨hjoined.1, Finset.mem_of_mem_erase hjoined.2⟩
  have hsum := Finset.sum_add_of_eq_off hpair
    (f := fun pair => (d.pipes pair.1 pair.2).work)
    (g := fun pair => ((d.setPipe source target pipe).pipes pair.1 pair.2).work)
    fun pair hne => by
      rw [pipes_setPipe, if_neg]
      rintro ⟨rfl, rfl⟩
      exact hne rfl
  dsimp only at hsum
  rw [pipes_setPipe, if_pos ⟨rfl, rfl⟩] at hsum
  unfold work
  rw [machines_setPipe]
  omega

/-- It is enough to look at the node and the pipe that change. -/
theorem work_set_le (hid : id ∈ live) (hjoined : Joined live source target)
    (h : pipe.work + machine.work live.card bound + 1
      ≤ (d.pipes source target).work + (d.machines id).work live.card bound) :
    ((d.setPipe source target pipe).setMachine id machine).work live bound + 1
      ≤ d.work live bound := by
  have hpipes : (d.setPipe source target pipe).work live bound + _ = _ := work_setPipe hjoined
  have hnodes : ((d.setPipe source target pipe).setMachine id machine).work live bound + _ = _ :=
    work_setMachine hid
  rw [machines_setPipe] at hnodes
  omega

theorem work_setMachine_le (hid : id ∈ live)
    (h : machine.work live.card bound + 1 ≤ (d.machines id).work live.card bound) :
    (d.setMachine id machine).work live bound + 1 ≤ d.work live bound := by
  have hsum : (d.setMachine id machine).work live bound + _ = _ := work_setMachine hid
  omega

theorem work_setPipe_le (hjoined : Joined live source target)
    (h : pipe.work + 1 ≤ (d.pipes source target).work) :
    (d.setPipe source target pipe).work live bound + 1 ≤ d.work live bound := by
  have hsum : (d.setPipe source target pipe).work live bound + _ = _ := work_setPipe hjoined
  omega

end

section

variable [Crypto] {bincode : Bincode NetworkMessage} {window : Nat} {live : Finset NodeId}
  {bound : Nat} {d d' : Deployment} {e : Event} {links : Links}

/-- **Every step of a task leaves less to do.** -/
theorem work_step (hlawful : bincode.Lawful) (hup : d.Up live)
    (hrepresents : d.Represents bincode (maxMessageSize + 1) links)
    (hbound : ∀ id ∈ live, (d.machines id).replica.outgoing.length ≤ bound)
    (hstep : HealthyStep bincode window live d e d') (htask : e.isTyped = false) :
    d'.work live bound + 1 ≤ d.work live bound := by
  obtain ⟨⟨hfailure, hdeliverable⟩, ⟨hnode, -⟩, hact⟩ := hstep
  cases e with
  | typeIn id request => cases htask
  | takeRequest id now =>
      obtain ⟨machine, hmachine, rfl⟩ := Option.map_eq_some_iff.mp hact
      exact work_setMachine_le hnode (Machine.work_takeRequest hmachine)
  | takeMessage id now =>
      obtain ⟨machine, hmachine, rfl⟩ := Option.map_eq_some_iff.mp hact
      exact work_setMachine_le hnode (Machine.work_takeMessage hmachine)
  | goOn id now =>
      obtain ⟨machine, hmachine, rfl⟩ := Option.map_eq_some_iff.mp hact
      exact work_setMachine_le hnode (Machine.work_goOn hmachine)
  | answer id =>
      obtain ⟨answer, hanswer, -⟩ := Option.bind_eq_some_iff.mp hact
      rw [(hrepresents.runs id).answer] at hanswer
      cases hanswer
  | dispatch id order =>
      obtain ⟨machine, hmachine, rfl⟩ := Option.map_eq_some_iff.mp hact
      have hpeers : (d.machines id).peers.card ≤ live.card := by
        rw [hup.peers id hnode]
        exact Finset.card_le_card (Finset.erase_subset _ _)
      exact work_setMachine_le hnode (Machine.work_dispatch hmachine hpeers (hbound id hnode))
  | handOver id =>
      obtain ⟨target, message, rest, pipe, hsending, hpipe, rfl⟩ := handOver_cases hact
      have hjoined : Joined live id target := ⟨hnode, hup.sending id hnode (target, message)
        (by rw [hsending]; exact List.mem_cons_self)⟩
      have hmore := Pipe.work_send hpipe
      have hless : Machine.work { d.machines id with sending := rest } live.card bound +
          (channelWork + 1) = (d.machines id).work live.card bound := by
        simp only [Machine.work, hsending, List.length_cons, Nat.mul_add, Nat.mul_one]
        omega
      exact work_set_le hnode hjoined (by omega)
  | log id =>
      obtain ⟨machine, hmachine, rfl⟩ := Option.map_eq_some_iff.mp hact
      exact work_setMachine_le hnode (Machine.work_log hmachine)
  | frame source target =>
      obtain ⟨pipe, hpipe, rfl⟩ := Option.map_eq_some_iff.mp hact
      exact work_setPipe_le (hup.joined (f := fun pipe => pipe.frame bincode)
        (fun _ => Pipe.frame_new) hpipe) (Pipe.work_frame hpipe hdeliverable)
  | write source target k =>
      obtain ⟨pipe, hpipe, rfl⟩ := Option.map_eq_some_iff.mp hact
      exact work_setPipe_le (hup.joined (f := fun pipe => pipe.write window k)
        (fun _ => Pipe.write_new) hpipe) (Pipe.work_write hpipe)
  | read source target k =>
      obtain ⟨pipe, hpipe, rfl⟩ := Option.map_eq_some_iff.mp hact
      exact work_setPipe_le (hup.joined (f := fun pipe => pipe.read k)
        (fun _ => Pipe.read_new) hpipe) (Pipe.work_read hpipe)
  | receive source target =>
      obtain ⟨pipe, hpipe, rfl⟩ := Option.map_eq_some_iff.mp hact
      obtain ⟨framed, hframes, -, -⟩ := hrepresents.carries source target
      exact work_setPipe_le (hup.joined (f := fun pipe => pipe.receive bincode)
        (fun _ => Pipe.receive_new) hpipe) (Pipe.work_receive hlawful hframes hpipe)
  | enqueue source target =>
      obtain ⟨message, harrived, rfl⟩ := enqueue_cases hact
      have hjoined := hup.joined (f := Pipe.arrived) (fun _ => rfl) harrived
      have hless : Pipe.work { d.pipes source target with arrived := none } + 34
          = (d.pipes source target).work := by
        simp only [Pipe.work, harrived, Option.toList_none, Option.toList_some, List.length_nil,
          List.length_singleton]
        omega
      have hmore : Machine.work { d.machines target with
          inbox := (d.machines target).inbox ++ [(source, message)] } live.card bound
            = (d.machines target).work live.card bound + 33 := by
        simp only [Machine.work, List.length_append, List.length_singleton]
        omega
      exact work_set_le hnode hjoined (by omega)
  | stopWriter source target => cases hfailure
  | stopReader source target => cases hfailure
  | removePeer id peer =>
      obtain ⟨⟨hreader, hpeer⟩, -⟩ := removePeer_cases hact
      rw [hup.peers id hnode] at hpeer
      obtain ⟨hne, hlive⟩ := Finset.mem_erase.mp hpeer
      rw [hup.reader peer id ⟨hlive, Finset.mem_erase.mpr ⟨Ne.symm hne, hnode⟩⟩] at hreader
      cases hreader

theorem work_typed (hstep : HealthyStep bincode window live d e d') (htyped : e.isTyped = true) :
    d'.work live bound + 1 ≤ d.work live bound + 34 := by
  obtain ⟨-, ⟨hnode, -⟩, hact⟩ := hstep
  cases e with
  | typeIn id request =>
      obtain ⟨machine, hmachine, rfl⟩ := Option.map_eq_some_iff.mp hact
      have hid : id ∈ live := hnode
      have hsum : (d.setMachine id machine).work live bound + _ = _ := work_setMachine hid
      rw [Machine.work_typeIn hmachine] at hsum
      omega
  | _ => cases htyped

/-- What an event adds to what is to be done, and itself. -/
def Event.credit (e : Event) : Nat := if e.isTyped = true then 34 else 0

omit [Crypto] in
theorem sum_credit (events : List Event) :
    (events.map Event.credit).sum = 34 * events.countP Event.isTyped := by
  induction events with
  | nil => rfl
  | cons e events ih =>
      rw [List.map_cons, List.sum_cons, ih, List.countP_cons, Event.credit]
      split <;> omega

theorem work_init (cluster : Cluster) :
    (init cluster fun id => live.erase id).work live bound
      = live.card * (dispatchWork live.card * bound) := by
  have hnodes : ∀ id ∈ live, ((init cluster fun id => live.erase id).machines id).work live.card
      bound = dispatchWork live.card * bound := by
    intro id _
    simp [init, Machine.new, Machine.work, Replica.work, Replica.new]
  have hpipes : ∀ pair ∈ live ×ˢ live,
      ((init cluster fun id => live.erase id).pipes pair.1 pair.2).work = 0 := by
    intro pair _
    simp [init, Pipe.new, Pipe.work]
  rw [work, Finset.sum_const_nat hnodes, Finset.sum_eq_zero hpipes, Nat.add_zero]

/-- How many steps there are for the requests, with so many nodes: those of the messages, and
those of the requests themselves. -/
def stepsFor (nodes requests : Nat) : Nat :=
  nodes * (dispatchWork nodes * (4 * requests)) + 34 * requests

/-- What has been done and what is left to do is no more than that. -/
theorem length_add_work_le {cluster : Cluster} {events : List Event} (hlawful : bincode.Lawful)
    (h : Run (HealthyStep bincode window live) (init cluster fun id => live.erase id) events d)
    (hcount : events.countP Event.isTyped < 2 ^ 64) :
    events.length + d.work live (4 * events.countP Event.isTyped)
      ≤ stepsFor live.card (events.countP Event.isTyped) := by
  have hlength := h.length_add_le (work live (4 * events.countP Event.isTyped)) Event.credit ?_
  · rw [work_init, sum_credit] at hlength
    unfold stepsFor
    omega
  intro before t e u hr hstep hfront
  obtain ⟨events', links, hrun, hfollows, hup⟩ := up_of_run hlawful hr
  by_cases htyped : e.isTyped = true
  · rw [Event.credit, if_pos htyped]
    exact work_typed hstep htyped
  · rw [Event.credit, if_neg htyped, Nat.add_zero]
    refine work_step hlawful hup hfollows.represents (fun id _ => ?_) hstep (by simpa using htyped)
    -- Of what is typed in later nothing has been sent yet.
    have hle : before.countP Event.isTyped ≤ events.countP Event.isTyped :=
      ((List.prefix_append before [e]).trans hfront).sublist.countP_le
    have hsent := hfollows.outgoing_le hrun (Nat.lt_of_le_of_lt hle hcount) id
    omega

/--
**The tasks come to rest.**  As long as no connection fails and every message is within the
receiver's limit, a run has no more steps than the number of nodes that are up and the number
of requests that were typed in allow: whatever the order, and even where one byte is written
or read at a time.
-/
theorem steps_le {cluster : Cluster} {events : List Event} (hlawful : bincode.Lawful)
    (h : Run (HealthyStep bincode window live) (init cluster fun id => live.erase id) events d)
    (hcount : events.countP Event.isTyped < 2 ^ 64) :
    events.length ≤ stepsFor live.card (events.countP Event.isTyped) := by
  exact (Nat.le_add_right _ _).trans (length_add_work_le hlawful h hcount)

end

end Deployment

open Sample in
/-- Two nodes handle two requests in no more steps than that. -/
theorem Deployment.steps_le_two : throughout.length ≤ stepsFor 2 2 := by
  obtain ⟨d, hrun, -, -⟩ := exists_healthy
  have hcard : firstTwo.card = 2 := by decide +kernel
  have hcount : throughout.countP Event.isTyped = 2 := by decide +kernel
  have hle := steps_le codec_lawful hrun (by decide +kernel)
  rwa [hcard, hcount] at hle

end P2pPbft
