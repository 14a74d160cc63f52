/-
Where the tasks can get stuck.

Suppose no connection fails and every message is short enough for the receiver.  Then a
main loop that cannot go on waits for room in the outgoing channel; the task that empties
it waits for room in the channel of a peer, the writer that empties that one for room in
the stream, the reader at the other end for room in its inbox, and the inbox is emptied by
the main loop of that node.  So either everything there was to do is done, or there are
nodes whose main loops wait for each other, and no message from outside can help them.
-/
import P2pPbft.Proofs.Deployment

namespace P2pPbft

/-! ### A reader waits for the rest of a frame -/

namespace Bincode

variable {Message : Type} {bincode : Bincode Message} {message : Message}
  {data stream rest : List UInt8}

theorem receiveMessage_of_lt (hle : data.length ≤ maxMessageSize)
    (hfront : stream ++ rest = frame data) (hrest : rest ≠ []) :
    bincode.receiveMessage stream = .error (.io .unexpectedEof) := by
  have hmod : data.length % 2 ^ 32 = data.length := by
    unfold maxMessageSize at hle
    exact Nat.mod_eq_of_lt (by omega)
  unfold frame at hfront
  rw [hmod] at hfront
  have hlength := congrArg List.length hfront
  rw [List.length_append, List.length_append, LittleEndian.length_bytes] at hlength
  have hpos := List.length_pos_iff.mpr hrest
  unfold receiveMessage readExact
  by_cases hfour : 4 ≤ stream.length
  · have htake : stream.take 4 = LittleEndian.bytes 4 data.length := by
      have htaken := congrArg (List.take 4) hfront
      rw [List.take_append_of_le_length hfour] at htaken
      rw [htaken]
      exact List.take_left' (LittleEndian.length_bytes _ _)
    have hvalue : LittleEndian.value (LittleEndian.bytes 4 data.length) = data.length := by
      refine LittleEndian.value_bytes_of_lt ?_
      unfold maxMessageSize at hle
      omega
    rw [if_pos hfour]
    dsimp only
    rw [htake, hvalue, if_neg (Nat.not_lt.mpr hle), if_neg]
    rw [List.length_drop]
    omega
  · rw [if_neg hfour]

end Bincode

namespace Pipe

variable {bincode : Bincode NetworkMessage} {pipe pipe' : Pipe} {window : Nat}
  {framed : List NetworkMessage}

/-- **The reader gets a message or waits for more bytes**, when all frames are within the limit. -/
theorem Frames.receive (hlawful : bincode.Lawful)
    (h : pipe.Frames bincode (maxMessageSize + 1) framed) :
    (∃ message rest, bincode.receiveMessage pipe.buffer = .ok (message, rest)) ∨
      bincode.receiveMessage pipe.buffer = .error (.io .unexpectedEof) := by
  obtain ⟨encodings, hencodings, hbytes⟩ := h
  cases hencodings with
  | nil =>
      have hnone : pipe.buffer = [] := (List.append_eq_nil_iff.mp hbytes).1
      rw [hnone]
      exact Or.inr rfl
  | @cons message data framed encodings hdata hrest =>
      have hle : data.length ≤ maxMessageSize := Nat.lt_succ_iff.mp hdata.2
      rw [List.flatMap_cons, bytes] at hbytes
      rcases List.append_eq_append_iff.mp hbytes with ⟨rest, hframe, -⟩ | ⟨rest, hbuffer, -⟩
      · by_cases hnone : rest = []
        · rw [hnone, List.append_nil] at hframe
          rw [← hframe, ← List.append_nil (P2pPbft.frame data)]
          exact Or.inl ⟨message, [], Bincode.receive_of_length_le hlawful hdata.1 hle⟩
        · exact Or.inr (Bincode.receiveMessage_of_lt hle hframe.symm hnone)
      · rw [hbuffer]
        exact Or.inl ⟨message, rest, Bincode.receive_of_length_le hlawful hdata.1 hle⟩

theorem Frames.receive_cases (hlawful : bincode.Lawful)
    (h : pipe.Frames bincode (maxMessageSize + 1) framed)
    (hreceive : pipe.receive bincode = some pipe') :
    pipe.arrived = none ∧
      ∃ message rest, bincode.receiveMessage pipe.buffer = .ok (message, rest) ∧
        pipe' = { pipe with buffer := rest, arrived := some message } := by
  obtain ⟨⟨-, hfree⟩, hnext⟩ := Pipe.receive_cases hreceive
  refine ⟨hfree, ?_⟩
  obtain hreceived | ⟨error, hfails, hnot, -⟩ := hnext
  · exact hreceived
  obtain ⟨message, rest, hreceived⟩ | hwaits := h.receive hlawful
  · cases hreceived.symm.trans hfails
  · exact absurd (Except.error.inj (hfails.symm.trans hwaits)) hnot

theorem frame_cases_of_deliverable (hframe : pipe.frame bincode = some pipe')
    (hdeliverable : ∀ message ∈ pipe.channel.head?,
      ∃ data, bincode.serialize message = some data ∧ data.length ≤ maxMessageSize) :
    pipe.writing = [] ∧ ∃ message rest data, pipe.channel = message :: rest ∧
      data.length ≤ maxMessageSize ∧
      pipe' = { pipe with channel := rest, writing := P2pPbft.frame data } := by
  obtain ⟨⟨-, hfree⟩, message, rest, hchannel, hnext⟩ := frame_cases hframe
  obtain ⟨data, hdata, hle⟩ := hdeliverable message (by rw [hchannel]; rfl)
  refine ⟨hfree, message, rest, data, hchannel, hle, ?_⟩
  rcases hnext with ⟨data', hdata', rfl⟩ | ⟨hnone, -⟩
  · obtain rfl := Option.some.inj (hdata.symm.trans hdata')
    rfl
  · exact absurd (hdata.symm.trans hnone) (Option.some_ne_none data)

end Pipe

namespace Pipe

variable {bincode : Bincode NetworkMessage} {connected : Bool} {window k : Nat}

/-! ### An unused pipe -/

@[simp] theorem frame_new : (new connected).frame bincode = none := by
  cases connected <;> rfl

@[simp] theorem write_new : (new connected).write window k = none :=
  if_neg fun h => absurd (Nat.lt_of_lt_of_le h.2.1 h.2.2.1) (Nat.lt_irrefl 0)

@[simp] theorem read_new : (new connected).read k = none :=
  if_neg fun h => absurd (Nat.lt_of_lt_of_le h.2.2.1 h.2.2.2) (Nat.lt_irrefl 0)

@[simp] theorem receive_new : (new connected).receive bincode = none := by
  cases connected <;> rfl

end Pipe

/-! ### Connections that hold -/

/-- Whom the node sends to stays as it is. -/
structure Machine.Keeps (machine machine' : Machine) : Prop where
  peers : machine'.peers = machine.peers
  sending : machine'.sending = machine.sending

namespace Machine

variable {machine machine' : Machine} {id : NodeId} {now : Instant}

theorem keeps_typeIn {request : Request} (h : machine.typeIn request = some machine') :
    machine.Keeps machine' := by
  obtain ⟨-, rfl⟩ := typeIn_cases h
  exact ⟨rfl, rfl⟩

theorem keeps_log (h : machine.log = some machine') : machine.Keeps machine' := by
  obtain ⟨-, rfl⟩ := log_cases h
  exact ⟨rfl, rfl⟩

variable [Crypto]

theorem keeps_takeRequest (h : machine.takeRequest now = some machine') :
    machine.Keeps machine' := by
  obtain ⟨-, request, rest, r, -, -, rfl⟩ := takeRequest_cases h
  exact ⟨rfl, rfl⟩

theorem keeps_takeMessage (h : machine.takeMessage id now = some machine') :
    machine.Keeps machine' := by
  obtain ⟨-, peer, message, rest, -, hnext⟩ := takeMessage_cases h
  obtain ⟨m, r, -, -, rfl⟩ | ⟨-, ⟨sender, timestamp, -, rfl⟩ | rfl⟩ := hnext <;>
    exact ⟨rfl, rfl⟩

theorem keeps_goOn (h : machine.goOn now = some machine') : machine.Keeps machine' := by
  obtain ⟨-, r, -, rfl⟩ := goOn_cases h
  exact ⟨rfl, rfl⟩

end Machine

namespace Deployment

/-- Both nodes are up, and there is a connection between them. -/
def Joined (live : Finset NodeId) (source target : NodeId) : Prop :=
  source ∈ live ∧ target ∈ live.erase source

/-- The nodes that are up are all connected to each other, and everything they send is to one
of the others. -/
structure Up (live : Finset NodeId) (d : Deployment) : Prop where
  peers : ∀ id ∈ live, (d.machines id).peers = live.erase id
  sending : ∀ id ∈ live, ∀ entry ∈ (d.machines id).sending, entry.1 ∈ live.erase id
  writer : ∀ source target, Joined live source target → (d.pipes source target).writer = true
  reader : ∀ source target, Joined live source target → (d.pipes source target).reader = true
  apart : ∀ source target, ¬ Joined live source target →
    ∃ connected, d.pipes source target = Pipe.new connected

section

variable {live : Finset NodeId} {d d' : Deployment} {id source target : NodeId} {pipe : Pipe}
  {machine : Machine}

theorem Up.setMachine (h : d.Up live) (hpeers : machine.peers = (d.machines id).peers)
    (hsending : id ∈ live → ∀ entry ∈ machine.sending, entry.1 ∈ live.erase id) :
    (d.setMachine id machine).Up live where
  peers := fun id' hid' => by
    rw [machines_setMachine]
    split
    · rename_i hid
      subst hid
      rw [hpeers, h.peers id' hid']
    · exact h.peers id' hid'
  sending := fun id' hid' => by
    rw [machines_setMachine]
    split
    · rename_i hid
      subst hid
      exact hsending hid'
    · exact h.sending id' hid'
  writer := h.writer
  reader := h.reader
  apart := h.apart

theorem Up.keeps (h : d.Up live) (hkeeps : (d.machines id).Keeps machine) :
    (d.setMachine id machine).Up live :=
  h.setMachine hkeeps.peers fun hid entry hentry => h.sending id hid entry (hkeeps.sending ▸ hentry)

theorem Up.setPipe (h : d.Up live) (hjoined : Joined live source target)
    (hwriter : pipe.writer = (d.pipes source target).writer)
    (hreader : pipe.reader = (d.pipes source target).reader) :
    (d.setPipe source target pipe).Up live where
  peers := h.peers
  sending := h.sending
  writer := fun source' target' hjoined' => by
    rw [pipes_setPipe]
    split
    · rw [hwriter]
      exact h.writer source target hjoined
    · exact h.writer source' target' hjoined'
  reader := fun source' target' hjoined' => by
    rw [pipes_setPipe]
    split
    · rw [hreader]
      exact h.reader source target hjoined
    · exact h.reader source' target' hjoined'
  apart := fun source' target' hno => by
    rw [pipes_setPipe, if_neg]
    · exact h.apart source' target' hno
    · rintro ⟨rfl, rfl⟩
      exact hno hjoined

theorem Up.joined (h : d.Up live) {β : Type} {f : Pipe → Option β} {b : β}
    (hnew : ∀ connected, f (Pipe.new connected) = none)
    (hsome : f (d.pipes source target) = some b) : Joined live source target := by
  by_contra hno
  obtain ⟨connected, heq⟩ := h.apart source target hno
  rw [heq, hnew] at hsome
  cases hsome

theorem addressees_peers {order : List NodeId} {out : OutgoingMessage}
    {sending : List (NodeId × NetworkMessage)} (h : machine.addressees order out = some sending) :
    ∀ entry ∈ sending, entry.1 ∈ machine.peers := by
  cases out with
  | broadcast message =>
      simp only [Machine.addressees] at h
      split at h
      · rename_i horder
        obtain rfl := Option.some.inj h
        intro entry hentry
        obtain ⟨id, hid, rfl⟩ := List.mem_map.mp hentry
        rw [← horder.2]
        exact List.mem_toFinset.mpr hid
      · cases h
  | sendTo target message =>
      obtain rfl := Option.some.inj h
      intro entry hentry
      split at hentry
      · obtain rfl := List.mem_singleton.mp hentry
        assumption
      · cases hentry

end

section

variable [Crypto] (bincode : Bincode NetworkMessage) (window : Nat)

/-- What is framed has an encoding that the receiver takes. -/
def Deliverable (d : Deployment) : Event → Prop
  | .frame source target => ∀ message ∈ (d.pipes source target).channel.head?,
      ∃ data, bincode.serialize message = some data ∧ data.length ≤ maxMessageSize
  | _ => True

instance (d : Deployment) : (e : Event) → Decidable (d.Deliverable bincode e)
  | .frame source target => inferInstanceAs (Decidable
      (∀ message ∈ (d.pipes source target).channel.head?,
        ∃ data ∈ bincode.serialize message, data.length ≤ maxMessageSize))
  | .typeIn .. | .takeRequest .. | .takeMessage .. | .goOn .. | .answer _ | .dispatch ..
  | .handOver _ | .log _ | .write .. | .read .. | .receive .. | .enqueue .. | .stopWriter ..
  | .stopReader .. | .removePeer .. => isTrue trivial

/-- No connection fails. -/
def HealthyStep (live : Finset NodeId) (d : Deployment) (e : Event) (d' : Deployment) : Prop :=
  (e.isFailure = false ∧ d.Deliverable bincode e) ∧ d.Step bincode window live e d'

/-- The step as a function. -/
def healthyNext (live : Finset NodeId) (d : Deployment) (e : Event) : Option Deployment :=
  if e.isFailure = false ∧ d.Deliverable bincode e then d.next bincode window live e else none

theorem exists_healthy_run (live : Finset NodeId) (d₀ : Deployment) (events : List Event)
    (p : Deployment → Prop) [DecidablePred p]
    (h : (execute (healthyNext bincode window live) d₀ events).any (fun d => decide (p d)) = true) :
    ∃ d, Run (HealthyStep bincode window live) d₀ events d ∧ p d := by
  obtain ⟨d, hrun, hp⟩ := exists_run_of_execute _ _ _ p h
  refine ⟨d, hrun.mono fun hstep => ?_, hp⟩
  unfold healthyNext at hstep
  split at hstep
  · exact ⟨‹_›, (next_eq_some bincode window).mp hstep⟩
  · cases hstep

variable {bincode window} {live : Finset NodeId} {d d' : Deployment} {e : Event}

omit [Crypto] in
theorem Deliverable.fits (h : d.Deliverable bincode e) :
    d.Fits bincode (maxMessageSize + 1) e := by
  cases e with
  | frame source target =>
      intro message hmessage data hdata
      obtain ⟨data', hdata', hle⟩ := h message hmessage
      obtain rfl := Option.some.inj (hdata'.symm.trans hdata)
      exact Nat.lt_succ_of_le hle
  | _ => trivial

/-- **They hold as long as nothing fails.** -/
theorem Up.step {links : Links} (hlawful : bincode.Lawful) (h : d.Up live)
    (hrepresents : d.Represents bincode (maxMessageSize + 1) links)
    (hstep : HealthyStep bincode window live d e d') : d'.Up live := by
  obtain ⟨⟨hfailure, hdeliverable⟩, ⟨hnode, -⟩, hact⟩ := hstep
  cases e with
  | typeIn id request =>
      obtain ⟨machine, hmachine, rfl⟩ := Option.map_eq_some_iff.mp hact
      exact h.keeps (Machine.keeps_typeIn hmachine)
  | takeRequest id now =>
      obtain ⟨machine, hmachine, rfl⟩ := Option.map_eq_some_iff.mp hact
      exact h.keeps (Machine.keeps_takeRequest hmachine)
  | takeMessage id now =>
      obtain ⟨machine, hmachine, rfl⟩ := Option.map_eq_some_iff.mp hact
      exact h.keeps (Machine.keeps_takeMessage hmachine)
  | goOn id now =>
      obtain ⟨machine, hmachine, rfl⟩ := Option.map_eq_some_iff.mp hact
      exact h.keeps (Machine.keeps_goOn hmachine)
  | answer id =>
      obtain ⟨answer, hanswer, -⟩ := Option.bind_eq_some_iff.mp hact
      rw [(hrepresents.runs id).answer] at hanswer
      cases hanswer
  | dispatch id order =>
      obtain ⟨machine, hmachine, rfl⟩ := Option.map_eq_some_iff.mp hact
      obtain ⟨out, sending, -, -, hsending, rfl⟩ := dispatch_cases hmachine
      refine h.setMachine rfl fun hid entry hentry => ?_
      rw [← h.peers id hid]
      exact addressees_peers hsending entry hentry
  | handOver id =>
      obtain ⟨target, message, rest, pipe, hsending, hpipe, rfl⟩ := handOver_cases hact
      have hjoined : Joined live id target := ⟨hnode, h.sending id hnode (target, message)
        (by rw [hsending]; exact List.mem_cons_self)⟩
      have hup : (d.setPipe id target pipe).Up live := by
        obtain ⟨-, rfl⟩ | ⟨-, -, rfl⟩ := Pipe.send_cases hpipe <;>
          exact h.setPipe hjoined rfl rfl
      refine hup.setMachine rfl fun hid entry hentry => h.sending id hid entry ?_
      rw [hsending]
      exact List.mem_cons_of_mem _ hentry
  | log id =>
      obtain ⟨machine, hmachine, rfl⟩ := Option.map_eq_some_iff.mp hact
      exact h.keeps (Machine.keeps_log hmachine)
  | frame source target =>
      obtain ⟨pipe, hpipe, rfl⟩ := Option.map_eq_some_iff.mp hact
      have hjoined := h.joined (f := fun pipe => pipe.frame bincode) (fun _ => Pipe.frame_new) hpipe
      obtain ⟨-, message, rest, data, -, -, rfl⟩ :=
        Pipe.frame_cases_of_deliverable hpipe hdeliverable
      exact h.setPipe hjoined rfl rfl
  | write source target k =>
      obtain ⟨pipe, hpipe, rfl⟩ := Option.map_eq_some_iff.mp hact
      have hjoined :=
        h.joined (f := fun pipe => pipe.write window k) (fun _ => Pipe.write_new) hpipe
      obtain ⟨-, rfl⟩ := Pipe.write_cases hpipe
      exact h.setPipe hjoined rfl rfl
  | read source target k =>
      obtain ⟨pipe, hpipe, rfl⟩ := Option.map_eq_some_iff.mp hact
      have hjoined := h.joined (f := fun pipe => pipe.read k) (fun _ => Pipe.read_new) hpipe
      obtain ⟨-, rfl⟩ := Pipe.read_cases hpipe
      exact h.setPipe hjoined rfl rfl
  | receive source target =>
      obtain ⟨pipe, hpipe, rfl⟩ := Option.map_eq_some_iff.mp hact
      have hjoined :=
        h.joined (f := fun pipe => pipe.receive bincode) (fun _ => Pipe.receive_new) hpipe
      obtain ⟨framed, hframes, -, -⟩ := hrepresents.carries source target
      obtain ⟨-, message, rest, -, rfl⟩ := hframes.receive_cases hlawful hpipe
      exact h.setPipe hjoined rfl rfl
  | enqueue source target =>
      obtain ⟨message, harrived, rfl⟩ := enqueue_cases hact
      have hjoined := h.joined (f := Pipe.arrived) (fun _ => rfl) harrived
      have hup : (d.setPipe source target { d.pipes source target with arrived := none }).Up live :=
        h.setPipe hjoined rfl rfl
      exact hup.setMachine rfl fun hid => h.sending target hid
  | stopWriter source target => cases hfailure
  | stopReader source target => cases hfailure
  | removePeer id peer =>
      obtain ⟨⟨hreader, hpeer⟩, -⟩ := removePeer_cases hact
      rw [h.peers id hnode] at hpeer
      obtain ⟨hne, hpeer⟩ := Finset.mem_erase.mp hpeer
      rw [h.reader peer id ⟨hpeer, Finset.mem_erase.mpr ⟨Ne.symm hne, hnode⟩⟩] at hreader
      cases hreader

theorem up_init (cluster : Cluster) (live : Finset NodeId) :
    (init cluster fun id => live.erase id).Up live where
  peers := fun _ _ => rfl
  sending := fun _ _ _ hentry => absurd hentry List.not_mem_nil
  writer := fun _ _ hjoined => decide_eq_true hjoined.2
  reader := fun _ _ hjoined => decide_eq_true hjoined.2
  apart := fun _ _ _ => ⟨_, rfl⟩

/-- A run in which nothing fails is one on the links, and the connections hold. -/
theorem up_of_run {cluster : Cluster} {events : List Event} (hlawful : bincode.Lawful)
    (h : Run (HealthyStep bincode window live) (init cluster fun id => live.erase id) events d) :
    ∃ events' links, Run (Links.Step live) (Links.init cluster) events' links ∧
      Follows bincode (maxMessageSize + 1) events d events' links ∧ d.Up live := by
  refine h.simulate (R := fun events d events' links =>
    Follows bincode (maxMessageSize + 1) events d events' links ∧ d.Up live)
    ⟨follows_init fun id => Finset.notMem_erase id live, up_init cluster live⟩ ?_
  rintro as t e u bs t' - hr ⟨hfollows, hup⟩ hstep
  obtain ⟨more, links', hmore, hfollows'⟩ := hfollows.step hlawful
    (Nat.succ_le_of_lt (by decide)) hr hstep.2.1.1 hstep.1.2.fits hstep.2.2
  exact ⟨more, links', hmore, hfollows', hup.step hlawful hfollows.represents hstep⟩

end

/-! ### Who waits for whom -/

/-- Nobody types, and nothing fails. -/
def Event.isTask : Event → Bool
  | .typeIn .. | .stopWriter .. | .stopReader .. => false
  | _ => true

section

variable [Crypto] (bincode : Bincode NetworkMessage) (window : Nat)

/-- No task can do anything. -/
def Stuck (live : Finset NodeId) (d : Deployment) : Prop :=
  ∀ e : Event, e.node ∈ live → e.isTask = true → d.act bincode window e = none

variable {bincode window} {live : Finset NodeId} {d : Deployment} {id source target : NodeId}

/-- Whoever waits to send waits for room. -/
theorem Stuck.goOn (h : Stuck bincode window live d) (hid : id ∈ live)
    (htasks : (d.machines id).replica.tasks ≠ []) : ¬ (d.machines id).HasRoom := by
  intro hroom
  have hnone := h (.goOn id 0) hid rfl
  obtain ⟨replica, hact⟩ : ∃ replica, (d.machines id).replica.act (.resume 0 0) = some replica := by
    obtain ⟨task, tasks, htask⟩ := List.exists_cons_of_ne_nil htasks
    obtain ⟨sends, next, result⟩ := task
    unfold Replica.act
    rw [htask]
    cases sends with
    | nil => cases next <;> exact ⟨_, rfl⟩
    | cons send sends => exact ⟨_, rfl⟩
  simp [act, Machine.goOn, hroom, hact] at hnone

theorem Stuck.log (h : Stuck bincode window live d) (hid : id ∈ live) :
    (d.machines id).replica.committed.length ≤ (d.machines id).logged := by
  have hnone := h (.log id) hid rfl
  by_contra hlt
  simp [act, Machine.log, Nat.not_le.mp hlt] at hnone

theorem Stuck.sending (h : Stuck bincode window live d) (hid : id ∈ live)
    (hleft : (d.machines id).dispatched < (d.machines id).replica.outgoing.length) :
    (d.machines id).sending ≠ [] := by
  intro hfree
  have hget := List.getElem?_eq_getElem hleft
  have hnone := h (.dispatch id (d.machines id).peers.toList) hid rfl
  obtain ⟨sending, hsending⟩ : ∃ sending, (d.machines id).addressees
      (d.machines id).peers.toList (d.machines id).replica.outgoing[(d.machines id).dispatched]
        = some sending := by
    cases (d.machines id).replica.outgoing[(d.machines id).dispatched] with
    | broadcast message =>
        exact ⟨_, if_pos ⟨Finset.nodup_toList _, Finset.toList_toFinset _⟩⟩
    | sendTo target message => exact ⟨_, rfl⟩
  simp [act, Machine.dispatch, hfree, hget, hsending] at hnone

theorem Stuck.channel (h : Stuck bincode window live d) (hid : source ∈ live)
    {message : NetworkMessage} {rest : List (NodeId × NetworkMessage)}
    (hsending : (d.machines source).sending = (target, message) :: rest) :
    peerRoom ≤ (d.pipes source target).channel.length := by
  have hnone := h (.handOver source) hid rfl
  by_contra hlt
  have hsend : ∃ pipe, (d.pipes source target).send message = some pipe := by
    unfold Pipe.send
    split
    · exact ⟨_, rfl⟩
    · rw [if_pos (Nat.not_le.mp hlt)]
      exact ⟨_, rfl⟩
  obtain ⟨pipe, hpipe⟩ := hsend
  simp [act, handOver, hsending, send, hpipe] at hnone

theorem Stuck.writing (h : Stuck bincode window live d) (hid : source ∈ live)
    (hwriter : (d.pipes source target).writer = true)
    (hchannel : (d.pipes source target).channel ≠ []) : (d.pipes source target).writing ≠ [] := by
  intro hfree
  have hnone := h (.frame source target) hid rfl
  obtain ⟨message, rest, hmessage⟩ := List.exists_cons_of_ne_nil hchannel
  cases hsent : bincode.sendMessage [] message <;>
    simp [act, Pipe.frame, hwriter, hfree, hmessage, hsent] at hnone

theorem Stuck.stream (h : Stuck bincode window live d) (hid : source ∈ live)
    (hwriter : (d.pipes source target).writer = true)
    (hwriting : (d.pipes source target).writing ≠ []) :
    window ≤ (d.pipes source target).stream.length := by
  have hnone := h (.write source target 1) hid rfl
  have hpos := List.length_pos_iff.mpr hwriting
  by_contra hlt
  have hroom : (d.pipes source target).stream.length + 1 ≤ window := by omega
  simp [act, Pipe.write, hwriter, hroom, Nat.succ_le_of_lt hpos] at hnone

theorem Stuck.arrived (h : Stuck bincode window live d) (hid : target ∈ live)
    (hreader : (d.pipes source target).reader = true)
    (hstream : (d.pipes source target).stream ≠ []) :
    (d.pipes source target).arrived ≠ none := by
  intro hfree
  have hnone := h (.read source target 1) hid rfl
  have hpos := List.length_pos_iff.mpr hstream
  simp [act, Pipe.read, hreader, hfree, Nat.succ_le_of_lt hpos] at hnone

theorem Stuck.inbox (h : Stuck bincode window live d) (hid : target ∈ live)
    (hreader : (d.pipes source target).reader = true)
    (harrived : (d.pipes source target).arrived ≠ none) :
    inboxRoom ≤ (d.machines target).inbox.length := by
  have hnone := h (.enqueue source target) hid rfl
  obtain ⟨message, hmessage⟩ := Option.ne_none_iff_exists'.mp harrived
  by_contra hlt
  simp [act, enqueue, hreader, hmessage, Nat.not_le.mp hlt] at hnone

omit bincode window live d id source target in
theorem exists_act_call (r : Replica) (call : Call) (now : Instant) :
    ∃ r', r.act (.call call now) = some r' := by
  unfold Replica.act
  dsimp only
  split
  · exact ⟨_, rfl⟩
  · exact ⟨_, rfl⟩

/-- A main loop that waits has nothing to take. -/
theorem Stuck.empty (h : Stuck bincode window live d) (hid : id ∈ live)
    (hwaits : (d.machines id).Waits) :
    (d.machines id).inbox = [] ∧ (d.machines id).requests = [] := by
  constructor
  · have hnone := h (.takeMessage id 0) hid rfl
    by_contra hne
    obtain ⟨⟨peer, message⟩, rest, hinbox⟩ := List.exists_cons_of_ne_nil hne
    cases message with
    | consensus message =>
        obtain ⟨r, hr⟩ := exists_act_call (d.machines id).replica (.processMessage message) 0
        simp [act, Machine.takeMessage, hwaits, hinbox, hr] at hnone
    | _ => simp [act, Machine.takeMessage, hwaits, hinbox] at hnone
  · have hnone := h (.takeRequest id 0) hid rfl
    by_contra hne
    obtain ⟨request, rest, hrequests⟩ := List.exists_cons_of_ne_nil hne
    obtain ⟨r, hr⟩ := exists_act_call (d.machines id).replica (.handleRequest request) 0
    simp [act, Machine.takeRequest, hwaits, hrequests, hr] at hnone

/-- Everything there was to do is done. -/
structure Done (live : Finset NodeId) (d : Deployment) : Prop where
  waits : ∀ id ∈ live, (d.machines id).Waits
  requests : ∀ id ∈ live, (d.machines id).requests = []
  inbox : ∀ id ∈ live, (d.machines id).inbox = []
  sending : ∀ id ∈ live, (d.machines id).sending = []
  dispatched : ∀ id ∈ live, (d.machines id).dispatched = (d.machines id).replica.outgoing.length
  bytes : ∀ source target, Joined live source target → (d.pipes source target).bytes = []
  arrived : ∀ source target, Joined live source target → (d.pipes source target).arrived = none
  channel : ∀ source target, Joined live source target → (d.pipes source target).channel = []
  logged : ∀ id ∈ live, (d.machines id).replica.committed.length ≤ (d.machines id).logged

omit [Crypto] in
theorem done_iff : Done live d ↔
    (∀ id ∈ live, (d.machines id).Waits ∧ (d.machines id).requests = [] ∧
      (d.machines id).inbox = [] ∧ (d.machines id).sending = [] ∧
      (d.machines id).dispatched = (d.machines id).replica.outgoing.length ∧
      (d.machines id).replica.committed.length ≤ (d.machines id).logged) ∧
    ∀ source ∈ live, ∀ target ∈ live.erase source, (d.pipes source target).bytes = [] ∧
      (d.pipes source target).arrived = none ∧ (d.pipes source target).channel = [] := by
  constructor
  · exact fun h => ⟨fun id hid => ⟨h.waits id hid, h.requests id hid, h.inbox id hid,
      h.sending id hid, h.dispatched id hid, h.logged id hid⟩, fun source hsource target htarget =>
      ⟨h.bytes source target ⟨hsource, htarget⟩, h.arrived source target ⟨hsource, htarget⟩,
        h.channel source target ⟨hsource, htarget⟩⟩⟩
  · rintro ⟨hnodes, hpipes⟩
    exact {
      waits := fun id hid => (hnodes id hid).1
      requests := fun id hid => (hnodes id hid).2.1
      inbox := fun id hid => (hnodes id hid).2.2.1
      sending := fun id hid => (hnodes id hid).2.2.2.1
      dispatched := fun id hid => (hnodes id hid).2.2.2.2.1
      logged := fun id hid => (hnodes id hid).2.2.2.2.2
      bytes := fun source target hjoined => (hpipes source hjoined.1 target hjoined.2).1
      arrived := fun source target hjoined => (hpipes source hjoined.1 target hjoined.2).2.1
      channel := fun source target hjoined => (hpipes source hjoined.1 target hjoined.2).2.2 }

instance (live : Finset NodeId) (d : Deployment) : Decidable (Done live d) :=
  decidable_of_iff _ done_iff.symm

/-- **Where all main loops wait, nothing is on its way.** -/
theorem Stuck.done {links : Links} (hlawful : bincode.Lawful) (h : Stuck bincode window live d)
    (hup : d.Up live) (hrepresents : d.Represents bincode (maxMessageSize + 1) links)
    (hwindow : 0 < window) (hwaits : ∀ id ∈ live, (d.machines id).Waits) : Done live d := by
  have harrived : ∀ source target, Joined live source target →
      (d.pipes source target).arrived = none := by
    intro source target hjoined
    have htarget := Finset.mem_of_mem_erase hjoined.2
    by_contra hne
    have hinbox := h.inbox htarget (hup.reader source target hjoined) hne
    rw [(h.empty htarget (hwaits target htarget)).1] at hinbox
    exact absurd hinbox (by decide)
  have hstream : ∀ source target, Joined live source target →
      (d.pipes source target).stream = [] := by
    intro source target hjoined
    by_contra hne
    exact h.arrived (Finset.mem_of_mem_erase hjoined.2) (hup.reader source target hjoined) hne
      (harrived source target hjoined)
  have hwriting : ∀ source target, Joined live source target →
      (d.pipes source target).writing = [] := by
    intro source target hjoined
    by_contra hne
    have hfull := h.stream hjoined.1 (hup.writer source target hjoined) hne
    rw [hstream source target hjoined] at hfull
    exact absurd hfull (Nat.not_le.mpr hwindow)
  have hchannel : ∀ source target, Joined live source target →
      (d.pipes source target).channel = [] := by
    intro source target hjoined
    by_contra hne
    exact h.writing hjoined.1 (hup.writer source target hjoined) hne
      (hwriting source target hjoined)
  have hsending : ∀ id ∈ live, (d.machines id).sending = [] := by
    intro id hid
    by_contra hne
    obtain ⟨⟨target, message⟩, rest, hentry⟩ := List.exists_cons_of_ne_nil hne
    have hpeer : target ∈ live.erase id :=
      hup.sending id hid (target, message) (by rw [hentry]; exact List.mem_cons_self)
    have hfull := h.channel hid hentry
    rw [hchannel id target ⟨hid, hpeer⟩] at hfull
    exact absurd hfull (by decide)
  refine ⟨hwaits, fun id hid => (h.empty hid (hwaits id hid)).2,
    fun id hid => (h.empty hid (hwaits id hid)).1, hsending, fun id hid => ?_, ?_, harrived,
    hchannel, fun id hid => h.log hid⟩
  · refine Nat.le_antisymm (hrepresents.runs id).dispatched ?_
    by_contra hlt
    exact h.sending hid (Nat.not_le.mp hlt) (hsending id hid)
  · intro source target hjoined
    have hreader := hup.reader source target hjoined
    have hfree := harrived source target hjoined
    have hnone := h (.receive source target) (Finset.mem_of_mem_erase hjoined.2) rfl
    obtain ⟨framed, ⟨encodings, hencodings, hbytes⟩, -, -⟩ := hrepresents.carries source target
    have hbuffer : (d.pipes source target).bytes = (d.pipes source target).buffer := by
      rw [Pipe.bytes, hstream source target hjoined, hwriting source target hjoined]
      simp
    cases hencodings with
    | nil => exact hbytes
    | @cons message data framed encodings hdata hrest =>
        -- There would be a whole frame to be received.
        have hreceived : bincode.receiveMessage
            (P2pPbft.frame data ++ encodings.flatMap P2pPbft.frame) = .ok (message, _) :=
          Bincode.receive_of_length_le hlawful hdata.1 (Nat.lt_succ_iff.mp hdata.2)
        rw [List.flatMap_cons, hbuffer] at hbytes
        rw [← hbytes] at hreceived
        simp [act, Pipe.receive, hreader, hfree, hreceived] at hnone

theorem Done.stuck (h : Done live d) (hup : d.Up live) : Stuck bincode window live d := by
  intro e hnode htask
  cases e with
  | typeIn id request => cases htask
  | takeRequest id now => simp [act, Machine.takeRequest, h.requests id hnode]
  | takeMessage id now => simp [act, Machine.takeMessage, h.inbox id hnode]
  | goOn id now => simp [act, Machine.goOn, Replica.act, (h.waits id hnode).1]
  | answer id => simp [act, answer, (h.waits id hnode).2]
  | dispatch id order => simp [act, Machine.dispatch, h.dispatched id hnode]
  | handOver id => simp [act, handOver, h.sending id hnode]
  | log id => simp [act, Machine.log, h.logged id hnode]
  | frame source target =>
      by_cases hjoined : Joined live source target
      · simp [act, Pipe.frame, h.channel source target hjoined]
      · obtain ⟨connected, hnew⟩ := hup.apart source target hjoined
        simp [act, hnew]
  | write source target k =>
      by_cases hjoined : Joined live source target
      · have hnone : (d.pipes source target).writing = [] :=
          (List.append_eq_nil_iff.mp (List.append_eq_nil_iff.mp (h.bytes _ _ hjoined)).2).2
        have hno : ¬ (0 < k ∧ k ≤ 0) := by omega
        simp only [act, Pipe.write, hnone, List.length_nil]
        rw [if_neg fun hall => hno ⟨hall.2.1, hall.2.2.1⟩]
        rfl
      · obtain ⟨connected, hnew⟩ := hup.apart source target hjoined
        simp [act, hnew]
  | read source target k =>
      by_cases hjoined : Joined live source target
      · have hnone : (d.pipes source target).stream = [] :=
          (List.append_eq_nil_iff.mp (List.append_eq_nil_iff.mp (h.bytes _ _ hjoined)).2).1
        have hno : ¬ (0 < k ∧ k ≤ 0) := by omega
        simp only [act, Pipe.read, hnone, List.length_nil]
        rw [if_neg fun hall => hno ⟨hall.2.2.1, hall.2.2.2⟩]
        rfl
      · obtain ⟨connected, hnew⟩ := hup.apart source target hjoined
        simp [act, hnew]
  | receive source target =>
      by_cases hjoined : Joined live source target
      · have hnone : (d.pipes source target).buffer = [] :=
          (List.append_eq_nil_iff.mp (h.bytes _ _ hjoined)).1
        simp [act, Pipe.receive, hnone, Bincode.receiveMessage_nil]
      · obtain ⟨connected, hnew⟩ := hup.apart source target hjoined
        simp [act, hnew]
  | enqueue source target =>
      by_cases hjoined : Joined live source target
      · simp [act, enqueue, h.arrived source target hjoined]
      · obtain ⟨connected, hnew⟩ := hup.apart source target hjoined
        simp [act, enqueue, hnew, Pipe.new]
  | stopWriter source target => cases htask
  | stopReader source target => cases htask
  | removePeer id peer =>
      by_cases hpeer : peer ∈ live.erase id
      · obtain ⟨hne, hlive⟩ := Finset.mem_erase.mp hpeer
        have hreader := hup.reader peer id ⟨hlive, Finset.mem_erase.mpr ⟨Ne.symm hne, hnode⟩⟩
        simp [act, removePeer, hreader]
      · rw [← hup.peers id hnode] at hpeer
        simp [act, removePeer, hpeer]

end

end Deployment

namespace Sample

theorem exists_healthy : ∃ d,
    Run (Deployment.HealthyStep codec 1000 firstTwo) connected throughout d ∧
      Deployment.Done firstTwo d ∧ Deployment.Stuck codec 1000 firstTwo d := by
  obtain ⟨d, hrun, hdone⟩ := Deployment.exists_healthy_run codec 1000 firstTwo connected throughout
    (Deployment.Done firstTwo) (by decide +kernel)
  obtain ⟨-, -, -, -, hup⟩ := Deployment.up_of_run codec_lawful hrun
  exact ⟨d, hrun, hdone, hdone.stuck hup⟩

end Sample

end P2pPbft
