/-
Every run of the tasks is a run on the links.

Take a node and one of its peers.  What the outgoing task has received from its channel for
that peer is, in this order: what the peer has taken, what waits in its inbox, the message
its reader holds, the frames on the stream, the channel of the handle, and what the outgoing
task still has in hand.  Once the peer is off the table, or the writer has ended, messages
are missing at the end of that list, and only there.  So what the peer takes next is always
the next message on the link.

The relation between the two systems says that for every pair of nodes, and the main loops
take the same steps in both.  All the others leave the links as they are.

Not proved here: anything about a connection that is opened or accepted during the run.  The
node at its end would miss what was broadcast before, and beside an older connection to the
same node its messages could overtake those of the other.  Neither is so on a link.
-/
import P2pPbft.Deployment
import P2pPbft.Lib.Simulation
import P2pPbft.Proofs.Demand
import P2pPbft.Proofs.Framing

namespace P2pPbft

/-! ### What is in a pipe -/

namespace Bincode

variable {Message : Type} {bincode : Bincode Message} {message message' : Message}
  {data stream rest : List UInt8}

theorem receiveMessage_nil :
    bincode.receiveMessage [] = .error (.io .unexpectedEof) := rfl

theorem readExact_append_right {n : Nat} {front : List UInt8}
    (h : readExact n stream = some (front, rest)) (more : List UInt8) :
    readExact n (stream ++ more) = some (front, rest ++ more) := by
  obtain ⟨rfl, hlength⟩ := readExact_eq_some h
  rw [List.append_assoc, readExact_append hlength]

/-- Bytes that come later change nothing about a message that is there. -/
theorem receiveMessage_append (h : bincode.receiveMessage stream = .ok (message, rest))
    (more : List UInt8) :
    bincode.receiveMessage (stream ++ more) = .ok (message, rest ++ more) := by
  unfold receiveMessage at h ⊢
  split at h
  · cases h
  rename_i lenBuf body hlen
  rw [readExact_append_right hlen]
  dsimp only at h ⊢
  split at h
  · cases h
  rename_i hlimit
  rw [if_neg hlimit]
  split at h
  · cases h
  rename_i data body' hdata
  rw [readExact_append_right hdata]
  dsimp only
  split at h
  · cases h
  rename_i message' hdecoded
  obtain ⟨rfl, rfl⟩ := Prod.mk.inj (Except.ok.inj h)
  rfl

/-- **What is received off a frame is what was framed**, if its length fits into four bytes. -/
theorem eq_of_receive_frame (hlawful : bincode.Lawful)
    (hdata : bincode.serialize message = some data) (hfits : data.length < 2 ^ 32)
    (h : bincode.receiveMessage (frame data ++ stream) = .ok (message', rest)) :
    message' = message ∧ rest = stream := by
  by_cases hle : data.length ≤ maxMessageSize
  · rw [receive_of_length_le hlawful hdata hle] at h
    obtain ⟨rfl, rfl⟩ := Prod.mk.inj (Except.ok.inj h)
    exact ⟨rfl, rfl⟩
  · rw [receiveMessage_frame, Nat.mod_eq_of_lt hfits, if_pos (Nat.not_le.mp hle)] at h
    cases h

end Bincode

/-! ### What a task does -/

namespace Pipe

variable {bincode : Bincode NetworkMessage} {pipe pipe' : Pipe} {window k : Nat}

theorem send_cases {message : NetworkMessage} (h : pipe.send message = some pipe') :
    (pipe.writer = false ∧ pipe' = pipe) ∨
      (pipe.writer = true ∧ pipe.channel.length < peerRoom ∧
        pipe' = { pipe with channel := pipe.channel ++ [message] }) := by
  unfold send at h
  split at h
  · rename_i hwriter
    exact Or.inl ⟨hwriter, (Option.some.inj h).symm⟩
  rename_i hwriter
  split at h
  · exact Or.inr ⟨by simpa using hwriter, ‹_›, (Option.some.inj h).symm⟩
  · cases h

theorem frame_cases (h : pipe.frame bincode = some pipe') :
    (pipe.writer = true ∧ pipe.writing = []) ∧
      ∃ message rest, pipe.channel = message :: rest ∧
        ((∃ data, bincode.serialize message = some data ∧
            pipe' = { pipe with channel := rest, writing := P2pPbft.frame data }) ∨
          (bincode.serialize message = none ∧ pipe' = pipe.stopWriter)) := by
  unfold frame at h
  split at h
  swap
  · cases h
  rename_i hready
  split at h
  · cases h
  rename_i message rest hchannel
  refine ⟨hready, message, rest, hchannel, ?_⟩
  cases hdata : bincode.serialize message with
  | none =>
      have hsent : bincode.sendMessage [] message = .error .serialization := by
        unfold Bincode.sendMessage
        rw [hdata]
      rw [hsent] at h
      exact Or.inr ⟨rfl, (Option.some.inj h).symm⟩
  | some data =>
      rw [Bincode.sendMessage_eq hdata] at h
      exact Or.inl ⟨data, rfl, (Option.some.inj h).symm⟩

theorem write_cases (h : pipe.write window k = some pipe') :
    (pipe.writer = true ∧ 0 < k ∧ k ≤ pipe.writing.length ∧ pipe.stream.length + k ≤ window) ∧
      pipe' = { pipe with
        writing := pipe.writing.drop k
        stream := pipe.stream ++ pipe.writing.take k } := by
  unfold write at h
  split at h
  · exact ⟨‹_›, (Option.some.inj h).symm⟩
  · cases h

theorem read_cases (h : pipe.read k = some pipe') :
    (pipe.reader = true ∧ pipe.arrived = none ∧ 0 < k ∧ k ≤ pipe.stream.length) ∧
      pipe' = { pipe with
        stream := pipe.stream.drop k
        buffer := pipe.buffer ++ pipe.stream.take k } := by
  unfold read at h
  split at h
  · exact ⟨‹_›, (Option.some.inj h).symm⟩
  · cases h

theorem receive_cases (h : pipe.receive bincode = some pipe') :
    (pipe.reader = true ∧ pipe.arrived = none) ∧
      ((∃ message rest, bincode.receiveMessage pipe.buffer = .ok (message, rest) ∧
          pipe' = { pipe with buffer := rest, arrived := some message }) ∨
        ∃ error, bincode.receiveMessage pipe.buffer = .error error ∧
          error ≠ .io .unexpectedEof ∧ pipe' = { pipe with reader := false }) := by
  unfold receive at h
  split at h
  swap
  · cases h
  refine ⟨‹_›, ?_⟩
  split at h
  · rename_i message rest hreceived
    exact Or.inl ⟨message, rest, hreceived, (Option.some.inj h).symm⟩
  · cases h
  · rename_i error hnot hfails
    exact Or.inr ⟨error, hfails, hnot, (Option.some.inj h).symm⟩

end Pipe

namespace Machine

variable {machine machine' : Machine} {id : NodeId} {now : Instant}

theorem typeIn_cases {request : Request} (h : machine.typeIn request = some machine') :
    machine.requests.length < requestRoom ∧
      machine' = { machine with requests := machine.requests ++ [request] } := by
  unfold typeIn at h
  split at h
  · exact ⟨‹_›, (Option.some.inj h).symm⟩
  · cases h

theorem log_cases (h : machine.log = some machine') :
    machine.logged < machine.replica.committed.length ∧
      machine' = { machine with logged := machine.logged + 1 } := by
  unfold log at h
  split at h
  · exact ⟨‹_›, (Option.some.inj h).symm⟩
  · cases h

variable [Crypto]

theorem takeRequest_cases (h : machine.takeRequest now = some machine') :
    machine.Waits ∧ ∃ request rest r, machine.requests = request :: rest ∧
      machine.replica.act (.call (.handleRequest request) now) = some r ∧
      machine' = { machine with replica := r, requests := rest } := by
  unfold takeRequest at h
  split at h
  swap
  · cases h
  refine ⟨‹_›, ?_⟩
  split at h
  · cases h
  rename_i request rest hrequests
  obtain ⟨r, hreplica, rfl⟩ := Option.map_eq_some_iff.mp h
  exact ⟨request, rest, r, hrequests, hreplica, rfl⟩

theorem takeMessage_cases (h : machine.takeMessage id now = some machine') :
    machine.Waits ∧ ∃ peer message rest, machine.inbox = (peer, message) :: rest ∧
      ((∃ m r, message = .consensus m ∧
          machine.replica.act (.call (.processMessage m) now) = some r ∧
          machine' = { machine with replica := r, inbox := rest }) ∨
        ((∀ m, message ≠ .consensus m) ∧
          ((∃ sender timestamp, message = .ping sender timestamp ∧
              machine' = { machine with
                inbox := rest
                answer := if peer ∈ machine.peers then some (peer, .pong id timestamp)
                  else none }) ∨
            machine' = { machine with inbox := rest }))) := by
  unfold takeMessage at h
  split at h
  swap
  · cases h
  refine ⟨‹_›, ?_⟩
  split at h
  · cases h
  · rename_i peer m rest hinbox
    obtain ⟨r, hreplica, rfl⟩ := Option.map_eq_some_iff.mp h
    exact ⟨peer, .consensus m, rest, hinbox, Or.inl ⟨m, r, rfl, hreplica, rfl⟩⟩
  · rename_i peer sender timestamp rest hinbox
    refine ⟨peer, .ping sender timestamp, rest, hinbox, Or.inr ⟨fun m heq => ?_,
      Or.inl ⟨sender, timestamp, rfl, (Option.some.inj h).symm⟩⟩⟩
    cases heq
  · rename_i entry rest hconsensus hping hinbox
    exact ⟨entry.1, entry.2, rest, hinbox, Or.inr ⟨fun m heq => hconsensus entry.1 m (heq ▸ rfl),
      Or.inr (Option.some.inj h).symm⟩⟩

theorem goOn_cases (h : machine.goOn now = some machine') :
    machine.HasRoom ∧ ∃ r, machine.replica.act (.resume 0 now) = some r ∧
      machine' = { machine with replica := r } := by
  unfold goOn at h
  split at h
  · obtain ⟨r, hreplica, rfl⟩ := Option.map_eq_some_iff.mp h
    exact ⟨‹_›, r, hreplica, rfl⟩
  · cases h

end Machine

/-! ### One direction of a connection -/

namespace Pipe

/-- All bytes that are on their way. -/
def bytes (pipe : Pipe) : List UInt8 := pipe.buffer ++ (pipe.stream ++ pipe.writing)

/-- They are the frames of these messages, each shorter than the limit. -/
def Frames (bincode : Bincode NetworkMessage) (limit : Nat) (pipe : Pipe)
    (framed : List NetworkMessage) : Prop :=
  ∃ encodings, List.Forall₂ (fun message data => bincode.serialize message = some data ∧
      data.length < limit) framed encodings ∧
    pipe.bytes = encodings.flatMap P2pPbft.frame

/-- What is in the pipe, the next to come out first. -/
def contents (pipe : Pipe) (framed : List NetworkMessage) : List NetworkMessage :=
  pipe.arrived.toList ++ (framed ++ pipe.channel)

/--
The pipe goes on with what came `out` of it, and so far that is the first part of what was
`sent`; it is all of it but what the sender has in hand, while there is a writer and more
may come.
-/
inductive Conveys (bincode : Bincode NetworkMessage) (limit : Nat) (pipe : Pipe)
    (sent out handing : List NetworkMessage) (joined : Prop) : Prop
  | intro (framed : List NetworkMessage) (hframes : pipe.Frames bincode limit framed)
      (hfront : out ++ pipe.contents framed <+: sent)
      (hwhole : pipe.writer = true → joined ∨ handing ≠ [] →
        out ++ pipe.contents framed ++ handing = sent)

namespace Conveys

variable {bincode : Bincode NetworkMessage} {pipe pipe' : Pipe} {limit window k : Nat}
  {sent out handing : List NetworkMessage} {message : NetworkMessage} {joined : Prop}

theorem new (connected : Bool) : (Pipe.new connected).Conveys bincode limit [] [] [] joined :=
  ⟨[], ⟨[], List.Forall₂.nil, rfl⟩, List.prefix_refl _, fun _ _ => rfl⟩

theorem dispatch (h : pipe.Conveys bincode limit sent out [] joined) {more : List NetworkMessage}
    (hjoined : joined → handing = more) (hparted : ¬ joined → handing = []) :
    pipe.Conveys bincode limit (sent ++ more) out handing joined := by
  obtain ⟨framed, hframes, hfront, hwhole⟩ := h
  refine ⟨framed, hframes, hfront.trans (List.prefix_append _ _), fun hwriter hmay => ?_⟩
  have hyes : joined := by
    by_contra hno
    exact hmay.elim hno fun hne => hne (hparted hno)
  rw [hjoined hyes, ← hwhole hwriter (Or.inl hyes), List.append_nil]

theorem send (h : pipe.Conveys bincode limit sent out (message :: handing) joined)
    (hsend : pipe.send message = some pipe') :
    pipe'.Conveys bincode limit sent out handing joined := by
  obtain ⟨framed, hframes, hfront, hwhole⟩ := h
  obtain ⟨hwriter, rfl⟩ | ⟨hwriter, -, rfl⟩ := send_cases hsend
  · exact ⟨framed, hframes, hfront, fun hyes => absurd hyes (by simp [hwriter])⟩
  · have hall := hwhole hwriter (Or.inr (List.cons_ne_nil _ _))
    refine ⟨framed, hframes, ⟨handing, ?_⟩, fun _ _ => ?_⟩ <;>
      simpa [contents] using hall

theorem stopWriter (h : pipe.Conveys bincode limit sent out handing joined) :
    pipe.stopWriter.Conveys bincode limit sent out handing joined := by
  obtain ⟨framed, hframes, hfront, -⟩ := h
  refine ⟨framed, hframes, List.IsPrefix.trans ⟨pipe.channel, ?_⟩ hfront,
    fun hyes => absurd hyes Bool.false_ne_true⟩
  simp [contents, Pipe.stopWriter]

theorem stopReader (h : pipe.Conveys bincode limit sent out handing joined) :
    Conveys bincode limit { pipe with reader := false } sent out handing joined := by
  obtain ⟨framed, hframes, hfront, hwhole⟩ := h
  exact ⟨framed, hframes, hfront, hwhole⟩

theorem frame (h : pipe.Conveys bincode limit sent out handing joined)
    (hfits : ∀ message ∈ pipe.channel.head?, ∀ data ∈ bincode.serialize message,
      data.length < limit)
    (hframe : pipe.frame bincode = some pipe') :
    pipe'.Conveys bincode limit sent out handing joined := by
  have hold := h
  obtain ⟨framed, ⟨encodings, hencodings, hbytes⟩, hfront, hwhole⟩ := h
  obtain ⟨⟨-, hready⟩, message, rest, hchannel, hnext⟩ := frame_cases hframe
  rcases hnext with ⟨data, hdata, rfl⟩ | ⟨-, rfl⟩
  · have hcontents : pipe.contents framed
        = contents { pipe with channel := rest, writing := P2pPbft.frame data }
          (framed ++ [message]) := by
      simp [contents, hchannel]
    rw [hcontents] at hfront hwhole
    have hfit := hfits message (by rw [hchannel]; rfl) data hdata
    refine ⟨framed ++ [message], ⟨encodings ++ [data], List.rel_append hencodings ?_, ?_⟩,
      hfront, hwhole⟩
    · exact List.Forall₂.cons ⟨hdata, hfit⟩ List.Forall₂.nil
    · rw [List.flatMap_append, ← hbytes, bytes, bytes, hready]
      simp
  · exact hold.stopWriter

theorem write (h : pipe.Conveys bincode limit sent out handing joined)
    (hwrite : pipe.write window k = some pipe') :
    pipe'.Conveys bincode limit sent out handing joined := by
  obtain ⟨framed, ⟨encodings, hencodings, hbytes⟩, hfront, hwhole⟩ := h
  obtain ⟨-, rfl⟩ := write_cases hwrite
  refine ⟨framed, ⟨encodings, hencodings, ?_⟩, hfront, hwhole⟩
  rw [← hbytes]
  simp [bytes]

theorem read (h : pipe.Conveys bincode limit sent out handing joined)
    (hread : pipe.read k = some pipe') : pipe'.Conveys bincode limit sent out handing joined := by
  obtain ⟨framed, ⟨encodings, hencodings, hbytes⟩, hfront, hwhole⟩ := h
  obtain ⟨-, rfl⟩ := read_cases hread
  refine ⟨framed, ⟨encodings, hencodings, ?_⟩, hfront, hwhole⟩
  rw [← hbytes]
  simp only [bytes, List.append_assoc]
  rw [← List.append_assoc (pipe.stream.take k), List.take_append_drop]

/-- **What the reader gets is the first message that was framed.** -/
theorem receive (hlawful : bincode.Lawful) (hlimit : limit ≤ 2 ^ 32)
    (h : pipe.Conveys bincode limit sent out handing joined)
    (hreceive : pipe.receive bincode = some pipe') :
    pipe'.Conveys bincode limit sent out handing joined := by
  have hold := h
  obtain ⟨framed, ⟨encodings, hencodings, hbytes⟩, hfront, hwhole⟩ := h
  obtain ⟨⟨-, hfree⟩, ⟨message, rest, hreceived, rfl⟩ | ⟨error, -, -, rfl⟩⟩ :=
    receive_cases hreceive
  · have hall := Bincode.receiveMessage_append hreceived (pipe.stream ++ pipe.writing)
    rw [← bytes, hbytes] at hall
    cases hencodings with
    | nil => cases hall
    | @cons first data framed encodings hdata hrest =>
        rw [List.flatMap_cons] at hall
        obtain ⟨rfl, hbytes'⟩ :=
          Bincode.eq_of_receive_frame hlawful hdata.1 (hdata.2.trans_le hlimit) hall
        have hcontents : pipe.contents (message :: framed)
            = contents { pipe with buffer := rest, arrived := some message } framed := by
          simp [contents, hfree]
        rw [hcontents] at hfront hwhole
        exact ⟨framed, ⟨encodings, hrest, hbytes'⟩, hfront, hwhole⟩
  · exact hold.stopReader

theorem enqueue (h : pipe.Conveys bincode limit sent out handing joined)
    (harrived : pipe.arrived = some message) :
    Conveys bincode limit { pipe with arrived := none } sent (out ++ [message]) handing joined := by
  obtain ⟨framed, hframes, hfront, hwhole⟩ := h
  have hcontents : out ++ pipe.contents framed
      = out ++ [message] ++ contents { pipe with arrived := none } framed := by
    simp [contents, harrived]
  rw [hcontents] at hfront hwhole
  exact ⟨framed, hframes, hfront, hwhole⟩

/-- Who is off the table is sent nothing more. -/
theorem part {joined' : Prop} (h : pipe.Conveys bincode limit sent out handing joined)
    (hparted : joined' → joined) : pipe.Conveys bincode limit sent out handing joined' := by
  obtain ⟨framed, hframes, hfront, hwhole⟩ := h
  exact ⟨framed, hframes, hfront, fun hwriter hmay => hwhole hwriter (hmay.imp_left hparted)⟩

theorem out_isPrefix (h : pipe.Conveys bincode limit sent out handing joined) : out <+: sent := by
  obtain ⟨framed, -, hfront, -⟩ := h
  exact (List.prefix_append _ _).trans hfront

end Conveys

end Pipe

/-! ### Two nodes -/

namespace Machine

/-- What the outgoing task has received for a node; no node is connected to itself. -/
def dispatchedTo (machine : Machine) (id target : NodeId) : List ConsensusMessage :=
  if id = target then []
  else (machine.replica.outgoing.take machine.dispatched).filterMap (OutgoingMessage.to? target)

/-- What of it is still in hand. -/
def handing (machine : Machine) (target : NodeId) : List NetworkMessage :=
  (machine.sending.filter (·.1 = target)).map (·.2)

/-- What waits in the inbox from a node. -/
def inboxFrom (machine : Machine) (source : NodeId) : List NetworkMessage :=
  (machine.inbox.filter (·.1 = source)).map (·.2)

/-- The main loop of the node runs the replica, and sends no pong. -/
structure Runs (machine : Machine) (id : NodeId) (r : Replica) : Prop where
  replica : r = machine.replica
  dispatched : machine.dispatched ≤ machine.replica.outgoing.length
  answer : machine.answer = none
  peers : id ∉ machine.peers

theorem inboxFrom_append (machine : Machine) (source other : NodeId) (message : NetworkMessage) :
    inboxFrom { machine with inbox := machine.inbox ++ [(other, message)] } source
      = machine.inboxFrom source ++ if other = source then [message] else [] := by
  simp only [inboxFrom, List.filter_append, List.map_append, List.filter_singleton]
  by_cases h : other = source <;> simp [h]

theorem dispatchedTo_succ {machine : Machine} {out : OutgoingMessage}
    (hout : machine.replica.outgoing[machine.dispatched]? = some out)
    (sending : List (NodeId × NetworkMessage)) (id target : NodeId) :
    dispatchedTo { machine with dispatched := machine.dispatched + 1, sending := sending } id target
      = machine.dispatchedTo id target ++
        if id = target then [] else (out.to? target).toList := by
  unfold dispatchedTo
  split
  · rfl
  · rw [List.take_add_one, hout, List.filterMap_append]
    cases hto : out.to? target <;> simp [hto]

theorem filter_addressed {order : List NodeId} (hnodup : order.Nodup) (message : NetworkMessage)
    (target : NodeId) :
    ((order.map fun id => (id, message)).filter (·.1 = target)).map (·.2)
      = if target ∈ order then [message] else [] := by
  induction order with
  | nil => rfl
  | cons id order ih =>
      obtain ⟨hnot, hnodup⟩ := List.nodup_cons.mp hnodup
      rw [List.map_cons, List.filter_cons]
      by_cases hid : id = target
      · subst hid
        have hrest := ih hnodup
        rw [if_neg hnot] at hrest
        simp [hrest]
      · simp [hid, ih hnodup, Ne.symm hid]

/-- **What goes out to a peer is what was received for it**, and to the others nothing goes. -/
theorem handing_addressees {machine : Machine} {order : List NodeId} {out : OutgoingMessage}
    {sending : List (NodeId × NetworkMessage)}
    (hconsensus : ∃ message : ConsensusMessage, out = .broadcast (.consensus message) ∨
      ∃ node, out = .sendTo node (.consensus message))
    (h : machine.addressees order out = some sending) (target : NodeId) :
    (sending.filter (·.1 = target)).map (·.2)
      = if target ∈ machine.peers then (out.to? target).toList.map .consensus else [] := by
  obtain ⟨message, rfl | ⟨node, rfl⟩⟩ := hconsensus
  · simp only [addressees] at h
    split at h
    · rename_i horder
      obtain rfl := Option.some.inj h
      rw [filter_addressed horder.1, ← horder.2]
      simp [OutgoingMessage.to?]
    · cases h
  · obtain rfl := Option.some.inj h
    by_cases hnode : node = target
    · subst hnode
      by_cases hpeer : node ∈ machine.peers <;> simp [hpeer, OutgoingMessage.to?]
    · by_cases hpeer : node ∈ machine.peers <;> simp [hpeer, hnode, OutgoingMessage.to?]

end Machine

/-- The pipe from one node to another carries what was sent on to what was heard. -/
def Pipe.Carries (bincode : Bincode NetworkMessage) (limit : Nat) (pipe : Pipe)
    (sender receiver : Machine) (heard : List ConsensusMessage) (source target : NodeId) : Prop :=
  pipe.Conveys bincode limit ((sender.dispatchedTo source target).map .consensus)
    (heard.map .consensus ++ receiver.inboxFrom source) (sender.handing target)
    (target ∈ sender.peers)

namespace Pipe.Carries

variable {bincode : Bincode NetworkMessage} {limit : Nat} {pipe pipe' : Pipe}
  {sender sender' receiver receiver' : Machine} {heard : List ConsensusMessage}
  {source target : NodeId}

/-- The sender does something that is not about sending. -/
theorem of_sender (h : pipe.Carries bincode limit sender receiver heard source target)
    (hto : sender'.dispatchedTo source target = sender.dispatchedTo source target)
    (hsending : sender'.sending = sender.sending) (hpeers : sender'.peers ⊆ sender.peers) :
    pipe.Carries bincode limit sender' receiver heard source target := by
  unfold Carries Machine.handing at h ⊢
  rw [hto, hsending]
  exact h.part fun hmem => hpeers hmem

/-- The receiver does something that is not about its inbox. -/
theorem of_receiver (h : pipe.Carries bincode limit sender receiver heard source target)
    (hinbox : receiver'.inbox = receiver.inbox) :
    pipe.Carries bincode limit sender receiver' heard source target := by
  unfold Carries Machine.inboxFrom at h ⊢
  rwa [hinbox]

end Pipe.Carries

namespace Deployment

variable {d d' : Deployment} {e : Event} {id source target : NodeId} {pipe : Pipe}
  {machine : Machine}

theorem machines_setMachine (id' : NodeId) :
    (d.setMachine id machine).machines id' = if id' = id then machine else d.machines id' :=
  Function.update_apply ..

@[simp] theorem machines_setPipe : (d.setPipe source target pipe).machines = d.machines := rfl

theorem pipes_setPipe (source' target' : NodeId) :
    (d.setPipe source target pipe).pipes source' target'
      = if source' = source ∧ target' = target then pipe else d.pipes source' target' := by
  show Function.update d.pipes source (Function.update (d.pipes source) target pipe) source' target'
    = _
  rw [Function.update_apply]
  by_cases hsource : source' = source
  · subst hsource
    rw [if_pos rfl, Function.update_apply]
    simp
  · rw [if_neg hsource, if_neg fun hpair => hsource hpair.1]

/-- The links are what the pipes make of themselves. -/
structure Represents (bincode : Bincode NetworkMessage) (limit : Nat) (d : Deployment)
    (links : Links) : Prop where
  runs : ∀ id, (d.machines id).Runs id (links.net id)
  carries : ∀ source target, (d.pipes source target).Carries bincode limit (d.machines source)
    (d.machines target) (links.heard target source) source target

variable {bincode : Bincode NetworkMessage} {limit : Nat} {links : Links}

/-! ### What the tasks do -/

theorem dispatch_cases {order : List NodeId} {machine' : Machine}
    (h : machine.dispatch order = some machine') :
    ∃ out sending, machine.sending = [] ∧
      machine.replica.outgoing[machine.dispatched]? = some out ∧
      machine.addressees order out = some sending ∧
      machine' = { machine with dispatched := machine.dispatched + 1, sending := sending } := by
  unfold Machine.dispatch at h
  split at h
  · rename_i hfree
    obtain ⟨out, hout, h⟩ := Option.bind_eq_some_iff.mp h
    obtain ⟨sending, hsending, rfl⟩ := Option.map_eq_some_iff.mp h
    exact ⟨out, sending, hfree, hout, hsending, rfl⟩
  · cases h

theorem handOver_cases (h : d.handOver id = some d') :
    ∃ target message rest pipe, (d.machines id).sending = (target, message) :: rest ∧
      (d.pipes id target).send message = some pipe ∧
      d' = (d.setPipe id target pipe).setMachine id { d.machines id with sending := rest } := by
  unfold Deployment.handOver at h
  split at h
  · cases h
  rename_i target message rest hsending
  obtain ⟨next, hsend, rfl⟩ := Option.map_eq_some_iff.mp h
  obtain ⟨pipe, hpipe, rfl⟩ := Option.map_eq_some_iff.mp hsend
  exact ⟨target, message, rest, pipe, hsending, hpipe, rfl⟩

theorem enqueue_cases (h : d.enqueue source target = some d') :
    ∃ message, (d.pipes source target).arrived = some message ∧
      d' = (d.setPipe source target { d.pipes source target with arrived := none }).setMachine
        target { d.machines target with
          inbox := (d.machines target).inbox ++ [(source, message)] } := by
  unfold Deployment.enqueue at h
  dsimp only at h
  split at h
  · obtain ⟨message, harrived, rfl⟩ := Option.map_eq_some_iff.mp h
    exact ⟨message, harrived, rfl⟩
  · cases h

theorem removePeer_cases {peer : NodeId} (h : d.removePeer id peer = some d') :
    ((d.pipes peer id).reader = false ∧ peer ∈ (d.machines id).peers) ∧
      d' = d.setMachine id { d.machines id with peers := (d.machines id).peers.erase peer } := by
  unfold Deployment.removePeer at h
  dsimp only at h
  split at h
  · exact ⟨‹_›, (Option.some.inj h).symm⟩
  · cases h

/-! ### Steps the links do not see -/

theorem Represents.setPipe (h : d.Represents bincode limit links)
    (hpipe : ∀ {sent out handing joined},
      (d.pipes source target).Conveys bincode limit sent out handing joined →
        pipe.Conveys bincode limit sent out handing joined) :
    (d.setPipe source target pipe).Represents bincode limit links where
  runs := h.runs
  carries := by
    intro source' target'
    have hold := h.carries source' target'
    rw [pipes_setPipe]
    split
    · rename_i hpair
      obtain ⟨rfl, rfl⟩ := hpair
      exact hpipe hold
    · exact hold

theorem runs_setMachine {r : NodeId → Replica}
    (h : ∀ id' ≠ id, (d.machines id').Runs id' (r id')) (hruns : machine.Runs id (r id))
    (id' : NodeId) : ((d.setMachine id machine).machines id').Runs id' (r id') := by
  rw [machines_setMachine]
  split
  · rename_i hid
    exact hid ▸ hruns
  · rename_i hid
    exact h id' hid

/-- A node goes on without its inbox; what it does as a sender is to be shown. -/
theorem carries_setMachine {heard : List ConsensusMessage}
    (hinbox : machine.inbox = (d.machines id).inbox)
    (h : pipe.Carries bincode limit (if source = id then machine else d.machines source)
      (d.machines target) heard source target) :
    pipe.Carries bincode limit ((d.setMachine id machine).machines source)
      ((d.setMachine id machine).machines target) heard source target := by
  rw [machines_setMachine source, machines_setMachine target]
  by_cases hid : target = id
  · subst hid
    rw [if_pos (rfl : target = target)]
    exact h.of_receiver hinbox
  · rw [if_neg hid]
    exact h

/-- A node goes on without its peers; what it does as a receiver is to be shown. -/
theorem carries_setMachine_inbox {heard : List ConsensusMessage}
    (hto : ∀ target, machine.dispatchedTo id target = (d.machines id).dispatchedTo id target)
    (hsending : machine.sending = (d.machines id).sending)
    (hpeers : machine.peers ⊆ (d.machines id).peers)
    (h : pipe.Carries bincode limit (d.machines source)
      (if target = id then machine else d.machines target) heard source target) :
    pipe.Carries bincode limit ((d.setMachine id machine).machines source)
      ((d.setMachine id machine).machines target) heard source target := by
  rw [machines_setMachine source, machines_setMachine target]
  by_cases hid : source = id
  · subst hid
    rw [if_pos (rfl : source = source)]
    exact h.of_sender (hto target) hsending hpeers
  · rw [if_neg hid]
    exact h

theorem Represents.setMachine (h : d.Represents bincode limit links)
    (hreplica : machine.replica = (d.machines id).replica)
    (hdispatched : machine.dispatched = (d.machines id).dispatched)
    (hinbox : machine.inbox = (d.machines id).inbox)
    (hanswer : machine.answer = (d.machines id).answer)
    (hsending : machine.sending = (d.machines id).sending)
    (hpeers : machine.peers ⊆ (d.machines id).peers) :
    (d.setMachine id machine).Represents bincode limit links := by
  have hruns := h.runs id
  constructor
  · refine runs_setMachine (fun id' _ => h.runs id')
      ⟨?_, ?_, ?_, fun hid => hruns.peers (hpeers hid)⟩
    · rw [hreplica]
      exact hruns.replica
    · rw [hreplica, hdispatched]
      exact hruns.dispatched
    · rw [hanswer]
      exact hruns.answer
  · intro source target
    have hold := h.carries source target
    refine carries_setMachine hinbox ?_
    split
    · rename_i hid
      subst hid
      refine hold.of_sender ?_ hsending hpeers
      unfold Machine.dispatchedTo
      rw [hreplica, hdispatched]
    · exact hold

theorem Represents.dispatch (h : d.Represents bincode limit links) {order : List NodeId}
    (hconsensus : ∀ out ∈ (d.machines id).replica.outgoing, ∃ message : ConsensusMessage,
      out = .broadcast (.consensus message) ∨ ∃ node, out = .sendTo node (.consensus message))
    (hstep : (d.machines id).dispatch order = some machine) :
    (d.setMachine id machine).Represents bincode limit links := by
  obtain ⟨out, sending, hfree, hout, hsending, rfl⟩ := dispatch_cases hstep
  obtain ⟨hlt, hget⟩ := List.getElem?_eq_some_iff.mp hout
  have hruns := h.runs id
  constructor
  · exact runs_setMachine (fun id' _ => h.runs id') ⟨hruns.replica, hlt, hruns.answer, hruns.peers⟩
  · intro source target
    have hold := h.carries source target
    refine carries_setMachine rfl ?_
    split
    swap
    · exact hold
    rename_i hid
    subst hid
    unfold Pipe.Carries Machine.handing at hold ⊢
    rw [hfree] at hold
    rw [Machine.dispatchedTo_succ hout, List.map_append,
      Machine.handing_addressees (hconsensus out (List.mem_of_getElem? hout)) hsending]
    refine hold.dispatch (fun hpeer => ?_) fun hnot => if_neg hnot
    have hne : source ≠ target := fun heq => hruns.peers (heq ▸ hpeer)
    rw [if_pos hpeer, if_neg hne]

theorem Represents.handOver (h : d.Represents bincode limit links)
    (hstep : d.handOver id = some d') : d'.Represents bincode limit links := by
  obtain ⟨target, message, rest, pipe, hsending, hpipe, rfl⟩ := handOver_cases hstep
  have hruns := h.runs id
  constructor
  · exact runs_setMachine (d := d.setPipe id target pipe) (fun id' _ => h.runs id')
      ⟨hruns.replica, hruns.dispatched, hruns.answer, hruns.peers⟩
  · intro source target'
    have hold := h.carries source target'
    refine carries_setMachine (d := d.setPipe id target pipe) rfl ?_
    show ((d.setPipe id target pipe).pipes source target').Carries _ _ _ _ _ _ _
    rw [pipes_setPipe]
    by_cases hid : source = id
    · subst hid
      rw [if_pos (rfl : source = source)]
      unfold Pipe.Carries Machine.handing at hold ⊢
      rw [hsending, List.filter_cons] at hold
      by_cases htarget : target' = target
      · subst htarget
        rw [if_pos ⟨rfl, rfl⟩]
        rw [if_pos (by simp), List.map_cons] at hold
        exact hold.send hpipe
      · rw [if_neg fun hpair => htarget hpair.2]
        rw [if_neg (by simpa using Ne.symm htarget)] at hold
        exact hold
    · rw [if_neg fun hpair => hid hpair.1, if_neg hid]
      exact hold

theorem Represents.enqueue (h : d.Represents bincode limit links)
    (hstep : d.enqueue source target = some d') : d'.Represents bincode limit links := by
  obtain ⟨message, harrived, rfl⟩ := enqueue_cases hstep
  have hruns := h.runs target
  constructor
  · exact runs_setMachine (d := d.setPipe source target _) (fun id' _ => h.runs id')
      ⟨hruns.replica, hruns.dispatched, hruns.answer, hruns.peers⟩
  · intro source' target'
    have hold := h.carries source' target'
    refine carries_setMachine_inbox (d := d.setPipe source target _) (fun _ => rfl) rfl
      (Finset.Subset.refl _) ?_
    show ((d.setPipe source target _).pipes source' target').Carries _ _ _ _ _ _ _
    rw [pipes_setPipe]
    by_cases htarget : target' = target
    · subst htarget
      rw [if_pos (rfl : target' = target')]
      unfold Pipe.Carries at hold ⊢
      rw [machines_setPipe, Machine.inboxFrom_append]
      by_cases hsource : source' = source
      · subst hsource
        rw [if_pos ⟨rfl, rfl⟩, if_pos rfl, ← List.append_assoc]
        exact hold.enqueue harrived
      · rw [if_neg fun hpair => hsource hpair.1, if_neg (Ne.symm hsource), List.append_nil]
        exact hold
    · rw [if_neg htarget, if_neg fun hpair => htarget hpair.2]
      exact hold

/-! ### Steps of the main loops -/

/-- **What comes next in the inbox comes next on the link.** -/
theorem Represents.upcoming (h : d.Represents bincode limit links) (hsound : links.Sound)
    {peer : NodeId} {message : NetworkMessage} {rest : List (NodeId × NetworkMessage)}
    (hinbox : (d.machines id).inbox = (peer, message) :: rest) :
    ∃ m, message = .consensus m ∧ peer ≠ id ∧ links.upcoming id peer = some m := by
  have hfront := (h.carries peer id).out_isPrefix
  have hfrom : (d.machines id).inboxFrom peer
      = message :: (rest.filter (·.1 = peer)).map (·.2) := by
    simp [Machine.inboxFrom, hinbox]
  unfold Machine.dispatchedTo at hfront
  rw [hfrom] at hfront
  by_cases hne : peer = id
  · rw [if_pos hne] at hfront
    simpa using hfront.length_le
  rw [if_neg hne] at hfront
  have hsent : (links.heard id peer).map NetworkMessage.consensus ++
      message :: (rest.filter (·.1 = peer)).map (·.2)
        <+: ((links.net peer).sentTo id).map NetworkMessage.consensus := by
    refine hfront.trans (List.IsPrefix.map _ (List.IsPrefix.filterMap _ ?_))
    rw [(h.runs peer).replica]
    exact List.take_prefix _ _
  have hlength : (links.heard id peer).length = links.taken id peer :=
    List.length_take_of_le (hsound.taken id peer)
  have hget : (((links.net peer).sentTo id).map NetworkMessage.consensus)[links.taken id peer]?
      = some message := by
    obtain ⟨more, hmore⟩ := hsent
    rw [← hmore, List.append_assoc, List.getElem?_append_right (by simp [hlength])]
    simp [hlength]
  rw [List.getElem?_map] at hget
  obtain ⟨m, hm, rfl⟩ := Option.map_eq_some_iff.mp hget
  exact ⟨m, rfl, hne, hm⟩

theorem admits_submit (h : links.Idle id) (request : Request) (now : Instant) :
    links.Admits ⟨none, ⟨id, .call (.handleRequest request) now⟩⟩ := h

theorem admits_resume (now : Instant) : links.Admits ⟨none, ⟨id, .resume 0 now⟩⟩ := rfl

theorem admits_deliver {peer : NodeId} {m : ConsensusMessage} (hne : peer ≠ id)
    (hidle : links.Idle id) (h : links.upcoming id peer = some m) (now : Instant) :
    links.Admits ⟨some peer, ⟨id, .call (.processMessage m) now⟩⟩ := ⟨hne, hidle, h⟩

section

variable [Crypto] {cluster : Cluster} {live : Finset NodeId} {window : Nat}
  {events : List Links.Event} {links' : Links} {e' : Links.Event}

/-- What a main loop does is a step on the links. -/
theorem step_of_admits {source : Option NodeId} {action : Action} {r : Replica}
    (hnode : id ∈ live) (hsource : ∀ peer ∈ source, peer ∈ live)
    (hadmits : links.Admits ⟨source, ⟨id, action⟩⟩)
    (hact : (links.net id).act action = some r) :
    ∃ links', links.Step live ⟨source, ⟨id, action⟩⟩ links' ∧ links'.net id = r := by
  have hnet : links.net.act ⟨id, action⟩ = some (Function.update links.net id r) := by
    unfold Net.act
    rw [hact, Option.map_some]
  refine ⟨⟨Function.update links.net id r, links.take id source⟩, ⟨⟨hnode, hsource⟩, ?_⟩,
    Function.update_self ..⟩
  unfold Links.act
  rw [if_pos hadmits, hnet, Option.map_some]

theorem live_of_upcoming (hr : Run (Links.Step live) (Links.init cluster) events links)
    {peer : NodeId} {m : ConsensusMessage} (h : links.upcoming id peer = some m) : peer ∈ live := by
  by_contra hdown
  have hnone := Links.issued_of_down hr hdown
  have haccounted := (Cluster.hosts_of_run (Links.net_run hr) peer).sound.accounted
  rcases Links.mem_sentTo.mp (Links.mem_sentTo_of_upcoming h) with hsent | hsent
  · exact absurd (haccounted.outgoing hsent) (by simp [hnone])
  · exact absurd (haccounted.outgoing hsent) (by simp [hnone])

theorem consensus_of_run (hr : Run (Links.Step live) (Links.init cluster) events links)
    (h : d.Represents bincode limit links) :
    ∀ out ∈ (d.machines id).replica.outgoing, ∃ message : ConsensusMessage,
      out = .broadcast (.consensus message) ∨ ∃ node, out = .sendTo node (.consensus message) := by
  intro out hout
  rw [← (h.runs id).replica] at hout
  have hissued := (Cluster.hosts_of_run (Links.net_run hr) id).sound.accounted.outgoing hout
  have hfirst := (Links.firstView_of_run hr id).sends _ hissued
  cases out with
  | broadcast message =>
      cases message with
      | consensus message => exact ⟨message, Or.inl rfl⟩
      | _ => exact hfirst.elim
  | sendTo node message =>
      cases message with
      | consensus message => exact ⟨message, Or.inr ⟨node, rfl⟩⟩
      | _ => exact hfirst.elim

/-- **The main loop of a node and its replica on the links take the same step.** -/
theorem Represents.mainLoop (h : d.Represents bincode limit links) (hsound : links.Sound)
    (hstep : links.Step live e' links') (hnode : e'.event.node = id)
    (hreplica : links'.net id = machine.replica)
    (hdispatched : machine.dispatched = (d.machines id).dispatched)
    (hanswer : machine.answer = (d.machines id).answer)
    (hsending : machine.sending = (d.machines id).sending)
    (hpeers : machine.peers = (d.machines id).peers)
    (hinbox : ∀ source,
      (links'.heard id source).map NetworkMessage.consensus ++ machine.inboxFrom source
        = (links.heard id source).map NetworkMessage.consensus ++
          (d.machines id).inboxFrom source) :
    (d.setMachine id machine).Represents bincode limit links' := by
  have hmoves := hstep.moves
  have hruns := h.runs id
  have hgrow : (d.machines id).replica.outgoing <+: machine.replica.outgoing := by
    have hact := Net.act_self hmoves.net
    rw [hnode, hreplica, hruns.replica] at hact
    exact Replica.outgoing_prefix_act hact
  constructor
  · refine runs_setMachine (fun id' hid => ?_) ⟨hreplica, ?_, ?_, ?_⟩
    · rw [Net.act_of_ne hmoves.net (hnode ▸ hid)]
      exact h.runs id'
    · rw [hdispatched]
      exact hruns.dispatched.trans hgrow.length_le
    · rw [hanswer]
      exact hruns.answer
    · rw [hpeers]
      exact hruns.peers
  · intro source target
    have hold := h.carries source target
    refine carries_setMachine_inbox (fun target' => ?_) hsending (hpeers ▸ Finset.Subset.refl _) ?_
    · unfold Machine.dispatchedTo
      obtain ⟨more, hmore⟩ := hgrow
      rw [hdispatched, ← hmore, List.take_append_of_le_length hruns.dispatched]
    · split
      · rename_i hid
        subst hid
        unfold Pipe.Carries at hold ⊢
        rw [hinbox source]
        exact hold
      · rename_i hid
        rw [hmoves.heard_same hsound fun htarget => absurd (htarget.trans hnode) hid]
        exact hold

end

/-! ### Runs -/

/-- The request that is typed in at the node. -/
def Event.typedIn? (id : NodeId) : Event → Option Request
  | .typeIn node request => if node = id then some request else none
  | _ => none

theorem sum_typedIn_le (live : Finset NodeId) (events : List Event) :
    ∑ id ∈ live, (events.filterMap (Event.typedIn? id)).length ≤ events.countP Event.isTyped := by
  induction events with
  | nil => simp
  | cons e events ih =>
      cases e with
      | typeIn node request =>
          have hadded : ∀ id, ((Event.typeIn node request :: events).filterMap
              (Event.typedIn? id)).length = (if node = id then 1 else 0) +
                (events.filterMap (Event.typedIn? id)).length := by
            intro id
            rw [List.filterMap_cons]
            by_cases hnode : node = id <;> simp [Event.typedIn?, hnode, Nat.add_comm]
          rw [Finset.sum_congr rfl fun id _ => hadded id, Finset.sum_add_distrib,
            Finset.sum_ite_eq, List.countP_cons_of_pos (by rfl), Nat.add_comm]
          refine Nat.add_le_add ih ?_
          split <;> omega
      | _ => simpa [List.filterMap_cons, Event.typedIn?, Event.isTyped] using ih

/-- The links represent the deployment, and the main loops take the requests in the order in
which they were typed in. -/
structure Follows (bincode : Bincode NetworkMessage) (limit : Nat) (events : List Event)
    (d : Deployment) (events' : List Links.Event) (links : Links) : Prop where
  represents : d.Represents bincode limit links
  requests : ∀ id, Links.submittedAt id events' ++ (d.machines id).requests
    = events.filterMap (Event.typedIn? id)

variable {events : List Event} {events' : List Links.Event}

theorem requests_setMachine (h : machine.requests = (d.machines id).requests) (id' : NodeId) :
    ((d.setMachine id machine).machines id').requests = (d.machines id').requests := by
  rw [machines_setMachine]
  split
  · rename_i hid
    exact hid ▸ h
  · rfl

theorem Follows.silent (h : Follows bincode limit events d events' links)
    (hrepresents : d'.Represents bincode limit links)
    (hrequests : ∀ id, (d'.machines id).requests = (d.machines id).requests)
    (htyped : ∀ id, e.typedIn? id = none) :
    Follows bincode limit (events ++ [e]) d' events' links where
  represents := hrepresents
  requests := fun id => by
    rw [List.filterMap_append, hrequests, h.requests]
    simp [htyped]

section

variable [Crypto] {cluster : Cluster} {live : Finset NodeId} {window : Nat} {links' : Links}
  {e' : Links.Event}

omit [Crypto] in
theorem Follows.goOn (h : Follows bincode limit events d events' links)
    (hrepresents : d'.Represents bincode limit links')
    (hrequests : ∀ id, (d'.machines id).requests = (d.machines id).requests)
    (htyped : ∀ id, e.typedIn? id = none) (hsubmitted : ∀ id, Links.submitted? id e' = none) :
    Follows bincode limit (events ++ [e]) d' (events' ++ [e']) links' where
  represents := hrepresents
  requests := fun id => by
    rw [Links.submittedAt_concat, List.filterMap_append, hrequests, ← h.requests]
    simp [htyped, hsubmitted]

omit [Crypto] in
theorem Follows.typeIn {request : Request} (h : Follows bincode limit events d events' links)
    (htyped : (d.machines id).typeIn request = some machine) :
    Follows bincode limit (events ++ [.typeIn id request]) (d.setMachine id machine) events'
      links := by
  obtain ⟨-, rfl⟩ := Machine.typeIn_cases htyped
  refine ⟨h.represents.setMachine rfl rfl rfl rfl rfl (Finset.Subset.refl _), fun id' => ?_⟩
  rw [List.filterMap_append, ← h.requests, machines_setMachine]
  by_cases hid : id' = id
  · subst hid
    simp [Event.typedIn?]
  · simp [Event.typedIn?, hid, Ne.symm hid]

theorem Follows.takeRequest {now : Instant}
    (hr : Run (Links.Step live) (Links.init cluster) events' links)
    (h : Follows bincode limit events d events' links) (hup : id ∈ live)
    (htaken : (d.machines id).takeRequest now = some machine) :
    ∃ more links', Run (Links.Step live) links more links' ∧
      Follows bincode limit (events ++ [.takeRequest id now]) (d.setMachine id machine)
        (events' ++ more) links' := by
  have hrepresents := h.represents
  have hsound := Links.sound_of_run hr
  obtain ⟨hwaits, request, rest, r, hrequests, hreplica, rfl⟩ := Machine.takeRequest_cases htaken
  rw [← (hrepresents.runs id).replica] at hreplica
  have hidle : links.Idle id := by
    rw [Links.Idle, (hrepresents.runs id).replica]
    exact hwaits.1
  obtain ⟨links', hlinks, hsame⟩ := step_of_admits hup
    (fun _ hpeer => absurd hpeer (by simp)) (admits_submit hidle request now) hreplica
  have hheard : ∀ source, links'.heard id source = links.heard id source := fun source =>
    hlinks.moves.heard_same hsound fun _ hnone => absurd hnone (by simp)
  refine Run.follows hlinks ⟨hrepresents.mainLoop hsound hlinks rfl hsame rfl rfl rfl rfl
    fun source => ?_, fun id' => ?_⟩
  · rw [hheard]
    rfl
  · rw [Links.submittedAt_concat, List.filterMap_append, ← h.requests, machines_setMachine]
    by_cases hid : id' = id
    · subst hid
      simp [Event.typedIn?, Links.submitted?, hrequests]
    · simp [Event.typedIn?, Links.submitted?, hid, Ne.symm hid]

theorem Follows.takeMessage {now : Instant}
    (hr : Run (Links.Step live) (Links.init cluster) events' links)
    (h : Follows bincode limit events d events' links) (hup : id ∈ live)
    (htaken : (d.machines id).takeMessage id now = some machine) :
    ∃ more links', Run (Links.Step live) links more links' ∧
      Follows bincode limit (events ++ [.takeMessage id now]) (d.setMachine id machine)
        (events' ++ more) links' := by
  have hrepresents := h.represents
  have hsound := Links.sound_of_run hr
  obtain ⟨hwaits, peer, message, rest, hinbox, hnext⟩ := Machine.takeMessage_cases htaken
  have hidle : links.Idle id := by
    rw [Links.Idle, (hrepresents.runs id).replica]
    exact hwaits.1
  obtain ⟨message, rfl, hne, hupcoming⟩ := hrepresents.upcoming hsound hinbox
  -- Only messages of the consensus are ever sent.
  obtain ⟨m, r, heq, hreplica, rfl⟩ | ⟨hother, -⟩ := hnext
  swap
  · exact absurd rfl (hother message)
  obtain rfl := NetworkMessage.consensus.inj heq
  rw [← (hrepresents.runs id).replica] at hreplica
  obtain ⟨links', hlinks, hsame⟩ := step_of_admits hup
    (fun _ hpeer => Option.some.inj hpeer ▸ live_of_upcoming hr hupcoming)
    (admits_deliver hne hidle hupcoming now) hreplica
  refine Run.follows hlinks (h.goOn (hrepresents.mainLoop hsound hlinks rfl hsame rfl rfl rfl
    rfl fun source => ?_) (requests_setMachine rfl) (fun _ => rfl) fun _ => rfl)
  by_cases hsource : source = peer
  · subst hsource
    obtain ⟨m', now', haction, -, -, hheard⟩ := hlinks.moves.heard_next (rfl : _ = some source)
    obtain ⟨hcall, -⟩ := Action.call.inj haction
    obtain rfl := Call.processMessage.inj hcall
    rw [hheard]
    simp [Machine.inboxFrom, hinbox]
  · rw [hlinks.moves.heard_same hsound fun _ heq => hsource (Option.some.inj heq).symm]
    simp [Machine.inboxFrom, hinbox, Ne.symm hsource]

theorem Follows.resume {now : Instant}
    (hr : Run (Links.Step live) (Links.init cluster) events' links)
    (h : Follows bincode limit events d events' links) (hup : id ∈ live)
    (hresumed : (d.machines id).goOn now = some machine) :
    ∃ more links', Run (Links.Step live) links more links' ∧
      Follows bincode limit (events ++ [.goOn id now]) (d.setMachine id machine)
        (events' ++ more) links' := by
  have hrepresents := h.represents
  have hsound := Links.sound_of_run hr
  obtain ⟨-, r, hreplica, rfl⟩ := Machine.goOn_cases hresumed
  rw [← (hrepresents.runs id).replica] at hreplica
  obtain ⟨links', hlinks, hsame⟩ := step_of_admits hup
    (fun _ hpeer => absurd hpeer (by simp)) (admits_resume now) hreplica
  have hheard : ∀ source, links'.heard id source = links.heard id source := fun source =>
    hlinks.moves.heard_same hsound fun _ hnone => absurd hnone (by simp)
  refine Run.follows hlinks (h.goOn (hrepresents.mainLoop hsound hlinks rfl hsame rfl rfl rfl
    rfl fun source => ?_) (requests_setMachine rfl) (fun _ => rfl) fun _ => rfl)
  rw [hheard]
  rfl

/-- **Whatever a task does, the links can follow.** -/
theorem Follows.step (hlawful : bincode.Lawful) (hlimit : limit ≤ 2 ^ 32)
    (hr : Run (Links.Step live) (Links.init cluster) events' links)
    (h : Follows bincode limit events d events' links) (hnode : e.node ∈ live)
    (hfits : d.Fits bincode limit e) (hact : d.act bincode window e = some d') :
    ∃ more links', Run (Links.Step live) links more links' ∧
      Follows bincode limit (events ++ [e]) d' (events' ++ more) links' := by
  have hrepresents := h.represents
  cases e with
  | typeIn id request =>
      obtain ⟨machine, hmachine, rfl⟩ := Option.map_eq_some_iff.mp hact
      exact Run.stays (h.typeIn hmachine)
  | takeRequest id now =>
      obtain ⟨machine, hmachine, rfl⟩ := Option.map_eq_some_iff.mp hact
      exact h.takeRequest hr hnode hmachine
  | takeMessage id now =>
      obtain ⟨machine, hmachine, rfl⟩ := Option.map_eq_some_iff.mp hact
      exact h.takeMessage hr hnode hmachine
  | goOn id now =>
      obtain ⟨machine, hmachine, rfl⟩ := Option.map_eq_some_iff.mp hact
      exact h.resume hr hnode hmachine
  | answer id =>
      obtain ⟨answer, hanswer, -⟩ := Option.bind_eq_some_iff.mp hact
      rw [(hrepresents.runs id).answer] at hanswer
      cases hanswer
  | dispatch id order =>
      obtain ⟨machine, hmachine, rfl⟩ := Option.map_eq_some_iff.mp hact
      refine Run.stays (h.silent (hrepresents.dispatch (consensus_of_run hr hrepresents) hmachine)
        (requests_setMachine ?_) fun _ => rfl)
      obtain ⟨out, sending, -, -, -, rfl⟩ := dispatch_cases hmachine
      rfl
  | handOver id =>
      refine Run.stays (h.silent (hrepresents.handOver hact) ?_ fun _ => rfl)
      obtain ⟨target, message, rest, pipe, -, -, rfl⟩ := handOver_cases hact
      exact requests_setMachine (d := d.setPipe id target pipe) rfl
  | log id =>
      obtain ⟨machine, hmachine, rfl⟩ := Option.map_eq_some_iff.mp hact
      obtain ⟨-, rfl⟩ := Machine.log_cases hmachine
      exact Run.stays (h.silent (hrepresents.setMachine rfl rfl rfl rfl rfl
        (Finset.Subset.refl _)) (requests_setMachine rfl) fun _ => rfl)
  | frame source target =>
      obtain ⟨pipe, hpipe, rfl⟩ := Option.map_eq_some_iff.mp hact
      exact Run.stays (h.silent (hrepresents.setPipe fun hold =>
        hold.frame hfits hpipe) (fun _ => rfl) fun _ => rfl)
  | write source target k =>
      obtain ⟨pipe, hpipe, rfl⟩ := Option.map_eq_some_iff.mp hact
      exact Run.stays (h.silent (hrepresents.setPipe fun hold => hold.write hpipe)
        (fun _ => rfl) fun _ => rfl)
  | read source target k =>
      obtain ⟨pipe, hpipe, rfl⟩ := Option.map_eq_some_iff.mp hact
      exact Run.stays (h.silent (hrepresents.setPipe fun hold => hold.read hpipe)
        (fun _ => rfl) fun _ => rfl)
  | receive source target =>
      obtain ⟨pipe, hpipe, rfl⟩ := Option.map_eq_some_iff.mp hact
      exact Run.stays (h.silent (hrepresents.setPipe fun hold => hold.receive hlawful hlimit hpipe)
        (fun _ => rfl) fun _ => rfl)
  | enqueue source target =>
      refine Run.stays (h.silent (hrepresents.enqueue hact) ?_ fun _ => rfl)
      obtain ⟨message, -, rfl⟩ := enqueue_cases hact
      exact requests_setMachine (d := d.setPipe source target _) rfl
  | stopWriter source target =>
      obtain rfl := Option.some.inj hact
      exact Run.stays (h.silent (hrepresents.setPipe fun hold => hold.stopWriter)
        (fun _ => rfl) fun _ => rfl)
  | stopReader source target =>
      obtain rfl := Option.some.inj hact
      exact Run.stays (h.silent (hrepresents.setPipe fun hold => hold.stopReader)
        (fun _ => rfl) fun _ => rfl)
  | removePeer id peer =>
      obtain ⟨-, rfl⟩ := removePeer_cases hact
      exact Run.stays (h.silent
        (hrepresents.setMachine rfl rfl rfl rfl rfl (Finset.erase_subset _ _))
        (requests_setMachine rfl) fun _ => rfl)

theorem follows_init {peers : NodeId → Finset NodeId} (hself : ∀ id, id ∉ peers id) :
    Follows bincode limit [] (init cluster peers) [] (Links.init cluster) where
  represents := {
    runs := fun id => ⟨rfl, Nat.le_refl _, rfl, hself id⟩
    carries := fun source target => by
      unfold Pipe.Carries Machine.dispatchedTo
      by_cases hsame : source = target
      · rw [if_pos hsame]
        exact Pipe.Conveys.new _
      · rw [if_neg hsame]
        exact Pipe.Conveys.new _ }
  requests := fun _ => rfl

/-- The links follow every run of the tasks. -/
theorem follows_of_run (hlawful : bincode.Lawful) {peers : NodeId → Finset NodeId}
    (hself : ∀ id, id ∉ peers id)
    (h : Run (Step bincode window live) (init cluster peers) events d) :
    ∃ events' links, Run (Links.Step live) (Links.init cluster) events' links ∧
      Follows bincode (2 ^ 32) events d events' links :=
  h.simulate (follows_init hself) fun _ hr hfollows ⟨⟨hnode, hfits⟩, hact⟩ =>
    hfollows.step hlawful (Nat.le_refl _) hr hnode hfits hact

/--
**Every run of the tasks is one on the links.**  Whatever the sizes of the pieces in which
bytes are written and read, however the tasks are interleaved, whoever has to wait for room,
and whichever readers and writers end: the replicas are those of a run in which every node
takes the messages of each other in the order in which they were sent, with none missing in
between, and its requests in the order in which they were typed in.  The connections are those
of the start: one that came up later would have the node at its end miss the first messages, and
a second one between two nodes would let theirs overtake each other.
-/
theorem run_on_links (hlawful : bincode.Lawful) {peers : NodeId → Finset NodeId}
    (hself : ∀ id, id ∉ peers id)
    (h : Run (Step bincode window live) (init cluster peers) events d) :
    ∃ events' links, Run (Links.Step live) (Links.init cluster) events' links ∧
      (∀ id, (d.machines id).replica = links.net id) ∧
      ∀ id, Links.submittedAt id events' ++ (d.machines id).requests
        = events.filterMap (Event.typedIn? id) := by
  obtain ⟨events', links, hrun, hfollows⟩ := follows_of_run hlawful hself h
  exact ⟨events', links, hrun, fun id => (hfollows.represents.runs id).replica.symm,
    hfollows.requests⟩

omit [Crypto] in
theorem submittedInAll_le (htyped : ∀ id, Links.submittedAt id events' ++ (d.machines id).requests
      = events.filterMap (Event.typedIn? id)) :
    Links.submittedInAll live events' ≤ events.countP Event.isTyped := by
  refine le_trans (Finset.sum_le_sum fun id _ => ?_) (sum_typedIn_le live events)
  rw [← htyped id, List.length_append]
  exact Nat.le_add_right _ _

theorem Follows.pace [LawfulCrypto] (hfollows : Follows bincode limit events d events' links)
    (hrun : Run (Links.Step live) (Links.init cluster) events' links)
    (hlive : live ⊆ cluster.members) (hinterval : 4 * cluster.checkpointInterval.toNat < 2 ^ 64)
    (hreach : Links.InReach cluster (events.countP Event.isTyped)) :
    Run (Links.PaceStep live) (Links.init cluster) events' links ∧
      Links.requestsHandled cluster events' < 2 ^ 64 := by
  have hhandled : Links.requestsHandled cluster events' ≤ events.countP Event.isTyped :=
    (Links.requestsHandled_le_submitted hrun).trans (submittedInAll_le hfollows.requests)
  have hreach := hreach.mono hhandled
  have hle := hreach.le
  exact ⟨Links.pace_of_inReach hlive hinterval hrun hreach, by omega⟩

/--
**Total order, down to the bytes.**  While fewer requests are typed in, at all nodes together,
than a checkpoint interval (or, with so few replicas that a stable checkpoint takes all the
others, no more than two), what the main loop of one node has handed over and what that of
another has are one a first part of the other: in every run of the tasks with the connections
of the start, whichever of them fail.
-/
theorem one_order [LawfulCrypto] (hlawful : bincode.Lawful) {peers : NodeId → Finset NodeId}
    (hself : ∀ id, id ∉ peers id) (hlive : live ⊆ cluster.members)
    (hinterval : 4 * cluster.checkpointInterval.toNat < 2 ^ 64)
    (h : Run (Step bincode window live) (init cluster peers) events d)
    (hreach : Links.InReach cluster (events.countP Event.isTyped)) (a b : NodeId) :
    (d.machines a).replica.committed <+: (d.machines b).replica.committed ∨
      (d.machines b).replica.committed <+: (d.machines a).replica.committed := by
  obtain ⟨events', links, hrun, hfollows⟩ := follows_of_run hlawful hself h
  obtain ⟨hpace, hcount⟩ := hfollows.pace hrun hlive hinterval hreach
  rw [← (hfollows.represents.runs a).replica, ← (hfollows.represents.runs b).replica]
  exact Links.comparable_of_pace hlive hpace hcount a b

theorem exists_run (bincode : Bincode NetworkMessage) (window : Nat) (live : Finset NodeId)
    (d₀ : Deployment) (events : List Event) (p : Deployment → Prop) [DecidablePred p]
    (h : (execute (next bincode window live) d₀ events).any (fun d => decide (p d)) = true) :
    ∃ d, Run (Step bincode window live) d₀ events d ∧ p d := by
  obtain ⟨d, hrun, hp⟩ := exists_run_of_execute _ _ _ p h
  exact ⟨d, hrun.mono fun hstep => (next_eq_some bincode window).mp hstep, hp⟩

end

end Deployment

namespace Sample

/-! ### The messages of one request, as `bincode` has them

Each is a variant of the variant 4, and its fields follow one after another, a digest
without its length.
-/

/-- `NetworkMessage::Consensus`, and in it the variant. -/
def consensusTag (variant : Nat) : List UInt8 :=
  LittleEndian.bytes 4 4 ++ LittleEndian.bytes 4 variant

/-- A prepare or a commit. -/
def encodeVote (variant : Nat) (view : ViewNumber) (sequence : SequenceNumber) (digest : Hash)
    (id : NodeId) (signature : List UInt8) : List UInt8 :=
  consensusTag variant ++ toLeBytes view ++ toLeBytes sequence ++ digest.toList ++
    sized (asBytes id) ++ sized signature

/-- A request within a message comes without the tags. -/
def encodePrePrepare (pp : PrePrepare) : List UInt8 :=
  consensusTag 1 ++ toLeBytes pp.view ++ toLeBytes pp.sequence ++ pp.digest.toList ++
    (encodeRequest pp.request).drop requestTag.length ++ sized (asBytes pp.primaryId) ++
    sized pp.signature

def encode? : NetworkMessage → Option (List UInt8)
  | .consensus (.request r) => some (encodeRequest r)
  | .consensus (.prePrepare pp) => some (encodePrePrepare pp)
  | .consensus (.prepare p) =>
    some (encodeVote 2 p.view p.sequence p.digest p.replicaId p.signature)
  | .consensus (.commit c) =>
    some (encodeVote 3 c.view c.sequence c.digest c.replicaId c.signature)
  | _ => none

/-- The crate, as far as these messages are concerned. -/
def among (messages : List NetworkMessage) : Bincode NetworkMessage where
  serialize message := if message ∈ messages then encode? message else none
  deserialize data := messages.find? fun message => encode? message = some data

theorem among_lawful {messages : List NetworkMessage}
    (h : ∀ m ∈ messages, ∀ m' ∈ messages, ∀ data ∈ encode? m, ∀ data' ∈ encode? m',
      data' <+: data → m' = m) : (among messages).Lawful where
  deserialize_serialize := by
    intro message data hdata
    simp only [among] at hdata ⊢
    split at hdata
    · rename_i hmem
      cases hfind : messages.find? fun m => encode? m = some data with
      | none => exact absurd (List.find?_eq_none.mp hfind message hmem) (by simp [hdata])
      | some m =>
          have hsame : encode? m = some data := by simpa using List.find?_some hfind
          rw [h message hmem m (List.mem_of_find?_eq_some hfind) data hdata data hsame
            (List.prefix_refl data)]
    · cases hdata
  deserialize_take := by
    intro message data hdata k hk hfind
    simp only [among] at hdata hfind
    split at hdata
    · rename_i hmem
      have hfront : encode? message = some (data.take k) := by simpa using List.find?_some hfind
      have hlength := congrArg List.length (Option.some.inj (hdata.symm.trans hfront))
      rw [List.length_take] at hlength
      omega
    · cases hdata

/-! ### A request from the command line to the logs -/

/-- What two nodes send each other about the request with a number. -/
def exchange (i : Nat) : List NetworkMessage :=
  let first := (cluster 1).initState (node 0)
  let second := (cluster 1).initState (node 1)
  let sequence := UInt64.ofNat i
  let digest := (request i).digest
  [.request (request i), .prePrepare (first.proposal sequence (request i)),
    .prepare (first.ownPrepare 0 sequence digest), .prepare (second.ownPrepare 0 sequence digest),
    .commit (first.ownCommit (ConsensusInstance.new sequence 0) sequence digest),
    .commit (second.ownCommit (ConsensusInstance.new sequence 0) sequence digest)].map .consensus

/-- What they send each other about the first two. -/
def exchanged : List NetworkMessage := exchange 1 ++ exchange 2

def codec : Bincode NetworkMessage := among exchanged

theorem codec_lawful : codec.Lawful := among_lawful (by decide +kernel)

/-- The first two nodes, connected to each other. -/
def firstTwo : Finset NodeId := {node 0, node 1}

/-- A message goes over the stream in two pieces, each way of cutting it another. -/
def carried (i j : Fin 4) (k : Nat) : List Deployment.Event :=
  [.dispatch (node i) [node j], .handOver (node i), .frame (node i) (node j),
    .write (node i) (node j) 10, .read (node i) (node j) 3, .write (node i) (node j) (k - 10),
    .read (node i) (node j) (k - 3), .receive (node i) (node j), .enqueue (node i) (node j)]

/-- The main loop takes a message and finishes with it. -/
def taken (i : Fin 4) (steps : Nat) : List Deployment.Event :=
  .takeMessage (node i) 0 :: List.replicate steps (.goOn (node i) 0)

/-- The same events over again. -/
def twice (events : List Deployment.Event) : List Deployment.Event := events ++ events

/-- Two requests that are typed in at the second node are logged at both. -/
def throughout : List Deployment.Event :=
  ([1, 2].flatMap fun i => [.typeIn (node 1) (request i), .takeRequest (node 1) 0,
      .goOn (node 1) 0, .goOn (node 1) 0]) ++
    twice (carried 1 0 43) ++ twice (taken 0 8) ++
    twice (carried 0 1 235 ++ carried 0 1 204 ++ carried 0 1 204) ++
    twice (taken 1 7 ++ taken 1 2 ++ taken 1 2) ++
    twice (carried 1 0 204 ++ carried 1 0 204) ++ twice (taken 0 2 ++ taken 0 2) ++
    twice [.log (node 0), .log (node 1)]

/-- The two nodes at the start. -/
def connected : Deployment := Deployment.init (cluster 1) fun id => firstTwo.erase id

theorem exists_throughout : ∃ d, Run (Deployment.Step codec 1000 firstTwo) connected throughout d ∧
    (d.machines (node 1)).replica.committed = [request 1, request 2] :=
  Deployment.exists_run codec 1000 firstTwo connected throughout
    (fun d => (d.machines (node 1)).replica.committed = [request 1, request 2]) (by decide +kernel)

end Sample

open Sample in
/-- The second of two nodes commits on the links what it has read off the stream, in its order. -/
theorem Deployment.run_on_links_two : ∃ events' links,
    Run (Links.Step firstTwo) (Links.init (cluster 1)) events' links ∧
      (links.net (node 1)).committed = [request 1, request 2] := by
  obtain ⟨d, hrun, hcommitted⟩ := exists_throughout
  obtain ⟨events', links, hrun', hreplica, -⟩ := run_on_links codec_lawful
    (fun id => Finset.notMem_erase id firstTwo) hrun
  exact ⟨events', links, hrun', by rw [← hreplica, hcommitted]⟩

open Sample in
/-- In the middle of it the second is one request behind the first. -/
theorem Deployment.one_order_two : ∃ d : Deployment,
    (d.machines (node 0)).replica.committed = [request 1, request 2] ∧
      (d.machines (node 1)).replica.committed = [request 1] ∧
      ((d.machines (node 0)).replica.committed <+: (d.machines (node 1)).replica.committed ∨
        (d.machines (node 1)).replica.committed <+: (d.machines (node 0)).replica.committed) := by
  obtain ⟨d, hrun, hfirst, hsecond⟩ := exists_run codec 1000 firstTwo connected
    (throughout.take 112)
    (fun d => (d.machines (node 0)).replica.committed = [request 1, request 2] ∧
      (d.machines (node 1)).replica.committed = [request 1]) (by decide +kernel)
  exact ⟨d, hfirst, hsecond, one_order codec_lawful
    (fun id => Finset.notMem_erase id firstTwo) (by decide +kernel) (by decide +kernel) hrun
    (by decide +kernel) (node 0) (node 1)⟩

end P2pPbft
