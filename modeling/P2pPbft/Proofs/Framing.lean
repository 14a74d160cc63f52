/-
What is sent is what is received, up to a size.

The two ends agree on the form of a frame but not on how large it may be: the receiver
refuses more than 16 MiB, and the sender has no limit and writes only the low 32 bits of
the length.  A message within the limit is read back and leaves the stream at the next
frame.  One beyond it never is: either the length that was written is refused, or it is
short of the message, and no message is decoded from a part of its encoding.
-/
import P2pPbft.Framing
import P2pPbft.Proofs.Digests

namespace P2pPbft

/-- A length and the bytes it is the length of. -/
def frame (data : List UInt8) : List UInt8 :=
  LittleEndian.bytes 4 (data.length % 2 ^ 32) ++ data

theorem readExact_append {n : Nat} {front : List UInt8} (h : front.length = n)
    (rest : List UInt8) : readExact n (front ++ rest) = some (front, rest) := by
  subst h
  unfold readExact
  rw [if_pos (by simp), List.take_left, List.drop_left]

theorem readExact_eq_some {n : Nat} {stream front rest : List UInt8}
    (h : readExact n stream = some (front, rest)) : stream = front ++ rest ∧ front.length = n := by
  unfold readExact at h
  split at h
  · rename_i hle
    obtain ⟨rfl, rfl⟩ := Prod.mk.inj (Option.some.inj h)
    exact ⟨(List.take_append_drop n stream).symm, List.length_take_of_le hle⟩
  · exact absurd h (by simp)

namespace Bincode

variable {Message : Type} {bincode : Bincode Message} {message : Message}
  {messages : List Message} {data stream rest rest' written : List UInt8}

theorem sendMessage_eq (h : bincode.serialize message = some data) :
    bincode.sendMessage written message = .ok (written ++ frame data) := by
  unfold sendMessage frame
  simp only [h, List.append_assoc]

/-- **Every message that was sent has an encoding, and the stream is their frames.** -/
theorem frames_of_foldlM (h : messages.foldlM bincode.sendMessage written = .ok stream) :
    ∃ encodings, List.Forall₂ (fun m data => bincode.serialize m = some data) messages encodings ∧
      stream = written ++ encodings.flatMap frame := by
  induction messages generalizing written with
  | nil =>
      obtain rfl := Except.ok.inj h
      exact ⟨[], List.Forall₂.nil, by simp⟩
  | cons message messages ih =>
      rw [List.foldlM_cons] at h
      cases hdata : bincode.serialize message with
      | none =>
          have herror : bincode.sendMessage written message = .error .serialization := by
            unfold sendMessage
            rw [hdata]
          rw [herror] at h
          cases h
      | some data =>
          rw [sendMessage_eq hdata] at h
          obtain ⟨encodings, hall, rfl⟩ := ih h
          refine ⟨data :: encodings, List.Forall₂.cons hdata hall, ?_⟩
          rw [List.flatMap_cons, List.append_assoc]

theorem receiveMessage_frame (data rest : List UInt8) :
    bincode.receiveMessage (frame data ++ rest) =
      if maxMessageSize < data.length % 2 ^ 32 then
        .error (.io (.invalidData
          s!"Message size {data.length % 2 ^ 32} exceeds maximum {maxMessageSize}"))
      else
        match readExact (data.length % 2 ^ 32) (data ++ rest) with
        | none => .error (.io .unexpectedEof)
        | some (data, stream) =>
          match bincode.deserialize data with
          | none => .error .serialization
          | some message => .ok (message, stream) := by
  have hlen : LittleEndian.value (LittleEndian.bytes 4 (data.length % 2 ^ 32))
      = data.length % 2 ^ 32 :=
    LittleEndian.value_bytes_of_lt (Nat.mod_lt _ (by decide))
  unfold receiveMessage frame
  rw [List.append_assoc, readExact_append (LittleEndian.length_bytes _ _)]
  dsimp only
  generalize LittleEndian.value (LittleEndian.bytes 4 (data.length % 2 ^ 32)) = len at hlen
  subst hlen
  rfl

/-- **A message within the limit is read back**, and the next frame comes next. -/
theorem receive_of_length_le (hlawful : bincode.Lawful)
    (hdata : bincode.serialize message = some data) (hle : data.length ≤ maxMessageSize) :
    bincode.receiveMessage (frame data ++ rest) = .ok (message, rest) := by
  have hmod : data.length % 2 ^ 32 = data.length := by
    unfold maxMessageSize at hle
    exact Nat.mod_eq_of_lt (by omega)
  rw [receiveMessage_frame, hmod, if_neg (Nat.not_lt.mpr hle), readExact_append rfl]
  simp only [hlawful.deserialize_serialize hdata]

/-- **Only a message within the limit is read back.** -/
theorem length_le_of_receive (hlawful : bincode.Lawful)
    (hdata : bincode.serialize message = some data)
    (h : bincode.receiveMessage (frame data ++ rest) = .ok (message, rest')) :
    data.length ≤ maxMessageSize := by
  rw [receiveMessage_frame] at h
  split at h
  · exact absurd h (by simp)
  rename_i hlimit
  have hle : data.length % 2 ^ 32 ≤ data.length := Nat.mod_le _ _
  have hread : readExact (data.length % 2 ^ 32) (data ++ rest)
      = some (data.take (data.length % 2 ^ 32), data.drop (data.length % 2 ^ 32) ++ rest) := by
    have hsplit : data ++ rest = data.take (data.length % 2 ^ 32) ++
        (data.drop (data.length % 2 ^ 32) ++ rest) := by
      rw [← List.append_assoc, List.take_append_drop]
    rw [hsplit]
    exact readExact_append (List.length_take_of_le hle) _
  simp only [hread] at h
  split at h
  · exact absurd h (by simp)
  rename_i message' hdecoded
  obtain ⟨rfl, -⟩ := Prod.mk.inj (Except.ok.inj h)
  -- A length that was cut off would leave a part of the encoding only.
  have hwhole : ¬ data.length % 2 ^ 32 < data.length := fun hlt =>
    hlawful.deserialize_take hdata _ hlt hdecoded
  omega

/--
**A stream of messages is read back exactly when no message is over the limit.**  After
every send has succeeded, receiving as many messages gives the ones that were sent, in
order and with no byte left over, if and only if each encoding has at most 16 MiB.
-/
theorem framing_round_trip (hlawful : bincode.Lawful)
    (hsent : bincode.sendMessages messages = .ok stream) :
    bincode.receiveMessages messages.length stream = .ok (messages, []) ↔
      ∀ message ∈ messages, ∀ data, bincode.serialize message = some data →
        data.length ≤ maxMessageSize := by
  obtain ⟨encodings, hall, rfl⟩ := frames_of_foldlM hsent
  rw [List.nil_append]
  clear hsent
  induction hall with
  | nil => exact ⟨fun _ _ h => absurd h (by simp), fun _ => rfl⟩
  | @cons message data messages encodings hdata _ ih =>
      rw [List.flatMap_cons, List.length_cons, receiveMessages, List.forall_mem_cons]
      constructor
      · intro h
        split at h
        · exact absurd h (by simp)
        rename_i message' rest hreceived
        split at h
        · exact absurd h (by simp)
        rename_i messages' rest' hrest
        obtain ⟨hmessages, rfl⟩ := Prod.mk.inj (Except.ok.inj h)
        obtain ⟨rfl, rfl⟩ := List.cons.inj hmessages
        have hle := length_le_of_receive hlawful hdata hreceived
        rw [receive_of_length_le hlawful hdata hle] at hreceived
        obtain ⟨-, rfl⟩ := Prod.mk.inj (Except.ok.inj hreceived)
        refine ⟨fun data' hdata' => ?_, ih.mp hrest⟩
        obtain rfl := Option.some.inj (hdata.symm.trans hdata')
        exact hle
      · rintro ⟨hle, hrest⟩
        rw [receive_of_length_le hlawful hdata (hle data hdata)]
        simp only [ih.mpr hrest]

end Bincode

namespace Sample

/-! ### Requests, as `bincode` has them

A request goes out as the variant 0 of the variant 4: each variant in four bytes, a
length in eight, all of them little-endian.
-/

/-- `NetworkMessage::Consensus`, and in it `ConsensusMessage::Request`. -/
def requestTag : List UInt8 := LittleEndian.bytes 4 4 ++ LittleEndian.bytes 4 0

/-- A byte string with its length. -/
def sized (bytes : List UInt8) : List UInt8 := LittleEndian.bytes 8 bytes.length ++ bytes

def encodeRequest (request : Request) : List UInt8 :=
  requestTag ++ (sized (asBytes request.clientId) ++
    (toLeBytes request.timestamp ++ sized request.operation))

/-- A byte string, and what comes after it. -/
def readSized (bytes : List UInt8) : Option (List UInt8 × List UInt8) :=
  (readExact 8 bytes).bind fun len => readExact (LittleEndian.value len.1) len.2

def decodeUtf8 (bytes : List UInt8) : Option String := String.fromUTF8? ⟨bytes.toArray⟩

/-- Bytes after the request are left alone. -/
def decodeRequest (bytes : List UInt8) : Option Request :=
  (readExact 8 bytes).bind fun tag =>
    if tag.1 ≠ requestTag then none
    else (readSized tag.2).bind fun clientId =>
      (decodeUtf8 clientId.1).bind fun client =>
        (readExact 8 clientId.2).bind fun timestamp =>
          (readSized timestamp.2).map fun operation => {
            clientId := client
            timestamp := UInt64.ofNat (LittleEndian.value timestamp.1)
            operation := operation.1 }

/-- A vector has a length that fits a `u64`. -/
def bincode : Bincode Request where
  serialize request :=
    if (asBytes request.clientId).length < 2 ^ 64 ∧ request.operation.length < 2 ^ 64 then
      some (encodeRequest request)
    else none
  deserialize := decodeRequest

theorem readSized_append {bytes : List UInt8} (h : bytes.length < 2 ^ 64) (rest : List UInt8) :
    readSized (sized bytes ++ rest) = some (bytes, rest) := by
  unfold readSized sized
  rw [List.append_assoc, readExact_append (LittleEndian.length_bytes _ _), Option.bind_some,
    LittleEndian.value_bytes_of_lt h, readExact_append rfl]

theorem length_of_readSized {bytes : List UInt8} {read : List UInt8 × List UInt8}
    (h : readSized bytes = some read) : bytes.length = 8 + read.1.length + read.2.length := by
  obtain ⟨len, hlen, hrest⟩ := Option.bind_eq_some_iff.mp h
  obtain ⟨rfl, hlength⟩ := readExact_eq_some hlen
  obtain ⟨hsplit, -⟩ := readExact_eq_some hrest
  rw [List.length_append, hlength, hsplit, List.length_append]
  omega

theorem decodeUtf8_asBytes (s : String) : decodeUtf8 (asBytes s) = some s := by
  have hbytes : (⟨(asBytes s).toArray⟩ : ByteArray) = s.toByteArray := by
    rw [asBytes, Array.toArray_toList]
    rfl
  unfold decodeUtf8 String.fromUTF8?
  rw [hbytes, dif_pos s.isValidUTF8]
  rfl

theorem asBytes_of_decodeUtf8 {bytes : List UInt8} {s : String} (h : decodeUtf8 bytes = some s) :
    asBytes s = bytes := by
  unfold decodeUtf8 String.fromUTF8? at h
  split at h
  · obtain rfl := Option.some.inj h
    rfl
  · exact absurd h (by simp)

theorem length_encodeRequest (request : Request) : (encodeRequest request).length
    = 32 + (asBytes request.clientId).length + request.operation.length := by
  simp only [encodeRequest, requestTag, sized, toLeBytes_eq, List.length_append,
    LittleEndian.length_bytes]
  omega

theorem decodeRequest_encodeRequest {request : Request}
    (hclient : (asBytes request.clientId).length < 2 ^ 64)
    (hoperation : request.operation.length < 2 ^ 64) :
    decodeRequest (encodeRequest request) = some request := by
  have htag : requestTag.length = 8 := by decide
  have htimestamp : UInt64.ofNat (LittleEndian.value (toLeBytes request.timestamp))
      = request.timestamp := by
    rw [toLeBytes_eq, LittleEndian.value_bytes_of_lt request.timestamp.toNat_lt, UInt64.ofNat_toNat]
  have hlast : readSized (sized request.operation) = some (request.operation, []) := by
    rw [← List.append_nil (sized request.operation), readSized_append hoperation]
  unfold decodeRequest encodeRequest
  rw [readExact_append htag, Option.bind_some, if_neg (by simp), readSized_append hclient,
    Option.bind_some, decodeUtf8_asBytes, Option.bind_some,
    readExact_append (by rw [toLeBytes_eq, LittleEndian.length_bytes]), Option.bind_some, hlast,
    Option.map_some, htimestamp]

/-- What is decoded to a request is at least as long as its encoding. -/
theorem length_of_decodeRequest {bytes : List UInt8} {request : Request}
    (hdecoded : decodeRequest bytes = some request) :
    (encodeRequest request).length ≤ bytes.length := by
  obtain ⟨tag, htag, h⟩ := Option.bind_eq_some_iff.mp hdecoded
  obtain ⟨rfl, htag⟩ := readExact_eq_some htag
  split at h
  · exact absurd h (by simp)
  obtain ⟨clientId, hclient, h⟩ := Option.bind_eq_some_iff.mp h
  obtain ⟨client, hutf8, h⟩ := Option.bind_eq_some_iff.mp h
  obtain ⟨timestamp, htimestamp, h⟩ := Option.bind_eq_some_iff.mp h
  obtain ⟨operation, hoperation, rfl⟩ := Option.map_eq_some_iff.mp h
  obtain ⟨hsplit, height⟩ := readExact_eq_some htimestamp
  have hlength := length_of_readSized hclient
  have hlength' := length_of_readSized hoperation
  rw [hsplit, List.length_append] at hlength
  rw [length_encodeRequest, List.length_append, asBytes_of_decodeUtf8 hutf8]
  show 32 + clientId.1.length + operation.1.length ≤ _
  omega

theorem serialize_eq_some {request : Request} {data : List UInt8}
    (h : bincode.serialize request = some data) :
    data = encodeRequest request ∧ (asBytes request.clientId).length < 2 ^ 64 ∧
      request.operation.length < 2 ^ 64 := by
  simp only [bincode] at h
  split at h
  · rename_i hfits
    exact ⟨(Option.some.inj h).symm, hfits⟩
  · exact absurd h (by simp)

theorem deserialize_eq (bytes : List UInt8) : bincode.deserialize bytes = decodeRequest bytes := rfl

/-- **The assumptions on the crate can be met**, by what it does with requests. -/
theorem bincode_lawful : bincode.Lawful where
  deserialize_serialize := by
    intro request data h
    obtain ⟨rfl, hclient, hoperation⟩ := serialize_eq_some h
    rw [deserialize_eq]
    exact decodeRequest_encodeRequest hclient hoperation
  deserialize_take := by
    intro request data h k hk hdecoded
    obtain ⟨rfl, -, -⟩ := serialize_eq_some h
    rw [deserialize_eq] at hdecoded
    have hlength := length_of_decodeRequest hdecoded
    rw [List.length_take] at hlength
    omega

/-- A request larger than the receiver's limit. -/
def largeRequest : Request where
  clientId := "client"
  timestamp := 0
  operation := List.replicate (2 ^ 24) 0

end Sample

open Sample in
/-- Two requests are read back. -/
theorem framing_round_trip_two :
    ∃ stream, bincode.sendMessages [request 1, request 2] = .ok stream ∧
      bincode.receiveMessages 2 stream = .ok ([request 1, request 2], []) := by
  have hsent : bincode.sendMessages [request 1, request 2]
      = .ok (frame (encodeRequest (request 1)) ++ frame (encodeRequest (request 2))) := by
    decide +kernel
  refine ⟨_, hsent, (Bincode.framing_round_trip bincode_lawful hsent).mpr ?_⟩
  intro message hmessage data hdata
  obtain ⟨rfl, -, -⟩ := serialize_eq_some hdata
  revert message
  decide +kernel

open Sample in
/--
**A request of 16 MiB is sent and cannot be received**: its encoding is larger than its
operation, and the receiver refuses it.
-/
theorem large_request_is_refused :
    ∃ stream, bincode.sendMessages [largeRequest] = .ok stream ∧
      bincode.receiveMessages 1 stream ≠ .ok ([largeRequest], []) := by
  have hlength : largeRequest.operation.length = 2 ^ 24 := List.length_replicate
  have hclient : (asBytes largeRequest.clientId).length = 6 := by decide +kernel
  have hdata : bincode.serialize largeRequest = some (encodeRequest largeRequest) := by
    simp only [bincode]
    rw [if_pos ⟨by omega, by omega⟩]
  have hsent : bincode.sendMessages [largeRequest] = .ok ([] ++ frame (encodeRequest largeRequest)) := by
    unfold Bincode.sendMessages
    rw [List.foldlM_cons, Bincode.sendMessage_eq hdata]
    rfl
  refine ⟨_, hsent, fun hreceived => ?_⟩
  rw [List.nil_append, ← List.append_nil (frame _), Bincode.receiveMessages] at hreceived
  split at hreceived
  · exact absurd hreceived (by simp)
  rename_i message rest hmessage
  split at hreceived
  · exact absurd hreceived (by simp)
  obtain ⟨hmessages, -⟩ := Prod.mk.inj (Except.ok.inj hreceived)
  obtain ⟨rfl, -⟩ := List.cons.inj hmessages
  have hle := Bincode.length_le_of_receive bincode_lawful hdata hmessage
  rw [length_encodeRequest, hlength, hclient, maxMessageSize] at hle
  omega

end P2pPbft
