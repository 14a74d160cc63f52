/-
Messages on a stream, as at the end of `network.rs`.

A message is sent as its length, four bytes, and its `bincode` encoding.  `bincode` is a
third-party crate and a parameter here, and so is the type of messages: a `NewView` is
sent with its view changes in a vector, of which `P2pPbft/Message.lean` keeps no order.

A stream is the list of bytes written so far, or still to be read.  The transport is
reliable, so writing never fails, and reading fails where the bytes end.
-/
import P2pPbft.Lib.LittleEndian

namespace P2pPbft

/-- `bincode::serialize` and `bincode::deserialize` for a type of messages. -/
structure Bincode (Message : Type) where
  serialize : Message → Option (List UInt8)
  deserialize : List UInt8 → Option Message

/-- What the crate promises: an encoding is read back, and only where there is all of it. -/
structure Bincode.Lawful {Message : Type} (bincode : Bincode Message) : Prop where
  deserialize_serialize : ∀ {message data}, bincode.serialize message = some data →
    bincode.deserialize data = some message
  deserialize_take : ∀ {message data}, bincode.serialize message = some data →
    ∀ k < data.length, bincode.deserialize (data.take k) ≠ some message

inductive IoError
  | unexpectedEof
  | invalidData (message : String)
  deriving DecidableEq

inductive NetworkError
  | io (error : IoError)
  | serialization
  deriving DecidableEq

/-- Maximum message size (16 MB) to prevent OOM attacks. -/
def maxMessageSize : Nat := 16 * 1024 * 1024

/-- `read_exact`: the next bytes of a stream, and what comes after them. -/
def readExact (n : Nat) (stream : List UInt8) : Option (List UInt8 × List UInt8) :=
  if n ≤ stream.length then some (stream.take n, stream.drop n) else none

namespace Bincode

variable {Message : Type} (bincode : Bincode Message)

/-- Send a message over a stream: what has been written then. -/
def sendMessage (written : List UInt8) (message : Message) : Except NetworkError (List UInt8) :=
  match bincode.serialize message with
  | none => .error .serialization
  | some data =>
    -- `as u32` keeps the low 32 bits of the length.
    let len := data.length % 2 ^ 32
    .ok (written ++ LittleEndian.bytes 4 len ++ data)

/-- Receive a message from a stream: the message, and what is left to read. -/
def receiveMessage (stream : List UInt8) : Except NetworkError (Message × List UInt8) :=
  match readExact 4 stream with
  | none => .error (.io .unexpectedEof)
  | some (lenBuf, stream) =>
    let len := LittleEndian.value lenBuf
    -- Check message size to prevent OOM attacks.
    if maxMessageSize < len then
      .error (.io (.invalidData s!"Message size {len} exceeds maximum {maxMessageSize}"))
    else
      match readExact len stream with
      | none => .error (.io .unexpectedEof)
      | some (data, stream) =>
        match bincode.deserialize data with
        | none => .error .serialization
        | some message => .ok (message, stream)

/-- Send messages one after another, as long as it works. -/
def sendMessages (messages : List Message) : Except NetworkError (List UInt8) :=
  messages.foldlM bincode.sendMessage []

/-- Receive so many messages one after another. -/
def receiveMessages : Nat → List UInt8 → Except NetworkError (List Message × List UInt8)
  | 0, stream => .ok ([], stream)
  | n + 1, stream =>
    match bincode.receiveMessage stream with
    | .error error => .error error
    | .ok (message, stream) =>
      match receiveMessages n stream with
      | .error error => .error error
      | .ok (messages, stream) => .ok (message :: messages, stream)

end Bincode

end P2pPbft
