/-
Keys and signatures, as in `crypto.rs`.

Ed25519, SHA-256 and the hex codec come from third-party crates, so they are the
fields of a class and nothing here computes them.  What `crypto.rs` itself does
around them, the length checks and the order of its errors, is written out.
-/
import Mathlib.Data.Vector.Basic

namespace P2pPbft

/-- A Rust `[u8; n]`. -/
abbrev Bytes (n : Nat) : Type := List.Vector UInt8 n

/-- `slice.try_into::<[u8; n]>()`: the slice has to have exactly that length. -/
def tryInto (n : Nat) (slice : List UInt8) : Option (Bytes n) :=
  if h : slice.length = n then some ⟨slice, h⟩ else none

theorem tryInto_toList {n : Nat} (bytes : Bytes n) : tryInto n bytes.toList = some bytes := by
  unfold tryInto
  rw [dif_pos bytes.toList_length]
  rfl

/-- `str::as_bytes`: the UTF-8 encoding. -/
def asBytes (s : String) : List UInt8 := s.toUTF8.data.toList

theorem asBytes_injective {s t : String} (h : asBytes s = asBytes t) : s = t :=
  String.toByteArray_inj.mp (ByteArray.ext (Array.toList_inj.mp h))

/-- What the program uses of `ed25519_dalek`, `sha2` and `hex`. -/
class Crypto where
  /-- `SigningKey::verifying_key`, as bytes. -/
  verifyingKey : Bytes 32 → Bytes 32
  /-- `SigningKey::sign`. -/
  ed25519Sign : Bytes 32 → List UInt8 → Bytes 64
  /-- Whether `VerifyingKey::from_bytes` accepts the bytes. -/
  isVerifyingKey : Bytes 32 → Bool
  /-- `VerifyingKey::verify`. -/
  ed25519Verify : Bytes 32 → List UInt8 → Bytes 64 → Bool
  /-- `Sha256` of a byte string. -/
  sha256 : List UInt8 → Bytes 32
  /-- `hex::encode`. -/
  hexEncode : List UInt8 → String
  /-- `hex::decode`. -/
  hexDecode : String → Option (List UInt8)

/-- What the crates promise about a key and the signatures made with it. -/
class LawfulCrypto [Crypto] : Prop where
  isVerifyingKey_verifyingKey : ∀ seed, Crypto.isVerifyingKey (Crypto.verifyingKey seed) = true
  verify_sign : ∀ seed message,
    Crypto.ed25519Verify (Crypto.verifyingKey seed) message (Crypto.ed25519Sign seed message) = true
  hexDecode_hexEncode : ∀ bytes, Crypto.hexDecode (Crypto.hexEncode bytes) = some bytes

inductive CryptoError
  | signatureVerificationFailed
  | invalidKeyFormat
  | signingFailed (reason : String)
  deriving DecidableEq, Repr

/-- Keypair for signing and verification. -/
structure KeyPair where
  signingKey : Bytes 32
  verifyingKey : Bytes 32
  deriving DecidableEq

variable [Crypto]

/-- Create a keypair from seed bytes. -/
def KeyPair.fromSeed (seed : Bytes 32) : KeyPair where
  signingKey := seed
  verifyingKey := Crypto.verifyingKey seed

/-- Sign a message. -/
def KeyPair.sign (keypair : KeyPair) (message : List UInt8) : List UInt8 :=
  (Crypto.ed25519Sign keypair.signingKey message).toList

/-- The public key as a hex string, used as node id. -/
def KeyPair.publicKeyHex (keypair : KeyPair) : String :=
  Crypto.hexEncode keypair.verifyingKey.toList

/-- Verify a signature given public key bytes. -/
def verifySignature (publicKey message signature : List UInt8) : Except CryptoError Unit :=
  match tryInto 32 publicKey with
  | none => .error .invalidKeyFormat
  | some pkBytes =>
    if Crypto.isVerifyingKey pkBytes = false then .error .invalidKeyFormat
    else
      match tryInto 64 signature with
      | none => .error .invalidKeyFormat
      | some sigBytes =>
        if Crypto.ed25519Verify pkBytes message sigBytes then .ok ()
        else .error .signatureVerificationFailed

theorem verifySignature_sign [LawfulCrypto] (seed : Bytes 32) (message : List UInt8) :
    verifySignature (KeyPair.fromSeed seed).verifyingKey.toList message
      ((KeyPair.fromSeed seed).sign message) = .ok () := by
  unfold verifySignature KeyPair.sign KeyPair.fromSeed
  simp only [tryInto_toList, LawfulCrypto.isVerifyingKey_verifyingKey,
    LawfulCrypto.verify_sign, Bool.true_eq_false, if_true, if_false]

end P2pPbft
