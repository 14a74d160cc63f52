/-
A small instance of the cryptography.

The proofs take Ed25519, SHA-256 and the hex codec as given.  Here is one choice of
them that can be run: the real hex codec, and in place of the other two a checksum
of what is signed or hashed.  It keeps everything `LawfulCrypto` asks for, so those
assumptions can be met, and it makes every definition of the model computable, so a
run can be written down and executed.

The instances are scoped: nothing sees them without opening the namespace.
-/
import P2pPbft.Cluster

namespace P2pPbft

namespace Sample

/-! ### Hex -/

/-- The ASCII code of a digit. -/
def hexDigit (n : Nat) : Nat := if n < 10 then 48 + n else 87 + n

/-- The digit an ASCII code stands for, in either case. -/
def hexValue (c : Nat) : Option Nat :=
  if 48 ≤ c ∧ c ≤ 57 then some (c - 48)
  else if 97 ≤ c ∧ c ≤ 102 then some (c - 87)
  else if 65 ≤ c ∧ c ≤ 70 then some (c - 55)
  else none

/-- The codes of the two digits of every byte. -/
def hexCodes (bytes : List UInt8) : List Nat :=
  bytes.flatMap fun b => [hexDigit (b.toNat / 16), hexDigit (b.toNat % 16)]

def encode (bytes : List UInt8) : String := String.ofList ((hexCodes bytes).map Char.ofNat)

/-- Read digits two at a time. -/
def decodeCodes : List Nat → Option (List UInt8)
  | [] => some []
  | [_] => none
  | a :: b :: rest =>
    match hexValue a, hexValue b with
    | some x, some y => (decodeCodes rest).map fun bytes => UInt8.ofNat (16 * x + y) :: bytes
    | _, _ => none

def decode (s : String) : Option (List UInt8) := decodeCodes ((asBytes s).map UInt8.toNat)

theorem hexDigit_lt {n : Nat} (h : n < 16) : hexDigit n < 128 := by
  unfold hexDigit
  split <;> omega

theorem hexValue_hexDigit {n : Nat} (h : n < 16) : hexValue (hexDigit n) = some n := by
  unfold hexValue hexDigit
  by_cases hn : n < 10
  · rw [if_pos hn, if_pos (by omega)]
    congr
    omega
  · rw [if_neg hn, if_neg (by omega), if_pos (by omega)]
    congr
    omega

theorem decodeCodes_hexCodes (bytes : List UInt8) : decodeCodes (hexCodes bytes) = some bytes := by
  induction bytes with
  | nil => rfl
  | cons b rest ih =>
      have hb : b.toNat < 256 := b.toNat_lt
      have hhigh : hexValue (hexDigit (b.toNat / 16)) = some (b.toNat / 16) :=
        hexValue_hexDigit (by omega)
      have hlow : hexValue (hexDigit (b.toNat % 16)) = some (b.toNat % 16) :=
        hexValue_hexDigit (by omega)
      have hsum : 16 * (b.toNat / 16) + b.toNat % 16 = b.toNat := Nat.div_add_mod _ 16
      have ih' : decodeCodes (List.flatMap
          (fun b : UInt8 => [hexDigit (b.toNat / 16), hexDigit (b.toNat % 16)]) rest) = some rest :=
        ih
      simp [hexCodes, decodeCodes, hhigh, hlow, ih', hsum]

/-- A text of ASCII characters is encoded by their codes. -/
theorem asBytes_ofList {codes : List Nat} (h : ∀ c ∈ codes, c < 128) :
    (asBytes (String.ofList (codes.map Char.ofNat))).map UInt8.toNat = codes := by
  have hchar : ∀ c < 128, (String.utf8EncodeChar (Char.ofNat c)).map UInt8.toNat = [c] := by
    decide +kernel
  have hencode : (String.ofList (codes.map Char.ofNat)).toUTF8
      = ((codes.map Char.ofNat).flatMap String.utf8EncodeChar).toByteArray :=
    String.toByteArray_ofList
  rw [asBytes, hencode, List.data_toByteArray]
  induction codes with
  | nil => rfl
  | cons c rest ih =>
      have ih := ih (fun c hc => h c (List.mem_cons_of_mem _ hc)) String.toByteArray_ofList
      simp only [List.map_cons, List.flatMap_cons, List.map_append, hchar c (h c (by simp))]
      rw [List.singleton_append, List.cons_inj_right]
      exact ih

theorem mem_hexCodes {bytes : List UInt8} {c : Nat} (h : c ∈ hexCodes bytes) :
    ∃ n < 16, c = hexDigit n := by
  obtain ⟨b, -, hb⟩ := List.mem_flatMap.mp h
  have : b.toNat < 256 := b.toNat_lt
  rcases List.mem_cons.mp hb with rfl | hb
  · exact ⟨b.toNat / 16, by omega, rfl⟩
  · exact ⟨b.toNat % 16, by omega, List.mem_singleton.mp hb⟩

theorem asBytes_encode (bytes : List UInt8) :
    (asBytes (encode bytes)).map UInt8.toNat = hexCodes bytes := by
  refine asBytes_ofList fun c hc => ?_
  obtain ⟨n, hn, rfl⟩ := mem_hexCodes hc
  exact hexDigit_lt hn

theorem decode_encode (bytes : List UInt8) : decode (encode bytes) = some bytes := by
  unfold decode
  rw [asBytes_encode, decodeCodes_hexCodes]

/-! ### Keys, signatures and digests -/

def checksum (bytes : List UInt8) : UInt8 :=
  UInt8.ofNat (bytes.foldl (fun sum b => (31 * sum + b.toNat) % 251) 7)

scoped instance crypto : Crypto where
  verifyingKey := id
  ed25519Sign seed message := List.Vector.replicate 64 (checksum (seed.toList ++ message))
  isVerifyingKey _ := true
  ed25519Verify key message signature :=
    signature == List.Vector.replicate 64 (checksum (key.toList ++ message))
  sha256 bytes := checksum bytes ::ᵥ List.Vector.replicate 31 0
  hexEncode := encode
  hexDecode := decode

/-- **The assumptions on the cryptography can be met.** -/
scoped instance lawfulCrypto : LawfulCrypto where
  isVerifyingKey_verifyingKey _ := rfl
  verify_sign _ _ := beq_self_eq_true _
  hexDecode_hexEncode := decode_encode

/-! ### Nodes and requests -/

/-- The numerals that name one of the four nodes below. -/
scoped instance neZero_four : @NeZero Nat Zero.ofOfNat0 4 :=
  @NeZero.mk Nat Zero.ofOfNat0 4 (Nat.succ_ne_zero 3)

def seed (i : Fin 4) : Bytes 32 := List.Vector.replicate 32 (UInt8.ofNat i.val)

/-- The ids of four nodes: their keys in hex. -/
def node (i : Fin 4) : NodeId := (KeyPair.fromSeed (seed i)).publicKeyHex

/-- Which of the four nodes has the id. -/
def index (id : NodeId) : Fin 4 := ((List.finRange 4).find? fun i => node i == id).getD 0

theorem index_node (i : Fin 4) : index (node i) = i := by
  revert i
  decide +kernel

theorem node_injective : Function.Injective node := fun i j h => by
  rw [← index_node i, h, index_node]

/-- The first `n + 1` of the nodes, as replicas of one cluster. -/
def replicas (n : Fin 4) : Replicas where
  ids := ((List.finRange 4).take (n.val + 1)).map node
  pos := by simp

def cluster (n : Fin 4) : Cluster where
  replicas := replicas n
  seed id := seed (index id)
  checkpointInterval := 100
  nodup := ((List.nodup_finRange 4).sublist (List.take_sublist _ _)).map node_injective
  publicKey id h := by
    obtain ⟨i, -, rfl⟩ := List.mem_map.mp h
    rw [index_node]
    rfl

def request (i : Nat) : Request where
  clientId := "client"
  timestamp := 0
  operation := [UInt8.ofNat i]

/-- The state with which one of the four nodes signs. -/
def signer (i : Fin 4) : PbftState := (cluster 3).initState (node i)

/-- Somebody with a key, but not one of the four. -/
def outsider : PbftState :=
  let keypair := KeyPair.fromSeed (List.Vector.replicate 32 9)
  PbftState.new keypair.publicKeyHex keypair (replicas 3) (cluster 3).config 0

/-! ### Events -/

def deliver (i : Fin 4) (message : ConsensusMessage) : Event :=
  ⟨node i, .call (.processMessage message) 0⟩

def submit (i : Fin 4) (request : Request) : Event := ⟨node i, .call (.handleRequest request) 0⟩

def resume (i : Fin 4) (index : Nat) : Event := ⟨node i, .resume index 0⟩

end Sample

end P2pPbft
