/-
The keys behind the votes.

A vote is filed under the id it names, which is a text, and its signature is checked with
the key the text stands for.  `hex::decode` reads digits in either case, so a key with a
letter in it goes by several texts, and its holder has a vote under each of them.
`public_key_hex` writes one of these, the one in lower case.  As long as the ids of the
votes that are accepted are written that way, each entry has a key of its own.
-/
import P2pPbft.Lib.Hex
import P2pPbft.Proofs.Voters

namespace P2pPbft

/-- What the `hex` crate says of its codec: it reads both cases and writes lower case. -/
class HexCrypto [Crypto] : Prop where
  decode_eq_some : ∀ s bytes,
    Crypto.hexDecode s = some bytes ↔ Hex.Reads (asBytes s) bytes
  encode_lower : ∀ bytes, ∀ c ∈ asBytes (Crypto.hexEncode bytes), Hex.IsLower c

/-- The id is a text of digits in lower case. -/
def LowerHex (id : NodeId) : Prop := ∀ c ∈ asBytes id, Hex.IsLower c

instance (id : NodeId) : Decidable (LowerHex id) :=
  inferInstanceAs (Decidable (∀ c ∈ asBytes id, Hex.IsLower c))

section

variable [Crypto]

/-- Of the ids in lower case one key has one. -/
theorem LowerHex.eq_of_key [HexCrypto] {id id' : NodeId} (h : LowerHex id) (h' : LowerHex id')
    {key : List UInt8} (hkey : nodeIdToPublicKey id = some key)
    (hkey' : nodeIdToPublicKey id' = some key) : id = id' := by
  have hreads := (HexCrypto.decode_eq_some id key).mp hkey
  have hreads' := (HexCrypto.decode_eq_some id' key).mp hkey'
  exact asBytes_injective (hreads.unique hreads' h h')

theorem verifyNodeSignature_own [LawfulCrypto] (seed : Bytes 32) (message : List UInt8) :
    verifyNodeSignature (KeyPair.fromSeed seed).publicKeyHex message
      ((KeyPair.fromSeed seed).sign message) = true := by
  unfold verifyNodeSignature nodeIdToPublicKey KeyPair.publicKeyHex
  rw [LawfulCrypto.hexDecode_hexEncode]
  simp only [verifySignature_sign]
  rfl

theorem key_of_verifyNodeSignature {id : NodeId} {message signature : List UInt8}
    (h : verifyNodeSignature id message signature = true) :
    ∃ key, nodeIdToPublicKey id = some key ∧
      (verifySignature key message signature).isOk = true := by
  unfold verifyNodeSignature at h
  cases hkey : nodeIdToPublicKey id with
  | none =>
      rw [hkey] at h
      exact absurd h (by simp)
  | some key =>
      rw [hkey] at h
      exact ⟨key, rfl, h⟩

/-! ### One vote for each key -/

section

variable {V : Type} {message signature : V → List UInt8} {filed : Table NodeId V}

/--
No two of the ids votes are filed under stand for one key; and so each of as many keys as
there are votes has signed one of them.
-/
structure OneVoteEach (message signature : V → List UInt8) (filed : Table NodeId V) : Prop where
  one : ∀ id ∈ filed.keys, ∀ id' ∈ filed.keys, ∀ key,
    nodeIdToPublicKey id = some key → nodeIdToPublicKey id' = some key → id = id'
  signed : ∃ keys : Finset (List UInt8), keys.card = filed.keys.card ∧
    ∀ key ∈ keys, ∃ id vote, filed.lookup id = some vote ∧
      (verifySignature key (message vote) (signature vote)).isOk = true

/-- The vote is under an id in lower case, and signed with the key of the id. -/
def SignedBy (message signature : V → List UInt8) (id : NodeId) (vote : V) : Prop :=
  LowerHex id ∧ verifyNodeSignature id (message vote) (signature vote) = true

/-- **Signed votes under ids in lower case have a key each.** -/
theorem oneVoteEach [HexCrypto]
    (h : ∀ id vote, filed.lookup id = some vote → SignedBy message signature id vote) :
    OneVoteEach message signature filed := by
  have hone : ∀ id ∈ filed.keys, ∀ id' ∈ filed.keys, ∀ key,
      nodeIdToPublicKey id = some key → nodeIdToPublicKey id' = some key → id = id' := by
    intro id hid id' hid' key hkey hkey'
    obtain ⟨vote, hvote⟩ := Table.exists_lookup_of_mem_keys hid
    obtain ⟨vote', hvote'⟩ := Table.exists_lookup_of_mem_keys hid'
    exact (h id vote hvote).1.eq_of_key (h id' vote' hvote').1 hkey hkey'
  -- The keys are those the ids stand for.
  have hkeys : ∀ id ∈ filed.keys, ∃ vote key, filed.lookup id = some vote ∧
      nodeIdToPublicKey id = some key ∧
      (verifySignature key (message vote) (signature vote)).isOk = true := by
    intro id hid
    obtain ⟨vote, hvote⟩ := Table.exists_lookup_of_mem_keys hid
    obtain ⟨key, hkey, hok⟩ := key_of_verifyNodeSignature (h id vote hvote).2
    exact ⟨vote, key, hvote, hkey, hok⟩
  refine ⟨hone, filed.keys.image fun id => (nodeIdToPublicKey id).getD [], ?_, ?_⟩
  · refine Finset.card_image_of_injOn fun id hid id' hid' heq => ?_
    obtain ⟨-, key, -, hkey, -⟩ := hkeys id hid
    obtain ⟨-, key', -, hkey', -⟩ := hkeys id' hid'
    simp only [hkey, hkey', Option.getD_some] at heq
    exact hone id hid id' hid' key hkey (heq ▸ hkey')
  · intro key hmem
    obtain ⟨id, hid, rfl⟩ := Finset.mem_image.mp hmem
    obtain ⟨vote, key, hvote, hkey, hok⟩ := hkeys id hid
    rw [hkey]
    exact ⟨id, vote, hvote, hok⟩

end

/-- What a prepare signs. -/
def Prepare.signData (p : Prepare) : List UInt8 := asBytes (prepareSignData p.view p.sequence p.digest)

/-- What a commit signs. -/
def Commit.signData (c : Commit) : List UInt8 := asBytes (commitSignData c.view c.sequence c.digest)

/-- Of the prepares and of the commits of the instance no key has two. -/
structure ConsensusInstance.OneKeyOneVote (inst : ConsensusInstance) : Prop where
  prepares : OneVoteEach Prepare.signData Prepare.signature inst.prepares
  commits : OneVoteEach Commit.signData Commit.signature inst.commits

/-- A prepare or a commit the section accepts names its sender in lower case. -/
def PbftState.NamesInLowerCase (st : PbftState) : Section → Prop
  | .handlePrepare p => st.AcceptsPrepare p → LowerHex p.replicaId
  | .handleCommit c => st.AcceptsCommit c → LowerHex c.replicaId
  | _ => True

instance (st : PbftState) : (sec : Section) → Decidable (st.NamesInLowerCase sec)
  | .handlePrepare _ | .handleCommit _ =>
      by dsimp only [PbftState.NamesInLowerCase]; infer_instance
  | .handleRequest _ | .handlePrePrepare _ | .tryAdvanceToPrepared _ | .tryAdvanceToCommitted _
  | .tryCheckpoint _ | .handleCheckpoint _ | .handleViewChange _ | .handleNewView _
  | .startViewChange | .checkTimeout => isTrue trivial

namespace Replica

/-- The step accepts no prepare and no commit that does not name its sender in lower case. -/
def NamesInLowerCase (r : Replica) (a : Action) : Prop :=
  ∀ sec, r.sectionOf a = some sec → r.state.NamesInLowerCase sec

instance (r : Replica) (a : Action) : Decidable (r.NamesInLowerCase a) :=
  inferInstanceAs (Decidable (∀ sec, r.sectionOf a = some sec → r.state.NamesInLowerCase sec))

/-- The replica signs with the key its id stands for, and has signed votes on file only. -/
structure Keyed (seed : Bytes 32) (r : Replica) : Prop where
  nodeId : r.state.nodeId = (KeyPair.fromSeed seed).publicKeyHex
  keypair : r.state.keypair = KeyPair.fromSeed seed
  files : r.state.Files (SignedBy Prepare.signData Prepare.signature)
    (SignedBy Commit.signData Commit.signature)

theorem Keyed.act [LawfulCrypto] [HexCrypto] {seed : Bytes 32} {r r' : Replica} {a : Action}
    (h : r.Keyed seed) (hact : r.act a = some r') (hlower : r.NamesInLowerCase a) :
    r'.Keyed seed := by
  rcases act_cases hact with ⟨-, hstate, -⟩ | ⟨sec, hsec, hstate, -⟩
  · exact ⟨by rw [hstate]; exact h.nodeId, by rw [hstate]; exact h.keypair,
      by rw [hstate]; exact h.files⟩
  have ht := run_transition r.state a.now sec
  have hself : ∀ data, LowerHex r.state.nodeId ∧
      verifyNodeSignature r.state.nodeId (asBytes data) (r.state.sign data) = true := by
    intro data
    rw [PbftState.sign, h.nodeId, h.keypair]
    exact ⟨HexCrypto.encode_lower _, verifyNodeSignature_own seed _⟩
  refine ⟨by rw [hstate, ht.static.1]; exact h.nodeId,
    by rw [hstate, ht.static.2.1]; exact h.keypair, ?_⟩
  rw [hstate]
  refine h.files.step ht (fun _ _ _ => hself _) (fun _ _ _ => hself _) ?_ ?_
  · rintro p rfl hp
    exact ⟨hlower _ hsec hp, hp.signature⟩
  · rintro c rfl hc
    exact ⟨hlower _ hsec hc, hc.signature⟩

/--
**One key, one vote.**  The votes on file in an instance are of as many keys, in every run
in which the prepares and commits that are accepted name their senders in lower case.
-/
theorem one_key_one_vote [LawfulCrypto] [HexCrypto] {seed : Bytes 32} {replicas : Replicas}
    {config : PbftConfig} {now : Instant} {as : List Action} {r : Replica}
    (h : Run (Next NamesInLowerCase)
      (new (PbftState.new (KeyPair.fromSeed seed).publicKeyHex (KeyPair.fromSeed seed) replicas
        config now)) as r) {s : SequenceNumber} {inst : ConsensusInstance}
    (hlookup : r.state.log.lookup s = some inst) : inst.OneKeyOneVote := by
  have hkeyed : r.Keyed seed := by
    refine h.state_invariant (I := fun r => r.Keyed seed) ?_ ?_
    · exact ⟨rfl, rfl, fun s inst hlookup => absurd hlookup (by simp [new, PbftState.new])⟩
    · rintro t a u hkeyed ⟨hlower, hact⟩
      exact hkeyed.act hact hlower
  have hfiles := hkeyed.files s inst hlookup
  exact ⟨oneVoteEach hfiles.prepare, oneVoteEach hfiles.commit⟩

end Replica

end

namespace Sample

theorem hexValue_toNat (c : UInt8) : hexValue c.toNat = Hex.value c := rfl

theorem decodeCodes_eq_some : ∀ text bytes : List UInt8,
    decodeCodes (text.map UInt8.toNat) = some bytes ↔ Hex.Reads text bytes
  | [], bytes => by
      rw [Hex.reads_nil]
      exact ⟨fun h => (Option.some.inj h).symm, fun h => congrArg some h.symm⟩
  | [c], bytes => iff_of_false (by simp [decodeCodes]) (Hex.not_reads_singleton c bytes)
  | c :: d :: rest, [] => by
      refine iff_of_false ?_ (Hex.not_reads_cons_nil c _)
      simp only [List.map_cons, decodeCodes]
      split <;> simp
  | c :: d :: rest, b :: bytes => by
      have ih := decodeCodes_eq_some rest bytes
      rw [Hex.reads_cons, ← ih]
      simp only [List.map_cons, decodeCodes, hexValue_toNat]
      cases hx : Hex.value c with
      | none => simp
      | some x =>
          cases hy : Hex.value d with
          | none => simp
          | some y =>
              have hb := Hex.ofNat_eq_iff (Hex.value_lt hx) (Hex.value_lt hy) b
              simp only [Option.map_eq_some_iff, List.cons.injEq, hb, Option.some.injEq]
              grind

/-- The sample codec is the one of the crate. -/
scoped instance hexCrypto : HexCrypto where
  decode_eq_some s bytes := decodeCodes_eq_some (asBytes s) bytes
  encode_lower bytes c hc := by
    have hmem : c.toNat ∈ hexCodes bytes := asBytes_encode bytes ▸ List.mem_map_of_mem hc
    obtain ⟨n, hn, hcode⟩ := mem_hexCodes hmem
    unfold Hex.IsLower
    unfold hexDigit at hcode
    split at hcode <;> omega

/-- The bytes of a key that has letters in it. -/
def letters : Bytes 32 := List.Vector.replicate 32 0xab

/-- The text of the key in upper case. -/
def upperCase : NodeId :=
  String.ofList ((hexCodes letters.toList).map fun c => Char.ofNat (if 97 ≤ c then c - 32 else c))

/-- Four replicas, one of them with such a key. -/
def letteredReplicas : Replicas where
  ids := [node 0, node 1, node 2, (KeyPair.fromSeed letters).publicKeyHex]
  pos := by decide

/-- The state of the one of them with the key. -/
def lettered (seed : Bytes 32) : PbftState :=
  PbftState.new (KeyPair.fromSeed seed).publicKeyHex (KeyPair.fromSeed seed) letteredReplicas
    (PbftConfig.new 4) 0

/-- One replica votes for the first request under both of its names. -/
def twoNames : List Action :=
  let prepare := (lettered letters).ownPrepare 0 1 (request 1).digest
  let commit := (lettered letters).ownCommit (ConsensusInstance.new 1 0) 1 (request 1).digest
  [.prepare prepare, .prepare { prepare with replicaId := upperCase }, .commit commit,
    .commit { commit with replicaId := upperCase },
    .prePrepare ((lettered (seed 0)).proposal 1 (request 1))].map
    fun message => .call (.processMessage message) 0

end Sample

open Sample in
/-- A backup that gets votes of two others. -/
theorem Replica.one_key_one_vote_backup :
    ∃ inst : ConsensusInstance, inst.prepares.keys.card = 2 ∧ inst.OneKeyOneVote := by
  obtain ⟨r, hrun, hany⟩ := exists_run NamesInLowerCase (new ((cluster 3).initState (node 1)))
    (everyVoteOf (signer 2) ++ everyVoteOf (signer 3))
    (fun r => (r.state.log.lookup 1).any fun inst => inst.prepares.keys.card = 2)
    (by decide +kernel)
  obtain ⟨inst, hlookup, hcard⟩ := (Option.any_eq_true _ _).mp hany
  exact ⟨inst, of_decide_eq_true hcard, one_key_one_vote hrun hlookup⟩

open Sample in
/--
**One key has two votes**: a replica whose key has letters in it votes under its id in
lower and in upper case.  With the primary's pre-prepare a backup commits on that, on
three prepares and three commits of two keys.
-/
theorem Replica.two_names_two_votes :
    ∃ r, Run (Next fun _ _ => True) (new (lettered (seed 1)))
        (twoNames ++ List.replicate 4 (.resume 4 0)) r ∧
      (r.state.instanceAt 1).phase = .committed ∧
      ((r.state.instanceAt 1).prepares.keys.image nodeIdToPublicKey).card < r.state.config.quorum ∧
      ((r.state.instanceAt 1).commits.keys.image nodeIdToPublicKey).card < r.state.config.quorum ∧
      ∃ id ∈ (r.state.instanceAt 1).prepares.keys ∩ (r.state.instanceAt 1).commits.keys,
        ∃ id' ∈ (r.state.instanceAt 1).prepares.keys ∩ (r.state.instanceAt 1).commits.keys,
          id ≠ id' ∧ nodeIdToPublicKey id = some letters.toList ∧
            nodeIdToPublicKey id' = some letters.toList :=
  exists_run _ _ _ _ (by decide +kernel)

end P2pPbft
