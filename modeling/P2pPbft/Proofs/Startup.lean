/-
What the options of a node make of the replica set.

The keypair, the list of replicas and the configuration are made in three places, and no
place looks at another.  The list has the first `numNodes` index seeds if an index is given,
the index itself is not looked at, and an index seed has one byte for the index.  So a list
of more than 256 has ids twice, and the node is in the list only if its seed is that of a
smaller index.  Without an index the list has the node alone, and the configuration is still
made for `numNodes`.

If all goes well the node starts in the state of a cluster, which is what the proofs about
the protocol take for granted.
-/
import P2pPbft.Startup
import P2pPbft.Proofs.SigningKeys

namespace P2pPbft

theorem indexSeed_eq_iff {i j : Nat} : indexSeed i = indexSeed j ↔ i % 256 = j % 256 := by
  have hbyte : UInt8.ofNat i = UInt8.ofNat j ↔ i % 256 = j % 256 := by
    rw [← UInt8.toNat_inj, UInt8.toNat_ofNat', UInt8.toNat_ofNat']
  rw [← hbyte]
  refine ⟨fun h => ?_, fun h => by rw [indexSeed, indexSeed, h]⟩
  exact congrArg List.Vector.head h

theorem shortens_of_ascii {id : NodeId} (hlength : 16 < (asBytes id).length)
    (h : ∀ c ∈ asBytes id, c.toNat < 128) : Shortens id := by
  have hlt : (⟨16⟩ : String.Pos.Raw) < id.rawEndPos := hlength
  have hbyte : (id.getUTF8Byte ⟨16⟩ hlt).toNat < 128 := h _ (Array.getElem_mem_toList _)
  have hascii : ∀ n < 128, UInt8.ofNat n &&& 128 = 0 := by decide +kernel
  have hfirst := hascii _ hbyte
  rw [UInt8.ofNat_toNat] at hfirst
  exact String.Pos.Raw.isValid_iff_isUTF8FirstByte.mpr (Or.inr ⟨hlt, Or.inl hfirst⟩)

section

variable [Crypto]

/-- **The id of a key can be cut**: it has sixty-four digits. -/
theorem shortens_publicKeyHex [HexCrypto] [LawfulCrypto] (keypair : KeyPair) :
    Shortens keypair.publicKeyHex := by
  have hreads : Hex.Reads (asBytes keypair.publicKeyHex) keypair.verifyingKey.toList :=
    (HexCrypto.decode_eq_some _ _).mp (LawfulCrypto.hexDecode_hexEncode _)
  refine shortens_of_ascii ?_ fun c hc => ?_
  · have hlength := congrArg List.length hreads
    rw [List.length_map, List.length_map, Hex.nibbles, List.length_flatMap] at hlength
    rw [hlength]
    simp
  · have hlower : Hex.IsLower c := HexCrypto.encode_lower _ c hc
    rcases hlower with ⟨-, hle⟩ | ⟨-, hle⟩ <;> omega

theorem startNode_ready {options : Options} {random : Bytes 32} {setup : Setup}
    (h : startNode options random = .ready setup) :
    startKeypair options random = .ok setup.keypair ∧
      setup.nodeId = setup.keypair.publicKeyHex ∧
      setup.replicas = replicaIds options setup.nodeId ∧
      setup.config = PbftConfig.new options.numNodes := by
  unfold startNode at h
  split at h
  · exact absurd h (by simp)
  rename_i keypair hkeypair
  simp only at h
  split at h
  · exact absurd h (by simp)
  obtain rfl := Started.ready.inj h
  exact ⟨hkeypair, rfl, rfl, rfl⟩

theorem fromSeed_of_startKeypair {options : Options} {random : Bytes 32} {keypair : KeyPair}
    (h : startKeypair options random = .ok keypair) :
    ∃ seed, keypair = KeyPair.fromSeed seed := by
  unfold startKeypair at h
  split at h
  · split at h
    · exact absurd h (by simp)
    split at h
    · exact absurd h (by simp)
    · exact ⟨_, (Except.ok.inj h).symm⟩
  · split at h
    all_goals exact ⟨_, (Except.ok.inj h).symm⟩

/-- Whatever the options are, cutting the ids for the log is no problem. -/
theorem startNode_ne_panic [HexCrypto] [LawfulCrypto] (options : Options) (random : Bytes 32) :
    startNode options random ≠ .panic := by
  unfold startNode
  split
  · simp
  rename_i keypair hkeypair
  rw [if_neg]
  · simp
  rintro ⟨hindex, id, hid, hshort⟩
  obtain ⟨idx, hidx⟩ := Option.isSome_iff_exists.mp hindex
  simp only [replicaIds, hidx, List.mem_insertionSort, List.mem_map] at hid
  obtain ⟨i, -, rfl⟩ := hid
  exact hshort (shortens_publicKeyHex _)

theorem exists_ready [HexCrypto] [LawfulCrypto] (options : Options) (random : Bytes 32)
    {keypair : KeyPair} (h : startKeypair options random = .ok keypair) :
    ∃ setup, startNode options random = .ready setup := by
  cases hstart : startNode options random with
  | ready setup => exact ⟨setup, rfl⟩
  | panic => exact absurd hstart (startNode_ne_panic options random)
  | err error =>
      unfold startNode at hstart
      rw [h] at hstart
      simp only at hstart
      split at hstart <;> exact absurd hstart (by simp)

/-! ### The replica set -/

/-- One replica set: `n` different ids, the node's own among them. -/
structure Setup.Consistent (setup : Setup) (options : Options) : Prop where
  numNodes : 1 ≤ options.numNodes
  nodup : setup.replicas.Nodup
  length : setup.replicas.length = setup.config.n
  own : setup.nodeId ∈ setup.replicas

/--
The options go together: an index below the number of nodes, or a seed in its place that is
one of theirs, and at most 256 nodes.  Without an index there is one node.
-/
def Options.Suit (options : Options) : Prop :=
  match options.index, options.seed with
  | none, _ => options.numNodes = 1
  | some idx, none => options.numNodes ≤ 256 ∧ idx % 256 < options.numNodes
  | some _, some seedHex => options.numNodes ≤ 256 ∧
      ∃ i < options.numNodes, Crypto.hexDecode seedHex = some (indexSeed i).toList

section

variable (hinj : Function.Injective fun seed => (KeyPair.fromSeed seed).publicKeyHex)
include hinj

theorem indexId_eq_iff {i j : Nat} : indexId i = indexId j ↔ i % 256 = j % 256 := by
  rw [← indexSeed_eq_iff]
  exact hinj.eq_iff

/-- **The ids of the first indices are different up to 256 of them.** -/
theorem nodup_indexIds_iff {n : Nat} : ((List.range n).map indexId).Nodup ↔ n ≤ 256 := by
  rw [List.nodup_map_iff_inj_on List.nodup_range]
  constructor
  · intro h
    by_contra hlt
    have hsame : indexId 0 = indexId 256 := (indexId_eq_iff hinj).mpr rfl
    exact absurd (h 0 (List.mem_range.mpr (by omega)) 256 (List.mem_range.mpr (by omega)) hsame)
      (by decide)
  · intro hle i hi j hj hsame
    have hi := List.mem_range.mp hi
    have hj := List.mem_range.mp hj
    have hmod := (indexId_eq_iff hinj).mp hsame
    omega

theorem mem_indexIds_iff {n : Nat} {seed : Bytes 32} :
    (KeyPair.fromSeed seed).publicKeyHex ∈ (List.range n).map indexId ↔
      ∃ i < n, seed = indexSeed i := by
  constructor
  · intro h
    obtain ⟨i, hi, hid⟩ := List.mem_map.mp h
    exact ⟨i, List.mem_range.mp hi, (hinj hid).symm⟩
  · rintro ⟨i, hi, rfl⟩
    exact List.mem_map_of_mem (List.mem_range.mpr hi)

/-- With an index, the list is consistent if the seed is that of one of at most 256 indices. -/
theorem Setup.consistent_iff_of_index {options : Options} {random seed : Bytes 32}
    {setup : Setup} {idx : Nat} (h : startNode options random = .ready setup)
    (hindex : options.index = some idx) (hseed : setup.keypair = KeyPair.fromSeed seed) :
    setup.Consistent options ↔
      options.numNodes ≤ 256 ∧ ∃ i < options.numNodes, seed = indexSeed i := by
  obtain ⟨-, hid, hreplicas, hconfig⟩ := startNode_ready h
  simp only [replicaIds, hindex] at hreplicas
  rw [← nodup_indexIds_iff hinj, ← mem_indexIds_iff hinj, ← hseed, ← hid,
    ← List.mem_insertionSort (· ≤ ·), ← (List.perm_insertionSort (· ≤ ·) _).nodup_iff, ← hreplicas]
  constructor
  · exact fun hc => ⟨hc.nodup, hc.own⟩
  · rintro ⟨hnodup, hown⟩
    have hlength : setup.replicas.length = options.numNodes := by
      rw [hreplicas, List.length_insertionSort, List.length_map, List.length_range]
    refine ⟨?_, hnodup, ?_, hown⟩
    · rw [← hlength]
      exact List.length_pos_of_mem hown
    · rw [hlength, hconfig]
      rfl

/--
**A node that starts has a consistent replica set exactly if its options go together.**
-/
theorem startNode_consistent_iff {options : Options} {random : Bytes 32} {setup : Setup}
    (h : startNode options random = .ready setup) :
    setup.Consistent options ↔ options.Suit := by
  obtain ⟨hkeypair, hid, hreplicas, hconfig⟩ := startNode_ready h
  unfold Options.Suit
  cases hindex : options.index with
  | none =>
      simp only [replicaIds, hindex] at hreplicas
      constructor
      · intro hc
        have hlength := hc.length
        rw [hreplicas, hconfig] at hlength
        exact hlength.symm
      · intro hone
        refine ⟨Nat.le_of_eq hone.symm, ?_, ?_, ?_⟩
        · rw [hreplicas]
          exact List.nodup_singleton _
        · rw [hreplicas, hconfig]
          exact hone.symm
        · rw [hreplicas]
          exact List.mem_singleton.mpr rfl
  | some idx =>
      cases hseed : options.seed with
      | none =>
          simp only [startKeypair, hindex, hseed, Except.ok.injEq] at hkeypair
          rw [Setup.consistent_iff_of_index hinj h hindex hkeypair.symm]
          refine and_congr_right fun hle => ?_
          constructor
          · rintro ⟨i, hi, heq⟩
            have hmod := indexSeed_eq_iff.mp heq
            omega
          · intro hlt
            exact ⟨idx % 256, hlt, indexSeed_eq_iff.mpr (by omega)⟩
      | some seedHex =>
          simp only [startKeypair, hseed] at hkeypair
          split at hkeypair
          · exact absurd hkeypair (by simp)
          rename_i bytes hdecode
          split at hkeypair
          · exact absurd hkeypair (by simp)
          rename_i seed htry
          rw [Setup.consistent_iff_of_index hinj h hindex (Except.ok.inj hkeypair).symm]
          have hbytes : bytes = seed.toList := by
            unfold tryInto at htry
            split at htry
            · obtain rfl := Option.some.inj htry
              rfl
            · exact absurd htry (by simp)
          simp only [hdecode, hbytes, Option.some.injEq, List.Vector.toList_injective.eq_iff]

/-! ### The cluster the nodes are of -/

/-- The nodes with the first `n` indices. -/
def indexCluster (n : Nat) (hpos : 0 < n) (hle : n ≤ 256) : Cluster where
  replicas := {
    ids := ((List.range n).map indexId).insertionSort (· ≤ ·)
    pos := by simpa using hpos }
  seed id := indexSeed (((List.range n).find? fun i => indexId i == id).getD 0)
  checkpointInterval := 100
  nodup := (List.perm_insertionSort _ _).nodup_iff.mpr ((nodup_indexIds_iff hinj).mpr hle)
  publicKey id h := by
    obtain ⟨i, hi, hid⟩ := List.mem_map.mp ((List.mem_insertionSort _).mp h)
    obtain ⟨j, hj⟩ : ∃ j, (List.range n).find? (fun i => indexId i == id) = some j := by
      rw [← Option.isSome_iff_exists, List.find?_isSome]
      exact ⟨i, hi, beq_iff_eq.mpr hid⟩
    have hfound := List.find?_some hj
    rw [hj]
    exact beq_iff_eq.mp hfound

/--
**A node with a consistent replica set starts as a node of a cluster**: the one of the first
`numNodes` indices, whose replicas are the ones the configuration counts.
-/
theorem Setup.Consistent.initState {options : Options} {random : Bytes 32} {setup : Setup}
    {idx : Nat} (hc : setup.Consistent options)
    (h : startNode options random = .ready setup) (hindex : options.index = some idx) :
    ∃ hle : options.numNodes ≤ 256,
      setup.nodeId ∈ (indexCluster hinj options.numNodes hc.numNodes hle).members ∧
        setup.state (List.length_pos_of_mem hc.own) 0
          = (indexCluster hinj options.numNodes hc.numNodes hle).initState setup.nodeId := by
  obtain ⟨hkeypair, hid, hreplicas, hconfig⟩ := startNode_ready h
  obtain ⟨seed, hseed⟩ := fromSeed_of_startKeypair hkeypair
  have hle := ((Setup.consistent_iff_of_index hinj h hindex hseed).mp hc).1
  simp only [replicaIds, hindex] at hreplicas
  let cluster := indexCluster hinj options.numNodes hc.numNodes hle
  have hreplicas : cluster.replicas.ids = setup.replicas := hreplicas.symm
  have hmem : setup.nodeId ∈ cluster.replicas.ids := hreplicas ▸ hc.own
  have hkey : KeyPair.fromSeed (cluster.seed setup.nodeId) = setup.keypair := by
    have hpublic := cluster.publicKey setup.nodeId hmem
    rw [hid, hseed] at hpublic
    rw [hid, hseed, hinj hpublic]
  have hcount : cluster.config = setup.config := by
    have hlength : cluster.replicas.ids.length = options.numNodes := by
      rw [hreplicas, hc.length, hconfig]
      rfl
    rw [Cluster.config, hlength, hconfig]
    rfl
  refine ⟨hle, List.mem_toFinset.mpr hmem, ?_⟩
  show PbftState.new setup.nodeId setup.keypair ⟨setup.replicas, _⟩ setup.config 0
    = PbftState.new setup.nodeId (KeyPair.fromSeed (cluster.seed setup.nodeId)) cluster.replicas
      cluster.config 0
  rw [hkey, hcount]
  congr 1
  show Replicas.mk setup.replicas _ = Replicas.mk cluster.replicas.ids _
  simp only [hreplicas]

end

end

namespace Sample

theorem publicKeyHex_injective :
    Function.Injective fun seed => (KeyPair.fromSeed seed).publicKeyHex := by
  intro seed seed' h
  have hdecode := congrArg decode h
  simp only [KeyPair.publicKeyHex, KeyPair.fromSeed, Crypto.hexEncode, Crypto.verifyingKey, id,
    decode_encode, Option.some.injEq] at hdecode
  exact List.Vector.toList_injective hdecode

end Sample

open Sample in
/-- The second of four nodes. -/
theorem startNode_consistent_iff_second :
    ∃ setup, startNode ⟨none, 4, some 1⟩ (seed 0) = .ready setup ∧
      setup.Consistent ⟨none, 4, some 1⟩ := by
  obtain ⟨setup, hready⟩ := exists_ready ⟨none, 4, some 1⟩ (seed 0) rfl
  exact ⟨setup, hready, (startNode_consistent_iff publicKeyHex_injective hready).mpr
    (by simp [Options.Suit])⟩

open Sample in
/--
**Options that do not go together**: the index is not below the number of nodes, the indices
do not fit a byte, and the number of nodes is the default where there is no index.
-/
theorem inconsistent_replica_sets :
    Function.Injective (fun seed => (KeyPair.fromSeed seed).publicKeyHex) ∧
    (∃ setup, startNode ⟨none, 4, some 4⟩ (seed 0) = .ready setup ∧
      setup.nodeId ∉ setup.replicas) ∧
    (∃ setup, startNode ⟨none, 257, some 0⟩ (seed 0) = .ready setup ∧ ¬ setup.replicas.Nodup) ∧
    ∃ setup, startNode ⟨none, 4, none⟩ (seed 0) = .ready setup ∧
      setup.replicas.length ≠ setup.config.n := by
  refine ⟨publicKeyHex_injective, ?_, ?_, ?_⟩
  · obtain ⟨setup, hready⟩ := exists_ready ⟨none, 4, some 4⟩ (seed 0) rfl
    obtain ⟨hkeypair, hid, hreplicas, -⟩ := startNode_ready hready
    refine ⟨setup, hready, fun hown => ?_⟩
    rw [hreplicas, replicaIds, List.mem_insertionSort, hid,
      ← Except.ok.inj hkeypair, mem_indexIds_iff publicKeyHex_injective] at hown
    obtain ⟨i, hi, heq⟩ := hown
    have hmod := indexSeed_eq_iff.mp heq
    have hi : i < 4 := hi
    omega
  · obtain ⟨setup, hready⟩ := exists_ready ⟨none, 257, some 0⟩ (seed 0) rfl
    obtain ⟨-, -, hreplicas, -⟩ := startNode_ready hready
    refine ⟨setup, hready, fun hnodup => ?_⟩
    rw [hreplicas, replicaIds, (List.perm_insertionSort _ _).nodup_iff,
      nodup_indexIds_iff publicKeyHex_injective] at hnodup
    exact absurd hnodup (by decide)
  · obtain ⟨setup, hready⟩ := exists_ready ⟨none, 4, none⟩ (seed 0) rfl
    obtain ⟨-, -, hreplicas, hconfig⟩ := startNode_ready hready
    refine ⟨setup, hready, ?_⟩
    rw [hreplicas, hconfig]
    show (1 : Nat) ≠ 4
    decide

end P2pPbft
