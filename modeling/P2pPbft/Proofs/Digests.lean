/-
What a digest says about a request.

`Request::digest` hashes the three fields one after another, the first and the last of
them of any length, with no mark between them.  The bytes hashed are the same for two
requests whenever one takes into its client id what the other has as its timestamp and
its operation; only if the client ids are of one length do the bytes determine the
fields.

A primary signs the digest and not the request.  So what a replica executes has the
digest of what the primary assigned, and is that request if and only if the client id
was not made longer or shorter on the way.
-/
import P2pPbft.Lib.LittleEndian
import P2pPbft.Proofs.HonestPrimary
import P2pPbft.Proofs.AllHonest

namespace P2pPbft

/-! ### The bytes that are hashed -/

theorem toLeBytes_eq (x : UInt64) : toLeBytes x = LittleEndian.bytes 8 x.toNat := by
  have hbyte : ∀ i < 8, (x >>> UInt64.ofNat (8 * i)).toUInt8 = UInt8.ofNat (x.toNat / 2 ^ (8 * i)) := by
    intro i hi
    refine UInt8.toNat_inj.mp ?_
    have hshift : (UInt64.ofNat (8 * i)).toNat % 64 = 8 * i := by
      rw [UInt64.toNat_ofNat_of_lt' (show 8 * i < 2 ^ 64 by omega)]
      omega
    rw [UInt64.toNat_toUInt8, UInt64.toNat_shiftRight, hshift, Nat.shiftRight_eq_div_pow]
    simp
  have hlist : toLeBytes x = (List.range 8).map fun i => UInt8.ofNat (x.toNat / 2 ^ (8 * i)) :=
    List.map_congr_left fun i hi => hbyte i (List.mem_range.mp hi)
  rw [hlist]
  simp [List.range_succ, LittleEndian.bytes, Nat.div_div_eq_div_mul]

theorem toLeBytes_injective {x y : UInt64} (h : toLeBytes x = toLeBytes y) : x = y := by
  rw [toLeBytes_eq, toLeBytes_eq] at h
  exact UInt64.toNat_inj.mp (LittleEndian.bytes_inj x.toNat_lt y.toNat_lt h)

namespace Request

/-- The bytes `Request::digest` hashes. -/
def encoding (request : Request) : List UInt8 :=
  asBytes request.clientId ++ toLeBytes request.timestamp ++ request.operation

/-- **With client ids of one length the bytes determine the request.** -/
theorem encoding_inj {x y : Request} (h : x.encoding = y.encoding)
    (hlength : (asBytes x.clientId).length = (asBytes y.clientId).length) : x = y := by
  unfold encoding at h
  rw [List.append_assoc, List.append_assoc] at h
  obtain ⟨hclient, hrest⟩ := List.append_inj h hlength
  have height : (toLeBytes x.timestamp).length = (toLeBytes y.timestamp).length := by
    rw [toLeBytes_eq, toLeBytes_eq, LittleEndian.length_bytes, LittleEndian.length_bytes]
  obtain ⟨htimestamp, hoperation⟩ := List.append_inj hrest height
  cases x
  cases y
  simp only [Request.mk.injEq]
  exact ⟨asBytes_injective hclient, toLeBytes_injective htimestamp, hoperation⟩

/-- Requests hashed from the same bytes are equal exactly if their client ids are of one length. -/
theorem eq_iff_of_encoding {x y : Request} (h : x.encoding = y.encoding) :
    x = y ↔ (asBytes x.clientId).length = (asBytes y.clientId).length := by
  refine ⟨?_, encoding_inj h⟩
  rintro rfl
  rfl

end Request

/-- The request an event hands to a handler that hashes it. -/
def Action.hashed? : Action → Option Request
  | .call (.handleRequest request) _ => some request
  | .call (.processMessage (.request request)) _ => some request
  | .call (.processMessage (.prePrepare pp)) _ => some pp.request
  | _ => none

/-- The requests the handlers of a run were given to hash. -/
def hashed (events : List Event) : List Request := events.filterMap (·.action.hashed?)

section

variable [Crypto]

/-- Among the byte strings hashed in a run no two have the same SHA-256. -/
def CollisionFree (events : List Event) : Prop :=
  ∀ x ∈ hashed events, ∀ y ∈ hashed events, x.digest = y.digest → x.encoding = y.encoding

instance (events : List Event) : Decidable (CollisionFree events) :=
  inferInstanceAs (Decidable (∀ x ∈ hashed events, ∀ y ∈ hashed events,
    x.digest = y.digest → x.encoding = y.encoding))

/-! ### Runs -/

theorem Replica.digest_of_proposals {rules : Replica → Action → Prop} {r₀ r : Replica}
    {as : List Action} (h : Run (Next rules) r₀ as r) (hissued : r₀.issued = []) :
    ∀ pp ∈ proposals r.issued, pp.digest = pp.request.digest := by
  refine h.state_invariant (I := fun r => ∀ pp ∈ proposals r.issued,
    pp.digest = pp.request.digest) (by simp [hissued, proposals]) ?_
  rintro t a u hdigest ⟨-, hact⟩
  refine keep (I := fun _ issued => ∀ pp ∈ proposals issued, pp.digest = pp.request.digest) hact
    hdigest fun _ ht pp hpp => ?_
  rw [proposals_append] at hpp
  rcases List.mem_append.mp hpp with hold | hnew
  · exact hdigest pp hold
  · rcases ht.proposals with hnone | ⟨request, -, -, -, hone⟩
    · rw [hnone] at hnew
      exact absurd hnew (by simp)
    · rw [hone] at hnew
      obtain rfl := List.mem_singleton.mp hnew
      rfl

variable {cluster : Cluster} {byzantine : Finset NodeId} {primary : NodeId}
  {rules : Net → Event → Prop} {events : List Event} {net : Net}

/-- **Whatever a replica proposes, holds or hands over was given to some handler.** -/
theorem hashed_of_run (h : Run (Net.Step rules) cluster.init events net) :
    ∀ id, (∀ pp ∈ proposals (net id).issued, pp.request ∈ hashed events) ∧
      Logged (fun pp => pp.request ∈ hashed events) (net id).state := by
  refine h.invariant (I := fun events net => ∀ id,
    (∀ pp ∈ proposals (net id).issued, pp.request ∈ hashed events) ∧
      Logged (fun pp => pp.request ∈ hashed events) (net id).state) ?_ ?_
  · intro id
    exact ⟨fun _ h => absurd h (by simp [Cluster.init, Replica.new, proposals]),
      logged_new _ _ _ _ _ _⟩
  · intro cs t e u hr hhashed hstep
    have hcascading := (Cluster.hosts_of_run hr e.node).sound.cascading
    have hmono : ∀ request ∈ hashed cs, request ∈ hashed (cs ++ [e]) := by
      intro request hrequest
      rw [hashed, List.filterMap_append]
      exact List.mem_append_left _ hrequest
    have hlast : ∀ request, e.action.hashed? = some request → request ∈ hashed (cs ++ [e]) := by
      intro request hrequest
      rw [hashed, List.filterMap_append]
      exact List.mem_append_right _ (List.mem_filterMap.mpr ⟨e, List.mem_singleton.mpr rfl, hrequest⟩)
    refine Net.keep (I := fun _ st issued =>
      (∀ pp ∈ proposals issued, pp.request ∈ hashed (cs ++ [e])) ∧
        Logged (fun pp => pp.request ∈ hashed (cs ++ [e])) st) hstep.2
      (fun id => ⟨fun pp hpp => hmono _ ((hhashed id).1 pp hpp),
        (hhashed id).2.mono fun pp => hmono pp.request⟩) fun {sec out} hsec ht _ => ?_
    have hproposed : ∀ pp ∈ proposals out.sends, pp.request ∈ hashed (cs ++ [e]) := by
      intro pp hpp
      rcases ht.proposals with hnone | ⟨request, hreq, -, -, hone⟩
      · rw [hnone] at hpp
        exact absurd hpp (by simp)
      · rw [hone] at hpp
        obtain rfl := List.mem_singleton.mp hpp
        rw [hreq] at hsec
        refine hlast request ?_
        rcases Action.submits_or_delivers (hcascading.request_of_sectionOf hsec) with
          ⟨now, hsubmit⟩ | hdelivers
        · rw [hsubmit]
          rfl
        · obtain ⟨now, hcall⟩ := Action.call_of_message? hdelivers
          rw [hcall]
          rfl
    constructor
    · intro pp hpp
      rw [proposals_append] at hpp
      rcases List.mem_append.mp hpp with hold | hnew
      · exact hmono _ ((hhashed e.node).1 pp hold)
      · exact hproposed pp hnew
    · refine ((hhashed e.node).2.mono fun pp => hmono pp.request).step ht hproposed ?_
      rintro pp rfl
      obtain ⟨now, hcall⟩ := Action.call_of_message? (hcascading.message_of_sectionOf hsec rfl)
      refine hlast _ ?_
      rw [hcall]
      rfl

/--
**What is executed is what the honest primary assigned, if the client id is as long.**
Any number of the others may be Byzantine.  A request a replica hands over from an
instance with a pre-prepare of one of the primary's views has the digest of the request
the primary gave that number there, and it is that request exactly if its client id
has as many bytes.
-/
theorem executed_is_assigned
    (h : Run (Net.Step (ByzantineRules cluster byzantine {primary})) cluster.init events net)
    (hcollision : CollisionFree events) {v : ViewNumber}
    (hv : cluster.replicas.primary v = primary) {id : NodeId} {s : SequenceNumber}
    {inst : ConsensusInstance} {pp : PrePrepare} {request : Request}
    (hsends : Send.committed request ∈ ((net id).state.tryAdvanceToCommitted s).sends)
    (hlookup : (net id).state.log.lookup s = some inst) (hpp : inst.prePrepare = some pp)
    (hview : pp.view = v) :
    ∃ pp₀ ∈ proposals (net primary).issued, pp₀.view = v ∧ pp₀.sequence = s ∧
      pp₀.digest = request.digest ∧
      (request = pp₀.request ↔
        (asBytes pp.request.clientId).length = (asBytes pp₀.request.clientId).length) := by
  have hhosts := Cluster.hosts_of_run h
  have hok := (hhosts id).sound.wellFormed.entry s inst hlookup
  have hrequest : request = pp.request := by
    rcases (run_transition (net id).state 0 (.tryAdvanceToCommitted s)).deliveries with
      ⟨hnone, -⟩ | ⟨s', inst', request', hsec, hl, hinst, -, -, hone⟩
    · have hmem := mem_deliveries.mpr hsends
      exact absurd (hnone ▸ hmem) (by simp)
    · obtain rfl := Section.tryAdvanceToCommitted.inj hsec
      obtain rfl := Option.some.inj (hl.symm.trans hlookup)
      have hmem : Send.committed request ∈ [Send.committed request'] := hone ▸ hsends
      obtain rfl := Send.committed.inj (List.mem_singleton.mp hmem)
      exact Option.some.inj (hinst.symm.trans (hok.request pp hpp))
  subst hrequest
  obtain ⟨pp₀, hpp₀, hv₀, hs₀, hd₀⟩ := proposed_of_trusted_run h hv hlookup hpp hview
  have hdigest : pp.request.digest = pp₀.digest :=
    (hok.requestDigest pp hpp).trans (Option.some.inj ((hok.digest pp hpp).symm.trans hd₀))
  have hproposed : pp₀.digest = pp₀.request.digest :=
    Replica.digest_of_proposals (Net.run_at h primary (fun _ _ => True) fun _ _ => trivial) rfl
      pp₀ hpp₀
  refine ⟨pp₀, hpp₀, hv₀, hs₀, hdigest.symm, Request.eq_iff_of_encoding ?_⟩
  exact hcollision _ ((hashed_of_run h id).2 s inst pp hlookup hpp) _
    ((hashed_of_run h primary).1 pp₀ hpp₀) (hdigest.trans hproposed)

end

namespace Sample

/-- The request the first node assigns. -/
def assigned : Request := ⟨"a", 0, [1]⟩

/-- The same bytes, with the letter of the client id in the timestamp. -/
def altered : Request := ⟨"", 97, [0, 1]⟩

/--
The first node assigns its request.  The second gets the pre-prepare with the request
given here in it, and the votes of the two other nodes.
-/
def relayed (request : Request) : List Event :=
  let digest := assigned.digest
  [submit 0 assigned, resume 0 0, resume 0 0,
    deliver 1 (.prePrepare { (signer 0).proposal 1 assigned with request := request }),
    deliver 1 (.prepare ((signer 2).ownPrepare 0 1 digest)),
    deliver 1 (.prepare ((signer 3).ownPrepare 0 1 digest)), resume 1 2,
    deliver 1 (.commit ((signer 2).ownCommit (ConsensusInstance.new 1 0) 1 digest)),
    deliver 1 (.commit ((signer 3).ownCommit (ConsensusInstance.new 1 0) 1 digest))]

end Sample

open Sample in
/-- A backup that is given the request as it was assigned executes it. -/
theorem executed_is_assigned_backup :
    ∃ net : Net, Send.committed assigned ∈ ((net (node 1)).state.tryAdvanceToCommitted 1).sends ∧
      ∃ pp₀ ∈ proposals (net (node 0)).issued,
        pp₀.view = 0 ∧ pp₀.sequence = 1 ∧ assigned = pp₀.request := by
  obtain ⟨net, hrun, hsends, hclient, pp, hpp, hview, hrequest⟩ := Net.exists_run
    (ByzantineRules (cluster 3) {node 2, node 3} {node 0}) (cluster 3).init (relayed assigned)
    (fun net => Send.committed assigned ∈ ((net (node 1)).state.tryAdvanceToCommitted 1).sends ∧
      (∀ pp₀ ∈ proposals (net (node 0)).issued, pp₀.request.clientId = assigned.clientId) ∧
      ∃ pp ∈ ((net (node 1)).state.instanceAt 1).prePrepare, pp.view = 0 ∧ pp.request = assigned)
    (by decide +kernel)
  have hlookup : ∃ inst, (net (node 1)).state.log.lookup 1 = some inst := by
    refine PbftState.lookup_of_instanceAt_ne fun hnew => ?_
    rw [hnew] at hpp
    exact absurd hpp (by simp [ConsensusInstance.new])
  obtain ⟨inst, hlookup⟩ := hlookup
  rw [PbftState.instanceAt_of_lookup hlookup] at hpp
  obtain ⟨pp₀, hpp₀, hv₀, hs₀, -, hiff⟩ := executed_is_assigned hrun (by decide +kernel)
    (by decide +kernel) hsends hlookup hpp hview
  refine ⟨net, hsends, pp₀, hpp₀, hv₀, hs₀, hiff.mpr ?_⟩
  rw [hrequest, hclient pp₀ hpp₀]

open Sample in
/--
**A relay can alter a request under the primary's signature**: the request the second
node executes at the number and in the view of the first one's only proposal is another
one, hashed from the same bytes.
-/
theorem altered_is_executed :
    assigned ≠ altered ∧ assigned.encoding = altered.encoding ∧ CollisionFree (relayed altered) ∧
      ∃ net, Run (Net.Step (ByzantineRules (cluster 3) {node 2, node 3} {node 0})) (cluster 3).init
          (relayed altered ++ List.replicate 3 (resume 1 2)) net ∧
        (net (node 1)).committed = [altered] ∧
        (∃ pp ∈ ((net (node 1)).state.instanceAt 1).prePrepare, pp.view = 0) ∧
        (proposals (net (node 0)).issued).map (fun pp => (pp.view, pp.sequence, pp.request))
          = [(0, 1, assigned)] := by
  refine ⟨by decide, by decide +kernel, by decide +kernel, ?_⟩
  exact Net.exists_run _ _ _ _ (by decide +kernel)

end P2pPbft
