/-
The order in which requests are handed to the application.

Among honest replicas what is under a number is what the first primary has ordered
there, so replicas that hand requests over number by number hand over prefixes of
one list.  The code commits every number on its own and hands its request over at
once.  `Replica.InOrder` is the condition that it does so in the order of the
numbers, and that no stable checkpoint makes it skip one.
-/
import P2pPbft.Lib.Numbered
import P2pPbft.Proofs.Execution
import P2pPbft.Proofs.AllHonest

namespace P2pPbft

/-! ### What the first primary has ordered -/

/-- The request a list of pre-prepares puts under a number. -/
def orders (ps : List PrePrepare) (t : Nat) : Option Request :=
  (ps.find? fun pp => pp.sequence.toNat == t).map (·.request)

/-- The pre-prepares number requests: each has a number of its own, from the first one on. -/
structure Numbering (ps : List PrePrepare) : Prop where
  pos : ∀ pp ∈ ps, 0 < pp.sequence
  unique : ∀ pp ∈ ps, ∀ pp' ∈ ps, pp.sequence = pp'.sequence → pp = pp'

theorem Numbering.orders_of_mem {ps : List PrePrepare} (h : Numbering ps) {pp : PrePrepare}
    (hpp : pp ∈ ps) : orders ps pp.sequence.toNat = some pp.request := by
  unfold orders
  cases hfind : ps.find? fun pp' => pp'.sequence.toNat == pp.sequence.toNat with
  | none =>
      have hnone := List.find?_eq_none.mp hfind pp hpp
      exact absurd (beq_self_eq_true _) hnone
  | some pp' =>
      have hseq : pp'.sequence.toNat = pp.sequence.toNat := by simpa using List.find?_some hfind
      have hsame := h.unique pp' (List.mem_of_find?_eq_some hfind) pp hpp
        (UInt64.toNat_inj.mp hseq)
      rw [hsame, Option.map_some]

theorem orders_of_prefix {ps ps' : List PrePrepare} {t : Nat} {request : Request}
    (h : ps <+: ps') (horder : orders ps t = some request) : orders ps' t = some request := by
  obtain ⟨rest, rfl⟩ := h
  unfold orders at horder ⊢
  obtain ⟨pp, hfind, hrequest⟩ := Option.map_eq_some_iff.mp horder
  rw [List.find?_append, hfind, Option.some_or, Option.map_some, hrequest]

section

variable [Crypto]

theorem FirstPrimary.numbering {st : PbftState} {issued : List Send} (h : FirstPrimary st issued)
    (hslots : Slots st issued) : Numbering (proposals issued) where
  pos := fun pp hpp => (hslots.proposed pp hpp).1
  unique := by
    intro pp hpp pp' hpp' hs
    refine List.inj_on_of_nodup_map hslots.proposals_nodup hpp hpp' ?_
    rw [(h.proposal pp hpp).1, (h.proposal pp' hpp').1, hs]

/-! ### One replica -/

/-- The section would hand the request under the number over. -/
def PbftState.HandsOver (st : PbftState) (s : SequenceNumber) : Prop :=
  (st.instanceAt s).phase = .prepared ∧
    st.config.quorum ≤ (st.instanceAt s).commits.keys.card ∧
    ∃ request ∈ (st.instanceAt s).request, request.digest ∉ st.executed

instance (st : PbftState) (s : SequenceNumber) : Decidable (st.HandsOver s) :=
  inferInstanceAs (Decidable ((st.instanceAt s).phase = .prepared ∧
    st.config.quorum ≤ (st.instanceAt s).commits.keys.card ∧
    ∃ request ∈ (st.instanceAt s).request, request.digest ∉ st.executed))

omit [Crypto] in
/-- From the low watermark up to the bound every instance is committed. -/
def PbftState.CommittedBelow (st : PbftState) (bound : Nat) : Prop :=
  ∀ t < bound, st.lowWatermark.toNat < t → (st.instanceAt (UInt64.ofNat t)).phase = .committed

instance (st : PbftState) (bound : Nat) : Decidable (st.CommittedBelow bound) :=
  inferInstanceAs (Decidable (∀ t < bound, st.lowWatermark.toNat < t →
    (st.instanceAt (UInt64.ofNat t)).phase = .committed))

/-- Requests are handed over number by number and one at a time, and no number is skipped. -/
def Replica.InOrder (r : Replica) : Section → Prop
  | .tryAdvanceToCommitted s =>
    r.state.HandsOver s → r.state.CommittedBelow s.toNat ∧ deliveries r.pending = []
  | .handleCheckpoint checkpoint =>
    r.state.config.quorum ≤ (r.state.addCheckpoint checkpoint).keys.card →
      r.state.stableCheckpoint < checkpoint.sequence →
        r.state.CommittedBelow (checkpoint.sequence.toNat + 1)
  | _ => True

instance (r : Replica) : (sec : Section) → Decidable (r.InOrder sec)
  | .tryAdvanceToCommitted _ | .handleCheckpoint _ =>
      by dsimp only [Replica.InOrder]; infer_instance
  | .handleRequest _ | .handlePrePrepare _ | .handlePrepare _ | .tryAdvanceToPrepared _
  | .handleCommit _ | .tryCheckpoint _ | .handleViewChange _ | .handleNewView _
  | .startViewChange | .checkTimeout => isTrue trivial

/-- The replica has handed over what is ordered under the first numbers, and nothing else. -/
structure InSequence (ps : List PrePrepare) (st : PbftState) (issued : List Send) : Prop where
  handed : ∃ c, (∀ t, 0 < t → t ≤ c → (orders ps t).isSome) ∧
    deliveries issued = Numbered.firsts Request.digest (orders ps) c
  stable : ∀ t, 0 < t → t ≤ st.lowWatermark.toNat →
    ∃ request, orders ps t = some request ∧ request.digest ∈ st.executed

theorem inSequence_new (ps : List PrePrepare) (nodeId : NodeId) (keypair : KeyPair)
    (replicas : Replicas) (config : PbftConfig) (now : Instant) :
    InSequence ps (PbftState.new nodeId keypair replicas config now) [] where
  handed := ⟨0, fun t h₀ ht => absurd h₀ (by omega), rfl⟩
  stable := fun t h₀ ht => absurd h₀ (by simpa [PbftState.new] using ht)

theorem InSequence.mono {ps ps' : List PrePrepare} {st : PbftState} {issued : List Send}
    (h : InSequence ps st issued) (hpre : ps <+: ps') : InSequence ps' st issued where
  handed := by
    obtain ⟨c, hassigned, hissued⟩ := h.handed
    have hsame : ∀ t, 0 < t → t ≤ c → orders ps t = orders ps' t := by
      intro t h₀ ht
      obtain ⟨request, hrequest⟩ := Option.isSome_iff_exists.mp (hassigned t h₀ ht)
      rw [hrequest, orders_of_prefix hpre hrequest]
    refine ⟨c, fun t h₀ ht => ?_, ?_⟩
    · rw [← hsame t h₀ ht]
      exact hassigned t h₀ ht
    · rw [hissued]
      exact Numbered.firsts_congr hsame
  stable := by
    intro t h₀ ht
    obtain ⟨request, hrequest, hexecuted⟩ := h.stable t h₀ ht
    exact ⟨request, orders_of_prefix hpre hrequest, hexecuted⟩

section

variable {ps : List PrePrepare} {st : PbftState} {issued : List Send} {now : Instant}
  {sec : Section} {out : Outcome}

theorem Transition.handsOver (h : Transition st now sec out) {request : Request}
    (hrequest : request ∈ P2pPbft.deliveries out.sends) :
    ∃ s inst, sec = .tryAdvanceToCommitted s ∧ st.HandsOver s ∧
      st.log.lookup s = some inst ∧ inst.request = some request ∧
      request.digest ∉ st.executed ∧ P2pPbft.deliveries out.sends = [request] ∧
      out.state.executed = insert request.digest st.executed := by
  cases h with
  | executed s inst request' hlookup hphase hquorum hinst hfresh =>
      obtain rfl := List.mem_singleton.mp hrequest
      refine ⟨s, inst, rfl, ?_, hlookup, hinst, hfresh, rfl, rfl⟩
      rw [PbftState.HandsOver, PbftState.instanceAt_of_lookup hlookup]
      exact ⟨hphase, hquorum, _, hinst, hfresh⟩
  | _ => exact absurd hrequest (by simp [P2pPbft.deliveries, Send.committed?, Send.broadcast])

theorem Transition.deliveries_length (h : Transition st now sec out) :
    (P2pPbft.deliveries out.sends).length ≤ 1 := by
  rcases h.deliveries with ⟨hnone, -⟩ | ⟨s, inst, request, -, -, -, -, -, hsends⟩
  · rw [hnone]
    exact Nat.zero_le _
  · rw [hsends]
    exact Nat.le_refl _

theorem orders_of_committed (hnumbering : Numbering ps) (hwf : WellFormed st issued)
    (hlogged : Logged (· ∈ ps) st) {s : SequenceNumber} (hphase : (st.instanceAt s).phase = .committed) :
    ∃ request, orders ps s.toNat = some request ∧ request.digest ∈ st.executed := by
  have hlookup := PbftState.lookup_of_isPrepared (Or.inr hphase)
  have hok := hwf.entry s _ hlookup
  obtain ⟨pp, hpp⟩ := hok.exists_prePrepare (Or.inr hphase)
  refine ⟨pp.request, ?_, hok.executed hphase _ (hok.request pp hpp)⟩
  rw [← hok.sequence pp hpp]
  exact hnumbering.orders_of_mem (hlogged s _ pp hlookup hpp)

/-- Everything below a bound is ordered and executed, once all of it is committed. -/
theorem InSequence.orders_of_committedBelow (h : InSequence ps st issued)
    (hnumbering : Numbering ps) (hwf : WellFormed st issued) (hlogged : Logged (· ∈ ps) st)
    {bound : Nat}
    (hbelow : st.CommittedBelow bound) (hbound : bound ≤ 2 ^ 64) {t : Nat} (h₀ : 0 < t)
    (ht : t < bound) :
    ∃ request, orders ps t = some request ∧ request.digest ∈ st.executed := by
  by_cases hlow : t ≤ st.lowWatermark.toNat
  · exact h.stable t h₀ hlow
  · have hcommitted := orders_of_committed hnumbering hwf hlogged (hbelow t ht (by omega))
    rw [UInt64.toNat_ofNat_of_lt' (show t < 2 ^ 64 by omega)] at hcommitted
    exact hcommitted

/-- **A section that goes in order keeps the replica in sequence.** -/
theorem InSequence.step (h : InSequence ps st issued) (hexec : Executes st issued)
    (hnumbering : Numbering ps) (hwf : WellFormed st issued) (hlogged : Logged (· ∈ ps) st)
    (ht : Transition st now sec out)
    (hhands : ∀ s, sec = .tryAdvanceToCommitted s → st.HandsOver s → st.CommittedBelow s.toNat)
    (hstable : ∀ checkpoint, sec = .handleCheckpoint checkpoint →
      st.config.quorum ≤ (st.addCheckpoint checkpoint).keys.card →
      st.stableCheckpoint < checkpoint.sequence →
      st.CommittedBelow (checkpoint.sequence.toNat + 1)) :
    InSequence ps out.state (issued ++ out.sends) where
  handed := by
    obtain ⟨c, hassigned, hissued⟩ := h.handed
    rw [deliveries_append]
    by_cases hnone : deliveries out.sends = []
    · rw [hnone, List.append_nil]
      exact ⟨c, hassigned, hissued⟩
    obtain ⟨request, hrequest⟩ := List.exists_mem_of_ne_nil _ hnone
    obtain ⟨s, inst, hsec, hover, hlookup, hinst, hfresh, hone, -⟩ := ht.handsOver hrequest
    obtain ⟨pp, hpp, rfl⟩ := hwf.prePrepare_of_request hlookup hinst
    have hmem := hlogged s inst pp hlookup hpp
    have hseq := (hwf.entry s inst hlookup).sequence pp hpp
    have hs : orders ps s.toNat = some pp.request := by
      rw [← hseq]
      exact hnumbering.orders_of_mem hmem
    have hpos : 0 < s.toNat := by
      have h₀ := hnumbering.pos pp hmem
      rw [hseq, UInt64.lt_iff_toNat_lt] at h₀
      exact h₀
    have hbelow : ∀ t, 0 < t → t < s.toNat →
        ∃ request, orders ps t = some request ∧ request.digest ∈ st.executed := fun t h₀ hlt =>
      h.orders_of_committedBelow hnumbering hwf hlogged (hhands s hsec hover) s.toNat_lt.le h₀ hlt
    have htaken : ∀ d, d ∈ st.executed ↔
        d ∈ (Numbered.firsts Request.digest (orders ps) c).map Request.digest := by
      intro d
      rw [← hissued, hexec.mem_executed d, List.mem_map]
    refine ⟨s.toNat, fun t h₀ hle => ?_, ?_⟩
    · by_cases hlast : t = s.toNat
      · rw [hlast, hs]
        rfl
      · obtain ⟨request, hrequest, -⟩ := hbelow t h₀ (by omega)
        rw [hrequest]
        rfl
    · -- The request is new, and all that is ordered below its number has been handed over.
      rw [hone, hissued]
      refine (Numbered.firsts_eq_concat hs hpos (fun t h₀ hlt => ?_) ?_).symm
      · obtain ⟨request, hrequest, hexecuted⟩ := hbelow t h₀ hlt
        exact ⟨request, hrequest, (htaken _).mp hexecuted⟩
      · rw [← htaken]
        exact hfresh
  stable := by
    intro t h₀ hle
    rcases ht.window with ⟨hlow, -, -⟩ | ⟨checkpoint, hsec, hquorum, hnew, hst⟩
    · rw [hlow] at hle
      obtain ⟨request, hrequest, hexecuted⟩ := h.stable t h₀ hle
      exact ⟨request, hrequest, ht.executed_subset hexecuted⟩
    · have hlow : out.state.lowWatermark = checkpoint.sequence := by rw [hst]; rfl
      rw [hlow] at hle
      obtain ⟨request, hrequest, hexecuted⟩ := h.orders_of_committedBelow hnumbering hwf hlogged
        (hstable checkpoint hsec hquorum hnew) checkpoint.sequence.toNat_lt h₀ (by omega)
      exact ⟨request, hrequest, ht.executed_subset hexecuted⟩

end

/-! ### One send at a time -/

namespace Replica

/-- What was sent, and after it the one request still to be sent, is what was handed over. -/
structure SendsInOrder (r : Replica) : Prop where
  sent : r.committed ++ P2pPbft.deliveries r.pending = P2pPbft.deliveries r.issued
  atMostOne : (P2pPbft.deliveries r.pending).length ≤ 1

omit [Crypto] in
theorem sendsInOrder_new (st : PbftState) : (new st).SendsInOrder := ⟨rfl, Nat.zero_le _⟩

/-- **Requests are sent in the order in which they are handed over**, one at a time. -/
theorem SendsInOrder.act {r r' : Replica} {a : Action} (hr : r.SendsInOrder)
    (h : r.act a = some r')
    (hrule : ∀ sec, r.sectionOf a = some sec →
      P2pPbft.deliveries (sec.run r.state a.now).sends ≠ [] → P2pPbft.deliveries r.pending = []) :
    r'.SendsInOrder := by
  obtain ⟨hsent, hone⟩ := hr
  cases step_of_act h with
  | reply call now hentry => exact ⟨hsent, hone⟩
  | start call now sec hentry =>
      have hpending : P2pPbft.deliveries
          ((r.tasks ++ [(sec.run r.state now).task]).flatMap (·.sends))
          = P2pPbft.deliveries r.pending ++ P2pPbft.deliveries (sec.run r.state now).sends := by
        simp [pending, Outcome.task]
      refine ⟨?_, ?_⟩
      · show r.committed ++ _ = P2pPbft.deliveries (r.issued ++ _)
        rw [pending, hpending, deliveries_append, ← hsent, List.append_assoc]
      · rw [pending, hpending, List.length_append]
        by_cases hnone : P2pPbft.deliveries (sec.run r.state now).sends = []
        · rw [hnone]
          exact hone
        · rw [hrule sec hentry hnone, List.length_nil, Nat.zero_add]
          exact (run_transition r.state now sec).deliveries_length
  | send before after now send sends next result htasks =>
      have hpending : r.pending = before.flatMap (·.sends) ++
          (send :: (sends ++ after.flatMap (·.sends))) := by
        simp [pending, htasks]
      have hleft : P2pPbft.deliveries ((before ++ ⟨sends, next, result⟩ :: after).flatMap (·.sends))
          = P2pPbft.deliveries (before.flatMap (·.sends)) ++
            P2pPbft.deliveries (sends ++ after.flatMap (·.sends)) := by
        rw [List.flatMap_append, deliveries_append, List.flatMap_cons]
      rw [hpending, deliveries_append] at hsent hone
      cases send with
      | outgoing message =>
          have hcons : ∀ rest : List Send, P2pPbft.deliveries (.outgoing message :: rest)
              = P2pPbft.deliveries rest := fun _ => rfl
          rw [hcons, ← hleft] at hsent hone
          exact ⟨hsent, hone⟩
      | committed request =>
          -- It is the one request pending, so nothing is left.
          have hcons : ∀ rest : List Send, P2pPbft.deliveries (.committed request :: rest)
              = request :: P2pPbft.deliveries rest := fun _ => rfl
          rw [hcons] at hsent hone
          rw [List.length_append, List.length_cons] at hone
          have hbefore : P2pPbft.deliveries (before.flatMap (·.sends)) = [] :=
            List.length_eq_zero_iff.mp (by omega)
          have hafter : P2pPbft.deliveries (sends ++ after.flatMap (·.sends)) = [] :=
            List.length_eq_zero_iff.mp (by omega)
          rw [hbefore, hafter, List.nil_append] at hleft hsent
          refine ⟨?_, ?_⟩
          · show (r.committed ++ [request]) ++ _ = P2pPbft.deliveries r.issued
            rw [pending, hleft, List.append_nil]
            exact hsent
          · rw [pending, hleft]
            exact Nat.zero_le _
  | go before after now sec result htasks =>
      have hsec : r.sectionOf (.resume before.length now) = some sec := sectionOf_resume htasks
      have hpending : P2pPbft.deliveries r.pending = P2pPbft.deliveries (before.flatMap (·.sends)) ++
          P2pPbft.deliveries (after.flatMap (·.sends)) := by
        simp [pending, htasks]
      have hafter : P2pPbft.deliveries ((before ++ (sec.run r.state now).task :: after).flatMap
          (·.sends)) = P2pPbft.deliveries (before.flatMap (·.sends)) ++
            (P2pPbft.deliveries (sec.run r.state now).sends ++
              P2pPbft.deliveries (after.flatMap (·.sends))) := by
        simp [Outcome.task]
      by_cases hnone : P2pPbft.deliveries (sec.run r.state now).sends = []
      · rw [hnone, List.nil_append, ← hpending] at hafter
        refine ⟨?_, ?_⟩
        · show r.committed ++ _ = P2pPbft.deliveries (r.issued ++ _)
          rw [pending, hafter, deliveries_append, hnone, List.append_nil]
          exact hsent
        · rw [pending, hafter]
          exact hone
      · have hempty := hrule sec hsec hnone
        rw [hempty, List.append_nil] at hsent
        rw [hempty] at hpending
        obtain ⟨hleft, hright⟩ := List.append_eq_nil_iff.mp hpending.symm
        rw [hleft, hright, List.nil_append, List.append_nil] at hafter
        refine ⟨?_, ?_⟩
        · show r.committed ++ _ = P2pPbft.deliveries (r.issued ++ _)
          rw [pending, hafter, deliveries_append, hsent]
        · rw [pending, hafter]
          exact (run_transition r.state now sec).deliveries_length
  | finish before after now result htasks =>
      have hpending : r.pending = before.flatMap (·.sends) ++ after.flatMap (·.sends) := by
        simp [pending, htasks]
      rw [hpending] at hsent hone
      refine ⟨?_, ?_⟩
      · simpa [pending] using hsent
      · simpa [pending] using hone

end Replica

/-! ### All replicas -/

/-- All replicas are honest and hand requests over in order, and no counter wraps. -/
def OrderlyRules (cluster : Cluster) (net : Net) (e : Event) : Prop :=
  HonestRules cluster.members net e ∧
    ∀ sec, (net e.node).sectionOf e.action = some sec →
      (net e.node).state.NoWrap sec ∧ (net e.node).InOrder sec

instance (cluster : Cluster) (net : Net) (e : Event) : Decidable (OrderlyRules cluster net e) :=
  inferInstanceAs (Decidable (HonestRules cluster.members net e ∧
    ∀ sec, (net e.node).sectionOf e.action = some sec →
      (net e.node).state.NoWrap sec ∧ (net e.node).InOrder sec))

section

variable {cluster : Cluster} {events : List Event} {net : Net}

theorem numbering_of_run (h : Run (Net.Step (OrderlyRules cluster)) cluster.init events net) :
    Numbering (proposals (net (cluster.replicas.primary 0)).issued) := by
  have hslots := slots_of_net_run h (Finset.mem_singleton_self (cluster.replicas.primary 0))
    fun hhosts hrule => ⟨hrule.1.genuine hhosts, fun heq sec hsec => by
      rw [← heq] at hsec ⊢
      exact (hrule.2 sec hsec).1⟩
  have hfirst := firstPrimary_of_run (h.mono fun hstep => ⟨hstep.1.1, hstep.2⟩)
    (cluster.replicas.primary 0)
  exact hfirst.numbering hslots

theorem executes_of_net_run {rules : Net → Event → Prop}
    (h : Run (Net.Step rules) cluster.init events net) (id : NodeId) :
    Executes (net id).state (net id).issued :=
  Replica.executes_of_run (Net.run_at h id (fun _ _ => True) fun _ _ => trivial)
    (executes_new _ _ _ _ _)

/-- **Every replica has handed over what the first primary ordered, in that order.** -/
theorem inSequence_of_run (h : Run (Net.Step (OrderlyRules cluster)) cluster.init events net) :
    ∀ id, InSequence (proposals (net (cluster.replicas.primary 0)).issued) (net id).state
      (net id).issued := by
  refine h.invariant (I := fun _ net => ∀ id, InSequence
    (proposals (net (cluster.replicas.primary 0)).issued) (net id).state (net id).issued) ?_ ?_
  · exact fun id => inSequence_new _ _ _ _ _ _
  · intro cs t e u hr hsequence hstep
    have hhosts := Cluster.hosts_of_run hr
    have hgrow := (Net.issued_prefix_act hstep.2 (cluster.replicas.primary 0)).filterMap
      Send.prePrepare?
    refine Net.keep (I := fun _ => InSequence (proposals (u (cluster.replicas.primary 0)).issued))
      hstep.2 (fun id => (hsequence id).mono hgrow) fun hsec ht _ => ?_
    obtain ⟨-, horder⟩ := hstep.1.2 _ hsec
    refine InSequence.mono ?_ hgrow
    refine (hsequence e.node).step (executes_of_net_run hr e.node) (numbering_of_run hr)
      (hhosts e.node).sound.wellFormed
      (proposed_of_run (hr.mono fun hstep => ⟨hstep.1.1, hstep.2⟩) e.node) ht ?_ ?_
    · rintro s rfl hover
      exact (horder hover).1
    · rintro checkpoint rfl
      exact horder

/-- A replica sends the requests in the order in which it handed them over. -/
theorem sendsInOrder_of_run (h : Run (Net.Step (OrderlyRules cluster)) cluster.init events net)
    (id : NodeId) : (net id).SendsInOrder := by
  have hrun := Net.run_at h id (fun r a => ∀ sec, r.sectionOf a = some sec → r.InOrder sec) (by
    rintro net e hrule rfl sec hsec
    exact (hrule.2 sec hsec).2)
  refine hrun.state_invariant (I := Replica.SendsInOrder) (Replica.sendsInOrder_new _) ?_
  rintro t a u hsends ⟨hrule, hact⟩
  refine hsends.act hact fun sec hsec hne => ?_
  obtain ⟨request, hrequest⟩ := List.exists_mem_of_ne_nil _ hne
  obtain ⟨s, inst, rfl, hover, -⟩ := (run_transition t.state a.now sec).handsOver hrequest
  exact (hrule _ hsec hover).2

/--
**Total order.**  Every replica has sent what the first primary has ordered under the
numbers up to some `c`, in the order of the numbers and without holes, a request that
comes again once only.  So of what two replicas have sent one is a prefix of the other.
-/
theorem total_order (h : Run (Net.Step (OrderlyRules cluster)) cluster.init events net) :
    (∀ id, ∃ c, (∀ t, 0 < t → t ≤ c →
        (orders (proposals (net (cluster.replicas.primary 0)).issued) t).isSome) ∧
      (net id).committed = Numbered.firsts Request.digest
        (orders (proposals (net (cluster.replicas.primary 0)).issued)) c) ∧
      ∀ a b, (net a).committed <+: (net b).committed ∨
        (net b).committed <+: (net a).committed := by
  have hsent : ∀ id, ∃ c, (∀ t, 0 < t → t ≤ c →
        (orders (proposals (net (cluster.replicas.primary 0)).issued) t).isSome) ∧
      (net id).committed = Numbered.firsts Request.digest
        (orders (proposals (net (cluster.replicas.primary 0)).issued)) c := by
    intro id
    obtain ⟨c, hassigned, hissued⟩ := (inSequence_of_run h id).handed
    have hpre : (net id).committed <+: deliveries (net id).issued := by
      rw [← (sendsInOrder_of_run h id).sent]
      exact List.prefix_append _ _
    rw [hissued] at hpre
    obtain ⟨c', hle, hcommitted⟩ := Numbered.exists_firsts_of_prefix hpre
    exact ⟨c', fun t h₀ ht => hassigned t h₀ (by omega), hcommitted⟩
  refine ⟨hsent, fun a b => ?_⟩
  obtain ⟨c, -, ha⟩ := hsent a
  obtain ⟨c', -, hb⟩ := hsent b
  rw [ha, hb]
  exact Numbered.firsts_prefix_or _ c c'

end

end

namespace Sample

/-- The first of two replicas proposes two requests and sends the first one on. -/
def proposesTwo : List Event :=
  [submit 0 (request 1), resume 0 0, submit 0 (request 2), resume 0 1] ++
    List.replicate 5 (resume 0 0)

/-- The other one takes the proposal of a request and sends the request on. -/
def follows (s : SequenceNumber) (i index : Nat) : List Event :=
  deliver 1 (.prePrepare ((signer 0).proposal s (request i))) ::
    List.replicate 5 (resume 1 index)

end Sample

open Sample in
/-- The second of two replicas is one request ahead of the first. -/
theorem total_order_two :
    ∃ net : Net, (net (node 0)).committed = [request 1] ∧
      (net (node 1)).committed = [request 1, request 2] ∧
      ((net (node 0)).committed <+: (net (node 1)).committed ∨
        (net (node 1)).committed <+: (net (node 0)).committed) := by
  obtain ⟨net, hrun, hfirst, hsecond⟩ := Net.exists_run (OrderlyRules (cluster 1)) (cluster 1).init
    (proposesTwo ++ follows 1 1 0 ++ follows 2 2 1)
    (fun net => (net (node 0)).committed = [request 1] ∧
      (net (node 1)).committed = [request 1, request 2]) (by decide +kernel)
  exact ⟨net, hfirst, hsecond, (total_order hrun).2 (node 0) (node 1)⟩

open Sample in
/--
**Two replicas that hand requests over in different orders**: the proposal under the
second number comes first, and the replica commits it without waiting for the first.
-/
theorem orders_differ :
    ∃ net : Net, Run (Net.Step fun net e => HonestRules (cluster 1).members net e ∧
        e.action.newView? = none) (cluster 1).init
        (proposesTwo ++ follows 2 2 0 ++ follows 1 1 1) net ∧
      ¬ (net (node 0)).committed <+: (net (node 1)).committed ∧
      ¬ (net (node 1)).committed <+: (net (node 0)).committed := by
  obtain ⟨net, hrun, hfirst, hsecond⟩ := Net.exists_run
    (fun net e => HonestRules (cluster 1).members net e ∧ e.action.newView? = none)
    (cluster 1).init (proposesTwo ++ follows 2 2 0 ++ follows 1 1 1)
    (fun net => (net (node 0)).committed = [request 1] ∧
      (net (node 1)).committed = [request 2, request 1]) (by decide +kernel)
  refine ⟨net, hrun, ?_, ?_⟩
  · rw [hfirst, hsecond]
    decide
  · rw [hfirst, hsecond]
    decide

end P2pPbft
