/-
The normal case, at one replica.

All replicas are in view 0 and nothing but pre-prepares, prepares and commits for
what the first primary has ordered is on the way.  Then no handler has anything to
complain about: whatever order messages arrive in, and however often, the message
ends up in the log entry of its number, and what the handler sends is of the same
kind again.
-/
import P2pPbft.Proofs.Order

namespace P2pPbft

/-! ### What is on the way -/

/-- The first primary has ordered the digest under the number. -/
def Ordered (ps : List PrePrepare) (s : SequenceNumber) (d : Hash) : Prop :=
  ∃ pp ∈ ps, pp.sequence = s ∧ pp.digest = d

theorem Numbering.ordered_unique {ps : List PrePrepare} (h : Numbering ps) {s : SequenceNumber}
    {d d' : Hash} (hd : Ordered ps s d) (hd' : Ordered ps s d') : d = d' := by
  obtain ⟨pp, hpp, hs, rfl⟩ := hd
  obtain ⟨pp', hpp', hs', rfl⟩ := hd'
  rw [h.unique pp hpp pp' hpp' (hs.trans hs'.symm)]

/-- A message of the normal case: a pre-prepare of the first primary, or a vote for one. -/
def ConsensusMessage.Normal (ps : List PrePrepare) : ConsensusMessage → Prop
  | .prePrepare pp => pp ∈ ps
  | .prepare p => p.view = 0 ∧ Ordered ps p.sequence p.digest
  | .commit c => c.view = 0 ∧ Ordered ps c.sequence c.digest
  | _ => False

/-- A send of the normal case. -/
def Send.Normal (ps : List PrePrepare) : Send → Prop
  | .outgoing (.broadcast (.consensus message)) => message.Normal ps
  | .outgoing _ => False
  | .committed _ => True

/-- A section of the normal case. -/
def Section.Normal (ps : List PrePrepare) : Section → Prop
  | .handleRequest _ => True
  | .handlePrePrepare pp => (ConsensusMessage.prePrepare pp).Normal ps
  | .handlePrepare p => (ConsensusMessage.prepare p).Normal ps
  | .handleCommit c => (ConsensusMessage.commit c).Normal ps
  | .tryAdvanceToPrepared s => ∃ d, Ordered ps s d
  | .tryAdvanceToCommitted s => ∃ d, Ordered ps s d
  | .tryCheckpoint s => ∃ d, Ordered ps s d
  | _ => False

theorem Ordered.mono {ps ps' : List PrePrepare} {s : SequenceNumber} {d : Hash}
    (h : Ordered ps s d) (hsub : ps ⊆ ps') : Ordered ps' s d := by
  obtain ⟨pp, hpp, heq⟩ := h
  exact ⟨pp, hsub hpp, heq⟩

theorem ConsensusMessage.Normal.mono {ps ps' : List PrePrepare} {message : ConsensusMessage}
    (h : message.Normal ps) (hsub : ps ⊆ ps') : message.Normal ps' := by
  cases message with
  | prePrepare pp => exact hsub h
  | prepare p => exact ⟨h.1, h.2.mono hsub⟩
  | commit c => exact ⟨h.1, h.2.mono hsub⟩
  | _ => exact h

theorem Send.Normal.mono {ps ps' : List PrePrepare} {send : Send} (h : send.Normal ps)
    (hsub : ps ⊆ ps') : send.Normal ps' := by
  cases send with
  | committed request => trivial
  | outgoing message =>
      cases message with
      | sendTo target message => exact h
      | broadcast message =>
          cases message with
          | consensus message => exact ConsensusMessage.Normal.mono h hsub
          | _ => exact h

theorem Section.Normal.mono {ps ps' : List PrePrepare} {sec : Section} (h : sec.Normal ps)
    (hsub : ps ⊆ ps') : sec.Normal ps' := by
  cases sec with
  | handlePrePrepare pp =>
      have hmessage : (ConsensusMessage.prePrepare pp).Normal ps := h
      exact hmessage.mono hsub
  | handlePrepare p =>
      have hmessage : (ConsensusMessage.prepare p).Normal ps := h
      exact hmessage.mono hsub
  | handleCommit c =>
      have hmessage : (ConsensusMessage.commit c).Normal ps := h
      exact hmessage.mono hsub
  | tryAdvanceToPrepared s => exact h.imp fun _ hd => hd.mono hsub
  | tryAdvanceToCommitted s => exact h.imp fun _ hd => hd.mono hsub
  | tryCheckpoint s => exact h.imp fun _ hd => hd.mono hsub
  | _ => exact h

namespace PbftState

theorem instanceAt_setInstance_self (st : PbftState) (s : SequenceNumber)
    (inst : ConsensusInstance) : (st.setInstance s inst).instanceAt s = inst :=
  instanceAt_of_lookup ((lookup_setInstance ..).trans (if_pos rfl))

end PbftState

section

variable [Crypto]

namespace PbftState

variable {st : PbftState}

/-! ### Handlers with nothing to complain about -/

theorem handlePrepare_ok {p : Prepare} (hview : p.view = st.view)
    (hlow : st.lowWatermark < p.sequence) (hhigh : p.sequence ≤ st.highWatermark)
    (hsig : verifyNodeSignature p.replicaId
      (asBytes (prepareSignData p.view p.sequence p.digest)) p.signature = true)
    (hdigest : ∀ pp, (st.instanceAt p.sequence).prePrepare = some pp → pp.digest = p.digest) :
    (st.handlePrepare p).result = .ok ∧
      p.replicaId ∈ ((st.handlePrepare p).state.instanceAt p.sequence).prepares := by
  have hwindow : ¬ (p.sequence ≤ st.lowWatermark ∨ st.highWatermark < p.sequence) := by grind
  have hsame : ((st.instanceAt p.sequence).prePrepare.any fun pp => pp.digest ≠ p.digest)
      = false := by
    cases hpp : (st.instanceAt p.sequence).prePrepare with
    | none => rfl
    | some pp => simp [hdigest pp hpp]
  unfold handlePrepare
  rw [if_neg (not_not.mpr hview), if_neg hwindow, if_neg (by simp [hsig])]
  simp only [getOrCreateInstance_snd, getOrCreateInstance_setInstance, hsame, Bool.false_eq_true,
    if_false]
  by_cases hmem : p.replicaId ∈ (st.instanceAt p.sequence).prepares
  · have hne : st.instanceAt p.sequence ≠ ConsensusInstance.new p.sequence st.view := by
      intro hnew
      rw [hnew] at hmem
      exact Finmap.notMem_empty hmem
    obtain ⟨inst, hlookup⟩ := lookup_of_instanceAt_ne hne
    rw [if_pos hmem, getOrCreateInstance_fst_of_lookup hlookup]
    exact ⟨rfl, hmem⟩
  · rw [if_neg hmem, Outcome.proceed_state, instanceAt_setInstance_self]
    exact ⟨rfl, Finmap.mem_insert.mpr (Or.inl rfl)⟩

theorem handleCommit_ok {c : Commit} (hview : c.view = st.view)
    (hlow : st.lowWatermark < c.sequence) (hhigh : c.sequence ≤ st.highWatermark)
    (hsig : verifyNodeSignature c.replicaId
      (asBytes (commitSignData c.view c.sequence c.digest)) c.signature = true)
    (hdigest : ∀ d, (st.instanceAt c.sequence).digest = some d → c.digest = d) :
    (st.handleCommit c).result = .ok ∧
      c.replicaId ∈ ((st.handleCommit c).state.instanceAt c.sequence).commits := by
  have hwindow : ¬ (c.sequence ≤ st.lowWatermark ∨ st.highWatermark < c.sequence) := by grind
  have hsame : ((st.instanceAt c.sequence).digest.any fun d => c.digest ≠ d) = false := by
    cases hd : (st.instanceAt c.sequence).digest with
    | none => rfl
    | some d => simp [hdigest d hd]
  unfold handleCommit
  rw [if_neg (not_not.mpr hview), if_neg hwindow, if_neg (by simp [hsig])]
  simp only [getOrCreateInstance_snd, getOrCreateInstance_setInstance, hsame, Bool.false_eq_true,
    if_false]
  by_cases hmem : c.replicaId ∈ (st.instanceAt c.sequence).commits
  · have hne : st.instanceAt c.sequence ≠ ConsensusInstance.new c.sequence st.view := by
      intro hnew
      rw [hnew] at hmem
      exact Finmap.notMem_empty hmem
    obtain ⟨inst, hlookup⟩ := lookup_of_instanceAt_ne hne
    rw [if_pos hmem, getOrCreateInstance_fst_of_lookup hlookup]
    exact ⟨rfl, hmem⟩
  · rw [if_neg hmem, Outcome.proceed_state, instanceAt_setInstance_self]
    exact ⟨rfl, Finmap.mem_insert.mpr (Or.inl rfl)⟩

theorem handlePrePrepare_ok {pp : PrePrepare} (now : Instant) (hview : pp.view = st.view)
    (hprimary : pp.primaryId = st.primary) (hlow : st.lowWatermark < pp.sequence)
    (hhigh : pp.sequence ≤ st.highWatermark)
    (hsig : verifyNodeSignature pp.primaryId
      (asBytes (prepareSignData pp.view pp.sequence pp.digest)) pp.signature = true)
    (hrequest : pp.request.digest = pp.digest)
    (hdigest : ∀ inst, st.log.lookup pp.sequence = some inst → inst.prePrepare.isSome →
      inst.digest = some pp.digest) :
    (st.handlePrePrepare now pp).result = .ok ∧
      ((st.handlePrePrepare now pp).state.instanceAt pp.sequence).prePrepare.isSome := by
  have hwindow : ¬ (pp.sequence ≤ st.lowWatermark ∨ st.highWatermark < pp.sequence) := by grind
  have haccept : (st.acceptPrePrepare now pp).result = .ok ∧
      ((st.acceptPrePrepare now pp).state.instanceAt pp.sequence).prePrepare.isSome := by
    unfold acceptPrePrepare
    rw [if_neg (not_not.mpr hrequest)]
    refine ⟨rfl, ?_⟩
    show ((st.record pp (st.ownPrepare pp.view pp.sequence pp.digest)).instanceAt
      pp.sequence).prePrepare.isSome
    rw [record_eq, instanceAt_setInstance_self]
    rfl
  unfold handlePrePrepare
  rw [if_neg (not_not.mpr hview), if_neg (not_not.mpr hprimary), if_neg hwindow,
    if_neg (by simp [hsig])]
  cases hlookup : st.log.lookup pp.sequence with
  | none => exact haccept
  | some inst =>
      by_cases hpp : inst.prePrepare.isSome
      · simp only [hpp, if_true, hdigest inst hlookup hpp, ne_eq, not_true_eq_false, if_false]
        rw [Outcome.stop_state, instanceAt_of_lookup hlookup]
        exact ⟨rfl, hpp⟩
      · simp only [hpp, Bool.false_eq_true, if_false]
        exact haccept

/-- A primary with room in its window proposes a request, or has executed it. -/
theorem handleRequest_ok {request : Request} (hprimary : st.primary = st.nodeId)
    (hhigh : st.sequence + 1 ≤ st.highWatermark) :
    (st.handleRequest request).result = .ok ∧
      (request.digest ∈ st.executed ∨ st.handleRequest request
        = .proceed (st.proposed request)
          [.broadcast (.prePrepare (st.proposal (st.sequence + 1) request)),
            .broadcast (.prepare (st.ownPrepare st.view (st.sequence + 1) request.digest))]
          (some (.tryAdvanceToPrepared (st.sequence + 1)))) := by
  by_cases hfresh : request.digest ∈ st.executed
  · refine ⟨?_, Or.inl hfresh⟩
    unfold handleRequest isPrimary
    rw [if_neg (by simpa using hprimary), if_pos hfresh]
    rfl
  · have hrun := handleRequest_of_proposes ⟨hprimary, hfresh, hhigh⟩
    rw [hrun]
    exact ⟨rfl, Or.inr rfl⟩

/-- A pre-prepare in the log comes with its digest, so nothing can fail on the way up. -/
theorem tryAdvanceToPrepared_ok {s : SequenceNumber}
    (hdigest : ∀ inst, st.log.lookup s = some inst → inst.prePrepare.isSome →
      inst.digest.isSome) : (st.tryAdvanceToPrepared s).result = .ok := by
  unfold tryAdvanceToPrepared
  split
  · rfl
  rename_i inst hlookup
  split
  · rfl
  rename_i hpp
  split
  · rfl
  split
  · rfl
  split
  · rename_i hnone
    have hsome := hdigest inst hlookup (by simpa [Option.isSome_iff_ne_none] using hpp)
    rw [hnone] at hsome
    exact absurd hsome (by simp)
  · rfl

theorem tryAdvanceToCommitted_ok (s : SequenceNumber) :
    (st.tryAdvanceToCommitted s).result = .ok := by
  unfold tryAdvanceToCommitted
  split
  · rfl
  split
  · rfl
  split
  · rfl
  simp only
  split
  · rfl
  · split <;> rfl

theorem tryCheckpoint_ok {s : SequenceNumber} (hinterval : st.config.checkpointInterval ≠ 0) :
    (st.tryCheckpoint s).result = .ok := by
  unfold tryCheckpoint
  rw [if_neg hinterval]
  split <;> rfl

end PbftState

/-! ### The state in the normal case -/

/-- The pre-prepares of a first primary that has stayed below the first checkpoint. -/
structure Ordering (cluster : Cluster) (ps : List PrePrepare) : Prop extends Numbering ps where
  view : ∀ pp ∈ ps, pp.view = 0
  primary : ∀ pp ∈ ps, pp.primaryId = cluster.replicas.primary 0
  digest : ∀ pp ∈ ps, pp.request.digest = pp.digest
  below : ∀ pp ∈ ps, pp.sequence.toNat < cluster.checkpointInterval.toNat

/-- The state of a replica that has seen nothing but the normal case. -/
structure PbftState.Normal (cluster : Cluster) (ps : List PrePrepare) (st : PbftState) : Prop where
  view : st.view = 0
  low : st.lowWatermark = 0
  high : st.highWatermark = cluster.checkpointInterval * 2
  views : ∀ s inst, st.log.lookup s = some inst → inst.view = 0
  logged : Logged (· ∈ ps) st
  executed : ∀ d ∈ st.executed, ∃ s, Ordered ps s d

section

variable {cluster : Cluster} {ps : List PrePrepare} {st : PbftState} {issued : List Send}
  {now : Instant} {sec : Section} {out : Outcome}

theorem PbftState.Normal.mono {ps' : List PrePrepare} (h : st.Normal cluster ps)
    (hsub : ps ⊆ ps') : st.Normal cluster ps' where
  view := h.view
  low := h.low
  high := h.high
  views := h.views
  logged := h.logged.mono fun _ hpp => hsub hpp
  executed := fun d hd => (h.executed d hd).imp fun _ hs => hs.mono hsub

theorem PbftState.Normal.instanceAt_view (h : st.Normal cluster ps) (s : SequenceNumber) :
    (st.instanceAt s).view = 0 := by
  rcases st.instanceAt_cases s with hlookup | hnew
  · exact h.views s _ hlookup
  · rw [hnew]
    exact h.view

theorem PbftState.Normal.ordered (h : st.Normal cluster ps) (hwf : WellFormed st issued)
    {s : SequenceNumber} {inst : ConsensusInstance} (hlookup : st.log.lookup s = some inst)
    {d : Hash} (hdigest : inst.digest = some d) : Ordered ps s d := by
  have hok := hwf.entry s inst hlookup
  cases hpp : inst.prePrepare with
  | none => exact absurd (hdigest.symm.trans (hok.idle hpp).1) (by simp)
  | some pp =>
      have hd : pp.digest = d := Option.some.inj ((hok.digest pp hpp).symm.trans hdigest)
      exact ⟨pp, h.logged s inst pp hlookup hpp, hok.sequence pp hpp, hd⟩

theorem PbftState.Normal.ordered_at (h : st.Normal cluster ps) (hwf : WellFormed st issued)
    {s : SequenceNumber} {d : Hash} (hdigest : (st.instanceAt s).digest = some d) :
    Ordered ps s d := by
  rcases st.instanceAt_cases s with hlookup | hnew
  · exact h.ordered hwf hlookup hdigest
  · rw [hnew] at hdigest
    exact absurd hdigest (by simp [ConsensusInstance.new])

/-- **A section of the normal case leaves a state of the normal case.** -/
theorem PbftState.Normal.step (h : st.Normal cluster ps) (hwf : WellFormed st issued)
    (hordering : Ordering cluster ps) (ht : Transition st now sec out) (hsec : sec.Normal ps)
    (hissued : ∀ pp ∈ proposals out.sends, pp ∈ ps) : out.state.Normal cluster ps := by
  have hwindow : out.state.lowWatermark = st.lowWatermark ∧
      out.state.highWatermark = st.highWatermark := by
    rcases ht.window with ⟨hlow, -, hhigh⟩ | ⟨checkpoint, rfl, -⟩
    · exact ⟨hlow, hhigh⟩
    · exact hsec.elim
  constructor
  · rcases ht.view with hview | ⟨nv, rfl, -, -⟩
    · rw [hview, h.view]
    · exact hsec.elim
  · rw [hwindow.1, h.low]
  · rw [hwindow.2, h.high]
  · intro s inst hlookup
    rcases ht.entry hlookup with hold | hwrite
    · exact h.views s inst hold
    cases hwrite with
    | propose _ _ _ _ _ => exact h.instanceAt_view _
    | accept _ _ _ _ => exact h.instanceAt_view _
    | storePrepare _ _ _ => exact h.instanceAt_view _
    | prepared s inst _ hl _ _ _ _ _ => exact h.views s inst hl
    | storeCommit _ _ _ => exact h.instanceAt_view _
    | committed s inst hl _ _ _ _ => exact h.views s inst hl
  · refine h.logged.step ht hissued ?_
    rintro pp rfl
    exact hsec
  · intro d hd
    rcases ht.deliveries with ⟨-, hsame⟩ | ⟨s, inst, request, -, hl, hrequest, -, hnew, -⟩
    · rw [hsame] at hd
      exact h.executed d hd
    · rw [hnew] at hd
      rcases Finset.mem_insert.mp hd with rfl | hold
      · obtain ⟨pp, hpp, rfl⟩ := hwf.prePrepare_of_request hl hrequest
        have hmem := h.logged s inst pp hl hpp
        exact ⟨pp.sequence, pp, hmem, rfl, (hordering.digest pp hmem).symm⟩
      · exact h.executed d hold

theorem Ordering.bounds (h : Ordering cluster ps) {s : SequenceNumber} {d : Hash}
    (hs : Ordered ps s d) : 0 < s.toNat ∧ s.toNat < cluster.checkpointInterval.toNat := by
  obtain ⟨pp, hpp, rfl, -⟩ := hs
  exact ⟨UInt64.lt_iff_toNat_lt.mp (h.pos pp hpp), h.below pp hpp⟩

theorem Ordering.mod_ne_zero (h : Ordering cluster ps) {s : SequenceNumber} {d : Hash}
    (hs : Ordered ps s d) : s % cluster.checkpointInterval ≠ 0 := by
  obtain ⟨hpos, hlt⟩ := h.bounds hs
  intro hmod
  have hzero : (s % cluster.checkpointInterval).toNat = 0 := by rw [hmod]; rfl
  rw [UInt64.toNat_mod, Nat.mod_eq_of_lt hlt] at hzero
  omega

/-- The request comes to the first primary, and there is room in the window. -/
def PbftState.HasRoom (st : PbftState) : Section → Prop
  | .handleRequest _ => st.primary = st.nodeId ∧ st.sequence + 1 ≤ st.highWatermark
  | _ => True

/-- **What a section of the normal case sends is of the normal case again.** -/
theorem Transition.normal_sends (ht : Transition st now sec out) (h : st.Normal cluster ps)
    (hwf : WellFormed st issued) (hconfig : st.config = cluster.config)
    (hordering : Ordering cluster ps) (hsec : sec.Normal ps) (hroom : st.HasRoom sec)
    (hissued : ∀ pp ∈ P2pPbft.proposals out.sends, pp ∈ ps) :
    ∀ send ∈ out.sends, send.Normal ps := by
  intro send hsend
  cases ht with
  | propose request _ =>
      have hpp : st.proposal (st.sequence + 1) request ∈ ps :=
        hissued _ (mem_proposals.mpr List.mem_cons_self)
      rcases List.mem_cons.mp hsend with rfl | hsend
      · exact hpp
      · obtain rfl := List.mem_singleton.mp hsend
        exact ⟨h.view, _, hpp, rfl, rfl⟩
  | forward request hforward => exact absurd hroom.1 hforward
  | accept pp haccept =>
      obtain rfl := List.mem_singleton.mp hsend
      exact ⟨hordering.view pp hsec, pp, hsec, rfl, rfl⟩
  | prepared s inst digest hlookup _ _ _ hdigest =>
      obtain rfl := List.mem_singleton.mp hsend
      exact ⟨h.views s inst hlookup, h.ordered hwf hlookup hdigest⟩
  | executed s inst request _ _ _ _ _ =>
      obtain rfl := List.mem_singleton.mp hsend
      trivial
  | announce s hinterval hmod =>
      obtain ⟨d, hd⟩ := hsec
      rw [hconfig] at hmod
      exact absurd hmod (hordering.mod_ne_zero hd)
  | announceNewView _ _ _ _ | startViewChange _ => exact hsec.elim
  | _ => cases hsend

/-- **And so is what it goes on to.** -/
theorem Transition.normal_next (ht : Transition st now sec out) (hsec : sec.Normal ps)
    (hissued : ∀ pp ∈ P2pPbft.proposals out.sends, pp ∈ ps) {next : Section}
    (hnext : out.next = some next) : next.Normal ps := by
  cases ht with
  | propose request _ =>
      obtain rfl := Option.some.inj hnext
      exact ⟨_, _, hissued _ (mem_proposals.mpr List.mem_cons_self), rfl, rfl⟩
  | accept pp _ =>
      obtain rfl := Option.some.inj hnext
      exact ⟨_, pp, hsec, rfl, rfl⟩
  | storePrepare p _ =>
      obtain rfl := Option.some.inj hnext
      exact ⟨p.digest, hsec.2⟩
  | storeCommit c _ =>
      obtain rfl := Option.some.inj hnext
      exact ⟨c.digest, hsec.2⟩
  | prepared _ _ _ _ _ _ _ _ =>
      obtain rfl := Option.some.inj hnext
      exact hsec
  | executed _ _ _ _ _ _ _ _ =>
      obtain rfl := Option.some.inj hnext
      exact hsec
  | timeout _ => exact hsec.elim
  | _ => cases hnext

/-- The log entry a message is kept in has it, or one like it from the same replica. -/
def PbftState.Holds (st : PbftState) : ConsensusMessage → Prop
  | .prePrepare pp => (st.instanceAt pp.sequence).prePrepare.isSome
  | .prepare p => p.replicaId ∈ (st.instanceAt p.sequence).prepares
  | .commit c => c.replicaId ∈ (st.instanceAt c.sequence).commits
  | _ => True

/-- The message is signed by whom it names. -/
def ConsensusMessage.Verifies (message : ConsensusMessage) : Prop :=
  ∀ claim, message.claim = some claim →
    verifyNodeSignature claim.signer (asBytes claim.data) claim.signature = true

/--
**In the normal case no handler fails**, and whatever message a handler was started
for is in the log when its first section is over.
-/
theorem PbftState.Normal.run_ok (h : st.Normal cluster ps) (hwf : WellFormed st issued)
    (hreplicas : st.replicas = cluster.replicas) (hconfig : st.config = cluster.config)
    (hinterval : cluster.checkpointInterval.toNat * 2 < 2 ^ 64)
    (hordering : Ordering cluster ps) (hsec : sec.Normal ps) (hroom : st.HasRoom sec)
    (hverifies : ∀ message, sec.message? = some message → message.Verifies) :
    (sec.run st now).result = .ok ∧
      ∀ message, sec.message? = some message → (sec.run st now).state.Holds message := by
  have hwindow : ∀ s d, Ordered ps s d → st.lowWatermark < s ∧ s ≤ st.highWatermark := by
    intro s d hs
    obtain ⟨hpos, hlt⟩ := hordering.bounds hs
    rw [h.low, h.high, UInt64.lt_iff_toNat_lt, UInt64.le_iff_toNat_le, UInt64.toNat_mul]
    have htwo : (2 : UInt64).toNat = 2 := rfl
    have hzero : (0 : UInt64).toNat = 0 := rfl
    rw [htwo, hzero, Nat.mod_eq_of_lt hinterval]
    omega
  cases sec with
  | handleRequest request =>
      exact ⟨(handleRequest_ok hroom.1 hroom.2).1, fun _ hm => by cases hm⟩
  | handlePrePrepare pp =>
      have hpp : pp ∈ ps := hsec
      obtain ⟨hlow, hhigh⟩ := hwindow pp.sequence pp.digest ⟨pp, hpp, rfl, rfl⟩
      have hprimary : pp.primaryId = st.primary := by
        rw [hordering.primary pp hpp, PbftState.primary, hreplicas, h.view]
      obtain ⟨hok, hheld⟩ := handlePrePrepare_ok now ((hordering.view pp hpp).trans h.view.symm)
        hprimary hlow hhigh (hverifies _ rfl _ rfl) (hordering.digest pp hpp)
        (fun inst hlookup hsome => by
          obtain ⟨pp', hpp'⟩ := Option.isSome_iff_exists.mp hsome
          have hok := hwf.entry _ inst hlookup
          rw [hok.digest pp' hpp', hordering.unique pp' (h.logged _ inst pp' hlookup hpp') pp hpp
            (hok.sequence pp' hpp')])
      refine ⟨hok, fun message hm => ?_⟩
      cases hm
      exact hheld
  | handlePrepare p =>
      obtain ⟨hview, hp⟩ : p.view = 0 ∧ Ordered ps p.sequence p.digest := hsec
      obtain ⟨hlow, hhigh⟩ := hwindow _ _ hp
      obtain ⟨hok, hheld⟩ := handlePrepare_ok (hview.trans h.view.symm) hlow hhigh
        (hverifies _ rfl _ rfl) fun pp hpp =>
          hordering.ordered_unique (h.ordered_at hwf ((hwf.instanceAt _).digest pp hpp)) hp
      refine ⟨hok, fun message hm => ?_⟩
      cases hm
      exact hheld
  | handleCommit c =>
      obtain ⟨hview, hc⟩ : c.view = 0 ∧ Ordered ps c.sequence c.digest := hsec
      obtain ⟨hlow, hhigh⟩ := hwindow _ _ hc
      obtain ⟨hok, hheld⟩ := handleCommit_ok (hview.trans h.view.symm) hlow hhigh
        (hverifies _ rfl _ rfl) fun d hd =>
          hordering.ordered_unique hc (h.ordered_at hwf hd)
      refine ⟨hok, fun message hm => ?_⟩
      cases hm
      exact hheld
  | tryAdvanceToPrepared s =>
      refine ⟨tryAdvanceToPrepared_ok fun inst hlookup hsome => ?_, fun _ hm => by cases hm⟩
      obtain ⟨pp, hpp⟩ := Option.isSome_iff_exists.mp hsome
      rw [(hwf.entry s inst hlookup).digest pp hpp]
      rfl
  | tryAdvanceToCommitted s => exact ⟨tryAdvanceToCommitted_ok s, fun _ hm => by cases hm⟩
  | tryCheckpoint s =>
      refine ⟨tryCheckpoint_ok ?_, fun _ hm => by cases hm⟩
      obtain ⟨d, hd⟩ := hsec
      have hlt := (hordering.bounds hd).2
      rw [hconfig]
      intro hzero
      have hzero' : cluster.checkpointInterval.toNat = 0 := congrArg UInt64.toNat hzero
      omega
  | _ => exact hsec.elim

end

end

end P2pPbft
