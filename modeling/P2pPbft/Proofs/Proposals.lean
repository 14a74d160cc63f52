/-
A replica proposes once and votes once in a slot.

There are two ways to a prepare.  A primary taking a request is kept from voting
twice by its counter; a backup taking a pre-prepare is kept from it by the
pre-prepare already in the log.  The log forgets what a stable checkpoint covers,
but from there on the window keeps the number out, and that is `Covered`.

The two ways would collide if a primary took a pre-prepare for its own view.  It
would have to be one it signed, so one it voted for, so one the log already has.
-/
import P2pPbft.Proofs.SignData
import P2pPbft.Proofs.Entries
import P2pPbft.Sample

namespace P2pPbft

theorem lt_succ_of_toNat {s : SequenceNumber} (h : s.toNat + 1 < 2 ^ 64) : s < s + 1 := by
  rw [UInt64.lt_iff_toNat_lt, UInt64.toNat_add]
  have hone : (1 : UInt64).toNat = 1 := rfl
  omega

/-- The counter is not about to wrap when a request is handled. -/
def PbftState.NoWrap (st : PbftState) : Section → Prop
  | .handleRequest _ => st.sequence.toNat + 1 < 2 ^ 64
  | _ => True

instance (st : PbftState) : (sec : Section) → Decidable (st.NoWrap sec)
  | .handleRequest _ => by dsimp only [PbftState.NoWrap]; infer_instance
  | .handlePrePrepare _ | .handlePrepare _ | .tryAdvanceToPrepared _ | .handleCommit _
  | .tryAdvanceToCommitted _ | .tryCheckpoint _ | .handleCheckpoint _ | .handleViewChange _
  | .handleNewView _ | .startViewChange | .checkTimeout => isTrue trivial

/-- Behind every vote there is a pre-prepare in the log, or the window has moved past it. -/
def Covered (st : PbftState) (issued : List Send) : Prop :=
  ∀ p ∈ votes issued, p.sequence ≤ st.lowWatermark ∨
    ∃ inst, st.log.lookup p.sequence = some inst ∧ inst.prePrepare.isSome

/-- The replica has signed the prepare string of the slot and the digest. -/
def SignedPrepare (issued : List Send) (v : ViewNumber) (s : SequenceNumber) (d : Hash) : Prop :=
  (∃ pp ∈ proposals issued, pp.view = v ∧ pp.sequence = s ∧ pp.digest = d) ∨
    ∃ p ∈ votes issued, p.view = v ∧ p.sequence = s ∧ p.digest = d

/-- With every proposal there is a vote for it. -/
def Backed (issued : List Send) : Prop :=
  ∀ pp ∈ proposals issued,
    ∃ p ∈ votes issued, p.view = pp.view ∧ p.sequence = pp.sequence ∧ p.digest = pp.digest

theorem SignedPrepare.vote {issued : List Send} {v : ViewNumber} {s : SequenceNumber} {d : Hash}
    (h : SignedPrepare issued v s d) (hbacked : Backed issued) :
    ∃ p ∈ votes issued, p.view = v ∧ p.sequence = s ∧ p.digest = d := by
  rcases h with ⟨pp, hpp, hv, hs, hd⟩ | hvote
  · obtain ⟨p, hp, hpv, hps, hpd⟩ := hbacked pp hpp
    exact ⟨p, hp, hpv.trans hv, hps.trans hs, hpd.trans hd⟩
  · exact hvote

theorem SignedPrepare.mono {issued issued' : List Send} {v : ViewNumber} {s : SequenceNumber}
    {d : Hash} (h : SignedPrepare issued v s d) (hsub : issued ⊆ issued') :
    SignedPrepare issued' v s d := by
  rcases h with ⟨pp, hpp, heq⟩ | ⟨p, hp, heq⟩
  · exact Or.inl ⟨pp, mem_proposals.mpr (hsub (mem_proposals.mp hpp)), heq⟩
  · exact Or.inr ⟨p, mem_votes.mpr (hsub (mem_votes.mp hp)), heq⟩

/-- What the counter and the two lists of issued messages have to do with each other. -/
structure Slots (st : PbftState) (issued : List Send) : Prop where
  proposed : ∀ pp ∈ proposals issued, 0 < pp.sequence ∧ pp.sequence ≤ st.sequence
  voted : ∀ p ∈ votes issued, st.replicas.primary p.view = st.nodeId → p.sequence ≤ st.sequence
  proposals_nodup : ((proposals issued).map fun pp => (pp.view, pp.sequence)).Nodup
  votes_nodup : ((votes issued).map fun p => (p.view, p.sequence)).Nodup

section

variable [Crypto] {st : PbftState} {issued : List Send} {now : Instant} {sec : Section} {out : Outcome}

theorem WellFormed.low_le (hwf : WellFormed st issued) (h : Transition st now sec out) :
    st.lowWatermark ≤ out.state.lowWatermark := by
  rcases h.window with ⟨hlow, -, -⟩ | ⟨checkpoint, -, -, hnew, hst⟩
  · rw [hlow]
    exact UInt64.le_refl _
  · have hlow : out.state.lowWatermark = checkpoint.sequence := by rw [hst]; rfl
    rw [hlow, hwf.low]
    exact UInt64.le_of_lt hnew

theorem Transition.prePrepare_kept (h : Transition st now sec out) {s : SequenceNumber}
    {inst : ConsensusInstance} (hlookup : st.log.lookup s = some inst)
    (hpp : inst.prePrepare.isSome) :
    s ≤ out.state.lowWatermark ∨
      ∃ inst', out.state.log.lookup s = some inst' ∧ inst'.prePrepare.isSome := by
  rcases h.kept hlookup with ⟨inst', hlookup', rfl | hwrite⟩ | ⟨-, hlow, -⟩
  · exact Or.inr ⟨inst', hlookup', hpp⟩
  · refine Or.inr ⟨inst', hlookup', ?_⟩
    cases hwrite with
    | propose _ _ _ _ _ => rfl
    | accept _ _ _ _ => rfl
    | storePrepare prepare _ _ =>
        rw [← PbftState.instanceAt_of_lookup hlookup] at hpp
        exact hpp
    | prepared _ _ _ hl hsome _ _ _ _ => exact hsome
    | storeCommit commit _ _ =>
        rw [← PbftState.instanceAt_of_lookup hlookup] at hpp
        exact hpp
    | committed _ inst₀ hl _ _ _ _ =>
        rw [hlookup] at hl
        obtain rfl := Option.some.inj hl
        exact hpp
  · exact Or.inl hlow

theorem Votes.lookup {st' : PbftState} {p : Prepare} (h : Votes st sec st' p) :
    ∃ inst, st'.log.lookup p.sequence = some inst ∧ inst.prePrepare.isSome := by
  cases h with
  | propose request h =>
      rw [PbftState.proposed_eq]
      exact ⟨_, by rw [PbftState.lookup_setInstance]; exact if_pos rfl, rfl⟩
  | accept pp h now =>
      rw [PbftState.record_eq]
      exact ⟨_, by rw [PbftState.lookup_setInstance]; exact if_pos rfl, rfl⟩

/-- **Votes stay covered.** -/
theorem Covered.step (hcov : Covered st issued) (hwf : WellFormed st issued)
    (h : Transition st now sec out) : Covered out.state (issued ++ out.sends) := by
  intro p hp
  rw [votes_append] at hp
  rcases List.mem_append.mp hp with hold | hnew
  · rcases hcov p hold with hlow | ⟨inst, hlookup, hpp⟩
    · exact Or.inl (UInt64.le_trans hlow (hwf.low_le h))
    · exact h.prePrepare_kept hlookup hpp
  · rcases h.votes with hnone | ⟨p', hvotes, hvote⟩
    · rw [hnone] at hnew
      exact absurd hnew (by simp)
    · rw [hvotes] at hnew
      obtain rfl := List.mem_singleton.mp hnew
      exact Or.inr hvote.lookup

/-- A backup never takes a pre-prepare for a number it has voted on. -/
theorem Covered.not_accepts (hcov : Covered st issued) {pp : PrePrepare}
    (h : st.AcceptsPrePrepare pp) {p : Prepare} (hp : p ∈ votes issued) :
    p.sequence ≠ pp.sequence := by
  intro heq
  rcases hcov p hp with hlow | ⟨inst, hlookup, hpp⟩
  · rw [heq] at hlow
    exact absurd h.low (UInt64.not_lt.mpr hlow)
  · rw [heq] at hlookup
    rw [h.fresh inst hlookup] at hpp
    exact absurd hpp (by simp)

/-- **A primary takes no pre-prepare in its own view**, unless its signature was forged. -/
theorem Covered.not_primary (hcov : Covered st issued) (hbacked : Backed issued)
    {pp : PrePrepare} (h : st.AcceptsPrePrepare pp)
    (hsigned : pp.primaryId = st.nodeId → SignedPrepare issued pp.view pp.sequence pp.digest) :
    st.primary ≠ st.nodeId := by
  intro hprimary
  obtain ⟨p, hp, -, hs, -⟩ := (hsigned (h.primary.trans hprimary)).vote hbacked
  exact hcov.not_accepts h hp hs

/-- **Proposals stay backed.** -/
theorem Backed.step (hbacked : Backed issued) (h : Transition st now sec out) :
    Backed (issued ++ out.sends) := by
  intro pp hpp
  rw [proposals_append] at hpp
  rw [votes_append]
  rcases List.mem_append.mp hpp with hold | hnew
  · obtain ⟨p, hp, heq⟩ := hbacked pp hold
    exact ⟨p, List.mem_append_left _ hp, heq⟩
  · cases h with
    | propose request _ =>
        obtain rfl := List.mem_singleton.mp hnew
        exact ⟨_, List.mem_append_right _ (List.mem_singleton.mpr rfl), rfl, rfl, rfl⟩
    | _ => exact absurd hnew (by simp [proposals, Send.prePrepare?, Send.broadcast])

theorem Slots.vote_fresh (hslots : Slots st issued) (hcov : Covered st issued) {st' : PbftState}
    {p : Prepare} (h : Votes st sec st' p)
    (hwrap : st.NoWrap sec) :
    ∀ p' ∈ votes issued, (p'.view, p'.sequence) ≠ (p.view, p.sequence) := by
  intro p' hp' heq
  obtain ⟨hview, hseq⟩ := Prod.mk.inj heq
  cases h with
  | propose request h =>
      have hprimary : st.replicas.primary p'.view = st.nodeId := by
        rw [hview]
        exact h.primary
      have hle := hslots.voted p' hp' hprimary
      rw [hseq] at hle
      exact absurd (lt_succ_of_toNat hwrap) (UInt64.not_lt.mpr hle)
  | accept pp h now => exact hcov.not_accepts h hp' hseq

/-- A new proposal has a number above all the ones before. -/
theorem Slots.proposal_fresh (hslots : Slots st issued) (request : Request)
    (hwrap : st.sequence.toNat + 1 < 2 ^ 64) :
    ∀ pp ∈ proposals issued, pp.sequence ≠ (st.proposal (st.sequence + 1) request).sequence := by
  intro pp hpp heq
  have hle := (hslots.proposed pp hpp).2
  rw [heq] at hle
  exact absurd (lt_succ_of_toNat hwrap) (UInt64.not_lt.mpr hle)

/-- **Every section keeps the slots apart.** -/
theorem Slots.step (hslots : Slots st issued) (hcov : Covered st issued)
    (hbacked : Backed issued) (h : Transition st now sec out)
    (hwrap : st.NoWrap sec)
    (hsigned : ∀ pp, sec = .handlePrePrepare pp → st.AcceptsPrePrepare pp →
      pp.primaryId = st.nodeId → SignedPrepare issued pp.view pp.sequence pp.digest) :
    Slots out.state (issued ++ out.sends) := by
  obtain ⟨hnode, -, hreplicas, -⟩ := h.static
  have hle : st.sequence ≤ out.state.sequence := by
    rcases h.sequence with hseq | ⟨request, rfl, hseq⟩
    · rw [hseq]
      exact UInt64.le_refl _
    · rw [hseq]
      exact UInt64.le_of_lt (lt_succ_of_toNat hwrap)
  -- Old messages keep what they have; the rest is about the one the section adds.
  have hproposals : ∀ pp ∈ proposals issued, 0 < pp.sequence ∧ pp.sequence ≤ out.state.sequence :=
    fun pp hpp => ⟨(hslots.proposed pp hpp).1, UInt64.le_trans (hslots.proposed pp hpp).2 hle⟩
  have hvotes : ∀ p ∈ votes issued, st.replicas.primary p.view = st.nodeId →
      p.sequence ≤ out.state.sequence :=
    fun p hp hprimary => UInt64.le_trans (hslots.voted p hp hprimary) hle
  rw [← hreplicas, ← hnode] at hvotes
  constructor
  · rw [proposals_append]
    rcases h.proposals with hnone | ⟨request, rfl, hp, hst, hone⟩
    · rw [hnone, List.append_nil]
      exact hproposals
    · rw [hone]
      intro pp hpp
      rcases List.mem_append.mp hpp with hold | hnew
      · exact hproposals pp hold
      · obtain rfl := List.mem_singleton.mp hnew
        rw [hst, PbftState.proposed_eq]
        have hpos : 0 < st.sequence + 1 :=
          UInt64.lt_of_le_of_lt UInt64.zero_le (lt_succ_of_toNat hwrap)
        exact ⟨hpos, UInt64.le_refl _⟩
  · rw [votes_append]
    rcases h.votes with hnone | ⟨p', hone, hvote⟩
    · rw [hnone, List.append_nil]
      exact hvotes
    · rw [hone]
      intro p hp hprimary
      rcases List.mem_append.mp hp with hold | hnew
      · exact hvotes p hold hprimary
      · obtain rfl := List.mem_singleton.mp hnew
        rw [hreplicas, hnode] at hprimary
        generalize out.state = st' at hvote
        cases hvote with
        | propose request _ =>
            rw [PbftState.proposed_eq]
            exact UInt64.le_refl _
        | accept pp haccept _ =>
            have hown : st.primary = st.nodeId := by
              rw [PbftState.primary, ← haccept.view]
              exact hprimary
            exact absurd hown (hcov.not_primary hbacked haccept (hsigned pp rfl haccept))
  · rw [proposals_append]
    rcases h.proposals with hnone | ⟨request, rfl, hp, hst, hone⟩
    · rw [hnone, List.append_nil]
      exact hslots.proposals_nodup
    · rw [hone]
      refine nodup_map_concat hslots.proposals_nodup fun pp hpp heq => ?_
      exact hslots.proposal_fresh request hwrap pp hpp (Prod.mk.inj heq).2
  · rw [votes_append]
    rcases h.votes with hnone | ⟨p', hone, hvote⟩
    · rw [hnone, List.append_nil]
      exact hslots.votes_nodup
    · rw [hone]
      exact nodup_map_concat hslots.votes_nodup (hslots.vote_fresh hcov hvote hwrap)

end

/-! ### Runs of one replica -/

namespace Replica

section

variable [Crypto]

/-- What holds of a replica whatever is thrown at it. -/
structure Sound (r : Replica) : Prop where
  cascading : r.Cascading
  accounted : r.Accounted
  wellFormed : WellFormed r.state r.issued
  covered : Covered r.state r.issued
  backed : Backed r.issued
  signs : Signs r.state r.issued

omit [Crypto] in
theorem covered_new (st : PbftState) : Covered st [] := fun _ h => absurd h (by simp [votes])

omit [Crypto] in
theorem slots_new (st : PbftState) : Slots st [] where
  proposed := fun _ h => absurd h (by simp [proposals])
  voted := fun _ h => absurd h (by simp [votes])
  proposals_nodup := List.nodup_nil
  votes_nodup := List.nodup_nil

theorem Sound.act {r r' : Replica} {a : Action} (hr : r.Sound) (h : r.act a = some r') :
    r'.Sound where
  cascading := cascading_act h hr.cascading
  accounted := accounted_act h hr.accounted
  wellFormed := keep h hr.wellFormed fun _ ht => hr.wellFormed.step ht
  covered := keep h hr.covered fun _ ht => hr.covered.step hr.wellFormed ht
  backed := keep (I := fun _ issued => Backed issued) h hr.backed fun _ ht => hr.backed.step ht
  signs := keep h hr.signs fun _ ht => hr.signs.step ht

theorem sound_new (nodeId : NodeId) (keypair : KeyPair) (replicas : Replicas)
    (config : PbftConfig) (now : Instant) :
    (new (PbftState.new nodeId keypair replicas config now)).Sound where
  cascading := cascading_new _
  accounted := accounted_new _
  wellFormed := wellFormed_new _ _ _ _ _
  covered := covered_new _
  backed := fun _ h => absurd h (by simp [new, proposals])
  signs := ⟨fun _ h => absurd h (by simp [new]), fun _ _ h => absurd h (by simp [new])⟩

variable {rules : Replica → Action → Prop} {r₀ r : Replica} {as : List Action}

theorem sound_of_run (h : Run (Next rules) r₀ as r) (h₀ : r₀.Sound) : r.Sound :=
  h.state_invariant h₀ fun hr hstep => hr.act hstep.2

/-- How often `handle_request` was called. -/
def requests (as : List Action) : Nat := as.countP fun a => a.request?.isSome

theorem sequence_le_requests (h : Run (Next rules) r₀ as r) (h₀ : r₀.Sound)
    (hzero : r₀.state.sequence = 0) (hcount : requests as < 2 ^ 64) :
    r.state.sequence.toNat ≤ requests as := by
  induction h with
  | nil => simp [hzero]
  | @snoc t u cs a h hstep ih =>
      have hrequests : requests (cs ++ [a]) = requests cs + requests [a] := List.countP_append
      have ih := ih (by omega)
      have hsound := sound_of_run h h₀
      rcases act_cases hstep.2 with ⟨-, hstate, -⟩ | ⟨sec, hsec, hstate, -⟩
      · rw [hstate]
        omega
      · rcases (run_transition t.state a.now sec).sequence with hseq | ⟨request, rfl, hseq⟩
        · rw [hstate, hseq]
          omega
        · have hone : requests [a] = 1 := by
            simp [requests, hsound.cascading.request_of_sectionOf hsec]
          rw [hstate, hseq, UInt64.toNat_add]
          have : (1 : UInt64).toNat = 1 := rfl
          omega

/-- Below `2 ^ 64` requests the counter does not wrap, so the steps of the run respect it. -/
theorem noWrap_of_requests (h : Run (Next rules) r₀ as r) (h₀ : r₀.Sound)
    (hzero : r₀.state.sequence = 0) (hcount : requests as < 2 ^ 64) :
    Run (Next fun r a => rules r a ∧ ∀ sec, r.sectionOf a = some sec → r.state.NoWrap sec)
      r₀ as r := by
  refine (h.restrict (fun r a _ => ∀ sec, r.sectionOf a = some sec → r.state.NoWrap sec)
    ?_).mono ?_
  · intro cs t a u hr hstep hpre sec hsec
    cases sec with
    | handleRequest request => ?_
    | _ => trivial
    have hle := sequence_le_requests hr h₀ hzero
    have hone : requests [a] = 1 := by
      simp [requests, (sound_of_run hr h₀).cascading.request_of_sectionOf hsec]
    have hcut : requests (cs ++ [a]) ≤ requests as := hpre.sublist.countP_le
    have hsplit : requests (cs ++ [a]) = requests cs + requests [a] := List.countP_append
    have hle := hle (by omega)
    show t.state.sequence.toNat + 1 < 2 ^ 64
    omega
  · intro t a u hstep
    exact ⟨⟨hstep.1.1, hstep.2⟩, hstep.1.2⟩

/-- A pre-prepare over our own name that gets accepted is one whose string we signed. -/
theorem Unforged.signedPrepare {pp : PrePrepare} (h : r.Unforged (.prePrepare pp))
    (hpp : r.state.AcceptsPrePrepare pp) (hown : pp.primaryId = r.state.nodeId) :
    SignedPrepare r.issued pp.view pp.sequence pp.digest :=
  issued_of_signed (h _ rfl hown hpp.signature)

/--
**The slots stay apart along a run** in which the counter does not wrap and nobody
forges the replica's own signature.
-/
theorem slots_of_run (h : Run (Next rules) r₀ as r) (h₀ : r₀.Sound)
    (hslots : Slots r₀.state r₀.issued)
    (hrules : ∀ {r a}, rules r a →
      (∀ sec, r.sectionOf a = some sec → r.state.NoWrap sec) ∧
        ∀ message, a.message? = some message → r.Unforged message) :
    Slots r.state r.issued := by
  refine (h.state_invariant (I := fun r => r.Sound ∧ Slots r.state r.issued) ⟨h₀, hslots⟩ ?_).2
  rintro t a u ⟨hsound, hslots⟩ ⟨hrule, hact⟩
  obtain ⟨hwrap, hunforged⟩ := hrules hrule
  refine ⟨hsound.act hact, keep hact hslots fun hsec ht => ?_⟩
  refine hslots.step hsound.covered hsound.backed ht (hwrap _ hsec) ?_
  rintro pp rfl hpp hown
  exact (hunforged _ (hsound.cascading.message_of_sectionOf hsec rfl)).signedPrepare hpp hown

/--
**A replica emits one pre-prepare and one prepare in a slot at most**, whatever it is
sent, as long as nobody forges its own signature and it handles fewer than `2 ^ 64`
requests.
-/
theorem emits_once {nodeId : NodeId} {keypair : KeyPair} {replicas : Replicas}
    {config : PbftConfig} {now : Instant}
    (h : Run (Next fun r a => ∀ message, a.message? = some message → r.Unforged message)
      (new (PbftState.new nodeId keypair replicas config now)) as r)
    (hcount : requests as < 2 ^ 64) :
    ((proposals r.made).map fun pp => (pp.view, pp.sequence)).Nodup ∧
      ((votes r.made).map fun p => (p.view, p.sequence)).Nodup := by
  have h₀ := sound_new nodeId keypair replicas config now
  have hslots := slots_of_run (noWrap_of_requests h h₀ rfl hcount) h₀ (slots_new _)
    fun hrule => ⟨hrule.2, hrule.1⟩
  have haccounted := (sound_of_run h h₀).accounted
  exact ⟨haccounted.nodup hslots.proposals_nodup, haccounted.nodup hslots.votes_nodup⟩

end

open Sample in
/-- A primary that handles a request and gets its own prepare played back. -/
theorem emits_once_replayed :
    ∃ r : Replica, (votes r.made).length = 1 ∧
      ((proposals r.made).map fun pp => (pp.view, pp.sequence)).Nodup ∧
      ((votes r.made).map fun p => (p.view, p.sequence)).Nodup := by
  obtain ⟨r, hrun, hvotes⟩ := exists_run
    (fun r a => ∀ message, a.message? = some message → r.Unforged message)
    (new ((cluster 3).initState (node 0)))
    [.call (.handleRequest (request 1)) 0, .resume 0 0, .resume 0 0,
      .call (.processMessage (.prepare
        (((cluster 3).initState (node 0)).ownPrepare 0 1 (request 1).digest))) 0]
    (fun r => (votes r.made).length = 1) (by decide +kernel)
  exact ⟨r, hvotes, emits_once hrun (by decide)⟩

end Replica

end P2pPbft
