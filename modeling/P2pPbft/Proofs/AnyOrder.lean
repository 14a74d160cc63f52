/-
The order messages come in makes no difference.

A vote may come before the pre-prepare it is for, a commit before the prepares, and any of
them more than once.  Where the messages fit together, each finds its place in the log
whenever it comes; an instance holds what has come for its number and the replica's own
votes, and has moved on as far as that allows.  So what it has come to is a function of the
set of messages alone, the one written down in `phaseOf`.

First this is shown of a replica with any number of handlers in progress, once they have
all returned; handling one message after another is a special case.
-/
import P2pPbft.Proofs.Process
import P2pPbft.Proofs.Progress
import P2pPbft.Proofs.Representation
import P2pPbft.Sample

namespace P2pPbft

/-! ### What a set of messages says -/

namespace ConsensusMessage

/-- The view, the number and the digest of a pre-prepare or of a vote on one. -/
def slot? : ConsensusMessage → Option (ViewNumber × SequenceNumber × Hash)
  | .prePrepare pp => some (pp.view, pp.sequence, pp.digest)
  | .prepare p => some (p.view, p.sequence, p.digest)
  | .commit c => some (c.view, c.sequence, c.digest)
  | _ => none

/-- The digest it proposes for the number. -/
def proposal? (s : SequenceNumber) : ConsensusMessage → Option Hash
  | .prePrepare pp => if pp.sequence = s then some pp.digest else none
  | _ => none

/-- The sender, if it is a prepare for the number. -/
def preparer? (s : SequenceNumber) : ConsensusMessage → Option NodeId
  | .prepare p => if p.sequence = s then some p.replicaId else none
  | _ => none

/-- The sender, if it is a commit for the number. -/
def committer? (s : SequenceNumber) : ConsensusMessage → Option NodeId
  | .commit c => if c.sequence = s then some c.replicaId else none
  | _ => none

end ConsensusMessage

/-- The digest proposed for the number. -/
def digestOf (ms : List ConsensusMessage) (s : SequenceNumber) : Option Hash :=
  ms.findSome? (·.proposal? s)

/-- The senders of prepares for the number. -/
def preparers (ms : List ConsensusMessage) (s : SequenceNumber) : Finset NodeId :=
  (ms.filterMap (·.preparer? s)).toFinset

/-- The senders of commits for the number. -/
def committers (ms : List ConsensusMessage) (s : SequenceNumber) : Finset NodeId :=
  (ms.filterMap (·.committer? s)).toFinset

/--
How far the instance has come for one who has received the messages: to nothing without a
pre-prepare, and with it as far as there is a quorum of each kind, oneself included.
-/
def phaseOf (quorum : Nat) (self : NodeId) (ms : List ConsensusMessage) (s : SequenceNumber) :
    Phase :=
  if (digestOf ms s).isNone then .idle
  else if (insert self (preparers ms s)).card < quorum then .prePrepared
  else if (insert self (committers ms s)).card < quorum then .prepared
  else .committed

/-- Who has a prepare in the instance: with the pre-prepare the replica itself has one too. -/
def prepareVoters (self : NodeId) (ms : List ConsensusMessage) (s : SequenceNumber) :
    Finset NodeId :=
  if (digestOf ms s).isSome then insert self (preparers ms s) else preparers ms s

/-- Who has a commit in the instance: once it is prepared the replica itself has one too. -/
def commitVoters (quorum : Nat) (self : NodeId) (ms : List ConsensusMessage)
    (s : SequenceNumber) : Finset NodeId :=
  if (phaseOf quorum self ms s).rank < Phase.prepared.rank then committers ms s
  else insert self (committers ms s)

theorem mem_preparers {ms : List ConsensusMessage} {s : SequenceNumber} {id : NodeId} :
    id ∈ preparers ms s ↔ ∃ p, .prepare p ∈ ms ∧ p.sequence = s ∧ p.replicaId = id := by
  unfold preparers
  rw [List.mem_toFinset, List.mem_filterMap]
  constructor
  · rintro ⟨m, hm, hid⟩
    unfold ConsensusMessage.preparer? at hid
    split at hid
    · rename_i p
      by_cases hs : p.sequence = s
      · rw [if_pos hs] at hid
        exact ⟨p, hm, hs, Option.some.inj hid⟩
      · rw [if_neg hs] at hid
        exact absurd hid (by simp)
    · exact absurd hid (by simp)
  · rintro ⟨p, hp, rfl, rfl⟩
    exact ⟨_, hp, if_pos rfl⟩

theorem mem_committers {ms : List ConsensusMessage} {s : SequenceNumber} {id : NodeId} :
    id ∈ committers ms s ↔ ∃ c, .commit c ∈ ms ∧ c.sequence = s ∧ c.replicaId = id := by
  unfold committers
  rw [List.mem_toFinset, List.mem_filterMap]
  constructor
  · rintro ⟨m, hm, hid⟩
    unfold ConsensusMessage.committer? at hid
    split at hid
    · rename_i c
      by_cases hs : c.sequence = s
      · rw [if_pos hs] at hid
        exact ⟨c, hm, hs, Option.some.inj hid⟩
      · rw [if_neg hs] at hid
        exact absurd hid (by simp)
    · exact absurd hid (by simp)
  · rintro ⟨c, hc, rfl, rfl⟩
    exact ⟨_, hc, if_pos rfl⟩

theorem proposal?_eq_some {m : ConsensusMessage} {s : SequenceNumber} {d : Hash} :
    m.proposal? s = some d ↔ ∃ pp, m = .prePrepare pp ∧ pp.sequence = s ∧ pp.digest = d := by
  unfold ConsensusMessage.proposal?
  constructor
  · intro h
    split at h
    · rename_i pp
      by_cases hs : pp.sequence = s
      · rw [if_pos hs] at h
        exact ⟨pp, rfl, hs, Option.some.inj h⟩
      · rw [if_neg hs] at h
        exact absurd h (by simp)
    · exact absurd h (by simp)
  · rintro ⟨pp, rfl, rfl, rfl⟩
    exact if_pos rfl

theorem digestOf_isSome {ms : List ConsensusMessage} {s : SequenceNumber} :
    (digestOf ms s).isSome ↔ ∃ pp, .prePrepare pp ∈ ms ∧ pp.sequence = s := by
  unfold digestOf
  rw [List.findSome?_isSome_iff]
  constructor
  · rintro ⟨m, hm, hsome⟩
    obtain ⟨d, hd⟩ := Option.isSome_iff_exists.mp hsome
    obtain ⟨pp, rfl, hs, -⟩ := proposal?_eq_some.mp hd
    exact ⟨pp, hm, hs⟩
  · rintro ⟨pp, hpp, hs⟩
    exact ⟨_, hpp, by rw [proposal?_eq_some.mpr ⟨pp, rfl, hs, rfl⟩]; rfl⟩

section

variable [Crypto]

/--
The messages fit the replica and one another: each is a pre-prepare or a vote of its view,
in its window and signed; pre-prepares are from its primary and for the request they
carry; and what is for the number of a pre-prepare is for its digest.
-/
structure Fits (st : PbftState) (ms : List ConsensusMessage) : Prop where
  slot : ∀ m ∈ ms, ∃ s d, m.slot? = some (st.view, s, d) ∧
    st.lowWatermark < s ∧ s ≤ st.highWatermark
  verifies : ∀ m ∈ ms, m.Verifies
  primary : ∀ pp, .prePrepare pp ∈ ms → pp.primaryId = st.primary
  request : ∀ pp, .prePrepare pp ∈ ms → pp.request.digest = pp.digest
  agree : ∀ pp, .prePrepare pp ∈ ms → ∀ m ∈ ms, ∀ view d,
    m.slot? = some (view, pp.sequence, d) → d = pp.digest

section

variable {st : PbftState} {ms ms' : List ConsensusMessage} {s : SequenceNumber}

theorem Fits.window (h : Fits st ms) {m : ConsensusMessage} (hm : m ∈ ms)
    {view : ViewNumber} {d : Hash} (hslot : m.slot? = some (view, s, d)) :
    view = st.view ∧ st.lowWatermark < s ∧ s ≤ st.highWatermark := by
  obtain ⟨s', d', hslot', hlow, hhigh⟩ := h.slot m hm
  cases Option.some.inj (hslot.symm.trans hslot')
  exact ⟨rfl, hlow, hhigh⟩

theorem Fits.digestOf_eq (h : Fits st ms) {pp : PrePrepare} (hpp : .prePrepare pp ∈ ms) :
    digestOf ms pp.sequence = some pp.digest := by
  obtain ⟨d, hd⟩ := Option.isSome_iff_exists.mp (digestOf_isSome.mpr ⟨pp, hpp, rfl⟩)
  obtain ⟨m, hm, hm'⟩ := List.exists_of_findSome?_eq_some hd
  obtain ⟨pp', rfl, hs, rfl⟩ := proposal?_eq_some.mp hm'
  rw [hd, h.agree pp hpp _ hm pp'.view pp'.digest (by rw [← hs]; rfl)]

theorem Fits.congr (h : Fits st ms) (hsame : ∀ m, m ∈ ms ↔ m ∈ ms') : Fits st ms' where
  slot := fun m hm => h.slot m ((hsame m).mpr hm)
  verifies := fun m hm => h.verifies m ((hsame m).mpr hm)
  primary := fun pp hpp => h.primary pp ((hsame _).mpr hpp)
  request := fun pp hpp => h.request pp ((hsame _).mpr hpp)
  agree := fun pp hpp m hm => h.agree pp ((hsame _).mpr hpp) m ((hsame m).mpr hm)

/-- **What the messages say depends on the set of them only.** -/
theorem Fits.same (h : Fits st ms) (hsame : ∀ m, m ∈ ms ↔ m ∈ ms') (s : SequenceNumber) :
    digestOf ms s = digestOf ms' s ∧ preparers ms s = preparers ms' s ∧
      committers ms s = committers ms' s := by
  refine ⟨?_, ?_, ?_⟩
  · by_cases hpp : ∃ pp, .prePrepare pp ∈ ms ∧ pp.sequence = s
    · obtain ⟨pp, hpp, rfl⟩ := hpp
      rw [h.digestOf_eq hpp, (h.congr hsame).digestOf_eq ((hsame _).mp hpp)]
    · have hnone : digestOf ms s = none := by
        rw [← Option.not_isSome_iff_eq_none, digestOf_isSome]
        exact hpp
      have hnone' : digestOf ms' s = none := by
        rw [← Option.not_isSome_iff_eq_none, digestOf_isSome]
        exact fun ⟨pp, hmem, hs⟩ => hpp ⟨pp, (hsame _).mpr hmem, hs⟩
      rw [hnone, hnone']
  · ext id
    simp only [mem_preparers, hsame]
  · ext id
    simp only [mem_committers, hsame]

/-! ### A replica that receives them -/

/-- A section that a handler of one of the messages runs. -/
def Section.Handles (ms : List ConsensusMessage) : Section → Prop
  | .handlePrePrepare pp => .prePrepare pp ∈ ms
  | .handlePrepare p => .prepare p ∈ ms
  | .handleCommit c => .commit c ∈ ms
  | .tryAdvanceToPrepared _ => True
  | .tryAdvanceToCommitted _ => True
  | .tryCheckpoint _ => True
  | _ => False

/-- The action delivers one of the messages, or lets a handler in progress go on. -/
def Receives (ms : List ConsensusMessage) : Action → Prop
  | .call (.processMessage m) _ => m ∈ ms
  | .call _ _ => False
  | .resume _ _ => True

/-- What is in the instance comes from the messages, or is the replica's own vote. -/
structure ConsensusInstance.Sourced (owner : NodeId) (ms : List ConsensusMessage)
    (s : SequenceNumber) (inst : ConsensusInstance) : Prop where
  prePrepare : ∀ pp, inst.prePrepare = some pp → .prePrepare pp ∈ ms
  prepares : ∀ id ∈ inst.prepares.keys, id ∈ preparers ms s ∨ id = owner ∧ inst.prePrepare.isSome
  commits : ∀ id ∈ inst.commits.keys, id ∈ committers ms s ∨ id = owner ∧ inst.isPrepared

/--
A replica that has received nothing but the messages: it is where it started, has in its
log what they say, and has executed what is committed there.
-/
structure PbftState.InformedBy (st st₀ : PbftState) (ms : List ConsensusMessage) : Prop where
  view : st.view = st₀.view
  low : st.lowWatermark = st₀.lowWatermark
  high : st.highWatermark = st₀.highWatermark
  nodeId : st.nodeId = st₀.nodeId
  replicas : st.replicas = st₀.replicas
  config : st.config = st₀.config
  sourced : ∀ s inst, st.log.lookup s = some inst → inst.Sourced st₀.nodeId ms s
  executed : ∀ d ∈ st.executed, ∃ s inst, st.log.lookup s = some inst ∧
    inst.phase = .committed ∧ inst.digest = some d

section

variable {st₀ : PbftState} {issued : List Send} {now : Instant} {sec : Section} {out : Outcome}
  {inst : ConsensusInstance} {owner : NodeId}

omit [Crypto] in
theorem ConsensusInstance.sourced_new (view : ViewNumber) :
    (ConsensusInstance.new s view).Sourced owner ms s where
  prePrepare := fun _ h => absurd h (by simp [new])
  prepares := fun _ h => absurd h (by simp [new])
  commits := fun _ h => absurd h (by simp [new])

omit [Crypto] in
theorem PbftState.InformedBy.instanceAt (h : st.InformedBy st₀ ms) (s : SequenceNumber) :
    (st.instanceAt s).Sourced st₀.nodeId ms s := by
  rcases st.instanceAt_cases s with hlookup | hnew
  · exact h.sourced s _ hlookup
  · rw [hnew]
    exact ConsensusInstance.sourced_new st.view

omit [Crypto] in
theorem PbftState.informedBy_new (nodeId : NodeId) (keypair : KeyPair) (replicas : Replicas)
    (config : PbftConfig) (now : Instant) (ms : List ConsensusMessage) :
    (PbftState.new nodeId keypair replicas config now).InformedBy
      (PbftState.new nodeId keypair replicas config now) ms where
  view := rfl
  low := rfl
  high := rfl
  nodeId := rfl
  replicas := rfl
  config := rfl
  sourced := fun _ _ h => absurd h (by simp [new])
  executed := fun _ h => absurd h (by simp [new])

/-- A handler of one of the messages writes what the message says, or its own vote. -/
theorem PbftState.InformedBy.sourced_step (h : st.InformedBy st₀ ms) (hwf : WellFormed st issued)
    (ht : Transition st now sec out) (hsec : sec.Handles ms)
    (hlookup : out.state.log.lookup s = some inst) :
    inst.Sourced st₀.nodeId ms s := by
  rcases ht.entry hlookup with hold | hwrite
  · exact h.sourced s inst hold
  cases hwrite with
  | propose request hp _ _ _ => exact hsec.elim
  | accept pp hp _ _ =>
      have hbase := h.instanceAt pp.sequence
      refine ⟨fun pp' hpp => ?_, fun id hid => ?_, fun id hid => ?_⟩
      · obtain rfl := Option.some.inj hpp
        exact hsec
      · have hid : id ∈ ((st.instanceAt pp.sequence).prepares.insert st.nodeId
            (st.ownPrepare pp.view pp.sequence pp.digest)).keys := hid
        rw [Table.keys_insert] at hid
        rcases Finset.mem_insert.mp hid with rfl | hold
        · exact Or.inr ⟨h.nodeId, rfl⟩
        · exact (hbase.prepares id hold).imp_right fun hown => ⟨hown.1, rfl⟩
      · refine (hbase.commits id hid).imp_right fun hown => ?_
        -- An instance that is prepared has its pre-prepare already.
        obtain ⟨pp', hpp'⟩ := (hwf.instanceAt pp.sequence).exists_prePrepare hown.2
        rcases st.instanceAt_cases pp.sequence with hl | hnew
        · rw [hp.fresh _ hl] at hpp'
          exact absurd hpp' (by simp)
        · rw [hnew] at hpp'
          exact absurd hpp' (by simp [ConsensusInstance.new])
  | storePrepare p hp _ =>
      have hbase := h.instanceAt p.sequence
      refine ⟨hbase.prePrepare, fun id hid => ?_, hbase.commits⟩
      rw [Table.keys_insert] at hid
      rcases Finset.mem_insert.mp hid with rfl | hold
      · exact Or.inl (mem_preparers.mpr ⟨p, hsec, rfl, rfl⟩)
      · exact hbase.prepares id hold
  | prepared s inst digest hl _ _ _ _ _ =>
      have hbase := h.sourced s inst hl
      refine ⟨hbase.prePrepare, hbase.prepares, fun id hid => ?_⟩
      rw [Table.keys_insert] at hid
      rcases Finset.mem_insert.mp hid with rfl | hold
      · exact Or.inr ⟨h.nodeId, Or.inl rfl⟩
      · exact (hbase.commits id hold).imp_right fun hown => ⟨hown.1, Or.inl rfl⟩
  | storeCommit c hc _ =>
      have hbase := h.instanceAt c.sequence
      refine ⟨hbase.prePrepare, hbase.prepares, fun id hid => ?_⟩
      rw [Table.keys_insert] at hid
      rcases Finset.mem_insert.mp hid with rfl | hold
      · exact Or.inl (mem_committers.mpr ⟨c, hsec, rfl, rfl⟩)
      · exact hbase.commits id hold
  | committed s inst hl _ _ _ _ =>
      have hbase := h.sourced s inst hl
      exact ⟨hbase.prePrepare, hbase.prepares,
        fun id hid => (hbase.commits id hid).imp_right fun hown => ⟨hown.1, Or.inr rfl⟩⟩

/-- What is committed stays, and only what is committed is executed. -/
theorem PbftState.InformedBy.executed_step (h : st.InformedBy st₀ ms) (hwf : WellFormed st issued)
    (ht : Transition st now sec out) (hsec : sec.Handles ms) {d : Hash}
    (hd : d ∈ out.state.executed) :
    ∃ s inst, out.state.log.lookup s = some inst ∧ inst.phase = .committed ∧
      inst.digest = some d := by
  have hkept : ∀ d ∈ st.executed, ∃ s inst, out.state.log.lookup s = some inst ∧
      inst.phase = .committed ∧ inst.digest = some d := by
    intro d hd
    obtain ⟨s, inst, hlookup, hphase, hdigest⟩ := h.executed d hd
    have hfinal := ht.final hwf (fun request heq => by subst heq; exact hsec.elim) s inst hlookup
      (Or.inr hphase)
    rcases ht.kept hlookup with ⟨inst', hlookup', -⟩ | ⟨-, -, -, checkpoint, rfl⟩
    · rcases hfinal with ⟨hnone, -⟩ | ⟨inst'', hlookup'', hsame, -, hrank⟩
      · exact absurd (hlookup'.symm.trans hnone) (by simp)
      · refine ⟨s, inst'', hlookup'', ?_, hsame.trans hdigest⟩
        rw [hphase] at hrank
        revert hrank
        cases inst''.phase <;> simp [Phase.rank]
    · exact hsec.elim
  cases ht with
  | executed s inst request hlookup hphase hquorum hrequest hfresh =>
      rcases Finset.mem_insert.mp hd with rfl | hold
      · have hok := hwf.entry s inst hlookup
        obtain ⟨pp, hpp⟩ := hok.exists_prePrepare (Or.inl hphase)
        have hreq : pp.request = request :=
          Option.some.inj ((hok.request pp hpp).symm.trans hrequest)
        refine ⟨s, { inst with phase := .committed }, (lookup_setInstance ..).trans (if_pos rfl),
          rfl, ?_⟩
        show inst.digest = _
        rw [hok.digest pp hpp, ← hok.requestDigest pp hpp, hreq]
      · exact hkept d hold
  | propose request hp => exact hsec.elim
  | accept pp hp =>
      rw [Outcome.proceed_state, record_eq] at hd
      exact hkept d hd
  | _ => exact hkept d hd

/-- **Handling the messages leaves a replica that has received them.** -/
theorem PbftState.InformedBy.step (h : st.InformedBy st₀ ms) (hwf : WellFormed st issued)
    (ht : Transition st now sec out) (hsec : sec.Handles ms) : out.state.InformedBy st₀ ms := by
  obtain ⟨hnode, -, hreplicas, hconfig⟩ := ht.static
  have hview : out.state.view = st.view := by
    rcases ht.view with hsame | ⟨nv, rfl, -⟩
    · exact hsame
    · exact hsec.elim
  have hwindow : out.state.lowWatermark = st.lowWatermark ∧
      out.state.highWatermark = st.highWatermark := by
    rcases ht.window with ⟨hlow, -, hhigh⟩ | ⟨checkpoint, rfl, -⟩
    · exact ⟨hlow, hhigh⟩
    · exact hsec.elim
  exact {
    view := hview.trans h.view
    low := hwindow.1.trans h.low
    high := hwindow.2.trans h.high
    nodeId := hnode.trans h.nodeId
    replicas := hreplicas.trans h.replicas
    config := hconfig.trans h.config
    sourced := fun s inst hlookup => h.sourced_step hwf ht hsec hlookup
    executed := fun d hd => h.executed_step hwf ht hsec hd }

/-- **Each of the messages finds its place**, whatever is in the log by then. -/
theorem PbftState.InformedBy.holds (h : st.InformedBy st₀ ms) (hwf : WellFormed st issued)
    (horder : Fits st₀ ms) (now : Instant) {m : ConsensusMessage} (hm : m ∈ ms)
    (hsec : sec.message? = some m) : (sec.run st now).state.Holds m := by
  have hlogged : ∀ s pp, (st.instanceAt s).prePrepare = some pp →
      .prePrepare pp ∈ ms ∧ pp.sequence = s := by
    intro s pp hpp
    exact ⟨(h.instanceAt s).prePrepare pp hpp, (hwf.instanceAt s).sequence pp hpp⟩
  have hverifies := horder.verifies m hm
  cases sec with
  | handlePrePrepare pp =>
      obtain rfl := Option.some.inj hsec
      obtain ⟨hview, hlow, hhigh⟩ := horder.window hm rfl
      have hprimary : pp.primaryId = st.primary := by
        rw [horder.primary pp hm, PbftState.primary, PbftState.primary, h.replicas, h.view]
      refine (handlePrePrepare_ok now (hview.trans h.view.symm) hprimary (h.low ▸ hlow)
        (h.high ▸ hhigh) (hverifies _ rfl) (horder.request pp hm) fun inst hlookup hsome => ?_).2
      obtain ⟨pp', hpp'⟩ := Option.isSome_iff_exists.mp hsome
      have hok := hwf.entry _ inst hlookup
      have hmem := (h.sourced _ inst hlookup).prePrepare pp' hpp'
      rw [hok.digest pp' hpp', horder.agree pp hm _ hmem pp'.view pp'.digest
        (by rw [← hok.sequence pp' hpp']; rfl)]
  | handlePrepare p =>
      obtain rfl := Option.some.inj hsec
      obtain ⟨hview, hlow, hhigh⟩ := horder.window hm rfl
      refine (handlePrepare_ok (hview.trans h.view.symm) (h.low ▸ hlow) (h.high ▸ hhigh)
        (hverifies _ rfl) fun pp hpp => ?_).2
      obtain ⟨hmem, hs⟩ := hlogged p.sequence pp hpp
      exact (horder.agree pp hmem _ hm p.view p.digest (by rw [hs]; rfl)).symm
  | handleCommit c =>
      obtain rfl := Option.some.inj hsec
      obtain ⟨hview, hlow, hhigh⟩ := horder.window hm rfl
      refine (handleCommit_ok (hview.trans h.view.symm) (h.low ▸ hlow) (h.high ▸ hhigh)
        (hverifies _ rfl) fun d hd => ?_).2
      obtain ⟨pp, hpp⟩ : ∃ pp, (st.instanceAt c.sequence).prePrepare = some pp := by
        refine Option.ne_none_iff_exists'.mp fun hnone => ?_
        have hidle := ((hwf.instanceAt c.sequence).idle hnone).1
        exact absurd (hd.symm.trans hidle) (by simp)
      obtain ⟨hmem, hs⟩ := hlogged c.sequence pp hpp
      have hdigest := (hwf.instanceAt c.sequence).digest pp hpp
      rw [horder.agree pp hmem _ hm c.view c.digest (by rw [hs]; rfl)]
      exact Option.some.inj (hdigest.symm.trans hd)
  | handleViewChange vc | handleNewView nv | handleCheckpoint c =>
      obtain rfl := Option.some.inj hsec
      trivial
  | _ => cases hsec

theorem Transition.handles_next (ht : Transition st now sec out) (hsec : sec.Handles ms)
    {next : Section} (hnext : out.next = some next) : next.Handles ms := by
  cases ht with
  | propose request hp => exact hsec.elim
  | timeout h => exact hsec.elim
  | accept _ _ | storePrepare _ _ | prepared _ _ _ _ _ _ _ _ | storeCommit _ _
  | executed _ _ _ _ _ _ _ _ =>
      obtain rfl := Option.some.inj hnext
      trivial
  | _ => exact absurd hnext (by simp)

omit [Crypto] in
theorem PbftState.Holds.mono {st' : PbftState} {m : ConsensusMessage} (h : st.Holds m)
    (hgrows : Grows st st') : st'.Holds m := by
  cases m with
  | prePrepare pp => exact hgrows.prePrepare pp.sequence h
  | prepare p => exact hgrows.prepares p.sequence p.replicaId h
  | commit c => exact hgrows.commits c.sequence c.replicaId h
  | _ => trivial

end

namespace Replica

/-- A replica in the middle of receiving the messages. -/
structure Receiving (st₀ : PbftState) (ms : List ConsensusMessage) (as : List Action)
    (r : Replica) : Prop where
  sound : r.Sound
  tracked : r.state.Tracked
  attentive : r.Attentive
  informed : r.state.InformedBy st₀ ms
  tasks : ∀ task ∈ r.tasks, ∀ next, task.next = some next → next.Handles ms
  held : ∀ a ∈ as, ∀ m, a.message? = some m → r.state.Holds m

section

variable {st₀ : PbftState} {as : List Action} {r r' : Replica} {a : Action}

theorem handles_of_message (horder : Fits st₀ ms) {m : ConsensusMessage} (hm : m ∈ ms)
    (r : Replica) (now : Instant) : ∃ sec, r.sectionOf (.call (.processMessage m) now) = some sec ∧
      sec.message? = some m ∧ sec.Handles ms := by
  obtain ⟨s, d, hslot, -⟩ := horder.slot m hm
  cases m with
  | prePrepare pp => exact ⟨.handlePrePrepare pp, rfl, rfl, hm⟩
  | prepare p => exact ⟨.handlePrepare p, rfl, rfl, hm⟩
  | commit c => exact ⟨.handleCommit c, rfl, rfl, hm⟩
  | _ => cases hslot

theorem Receiving.handles (h : r.Receiving st₀ ms as) (horder : Fits st₀ ms)
    (hreceives : Receives ms a) {sec : Section} (hsec : r.sectionOf a = some sec) :
    sec.Handles ms := by
  cases a with
  | call call now =>
      cases call with
      | processMessage m =>
          obtain ⟨sec', hsec', -, hhandles⟩ := handles_of_message horder hreceives r now
          obtain rfl := Option.some.inj (hsec.symm.trans hsec')
          exact hhandles
      | _ => exact hreceives.elim
  | resume index now =>
      obtain ⟨task, htask, hnext⟩ := exists_task_of_resume hsec
      exact h.tasks task htask sec hnext

/-- **Each action leaves it in the middle of receiving**, with what it delivers in the log. -/
theorem Receiving.act (h : r.Receiving st₀ ms as) (horder : Fits st₀ ms)
    (hreceives : Receives ms a) (hact : r.act a = some r') :
    r'.Receiving st₀ ms (as ++ [a]) := by
  have hwf := h.sound.wellFormed
  have hsec : ∀ {sec}, r.sectionOf a = some sec → sec.Handles ms :=
    fun hsec => h.handles horder hreceives hsec
  have hgrows : Grows r.state r'.state := grows_act hact fun _ hs => hsec hs
  refine {
    sound := h.sound.act hact
    tracked := keep (I := fun st _ => st.Tracked) hact h.tracked fun _ ht => h.tracked.step ht
    attentive := h.attentive.act hwf hact
    informed := keep (I := fun st _ => st.InformedBy st₀ ms) hact h.informed
      fun hs ht => h.informed.step hwf ht (hsec hs)
    tasks := ?_
    held := ?_ }
  · intro task htask next hnext
    rcases next_act hact htask hnext with ⟨task', htask', hnext'⟩ | ⟨sec, hs, hnext'⟩
    · exact h.tasks task' htask' next hnext'
    · exact (run_transition r.state a.now sec).handles_next (hsec hs) hnext'
  · intro b hb m hm
    rcases List.mem_append.mp hb with hold | hnew
    · exact (h.held b hold m hm).mono hgrows
    · obtain rfl := List.mem_singleton.mp hnew
      obtain ⟨now, rfl⟩ := Action.call_of_message? hm
      obtain ⟨sec, hs, hmessage, -⟩ := handles_of_message horder hreceives r now
      rw [(act_of_sectionOf hact hs).1]
      exact h.informed.holds hwf horder now hreceives hmessage

theorem receiving_of_run {nodeId : NodeId} {keypair : KeyPair} {replicas : Replicas}
    {config : PbftConfig} {now : Instant}
    (horder : Fits (PbftState.new nodeId keypair replicas config now) ms)
    (h : Run (fun r a r' => Receives ms a ∧ r.act a = some r')
      (new (PbftState.new nodeId keypair replicas config now)) as r) :
    r.Receiving (PbftState.new nodeId keypair replicas config now) ms as := by
  refine h.invariant (I := fun as r =>
    r.Receiving (PbftState.new nodeId keypair replicas config now) ms as) ?_ ?_
  · exact {
      sound := sound_new _ _ _ _ _
      tracked := PbftState.tracked_new _ _ _ _ _
      attentive := attentive_new _ _ _ _ _
      informed := PbftState.informedBy_new _ _ _ _ _ _
      tasks := fun _ h => absurd h (by simp [new])
      held := fun _ h => absurd h (by simp) }
  · rintro as t a u - hreceiving ⟨hreceives, hact⟩
    exact hreceiving.act horder hreceives hact

end

end Replica

/-! ### What it comes to -/

/-- All instances have come to what the messages say, and what is committed is executed. -/
structure PbftState.Settled (st st₀ : PbftState) (ms : List ConsensusMessage) : Prop where
  phase : ∀ s, (st.instanceAt s).phase = phaseOf st₀.config.quorum st₀.nodeId ms s
  digest : ∀ s, (st.instanceAt s).digest = digestOf ms s
  prepares : ∀ s, (st.instanceAt s).prepares.keys = prepareVoters st₀.nodeId ms s
  commits : ∀ s, (st.instanceAt s).commits.keys
    = commitVoters st₀.config.quorum st₀.nodeId ms s
  executed : ∀ d, d ∈ st.executed ↔
    ∃ s, (st.instanceAt s).phase = .committed ∧ (st.instanceAt s).digest = some d

namespace Replica

section

variable {st₀ : PbftState} {as : List Action} {r : Replica}

theorem Receiving.proposed (h : r.Receiving st₀ ms as)
    (hall : ∀ m ∈ ms, ∃ a ∈ as, a.message? = some m) (s : SequenceNumber) :
    (r.state.instanceAt s).prePrepare.isSome ↔ (digestOf ms s).isSome := by
  rw [digestOf_isSome]
  constructor
  · intro hsome
    obtain ⟨pp, hpp⟩ := Option.isSome_iff_exists.mp hsome
    exact ⟨pp, (h.informed.instanceAt s).prePrepare pp hpp,
      (h.sound.wellFormed.instanceAt s).sequence pp hpp⟩
  · rintro ⟨pp, hpp, rfl⟩
    obtain ⟨a, ha, hm⟩ := hall _ hpp
    exact h.held a ha _ hm

theorem Receiving.preparers_subset (h : r.Receiving st₀ ms as)
    (hall : ∀ m ∈ ms, ∃ a ∈ as, a.message? = some m) (s : SequenceNumber) :
    preparers ms s ⊆ (r.state.instanceAt s).prepares.keys := by
  intro id hid
  obtain ⟨p, hp, rfl, rfl⟩ := mem_preparers.mp hid
  obtain ⟨a, ha, hm⟩ := hall _ hp
  exact Finmap.mem_keys.mpr (h.held a ha _ hm)

theorem Receiving.committers_subset (h : r.Receiving st₀ ms as)
    (hall : ∀ m ∈ ms, ∃ a ∈ as, a.message? = some m) (s : SequenceNumber) :
    committers ms s ⊆ (r.state.instanceAt s).commits.keys := by
  intro id hid
  obtain ⟨c, hc, rfl, rfl⟩ := mem_committers.mp hid
  obtain ⟨a, ha, hm⟩ := hall _ hc
  exact Finmap.mem_keys.mpr (h.held a ha _ hm)

theorem Receiving.not_due (h : r.Receiving st₀ ms as) (hidle : r.tasks = []) (s : SequenceNumber)
    (due : Section) : ¬ (r.state.instanceAt s).Due st₀.config.quorum s due := by
  intro hdue
  rw [← h.informed.config] at hdue
  obtain ⟨task, htask, -⟩ := h.attentive due (PbftState.due_of_instanceAt hdue)
  rw [hidle] at htask
  exact absurd htask (by simp)

theorem Receiving.prepares_eq (h : r.Receiving st₀ ms as)
    (hall : ∀ m ∈ ms, ∃ a ∈ as, a.message? = some m) (s : SequenceNumber) :
    (r.state.instanceAt s).prepares.keys = prepareVoters st₀.nodeId ms s := by
  have hsourced := (h.informed.instanceAt s).prepares
  have hsub := h.preparers_subset hall s
  unfold prepareVoters
  by_cases hd : (digestOf ms s).isSome
  · rw [if_pos hd]
    refine Finset.Subset.antisymm (fun id hid => ?_) (Finset.insert_subset ?_ hsub)
    · rcases hsourced id hid with hmem | ⟨rfl, -⟩
      · exact Finset.mem_insert_of_mem hmem
      · exact Finset.mem_insert_self ..
    · have htracked := h.tracked.instanceAt s
      rw [← h.informed.nodeId]
      exact htracked.ownPrepare (htracked.active ((h.proposed hall s).mpr hd))
  · rw [if_neg hd]
    refine Finset.Subset.antisymm (fun id hid => ?_) hsub
    rcases hsourced id hid with hmem | ⟨-, hsome⟩
    · exact hmem
    · exact absurd ((h.proposed hall s).mp hsome) hd

/-- The commits are those of the senders, and once it is prepared the replica's own. -/
theorem Receiving.commits_eq (h : r.Receiving st₀ ms as)
    (hall : ∀ m ∈ ms, ∃ a ∈ as, a.message? = some m) (s : SequenceNumber) :
    ((r.state.instanceAt s).isPrepared →
        (r.state.instanceAt s).commits.keys = insert st₀.nodeId (committers ms s)) ∧
      (¬ (r.state.instanceAt s).isPrepared →
        (r.state.instanceAt s).commits.keys = committers ms s) := by
  have hsourced := (h.informed.instanceAt s).commits
  have hsub := h.committers_subset hall s
  constructor
  · intro hprep
    refine Finset.Subset.antisymm (fun id hid => ?_) (Finset.insert_subset ?_ hsub)
    · rcases hsourced id hid with hmem | ⟨rfl, -⟩
      · exact Finset.mem_insert_of_mem hmem
      · exact Finset.mem_insert_self ..
    · rw [← h.informed.nodeId]
      exact (h.tracked.instanceAt s).ownCommit hprep
  · intro hprep
    refine Finset.Subset.antisymm (fun id hid => ?_) hsub
    rcases hsourced id hid with hmem | ⟨-, hprep'⟩
    · exact hmem
    · exact absurd hprep' hprep

/-- **With no handler in progress an instance has come as far as the messages take it.** -/
theorem Receiving.phase_eq (h : r.Receiving st₀ ms as)
    (hall : ∀ m ∈ ms, ∃ a ∈ as, a.message? = some m) (hidle : r.tasks = []) (s : SequenceNumber) :
    (r.state.instanceAt s).phase = phaseOf st₀.config.quorum st₀.nodeId ms s := by
  have hok := h.sound.wellFormed.instanceAt s
  have htracked := h.tracked.instanceAt s
  have hdue := h.not_due hidle s
  have hproposed := h.proposed hall s
  have hcommits := (h.commits_eq hall s).1
  have hquorum := hok.quorum
  have hcommitted := htracked.quorum
  rw [h.informed.config] at hquorum hcommitted
  unfold phaseOf
  by_cases hd : (digestOf ms s).isSome
  · -- With the pre-prepare the replica counts itself among those who prepare.
    have hprepares := h.prepares_eq hall s
    rw [prepareVoters, if_pos hd] at hprepares
    rw [hprepares] at hquorum
    rw [if_neg (by simpa [Option.isSome_iff_ne_none] using hd)]
    cases hphase : (r.state.instanceAt s).phase with
    | idle => exact absurd hphase (htracked.active (hproposed.mpr hd))
    | prePrepared =>
        rw [if_pos]
        refine Nat.lt_of_not_le fun hle => hdue _ (.prepared hphase ?_)
        rw [hprepares]
        exact hle
    | prepared =>
        have hprep : (r.state.instanceAt s).isPrepared := Or.inl hphase
        rw [if_neg (Nat.not_lt.mpr (hquorum hprep)), if_pos]
        refine Nat.lt_of_not_le fun hle => hdue _ (.committed hphase ?_)
        rw [hcommits hprep]
        exact hle
    | committed =>
        have hprep : (r.state.instanceAt s).isPrepared := Or.inr hphase
        have hle := hcommitted hphase
        rw [hcommits hprep] at hle
        rw [if_neg (Nat.not_lt.mpr (hquorum hprep)), if_neg (Nat.not_lt.mpr hle)]
  · have hnone : (r.state.instanceAt s).prePrepare = none := by
      rw [← Option.not_isSome_iff_eq_none, hproposed]
      exact hd
    rw [if_pos (by simpa using hd)]
    exact (hok.idle hnone).2.2

/--
**What a replica has come to once it is done with the messages**, in whatever order and
however often they came, and however its handlers took turns, is what the messages say.
-/
theorem Receiving.settled (h : r.Receiving st₀ ms as) (horder : Fits st₀ ms)
    (hall : ∀ m ∈ ms, ∃ a ∈ as, a.message? = some m) (hidle : r.tasks = []) :
    r.state.Settled st₀ ms where
  phase := h.phase_eq hall hidle
  digest := by
    intro s
    have hok := h.sound.wellFormed.instanceAt s
    cases hpp : (r.state.instanceAt s).prePrepare with
    | some pp =>
        have hmem := (h.informed.instanceAt s).prePrepare pp hpp
        rw [hok.digest pp hpp, ← hok.sequence pp hpp, horder.digestOf_eq hmem]
    | none =>
        have hnone : digestOf ms s = none := by
          rw [← Option.not_isSome_iff_eq_none, ← h.proposed hall s, hpp]
          simp
        rw [(hok.idle hpp).1, hnone]
  prepares := h.prepares_eq hall
  commits := by
    intro s
    unfold commitVoters
    rw [← h.phase_eq hall hidle s]
    by_cases hprep : (r.state.instanceAt s).isPrepared
    · have hrank : Phase.prepared.rank ≤ (r.state.instanceAt s).phase.rank :=
        ConsensusInstance.isPrepared_iff.mp hprep
      rw [if_neg (Nat.not_lt.mpr hrank)]
      exact (h.commits_eq hall s).1 hprep
    · have hrank : ¬ Phase.prepared.rank ≤ (r.state.instanceAt s).phase.rank :=
        mt ConsensusInstance.isPrepared_iff.mpr hprep
      rw [if_pos (Nat.lt_of_not_le hrank)]
      exact (h.commits_eq hall s).2 hprep
  executed := by
    intro d
    constructor
    · intro hd
      obtain ⟨s, inst, hlookup, hphase, hdigest⟩ := h.informed.executed d hd
      refine ⟨s, ?_, ?_⟩
      · rw [PbftState.instanceAt_of_lookup hlookup]
        exact hphase
      · rw [PbftState.instanceAt_of_lookup hlookup]
        exact hdigest
    · rintro ⟨s, hphase, hdigest⟩
      have hok := h.sound.wellFormed.instanceAt s
      obtain ⟨pp, hpp⟩ := hok.exists_prePrepare (Or.inr hphase)
      have hd : pp.digest = d := Option.some.inj ((hok.digest pp hpp).symm.trans hdigest)
      rw [← hd, ← hok.requestDigest pp hpp]
      exact hok.executed hphase pp.request (hok.request pp hpp)

end

end Replica

/-! ### One message after another -/

/-- Handle a message, to the end. -/
def PbftState.receive (st : PbftState) (m : ConsensusMessage × Instant) : PbftState :=
  (st.process (.processMessage m.1) m.2).state

/-- Handle messages one after another, each with a reading of the clock. -/
def PbftState.receiveAll (st : PbftState) (ts : List (ConsensusMessage × Instant)) : PbftState :=
  ts.foldl receive st

/-- Handling messages one after another is a run, at the end of which nothing is in progress. -/
theorem Replica.run_receiveAll (ts : List (ConsensusMessage × Instant)) :
    ∀ r : Replica, r.tasks = [] → (∀ m ∈ ts.map Prod.fst, m ∈ ms) →
      ∃ as r', Run (fun r a r' => Receives ms a ∧ r.act a = some r') r as r' ∧ r'.tasks = [] ∧
        r'.state = r.state.receiveAll ts ∧
        ∀ m ∈ ts.map Prod.fst, ∃ a ∈ as, a.message? = some m := by
  induction ts with
  | nil => exact fun r hidle _ => ⟨[], r, Run.nil r, hidle, rfl, fun _ h => absurd h (by simp)⟩
  | cons t rest ih =>
      intro r hidle hms
      obtain ⟨n, r₁, hrun, hidle₁, hstate₁, -⟩ :=
        run_process r hidle (.processMessage t.1) t.2
      obtain ⟨as, r₂, hrest, hidle₂, hstate₂, hall⟩ :=
        ih r₁ hidle₁ fun m hm => hms m (List.mem_cons_of_mem _ hm)
      have hfirst := (hrun.mono fun hstep => hstep.2).labelled (P := Receives ms) fun a ha => by
        rcases List.mem_cons.mp ha with rfl | ha
        · exact hms t.1 List.mem_cons_self
        · obtain rfl := List.eq_of_mem_replicate ha
          trivial
      refine ⟨_, r₂, hfirst.append hrest, hidle₂, ?_, fun m hm => ?_⟩
      · rw [hstate₂, hstate₁]
        rfl
      · rcases List.mem_cons.mp hm with rfl | hm
        · exact ⟨_, List.mem_append_left _ List.mem_cons_self, rfl⟩
        · obtain ⟨a, ha, hm⟩ := hall m hm
          exact ⟨a, List.mem_append_right _ ha, hm⟩

/-- Two states have come to the same. -/
structure PbftState.Alike (st st' : PbftState) : Prop where
  phase : ∀ s, (st.instanceAt s).phase = (st'.instanceAt s).phase
  digest : ∀ s, (st.instanceAt s).digest = (st'.instanceAt s).digest
  prepares : ∀ s, (st.instanceAt s).prepares.keys = (st'.instanceAt s).prepares.keys
  commits : ∀ s, (st.instanceAt s).commits.keys = (st'.instanceAt s).commits.keys
  executed : st.executed = st'.executed

theorem PbftState.Settled.alike {st₀ st st' : PbftState} (h : st.Settled st₀ ms)
    (h' : st'.Settled st₀ ms') (hfits : Fits st₀ ms) (hsame : ∀ m, m ∈ ms ↔ m ∈ ms') :
    st.Alike st' := by
  have hphase : ∀ s, (st.instanceAt s).phase = (st'.instanceAt s).phase := by
    intro s
    obtain ⟨hd, hp, hc⟩ := hfits.same hsame s
    rw [h.phase, h'.phase, phaseOf, phaseOf, hd, hp, hc]
  have hdigest : ∀ s, (st.instanceAt s).digest = (st'.instanceAt s).digest := by
    intro s
    rw [h.digest, h'.digest, (hfits.same hsame s).1]
  refine ⟨hphase, hdigest, fun s => ?_, fun s => ?_, ?_⟩
  · obtain ⟨hd, hp, -⟩ := hfits.same hsame s
    rw [h.prepares, h'.prepares, prepareVoters, prepareVoters, hd, hp]
  · obtain ⟨-, -, hc⟩ := hfits.same hsame s
    rw [h.commits, h'.commits, commitVoters, commitVoters, ← h.phase, ← h'.phase, hphase, hc]
  · ext d
    rw [h.executed, h'.executed]
    simp only [hphase, hdigest]

/--
**The phase of an instance is a function of the set of messages received.**  Messages that
fit one another, handled one after another from the start, leave a state that has come to
what they say; and any list of the same messages, such as a permutation, leaves one that has
come to the same.
-/
theorem any_order {nodeId : NodeId} {keypair : KeyPair} {replicas : Replicas}
    {config : PbftConfig} {now : Instant} {ts : List (ConsensusMessage × Instant)}
    (hfits : Fits (PbftState.new nodeId keypair replicas config now) (ts.map Prod.fst)) :
    ((PbftState.new nodeId keypair replicas config now).receiveAll ts).Settled
        (PbftState.new nodeId keypair replicas config now) (ts.map Prod.fst) ∧
      ∀ ts' : List (ConsensusMessage × Instant),
        (∀ m, m ∈ ts.map Prod.fst ↔ m ∈ ts'.map Prod.fst) →
          ((PbftState.new nodeId keypair replicas config now).receiveAll ts).Alike
            ((PbftState.new nodeId keypair replicas config now).receiveAll ts') := by
  have hsettled : ∀ ts : List (ConsensusMessage × Instant),
      Fits (PbftState.new nodeId keypair replicas config now) (ts.map Prod.fst) →
        ((PbftState.new nodeId keypair replicas config now).receiveAll ts).Settled
          (PbftState.new nodeId keypair replicas config now) (ts.map Prod.fst) := by
    intro ts hfits
    obtain ⟨as, r, hrun, hidle, hstate, hall⟩ := Replica.run_receiveAll ts
      (Replica.new (PbftState.new nodeId keypair replicas config now)) rfl fun _ h => h
    have hreceiving := Replica.receiving_of_run hfits hrun
    have hdone := hreceiving.settled hfits hall hidle
    rw [hstate] at hdone
    exact hdone
  refine ⟨hsettled ts hfits, fun ts' hsame => ?_⟩
  exact (hsettled ts hfits).alike (hsettled ts' (hfits.congr hsame)) hfits hsame

end

end

namespace Sample

/-- Votes of two replicas around the pre-prepare they are for, one of them twice. -/
def scattered : List (ConsensusMessage × Instant) :=
  let digest := (request 1).digest
  let prepare := fun i => ConsensusMessage.prepare ((signer i).ownPrepare 0 1 digest)
  let commit := fun i =>
    ConsensusMessage.commit ((signer i).ownCommit (ConsensusInstance.new 1 0) 1 digest)
  [(commit 2, 1), (prepare 2, 2), (prepare 3, 3),
    (.prePrepare ((signer 0).proposal 1 (request 1)), 4), (commit 3, 5), (prepare 2, 6)]

theorem scattered_proposal {pp : PrePrepare} (hpp : .prePrepare pp ∈ scattered.map Prod.fst) :
    pp = (signer 0).proposal 1 (request 1) := by
  simpa [scattered] using hpp

theorem scattered_fits : Fits (signer 1) (scattered.map Prod.fst) := by
  have hslot : ∀ m ∈ scattered.map Prod.fst, m.slot? = some (0, 1, (request 1).digest) := by
    decide +kernel
  have hverifies : ∀ m ∈ scattered.map Prod.fst, ∀ claim, m.claim = some claim →
      verifyNodeSignature claim.signer (asBytes claim.data) claim.signature = true := by
    decide +kernel
  refine {
    slot := fun m hm => ⟨1, _, hslot m hm, by decide +kernel, by decide +kernel⟩
    verifies := hverifies
    primary := fun pp hpp => ?_
    request := fun pp hpp => ?_
    agree := fun pp hpp m hm view d hm' => ?_ }
  · obtain rfl := scattered_proposal hpp
    decide +kernel
  · obtain rfl := scattered_proposal hpp
    rfl
  · obtain rfl := scattered_proposal hpp
    exact (Prod.mk.inj (Prod.mk.inj (Option.some.inj (hm'.symm.trans (hslot m hm)))).2).2

end Sample

open Sample in
/-- A backup that gets them is committed in the end, and would be in any other order. -/
theorem any_order_backup :
    (((signer 1).receiveAll scattered).instanceAt 1).phase = .committed ∧
      ∀ ts, scattered.Perm ts →
        ((signer 1).receiveAll scattered).Alike ((signer 1).receiveAll ts) := by
  have hmain := any_order scattered_fits
  refine ⟨(hmain.1.phase 1).trans ?_, fun ts hperm => hmain.2 ts fun m => ?_⟩
  · decide +kernel
  · exact (hperm.map Prod.fst).mem_iff

end P2pPbft
