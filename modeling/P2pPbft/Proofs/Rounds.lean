/-
The rounds of a number, and what a log has of them.

A number goes through four rounds, and in each of them a replica sends one message:
the pre-prepare, if it is the primary, its prepare, its commit, and its checkpoint if one
is due.  The course of a replica is the list of the rounds it has gone through, in the
order in which it sent these messages.

What a log has of another replica is what that one has sent; and what it has of its own
replica is what that has sent itself.
-/
import P2pPbft.Lib.Precedes
import P2pPbft.Proofs.FirstView
import P2pPbft.Proofs.Representation
import P2pPbft.Proofs.Supporters
import P2pPbft.Proofs.Completeness

namespace P2pPbft

inductive Round
  | proposal
  | prepare
  | commit
  | checkpoint
  deriving DecidableEq

/-- The round a message marks, and the number it is about. -/
def ConsensusMessage.round? : ConsensusMessage → Option (Round × SequenceNumber)
  | .prePrepare pp => some (.proposal, pp.sequence)
  | .prepare p => some (.prepare, p.sequence)
  | .commit c => some (.commit, c.sequence)
  | .checkpoint c => some (.checkpoint, c.sequence)
  | _ => none

def Send.round? : Send → Option (Round × SequenceNumber)
  | .outgoing (.broadcast (.consensus message)) => message.round?
  | _ => none

/-- The rounds a replica that has issued the sends has gone through. -/
def course (sends : List Send) : List (Round × SequenceNumber) := sends.filterMap Send.round?

@[simp] theorem course_append (sends sends' : List Send) :
    course (sends ++ sends') = course sends ++ course sends' := List.filterMap_append

theorem mem_course {round : Round} {s : SequenceNumber} {sends : List Send} :
    (round, s) ∈ course sends ↔
      ∃ message, Send.broadcast message ∈ sends ∧ message.round? = some (round, s) := by
  constructor
  · intro h
    obtain ⟨send, hsend, hround⟩ := List.mem_filterMap.mp h
    unfold Send.round? at hround
    split at hround
    · exact ⟨_, hsend, hround⟩
    · cases hround
  · rintro ⟨message, hmessage, hround⟩
    exact List.mem_filterMap.mpr ⟨_, hmessage, hround⟩

theorem mem_course_proposal {s : SequenceNumber} {sends : List Send} :
    (.proposal, s) ∈ course sends ↔ ∃ pp ∈ proposals sends, pp.sequence = s := by
  rw [mem_course]
  constructor
  · rintro ⟨message, hmessage, hround⟩
    cases message <;> cases hround
    exact ⟨_, mem_proposals.mpr hmessage, rfl⟩
  · rintro ⟨pp, hpp, rfl⟩
    exact ⟨_, mem_proposals.mp hpp, rfl⟩

theorem mem_course_prepare {s : SequenceNumber} {sends : List Send} :
    (.prepare, s) ∈ course sends ↔ ∃ p ∈ votes sends, p.sequence = s := by
  rw [mem_course]
  constructor
  · rintro ⟨message, hmessage, hround⟩
    cases message <;> cases hround
    exact ⟨_, mem_votes.mpr hmessage, rfl⟩
  · rintro ⟨p, hp, rfl⟩
    exact ⟨_, mem_votes.mp hp, rfl⟩

theorem mem_course_commit {s : SequenceNumber} {sends : List Send} :
    (.commit, s) ∈ course sends ↔ ∃ c ∈ commits sends, c.sequence = s := by
  rw [mem_course]
  constructor
  · rintro ⟨message, hmessage, hround⟩
    cases message <;> cases hround
    exact ⟨_, mem_commits.mpr hmessage, rfl⟩
  · rintro ⟨c, hc, rfl⟩
    exact ⟨_, mem_commits.mp hc, rfl⟩

/-- Who is said to have sent the message. -/
def ConsensusMessage.signer? (message : ConsensusMessage) : Option NodeId :=
  message.claim.map (·.signer)

/-- The instance has the message with which the node goes through the round; there are no
checkpoints in it. -/
def ConsensusInstance.Has (inst : ConsensusInstance) (primary id : NodeId) : Round → Prop
  | .proposal => id = primary ∧ inst.prePrepare.isSome
  | .prepare => id ∈ inst.prepares
  | .commit => id ∈ inst.commits
  | .checkpoint => False

theorem ConsensusInstance.not_has_new (s : SequenceNumber) (view : ViewNumber)
    (primary id : NodeId) (round : Round) :
    ¬ (ConsensusInstance.new s view).Has primary id round := by
  cases round with
  | proposal => exact fun h => absurd h.2 (by simp [new])
  | prepare => exact Finmap.notMem_empty
  | commit => exact Finmap.notMem_empty
  | checkpoint => exact fun h => h

/-- The log has the message in which the node marks the round of the number. -/
def PbftState.Has (st : PbftState) (id : NodeId) (round : Round) (s : SequenceNumber) : Prop :=
  (st.instanceAt s).Has (st.replicas.primary 0) id round

theorem PbftState.has_of_lookup {st : PbftState} {id : NodeId} {round : Round} {s : SequenceNumber}
    {inst : ConsensusInstance} (hlookup : st.log.lookup s = some inst)
    (h : inst.Has (st.replicas.primary 0) id round) : st.Has id round s := by
  rw [Has, instanceAt_of_lookup hlookup]
  exact h

theorem PbftState.Has.lookup {st : PbftState} {id : NodeId} {round : Round} {s : SequenceNumber}
    (h : st.Has id round s) : st.log.lookup s = some (st.instanceAt s) := by
  refine (st.instanceAt_cases s).resolve_right fun hnew => ?_
  rw [Has, hnew] at h
  exact ConsensusInstance.not_has_new _ _ _ _ _ h

section

variable [Crypto] {st : PbftState} {now : Instant} {sec : Section} {out : Outcome}
  {primary id : NodeId} {round : Round} {s : SequenceNumber} {inst : ConsensusInstance}

theorem EntryStep.has_kept (hwrite : EntryStep st sec out s inst)
    (h : (st.instanceAt s).Has primary id round) : inst.Has primary id round := by
  have hinsert : ∀ {V : Type} {t : Table NodeId V} (k : NodeId) (v : V),
      id ∈ t → id ∈ t.insert k v := fun _ _ hmem => Finmap.mem_insert.mpr (Or.inr hmem)
  cases hwrite with
  | propose request _ _ _ _ =>
      cases round with
      | proposal => exact ⟨h.1, rfl⟩
      | prepare => exact hinsert _ _ h
      | commit => exact h
      | checkpoint => exact h
  | accept pp _ _ _ =>
      cases round with
      | proposal => exact ⟨h.1, rfl⟩
      | prepare => exact hinsert _ _ h
      | commit => exact h
      | checkpoint => exact h
  | storePrepare p _ _ =>
      cases round with
      | prepare => exact hinsert _ _ h
      | _ => exact h
  | prepared s inst digest hl _ _ _ _ _ =>
      rw [PbftState.instanceAt_of_lookup hl] at h
      cases round with
      | commit => exact hinsert _ _ h
      | _ => exact h
  | storeCommit c _ _ =>
      cases round with
      | commit => exact hinsert _ _ h
      | _ => exact h
  | committed s inst hl _ _ _ _ =>
      rw [PbftState.instanceAt_of_lookup hl] at h
      cases round <;> exact h

/-- **What the log has it keeps**, above the low watermark. -/
theorem Transition.has_kept (ht : Transition st now sec out) (h : st.Has id round s)
    (hlow : out.state.lowWatermark < s) : out.state.Has id round s := by
  have hbefore : (st.instanceAt s).Has (out.state.replicas.primary 0) id round := by
    rw [ht.static.2.2.1]
    exact h
  rcases ht.kept h.lookup with ⟨inst, hlookup, rfl | hwrite⟩ | ⟨-, hle, -⟩
  · exact PbftState.has_of_lookup hlookup hbefore
  · exact PbftState.has_of_lookup hlookup (hwrite.has_kept hbefore)
  · exact absurd hlow (UInt64.not_lt.mpr hle)

/-- **What the log has it had before**, or it is what the replica has just sent, or been sent. -/
theorem Transition.has_cases (ht : Transition st now sec out) (hview : st.view = 0)
    (h : out.state.Has id round s) :
    st.Has id round s ∨ (id = st.nodeId ∧ (round, s) ∈ course out.sends) ∨
      ∃ message, sec.message? = some message ∧ message.signer? = some id ∧
        message.round? = some (round, s) := by
  have hinsert : ∀ {V : Type} {t : Table NodeId V} {k : NodeId} {v : V}, id ∈ t.insert k v →
      id = k ∨ id ∈ t := fun hmem => Finmap.mem_insert.mp hmem
  obtain ⟨inst, hlookup, hinst⟩ : ∃ inst, out.state.log.lookup s = some inst ∧
      inst.Has (st.replicas.primary 0) id round := by
    refine ⟨_, h.lookup, ?_⟩
    rw [PbftState.Has, ht.static.2.2.1] at h
    exact h
  replace h := hinst
  rcases ht.entry hlookup with hold | hwrite
  · exact Or.inl (PbftState.has_of_lookup hold h)
  cases hwrite with
  | propose request hp _ _ hsends =>
      cases round with
      | proposal =>
          refine Or.inr (Or.inl ⟨?_, mem_course.mpr ⟨_, hsends ▸ List.mem_cons_self, rfl⟩⟩)
          rw [h.1, ← hp.primary, PbftState.primary, hview]
      | prepare =>
          rcases hinsert h with rfl | hold
          · have hsent : Send.broadcast (.prepare
                (st.ownPrepare st.view (st.sequence + 1) request.digest)) ∈ out.sends := by
              rw [hsends]
              exact List.mem_cons_of_mem _ List.mem_cons_self
            exact Or.inr (Or.inl ⟨rfl, mem_course.mpr ⟨_, hsent, rfl⟩⟩)
          · exact Or.inl hold
      | commit => exact Or.inl h
      | checkpoint => exact h.elim
  | accept pp hp _ hvotes =>
      cases round with
      | proposal =>
          refine Or.inr (Or.inr ⟨_, rfl, ?_, rfl⟩)
          rw [h.1]
          show some pp.primaryId = _
          rw [hp.primary, PbftState.primary, hview]
      | prepare =>
          rcases hinsert h with rfl | hold
          · have hsent : st.ownPrepare pp.view pp.sequence pp.digest ∈ P2pPbft.votes out.sends := by
              rw [hvotes]
              exact List.mem_singleton.mpr rfl
            exact Or.inr (Or.inl ⟨rfl, mem_course_prepare.mpr ⟨_, hsent, rfl⟩⟩)
          · exact Or.inl hold
      | commit => exact Or.inl h
      | checkpoint => exact h.elim
  | storePrepare p _ _ =>
      cases round with
      | prepare =>
          rcases hinsert h with rfl | hold
          · exact Or.inr (Or.inr ⟨_, rfl, rfl, rfl⟩)
          · exact Or.inl hold
      | _ => exact Or.inl h
  | prepared s inst digest hl _ hphase _ _ _ =>
      cases round with
      | commit =>
          rcases hinsert h with rfl | hold
          · have hcommit := ht.issues_commit hl hphase hlookup (Or.inl rfl)
            exact Or.inr (Or.inl ⟨rfl, mem_course_commit.mpr hcommit⟩)
          · exact Or.inl (PbftState.has_of_lookup hl hold)
      | _ => exact Or.inl (PbftState.has_of_lookup hl h)
  | storeCommit c _ _ =>
      cases round with
      | commit =>
          rcases hinsert h with rfl | hold
          · exact Or.inr (Or.inr ⟨_, rfl, rfl, rfl⟩)
          · exact Or.inl hold
      | _ => exact Or.inl h
  | committed s inst hl _ _ _ _ =>
      refine Or.inl (PbftState.has_of_lookup hl ?_)
      cases round <;> exact h

/-- The ways a section marks a round of a number. -/
inductive Marks (st : PbftState) : Section → Round → SequenceNumber → Prop
  | proposal (request : Request) (h : st.Proposes request) :
      Marks st (.handleRequest request) .proposal (st.sequence + 1)
  | proposalPrepare (request : Request) (h : st.Proposes request) :
      Marks st (.handleRequest request) .prepare (st.sequence + 1)
  | prepare (pp : PrePrepare) (h : st.AcceptsPrePrepare pp) :
      Marks st (.handlePrePrepare pp) .prepare pp.sequence
  | commit (s : SequenceNumber) (inst : ConsensusInstance) (hlookup : st.log.lookup s = some inst)
      (hpp : inst.prePrepare.isSome) (hphase : inst.phase = .prePrepared)
      (hquorum : st.config.quorum ≤ inst.prepares.keys.card) :
      Marks st (.tryAdvanceToPrepared s) .commit s
  | checkpoint (s : SequenceNumber) (hmod : s % st.config.checkpointInterval = 0) :
      Marks st (.tryCheckpoint s) .checkpoint s

/-- **What a section adds to the course**, and what it has then in its own log. -/
theorem Transition.marks (ht : Transition st now sec out) (hview : st.view = 0)
    (h : (round, s) ∈ course out.sends) :
    Marks st sec round s ∧ (round ≠ .checkpoint → out.state.Has st.nodeId round s) := by
  have hstatic := congrArg (Replicas.primary · 0) ht.static.2.2.1
  cases ht with
  | propose request hp =>
      have hentry := st.lookup_proposed request (st.sequence + 1)
      rw [if_pos rfl] at hentry
      rcases List.mem_cons.mp h with heq | h
      · cases heq
        refine ⟨Marks.proposal request hp, fun _ => PbftState.has_of_lookup hentry ⟨?_, rfl⟩⟩
        rw [hstatic, ← hp.primary, PbftState.primary, hview]
      · cases List.mem_singleton.mp h
        refine ⟨Marks.proposalPrepare request hp, fun _ => PbftState.has_of_lookup hentry ?_⟩
        exact Finmap.mem_insert.mpr (Or.inl rfl)
  | accept pp hp =>
      cases List.mem_singleton.mp h
      have hentry := (st.lookup_setInstance pp.sequence pp.sequence
        (st.recorded pp (st.ownPrepare pp.view pp.sequence pp.digest))).trans (if_pos rfl)
      rw [← PbftState.record_eq] at hentry
      refine ⟨Marks.prepare pp hp, fun _ => PbftState.has_of_lookup hentry ?_⟩
      exact Finmap.mem_insert.mpr (Or.inl rfl)
  | prepared s inst digest hlookup hpp hphase hquorum _ =>
      cases List.mem_singleton.mp h
      refine ⟨Marks.commit s inst hlookup hpp hphase hquorum, fun _ => ?_⟩
      refine PbftState.has_of_lookup ((st.lookup_setInstance s s _).trans (if_pos rfl)) ?_
      exact Finmap.mem_insert.mpr (Or.inl rfl)
  | announce s _ hmod =>
      cases List.mem_singleton.mp h
      exact ⟨Marks.checkpoint s hmod, fun hne => absurd rfl hne⟩
  | forward _ _ | executed _ _ _ _ _ _ _ _ | announceNewView _ _ _ _ | startViewChange _ => cases h
  | _ => cases h

/-- Whoever takes a pre-prepare into the log sends a prepare for it. -/
theorem Transition.prepare_of_prePrepare (ht : Transition st now sec out)
    (h : (out.state.instanceAt s).prePrepare.isSome) :
    (st.instanceAt s).prePrepare.isSome ∨ (.prepare, s) ∈ course out.sends := by
  have hlookup := (out.state.instanceAt_cases s).resolve_right fun hnew => by
    rw [hnew] at h
    exact absurd h (by simp [ConsensusInstance.new])
  rcases ht.entry hlookup with hold | hwrite
  · rw [PbftState.instanceAt_of_lookup hold]
    exact Or.inl h
  generalize out.state.instanceAt s = inst at hwrite h
  cases hwrite with
  | propose request _ _ _ hsends =>
      have hsent : Send.broadcast (.prepare
          (st.ownPrepare st.view (st.sequence + 1) request.digest)) ∈ out.sends := by
        rw [hsends]
        exact List.mem_cons_of_mem _ List.mem_cons_self
      exact Or.inr (mem_course.mpr ⟨_, hsent, rfl⟩)
  | accept pp _ _ hvotes =>
      have hsent : st.ownPrepare pp.view pp.sequence pp.digest ∈ P2pPbft.votes out.sends := by
        rw [hvotes]
        exact List.mem_singleton.mpr rfl
      exact Or.inr (mem_course_prepare.mpr ⟨_, hsent, rfl⟩)
  | storePrepare _ _ _ | storeCommit _ _ _ => exact Or.inl h
  | prepared s inst _ hl _ _ _ _ _ | committed s inst hl _ _ _ _ =>
      rw [PbftState.instanceAt_of_lookup hl]
      exact Or.inl h

omit [Crypto] in
theorem Replica.sectionOf_of_round {r : Replica} {a : Action} {message : ConsensusMessage}
    (h : a.message? = some message) (hround : message.round? = some (round, s)) :
    ∃ sec, r.sectionOf a = some sec ∧ sec.message? = some message := by
  obtain ⟨now, rfl⟩ := Action.call_of_message? h
  cases message with
  | request _ | reply _ | viewChange _ | newView _ => cases hround
  | _ => exact ⟨_, rfl, rfl⟩

/-! ### Messages that come in time -/

/-- What the first primary has proposed: numbered, in view 0, and in its own name. -/
structure FirstOrdering (cluster : Cluster) (ps : List PrePrepare) : Prop extends Numbering ps where
  view : ∀ pp ∈ ps, pp.view = 0
  primary : ∀ pp ∈ ps, pp.primaryId = cluster.replicas.primary 0
  digest : ∀ pp ∈ ps, pp.request.digest = pp.digest

/-- **A message of the first view that comes within the window is in the log from then on.** -/
theorem PbftState.FirstView.has_of_message {cluster : Cluster} {ps : List PrePrepare}
    {issued : List Send} (h : st.FirstView ps) (hwf : WellFormed st issued)
    (hreplicas : st.replicas = cluster.replicas) (hlogged : Logged (· ∈ ps) st)
    (hordering : FirstOrdering cluster ps) {message : ConsensusMessage}
    (hmessage : sec.message? = some message) (hfirst : message.FirstView ps)
    (hverifies : message.Verifies) (hsigner : message.signer? = some id)
    (hround : message.round? = some (round, s)) (hne : round ≠ .checkpoint)
    (hlow : st.lowWatermark < s) (hhigh : s ≤ st.highWatermark) :
    (sec.run st now).state.Has id round s := by
  have hstatic := (run_transition st now sec).static.2.2.1
  cases sec with
  | handlePrePrepare pp =>
      cases hmessage
      cases hround
      obtain rfl := Option.some.inj hsigner
      have hpp : pp ∈ ps := hfirst
      have hprimary : pp.primaryId = st.primary := by
        rw [hordering.primary pp hpp, PbftState.primary, hreplicas, h.view]
      refine ⟨?_, (handlePrePrepare_ok now ((hordering.view pp hpp).trans h.view.symm) hprimary
        hlow hhigh (hverifies _ rfl) (hordering.digest pp hpp) fun inst hlookup hsome => ?_).2⟩
      · rw [hstatic, hreplicas]
        exact hordering.primary pp hpp
      · obtain ⟨pp', hpp'⟩ := Option.isSome_iff_exists.mp hsome
        have hok := hwf.entry _ inst hlookup
        rw [hok.digest pp' hpp', hordering.unique pp' (hlogged _ inst pp' hlookup hpp') pp hpp
          (hok.sequence pp' hpp')]
  | handlePrepare p =>
      cases hmessage
      cases hround
      obtain rfl := Option.some.inj hsigner
      obtain ⟨hview, hp⟩ : p.view = 0 ∧ Ordered ps p.sequence p.digest := hfirst
      exact (handlePrepare_ok (hview.trans h.view.symm) hlow hhigh (hverifies _ rfl)
        fun pp hpp => hordering.ordered_unique
          (ordered_of_logged hlogged hwf ((hwf.instanceAt _).digest pp hpp)) hp).2
  | handleCommit c =>
      cases hmessage
      cases hround
      obtain rfl := Option.some.inj hsigner
      obtain ⟨hview, hc⟩ : c.view = 0 ∧ Ordered ps c.sequence c.digest := hfirst
      exact (handleCommit_ok (hview.trans h.view.symm) hlow hhigh (hverifies _ rfl)
        fun d hd => hordering.ordered_unique hc (ordered_of_logged hlogged hwf hd)).2
  | handleCheckpoint c =>
      cases hmessage
      cases hround
      exact absurd rfl hne
  | handleViewChange _ | handleNewView _ =>
      cases hmessage
      cases hround
  | _ => cases hmessage

end

end P2pPbft
