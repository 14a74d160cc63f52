/-
The view a commit carries.

A commit is sent in the view its instance was created in.  That is the view of the
pre-prepare and of the prepares as long as nothing is written into an instance left
over from an earlier view, which is the condition `InView` puts on a section.  The
code does not check it: an instance survives a new view, and a pre-prepare, a
prepare or a request of the new view is written into it all the same.
-/
import P2pPbft.Proofs.Proposals

namespace P2pPbft

/-- An entry under the number, if there is one, was created in the current view. -/
def PbftState.Current (st : PbftState) (s : SequenceNumber) : Prop :=
  ∀ inst, st.log.lookup s = some inst → inst.view = st.view

/-- The instance was created in the view of its pre-prepare and of all its prepares. -/
structure ConsensusInstance.InOneView (inst : ConsensusInstance) : Prop where
  prePrepare : ∀ pp, inst.prePrepare = some pp → pp.view = inst.view
  prepares : ∀ id p, inst.prepares.lookup id = some p → p.view = inst.view

/-- Entries are each in one view, and behind every commit there is a vote for it. -/
structure Bound (st : PbftState) (issued : List Send) : Prop where
  entry : ∀ s inst, st.log.lookup s = some inst → inst.InOneView
  voted : ∀ c ∈ commits issued,
    ∃ p ∈ votes issued, p.view = c.view ∧ p.sequence = c.sequence ∧ p.digest = c.digest

section

variable {st : PbftState} {issued : List Send}

theorem PbftState.Current.instanceAt {s : SequenceNumber} (h : st.Current s) :
    (st.instanceAt s).view = st.view := by
  rcases st.instanceAt_cases s with hlookup | hnew
  · exact h _ hlookup
  · rw [hnew]
    rfl

theorem Bound.instanceAt (h : Bound st issued) (s : SequenceNumber) :
    (st.instanceAt s).InOneView := by
  rcases st.instanceAt_cases s with hlookup | hnew
  · exact h.entry s _ hlookup
  · rw [hnew]
    exact ⟨fun _ h => absurd h (by simp [ConsensusInstance.new]),
      fun _ _ h => absurd h (by simp [ConsensusInstance.new])⟩

private theorem prepares_insert {view : ViewNumber} {prepares : Table NodeId Prepare}
    (h : ∀ id p, prepares.lookup id = some p → p.view = view) {id : NodeId} {prepare : Prepare}
    (hview : prepare.view = view) :
    ∀ id' p, (prepares.insert id prepare).lookup id' = some p → p.view = view :=
  fun _ _ hp => Table.forall_insert (P := fun _ p => p.view = view) h hview hp

end

theorem bound_new (nodeId : NodeId) (keypair : KeyPair) (replicas : Replicas)
    (config : PbftConfig) (now : Instant) :
    Bound (PbftState.new nodeId keypair replicas config now) [] where
  entry := fun s inst h => absurd h (by simp [PbftState.new])
  voted := fun c h => absurd h (by simp [commits])

section

variable [Crypto]

/-- What the section writes of the current view goes into entries of the current view. -/
def PbftState.InView (st : PbftState) : Section → Prop
  | .handleRequest request => st.Proposes request → st.Current (st.sequence + 1)
  | .handlePrePrepare pp => st.AcceptsPrePrepare pp → st.Current pp.sequence
  | .handlePrepare prepare => st.AcceptsPrepare prepare → st.Current prepare.sequence
  | _ => True

instance (st : PbftState) (s : SequenceNumber) : Decidable (st.Current s) :=
  inferInstanceAs (Decidable (∀ inst, st.log.lookup s = some inst → inst.view = st.view))

instance (st : PbftState) : (sec : Section) → Decidable (st.InView sec)
  | .handleRequest _ | .handlePrePrepare _ | .handlePrepare _ =>
      by dsimp only [PbftState.InView]; infer_instance
  | .tryAdvanceToPrepared _ | .handleCommit _ | .tryAdvanceToCommitted _ | .tryCheckpoint _
  | .handleCheckpoint _ | .handleViewChange _ | .handleNewView _ | .startViewChange
  | .checkTimeout => isTrue trivial

section

variable {st : PbftState} {issued : List Send} {now : Instant} {sec : Section} {out : Outcome}

private theorem inOneView_recorded (h : Bound st issued) (pp : PrePrepare)
    (hview : pp.view = st.view) (hcurrent : st.Current pp.sequence) :
    (st.recorded pp (st.ownPrepare pp.view pp.sequence pp.digest)).InOneView := by
  have hinst : pp.view = (st.instanceAt pp.sequence).view := hview.trans hcurrent.instanceAt.symm
  refine ⟨fun pp' h' => ?_, prepares_insert (h.instanceAt pp.sequence).prepares hinst⟩
  obtain rfl := Option.some.inj h'
  exact hinst

theorem Bound.commit (h : Bound st issued) (hwf : WellFormed st issued)
    (ht : Transition st now sec out) {c : Commit} (hc : c ∈ commits out.sends) :
    ∃ inst pp, st.log.lookup c.sequence = some inst ∧ inst.prePrepare = some pp ∧
      c.view = pp.view ∧ c.digest = pp.digest ∧
      ∀ id p, inst.prepares.lookup id = some p → p.view = c.view := by
  rcases ht.commits with hnone | ⟨s, inst, digest, -, hlookup, hpp, hdigest, hone⟩
  · rw [hnone] at hc
    exact absurd hc (by simp)
  · rw [hone] at hc
    obtain rfl := List.mem_singleton.mp hc
    obtain ⟨pp, hpp⟩ := Option.isSome_iff_exists.mp hpp
    have hview := (h.entry s inst hlookup).prePrepare pp hpp
    have hd := (hwf.entry s inst hlookup).digest pp hpp
    rw [hdigest] at hd
    exact ⟨inst, pp, hlookup, hpp, hview.symm, Option.some.inj hd,
      (h.entry s inst hlookup).prepares⟩

/-- **A section that stays in view keeps commits bound.** -/
theorem Bound.step (h : Bound st issued) (hwf : WellFormed st issued)
    (ht : Transition st now sec out) (hsec : st.InView sec) :
    Bound out.state (issued ++ out.sends) where
  entry := by
    intro s inst hlookup
    rcases ht.entry hlookup with hold | hwrite
    · exact h.entry s inst hold
    cases hwrite with
    | propose request hp _ _ _ =>
        exact inOneView_recorded h (st.proposal (st.sequence + 1) request) rfl (hsec hp)
    | accept pp hp _ _ => exact inOneView_recorded h pp hp.view (hsec hp)
    | storePrepare prepare hp _ =>
        have hok := h.instanceAt prepare.sequence
        have hview : prepare.view = (st.instanceAt prepare.sequence).view :=
          hp.view.trans (hsec hp).instanceAt.symm
        exact ⟨hok.prePrepare, prepares_insert hok.prepares hview⟩
    | prepared s inst digest hl _ _ _ _ _ =>
        have hok := h.entry s inst hl
        exact ⟨hok.prePrepare, hok.prepares⟩
    | storeCommit commit _ _ =>
        have hok := h.instanceAt commit.sequence
        exact ⟨hok.prePrepare, hok.prepares⟩
    | committed s inst hl _ _ _ _ =>
        have hok := h.entry s inst hl
        exact ⟨hok.prePrepare, hok.prepares⟩
  voted := by
    intro c hc
    rw [commits_append] at hc
    rw [votes_append]
    rcases List.mem_append.mp hc with hold | hnew
    · obtain ⟨p, hp, heq⟩ := h.voted c hold
      exact ⟨p, List.mem_append_left _ hp, heq⟩
    · obtain ⟨inst, pp, hlookup, hpp, hview, hdigest, -⟩ := h.commit hwf ht hnew
      obtain ⟨p, hp, hpview, hpseq, hpdigest⟩ := (hwf.entry _ inst hlookup).voted pp hpp
      exact ⟨p, List.mem_append_left _ hp, hpview.trans hview.symm, hpseq,
        hpdigest.trans hdigest.symm⟩

end

namespace Replica

/--
Whatever section runs next, a commit it issues carries the view of the pre-prepare
its instance holds, in which all of the instance's prepares were made too.
-/
def CommitsInView (r : Replica) : Prop :=
  ∀ a sec, r.sectionOf a = some sec → ∀ c ∈ commits (sec.run r.state a.now).sends,
    ∃ inst pp, r.state.log.lookup c.sequence = some inst ∧ inst.prePrepare = some pp ∧
      c.view = pp.view ∧ ∀ id p, inst.prepares.lookup id = some p → p.view = c.view

omit [Crypto] in
/-- No two commits sent for one slot have different digests. -/
def CommitsAgree (r : Replica) : Prop :=
  ∀ c ∈ commits r.made, ∀ c' ∈ commits r.made,
    c.view = c'.view → c.sequence = c'.sequence → c.digest = c'.digest

omit [Crypto] in
instance (r : Replica) : Decidable r.CommitsAgree :=
  inferInstanceAs (Decidable (∀ c ∈ commits r.made, ∀ c' ∈ commits r.made,
    c.view = c'.view → c.sequence = c'.sequence → c.digest = c'.digest))

variable {r : Replica} {as : List Action}

omit [Crypto] in
/-- Commits each with a vote behind it agree if no slot was voted on twice. -/
theorem commitsAgree_of_votes (haccounted : r.Accounted)
    (hvoted : ∀ c ∈ commits r.issued,
      ∃ p ∈ votes r.issued, p.view = c.view ∧ p.sequence = c.sequence ∧ p.digest = c.digest)
    (hnodup : ((votes r.issued).map fun p => (p.view, p.sequence)).Nodup) : r.CommitsAgree := by
  intro c hc c' hc' hview hseq
  obtain ⟨p, hp, hpv, hps, hpd⟩ :=
    hvoted c (mem_commits.mpr (haccounted.made_subset (mem_commits.mp hc)))
  obtain ⟨p', hp', hpv', hps', hpd'⟩ :=
    hvoted c' (mem_commits.mpr (haccounted.made_subset (mem_commits.mp hc')))
  have hslot : (p.view, p.sequence) = (p'.view, p'.sequence) := by
    rw [hpv, hps, hpv', hps', hview, hseq]
  obtain rfl := List.inj_on_of_nodup_map hnodup hp hp' hslot
  exact hpd.symm.trans hpd'

/--
**Commits are bound to the view they were prepared in**, in a run that writes nothing
into an entry of another view; and then no two commits for a slot differ, if nobody
forges the replica's signature and its counter does not wrap.
-/
theorem commits_bound {nodeId : NodeId} {keypair : KeyPair} {replicas : Replicas}
    {config : PbftConfig} {now : Instant}
    (h : Run (Next fun r a => ∀ sec, r.sectionOf a = some sec → r.state.InView sec)
      (new (PbftState.new nodeId keypair replicas config now)) as r) :
    r.CommitsInView ∧
      (Run (Next fun r a => ∀ message, a.message? = some message → r.Unforged message)
          (new (PbftState.new nodeId keypair replicas config now)) as r →
        requests as < 2 ^ 64 → r.CommitsAgree) := by
  have h₀ := sound_new nodeId keypair replicas config now
  have hsound := sound_of_run h h₀
  have hbound : Bound r.state r.issued := by
    refine (h.state_invariant (I := fun r => r.Sound ∧ Bound r.state r.issued)
      ⟨h₀, bound_new _ _ _ _ _⟩ ?_).2
    rintro t a u ⟨hsound, hbound⟩ ⟨hrule, hact⟩
    exact ⟨hsound.act hact,
      keep hact hbound fun hsec ht => hbound.step hsound.wellFormed ht (hrule _ hsec)⟩
  refine ⟨?_, fun hunforged hcount => ?_⟩
  · intro a sec hsec c hc
    obtain ⟨inst, pp, hlookup, hpp, hview, -, hprepares⟩ :=
      hbound.commit hsound.wellFormed (run_transition r.state a.now sec) hc
    exact ⟨inst, pp, hlookup, hpp, hview, hprepares⟩
  · have hslots := slots_of_run (noWrap_of_requests hunforged h₀ rfl hcount) h₀ (slots_new _)
      fun hrule => ⟨hrule.2, hrule.1⟩
    exact commitsAgree_of_votes hsound.accounted hbound.voted hslots.votes_nodup

end Replica

end

/-! ### An instance that outlives its view

The second of two replicas commits a request of the first one in view 0.  A new view
makes it primary; its counter is still at 0, so its own first request gets the
number the log already has an instance for.
-/

namespace Sample

/-- A call, and `steps` steps of its handler. -/
def toEnd (call : Call) (steps : Nat) : List Action :=
  .call call 0 :: List.replicate steps (.resume 0 0)

/-- The second of four nodes commits what the first one proposes in a view it leads. -/
def commitsInView (view : ViewNumber) (s : SequenceNumber) (request : Request) : List Action :=
  let prepare (i : Fin 4) := (signer i).ownPrepare view s request.digest
  let commit (i : Fin 4) := (signer i).ownCommit (ConsensusInstance.new s view) s request.digest
  toEnd (.processMessage (.prePrepare ({ signer 0 with view := view }.proposal s request))) 3 ++
    toEnd (.processMessage (.prepare (prepare 0))) 2 ++
    toEnd (.processMessage (.prepare (prepare 2))) 4 ++
    toEnd (.processMessage (.commit (commit 0))) 2 ++
    toEnd (.processMessage (.commit (commit 2))) 4

/-- It commits a number in view 0, and the next one in view 4. -/
def commitsTwice : List Action :=
  commitsInView 0 1 (request 1) ++ toEnd (.processMessage (.newView ⟨4, 0, node 0, []⟩)) 1 ++
    commitsInView 4 2 (request 2)

/-- The pre-prepare of the first node for the first request, and all that follows from it. -/
def backupCommits : List Action :=
  .call (.processMessage (.prePrepare
    (((cluster 1).initState (node 0)).proposal 1 (request 1)))) 0 :: List.replicate 7 (.resume 0 0)

/-- The second node becomes primary and takes a request, up to the section it has to run next. -/
def backupProposes : List Action :=
  backupCommits ++
    [.call (.processMessage (.newView ⟨1, 0, node 1, []⟩)) 0, .resume 0 0,
      .call (.handleRequest (request 2)) 0, .resume 0 0, .resume 0 0]

end Sample

namespace Replica

open Sample

/-- A backup has sent a commit in view 0 and one in view 4. -/
theorem commits_bound_backup :
    ∃ r : Replica, (commits r.made).map (fun c => (c.view, c.sequence)) = [(0, 1), (4, 2)] ∧
      r.CommitsInView ∧ r.CommitsAgree := by
  obtain ⟨r, hrun, htwo⟩ := exists_run
    (fun r a => (∀ sec, r.sectionOf a = some sec → r.state.InView sec) ∧
      ∀ message, a.message? = some message → r.Unforged message)
    (new ((cluster 3).initState (node 1))) commitsTwice
    (fun r => (commits r.made).map (fun c => (c.view, c.sequence)) = [(0, 1), (4, 2)])
    (by decide +kernel)
  have h := commits_bound (hrun.mono fun hstep => ⟨hstep.1.1, hstep.2⟩)
  exact ⟨r, htwo, h.1, h.2 (hrun.mono fun hstep => ⟨hstep.1.2, hstep.2⟩) (by decide)⟩

/--
**An instance left over from another view breaks both**: the commit that is about to
be issued is for view 0 while the pre-prepare is of view 1, and once it is out there
are two commits for one slot with different digests.
-/
theorem commits_drift :
    (∃ r, Run (Next fun r a => ∀ message, a.message? = some message → r.Unforged message)
        (new ((cluster 1).initState (node 1))) backupProposes r ∧ ¬ r.CommitsInView) ∧
      ∃ r, Run (Next fun r a => ∀ message, a.message? = some message → r.Unforged message)
        (new ((cluster 1).initState (node 1)))
        (backupProposes ++ [.resume 0 0, .resume 0 0]) r ∧ ¬ r.CommitsAgree := by
  constructor
  · obtain ⟨r, hrun, sec, hsec, c, hc, hdrift⟩ := exists_run
      (fun r a => ∀ message, a.message? = some message → r.Unforged message)
      (new ((cluster 1).initState (node 1))) backupProposes
      (fun r => ∃ sec ∈ r.sectionOf (.resume 0 0), ∃ c ∈ commits (sec.run r.state 0).sends,
        ∀ inst ∈ r.state.log.lookup c.sequence, ∀ pp ∈ inst.prePrepare, c.view ≠ pp.view)
      (by decide +kernel)
    refine ⟨r, hrun, fun hview => ?_⟩
    obtain ⟨inst, pp, hlookup, hpp, heq, -⟩ := hview (.resume 0 0) sec hsec c hc
    exact hdrift inst hlookup pp hpp heq
  · exact exists_run _ _ _ _ (by decide +kernel)

end Replica

end P2pPbft
