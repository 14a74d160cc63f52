/-
Prepared instances as certificates.

A prepared instance is a certificate: a quorum of members whose correct part voted
for its digest.  Two quorums share a correct member, so two certificates for one
number agree as long as no correct replica votes for two digests there.

The code counts more than it may: a prepare of anybody who has a key, and one
buffered for another digest before the pre-prepare came.  `CleanVotes` is the
condition on a section that it does not.
-/
import P2pPbft.Lib.Quorum
import P2pPbft.Proofs.Network

namespace P2pPbft

/-- Every prepare in the instance is from a member, and for the digest of its pre-prepare. -/
structure ConsensusInstance.Certified (members : List NodeId) (inst : ConsensusInstance) : Prop where
  member : ∀ id p, inst.prepares.lookup id = some p → id ∈ members
  digest : ∀ pp, inst.prePrepare = some pp →
    ∀ id p, inst.prepares.lookup id = some p → p.digest = pp.digest

theorem ConsensusInstance.certified_new (members : List NodeId) (s : SequenceNumber)
    (view : ViewNumber) : (ConsensusInstance.new s view).Certified members :=
  ⟨fun _ _ h => absurd h (by simp [new]), fun _ h => absurd h (by simp [new])⟩

/-- What others have sent ahead of the pre-prepare is for its digest. -/
def PbftState.BufferedAgree (st : PbftState) (pp : PrePrepare) : Prop :=
  ∀ id p, (st.instanceAt pp.sequence).prepares.lookup id = some p → id ≠ st.nodeId →
    p.digest = pp.digest

instance (st : PbftState) (pp : PrePrepare) : Decidable (st.BufferedAgree pp) :=
  decidable_of_iff (∀ id ∈ (st.instanceAt pp.sequence).prepares.keys, id ≠ st.nodeId →
      ∀ p, (st.instanceAt pp.sequence).prepares.lookup id = some p → p.digest = pp.digest) <| by
    constructor
    · intro h id p hp hid
      exact h id (Table.mem_keys_of_lookup hp) hid p hp
    · intro h id _ hid p hp
      exact h id p hp hid

section

variable [Crypto]

/-- The section counts no prepare but those of members, and for the digest at hand. -/
def PbftState.CleanVotes (st : PbftState) : Section → Prop
  | .handleRequest request =>
    st.Proposes request → st.BufferedAgree (st.proposal (st.sequence + 1) request)
  | .handlePrePrepare pp => st.AcceptsPrePrepare pp → st.BufferedAgree pp
  | .handlePrepare prepare => st.AcceptsPrepare prepare → prepare.replicaId ∈ st.replicas.ids
  | _ => True

instance (st : PbftState) : (sec : Section) → Decidable (st.CleanVotes sec)
  | .handleRequest _ | .handlePrePrepare _ | .handlePrepare _ =>
      by dsimp only [PbftState.CleanVotes]; infer_instance
  | .tryAdvanceToPrepared _ | .handleCommit _ | .tryAdvanceToCommitted _ | .tryCheckpoint _
  | .handleCheckpoint _ | .handleViewChange _ | .handleNewView _ | .startViewChange
  | .checkTimeout => isTrue trivial

/-! ### Certified logs -/

section

variable {st : PbftState} {now : Instant} {sec : Section} {out : Outcome} {members : List NodeId}

omit [Crypto] in
private theorem certified_instanceAt
    (h : ∀ s inst, st.log.lookup s = some inst → inst.Certified members) (s : SequenceNumber) :
    (st.instanceAt s).Certified members := by
  rcases st.instanceAt_cases s with hlookup | hnew
  · exact h s _ hlookup
  · rw [hnew]
    exact ConsensusInstance.certified_new members s st.view

private theorem certified_recorded
    (h : ∀ s inst, st.log.lookup s = some inst → inst.Certified members) (pp : PrePrepare)
    (hmember : st.nodeId ∈ members) (hbuffered : st.BufferedAgree pp) :
    (st.recorded pp (st.ownPrepare pp.view pp.sequence pp.digest)).Certified members := by
  have hbase := certified_instanceAt h pp.sequence
  constructor
  · intro id p hp
    rcases Table.lookup_insert_cases hp with ⟨rfl, -⟩ | ⟨-, hold⟩
    · exact hmember
    · exact hbase.member id p hold
  · intro pp' hpp id p hp
    obtain rfl := Option.some.inj hpp
    rcases Table.lookup_insert_cases hp with ⟨-, rfl⟩ | ⟨hid, hold⟩
    · rfl
    · exact hbuffered id p hold hid

private theorem certified_stored
    (h : ∀ s inst, st.log.lookup s = some inst → inst.Certified members) {prepare : Prepare}
    (hp : st.AcceptsPrepare prepare) (hmember : prepare.replicaId ∈ members) :
    { st.instanceAt prepare.sequence with
      prepares := (st.instanceAt prepare.sequence).prepares.insert prepare.replicaId prepare
      }.Certified members := by
  have hbase := certified_instanceAt h prepare.sequence
  constructor
  · intro id p hlookup
    rcases Table.lookup_insert_cases hlookup with ⟨rfl, -⟩ | ⟨-, hold⟩
    · exact hmember
    · exact hbase.member id p hold
  · intro pp hpp id p hlookup
    rcases Table.lookup_insert_cases hlookup with ⟨-, rfl⟩ | ⟨-, hold⟩
    · exact (hp.digest pp hpp).symm
    · exact hbase.digest pp hpp id p hold

/-- **A section that counts clean votes keeps the log certified.** -/
theorem Transition.certified (ht : Transition st now sec out)
    (h : ∀ s inst, st.log.lookup s = some inst → inst.Certified st.replicas.ids)
    (hmember : st.nodeId ∈ st.replicas.ids) (hclean : st.CleanVotes sec) :
    ∀ s inst, out.state.log.lookup s = some inst → inst.Certified out.state.replicas.ids := by
  intro s inst hlookup
  rw [ht.static.2.2.1]
  rcases ht.entry hlookup with hold | hwrite
  · exact h s inst hold
  cases hwrite with
  | propose request hp _ _ _ =>
      exact certified_recorded h (st.proposal (st.sequence + 1) request) hmember (hclean hp)
  | accept pp hp _ _ => exact certified_recorded h pp hmember (hclean hp)
  | storePrepare prepare hp _ => exact certified_stored h hp (hclean hp)
  | prepared s inst digest hl _ _ _ _ _ => exact ⟨(h s inst hl).member, (h s inst hl).digest⟩
  | storeCommit commit _ _ =>
      have hbase := certified_instanceAt h commit.sequence
      exact ⟨hbase.member, hbase.digest⟩
  | committed s inst hl _ _ _ _ => exact ⟨(h s inst hl).member, (h s inst hl).digest⟩

end

/-- Along a run that counts clean votes every entry is certified. -/
theorem certified_of_run {cluster : Cluster} {rules : Net → Event → Prop} {events : List Event}
    {net : Net} (h : Run (Net.Step rules) cluster.init events net)
    (hrules : ∀ {net e}, rules net e → e.node ∈ cluster.members ∧
      ∀ sec, (net e.node).sectionOf e.action = some sec → (net e.node).state.CleanVotes sec)
    (id : NodeId) (s : SequenceNumber) (inst : ConsensusInstance)
    (hlookup : (net id).state.log.lookup s = some inst) :
    inst.Certified cluster.replicas.ids := by
  have hrun := Net.run_at h id (fun r a => id ∈ cluster.replicas.ids ∧
    ∀ sec, r.sectionOf a = some sec → r.state.CleanVotes sec) (by
      rintro net e hrule rfl
      exact ⟨List.mem_toFinset.mp (hrules hrule).1, (hrules hrule).2⟩)
  have hinv := hrun.state_invariant (I := fun r => cluster.Hosts id r ∧
    ∀ s inst, r.state.log.lookup s = some inst → inst.Certified r.state.replicas.ids) (by
      refine ⟨cluster.hosts_init id, fun s inst h => absurd h ?_⟩
      simp [Cluster.init, Cluster.initState, Replica.new, PbftState.new]) (by
      rintro r a r' ⟨hhosts, hcertified⟩ ⟨⟨hmember, hclean⟩, hact⟩
      refine ⟨hhosts.act hact, Replica.keep (I := fun st _ => ∀ s inst,
        st.log.lookup s = some inst → inst.Certified st.replicas.ids) hact hcertified ?_⟩
      intro sec out hsec ht
      refine ht.certified hcertified ?_ (hclean sec hsec)
      rw [hhosts.nodeId, hhosts.replicas]
      exact hmember)
  rw [← hinv.1.replicas]
  exact hinv.2 s inst hlookup

/-! ### Certificates -/

section

variable {cluster : Cluster} {byzantine trusted : Finset NodeId} {net : Net}

/-- A quorum of members, the trusted ones of which have voted for the digest. -/
def Certificate (cluster : Cluster) (trusted : Finset NodeId) (net : Net) (s : SequenceNumber)
    (d : Hash) : Prop :=
  ∃ voters ⊆ cluster.members, cluster.config.quorum ≤ voters.card ∧
    ∀ id ∈ voters, id ∈ trusted → ∃ p ∈ votes (net id).issued, p.sequence = s ∧ p.digest = d

/-- **A prepared instance of a certified and authentic log is a certificate.** -/
theorem certificate_of_prepared (hhosts : ∀ id, cluster.Hosts id (net id))
    (hauth : Authentic trusted net) {id : NodeId} {s : SequenceNumber} {inst : ConsensusInstance}
    {d : Hash} (hlookup : (net id).state.log.lookup s = some inst)
    (hcertified : inst.Certified cluster.replicas.ids) (hprep : inst.isPrepared)
    (hdigest : inst.digest = some d) : Certificate cluster trusted net s d := by
  have hok := (hhosts id).sound.wellFormed.entry s inst hlookup
  obtain ⟨pp, hpp⟩ := hok.exists_prePrepare hprep
  have hd : pp.digest = d := Option.some.inj ((hok.digest pp hpp).symm.trans hdigest)
  refine ⟨inst.prepares.keys, ?_, ?_, ?_⟩
  · intro voter hvoter
    obtain ⟨p, hp⟩ := Table.exists_lookup_of_mem_keys hvoter
    exact List.mem_toFinset.mpr (hcertified.member voter p hp)
  · rw [← (hhosts id).config]
    exact hok.quorum hprep
  · intro voter hvoter htrusted
    obtain ⟨p, hp⟩ := Table.exists_lookup_of_mem_keys hvoter
    have hsigned := (hauth id s inst hlookup).prepare voter p hp htrusted
    obtain ⟨p', hp', -, hs, hd'⟩ := hsigned.vote (hhosts voter).sound.backed
    exact ⟨p', hp', hs.trans (hok.signer voter p hp).2,
      hd'.trans ((hcertified.digest pp hpp voter p hp).trans hd)⟩

theorem Certificate.mono {net' : Net} {s : SequenceNumber} {d : Hash}
    (h : Certificate cluster trusted net s d) (hsub : ∀ id, (net id).issued ⊆ (net' id).issued) :
    Certificate cluster trusted net' s d := by
  obtain ⟨voters, hvoters, hcard, hvotes⟩ := h
  refine ⟨voters, hvoters, hcard, fun id hid htrusted => ?_⟩
  obtain ⟨p, hp, heq⟩ := hvotes id hid htrusted
  exact ⟨p, mem_votes.mpr (hsub id (mem_votes.mp hp)), heq⟩

omit [Crypto] in
theorem quorum_eq {n f : Nat} (hn : n = 3 * f + 1) : (PbftConfig.new n).quorum = 2 * f + 1 := by
  subst hn
  unfold PbftConfig.quorum PbftConfig.new usizeSub
  rw [if_pos (by omega)]
  show 2 * ((3 * f + 1 - 1) / 3) + 1 = 2 * f + 1
  omega

/-- **Two certificates for one number agree** if no correct replica votes for two digests there. -/
theorem Certificate.agree {f : Nat} (hn : cluster.replicas.ids.length = 3 * f + 1)
    (hbyz : byzantine.card ≤ f) {s : SequenceNumber} {d d' : Hash}
    (h : Certificate cluster (cluster.members \ byzantine) net s d)
    (h' : Certificate cluster (cluster.members \ byzantine) net s d')
    (hunique : ∀ id ∈ cluster.members \ byzantine, ∀ p ∈ votes (net id).issued,
      ∀ p' ∈ votes (net id).issued, p.sequence = p'.sequence → p.digest = p'.digest) :
    d = d' := by
  obtain ⟨voters, hsub, hcard, hvotes⟩ := h
  obtain ⟨voters', hsub', hcard', hvotes'⟩ := h'
  have hquorum : cluster.config.quorum = 2 * f + 1 := quorum_eq hn
  have hmembers : cluster.members.card = 3 * f + 1 := by
    rw [Cluster.members, List.toFinset_card_of_nodup cluster.nodup, hn]
  obtain ⟨id, hid, hid', hcorrect⟩ :=
    Quorum.exists_correct_in_both byzantine hsub hsub' (by omega)
  have htrusted : id ∈ cluster.members \ byzantine :=
    Finset.mem_sdiff.mpr ⟨hsub hid, hcorrect⟩
  obtain ⟨p, hp, hs, hd⟩ := hvotes id hid htrusted
  obtain ⟨p', hp', hs', hd'⟩ := hvotes' id hid' htrusted
  rw [← hd, ← hd']
  exact hunique id htrusted p hp p' hp' (hs.trans hs'.symm)

end

end

end P2pPbft
