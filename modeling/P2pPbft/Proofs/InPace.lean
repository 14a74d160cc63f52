/-
On links that keep their order, requests are handed over in order.

The code commits every number on its own, and so it may commit the second before the
first.  What keeps the deployed program from doing that is its streams.  A replica goes
through a round of one number before it goes through that round of a later one; so
whoever has its vote for the later number has had its vote for the earlier one; so when
there is a quorum for the later number there is one for the earlier; and the handler that
completed that one has finished before the next message is taken.

The watermarks can break this.  A message ahead of the window is dropped, and so is a
pre-prepare behind it.  `KeepsPace` says that neither happens.
-/
import P2pPbft.Proofs.Rounds
import P2pPbft.Proofs.Window

namespace P2pPbft

/-- No message is ahead of the window, and the window gets ahead of no proposal. -/
def PbftState.KeepsPace [Crypto] (st : PbftState) : Section → Prop
  | .handleRequest request =>
    st.primary = st.nodeId → st.sequence + 1 ≤ st.highWatermark ∨ request.digest ∈ st.executed
  | .handlePrePrepare pp => st.lowWatermark < pp.sequence ∧ pp.sequence ≤ st.highWatermark
  | .handlePrepare p => p.sequence ≤ st.highWatermark
  | .handleCommit c => c.sequence ≤ st.highWatermark
  | .handleCheckpoint c => st.MakesStable c → (st.instanceAt c.sequence).prePrepare.isSome
  | _ => True

instance [Crypto] (st : PbftState) : (sec : Section) → Decidable (st.KeepsPace sec)
  | .handleRequest _ | .handlePrePrepare _ | .handlePrepare _ | .handleCommit _
  | .handleCheckpoint _ => by dsimp only [PbftState.KeepsPace]; infer_instance
  | .tryAdvanceToPrepared _ | .tryAdvanceToCommitted _ | .tryCheckpoint _ | .handleViewChange _
  | .handleNewView _ | .startViewChange | .checkTimeout => isTrue trivial

/-! ### The order in which a replica gets to the rounds -/

/-- Each round is gone through number by number, and for each number one round after the other. -/
structure Ascending (course : List (Round × SequenceNumber)) : Prop where
  rounds : ∀ round, round ≠ .checkpoint → ∀ t s, 0 < t → t < s →
    Precedes course (round, t) (round, s)
  commit : ∀ s, Precedes course (.prepare, s) (.commit, s)
  checkpoint : ∀ s, Precedes course (.commit, s) (.checkpoint, s)

namespace Ascending

variable {course told : List (Round × SequenceNumber)} {round : Round} {s t : SequenceNumber}

theorem nil : Ascending [] where
  rounds := fun _ _ _ _ _ _ => Precedes.of_notMem List.not_mem_nil
  commit := fun _ => Precedes.of_notMem List.not_mem_nil
  checkpoint := fun _ => Precedes.of_notMem List.not_mem_nil

theorem mem (h : Ascending course) (htold : told <+: course) (hround : round ≠ .checkpoint)
    (hs : (round, s) ∈ told) (h₀ : 0 < t) (ht : t ≤ s) : (round, t) ∈ told := by
  rcases UInt64.lt_or_eq_of_le ht with hlt | rfl
  · exact h.rounds round hround t s h₀ hlt told htold hs
  · exact hs

theorem mem_of_checkpoint (h : Ascending course) (htold : told <+: course)
    (hs : (.checkpoint, s) ∈ told) (h₀ : 0 < t) (ht : t ≤ s) :
    (.prepare, t) ∈ told ∧ (.commit, t) ∈ told := by
  have hcommit := h.mem htold Round.noConfusion (h.checkpoint s told htold hs) h₀ ht
  exact ⟨h.commit t told htold hcommit, hcommit⟩

/-- **Going on in that order.** -/
theorem append (h : Ascending course) {rest : List (Round × SequenceNumber)}
    (hrounds : ∀ round, round ≠ .checkpoint → ∀ t s, 0 < t → t < s → (round, s) ∈ rest →
      (round, t) ∈ course)
    (hcommit : ∀ s, (.commit, s) ∈ rest → (.prepare, s) ∈ course)
    (hcheckpoint : ∀ s, (.checkpoint, s) ∈ rest → (.commit, s) ∈ course) :
    Ascending (course ++ rest) where
  rounds := fun round hne t s h₀ ht => (h.rounds round hne t s h₀ ht).append fun hs =>
    Or.inl (hrounds round hne t s h₀ ht hs)
  commit := fun s => (h.commit s).append fun hs => Or.inl (hcommit s hs)
  checkpoint := fun s => (h.checkpoint s).append fun hs => Or.inl (hcheckpoint s hs)

theorem of_front (h : Ascending course) (htold : told <+: course) : Ascending told where
  rounds := fun round hne t s h₀ ht front hfront =>
    h.rounds round hne t s h₀ ht front (hfront.trans htold)
  commit := fun s front hfront => h.commit s front (hfront.trans htold)
  checkpoint := fun s front hfront => h.checkpoint s front (hfront.trans htold)

end Ascending

/-! ### One replica -/

namespace Replica

/-- What holds of a replica on such links whatever the watermarks do. -/
structure OnLinks [Crypto] (cluster : Cluster) (ps : List PrePrepare) (id : NodeId) (r : Replica) :
    Prop extends cluster.Hosts id r where
  inTurn : r.InTurn
  attentive : r.Attentive
  tracked : r.state.Tracked
  committing : Committing r.state r.issued
  first : r.FirstView ps
  logged : Logged (· ∈ ps) r.state

variable [Crypto] {cluster : Cluster} {ps : List PrePrepare} {node id : NodeId} {r r' : Replica}
  {a : Action} {sec : Section} {s t : SequenceNumber}

theorem OnLinks.prepared_of_votes (h : r.OnLinks cluster ps node)
    (hpp : (r.state.instanceAt t).prePrepare.isSome)
    (hquorum : r.state.config.quorum ≤ (r.state.instanceAt t).prepares.keys.card) :
    (r.state.instanceAt t).isPrepared ∨
      ∃ task ∈ r.tasks, task.next = some (.tryAdvanceToPrepared t) := by
  have hactive := (h.tracked.instanceAt t).active hpp
  cases hphase : (r.state.instanceAt t).phase with
  | idle => exact absurd hphase hactive
  | prePrepared =>
      exact Or.inr (h.attentive _ (PbftState.due_of_instanceAt (.prepared hphase hquorum)))
  | prepared => exact Or.inl (Or.inl hphase)
  | committed => exact Or.inl (Or.inr hphase)

theorem OnLinks.committed_of_votes (h : r.OnLinks cluster ps node)
    (hprep : (r.state.instanceAt t).isPrepared)
    (hquorum : r.state.config.quorum ≤ (r.state.instanceAt t).commits.keys.card) :
    (r.state.instanceAt t).phase = .committed ∨
      ∃ task ∈ r.tasks, task.next = some (.tryAdvanceToCommitted t) := by
  rcases hprep with hphase | hphase
  · exact Or.inr (h.attentive _ (PbftState.due_of_instanceAt (.committed hphase hquorum)))
  · exact Or.inl hphase

omit [Crypto] in
theorem entry_ne (call : Call) (hsec : sec.isContinuation = true)
    (hstart : sec ≠ .startViewChange) : call.entry ≠ some sec := by
  intro hentry
  cases call with
  | processMessage message =>
      cases message <;> cases hentry <;> exact Bool.noConfusion hsec
  | startViewChange =>
      cases hentry
      exact hstart rfl
  | _ =>
      cases hentry
      exact Bool.noConfusion hsec

/-- The section of the cascade that runs is the only one there is to go on to. -/
theorem OnLinks.next_eq (h : r.OnLinks cluster ps node) (hsec : r.sectionOf a = some sec)
    (hlater : sec.isContinuation = true) (hstart : sec ≠ .startViewChange) {task : Task}
    (htask : task ∈ r.tasks) : task.next = some sec := by
  obtain ⟨task', htask', hnext⟩ := next_of_sectionOf hsec fun call => entry_ne call hlater hstart
  rw [h.inTurn.task_eq htask htask']
  exact hnext

/--
A replica that keeps pace, having been told the first part of the course of each node:
the log has what it was told, and what it has it was told.
-/
structure InPace (told : NodeId → List (Round × SequenceNumber)) (r : Replica) : Prop where
  own : told r.state.nodeId = course r.issued
  ascending : ∀ id, Ascending (told id)
  has : ∀ id round s, (round, s) ∈ told id → round ≠ .checkpoint → r.state.lowWatermark < s →
    r.state.Has id round s
  heard : ∀ id round s, r.state.Has id round s → (round, s) ∈ told id
  received : r.state.Received fun id c =>
    id ≠ r.state.nodeId ∧ (Round.checkpoint, c.sequence) ∈ told id
  prepares : ∀ s, (.proposal, s) ∈ told (r.state.replicas.primary 0) →
    (.prepare, s) ∈ course r.issued
  proposed : ∀ s, (.prepare, s) ∈ course r.issued →
    (.proposal, s) ∈ told (r.state.replicas.primary 0)
  first : r.state.nodeId = r.state.replicas.primary 0 →
    ∀ s, Precedes (course r.issued) (.proposal, s) (.prepare, s)
  due : ∀ s, (.checkpoint, s) ∈ course r.issued → s % r.state.config.checkpointInterval = 0
  low : ∀ s, 0 < s → s ≤ r.state.lowWatermark → (.commit, s) ∈ course r.issued
  checkpointing : ∀ task ∈ r.tasks, ∀ s, task.next = some (.tryCheckpoint s) →
    (.commit, s) ∈ course r.issued
  numbered : ∀ s, 0 < s → s ≤ r.state.sequence → (.proposal, s) ∈ course r.issued

namespace InPace

variable {told told' : NodeId → List (Round × SequenceNumber)} {round : Round}

omit [Crypto] in
/-- **What the log has for a number it has for every smaller one** above the low watermark. -/
theorem has_of_lt (h : r.InPace told) (hs : r.state.Has id round s) (hround : round ≠ .checkpoint)
    (hlow : r.state.lowWatermark < t) (ht : t ≤ s) : r.state.Has id round t := by
  refine h.has id round t ?_ hround hlow
  have hpos : 0 < t := UInt64.lt_of_le_of_lt (UInt64.zero_le) hlow
  exact (h.ascending id).mem (List.prefix_refl _) hround (h.heard id round s hs) hpos ht

omit [Crypto] in
theorem card_prepares_le (h : r.InPace told) (hlow : r.state.lowWatermark < t) (ht : t ≤ s) :
    (r.state.instanceAt s).prepares.keys.card ≤ (r.state.instanceAt t).prepares.keys.card := by
  refine Finset.card_le_card fun id hid => ?_
  have hs : r.state.Has id .prepare s := Finmap.mem_keys.mp hid
  exact Finmap.mem_keys.mpr (h.has_of_lt hs Round.noConfusion hlow ht)

omit [Crypto] in
theorem card_commits_le (h : r.InPace told) (hlow : r.state.lowWatermark < t) (ht : t ≤ s) :
    (r.state.instanceAt s).commits.keys.card ≤ (r.state.instanceAt t).commits.keys.card := by
  refine Finset.card_le_card fun id hid => ?_
  have hs : r.state.Has id .commit s := Finmap.mem_keys.mp hid
  exact Finmap.mem_keys.mpr (h.has_of_lt hs Round.noConfusion hlow ht)

omit [Crypto] in
theorem prePrepare_of_lt (h : r.InPace told) (hs : (r.state.instanceAt s).prePrepare.isSome)
    (hlow : r.state.lowWatermark < t) (ht : t ≤ s) :
    (r.state.instanceAt t).prePrepare.isSome := by
  have hhas : r.state.Has (r.state.replicas.primary 0) .proposal s := ⟨rfl, hs⟩
  exact (h.has_of_lt hhas Round.noConfusion hlow ht).2

/-- **A replica that is about to prepare a number has committed itself to all smaller ones.** -/
theorem commit_of_lt (h : r.InPace told) (hlinks : r.OnLinks cluster ps node)
    (hsec : r.sectionOf a = some (.tryAdvanceToPrepared s))
    (hpp : (r.state.instanceAt s).prePrepare.isSome)
    (hquorum : r.state.config.quorum ≤ (r.state.instanceAt s).prepares.keys.card)
    (h₀ : 0 < t) (ht : t < s) : (.commit, t) ∈ course r.issued := by
  by_cases hlow : t ≤ r.state.lowWatermark
  · exact h.low t h₀ hlow
  have habove := UInt64.not_le.mp hlow
  have hle := UInt64.le_of_lt ht
  rcases hlinks.prepared_of_votes (h.prePrepare_of_lt hpp habove hle)
      (hquorum.trans (h.card_prepares_le habove hle)) with hprep | ⟨task, htask, hnext⟩
  · exact mem_course_commit.mpr (hlinks.committing.instanceAt hprep)
  · -- The one handler in progress is busy with the later number.
    have hsame := hlinks.next_eq hsec rfl Section.noConfusion htask
    rw [hnext] at hsame
    cases hsame
    exact absurd ht (UInt64.lt_irrefl _)

omit [Crypto] in
theorem committedBelow_of_le {st : PbftState} {bound : Nat} (hbound : bound ≤ 2 ^ 64)
    (h : ∀ t : SequenceNumber, st.lowWatermark < t → t.toNat < bound →
      (st.instanceAt t).phase = .committed) : st.CommittedBelow bound := by
  intro t ht hlow
  have hval : (UInt64.ofNat t).toNat = t := UInt64.toNat_ofNat_of_lt' (show t < 2 ^ 64 by omega)
  refine h _ (UInt64.lt_iff_toNat_lt.mpr ?_) ?_
  · rw [hval]
    exact hlow
  · rw [hval]
    exact ht

/-- **Requests are handed over in order**: what is below is committed by then. -/
theorem committedBelow_of_handsOver (h : r.InPace told) (hlinks : r.OnLinks cluster ps node)
    (hsec : r.sectionOf a = some (.tryAdvanceToCommitted s)) (hover : r.state.HandsOver s) :
    r.state.CommittedBelow s.toNat := by
  obtain ⟨hphase, hquorum, -⟩ := hover
  have hok := hlinks.sound.wellFormed.instanceAt s
  obtain ⟨pp, hpp⟩ := hok.exists_prePrepare (Or.inl hphase)
  refine committedBelow_of_le s.toNat_lt.le fun t hlow ht => ?_
  have hle : t ≤ s := UInt64.le_iff_toNat_le.mpr ht.le
  have hother : ∀ sec, r.sectionOf a = some sec → ∀ task ∈ r.tasks, task.next = some sec :=
    fun sec hrun task htask => by
      obtain rfl := Option.some.inj (hsec.symm.trans hrun)
      exact hlinks.next_eq hsec rfl Section.noConfusion htask
  rcases hlinks.prepared_of_votes (h.prePrepare_of_lt (by rw [hpp]; rfl) hlow hle)
      ((hok.quorum (Or.inl hphase)).trans (h.card_prepares_le hlow hle)) with
    hprep | ⟨task, htask, hnext⟩
  · rcases hlinks.committed_of_votes hprep (hquorum.trans (h.card_commits_le hlow hle)) with
      hdone | ⟨task, htask, hnext⟩
    · exact hdone
    · have hsame := (hother _ hsec task htask).symm.trans hnext
      cases hsame
      omega
  · have hsame := (hother _ hsec task htask).symm.trans hnext
    cases hsame

omit [Crypto] in
theorem announced (h : r.InPace told) (hnew : r.state.stableCheckpoint < s)
    (hid : id ∈ r.state.checkpointers s) :
    id ≠ r.state.nodeId ∧ (Round.checkpoint, s) ∈ told id := by
  unfold PbftState.checkpointers at hid
  cases hreceived : r.state.checkpoints.lookup s with
  | none =>
      rw [hreceived] at hid
      exact absurd (Finmap.mem_keys.mp hid) Finmap.notMem_empty
  | some received =>
      rw [hreceived] at hid
      obtain ⟨c, hc⟩ := Table.exists_lookup_of_mem_keys hid
      obtain ⟨rfl, hsent⟩ := h.received s received hnew hreceived id c hc
      exact hsent

/-- **A stable checkpoint skips nothing**: those who announced it had voted for all below. -/
theorem committedBelow_of_stable (h : r.InPace told) (hlinks : r.OnLinks cluster ps node)
    {c : Checkpoint} (hidle : r.tasks = []) (hstable : r.state.MakesStable c)
    (hpp : (r.state.instanceAt c.sequence).prePrepare.isSome)
    (hvotes : ∀ t, 0 < t → t ≤ c.sequence →
      (.prepare, t) ∈ told c.replicaId ∧ (.commit, t) ∈ told c.replicaId) :
    r.state.CommittedBelow (c.sequence.toNat + 1) := by
  obtain ⟨hquorum, hnew⟩ := hstable
  refine committedBelow_of_le c.sequence.toNat_lt fun t hlow ht => ?_
  have hle : t ≤ c.sequence := UInt64.le_iff_toNat_le.mpr (Nat.lt_succ_iff.mp ht)
  have hpos : 0 < t := UInt64.lt_of_le_of_lt UInt64.zero_le hlow
  have hvoted : ∀ id ∈ (r.state.addCheckpoint c).keys,
      r.state.Has id .prepare t ∧ r.state.Has id .commit t := by
    intro id hid
    obtain ⟨hprepare, hcommit⟩ : (.prepare, t) ∈ told id ∧ (.commit, t) ∈ told id := by
      rw [PbftState.keys_addCheckpoint, Finset.mem_insert] at hid
      rcases hid with rfl | hid
      · exact hvotes t hpos hle
      · have hsent := h.announced hnew hid
        exact (h.ascending id).mem_of_checkpoint (List.prefix_refl _) hsent.2 hpos hle
    exact ⟨h.has id _ t hprepare Round.noConfusion hlow,
      h.has id _ t hcommit Round.noConfusion hlow⟩
  have hnone : ∀ sec, ¬ ∃ task ∈ r.tasks, task.next = some sec := by
    rintro sec ⟨task, htask, -⟩
    rw [hidle] at htask
    exact absurd htask List.not_mem_nil
  have hprep := (hlinks.prepared_of_votes (h.prePrepare_of_lt hpp hlow hle)
    (hquorum.trans (Finset.card_le_card fun id hid =>
      Finmap.mem_keys.mpr (hvoted id hid).1))).resolve_right (hnone _)
  exact (hlinks.committed_of_votes hprep (hquorum.trans (Finset.card_le_card fun id hid =>
    Finmap.mem_keys.mpr (hvoted id hid).2))).resolve_right (hnone _)

end InPace

/-- What one action adds to what the replica has been told. -/
structure Hears (ps : List PrePrepare) (told told' : NodeId → List (Round × SequenceNumber))
    (r : Replica) (a : Action) (r' : Replica) : Prop where
  grows : ∀ id, told id ⊆ told' id
  own : told' r.state.nodeId = course r'.issued
  ascending : ∀ id, id ≠ r.state.nodeId → Ascending (told' id)
  new : ∀ id round s, (round, s) ∈ told' id → (round, s) ∈ told id ∨ id = r.state.nodeId ∨
    ∃ message, a.message? = some message ∧ message.round? = some (round, s) ∧
      message.signer? = some id
  message : ∀ message, a.message? = some message → message.FirstView ps ∧ message.Verifies ∧
    ∀ round s id, message.round? = some (round, s) → message.signer? = some id →
      id ≠ r.state.nodeId ∧ (round, s) ∈ told' id

namespace InPace

variable {told told' : NodeId → List (Round × SequenceNumber)} {round : Round}
  {st : PbftState} {now : Instant} {out : Outcome}

theorem numbered_step (ht : Transition st now sec out) (hpace : st.KeepsPace sec)
    (hs : s ≤ out.state.sequence) : s ≤ st.sequence ∨ (.proposal, s) ∈ course out.sends := by
  rcases ht.sequence with hsame | ⟨request, rfl, hnext⟩
  · rw [hsame] at hs
    exact Or.inl hs
  rw [hnext] at hs
  cases ht with
  | propose request hp =>
      by_cases hlast : s = st.sequence + 1
      · subst hlast
        exact Or.inr List.mem_cons_self
      · exact Or.inl (by grind)
  | refuse request hprimary hfresh hhigh =>
      exact absurd (hpace hprimary) (not_or.mpr ⟨UInt64.not_le.mpr hhigh, hfresh⟩)
  | stay _ _ | forward _ _ =>
      rw [← hnext] at hs
      exact Or.inl hs

theorem own_cases (h : r.InPace told) (hears : Hears ps told told' r a r')
    (hmem : (round, s) ∈ told' r.state.nodeId) (hissued : r'.issued = r.issued ++ out.sends) :
    (round, s) ∈ told r.state.nodeId ∨ (round, s) ∈ course out.sends := by
  rw [hears.own, hissued, course_append, ← h.own] at hmem
  exact List.mem_append.mp hmem

/-- **What it is told the log has**, whatever section runs. -/
theorem has_step (h : r.InPace told) (hlinks : r.OnLinks cluster ps node)
    (hordering : FirstOrdering cluster ps) (hears : Hears ps told told' r a r')
    (hsec : r.sectionOf a = some sec) (hpace : r.state.KeepsPace sec)
    (hissued : r'.issued = r.issued ++ (sec.run r.state a.now).sends)
    (hmem : (round, s) ∈ told' id) (hround : round ≠ .checkpoint)
    (hlow : (sec.run r.state a.now).state.lowWatermark < s) :
    (sec.run r.state a.now).state.Has id round s := by
  have ht := run_transition r.state a.now sec
  have hbefore : r.state.lowWatermark < s :=
    UInt64.lt_of_le_of_lt (hlinks.sound.wellFormed.low_le ht) hlow
  have hold : (round, s) ∈ told id → (sec.run r.state a.now).state.Has id round s :=
    fun hmem => ht.has_kept (h.has id round s hmem hround hbefore) hlow
  rcases hears.new id round s hmem with hmem | rfl | ⟨message, hmessage, hmarks, hsigner⟩
  · exact hold hmem
  · rcases h.own_cases hears hmem hissued with hmem | hnew
    · exact hold hmem
    · exact (ht.marks hlinks.first.state.view hnew).2 hround
  · obtain ⟨hfirst, hverifies, -⟩ := hears.message message hmessage
    obtain ⟨sec', hsec', hof⟩ := sectionOf_of_round hmessage hmarks
    obtain rfl := Option.some.inj (hsec.symm.trans hsec')
    refine hlinks.first.state.has_of_message hlinks.sound.wellFormed hlinks.replicas hlinks.logged
      hordering hof hfirst hverifies hsigner hmarks hround hbefore ?_
    cases sec with
    | handlePrePrepare pp =>
        cases hof
        cases hmarks
        exact hpace.2
    | handlePrepare _ | handleCommit _ =>
        cases hof
        cases hmarks
        exact hpace
    | handleCheckpoint _ =>
        cases hof
        cases hmarks
        exact absurd rfl hround
    | handleViewChange _ | handleNewView _ =>
        cases hof
        cases hmarks
    | _ => cases hof

theorem heard_step (h : r.InPace told) (hlinks : r.OnLinks cluster ps node)
    (hears : Hears ps told told' r a r') (hsec : r.sectionOf a = some sec)
    (hissued : r'.issued = r.issued ++ (sec.run r.state a.now).sends)
    (hhas : (sec.run r.state a.now).state.Has id round s) : (round, s) ∈ told' id := by
  have ht := run_transition r.state a.now sec
  rcases ht.has_cases hlinks.first.state.view hhas with hold | ⟨rfl, hnew⟩ |
    ⟨message, hof, hsigner, hmarks⟩
  · exact hears.grows id (h.heard id round s hold)
  · rw [hears.own, hissued, course_append]
    exact List.mem_append_right _ hnew
  · have hmessage := hlinks.sound.cascading.message_of_sectionOf hsec hof
    exact ((hears.message message hmessage).2.2 round s id hmarks hsigner).2

/-- **Every proposal it is told of it has voted for.** -/
theorem prepares_step (h : r.InPace told) (hlinks : r.OnLinks cluster ps node)
    (hordering : FirstOrdering cluster ps) (hears : Hears ps told told' r a r')
    (hsec : r.sectionOf a = some sec) (hpace : r.state.KeepsPace sec)
    (hissued : r'.issued = r.issued ++ (sec.run r.state a.now).sends)
    (hmem : (.proposal, s) ∈ told' (r.state.replicas.primary 0)) :
    (.prepare, s) ∈ course r'.issued := by
  have ht := run_transition r.state a.now sec
  rw [hissued, course_append]
  have hold : (.proposal, s) ∈ told (r.state.replicas.primary 0) →
      (.prepare, s) ∈ course r.issued ++ course (sec.run r.state a.now).sends :=
    fun hmem => List.mem_append_left _ (h.prepares s hmem)
  rcases hears.new _ _ s hmem with hmem | hself | ⟨message, hmessage, hmarks, hsigner⟩
  · exact hold hmem
  · rw [hself] at hmem hold
    rcases h.own_cases hears hmem hissued with hmem | hnew
    · exact hold hmem
    · -- A primary votes for what it proposes at once.
      cases (ht.marks hlinks.first.state.view hnew).1 with
      | proposal request hp =>
          refine List.mem_append_right _ ?_
          rw [Section.run, PbftState.handleRequest_of_proposes hp]
          exact List.mem_cons_of_mem _ List.mem_cons_self
  · obtain ⟨sec', hsec', hof⟩ := sectionOf_of_round hmessage hmarks
    obtain rfl := Option.some.inj (hsec.symm.trans hsec')
    have hlow : (sec.run r.state a.now).state.lowWatermark < s := by
      rcases ht.window with ⟨hlow, -, -⟩ | ⟨c, rfl, -⟩
      · rw [hlow]
        cases sec with
        | handlePrePrepare pp =>
            cases hof
            cases hmarks
            exact hpace.1
        | handlePrepare _ | handleCommit _ | handleCheckpoint _ | handleViewChange _
        | handleNewView _ =>
            cases hof
            cases hmarks
        | _ => cases hof
      · cases hof
        cases hmarks
    have hhas := h.has_step hlinks hordering hears hsec hpace hissued hmem Round.noConfusion hlow
    rcases ht.prepare_of_prePrepare hhas.2 with hsome | hnew
    · exact hold (h.heard _ .proposal s ⟨rfl, hsome⟩)
    · exact List.mem_append_right _ hnew

/-- What is below a number is committed when the number becomes stable. -/
theorem committedBelow_of_checkpoint (h : r.InPace told) (hlinks : r.OnLinks cluster ps node)
    (hears : Hears ps told told' r a r') (hturn : r.TakesTurns a) {c : Checkpoint}
    (hsec : r.sectionOf a = some (.handleCheckpoint c))
    (hpace : r.state.KeepsPace (.handleCheckpoint c)) (hstable : r.state.MakesStable c) :
    r.state.CommittedBelow (c.sequence.toNat + 1) := by
  obtain ⟨call, now, rfl, hentry⟩ := hlinks.sound.cascading.call_of_sectionOf hsec rfl
  refine h.committedBelow_of_stable hlinks (hturn call now rfl) hstable (hpace hstable) ?_
  intro t h₀ ht
  have hmessage := hlinks.sound.cascading.message_of_sectionOf hsec rfl
  obtain ⟨hother, hsent⟩ :=
    (hears.message _ hmessage).2.2 .checkpoint c.sequence c.replicaId rfl rfl
  obtain ⟨hprepare, hcommit⟩ :=
    (hears.ascending _ hother).mem_of_checkpoint (List.prefix_refl _) hsent h₀ ht
  have hold : ∀ round, round ≠ .checkpoint → (round, t) ∈ told' c.replicaId →
      (round, t) ∈ told c.replicaId := by
    intro round hround hmem
    rcases hears.new _ _ t hmem with hmem | hself | ⟨message, hmessage', hmarks, -⟩
    · exact hmem
    · exact absurd hself hother
    · obtain rfl := Option.some.inj (hmessage.symm.trans hmessage')
      cases hmarks
      exact absurd rfl hround
  exact ⟨hold _ Round.noConfusion hprepare, hold _ Round.noConfusion hcommit⟩

/-- **What a replica issues goes on in the order of the numbers**, and of the rounds. -/
theorem ascending_step (h : r.InPace told) (hlinks : r.OnLinks cluster ps node)
    (hears : Hears ps told told' r a r') (hsec : r.sectionOf a = some sec) :
    Ascending (course r.issued ++ course (sec.run r.state a.now).sends) := by
  have ht := run_transition r.state a.now sec
  have hview := hlinks.first.state.view
  have hown := h.ascending r.state.nodeId
  rw [h.own] at hown
  refine hown.append ?_ ?_ ?_
  · intro round hround t s h₀ hlt hmem
    cases (ht.marks hview hmem).1 with
    | proposal request hp =>
        have hle : t ≤ r.state.sequence := by grind
        exact h.numbered t h₀ hle
    | proposalPrepare request hp =>
        have hle : t ≤ r.state.sequence := by grind
        have hprimary : r.state.nodeId = r.state.replicas.primary 0 := by
          rw [← hp.primary, PbftState.primary, hview]
        refine h.prepares t ?_
        rw [← hprimary, h.own]
        exact h.numbered t h₀ hle
    | prepare pp hp =>
        -- The primary had proposed all smaller numbers before.
        have hmessage := hlinks.sound.cascading.message_of_sectionOf hsec rfl
        have hprimary : pp.primaryId = r.state.replicas.primary 0 := by
          rw [hp.primary, PbftState.primary, hview]
        obtain ⟨hother, hsent⟩ := (hears.message _ hmessage).2.2 .proposal pp.sequence
          (r.state.replicas.primary 0) rfl (congrArg some hprimary)
        have hbefore := (hears.ascending _ hother).mem (List.prefix_refl _) Round.noConfusion hsent
          h₀ (UInt64.le_of_lt hlt)
        refine h.prepares t ?_
        rcases hears.new _ _ t hbefore with hold | hself | ⟨message, hmessage', hmarks, -⟩
        · exact hold
        · exact absurd hself hother
        · obtain rfl := Option.some.inj (hmessage.symm.trans hmessage')
          cases hmarks
          exact absurd hlt (UInt64.lt_irrefl _)
    | commit s inst hlookup hpp hphase hquorum =>
        rw [← PbftState.instanceAt_of_lookup hlookup] at hpp hquorum
        exact h.commit_of_lt hlinks hsec hpp hquorum h₀ hlt
    | checkpoint s hmod => exact absurd rfl hround
  · intro s hmem
    cases (ht.marks hview hmem).1 with
    | commit s inst hlookup hpp hphase hquorum =>
        rw [← h.own]
        refine h.heard r.state.nodeId .prepare s (PbftState.has_of_lookup hlookup ?_)
        have htracked := hlinks.tracked s inst hlookup
        exact Finmap.mem_keys.mp (htracked.ownPrepare (by rw [hphase]; exact Phase.noConfusion))
  · intro s hmem
    cases (ht.marks hview hmem).1 with
    | checkpoint s hmod =>
        obtain ⟨task, htask, hnext⟩ := next_of_sectionOf hsec fun call =>
          entry_ne call rfl Section.noConfusion
        exact h.checkpointing task htask s hnext

theorem proposed_step (h : r.InPace told) (hlinks : r.OnLinks cluster ps node)
    (hears : Hears ps told told' r a r') (hsec : r.sectionOf a = some sec)
    (hissued : r'.issued = r.issued ++ (sec.run r.state a.now).sends)
    (hmem : (.prepare, s) ∈ course r'.issued) :
    (.proposal, s) ∈ told' (r.state.replicas.primary 0) := by
  have ht := run_transition r.state a.now sec
  have hview := hlinks.first.state.view
  rw [hissued, course_append] at hmem
  rcases List.mem_append.mp hmem with hold | hnew
  · exact hears.grows _ (h.proposed s hold)
  cases (ht.marks hview hnew).1 with
  | proposalPrepare request hp =>
      have hprimary : r.state.nodeId = r.state.replicas.primary 0 := by
        rw [← hp.primary, PbftState.primary, hview]
      rw [← hprimary, hears.own, hissued, course_append, Section.run,
        PbftState.handleRequest_of_proposes hp]
      exact List.mem_append_right _ List.mem_cons_self
  | prepare pp hp =>
      have hmessage := hlinks.sound.cascading.message_of_sectionOf hsec rfl
      have hprimary : pp.primaryId = r.state.replicas.primary 0 := by
        rw [hp.primary, PbftState.primary, hview]
      exact ((hears.message _ hmessage).2.2 .proposal pp.sequence _ rfl
        (congrArg some hprimary)).2

theorem first_step (h : r.InPace told) (hlinks : r.OnLinks cluster ps node)
    (hears : Hears ps told told' r a r') (hsec : r.sectionOf a = some sec)
    (hprimary : r.state.nodeId = r.state.replicas.primary 0) (s : SequenceNumber) :
    Precedes (course r.issued ++ course (sec.run r.state a.now).sends)
      (.proposal, s) (.prepare, s) := by
  refine (h.first hprimary s).append fun hnew => ?_
  have ht := run_transition r.state a.now sec
  have hview := hlinks.first.state.view
  cases (ht.marks hview hnew).1 with
  | proposalPrepare request hp =>
      refine Or.inr ?_
      rw [Section.run, PbftState.handleRequest_of_proposes hp]
      exact Precedes.pair (by simp)
  | prepare pp hp =>
      -- The primary is not sent what it has proposed itself.
      have hmessage := hlinks.sound.cascading.message_of_sectionOf hsec rfl
      have hsigner : pp.primaryId = r.state.nodeId := by
        rw [hp.primary, PbftState.primary, hview, hprimary]
      exact absurd rfl ((hears.message _ hmessage).2.2 .proposal pp.sequence _ rfl
        (congrArg some hsigner)).1

/-- **Up to its stable checkpoint a replica has committed itself to everything.** -/
theorem low_step (h : r.InPace told) (hlinks : r.OnLinks cluster ps node)
    (hears : Hears ps told told' r a r') (hturn : r.TakesTurns a) (hsec : r.sectionOf a = some sec)
    (hpace : r.state.KeepsPace sec) (h₀ : 0 < s)
    (hs : s ≤ (sec.run r.state a.now).state.lowWatermark) : (.commit, s) ∈ course r.issued := by
  rcases (run_transition r.state a.now sec).window with
    ⟨hlow, -, -⟩ | ⟨c, rfl, hquorum, hnew, hst⟩
  · rw [hlow] at hs
    exact h.low s h₀ hs
  have hlow : (Section.run r.state a.now (.handleCheckpoint c)).state.lowWatermark
      = c.sequence := by
    rw [hst]
    rfl
  rw [hlow] at hs
  by_cases hbelow : s ≤ r.state.lowWatermark
  · exact h.low s h₀ hbelow
  have hcommitted := h.committedBelow_of_checkpoint hlinks hears hturn hsec hpace ⟨hquorum, hnew⟩
  have hphase := hcommitted s.toNat (Nat.lt_succ_of_le (UInt64.le_iff_toNat_le.mp hs))
    (UInt64.lt_iff_toNat_lt.mp (UInt64.not_le.mp hbelow))
  rw [UInt64.ofNat_toNat] at hphase
  exact mem_course_commit.mpr (hlinks.committing.instanceAt (Or.inr hphase))

theorem commit_of_next (hlinks : r.OnLinks cluster ps node) (ht : Transition r.state now sec out)
    (hnext : out.next = some (.tryCheckpoint s)) : (.commit, s) ∈ course r.issued := by
  cases ht with
  | executed s inst request hlookup hphase _ _ _ =>
      cases hnext
      exact mem_course_commit.mpr (hlinks.committing s inst hlookup (Or.inl hphase))
  | propose _ _ | accept _ _ | storePrepare _ _ | prepared _ _ _ _ _ _ _ _ | storeCommit _ _
  | timeout _ => cases hnext
  | _ => cases hnext

theorem mem_told_of_none (h : r.InPace told) (hears : Hears ps told told' r a r')
    (hsec : r.sectionOf a = none) (hissued : r'.issued = r.issued)
    (hmem : (round, s) ∈ told' id) : (round, s) ∈ told id := by
  rcases hears.new id round s hmem with hold | rfl | ⟨message, hmessage, hmarks, -⟩
  · exact hold
  · rw [hears.own, hissued, ← h.own] at hmem
    exact hmem
  · obtain ⟨sec, hsome, -⟩ := sectionOf_of_round hmessage hmarks
    exact absurd (hsec.symm.trans hsome) (by simp)

/-- **An action that keeps pace leaves a replica that does.** -/
theorem act (h : r.InPace told) (hlinks : r.OnLinks cluster ps node)
    (hordering : FirstOrdering cluster ps) (hears : Hears ps told told' r a r')
    (hact : r.act a = some r') (hturn : r.TakesTurns a)
    (hpace : ∀ sec, r.sectionOf a = some sec → r.state.KeepsPace sec) : r'.InPace told' := by
  have hgrow : course r.issued ⊆ course r'.issued := by
    rcases act_cases hact with ⟨-, -, hissued⟩ | ⟨sec, -, -, hissued⟩
    · rw [hissued]
      exact List.Subset.refl _
    · rw [hissued, course_append]
      exact List.subset_append_left _ _
  -- What is to run next was so before, or the section that was run has prepared it.
  have hcheckpointing : ∀ task ∈ r'.tasks, ∀ s, task.next = some (.tryCheckpoint s) →
      (.commit, s) ∈ course r'.issued := by
    intro task htask s hnext
    refine hgrow ?_
    rcases next_act hact htask hnext with ⟨task', htask', hnext'⟩ | ⟨sec, -, hnext'⟩
    · exact h.checkpointing task' htask' s hnext'
    · exact commit_of_next hlinks (run_transition r.state a.now sec) hnext'
  rcases act_cases hact with ⟨hsec, hstate, hissued⟩ | ⟨sec, hsec, hstate, hissued⟩
  · have hback : ∀ id round s, (round, s) ∈ told' id → (round, s) ∈ told id :=
      fun id round s hmem => h.mem_told_of_none hears hsec hissued hmem
    refine {
      own := ?_
      ascending := ?_
      has := ?_
      heard := ?_
      received := ?_
      prepares := ?_
      proposed := ?_
      first := ?_
      due := ?_
      low := ?_
      checkpointing := hcheckpointing
      numbered := ?_ }
    · rw [hstate]
      exact hears.own
    · intro id
      by_cases hself : id = r.state.nodeId
      · rw [hself, hears.own, hissued, ← h.own]
        exact h.ascending _
      · exact hears.ascending id hself
    · rw [hstate]
      exact fun id round s hmem => h.has id round s (hback id round s hmem)
    · rw [hstate]
      exact fun id round s hhas => hears.grows id (h.heard id round s hhas)
    · rw [hstate]
      exact h.received.mono fun id c hc => ⟨hc.1, hears.grows id hc.2⟩
    · rw [hstate, hissued]
      exact fun s hmem => h.prepares s (hback _ _ s hmem)
    · rw [hstate, hissued]
      exact fun s hmem => hears.grows _ (h.proposed s hmem)
    · rw [hstate, hissued]
      exact h.first
    · rw [hstate, hissued]
      exact h.due
    · rw [hstate, hissued]
      exact h.low
    · rw [hstate, hissued]
      exact h.numbered
  · have ht := run_transition r.state a.now sec
    have hpace := hpace sec hsec
    obtain ⟨hnode, -, hreplicas, hconfig⟩ := ht.static
    refine {
      own := ?_
      ascending := ?_
      has := ?_
      heard := ?_
      received := ?_
      prepares := ?_
      proposed := ?_
      first := ?_
      due := ?_
      low := ?_
      checkpointing := hcheckpointing
      numbered := ?_ }
    · rw [hstate, hnode]
      exact hears.own
    · intro id
      by_cases hself : id = r.state.nodeId
      · rw [hself, hears.own, hissued, course_append]
        exact h.ascending_step hlinks hears hsec
      · exact hears.ascending id hself
    · rw [hstate]
      exact fun id round s hmem hround hlow =>
        h.has_step hlinks hordering hears hsec hpace hissued hmem hround hlow
    · rw [hstate]
      exact fun id round s hhas => h.heard_step hlinks hears hsec hissued hhas
    · rw [hstate, hnode]
      refine (h.received.mono fun id c hc => ⟨hc.1, hears.grows id hc.2⟩).step ht fun c heq _ => ?_
      subst heq
      have hmessage := hlinks.sound.cascading.message_of_sectionOf hsec rfl
      exact (hears.message _ hmessage).2.2 .checkpoint c.sequence c.replicaId rfl rfl
    · rw [hstate, hreplicas]
      exact fun s hmem => h.prepares_step hlinks hordering hears hsec hpace hissued hmem
    · rw [hstate, hreplicas]
      exact fun s hmem => h.proposed_step hlinks hears hsec hissued hmem
    · rw [hstate, hnode, hreplicas, hissued, course_append]
      exact fun hprimary s => h.first_step hlinks hears hsec hprimary s
    · intro s hmem
      rw [hstate, hconfig]
      rw [hissued, course_append] at hmem
      rcases List.mem_append.mp hmem with hold | hnew
      · exact h.due s hold
      · cases (ht.marks hlinks.first.state.view hnew).1 with
        | checkpoint s hmod => exact hmod
    · rw [hstate]
      exact fun s h₀ hs => hgrow (h.low_step hlinks hears hturn hsec hpace h₀ hs)
    · intro s h₀ hs
      rw [hstate] at hs
      rcases numbered_step ht hpace hs with hold | hnew
      · exact hgrow (h.numbered s h₀ hold)
      · rw [hissued, course_append]
        exact List.mem_append_right _ hnew

end InPace

end Replica

end P2pPbft
