/-
What garbage collection rests on.

A stable checkpoint moves the window and drops the log up to it, at a replica that may
have committed nothing of what is dropped: it acts on what the others announce, and
there is no state transfer.  What it can rely on is that a quorum of the others have
committed the number of the checkpoint themselves.

That is what an announcement stands for among honest replicas: a checkpoint is announced
by the handler that has just committed the instance under its number.  If replicas also
commit in the order of the numbers, an announcement stands for all numbers up to its own,
except those an earlier checkpoint covers, and so does the low watermark.
-/
import P2pPbft.Proofs.Stability
import P2pPbft.Proofs.Order

namespace P2pPbft

section

variable [Crypto] {st : PbftState} {now : Instant} {sec : Section} {out : Outcome}

theorem Transition.checkpointed (h : Transition st now sec out) {s : SequenceNumber}
    (hnext : out.next = some (.tryCheckpoint s)) :
    sec = .tryAdvanceToCommitted s ∧ st.HandsOver s ∧
      (out.state.instanceAt s).phase = .committed := by
  cases h with
  | executed s' inst request hlookup hphase hquorum hrequest hfresh =>
      obtain rfl := Section.tryCheckpoint.inj (Option.some.inj hnext)
      refine ⟨rfl, ?_, ?_⟩
      · rw [PbftState.HandsOver, PbftState.instanceAt_of_lookup hlookup]
        exact ⟨hphase, hquorum, request, hrequest, hfresh⟩
      · have hwritten : (st.setInstance s' { inst with phase := .committed }).log.lookup s'
            = some { inst with phase := .committed } :=
          (PbftState.lookup_setInstance _ _ _ _).trans (if_pos rfl)
        exact congrArg ConsensusInstance.phase (PbftState.instanceAt_of_lookup hwritten)
  | propose _ _ | accept _ _ | storePrepare _ _ | prepared _ _ _ _ _ _ _ _ | storeCommit _ _
  | timeout _ => exact absurd (Option.some.inj hnext) (by simp)
  | _ => exact absurd hnext (by simp)

/-- The section commits an instance only when all below it are committed. -/
def PbftState.CommitsInOrder (st : PbftState) : Section → Prop
  | .tryAdvanceToCommitted s => st.HandsOver s → st.CommittedBelow s.toNat
  | _ => True

instance (st : PbftState) : (sec : Section) → Decidable (st.CommitsInOrder sec)
  | .tryAdvanceToCommitted _ => by dsimp only [PbftState.CommitsInOrder]; infer_instance
  | .handleRequest _ | .handlePrePrepare _ | .handlePrepare _ | .tryAdvanceToPrepared _
  | .handleCommit _ | .tryCheckpoint _ | .handleCheckpoint _ | .handleViewChange _
  | .handleNewView _ | .startViewChange | .checkTimeout => isTrue trivial

end

/-! ### One replica -/

namespace Replica

/-- All numbers announced, or about to be, have the property. -/
structure Announces (P : SequenceNumber → Prop) (r : Replica) : Prop where
  announced : ∀ c, Send.broadcast (.checkpoint c) ∈ r.issued → P c.sequence
  next : ∀ task ∈ r.tasks, ∀ s, task.next = some (.tryCheckpoint s) → P s

theorem announces_new (P : SequenceNumber → Prop) (st : PbftState) : (new st).Announces P :=
  ⟨fun _ h => absurd h (by simp [new]), fun _ h => absurd h (by simp [new])⟩

variable {P Q : SequenceNumber → Prop} {r r' : Replica} {a : Action}

theorem Announces.mono (h : r.Announces P) (hsub : ∀ s, P s → Q s) : r.Announces Q :=
  ⟨fun c hc => hsub _ (h.announced c hc), fun task htask s hs => hsub s (h.next task htask s hs)⟩

/-- **An action keeps it so** if what a section goes on to announce has the property. -/
theorem Announces.act [Crypto] (hr : r.Announces P) (h : r.act a = some r')
    (hnew : ∀ sec s, r.sectionOf a = some sec →
      (sec.run r.state a.now).next = some (.tryCheckpoint s) → P s) : r'.Announces P where
  announced := by
    intro c hc
    rcases act_cases h with ⟨-, -, hissued⟩ | ⟨sec, hsec, -, hissued⟩
    · rw [hissued] at hc
      exact hr.announced c hc
    rw [hissued] at hc
    rcases List.mem_append.mp hc with hold | hc
    · exact hr.announced c hold
    · obtain ⟨s, rfl, rfl⟩ := (run_transition r.state a.now sec).announces hc
      have hentry : ∀ call : Call, call.entry ≠ some (.tryCheckpoint s) := by
        intro call
        cases call with
        | processMessage message => cases message <;> simp [Call.entry]
        | _ => simp [Call.entry]
      obtain ⟨task, htask, hnext⟩ := next_of_sectionOf hsec hentry
      exact hr.next task htask s hnext
  next := by
    intro task htask s hnext
    rcases next_act h htask hnext with ⟨task', htask', hnext'⟩ | ⟨sec, hsec, hnext'⟩
    · exact hr.next task' htask' s hnext'
    · exact hnew sec s hsec hnext'

end Replica

/-! ### All replicas -/

section

variable [Crypto]

/--
The node has had the instance under the number committed, for a request that the first
primary has put there, and the digest of that request is among the executed ones.
-/
def HasCommitted (cluster : Cluster) (events : List Event) (net : Net) (id : NodeId)
    (s : SequenceNumber) : Prop :=
  ∃ pp ∈ proposals (net (cluster.replicas.primary 0)).issued, pp.sequence = s ∧
    pp.request.digest ∈ (net id).state.executed ∧
    ∃ before earlier, before <+: events ∧
      Run (Net.Step (HonestRules cluster.members)) cluster.init before earlier ∧
      ((earlier id).state.instanceAt s).phase = .committed ∧
      ((earlier id).state.instanceAt s).digest = some pp.request.digest

/-- A quorum of nodes have had it committed. -/
def CommittedByQuorum (cluster : Cluster) (events : List Event) (net : Net) (s : SequenceNumber) :
    Prop :=
  ∃ voters ⊆ cluster.members, cluster.config.quorum ≤ voters.card ∧
    ∀ voter ∈ voters, HasCommitted cluster events net voter s

/-- The node is a member that has broadcast a checkpoint with this number. -/
def Vouches (cluster : Cluster) (net : Net) (id : NodeId) (c : Checkpoint) : Prop :=
  id ∈ cluster.members ∧
    ∃ c', OutgoingMessage.broadcast (.consensus (.checkpoint c')) ∈ (net id).outgoing ∧
      c'.sequence = c.sequence

/-- All replicas are honest and commit in order. -/
def InOrderRules (cluster : Cluster) (net : Net) (e : Event) : Prop :=
  HonestRules cluster.members net e ∧ ∀ sec, (net e.node).sectionOf e.action = some sec →
    (net e.node).state.CommitsInOrder sec

instance (cluster : Cluster) (net : Net) (e : Event) : Decidable (InOrderRules cluster net e) :=
  inferInstanceAs (Decidable (HonestRules cluster.members net e ∧
    ∀ sec, (net e.node).sectionOf e.action = some sec → (net e.node).state.CommitsInOrder sec))

variable {cluster : Cluster} {events : List Event} {net net' : Net} {e : Event} {id : NodeId}
  {s : SequenceNumber}

theorem HasCommitted.act (h : HasCommitted cluster events net id s) (hact : net.act e = some net') :
    HasCommitted cluster (events ++ [e]) net' id s := by
  obtain ⟨pp, hpp, hs, hexecuted, before, earlier, hpre, hcommitted⟩ := h
  refine ⟨pp, mem_proposals.mpr (Net.issued_subset_act hact _ (mem_proposals.mp hpp)), hs, ?_,
    before, earlier, hpre.trans (List.prefix_append _ _), hcommitted⟩
  by_cases hid : id = e.node
  · subst hid
    exact Replica.keep (I := fun st _ => pp.request.digest ∈ st.executed) (Net.act_self hact)
      hexecuted fun _ ht => ht.executed_subset hexecuted
  · rw [Net.act_of_ne hact hid]
    exact hexecuted

theorem CommittedByQuorum.act (h : CommittedByQuorum cluster events net s)
    (hact : net.act e = some net') : CommittedByQuorum cluster (events ++ [e]) net' s := by
  obtain ⟨voters, hsub, hquorum, hvoters⟩ := h
  exact ⟨voters, hsub, hquorum, fun voter hvoter => (hvoters voter hvoter).act hact⟩

/-- **An instance that is committed now has been committed** for what the first primary ordered. -/
theorem hasCommitted_of_phase
    (h : Run (Net.Step (HonestRules cluster.members)) cluster.init events net)
    (hphase : ((net id).state.instanceAt s).phase = .committed) :
    HasCommitted cluster events net id s := by
  have hlookup := PbftState.lookup_of_isPrepared (Or.inr hphase)
  have hok := (Cluster.hosts_of_run h id).sound.wellFormed.entry s _ hlookup
  obtain ⟨pp, hpp⟩ := hok.exists_prePrepare (Or.inr hphase)
  refine ⟨pp, proposed_of_run h id s _ pp hlookup hpp, hok.sequence pp hpp,
    hok.executed hphase _ (hok.request pp hpp), events, net, List.prefix_refl _, h, hphase, ?_⟩
  rw [hok.requestDigest pp hpp]
  exact hok.digest pp hpp

/-- The instance a handler announces next has just been committed. -/
theorem hasCommitted_of_next
    (h : Run (Net.Step (HonestRules cluster.members)) cluster.init events net)
    (hstep : Net.Step (HonestRules cluster.members) net e net') {sec : Section}
    (hsec : (net e.node).sectionOf e.action = some sec)
    (hnext : (sec.run (net e.node).state e.action.now).next = some (.tryCheckpoint s)) :
    HasCommitted cluster (events ++ [e]) net' e.node s := by
  refine hasCommitted_of_phase (Run.snoc h hstep) ?_
  rw [(Replica.act_of_sectionOf (Net.act_self hstep.2) hsec).1]
  exact ((run_transition (net e.node).state e.action.now sec).checkpointed hnext).2.2

/-- **Honest replicas announce what they have committed.** -/
theorem announces_of_run (h : Run (Net.Step (HonestRules cluster.members)) cluster.init events net) :
    ∀ id, (net id).Announces (HasCommitted cluster events net id) := by
  refine h.invariant (I := fun events net => ∀ id,
    (net id).Announces (HasCommitted cluster events net id)) ?_ ?_
  · exact fun id => Replica.announces_new _ _
  · intro cs t e u hr hannounces hstep id
    have hkept := (hannounces id).mono fun s hs => hs.act hstep.2
    by_cases hid : id = e.node
    · subst hid
      exact hkept.act (Net.act_self hstep.2) fun sec s hsec hnext =>
        hasCommitted_of_next hr hstep hsec hnext
    · rw [Net.act_of_ne hstep.2 hid]
      exact hkept

theorem Vouches.act {c : Checkpoint} (h : Vouches cluster net id c) (hact : net.act e = some net') :
    Vouches cluster net' id c := by
  obtain ⟨hmember, c', hsent, hs⟩ := h
  refine ⟨hmember, c', ?_, hs⟩
  by_cases hid : id = e.node
  · subst hid
    exact Replica.outgoing_subset_act (Net.act_self hact) hsent
  · rw [Net.act_of_ne hact hid]
    exact hsent

theorem HonestRules.vouches (hhosts : ∀ id, cluster.Hosts id (net id))
    (hrule : HonestRules cluster.members net e) {c : Checkpoint}
    (hsec : (net e.node).sectionOf e.action = some (.handleCheckpoint c)) :
    Vouches cluster net c.replicaId c := by
  obtain ⟨sender, hmember, -, hsent⟩ := hrule.sent hhosts hsec rfl
  have hissued := (hhosts sender).sound.accounted.outgoing hsent
  obtain ⟨hsigner, -⟩ := (hhosts sender).sound.signs.broadcast (.checkpoint c) hissued _ rfl
  obtain rfl : c.replicaId = sender := hsigner.trans (hhosts sender).nodeId
  exact ⟨hmember, c, hsent, rfl⟩

/-- **Everybody who is counted has sent what is counted.** -/
theorem vouched_of_run (h : Run (Net.Step (HonestRules cluster.members)) cluster.init events net) :
    ∀ id, (net id).state.Received (Vouches cluster net) := by
  refine h.invariant (I := fun _ net => ∀ id, (net id).state.Received (Vouches cluster net))
    (fun id => received_new _ _ _ _ _ _) ?_
  intro cs t e u hr hreceived hstep
  have hmono : ∀ id c, Vouches cluster t id c → Vouches cluster u id c :=
    fun id c hvouches => hvouches.act hstep.2
  refine Net.keep (I := fun _ st _ => st.Received (Vouches cluster u)) hstep.2
    (fun id => (hreceived id).mono hmono) fun hsec ht _ => ?_
  refine ((hreceived e.node).mono hmono).step ht ?_
  rintro c rfl -
  exact hmono _ _ (hstep.1.vouches (Cluster.hosts_of_run hr) hsec)

/-- When a low watermark moves, a quorum have broadcast a checkpoint for the number it moves to. -/
theorem vouched_of_low (h : Run (Net.Step (HonestRules cluster.members)) cluster.init events net)
    (hstep : Net.Step (HonestRules cluster.members) net e net')
    (hset : (net' id).state.lowWatermark ≠ (net id).state.lowWatermark) :
    ∃ voters ⊆ cluster.members, cluster.config.quorum ≤ voters.card ∧ ∀ voter ∈ voters,
      ∃ c, OutgoingMessage.broadcast (.consensus (.checkpoint c)) ∈ (net voter).outgoing ∧
        c.sequence = (net' id).state.lowWatermark := by
  have hhosts := Cluster.hosts_of_run h
  have hlow := (hhosts id).sound.wellFormed.low
  have hlow' := (Cluster.hosts_of_run (Run.snoc h hstep) id).sound.wellFormed.low
  have hid : id = e.node := by
    by_contra hne
    rw [Net.act_of_ne hstep.2 hne] at hset
    exact hset rfl
  subst hid
  rw [hlow, hlow'] at hset
  rw [hlow', ← (hhosts e.node).config]
  rcases Replica.act_cases (Net.act_self hstep.2) with ⟨-, hstate, -⟩ | ⟨sec, hsec, hstate, -⟩
  · rw [hstate] at hset
    exact absurd rfl hset
  rw [hstate] at hset ⊢
  obtain ⟨voters, hquorum, hvoters⟩ := (vouched_of_run h e.node).quorum
    (run_transition (net e.node).state e.action.now sec)
    (by rintro c rfl -; exact hstep.1.vouches hhosts hsec) hset
  refine ⟨voters, fun voter hvoter => ?_, hquorum, fun voter hvoter => ?_⟩
  · obtain ⟨c, -, hmember, -⟩ := hvoters voter hvoter
    exact hmember
  · obtain ⟨c, hs, -, c', hsent, hs'⟩ := hvoters voter hvoter
    exact ⟨c', hsent, hs'.trans hs⟩

/-! ### In order -/

/-- The node or a quorum has committed every number up to this one. -/
def CommittedUpTo (cluster : Cluster) (events : List Event) (net : Net) (id : NodeId)
    (c : SequenceNumber) : Prop :=
  ∀ s, 0 < s → s ≤ c → HasCommitted cluster events net id s ∨ CommittedByQuorum cluster events net s

/-- What low watermarks and announcements stand for when replicas commit in order. -/
structure Collected (cluster : Cluster) (events : List Event) (net : Net) : Prop where
  low : ∀ id s, 0 < s → s ≤ (net id).state.lowWatermark → CommittedByQuorum cluster events net s
  announces : ∀ id, (net id).Announces (CommittedUpTo cluster events net id)

theorem CommittedUpTo.act {c : SequenceNumber} (h : CommittedUpTo cluster events net id c)
    (hact : net.act e = some net') : CommittedUpTo cluster (events ++ [e]) net' id c :=
  fun s h₀ hs => (h s h₀ hs).imp (·.act hact) (·.act hact)

theorem Collected.committedUpTo (h : Collected cluster events net)
    (hr : Run (Net.Step (HonestRules cluster.members)) cluster.init events net)
    (hstep : Net.Step (InOrderRules cluster) net e net') {sec : Section} {c : SequenceNumber}
    (hsec : (net e.node).sectionOf e.action = some sec)
    (hnext : (sec.run (net e.node).state e.action.now).next = some (.tryCheckpoint c)) :
    CommittedUpTo cluster (events ++ [e]) net' e.node c := by
  intro s h₀ hle
  by_cases hlast : s = c
  · subst hlast
    exact Or.inl (hasCommitted_of_next hr ⟨hstep.1.1, hstep.2⟩ hsec hnext)
  by_cases hlow : s ≤ (net e.node).state.lowWatermark
  · exact Or.inr ((h.low e.node s h₀ hlow).act hstep.2)
  obtain ⟨rfl, hover, -⟩ :=
    (run_transition (net e.node).state e.action.now sec).checkpointed hnext
  have hlt : s.toNat < c.toNat := by
    have hne : s.toNat ≠ c.toNat := fun heq => hlast (UInt64.toNat_inj.mp heq)
    rw [UInt64.le_iff_toNat_le] at hle
    omega
  rw [UInt64.le_iff_toNat_le, Nat.not_le] at hlow
  have hphase := hstep.1.2 _ hsec hover s.toNat hlt hlow
  rw [UInt64.ofNat_toNat] at hphase
  exact Or.inl ((hasCommitted_of_phase hr hphase).act hstep.2)

/-- When a low watermark moves, a quorum have committed every number up to the new one. -/
theorem Collected.low_step (h : Collected cluster events net)
    (hr : Run (Net.Step (HonestRules cluster.members)) cluster.init events net)
    (hstep : Net.Step (HonestRules cluster.members) net e net')
    (hset : (net' id).state.lowWatermark ≠ (net id).state.lowWatermark) (h₀ : 0 < s)
    (hle : s ≤ (net' id).state.lowWatermark) : CommittedByQuorum cluster events net s := by
  obtain ⟨voters, hsub, hquorum, hvoters⟩ := vouched_of_low hr hstep hset
  by_cases hdone : CommittedByQuorum cluster events net s
  · exact hdone
  · refine ⟨voters, hsub, hquorum, fun voter hvoter => ?_⟩
    obtain ⟨c, hsent, hc⟩ := hvoters voter hvoter
    have hissued := (Cluster.hosts_of_run hr voter).sound.accounted.outgoing hsent
    rw [← hc] at hle
    exact ((h.announces voter).announced c hissued s h₀ hle).resolve_right hdone

/-- **In every run that commits in order what is dropped has been committed.** -/
theorem collected_of_run (h : Run (Net.Step (InOrderRules cluster)) cluster.init events net) :
    Collected cluster events net := by
  refine h.invariant (I := Collected cluster) ⟨fun id s h₀ hle => ?_, fun id => ?_⟩ ?_
  · exact absurd (UInt64.lt_of_lt_of_le h₀ hle) (UInt64.lt_irrefl _)
  · exact Replica.announces_new _ _
  · intro cs t e u hr hcollected hstep
    have hr' : Run (Net.Step (HonestRules cluster.members)) cluster.init cs t :=
      hr.mono fun hstep => ⟨hstep.1.1, hstep.2⟩
    refine ⟨fun id s h₀ hle => ?_, fun id => ?_⟩
    · by_cases hsame : (u id).state.lowWatermark = (t id).state.lowWatermark
      · rw [hsame] at hle
        exact (hcollected.low id s h₀ hle).act hstep.2
      · exact (hcollected.low_step hr' ⟨hstep.1.1, hstep.2⟩ hsame h₀ hle).act hstep.2
    · have hkept := (hcollected.announces id).mono fun c hc => hc.act hstep.2
      by_cases hid : id = e.node
      · subst hid
        exact hkept.act (Net.act_self hstep.2) fun sec c hsec hnext =>
          hcollected.committedUpTo hr' hstep hsec hnext
      · rw [Net.act_of_ne hstep.2 hid]
        exact hkept

/--
**What a stable checkpoint covers has been committed by a quorum.**  Among honest replicas,
when a step moves the low watermark of one of them, a quorum have broadcast a checkpoint
for the new number before, and each of them has committed it, for the request the first
primary has put there; and if replicas commit in order, a quorum have committed every
number up to it.
-/
theorem stable_checkpoint_committed
    (h : Run (Net.Step (HonestRules cluster.members)) cluster.init events net)
    (hstep : Net.Step (HonestRules cluster.members) net e net')
    (hset : (net' id).state.lowWatermark ≠ (net id).state.lowWatermark) :
    (∃ voters ⊆ cluster.members, cluster.config.quorum ≤ voters.card ∧ ∀ voter ∈ voters,
        (∃ c, OutgoingMessage.broadcast (.consensus (.checkpoint c)) ∈ (net voter).outgoing ∧
          c.sequence = (net' id).state.lowWatermark) ∧
        HasCommitted cluster events net voter (net' id).state.lowWatermark) ∧
      (Run (Net.Step (InOrderRules cluster)) cluster.init events net →
        ∀ s, 0 < s → s ≤ (net' id).state.lowWatermark →
          CommittedByQuorum cluster events net s) := by
  refine ⟨?_, fun horder s h₀ hle => ?_⟩
  · obtain ⟨voters, hsub, hquorum, hvoters⟩ := vouched_of_low h hstep hset
    refine ⟨voters, hsub, hquorum, fun voter hvoter => ?_⟩
    obtain ⟨c, hsent, hc⟩ := hvoters voter hvoter
    have hissued := (Cluster.hosts_of_run h voter).sound.accounted.outgoing hsent
    exact ⟨⟨c, hsent, hc⟩, hc ▸ (announces_of_run h voter).announced c hissued⟩
  · exact (collected_of_run horder).low_step h hstep hset h₀ hle

end

namespace Sample

/-- Two nodes, announcing a checkpoint after every request. -/
def eagerPair : Cluster := { cluster 1 with checkpointInterval := 1 }

/-- The first node takes two requests, each on its own until a checkpoint is announced. -/
def firstExecutesTwo : List Event :=
  submit 0 (request 1) :: List.replicate 9 (resume 0 0) ++
    submit 0 (request 2) :: List.replicate 9 (resume 0 0)

/-- The checkpoint of the first node. -/
def firstCheckpoint (s : SequenceNumber) : ConsensusMessage :=
  .checkpoint ((eagerPair.initState (node 0)).ownCheckpoint s)

end Sample

open Sample in
/-- The second of two nodes moves its window past two requests by the first one's checkpoint. -/
theorem stable_checkpoint_committed_pair :
    ∃ net net' : Net, (net' (node 1)).state.lowWatermark = 2 ∧
      CommittedByQuorum eagerPair firstExecutesTwo net 2 ∧
      CommittedByQuorum eagerPair firstExecutesTwo net 1 := by
  obtain ⟨net, hrun, hold, hrule, hact⟩ := Net.exists_run (InOrderRules eagerPair)
    eagerPair.init firstExecutesTwo
    (fun net => (net (node 1)).state.lowWatermark = 0 ∧
      HonestRules eagerPair.members net (deliver 1 (firstCheckpoint 2)) ∧
      (net.act (deliver 1 (firstCheckpoint 2))).any fun net' =>
        (net' (node 1)).state.lowWatermark = 2) (by decide +kernel)
  obtain ⟨net', hnet', hnew⟩ := (Option.any_eq_true _ _).mp hact
  have hnew := of_decide_eq_true hnew
  have hset : (net' (node 1)).state.lowWatermark ≠ (net (node 1)).state.lowWatermark := by
    rw [hold, hnew]
    decide
  obtain ⟨⟨voters, hsub, hquorum, hvoters⟩, horder⟩ := stable_checkpoint_committed
    (hrun.mono fun hstep => ⟨hstep.1.1, hstep.2⟩) ⟨hrule, hnet'⟩ hset
  rw [hnew] at horder hvoters
  refine ⟨net, net', hnew, ⟨voters, hsub, hquorum, fun voter hvoter => ?_⟩, ?_⟩
  · exact (hvoters voter hvoter).2
  · exact horder hrun 1 (by decide) (by decide)

open Sample in
/--
**A replica's own progress does not matter**: the second of two nodes has got no request
at all when the first one's checkpoint moves its window past the first request.
-/
theorem collected_without_committing :
    ∃ net, Run (Net.Step (HonestRules eagerPair.members)) eagerPair.init
        (firstExecutesTwo ++ [deliver 1 (firstCheckpoint 2)]) net ∧
      (∃ pp ∈ proposals (net (node 0)).issued, pp.sequence = 1 ∧
        pp.sequence < (net (node 1)).state.lowWatermark ∧
        pp.request.digest ∉ (net (node 1)).state.executed) ∧
      (net (node 1)).issued = [] ∧ (net (node 1)).state.log = ∅ :=
  Net.exists_run _ _ _ _ (by decide +kernel)

end P2pPbft
