/-
What a new primary does with a quorum of view changes.

The primary of a later view announces it when a view change message comes in and a quorum
is on file, this one included.  It does not enter the view it announces: only
`handle_new_view` moves a replica, and a broadcast does not come back to its sender.  So
the announcement is made again with every further message for the view.

And it is made for a message only.  `start_view_change` files the replica's own view
change too, but does not look at how many there are; if that was the one that was missing
nothing is announced.
-/
import P2pPbft.Proofs.ViewEntry

namespace P2pPbft

def Send.announced? : Send → Option ViewNumber
  | .outgoing (.broadcast (.consensus (.newView nv))) => some nv.newView
  | _ => none

/-- The views announced among the sends. -/
def announcedViews (sends : List Send) : List ViewNumber := sends.filterMap Send.announced?

theorem announcedViews_append (xs ys : List Send) :
    announcedViews (xs ++ ys) = announcedViews xs ++ announcedViews ys := List.filterMap_append

theorem mem_announcedViews {v : ViewNumber} {sends : List Send} :
    v ∈ announcedViews sends ↔ ∃ nv, Send.broadcast (.newView nv) ∈ sends ∧ nv.newView = v := by
  constructor
  · intro h
    obtain ⟨send, hsend, hv⟩ := List.mem_filterMap.mp h
    unfold Send.announced? at hv
    split at hv
    · exact ⟨_, hsend, Option.some.inj hv⟩
    · exact absurd hv (by simp)
  · rintro ⟨nv, hsend, rfl⟩
    exact List.mem_filterMap.mpr ⟨_, hsend, rfl⟩

namespace PbftState

/-- Who has asked for the view, as far as the replica has it on file. -/
def viewChangers (st : PbftState) (v : ViewNumber) : Finset NodeId :=
  ((st.viewChanges.lookup v).getD ∅).keys

/-- A quorum has asked for the view, which is a later one and the replica's own. -/
def Leads (st : PbftState) (v : ViewNumber) : Prop :=
  st.view < v ∧ st.replicas.primary v = st.nodeId ∧ st.config.quorum ≤ (st.viewChangers v).card

/-- With the view change on file a quorum has asked for its view, a later one and our own. -/
def Completes (st : PbftState) (viewChange : ViewChange) : Prop :=
  st.view < viewChange.newView ∧ st.replicas.primary viewChange.newView = st.nodeId ∧
    st.config.quorum ≤ (st.addViewChange viewChange).keys.card

instance (st : PbftState) (v : ViewNumber) : Decidable (st.Leads v) :=
  inferInstanceAs (Decidable (st.view < v ∧ st.replicas.primary v = st.nodeId ∧
    st.config.quorum ≤ (st.viewChangers v).card))

instance (st : PbftState) (viewChange : ViewChange) : Decidable (st.Completes viewChange) :=
  inferInstanceAs (Decidable (st.view < viewChange.newView ∧
    st.replicas.primary viewChange.newView = st.nodeId ∧
      st.config.quorum ≤ (st.addViewChange viewChange).keys.card))

variable {st : PbftState} {viewChange : ViewChange} {v : ViewNumber}

theorem keys_addViewChange (st : PbftState) (viewChange : ViewChange) :
    (st.addViewChange viewChange).keys
      = insert viewChange.replicaId (st.viewChangers viewChange.newView) :=
  Table.keys_insert ..

theorem viewChangers_countViewChange (st : PbftState) (viewChange : ViewChange) (v : ViewNumber) :
    (st.countViewChange viewChange).viewChangers v
      = if v = viewChange.newView then (st.addViewChange viewChange).keys
        else st.viewChangers v := by
  unfold countViewChange viewChangers
  rw [Table.lookup_insert_eq_if]
  by_cases h : v = viewChange.newView
  · rw [if_pos h, if_pos h, Option.getD_some]
  · rw [if_neg h, if_neg h]

/-- Counting a view change makes a difference for its view alone. -/
theorem leads_countViewChange (h : (st.countViewChange viewChange).Leads v) :
    st.Leads v ∨ v = viewChange.newView ∧ st.Completes viewChange := by
  obtain ⟨hnew, hprimary, hquorum⟩ := h
  rw [viewChangers_countViewChange] at hquorum
  by_cases hv : v = viewChange.newView
  · subst hv
    rw [if_pos rfl] at hquorum
    exact Or.inr ⟨rfl, hnew, hprimary, hquorum⟩
  · rw [if_neg hv] at hquorum
    exact Or.inl ⟨hnew, hprimary, hquorum⟩

theorem leads_enterView {now : Instant} {view : ViewNumber} (hnew : st.view < view)
    (h : (st.enterView now view).Leads v) : st.Leads v := by
  obtain ⟨hlater, hprimary, hquorum⟩ := h
  have hlater : view < v := hlater
  have hsame : (st.enterView now view).viewChangers v = st.viewChangers v := by
    unfold enterView viewChangers
    rw [Table.lookup_retain, if_pos (by simpa using hlater)]
  refine ⟨UInt64.lt_trans hnew hlater, hprimary, ?_⟩
  rw [hsame] at hquorum
  exact hquorum

/-- **Once a view is announced, any further message for it has it announced again.** -/
theorem Completes.again (h : st.Completes viewChange) {viewChange' : ViewChange}
    (hview : viewChange'.newView = viewChange.newView) :
    (st.countViewChange viewChange).Completes viewChange' := by
  obtain ⟨hnew, hprimary, hquorum⟩ := h
  refine ⟨hview ▸ hnew, hview ▸ hprimary, ?_⟩
  rw [keys_addViewChange, viewChangers_countViewChange, if_pos hview]
  exact hquorum.trans (Finset.card_le_card (Finset.subset_insert _ _))

end PbftState

section

variable [Crypto]

section

variable {st : PbftState} {now : Instant} {sec : Section} {out : Outcome} {viewChange : ViewChange}

theorem PbftState.handleViewChange_of_completes (h : st.Completes viewChange) :
    st.handleViewChange viewChange
      = .proceed (st.countViewChange viewChange)
          [.broadcast (.newView (st.ownNewView viewChange))] none := by
  obtain ⟨hnew, hprimary, hquorum⟩ := h
  unfold handleViewChange
  rw [if_neg (UInt64.not_le.mpr hnew)]
  simp only [hquorum, hprimary, and_self, if_true]
  rfl

theorem PbftState.handleViewChange_of_not (hnew : st.view < viewChange.newView)
    (h : ¬ st.Completes viewChange) :
    st.handleViewChange viewChange = .stop (st.countViewChange viewChange) .ok := by
  have hfew : ¬ (st.config.quorum ≤ (st.addViewChange viewChange).keys.card ∧
      st.replicas.primary viewChange.newView = st.nodeId) :=
    fun hboth => h ⟨hnew, hboth.2, hboth.1⟩
  unfold handleViewChange
  rw [if_neg (UInt64.not_le.mpr hnew)]
  simp only [hfew, if_false]
  rfl

/-- **A view is announced for the message that completes its quorum, and not entered.** -/
theorem Transition.announcesView (h : Transition st now sec out) {v : ViewNumber}
    (hv : v ∈ announcedViews out.sends) :
    ∃ viewChange, sec = .handleViewChange viewChange ∧ st.Completes viewChange ∧
      viewChange.newView = v := by
  cases h with
  | announceNewView viewChange hnew hquorum hprimary =>
      exact ⟨viewChange, rfl, ⟨hnew, hprimary, hquorum⟩, (List.mem_singleton.mp hv).symm⟩
  | _ => exact absurd hv (by simp [announcedViews, Send.announced?, Send.broadcast])

end

namespace Replica

/--
Whatever view the step announces, the replica is in it afterwards, as its primary and no
longer changing views, and has not announced it before.
-/
def JoinsOwnView (r : Replica) (a : Action) (r' : Replica) : Prop :=
  ∀ sec, r.sectionOf a = some sec → ∀ v ∈ announcedViews (sec.run r.state a.now).sends,
    r'.state.view = v ∧ r'.state.viewChanging = false ∧ r'.state.primary = r'.state.nodeId ∧
      v ∉ announcedViews r.issued

/-- The step hands the replica no view change with which it would have to announce a view. -/
def AnnouncesNone (r : Replica) (a : Action) : Prop :=
  ∀ viewChange, r.sectionOf a = some (.handleViewChange viewChange) →
    ¬ r.state.Completes viewChange

theorem joinsOwnView_iff {r r' : Replica} {a : Action} (hact : r.act a = some r') :
    r.JoinsOwnView a r' ↔ r.AnnouncesNone a := by
  constructor
  · intro hjoins viewChange hsec hcompletes
    have hrun := PbftState.handleViewChange_of_completes hcompletes
    have hsend : viewChange.newView ∈ announcedViews
        ((Section.handleViewChange viewChange).run r.state a.now).sends := by
      rw [Section.run, hrun]
      exact List.mem_singleton.mpr rfl
    obtain ⟨hview, -, -, -⟩ := hjoins _ hsec _ hsend
    -- The view is still the one before, and that is below the one announced.
    rw [(act_of_sectionOf hact hsec).1, Section.run, hrun] at hview
    have hsame : r.state.view = viewChange.newView := hview
    exact absurd hcompletes.1 (by rw [hsame]; exact UInt64.lt_irrefl _)
  · intro hnone sec hsec v hv
    obtain ⟨viewChange, rfl, hcompletes, -⟩ :=
      (run_transition r.state a.now sec).announcesView hv
    exact absurd hcompletes (hnone viewChange hsec)

/--
**No primary joins a view it announces.**  All announcements of a run are joined, and made
once, exactly if none is made: if no view change is handled that has a quorum on file for
a later view of the replica's own.
-/
theorem new_primary_joins_iff (st : PbftState) (as : List Action) (r : Replica) :
    Run (fun r a r' => r.act a = some r' ∧ r.JoinsOwnView a r') (new st) as r ↔
      Run (Next AnnouncesNone) (new st) as r := by
  constructor
  · intro h
    exact h.mono fun hstep => ⟨(joinsOwnView_iff hstep.1).mp hstep.2, hstep.1⟩
  · intro h
    exact h.mono fun hstep => ⟨hstep.2, (joinsOwnView_iff hstep.2).mpr hstep.1⟩

end Replica

/-! ### Quorums that are missed -/

/-- The sections that deal with views. -/
def Section.isAboutViews : Section → Bool
  | .handleViewChange _ => true
  | .handleNewView _ => true
  | .startViewChange => true
  | _ => false

theorem Transition.viewChanges_same {st : PbftState} {now : Instant} {sec : Section}
    {out : Outcome} (h : Transition st now sec out) (hsec : sec.isAboutViews = false) :
    out.state.view = st.view ∧ out.state.viewChanges = st.viewChanges := by
  cases h with
  | propose request h => simp [PbftState.proposed_eq, PbftState.setInstance]
  | accept pp h => simp [PbftState.record_eq, PbftState.setInstance]
  | countViewChange _ _ | announceNewView _ _ _ _ | enterView _ _ | startViewChange _ =>
      cases hsec
  | _ => exact ⟨rfl, rfl⟩

namespace PbftState

/-- The view change we are about to start is the one its quorum, for a view of our own, lacks. -/
def OwnVoteLast (st : PbftState) : Prop :=
  st.viewChanging = false ∧ st.Completes st.ownViewChange ∧ ¬ st.Leads (st.view + 1)

instance (st : PbftState) : Decidable st.OwnVoteLast :=
  inferInstanceAs (Decidable
    (st.viewChanging = false ∧ st.Completes st.ownViewChange ∧ ¬ st.Leads (st.view + 1)))

/-- Every view that is the replica's to announce is among those that were. -/
def Announced (st : PbftState) (issued : List Send) : Prop :=
  ∀ v, st.Leads v → v ∈ announcedViews issued

variable {st : PbftState} {issued : List Send} {now : Instant} {sec : Section}

omit [Crypto] in
theorem announced_new (nodeId : NodeId) (keypair : KeyPair) (replicas : Replicas)
    (config : PbftConfig) (now : Instant) :
    (PbftState.new nodeId keypair replicas config now).Announced [] := by
  rintro v ⟨-, -, hquorum⟩
  have hnone : ((PbftState.new nodeId keypair replicas config now).viewChangers v).card = 0 := rfl
  rw [hnone, PbftConfig.quorum] at hquorum
  omega

omit [Crypto] in
theorem Announced.congr (h : st.Announced issued) {st' : PbftState} (hview : st'.view = st.view)
    (hstatic : st'.nodeId = st.nodeId ∧ st'.keypair = st.keypair ∧ st'.replicas = st.replicas ∧
      st'.config = st.config) (hsame : st'.viewChanges = st.viewChanges) :
    st'.Announced issued := by
  intro v hv
  unfold Leads viewChangers at hv
  rw [hview, hstatic.1, hstatic.2.2.1, hstatic.2.2.2, hsame] at hv
  exact h v hv

omit [Crypto] in
theorem Announced.mono (h : st.Announced issued) (sends : List Send) :
    st.Announced (issued ++ sends) := by
  intro v hv
  rw [announcedViews_append]
  exact List.mem_append_left _ (h v hv)

/-- A view change that comes in is counted, and its view announced if that makes a quorum. -/
theorem Announced.handleViewChange (h : st.Announced issued) (viewChange : ViewChange) :
    (st.handleViewChange viewChange).state.Announced
      (issued ++ (st.handleViewChange viewChange).sends) := by
  by_cases hnew : st.view < viewChange.newView
  · by_cases hcompletes : st.Completes viewChange
    · rw [handleViewChange_of_completes hcompletes]
      intro v hv
      rw [announcedViews_append]
      rcases leads_countViewChange hv with hold | ⟨rfl, -⟩
      · exact List.mem_append_left _ (h v hold)
      · exact List.mem_append_right _ (List.mem_singleton.mpr rfl)
    · rw [handleViewChange_of_not hnew hcompletes]
      intro v hv
      rw [Outcome.stop_sends, List.append_nil]
      rcases leads_countViewChange hv with hold | ⟨-, hcompletes'⟩
      · exact h v hold
      · exact absurd hcompletes' hcompletes
  · unfold PbftState.handleViewChange
    rw [if_pos (UInt64.not_lt.mp hnew)]
    exact h.mono _

theorem Announced.startViewChange (h : st.Announced issued) (hlast : ¬ st.OwnVoteLast) :
    st.startViewChange.state.Announced (issued ++ st.startViewChange.sends) := by
  unfold PbftState.startViewChange
  by_cases hchanging : st.viewChanging = true
  · rw [if_pos hchanging]
    exact h.mono _
  · rw [if_neg hchanging]
    refine Announced.mono (fun v hv => ?_) _
    have hcount : (st.countViewChange st.ownViewChange).Leads v := hv
    rcases leads_countViewChange hcount with hold | ⟨rfl, hcompletes⟩
    · exact h v hold
    · refine h _ (by_contra fun hlead => hlast ⟨?_, hcompletes, hlead⟩)
      exact Bool.eq_false_iff.mpr hchanging

omit [Crypto] in
theorem Announced.handleNewView (h : st.Announced issued) (newView : NewView) :
    (st.handleNewView now newView).state.Announced
      (issued ++ (st.handleNewView now newView).sends) := by
  unfold PbftState.handleNewView
  by_cases hold : newView.newView ≤ st.view
  · rw [if_pos hold]
    exact h.mono _
  · rw [if_neg hold]
    exact Announced.mono (fun v hv => h v (leads_enterView (UInt64.not_le.mp hold) hv)) _

/-- **A section misses no quorum, except that `start_view_change` may complete one.** -/
theorem Announced.run (h : st.Announced issued) (hsec : sec = .startViewChange → ¬ st.OwnVoteLast) :
    (sec.run st now).state.Announced (issued ++ (sec.run st now).sends) := by
  have ht := run_transition st now sec
  cases sec with
  | handleViewChange viewChange => exact h.handleViewChange viewChange
  | startViewChange => exact h.startViewChange (hsec rfl)
  | handleNewView newView => exact h.handleNewView newView
  | _ =>
      obtain ⟨hview, hsame⟩ := ht.viewChanges_same rfl
      exact Announced.mono (h.congr hview ht.static hsame) _

end PbftState

namespace Replica

/-- No view change is started that is itself the last one of a quorum for a view of our own. -/
def OwnVoteNotLast (r : Replica) (a : Action) : Prop :=
  r.sectionOf a = some .startViewChange → ¬ r.state.OwnVoteLast

instance (r : Replica) (a : Action) : Decidable (r.OwnVoteNotLast a) :=
  inferInstanceAs (Decidable (r.sectionOf a = some .startViewChange → ¬ r.state.OwnVoteLast))

/--
**No quorum is missed.**  With no handler in progress, every later view that is the
replica's own and that a quorum has asked for has been broadcast, in every run in which
the replica does not start a view change that completes the quorum itself.
-/
theorem quorum_is_announced {nodeId : NodeId} {keypair : KeyPair} {replicas : Replicas}
    {config : PbftConfig} {now : Instant} {as : List Action} {r : Replica}
    (h : Run (Next OwnVoteNotLast) (new (PbftState.new nodeId keypair replicas config now)) as r)
    (hidle : r.tasks = []) {v : ViewNumber} (hlead : r.state.Leads v) :
    ∃ nv, nv.newView = v ∧ OutgoingMessage.broadcast (.consensus (.newView nv)) ∈ r.outgoing := by
  have hinv : r.Accounted ∧ r.state.Announced r.issued := by
    refine h.state_invariant (I := fun r => r.Accounted ∧ r.state.Announced r.issued)
      ⟨accounted_new _, PbftState.announced_new _ _ _ _ _⟩ ?_
    rintro t a u ⟨haccounted, hannounced⟩ ⟨hrule, hact⟩
    refine ⟨accounted_act hact haccounted, ?_⟩
    rcases act_cases hact with ⟨-, hstate, hissued⟩ | ⟨sec, hsec, hstate, hissued⟩
    · rw [hstate, hissued]
      exact hannounced
    · rw [hstate, hissued]
      exact hannounced.run fun heq => hrule (heq ▸ hsec)
  obtain ⟨nv, hsend, hv⟩ := mem_announcedViews.mp (hinv.2 v hlead)
  -- Nothing is pending, so what was issued was sent.
  have hmade := hinv.1.mem_iff.mp hsend
  rw [pending, hidle, List.flatMap_nil, List.append_nil] at hmade
  rcases List.mem_append.mp hmade with hout | hcommitted
  · obtain ⟨message, hmessage, heq⟩ := List.mem_map.mp hout
    obtain rfl := Send.outgoing.inj heq
    exact ⟨nv, hv, hmessage⟩
  · obtain ⟨request, -, heq⟩ := List.mem_map.mp hcommitted
    exact absurd heq (by simp [Send.broadcast])

end Replica

end

namespace Sample

/-- The view change of one of the nodes, delivered. -/
def toldOf (i : Fin 4) : Action :=
  .call (.processMessage (.viewChange (signer i).ownViewChange)) 0

/-- A node tells itself that it wants the next view. -/
def startsViewChange : Action := .call .startViewChange 0

end Sample

open Sample in
/--
**A primary stays where it is and announces its view twice**: the second node, when the
three others have asked for view 1 and one of them asks again.
-/
theorem Replica.new_primary_stays :
    (∃ r r', Run (Next fun _ _ => True) (new ((cluster 3).initState (node 1)))
        [toldOf 0, toldOf 2] r ∧ r.act (toldOf 3) = some r' ∧ r'.state.view = 0 ∧
        ¬ r.JoinsOwnView (toldOf 3) r') ∧
      ∃ r, Run (Next fun _ _ => True) (new ((cluster 3).initState (node 1)))
        [toldOf 0, toldOf 2, toldOf 3, toldOf 0] r ∧ announcedViews r.issued = [1, 1] := by
  constructor
  · obtain ⟨r, hrun, hsend, hact⟩ := exists_run (fun _ _ => True)
      (new ((cluster 3).initState (node 1))) [toldOf 0, toldOf 2]
      (fun r => 1 ∈ announcedViews
          ((Section.handleViewChange (signer 3).ownViewChange).run r.state 0).sends ∧
        (r.act (toldOf 3)).any fun r' => r'.state.view = 0) (by decide +kernel)
    obtain ⟨r', hr', hview⟩ := (Option.any_eq_true _ _).mp hact
    have hview := of_decide_eq_true hview
    refine ⟨r, r', hrun, hr', hview, fun hjoins => ?_⟩
    exact absurd (hview.symm.trans (hjoins _ rfl 1 hsend).1) (by decide)
  · exact exists_run _ _ _ _ (by decide +kernel)

open Sample in
/-- The second node asks for view 1 first, and announces it when two others have. -/
theorem Replica.quorum_is_announced_first :
    ∃ r : Replica, r.state.Leads 1 ∧
      ∃ nv, nv.newView = 1 ∧ OutgoingMessage.broadcast (.consensus (.newView nv)) ∈ r.outgoing := by
  obtain ⟨r, hrun, hidle, hlead⟩ := exists_run OwnVoteNotLast
    (new ((cluster 3).initState (node 1)))
    ([startsViewChange, toldOf 0, toldOf 2] ++ List.replicate 5 (.resume 0 0))
    (fun r => r.tasks = [] ∧ r.state.Leads 1) (by decide +kernel)
  exact ⟨r, hlead, quorum_is_announced hrun hidle hlead⟩

open Sample in
/--
**With the replica's own vote the last, the quorum is missed**: the same three ask for
view 1, its primary after the others.  Nothing is in progress, the view is the primary's
to announce, and it has not announced any.
-/
theorem Replica.quorum_is_missed :
    ∃ r, Run (Next fun _ _ => True) (new ((cluster 3).initState (node 1)))
        ([toldOf 0, toldOf 2, startsViewChange] ++ List.replicate 4 (.resume 0 0)) r ∧
      r.tasks = [] ∧ r.state.Leads 1 ∧
      ∀ nv, OutgoingMessage.broadcast (.consensus (.newView nv)) ∉ r.outgoing := by
  obtain ⟨r, hrun, hidle, hlead, hnone⟩ := exists_run (fun _ _ => True)
    (new ((cluster 3).initState (node 1)))
    ([toldOf 0, toldOf 2, startsViewChange] ++ List.replicate 4 (.resume 0 0))
    (fun r => r.tasks = [] ∧ r.state.Leads 1 ∧
      announcedViews (r.outgoing.map Send.outgoing) = []) (by decide +kernel)
  refine ⟨r, hrun, hidle, hlead, fun nv hnv => ?_⟩
  have hsent : nv.newView ∈ announcedViews (r.outgoing.map Send.outgoing) :=
    mem_announcedViews.mpr ⟨nv, List.mem_map_of_mem hnv, rfl⟩
  rw [hnone] at hsent
  exact absurd hsent (by simp)

end P2pPbft
