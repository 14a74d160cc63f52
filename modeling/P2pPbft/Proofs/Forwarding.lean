/-
Where a forwarded request ends up.

A replica that is not primary of its view sends a request on to the replica that is, in
its view; that one may be in another view and send it on again.  The replicas and the
primaries of their views are a system of pointers, and a new view turns one of them.

The replica that announces a new view never enters it: `handle_view_change` sends the
message to the others and leaves the own view as it is.  So among honest replicas only
the first primary is ever primary of the view it is in, and a replica entering a view may
close a circle.  `ForwardingRules` is the condition that it does not.
-/
import P2pPbft.Lib.Follows
import P2pPbft.Proofs.AllHonest
import P2pPbft.Proofs.ViewEntry

namespace P2pPbft

section

variable [Crypto]

/-- `handle_request` at the one node sends the request on to the other. -/
def Forwards (net : Net) (request : Request) (id target : NodeId) : Prop :=
  Send.outgoing (.sendTo target (.consensus (.request request)))
    ∈ ((net id).state.handleRequest request).sends

omit [Crypto] in
/-- The node is primary in its own view. -/
def Leads (net : Net) (id : NodeId) : Prop := (net id).state.isPrimary = true

/-- The nodes a request comes by, from the one it is handed to, until one does not forward it. -/
def ForwardingChain (net : Net) (request : Request) : NodeId → List NodeId → Prop :=
  Follows (Forwards net request) (Leads net)

omit [Crypto] in
/-- The primary of the view a node is in. -/
def primaryAt (net : Net) (id : NodeId) : NodeId := (net id).state.primary

/--
A node that enters a later view is not the first primary, and from the primary of the
view no chain of primaries leads to it.
-/
def ForwardingRules (cluster : Cluster) (net : Net) (e : Event) : Prop :=
  HonestRules cluster.members net e ∧
    ∀ nv, e.action.newView? = some nv → (net e.node).state.view < nv.newView →
      e.node ≠ cluster.replicas.primary 0 ∧ ∀ k < cluster.replicas.ids.length,
        (primaryAt net)^[k] (cluster.replicas.primary nv.newView) ≠ e.node

instance (cluster : Cluster) (net : Net) (e : Event) : Decidable (ForwardingRules cluster net e) :=
  inferInstanceAs (Decidable (HonestRules cluster.members net e ∧
    ∀ nv, e.action.newView? = some nv → (net e.node).state.view < nv.newView →
      e.node ≠ cluster.replicas.primary 0 ∧ ∀ k < cluster.replicas.ids.length,
        (primaryAt net)^[k] (cluster.replicas.primary nv.newView) ≠ e.node))

/-! ### The pointers -/

section

variable {cluster : Cluster} {net net' : Net} {request : Request} {id target : NodeId}
  {events : List Event} {e : Event}

omit [Crypto] in
theorem leads_iff (hhost : (net id).state.nodeId = id) : Leads net id ↔ primaryAt net id = id := by
  rw [Leads, PbftState.isPrimary, beq_iff_eq, hhost]
  rfl

/-- A node that does not lead forwards to the primary of its view, and only there. -/
theorem forwards_iff (hhost : (net id).state.nodeId = id) :
    Forwards net request id target ↔ primaryAt net id ≠ id ∧ target = primaryAt net id := by
  unfold Forwards
  by_cases hleads : Leads net id
  · have hnone : Send.outgoing (.sendTo target (.consensus (.request request)))
        ∉ ((net id).state.handleRequest request).sends := by
      intro hsend
      have hprimary := (leads_iff hhost).mp hleads
      unfold PbftState.handleRequest at hsend
      rw [if_neg (by rw [Leads] at hleads; rw [hleads]; exact Bool.noConfusion)] at hsend
      split at hsend
      · cases hsend
      simp only at hsend
      split at hsend
      · cases hsend
      · rcases List.mem_cons.mp hsend with heq | hsend
        · cases heq
        · cases List.mem_singleton.mp hsend
    exact ⟨fun hsend => absurd hsend hnone, fun h => absurd ((leads_iff hhost).mp hleads) h.1⟩
  · have hnot : (net id).state.isPrimary = false := by simpa [Leads] using hleads
    unfold PbftState.handleRequest
    rw [if_pos hnot, Outcome.proceed_sends, List.mem_singleton]
    rw [leads_iff hhost] at hleads
    constructor
    · intro heq
      cases heq
      exact ⟨hleads, rfl⟩
    · rintro ⟨-, rfl⟩
      rfl

theorem determined (hhosts : ∀ id, (net id).state.nodeId = id) :
    Follows.Determined (Forwards net request) (Leads net) where
  unique := by
    intro id target target' h h'
    rw [((forwards_iff (hhosts id)).mp h).2, ((forwards_iff (hhosts id)).mp h').2]
  final := by
    intro id target hleads h
    exact ((forwards_iff (hhosts id)).mp h).1 ((leads_iff (hhosts id)).mp hleads)

theorem forwards_of_view (request : Request) (hhosts : ∀ id, cluster.Hosts id (net id))
    (hhosts' : ∀ id, cluster.Hosts id (net' id))
    (hview : (net' id).state.view = (net id).state.view) :
    (∀ target, Forwards net' request id target ↔ Forwards net request id target) ∧
      (Leads net' id ↔ Leads net id) := by
  have hprimary : primaryAt net' id = primaryAt net id := by
    rw [primaryAt, primaryAt, PbftState.primary, PbftState.primary, (hhosts' id).replicas,
      (hhosts id).replicas, hview]
  rw [leads_iff (hhosts' id).nodeId, leads_iff (hhosts id).nodeId, hprimary]
  refine ⟨fun target => ?_, Iff.rfl⟩
  rw [forwards_iff (hhosts' id).nodeId, forwards_iff (hhosts id).nodeId, hprimary]

/-- Among honest replicas only the first primary leads, and only in the first view. -/
theorem view_of_leads (h : Run (Net.Step (HonestRules cluster.members)) cluster.init events net)
    (hleads : Leads net id) : (net id).state.view = 0 ∧ id = cluster.replicas.primary 0 := by
  have hhost := Cluster.hosts_of_run h id
  have hprimary : (net id).state.primary = id := (leads_iff hhost.nodeId).mp hleads
  have hview : (net id).state.view = 0 := by
    refine (firstPrimary_of_run h id).view.resolve_right fun hne => hne ?_
    rw [hprimary, hhost.nodeId]
  refine ⟨hview, ?_⟩
  rw [PbftState.primary, hhost.replicas, hview] at hprimary
  exact hprimary.symm

theorem Replica.view_of_newView {r r' : Replica} {a : Action} {nv : NewView}
    (h : r.act a = some r') (hnv : a.newView? = some nv) (hnew : r.state.view < nv.newView) :
    r'.state.view = nv.newView := by
  obtain ⟨now, rfl⟩ : ∃ now, a = .call (.processMessage (.newView nv)) now := by
    unfold Action.newView? Action.message? at hnv
    cases a with
    | resume index now => exact absurd hnv (by simp)
    | call call now =>
        cases call with
        | processMessage message => cases message <;> simp_all
        | _ => exact absurd hnv (by simp)
  obtain rfl := Option.some.inj h
  show (r.state.handleNewView now nv).state.view = nv.newView
  unfold PbftState.handleNewView
  rw [if_neg (UInt64.not_le.mpr hnew)]
  rfl

/-- A step turns the pointer of a replica that enters a later view, or none. -/
theorem redirects_of_step (request : Request)
    (h : Run (Net.Step (HonestRules cluster.members)) cluster.init events net)
    (hstep : Net.Step (HonestRules cluster.members) net e net') :
    (∀ id, (net' id).state.view = (net id).state.view) ∨
      ∃ nv, e.action.newView? = some nv ∧ (net e.node).state.view < nv.newView ∧
        (net' e.node).state.view = nv.newView ∧
        Follows.Redirects (Forwards net request) (Forwards net' request) (Leads net) (Leads net')
          e.node (cluster.replicas.primary nv.newView) := by
  have hhosts := Cluster.hosts_of_run h
  have hafter := Run.snoc h hstep
  have hhosts' := Cluster.hosts_of_run hafter
  have hothers : ∀ id, id ≠ e.node → (net' id).state.view = (net id).state.view := by
    intro id hne
    rw [Net.act_of_ne hstep.2 hne]
  have hsame : (net' e.node).state.view = (net e.node).state.view →
      ∀ id, (net' id).state.view = (net id).state.view := by
    intro hview id
    by_cases hid : id = e.node
    · rw [hid]
      exact hview
    · exact hothers id hid
  rcases Replica.act_cases (Net.act_self hstep.2) with ⟨-, hstate, -⟩ | ⟨sec, hsec, hstate, -⟩
  · exact Or.inl (hsame (by rw [hstate]))
  rcases (run_transition (net e.node).state e.action.now sec).view with
    hview | ⟨nv, rfl, hnew, hview⟩
  · exact Or.inl (hsame (by rw [hstate, hview]))
  have hview : (net' e.node).state.view = nv.newView := by rw [hstate, hview]
  have hdelivered := (hhosts e.node).sound.cascading.message_of_sectionOf hsec rfl
  refine Or.inr ⟨nv, by rw [Action.newView?, hdelivered], hnew, hview, ?_, ?_, ?_⟩
  · intro id target hne
    exact (forwards_of_view request hhosts hhosts' (hothers id hne)).1 target
  · intro id hne
    exact (forwards_of_view request hhosts hhosts' (hothers id hne)).2
  · have hprimary : primaryAt net' e.node = cluster.replicas.primary nv.newView := by
      rw [primaryAt, PbftState.primary, (hhosts' e.node).replicas, hview]
    rw [forwards_iff (hhosts' e.node).nodeId]
    refine ⟨fun hself => ?_, hprimary.symm⟩
    have hzero := (view_of_leads hafter ((leads_iff (hhosts' e.node).nodeId).mpr hself)).1
    rw [hview] at hzero
    rw [hzero] at hnew
    exact absurd hnew (UInt64.not_lt.mpr UInt64.zero_le)

theorem ForwardingChain.subset (hhosts : ∀ id, cluster.Hosts id (net id)) {path : List NodeId}
    (h : ForwardingChain net request id path) (hid : id ∈ cluster.members) :
    path ⊆ cluster.replicas.ids := by
  have hprimary : ∀ view, cluster.replicas.primary view ∈ cluster.replicas.ids :=
    fun view => List.get_mem _ _
  unfold ForwardingChain at h
  induction h with
  | arrive _ =>
      intro x hx
      obtain rfl := List.mem_singleton.mp hx
      exact List.mem_toFinset.mp hid
  | @step a b path hnext _ ih =>
      have hb : b ∈ cluster.members := by
        rw [((forwards_iff (hhosts a).nodeId).mp hnext).2, primaryAt, PbftState.primary,
          (hhosts a).replicas]
        exact List.mem_toFinset.mpr (hprimary _)
      exact List.cons_subset.mpr ⟨List.mem_toFinset.mp hid, ih hb⟩

theorem mem_chain_iff (hhosts : ∀ id, cluster.Hosts id (net id)) {path : List NodeId}
    (h : ForwardingChain net request id path) (hid : id ∈ cluster.members) {x : NodeId} :
    x ∈ path ↔ ∃ k < cluster.replicas.ids.length, (primaryAt net)^[k] id = x := by
  have hnext : ∀ a b, Forwards net request a b → primaryAt net a = b := fun a b hf =>
    ((forwards_iff (hhosts a).nodeId).mp hf).2.symm
  constructor
  · intro hx
    obtain ⟨k, hk, hiter⟩ := Follows.exists_iterate hnext h hx
    have hnodup := Follows.nodup (determined fun id => (hhosts id).nodeId) h
    have hle := (hnodup.subperm (h.subset hhosts hid)).length_le
    exact ⟨k, Nat.lt_of_lt_of_le hk hle, hiter⟩
  · rintro ⟨k, -, rfl⟩
    exact Follows.iterate_mem hnext (fun a ha => (leads_iff (hhosts a).nodeId).mp ha) h k

theorem exists_chain_init (cluster : Cluster) (request : Request) (id : NodeId) :
    ∃ path, ForwardingChain cluster.init request id path := by
  have hfirst : Leads cluster.init (cluster.replicas.primary 0) := beq_self_eq_true _
  by_cases hid : id = cluster.replicas.primary 0
  · exact ⟨_, Follows.arrive (hid ▸ hfirst)⟩
  · refine ⟨_, Follows.step ?_ (Follows.arrive hfirst)⟩
    exact (forwards_iff rfl).mpr ⟨Ne.symm hid, rfl⟩

/-- **Every chain ends**, in a run that keeps the forwarding rules. -/
theorem exists_chain_of_run (h : Run (Net.Step (ForwardingRules cluster)) cluster.init events net)
    (request : Request) : ∀ id, ∃ path, ForwardingChain net request id path := by
  refine h.invariant (I := fun _ net => ∀ id, ∃ path, ForwardingChain net request id path)
    (exists_chain_init cluster request) ?_
  intro cs t e u hr hchains hstep id
  have hr' : Run (Net.Step (HonestRules cluster.members)) cluster.init cs t :=
    hr.mono fun hstep => ⟨hstep.1.1, hstep.2⟩
  have hhosts := Cluster.hosts_of_run hr
  have hhosts' := Cluster.hosts_of_run (Run.snoc hr hstep)
  obtain ⟨path, hpath⟩ := hchains id
  rcases redirects_of_step request hr' ⟨hstep.1.1, hstep.2⟩ with
    hsame | ⟨nv, hnv, hnew, -, hturn⟩
  · refine ⟨path, hpath.mono (fun {a b} hf => ?_) fun {a} ha => ?_⟩
    · exact ((forwards_of_view request hhosts hhosts' (hsame a)).1 b).mpr hf
    · exact (forwards_of_view request hhosts hhosts' (hsame a)).2.mpr ha
  · obtain ⟨-, havoid⟩ := hstep.1.2 nv hnv hnew
    obtain ⟨path', hpath'⟩ := hchains (cluster.replicas.primary nv.newView)
    have hmember : cluster.replicas.primary nv.newView ∈ cluster.members :=
      List.mem_toFinset.mpr (List.get_mem _ _)
    refine hpath'.redirect hturn ?_ hpath
    rw [mem_chain_iff hhosts hpath' hmember]
    rintro ⟨k, hk, hiter⟩
    exact havoid k hk hiter

/--
**Request forwarding terminates.**  From whichever replica a request is handed to, it is
forwarded along replicas that are all different, up to one that is primary in its own
view, in every state reached by a run that keeps the forwarding rules.
-/
theorem forwarding_terminates
    (h : Run (Net.Step (ForwardingRules cluster)) cluster.init events net) (request : Request)
    (id : NodeId) :
    ∃ path, ForwardingChain net request id path ∧ path.Nodup ∧
      ∃ last ∈ path.getLast?, (net last).state.isPrimary = true := by
  obtain ⟨path, hpath⟩ := exists_chain_of_run h request id
  have hhosts := Cluster.hosts_of_run h
  exact ⟨path, hpath, Follows.nodup (determined fun id => (hhosts id).nodeId) hpath,
    Follows.exists_last hpath⟩

/-- **The rules are exact**: after a step that breaks them, the replica's chain has no end. -/
theorem not_forwards_of_broken
    (h : Run (Net.Step (HonestRules cluster.members)) cluster.init events net)
    (hchains : ∀ id, ∃ path, ForwardingChain net request id path)
    (hstep : Net.Step (HonestRules cluster.members) net e net')
    (hbroken : ¬ ForwardingRules cluster net e) :
    ¬ ∃ path, ForwardingChain net' request e.node path := by
  have hhosts := Cluster.hosts_of_run h
  have hafter := Run.snoc h hstep
  have hhosts' := Cluster.hosts_of_run hafter
  rintro ⟨path, hpath⟩
  refine hbroken ⟨hstep.1, fun nv hnv hnew => ?_⟩
  have hview := Replica.view_of_newView (Net.act_self hstep.2) hnv hnew
  rcases redirects_of_step request h hstep with hsame | ⟨nv', hnv', -, -, hturn⟩
  · rw [hsame] at hview
    rw [hview] at hnew
    exact absurd hnew (UInt64.lt_irrefl _)
  obtain rfl := Option.some.inj (hnv.symm.trans hnv')
  constructor
  · -- Nobody leads any more.
    intro hfirst
    obtain ⟨last, -, hleads⟩ := Follows.exists_last hpath
    obtain ⟨hzero, rfl⟩ := view_of_leads hafter hleads
    rw [← hfirst, hview] at hzero
    rw [hzero] at hnew
    exact absurd hnew (UInt64.not_lt.mpr UInt64.zero_le)
  · intro k hk hiter
    obtain ⟨path', hpath'⟩ := hchains (cluster.replicas.primary nv.newView)
    have hmember : cluster.replicas.primary nv.newView ∈ cluster.members :=
      List.mem_toFinset.mpr (List.get_mem _ _)
    refine Follows.not_of_leads_back hturn (determined fun id => (hhosts id).nodeId)
      (determined fun id => (hhosts' id).nodeId) hpath' ?_ hpath
    rw [mem_chain_iff hhosts hpath' hmember]
    exact ⟨k, hk, hiter⟩

end

end

namespace Sample

/-- The second of four honest nodes has announced view 1. -/
def secondAnnounces : List Event := [start 3, resume 3 0] ++ threeViewChanges

end Sample

open Sample in
/-- The third node enters view 1: it forwards to the second, and that one to the first. -/
theorem forwarding_terminates_third :
    ∃ net path, (net (node 2)).state.view = 1 ∧ ForwardingChain net (request 1) (node 2) path ∧
      path.Nodup := by
  obtain ⟨net, hrun, hview⟩ := Net.exists_run (ForwardingRules (cluster 3)) (cluster 3).init
    (secondAnnounces ++ [deliver 2 (.newView secondNewView)])
    (fun net => (net (node 2)).state.view = 1) (by decide +kernel)
  obtain ⟨path, hpath, hnodup, -⟩ := forwarding_terminates hrun (request 1) (node 2)
  exact ⟨net, path, hview, hpath, hnodup⟩

open Sample in
/--
**A request goes round in circles**: when the first of four honest nodes enters view 1,
whose primary has not entered it, they forward to each other.
-/
theorem forwarding_circles :
    ∃ net, Run (Net.Step (HonestRules (cluster 3).members)) (cluster 3).init
        (secondAnnounces ++ [deliver 0 (.newView secondNewView)]) net ∧
      ¬ ∃ path, ForwardingChain net (request 1) (node 0) path := by
  obtain ⟨net, hrun, hrule, hbroken, hact⟩ := Net.exists_run (ForwardingRules (cluster 3))
    (cluster 3).init secondAnnounces
    (fun net => HonestRules (cluster 3).members net (deliver 0 (.newView secondNewView)) ∧
      ¬ ForwardingRules (cluster 3) net (deliver 0 (.newView secondNewView)) ∧
      (net.act (deliver 0 (.newView secondNewView))).isSome) (by decide +kernel)
  obtain ⟨net', hnet'⟩ := Option.isSome_iff_exists.mp hact
  have hhonest : Run (Net.Step (HonestRules (cluster 3).members)) (cluster 3).init
      secondAnnounces net := hrun.mono fun hstep => ⟨hstep.1.1, hstep.2⟩
  exact ⟨net', Run.snoc hhonest ⟨hrule, hnet'⟩,
    not_forwards_of_broken hhonest (exists_chain_of_run hrun (request 1)) ⟨hrule, hnet'⟩ hbroken⟩

end P2pPbft
