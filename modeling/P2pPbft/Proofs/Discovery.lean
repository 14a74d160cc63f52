/-
Peer discovery through a bootstrap node.

Nodes connect to one bootstrap node, each of them once, and to whomever its ack names.
An ack names the peers that the bootstrap node has stored by then, and a node is stored
only after its ack has been sent, so of two nodes at most one is told of the other: no
pair ever has two connections, and nothing that one of them does is undone
(`Proofs/PeerTable.lean`).

Nobody is told anything a second time.  Two nodes whose acks are both sent before either
is stored never hear of each other.
-/
import P2pPbft.Proofs.PeerTable

namespace P2pPbft

namespace Mesh

variable {addressing : Addressing} {bootstrap : NodeId} {mesh mesh' : Mesh} {event : Event}
  {conn : Connection} {node id : NodeId} {socket : Socket}

/-- Nodes connect to the bootstrap node, each of them once, and nothing fails. -/
def JoinRules (addressing : Addressing) (bootstrap : NodeId) (mesh : Mesh) : Event → Prop
  | .connectToPeer node address => node ≠ bootstrap ∧
      addressing.listener address = some bootstrap ∧
      ∀ c conn, mesh.connection c = some conn → conn.caller = .network → conn.dialer ≠ node
  | event => event.isFailure = false

theorem JoinRules.isFailure_eq_false (hrules : mesh.JoinRules addressing bootstrap event) :
    event.isFailure = false := by
  cases event with
  | connectToPeer => rfl
  | _ => exact hrules

/-- The bootstrap node answers a handshake only when everybody it has sent an ack is stored. -/
def AcksInTurn (bootstrap : NodeId) (mesh : Mesh) : Event → Prop
  | .sendAck c => ∀ conn, mesh.connection c = some conn → conn.listener = bootstrap →
      ∀ c' conn', mesh.connection c' = some conn' → conn'.listener = bootstrap →
        conn'.knownPeers ≠ none → conn'.stage .listener ≠ .handshake
  | _ => True

/-- A step of a mesh that nodes join through the bootstrap node. -/
def Joins (addressing : Addressing) (bootstrap : NodeId) (mesh : Mesh) (event : Event)
    (mesh' : Mesh) : Prop :=
  mesh.Acts addressing event mesh' ∧ mesh.JoinRules addressing bootstrap event

/-- The nodes that have called `connect_to_peer`. -/
def joiners (events : List Event) : List NodeId :=
  events.filterMap fun event => match event with
    | .connectToPeer node _ => some node
    | _ => none

/-- All handshakes are through, and everything has been discovered that will be. -/
def Finished (mesh : Mesh) : Prop :=
  ∀ c conn, mesh.connection c = some conn →
    conn.toDiscover = ∅ ∧ ∀ side, conn.stage side ≠ .handshake

/-- The ack to one node names the other. -/
def Names (mesh : Mesh) (node id : NodeId) : Prop :=
  ∃ c conn known address, mesh.connection c = some conn ∧ conn.caller = .network ∧
    conn.dialer = node ∧ conn.knownPeers = some known ∧ (id, address) ∈ known

theorem Names.step (hn : mesh.Names node id) (hstep : Step addressing mesh event mesh') :
    mesh'.Names node id := by
  obtain ⟨c, conn, known, address, hc, hcaller, rfl, hk, hmem⟩ := hn
  obtain ⟨conn', hc', hevolves⟩ := hstep.connection hc
  refine ⟨c, conn', known, address, hc', hevolves.caller.trans hcaller, hevolves.node .dialer,
    ?_, hmem⟩
  rcases hevolves.knownPeers_eq with hsame | ⟨-, -, hnone, -⟩
  · exact hsame.trans hk
  · rw [hk] at hnone
    cases hnone

/-- What holds all along while nodes join. -/
structure Joining (addressing : Addressing) (bootstrap : NodeId) (mesh : Mesh) : Prop where
  wired : mesh.Wired
  standing : mesh.Standing
  notClosed : ∀ c conn side, mesh.connection c = some conn → conn.stage side ≠ .closed
  network : ∀ c conn, mesh.connection c = some conn → conn.caller = .network →
    conn.listener = bootstrap ∧ conn.dialer ≠ bootstrap
  once : ∀ c c' conn conn', mesh.connection c = some conn → mesh.connection c' = some conn' →
    conn.caller = .network → conn'.caller = .network → conn.dialer = conn'.dialer → c = c'
  info : ∀ id handle, (mesh.peers bootstrap).lookup id = some handle →
    handle.info = ⟨id, addressing.address id⟩
  known : ∀ c conn known, mesh.connection c = some conn → conn.caller = .network →
    conn.knownPeers = some known →
    ∀ peer ∈ known, peer.2 = addressing.address peer.1 ∧ peer.1 ∈ mesh.peers bootstrap
  ordered : ∀ node id, mesh.Names node id → ¬ mesh.Names id node
  unanswered : ∀ c conn, mesh.connection c = some conn → conn.knownPeers = none →
    conn.stage .dialer = .handshake
  found : ∀ c conn, mesh.connection c = some conn → conn.caller = .handle →
    ∃ c₀ conn₀ known address, mesh.connection c₀ = some conn₀ ∧ conn₀.caller = .network ∧
      conn₀.dialer = conn.dialer ∧ conn₀.stage .dialer = .reading ∧
      conn₀.knownPeers = some known ∧ (conn.listener, address) ∈ known
  foundOnce : ∀ c c' conn conn', mesh.connection c = some conn → mesh.connection c' = some conn' →
    conn.caller = .handle → conn'.caller = .handle → conn.dialer = conn'.dialer →
    conn.listener = conn'.listener → c = c'
  pending : ∀ c conn peer, mesh.connection c = some conn → peer ∈ conn.toDiscover →
    conn.caller = .network ∧ conn.stage .dialer = .reading ∧
      (∃ known, conn.knownPeers = some known ∧ peer ∈ known) ∧
      ∀ c' conn', mesh.connection c' = some conn' → conn'.caller = .handle →
        conn'.dialer = conn.dialer → conn'.listener ≠ peer.1
  followed : ∀ c conn known peer, mesh.connection c = some conn → conn.caller = .network →
    conn.stage .dialer = .reading → conn.knownPeers = some known → peer ∈ known →
    peer ∈ conn.toDiscover ∨ ∃ c' conn', mesh.connection c' = some conn' ∧
      conn'.caller = .handle ∧ conn'.dialer = conn.dialer ∧ conn'.listener = peer.1

namespace Joining

variable (h : Joining addressing bootstrap mesh)
include h

/-! ### Where the connections lead -/

theorem names_of_found {c : Nat} (hc : mesh.connection c = some conn)
    (hcaller : conn.caller = .handle) : mesh.Names conn.dialer conn.listener := by
  obtain ⟨c₀, conn₀, known, address, hc₀, hcaller₀, hd, -, hk, hmem⟩ := h.found c conn hc hcaller
  exact ⟨c₀, conn₀, known, address, hc₀, hcaller₀, hd, hk, hmem⟩

theorem mem_of_names (hn : mesh.Names node id) : id ∈ mesh.peers bootstrap := by
  obtain ⟨c, conn, known, address, hc, hcaller, -, hk, hmem⟩ := hn
  exact (h.known c conn known hc hcaller hk _ hmem).2

theorem dialer_ne {c : Nat} (hc : mesh.connection c = some conn) : conn.dialer ≠ bootstrap := by
  cases hcaller : conn.caller with
  | network => exact (h.network c conn hc hcaller).2
  | handle =>
      obtain ⟨c₀, conn₀, -, -, hc₀, hcaller₀, hd, -⟩ := h.found c conn hc hcaller
      exact hd ▸ (h.network c₀ conn₀ hc₀ hcaller₀).2

theorem stored_bootstrap (hs : mesh.stored bootstrap id = some socket) :
    socket.side = .listener ∧ ∃ conn, mesh.connection socket.connection = some conn ∧
      conn.dialer = id ∧ conn.listener = bootstrap ∧ conn.stage .listener ≠ .handshake := by
  have hlive := h.wired.live hs
  obtain ⟨conn, hc, hn, hid⟩ := exists_connection_of_place hlive.1
  obtain ⟨c, side⟩ := socket
  cases side with
  | dialer => exact absurd hn (h.dialer_ne hc)
  | listener =>
      refine ⟨rfl, conn, hc, hid, hn, ?_⟩
      intro hstage
      have heq := stage_of_connection hc
      rcases hlive.2 with hs | hs <;> simp [hs, hstage] at heq

theorem not_mem_self : bootstrap ∉ mesh.peers bootstrap := by
  intro hmem
  obtain ⟨socket, hs⟩ := mem_peers_iff.mp hmem
  obtain ⟨-, conn, hc, hd, -⟩ := h.stored_bootstrap hs
  exact h.dialer_ne hc hd

theorem listener_ne {c : Nat} (hc : mesh.connection c = some conn)
    (hcaller : conn.caller = .handle) : conn.listener ≠ bootstrap := by
  intro hl
  exact h.not_mem_self (hl ▸ h.mem_of_names (h.names_of_found hc hcaller))

theorem eq_of_ends {c c' : Nat} {conn' : Connection} (hc : mesh.connection c = some conn)
    (hc' : mesh.connection c' = some conn') (hd : conn.dialer = conn'.dialer)
    (hl : conn.listener = conn'.listener) : c = c' := by
  cases hcaller : conn.caller with
  | network =>
      have hb := (h.network c conn hc hcaller).1
      cases hcaller' : conn'.caller with
      | network => exact h.once c c' conn conn' hc hc' hcaller hcaller' hd
      | handle => exact absurd (hl.symm.trans hb) (h.listener_ne hc' hcaller')
  | handle =>
      cases hcaller' : conn'.caller with
      | network =>
          have hb := (h.network c' conn' hc' hcaller').1
          exact absurd (hl.trans hb) (h.listener_ne hc hcaller)
      | handle => exact h.foundOnce c c' conn conn' hc hc' hcaller hcaller' hd hl

theorem not_reversed {c c' : Nat} {conn' : Connection} (hc : mesh.connection c = some conn)
    (hc' : mesh.connection c' = some conn') (hd : conn.dialer = conn'.listener)
    (hl : conn.listener = conn'.dialer) : False := by
  cases hcaller : conn.caller with
  | network => exact h.dialer_ne hc' (hl.symm.trans (h.network c conn hc hcaller).1)
  | handle =>
      cases hcaller' : conn'.caller with
      | network => exact h.dialer_ne hc (hd.trans (h.network c' conn' hc' hcaller').1)
      | handle =>
          have hnames := h.names_of_found hc hcaller
          have hnames' := h.names_of_found hc' hcaller'
          rw [← hd, ← hl] at hnames'
          exact h.ordered _ _ hnames hnames'

theorem place_unique {socket' : Socket} (hp : mesh.place socket = some (node, id))
    (hp' : mesh.place socket' = some (node, id)) : socket = socket' := by
  obtain ⟨conn, hc, hn, hid⟩ := exists_connection_of_place hp
  obtain ⟨conn', hc', hn', hid'⟩ := exists_connection_of_place hp'
  obtain ⟨c, side⟩ := socket
  obtain ⟨c', side'⟩ := socket'
  cases side with
  | dialer =>
      cases side' with
      | dialer =>
          obtain rfl := h.eq_of_ends hc hc' (hn.trans hn'.symm) (hid.trans hid'.symm)
          rfl
      | listener => exact (h.not_reversed hc hc' (hn.trans hn'.symm) (hid.trans hid'.symm)).elim
  | listener =>
      cases side' with
      | dialer => exact (h.not_reversed hc hc' (hid.trans hid'.symm) (hn.trans hn'.symm)).elim
      | listener =>
          obtain rfl := h.eq_of_ends hc hc' (hid.trans hid'.symm) (hn.trans hn'.symm)
          rfl

theorem storesOnce (hstep : Step addressing mesh event mesh') : mesh.StoresOnce event := by
  cases event with
  | storePeer socket =>
      rintro node id hplace other ⟨hplace', hstage⟩
      obtain rfl := h.place_unique hplace hplace'
      rw [hstep.storePeer_stage] at hstage
      simp at hstage
  | _ => trivial

/-- Who has been sent no ack, or is not stored after it, is in nobody's ack. -/
theorem not_mem_of_handshake {c : Nat} (hc : mesh.connection c = some conn)
    (hcaller : conn.caller = .network) (hstage : conn.stage .listener = .handshake) :
    conn.dialer ∉ mesh.peers bootstrap := by
  intro hmem
  obtain ⟨socket, hs⟩ := mem_peers_iff.mp hmem
  obtain ⟨hside, conn', hc', hd, hl, hstage'⟩ := h.stored_bootstrap hs
  have hplace := (h.wired.live hs).1
  have hplace' : mesh.place ⟨c, .listener⟩ = some (bootstrap, conn.dialer) := by
    rw [← (h.network c conn hc hcaller).1]
    exact place_mk hc .listener
  obtain rfl := h.place_unique hplace hplace'
  obtain rfl := Option.some.inj (hc.symm.trans hc')
  exact hstage' hstage

theorem stored_of_stage {c : Nat} (hc : mesh.connection c = some conn) {side : Side}
    (hstage : conn.stage side ≠ .handshake) :
    conn.stage side = .reading ∧
      mesh.stored (conn.node side) (conn.peer side) = some ⟨c, side⟩ := by
  rcases h.standing c conn hc with hclosed | ⟨-, hopen⟩
  · exact absurd (hclosed side) (h.notClosed c conn side hc)
  · exact (hopen side).2.resolve_left hstage

/-! ### What a step keeps -/

theorem mem_peers_step (hstep : Step addressing mesh event mesh') (hmem : id ∈ mesh.peers node) :
    id ∈ mesh'.peers node := by
  obtain ⟨socket, hs⟩ := mem_peers_iff.mp hmem
  have hlive := h.wired.live hs
  refine mem_peers_iff.mpr ⟨socket, h.standing.stored_step hstep (h.storesOnce hstep) ?_ hs⟩
  exact ⟨hlive.1, hlive.2.resolve_right h.standing.stage_ne_ended⟩

theorem stage_step (hrules : mesh.JoinRules addressing bootstrap event) {c : Nat}
    (hc : mesh.connection c = some conn) {conn' : Connection}
    (hevolves : Evolves mesh event c conn conn') (side : Side) :
    conn'.stage side = conn.stage side ∨ event = .storePeer ⟨c, side⟩ ∧
      conn.stage side = .handshake ∧ conn.knownPeers ≠ none ∧ conn'.stage side = .reading := by
  have hok := hrules.isFailure_eq_false
  rcases h.standing c conn hc with hclosed | ⟨hbroken, hopen⟩
  · exact absurd (hclosed side) (h.notClosed c conn side hc)
  rcases hevolves.stage side with hsame | hmoves
  · exact .inl hsame
  · generalize conn'.stage side = stage' at hmoves
    cases hmoves with
    | storePeer hs hack => exact .inr ⟨rfl, hs, hack, rfl⟩
    | endOfStream hs hend =>
        rcases hend with hwr | hb
        · exact absurd (hwr.symm.trans (hopen side.other).1) (by simp)
        · exact absurd (hbroken.symm.trans hb) (by simp)
    | readerFails => cases hok
    | removePeer hs =>
        rcases (hopen side).2 with hs' | ⟨hs', -⟩ <;> exact absurd (hs'.symm.trans hs) (by simp)
    | handshakeFails _ hb => exact absurd (hbroken.symm.trans hb) (by simp)

theorem mem_knownPeers_bootstrap {peer : NodeId × String} :
    peer ∈ mesh.knownPeers bootstrap ↔
      peer.1 ∈ mesh.peers bootstrap ∧ peer.2 = addressing.address peer.1 := by
  rw [mem_knownPeers, Finmap.mem_iff]
  constructor
  · rintro ⟨id, handle, hlookup, rfl⟩
    rw [h.info id handle hlookup]
    exact ⟨⟨handle, hlookup⟩, rfl⟩
  · rintro ⟨⟨handle, hlookup⟩, haddr⟩
    refine ⟨peer.1, handle, hlookup, ?_⟩
    rw [h.info peer.1 handle hlookup]
    exact Prod.ext rfl haddr.symm

/-- What an ack names from now on, it named before, or it is sent now. -/
theorem names_origin (hstep : Step addressing mesh event mesh') (hn : mesh'.Names node id) :
    mesh.Names node id ∨ ∃ c conn, event = .sendAck c ∧ mesh.connection c = some conn ∧
      conn.caller = .network ∧ conn.dialer = node ∧ conn.stage .listener = .handshake ∧
      conn.knownPeers = none ∧ id ∈ mesh.peers bootstrap := by
  obtain ⟨c, conn', known, address, hc', hcaller, hd, hk, hmem⟩ := hn
  rcases hstep.origin c conn' hc' with ⟨conn, hc, hevolves⟩ | ⟨-, hopens⟩
  · rw [hevolves.caller] at hcaller
    have hd' : conn.dialer = node := (hevolves.node .dialer).symm.trans hd
    rcases hevolves.knownPeers_eq with hsame | ⟨rfl, hs, hnone, hk'⟩
    · exact .inl ⟨c, conn, known, address, hc, hcaller, hd', hsame ▸ hk, hmem⟩
    · obtain rfl := Option.some.inj (hk'.symm.trans hk)
      rw [(h.network c conn hc hcaller).1] at hmem
      exact .inr ⟨c, conn, rfl, hc, hcaller, hd', hs, hnone,
        (h.mem_knownPeers_bootstrap.mp hmem).1⟩
  · obtain ⟨_, _, _, _, rfl⟩ := hopens.eq_new
    cases hk

theorem ordered_step (hstep : Step addressing mesh event mesh') (hn : mesh'.Names node id)
    (hn' : mesh'.Names id node) : False := by
  -- Whoever is sent an ack now is not stored, so that no ack names it.
  rcases h.names_origin hstep hn with hold | ⟨c, conn, rfl, hc, hcaller, rfl, hs, -, -⟩
  · rcases h.names_origin hstep hn' with hold' | ⟨c, conn, rfl, hc, hcaller, rfl, hs, -, -⟩
    · exact h.ordered node id hold hold'
    · exact h.not_mem_of_handshake hc hcaller hs (h.mem_of_names hold)
  · rcases h.names_origin hstep hn' with hold' | ⟨-, -, -, -, -, -, -, -, hmem'⟩
    · exact h.not_mem_of_handshake hc hcaller hs (h.mem_of_names hold')
    · exact h.not_mem_of_handshake hc hcaller hs hmem'

theorem network_step (hstep : Step addressing mesh event mesh')
    (hrules : mesh.JoinRules addressing bootstrap event) {c : Nat} {conn' : Connection}
    (hc' : mesh'.connection c = some conn') (hcaller : conn'.caller = .network) :
    conn'.listener = bootstrap ∧ conn'.dialer ≠ bootstrap := by
  rcases hstep.origin c conn' hc' with ⟨conn, hc, hevolves⟩ | ⟨-, hopens⟩
  · rw [hevolves.caller] at hcaller
    have hd : conn'.dialer = conn.dialer := hevolves.node .dialer
    have hl : conn'.listener = conn.listener := hevolves.node .listener
    rw [hd, hl]
    exact h.network c conn hc hcaller
  · cases hopens with
    | connectToPeer hl =>
        obtain ⟨hne, hb, -⟩ := hrules
        exact ⟨Option.some.inj (hl.symm.trans hb), hne⟩
    | discover => cases hcaller

theorem once_step (hstep : Step addressing mesh event mesh')
    (hrules : mesh.JoinRules addressing bootstrap event) {c c' : Nat} {conn₁ conn₂ : Connection}
    (hc : mesh'.connection c = some conn₁) (hc' : mesh'.connection c' = some conn₂)
    (hcaller : conn₁.caller = .network) (hcaller' : conn₂.caller = .network)
    (hd : conn₁.dialer = conn₂.dialer) : c = c' := by
  -- A node that has called already does not call again.
  have hnew : ∀ {c : Nat} {conn conn₁ conn₂ : Connection}, mesh.connection c = some conn →
      Evolves mesh event c conn conn₁ → Opens addressing mesh event conn₂ →
      conn₁.caller = .network → conn₂.caller = .network → conn₁.dialer ≠ conn₂.dialer := by
    intro c conn conn₁ conn₂ hc hevolves hopens hcaller hcaller'
    have hd : conn₁.dialer = conn.dialer := hevolves.node .dialer
    cases hopens with
    | connectToPeer hl =>
        rw [hd]
        exact hrules.2.2 c conn hc (hevolves.caller ▸ hcaller)
    | discover => cases hcaller'
  rcases hstep.origin c conn₁ hc with ⟨old, hold, hevolves⟩ | ⟨rfl, hopens⟩
  · rcases hstep.origin c' conn₂ hc' with ⟨old', hold', hevolves'⟩ | ⟨-, hopens'⟩
    · have hd₁ : conn₁.dialer = old.dialer := hevolves.node .dialer
      have hd₂ : conn₂.dialer = old'.dialer := hevolves'.node .dialer
      exact h.once c c' old old' hold hold' (hevolves.caller ▸ hcaller)
        (hevolves'.caller ▸ hcaller') (by rw [← hd₁, hd, hd₂])
    · exact absurd hd (hnew hold hevolves hopens' hcaller hcaller')
  · rcases hstep.origin c' conn₂ hc' with ⟨old', hold', hevolves'⟩ | ⟨rfl, -⟩
    · exact absurd hd.symm (hnew hold' hevolves' hopens hcaller' hcaller)
    · rfl

theorem info_step (hstep : Step addressing mesh event mesh') {handle : PeerHandle}
    (hlookup : (mesh'.peers bootstrap).lookup id = some handle) :
    handle.info = ⟨id, addressing.address id⟩ := by
  rcases hstep.lookup bootstrap id with hsame | ⟨s, conn, rfl, hc, hn, hid, hl⟩ | ⟨s, -, -, hl⟩
  · exact h.info id handle (hsame ▸ hlookup)
  · obtain rfl := Option.some.inj (hl.symm.trans hlookup)
    obtain ⟨c, side⟩ := s
    cases side with
    | dialer => exact absurd hn (h.dialer_ne hc)
    | listener =>
        subst hid
        rfl
  · rw [hl] at hlookup
    cases hlookup

theorem known_step (hstep : Step addressing mesh event mesh') {c : Nat} {conn' : Connection}
    {known : Finset (NodeId × String)} (hc' : mesh'.connection c = some conn')
    (hcaller : conn'.caller = .network) (hk : conn'.knownPeers = some known)
    {peer : NodeId × String} (hpeer : peer ∈ known) :
    peer.2 = addressing.address peer.1 ∧ peer.1 ∈ mesh'.peers bootstrap := by
  rcases hstep.origin c conn' hc' with ⟨conn, hc, hevolves⟩ | ⟨-, hopens⟩
  · rw [hevolves.caller] at hcaller
    rcases hevolves.knownPeers_eq with hsame | ⟨-, -, -, hk'⟩
    · have hold := h.known c conn known hc hcaller (hsame ▸ hk) peer hpeer
      exact ⟨hold.1, h.mem_peers_step hstep hold.2⟩
    · obtain rfl := Option.some.inj (hk'.symm.trans hk)
      rw [(h.network c conn hc hcaller).1] at hpeer
      obtain ⟨hmem, haddr⟩ := h.mem_knownPeers_bootstrap.mp hpeer
      exact ⟨haddr, h.mem_peers_step hstep hmem⟩
  · obtain ⟨_, _, _, _, rfl⟩ := hopens.eq_new
    cases hk

theorem notClosed_step (hstep : Step addressing mesh event mesh')
    (hrules : mesh.JoinRules addressing bootstrap event) {c : Nat} {conn' : Connection}
    (hc' : mesh'.connection c = some conn') (side : Side) : conn'.stage side ≠ .closed := by
  rcases hstep.origin c conn' hc' with ⟨conn, hc, hevolves⟩ | ⟨-, hopens⟩
  · rcases h.stage_step hrules hc hevolves side with hsame | ⟨-, -, -, hs⟩
    · rw [hsame]
      exact h.notClosed c conn side hc
    · simp [hs]
  · obtain ⟨_, _, _, _, rfl⟩ := hopens.eq_new
    exact fun hs => Stage.noConfusion hs

theorem unanswered_step (hstep : Step addressing mesh event mesh')
    (hrules : mesh.JoinRules addressing bootstrap event) {c : Nat} {conn' : Connection}
    (hc' : mesh'.connection c = some conn') (hnone : conn'.knownPeers = none) :
    conn'.stage .dialer = .handshake := by
  rcases hstep.origin c conn' hc' with ⟨conn, hc, hevolves⟩ | ⟨-, hopens⟩
  · have hack := hevolves.knownPeers.eq_none_of_eq_none hnone
    rcases h.stage_step hrules hc hevolves .dialer with hsame | ⟨-, -, hack', -⟩
    · exact hsame.trans (h.unanswered c conn hc hack)
    · exact absurd hack hack'
  · obtain ⟨_, _, _, _, rfl⟩ := hopens.eq_new
    rfl

theorem answered_step (hstep : Step addressing mesh event mesh')
    (hrules : mesh.JoinRules addressing bootstrap event) {c : Nat}
    {known : Finset (NodeId × String)} (hc : mesh.connection c = some conn)
    (hs : conn.stage .dialer = .reading) (hk : conn.knownPeers = some known) :
    ∃ conn', mesh'.connection c = some conn' ∧ conn'.caller = conn.caller ∧
      conn'.dialer = conn.dialer ∧ conn'.stage .dialer = .reading ∧
      conn'.knownPeers = some known := by
  obtain ⟨conn', hc', hevolves⟩ := hstep.connection hc
  refine ⟨conn', hc', hevolves.caller, hevolves.node .dialer, ?_, ?_⟩
  · rcases h.stage_step hrules hc hevolves .dialer with hsame | ⟨-, -, -, hs'⟩
    · exact hsame.trans hs
    · exact hs'
  · rcases hevolves.knownPeers_eq with hsame | ⟨-, -, hnone, -⟩
    · exact hsame.trans hk
    · rw [hk] at hnone
      cases hnone

theorem opens_handle (haddr : ∀ node, addressing.listener (addressing.address node) = some node)
    (hopens : Opens addressing mesh event conn) (hcaller : conn.caller = .handle) :
    ∃ c conn₀ peer, event = .discover c peer ∧ mesh.connection c = some conn₀ ∧
      peer ∈ conn₀.toDiscover ∧ conn.dialer = conn₀.dialer ∧ conn.listener = peer.1 := by
  cases hopens with
  | connectToPeer => cases hcaller
  | @discover c conn₀ peer listener hc hpeer hl =>
      refine ⟨c, conn₀, peer, rfl, hc, hpeer, rfl, ?_⟩
      obtain ⟨hnet, -, ⟨known, hk, hmem⟩, -⟩ := h.pending c conn₀ peer hc hpeer
      rw [(h.known c conn₀ known hc hnet hk peer hmem).1, haddr] at hl
      exact (Option.some.inj hl).symm

theorem found_step (haddr : ∀ node, addressing.listener (addressing.address node) = some node)
    (hstep : Step addressing mesh event mesh')
    (hrules : mesh.JoinRules addressing bootstrap event) {c : Nat} {conn' : Connection}
    (hc' : mesh'.connection c = some conn') (hcaller : conn'.caller = .handle) :
    ∃ c₀ conn₀ known address, mesh'.connection c₀ = some conn₀ ∧ conn₀.caller = .network ∧
      conn₀.dialer = conn'.dialer ∧ conn₀.stage .dialer = .reading ∧
      conn₀.knownPeers = some known ∧ (conn'.listener, address) ∈ known := by
  rcases hstep.origin c conn' hc' with ⟨conn, hc, hevolves⟩ | ⟨-, hopens⟩
  · have hd : conn'.dialer = conn.dialer := hevolves.node .dialer
    have hl : conn'.listener = conn.listener := hevolves.node .listener
    rw [hevolves.caller] at hcaller
    obtain ⟨c₀, conn₀, known, address, hc₀, hcaller₀, hd₀, hs₀, hk₀, hmem⟩ := h.found c conn hc hcaller
    obtain ⟨conn₁, hc₁, hcaller₁, hd₁, hs₁, hk₁⟩ := h.answered_step hstep hrules hc₀ hs₀ hk₀
    refine ⟨c₀, conn₁, known, address, hc₁, hcaller₁.trans hcaller₀, ?_, hs₁, hk₁, hl ▸ hmem⟩
    rw [hd₁, hd₀, hd]
  · obtain ⟨c₀, conn₀, peer, -, hc₀, hpeer, hd, hl⟩ := h.opens_handle haddr hopens hcaller
    obtain ⟨hcaller₀, hs₀, ⟨known, hk₀, hmem⟩, -⟩ := h.pending c₀ conn₀ peer hc₀ hpeer
    obtain ⟨conn₁, hc₁, hcaller₁, hd₁, hs₁, hk₁⟩ := h.answered_step hstep hrules hc₀ hs₀ hk₀
    refine ⟨c₀, conn₁, known, peer.2, hc₁, hcaller₁.trans hcaller₀, ?_, hs₁, hk₁, hl ▸ hmem⟩
    rw [hd₁, hd]

theorem foundOnce_step
    (haddr : ∀ node, addressing.listener (addressing.address node) = some node)
    (hstep : Step addressing mesh event mesh') {c c' : Nat} {conn₁ conn₂ : Connection}
    (hc : mesh'.connection c = some conn₁) (hc' : mesh'.connection c' = some conn₂)
    (hcaller : conn₁.caller = .handle) (hcaller' : conn₂.caller = .handle)
    (hd : conn₁.dialer = conn₂.dialer) (hl : conn₁.listener = conn₂.listener) : c = c' := by
  -- Who is discovered now has not been discovered before.
  have hnew : ∀ {c : Nat} {conn conn₁ conn₂ : Connection}, mesh.connection c = some conn →
      Evolves mesh event c conn conn₁ → Opens addressing mesh event conn₂ →
      conn₁.caller = .handle → conn₂.caller = .handle → conn₁.dialer = conn₂.dialer →
      conn₁.listener ≠ conn₂.listener := by
    intro c conn conn₁ conn₂ hc hevolves hopens hcaller hcaller' hd hl
    have hd₁ : conn₁.dialer = conn.dialer := hevolves.node .dialer
    have hl₁ : conn₁.listener = conn.listener := hevolves.node .listener
    obtain ⟨c₀, conn₀, peer, -, hc₀, hpeer, hd₀, hl₀⟩ := h.opens_handle haddr hopens hcaller'
    obtain ⟨-, -, -, hfresh⟩ := h.pending c₀ conn₀ peer hc₀ hpeer
    refine hfresh c conn hc (hevolves.caller ▸ hcaller) ?_ ?_
    · rw [← hd₁, hd, hd₀]
    · rw [← hl₁, hl, hl₀]
  rcases hstep.origin c conn₁ hc with ⟨old, hold, hevolves⟩ | ⟨rfl, hopens⟩
  · rcases hstep.origin c' conn₂ hc' with ⟨old', hold', hevolves'⟩ | ⟨-, hopens'⟩
    · have hd₁ : conn₁.dialer = old.dialer := hevolves.node .dialer
      have hd₂ : conn₂.dialer = old'.dialer := hevolves'.node .dialer
      have hl₁ : conn₁.listener = old.listener := hevolves.node .listener
      have hl₂ : conn₂.listener = old'.listener := hevolves'.node .listener
      exact h.foundOnce c c' old old' hold hold' (hevolves.caller ▸ hcaller)
        (hevolves'.caller ▸ hcaller') (by rw [← hd₁, hd, hd₂]) (by rw [← hl₁, hl, hl₂])
    · exact absurd hl (hnew hold hevolves hopens' hcaller hcaller' hd)
  · rcases hstep.origin c' conn₂ hc' with ⟨old', hold', hevolves'⟩ | ⟨rfl, -⟩
    · exact absurd hl.symm (hnew hold' hevolves' hopens hcaller' hcaller hd.symm)
    · rfl

theorem eq_of_dialer {c c' : Nat} {conn' : Connection} (hc : mesh.connection c = some conn)
    (hc' : mesh.connection c' = some conn') (hcaller : conn.caller = .network)
    (hcaller' : conn'.caller = .network) (hd : conn.dialer = conn'.dialer) :
    c = c' ∧ conn = conn' := by
  obtain rfl := h.once c c' conn conn' hc hc' hcaller hcaller' hd
  exact ⟨rfl, Option.some.inj (hc.symm.trans hc')⟩

theorem pending_step (haddr : ∀ node, addressing.listener (addressing.address node) = some node)
    (hstep : Step addressing mesh event mesh')
    (hrules : mesh.JoinRules addressing bootstrap event) {c : Nat} {conn' : Connection}
    {peer : NodeId × String} (hc' : mesh'.connection c = some conn')
    (hpeer : peer ∈ conn'.toDiscover) :
    conn'.caller = .network ∧ conn'.stage .dialer = .reading ∧
      (∃ known, conn'.knownPeers = some known ∧ peer ∈ known) ∧
      ∀ c₂ conn₂, mesh'.connection c₂ = some conn₂ → conn₂.caller = .handle →
        conn₂.dialer = conn'.dialer → conn₂.listener ≠ peer.1 := by
  rcases hstep.origin c conn' hc' with ⟨conn, hc, hevolves⟩ | ⟨-, hopens⟩
  swap
  · obtain ⟨_, _, _, _, rfl⟩ := hopens.eq_new
    exact absurd hpeer (Finset.notMem_empty peer)
  have hd : conn'.dialer = conn.dialer := hevolves.node .dialer
  -- What was still to be discovered and is not discovered in this step.
  have hold : peer ∈ conn.toDiscover → (∀ peer', event = .discover c peer' → peer'.1 ≠ peer.1) →
      conn'.caller = .network ∧ conn'.stage .dialer = .reading ∧
        (∃ known, conn'.knownPeers = some known ∧ peer ∈ known) ∧
        ∀ c₂ conn₂, mesh'.connection c₂ = some conn₂ → conn₂.caller = .handle →
          conn₂.dialer = conn'.dialer → conn₂.listener ≠ peer.1 := by
    intro hpeer hother
    obtain ⟨hcaller, hs, ⟨known, hk, hmem⟩, hfresh⟩ := h.pending c conn peer hc hpeer
    obtain ⟨conn₁, hc₁, hcaller₁, -, hs₁, hk₁⟩ := h.answered_step hstep hrules hc hs hk
    obtain rfl := Option.some.inj (hc₁.symm.trans hc')
    refine ⟨hcaller₁.trans hcaller, hs₁, ⟨known, hk₁, hmem⟩, ?_⟩
    intro c₂ conn₂ hc₂ hcaller₂ hd₂
    rcases hstep.origin c₂ conn₂ hc₂ with ⟨old₂, hold₂, hevolves₂⟩ | ⟨-, hopens₂⟩
    · have hdold : conn₂.dialer = old₂.dialer := hevolves₂.node .dialer
      have hlold : conn₂.listener = old₂.listener := hevolves₂.node .listener
      rw [hlold]
      exact hfresh c₂ old₂ hold₂ (hevolves₂.caller ▸ hcaller₂) (by rw [← hdold, hd₂, hd])
    · obtain ⟨c₀, conn₀, peer₀, rfl, hc₀, hpeer₀, hd₀, hl₀⟩ := h.opens_handle haddr hopens₂ hcaller₂
      obtain ⟨hcaller₀, -⟩ := h.pending c₀ conn₀ peer₀ hc₀ hpeer₀
      obtain ⟨rfl, -⟩ := h.eq_of_dialer hc hc₀ hcaller hcaller₀ (by rw [← hd, ← hd₂, hd₀])
      rw [hl₀]
      exact hother peer₀ rfl
  have hdiscovers := hevolves.toDiscover
  generalize hleft : conn'.toDiscover = left at hdiscovers
  rw [hleft] at hpeer
  cases hdiscovers with
  | other hstore hdiscover => exact hold hpeer fun peer' he => absurd he (hdiscover peer')
  | @discover _ peer' hpeer' =>
      obtain ⟨hne, hmem⟩ := Finset.mem_erase.mp hpeer
      refine hold hmem ?_
      rintro _ ⟨⟩ heq
      -- Two peers of an ack with one id have one address.
      obtain ⟨hcaller, -, ⟨known, hk, hin⟩, -⟩ := h.pending c conn peer hc hmem
      obtain ⟨-, -, ⟨known', hk', hin'⟩, -⟩ := h.pending c conn peer' hc hpeer'
      obtain rfl := Option.some.inj (hk.symm.trans hk')
      have haddr₁ := (h.known c conn known hc hcaller hk peer hin).1
      have haddr₂ := (h.known c conn known hc hcaller hk peer' hin').1
      exact hne (Prod.ext heq.symm (by rw [haddr₁, haddr₂, heq]))
  | storePeer =>
      have hs₀ : conn.stage .dialer = .handshake := by
        have heq := hstep.storePeer_stage
        rw [stage_mk hc] at heq
        exact Option.some.inj heq
      have hs : conn'.stage .dialer = .reading := by
        rcases h.stage_step hrules hc hevolves .dialer with hsame | ⟨-, -, -, hs⟩
        · have heq := (hstep.storePeer_stored (place_of_connection hc)).2
          rw [stage_mk hc'] at heq
          exact Option.some.inj heq
        · exact hs
      cases hcaller : conn.caller with
      | handle =>
          simp only [Connection.discovered, hcaller] at hpeer
          exact absurd hpeer (Finset.notMem_empty peer)
      | network =>
          simp only [Connection.discovered, hcaller] at hpeer
          cases hk : conn.knownPeers with
          | none =>
              rw [hk] at hpeer
              exact absurd hpeer (Finset.notMem_empty peer)
          | some known =>
              rw [hk] at hpeer
              have hk' : conn'.knownPeers = some known := by
                rcases hevolves.knownPeers_eq with hsame | ⟨he, -⟩
                · exact hsame.trans hk
                · cases he
              refine ⟨hevolves.caller.trans hcaller, hs, ⟨known, hk', hpeer⟩, ?_⟩
              -- Whoever has discovered somebody reads already.
              intro c₂ conn₂ hc₂ hcaller₂ hd₂ hl₂
              rcases hstep.origin c₂ conn₂ hc₂ with ⟨old₂, hold₂, hevolves₂⟩ | ⟨-, hopens₂⟩
              · have hdold : conn₂.dialer = old₂.dialer := hevolves₂.node .dialer
                obtain ⟨c₀, conn₀, -, -, hc₀, hcaller₀, hd₀, hread, -⟩ :=
                  h.found c₂ old₂ hold₂ (hevolves₂.caller ▸ hcaller₂)
                obtain ⟨-, rfl⟩ := h.eq_of_dialer hc hc₀ hcaller hcaller₀
                  (by rw [← hd, ← hd₂, hdold, hd₀])
                rw [hs₀] at hread
                cases hread
              · obtain ⟨_, _, _, he, -⟩ := h.opens_handle haddr hopens₂ hcaller₂
                cases he

/-- Nothing that an ack names is skipped: it is somebody else, nobody we have, and it
listens where the ack says. -/
theorem discover_opens (haddr : ∀ node, addressing.listener (addressing.address node) = some node)
    {c : Nat} {peer : NodeId × String} (hc : mesh.connection c = some conn)
    (hstep : Step addressing mesh (.discover c peer) mesh') :
    ∃ c' conn', mesh'.connection c' = some conn' ∧ conn'.caller = .handle ∧
      conn'.dialer = conn.dialer ∧ conn'.listener = peer.1 := by
  cases hstep with
  | @discover _ conn₀ _ listener hc₀ hpeer hself hnew hl =>
      obtain rfl := Option.some.inj (hc.symm.trans hc₀)
      obtain ⟨hcaller, -, ⟨known, hk, hmem⟩, -⟩ := h.pending c conn peer hc hpeer
      rw [(h.known c conn known hc hcaller hk peer hmem).1, haddr] at hl
      have hnew := connection_addConnection
        (mesh.setConnection c { conn with toDiscover := conn.toDiscover.erase peer })
        (.new .handle conn.dialer listener peer.2) mesh.connections.length
      rw [if_pos (by simp [setConnection])] at hnew
      exact ⟨_, _, hnew, rfl, rfl, (Option.some.inj hl).symm⟩
  | @skip _ conn₀ _ hc₀ hpeer hskip =>
      obtain rfl := Option.some.inj (hc.symm.trans hc₀)
      obtain ⟨hcaller, -, ⟨known, hk, hmem⟩, hfresh⟩ := h.pending c conn peer hc hpeer
      have hknown := h.known c conn known hc hcaller hk peer hmem
      have hnames : mesh.Names conn.dialer peer.1 :=
        ⟨c, conn, known, peer.2, hc, hcaller, rfl, hk, hmem⟩
      exfalso
      rcases hskip with hself | hpeer | hl
      · rw [hself] at hnames
        exact h.ordered _ _ hnames hnames
      · obtain ⟨⟨c₂, side⟩, hs⟩ := mem_peers_iff.mp hpeer
        obtain ⟨conn₂, hc₂, hn, hid⟩ := exists_connection_of_place (h.wired.live hs).1
        cases hcaller₂ : conn₂.caller with
        | network =>
            obtain ⟨hb, hne⟩ := h.network c₂ conn₂ hc₂ hcaller₂
            cases side with
            | dialer =>
                have heq : peer.1 = bootstrap := hid.symm.trans hb
                exact h.not_mem_self (heq ▸ hknown.2)
            | listener => exact h.dialer_ne hc (hn.symm.trans hb)
        | handle =>
            cases side with
            | dialer => exact hfresh c₂ conn₂ hc₂ hcaller₂ hn hid
            | listener =>
                have hnames₂ := h.names_of_found hc₂ hcaller₂
                exact h.ordered _ _ hnames (hid ▸ hn ▸ hnames₂)
      · rw [hknown.1, haddr] at hl
        cases hl

theorem followed_step (haddr : ∀ node, addressing.listener (addressing.address node) = some node)
    (hstep : Step addressing mesh event mesh')
    (hrules : mesh.JoinRules addressing bootstrap event) {c : Nat} {conn' : Connection}
    {known : Finset (NodeId × String)} {peer : NodeId × String}
    (hc' : mesh'.connection c = some conn') (hcaller : conn'.caller = .network)
    (hs : conn'.stage .dialer = .reading) (hk : conn'.knownPeers = some known)
    (hpeer : peer ∈ known) :
    peer ∈ conn'.toDiscover ∨ ∃ c₂ conn₂, mesh'.connection c₂ = some conn₂ ∧
      conn₂.caller = .handle ∧ conn₂.dialer = conn'.dialer ∧ conn₂.listener = peer.1 := by
  rcases hstep.origin c conn' hc' with ⟨conn, hc, hevolves⟩ | ⟨-, hopens⟩
  swap
  · obtain ⟨_, _, _, _, rfl⟩ := hopens.eq_new
    cases hk
  have hd : conn'.dialer = conn.dialer := hevolves.node .dialer
  rw [hevolves.caller] at hcaller
  have hdiscovers := hevolves.toDiscover
  generalize hleft : conn'.toDiscover = left at hdiscovers
  rcases h.stage_step hrules hc hevolves .dialer with hsame | ⟨rfl, -, -, -⟩
  · rw [hsame] at hs
    have hk₀ : conn.knownPeers = some known := by
      rcases hevolves.knownPeers_eq with hsame | ⟨-, -, hnone, -⟩
      · exact hsame.symm.trans hk
      · rw [h.unanswered c conn hc hnone] at hs
        cases hs
    rcases h.followed c conn known peer hc hcaller hs hk₀ hpeer with hin | ⟨c₂, conn₂, hc₂, hcaller₂, hd₂, hl₂⟩
    · cases hdiscovers with
      | other => exact .inl hin
      | @discover _ peer' hpeer' =>
          by_cases heq : peer = peer'
          · subst heq
            refine .inr ?_
            rw [hd]
            exact h.discover_opens haddr hc hstep
          · exact .inl (Finset.mem_erase.mpr ⟨heq, hin⟩)
      | storePeer =>
          have heq := hstep.storePeer_stage
          rw [stage_mk hc, hs] at heq
          cases heq
    · obtain ⟨conn₃, hc₃, hevolves₃⟩ := hstep.connection hc₂
      have hd₃ : conn₃.dialer = conn₂.dialer := hevolves₃.node .dialer
      have hl₃ : conn₃.listener = conn₂.listener := hevolves₃.node .listener
      refine .inr ⟨c₂, conn₃, hc₃, hevolves₃.caller.trans hcaller₂, ?_, hl₃.trans hl₂⟩
      rw [hd₃, hd₂, hd]
  · have hk₀ : conn.knownPeers = some known := by
      rcases hevolves.knownPeers_eq with hsame | ⟨he, -⟩
      · exact hsame.symm.trans hk
      · cases he
    cases hdiscovers with
    | storePeer =>
        refine .inl ?_
        simpa only [Connection.discovered, hcaller, hk₀, Option.getD_some] using hpeer
    | other hstore => exact absurd rfl hstore

theorem step (haddr : ∀ node, addressing.listener (addressing.address node) = some node)
    (hstep : Step addressing mesh event mesh')
    (hrules : mesh.JoinRules addressing bootstrap event) : Joining addressing bootstrap mesh' where
  wired := h.wired.step hstep
  standing := h.standing.step hstep hrules.isFailure_eq_false (h.storesOnce hstep)
  notClosed _ _ side hc := h.notClosed_step hstep hrules hc side
  network _ _ hc := h.network_step hstep hrules hc
  once _ _ _ _ hc hc' := h.once_step hstep hrules hc hc'
  info _ _ hlookup := h.info_step hstep hlookup
  known _ _ _ hc hcaller hk _ hpeer := h.known_step hstep hc hcaller hk hpeer
  ordered _ _ hn hn' := h.ordered_step hstep hn hn'
  unanswered _ _ hc := h.unanswered_step hstep hrules hc
  found _ _ hc := h.found_step haddr hstep hrules hc
  foundOnce _ _ _ _ hc hc' := h.foundOnce_step haddr hstep hc hc'
  pending _ _ _ hc := h.pending_step haddr hstep hrules hc
  followed _ _ _ _ hc := h.followed_step haddr hstep hrules hc

/-! ### When all is finished -/

theorem edge (hf : mesh.Finished) {c : Nat} (hc : mesh.connection c = some conn) :
    conn.listener ∈ mesh.peers conn.dialer ∧ conn.dialer ∈ mesh.peers conn.listener := by
  have hdialer := (h.stored_of_stage hc ((hf c conn hc).2 .dialer)).2
  have hlistener := (h.stored_of_stage hc ((hf c conn hc).2 .listener)).2
  exact ⟨mem_peers_iff.mpr ⟨_, hdialer⟩, mem_peers_iff.mpr ⟨_, hlistener⟩⟩

theorem edge_of_names (hf : mesh.Finished) (hn : mesh.Names node id) :
    id ∈ mesh.peers node ∧ node ∈ mesh.peers id := by
  obtain ⟨c, conn, known, address, hc, hcaller, rfl, hk, hmem⟩ := hn
  have hs := (h.stored_of_stage hc ((hf c conn hc).2 .dialer)).1
  rcases h.followed c conn known _ hc hcaller hs hk hmem with hleft | ⟨c', conn', hc', -, hd, hl⟩
  · rw [(hf c conn hc).1] at hleft
    exact absurd hleft (Finset.notMem_empty _)
  · rw [← hd, ← show conn'.listener = id from hl]
    exact h.edge hf hc'

/-- Who is in a table, the bootstrap node apart, was named to one of the two by the ack. -/
theorem names_of_mem (hmem : id ∈ mesh.peers node) (hnode : node ≠ bootstrap)
    (hid : id ≠ bootstrap) : mesh.Names node id ∨ mesh.Names id node := by
  obtain ⟨⟨c, side⟩, hs⟩ := mem_peers_iff.mp hmem
  obtain ⟨conn, hc, rfl, rfl⟩ := exists_connection_of_place (h.wired.live hs).1
  cases hcaller : conn.caller with
  | network =>
      have hb := (h.network c conn hc hcaller).1
      cases side with
      | dialer => exact absurd hb hid
      | listener => exact absurd hb hnode
  | handle =>
      have hnames := h.names_of_found hc hcaller
      cases side with
      | dialer => exact .inl hnames
      | listener => exact .inr hnames

end Joining

theorem joining_empty : Joining addressing bootstrap empty where
  wired := wired_empty
  standing _ _ hc := by cases hc
  notClosed _ _ _ hc := by cases hc
  network _ _ hc := by cases hc
  once _ _ _ _ hc := by cases hc
  info _ _ hlookup := by cases hlookup
  known _ _ _ hc := by cases hc
  ordered _ _ hn := by
    obtain ⟨_, _, _, _, hc, -⟩ := hn
    cases hc
  unanswered _ _ hc := by cases hc
  found _ _ hc := by cases hc
  foundOnce _ _ _ _ hc := by cases hc
  pending _ _ _ hc := by cases hc
  followed _ _ _ _ hc := by cases hc

theorem joining_of_run
    (haddr : ∀ node, addressing.listener (addressing.address node) = some node)
    {events : List Event} (hrun : Run (Joins addressing bootstrap) empty events mesh) :
    Joining addressing bootstrap mesh :=
  hrun.state_invariant joining_empty fun hI ⟨hact, hrules⟩ => hI.step haddr (step_of_act hact) hrules

theorem mem_joiners_iff {events : List Event} (hrun : Run (Joins addressing bootstrap) empty events mesh) :
    node ∈ joiners events ↔ ∃ c conn, mesh.connection c = some conn ∧ conn.caller = .network ∧
      conn.dialer = node := by
  refine hrun.invariant (I := fun events mesh => node ∈ joiners events ↔
    ∃ c conn, mesh.connection c = some conn ∧ conn.caller = .network ∧ conn.dialer = node) ?_ ?_
  · constructor
    · intro hmem
      cases hmem
    · rintro ⟨c, conn, hc, -⟩
      cases hc
  · intro as t event u _ ih hjoins
    have hstep := step_of_act hjoins.1
    have hsplit : node ∈ joiners (as ++ [event]) ↔
        node ∈ joiners as ∨ ∃ address, event = .connectToPeer node address := by
      rw [joiners, List.filterMap_append, List.mem_append, ← joiners]
      refine or_congr_right ?_
      cases event <;> simp [eq_comm]
    rw [hsplit, ih]
    constructor
    · rintro (⟨c, conn, hc, hcaller, rfl⟩ | ⟨address, rfl⟩)
      · obtain ⟨conn', hc', hevolves⟩ := hstep.connection hc
        exact ⟨c, conn', hc', hevolves.caller.trans hcaller, hevolves.node .dialer⟩
      · cases hstep with
        | @connectToPeer _ listener _ hl =>
            have hnew := connection_addConnection t (.new .network node listener address)
              t.connections.length
            exact ⟨_, _, hnew.trans (if_pos rfl), rfl, rfl⟩
    · rintro ⟨c, conn', hc', hcaller, rfl⟩
      rcases hstep.origin c conn' hc' with ⟨conn, hc, hevolves⟩ | ⟨-, hopens⟩
      · exact .inl ⟨c, conn, hc, hevolves.caller ▸ hcaller, (hevolves.node .dialer).symm⟩
      · cases hopens with
        | @connectToPeer _ _ address => exact .inr ⟨address, rfl⟩
        | discover => cases hcaller

/-! ### Acks in turn -/

/-- Of any two nodes with an ack, one is named to the other. -/
def Related (mesh : Mesh) : Prop :=
  ∀ c c' conn conn', mesh.connection c = some conn → mesh.connection c' = some conn' →
    conn.caller = .network → conn'.caller = .network → conn.knownPeers ≠ none →
    conn'.knownPeers ≠ none → c ≠ c' →
    mesh.Names conn.dialer conn'.dialer ∨ mesh.Names conn'.dialer conn.dialer

theorem Joining.names_of_sendAck (h : Joining addressing bootstrap mesh) {c : Nat}
    (hstep : Step addressing mesh (.sendAck c) mesh') (hc : mesh.connection c = some conn)
    (hcaller : conn.caller = .network) (hmem : id ∈ mesh.peers bootstrap) :
    mesh'.Names conn.dialer id := by
  cases hstep with
  | @sendAck _ conn₀ hc₀ hs hack =>
      obtain rfl := Option.some.inj (hc.symm.trans hc₀)
      refine ⟨c, { conn with knownPeers := some (mesh.knownPeers conn.listener) }, _,
        addressing.address id, ?_, hcaller, rfl, rfl, ?_⟩
      · rw [connection_setConnection hc, if_pos rfl]
      · rw [(h.network c conn hc hcaller).1]
        exact h.mem_knownPeers_bootstrap.mpr ⟨hmem, rfl⟩

theorem Related.step (h : Joining addressing bootstrap mesh) (hr : mesh.Related)
    (hstep : Step addressing mesh event mesh') (hturn : mesh.AcksInTurn bootstrap event) :
    mesh'.Related := by
  -- Whoever got an ack before is stored when another ack is sent.
  have hnew : ∀ {c c' : Nat} {conn conn' : Connection}, event = .sendAck c →
      mesh.connection c = some conn → mesh.connection c' = some conn' →
      conn.caller = .network → conn'.caller = .network → conn'.knownPeers ≠ none →
      mesh'.Names conn.dialer conn'.dialer := by
    rintro c c' conn conn' rfl hc hc' hcaller hcaller' hk'
    have hl := (h.network c conn hc hcaller).1
    have hl' := (h.network c' conn' hc' hcaller').1
    have hs := hturn conn hc hl c' conn' hc' hl' hk'
    have hstored := (h.stored_of_stage hc' hs).2
    refine h.names_of_sendAck hstep hc hcaller (mem_peers_iff.mpr ⟨⟨c', .listener⟩, ?_⟩)
    rw [← hl']
    exact hstored
  intro c c' conn₁ conn₁' hc hc' hcaller hcaller' hk hk' hne
  rcases hstep.origin c conn₁ hc with ⟨conn, hold, hevolves⟩ | ⟨-, hopens⟩
  swap
  · obtain ⟨_, _, _, _, rfl⟩ := hopens.eq_new
    exact absurd rfl hk
  rcases hstep.origin c' conn₁' hc' with ⟨conn', hold', hevolves'⟩ | ⟨-, hopens⟩
  swap
  · obtain ⟨_, _, _, _, rfl⟩ := hopens.eq_new
    exact absurd rfl hk'
  have hd : conn₁.dialer = conn.dialer := hevolves.node .dialer
  have hd' : conn₁'.dialer = conn'.dialer := hevolves'.node .dialer
  rw [hevolves.caller] at hcaller
  rw [hevolves'.caller] at hcaller'
  rw [hd, hd']
  rcases hevolves.knownPeers_eq with hsame | ⟨he, -, -, -⟩
  · rw [hsame] at hk
    rcases hevolves'.knownPeers_eq with hsame' | ⟨he', -, -, -⟩
    · rw [hsame'] at hk'
      exact (hr c c' conn conn' hold hold' hcaller hcaller' hk hk' hne).imp
        (fun hn => hn.step hstep) fun hn => hn.step hstep
    · exact .inr (hnew he' hold' hold hcaller' hcaller hk)
  · rcases hevolves'.knownPeers_eq with hsame' | ⟨he', -, -, -⟩
    · rw [hsame'] at hk'
      exact .inl (hnew he hold hold' hcaller hcaller' hk')
    · obtain rfl : c = c' := by simpa using he.symm.trans he'
      exact absurd rfl hne

/-- Two nodes with an ack each, and neither named to the other. -/
def Strangers (mesh : Mesh) (node id : NodeId) : Prop :=
  (∃ c conn, mesh.connection c = some conn ∧ conn.caller = .network ∧ conn.dialer = node ∧
    conn.knownPeers ≠ none) ∧
  (∃ c conn, mesh.connection c = some conn ∧ conn.caller = .network ∧ conn.dialer = id ∧
    conn.knownPeers ≠ none) ∧
  ¬ mesh.Names node id ∧ ¬ mesh.Names id node

theorem Strangers.step (hs : mesh.Strangers node id) (h : Joining addressing bootstrap mesh)
    (hstep : Step addressing mesh event mesh') : mesh'.Strangers node id := by
  -- No second ack is sent to a node.
  have hnot : ∀ {node id : NodeId}, (∃ c conn, mesh.connection c = some conn ∧
      conn.caller = .network ∧ conn.dialer = node ∧ conn.knownPeers ≠ none) →
      ¬ mesh.Names node id → ¬ mesh'.Names node id := by
    rintro node id ⟨c, conn, hc, hcaller, hd, hk⟩ hnot hn
    rcases h.names_origin hstep hn with hold | ⟨c₀, conn₀, -, hc₀, hcaller₀, hd₀, -, hnone, -⟩
    · exact hnot hold
    · obtain ⟨-, rfl⟩ := h.eq_of_dialer hc hc₀ hcaller hcaller₀ (hd.trans hd₀.symm)
      exact hk hnone
  have hkept : ∀ {node : NodeId}, (∃ c conn, mesh.connection c = some conn ∧
      conn.caller = .network ∧ conn.dialer = node ∧ conn.knownPeers ≠ none) →
      ∃ c conn, mesh'.connection c = some conn ∧ conn.caller = .network ∧ conn.dialer = node ∧
        conn.knownPeers ≠ none := by
    rintro node ⟨c, conn, hc, hcaller, rfl, hk⟩
    obtain ⟨conn', hc', hevolves⟩ := hstep.connection hc
    exact ⟨c, conn', hc', hevolves.caller.trans hcaller, hevolves.node .dialer,
      fun hnone => hk (hevolves.knownPeers.eq_none_of_eq_none hnone)⟩
  obtain ⟨hfirst, hsecond, hn, hn'⟩ := hs
  exact ⟨hkept hfirst, hkept hsecond, hnot hfirst hn, hnot hsecond hn'⟩

/-- Whoever is sent an ack while another is not stored after its own becomes a stranger to it. -/
theorem Joining.strangers_of_overlap (h : Joining addressing bootstrap mesh)
    (hstep : Step addressing mesh event mesh') (hturn : ¬ mesh.AcksInTurn bootstrap event) :
    ∃ c c' conn conn', mesh.connection c = some conn ∧ mesh.connection c' = some conn' ∧
      conn.caller = .network ∧ conn'.caller = .network ∧ conn.dialer ≠ conn'.dialer ∧
      mesh'.Strangers conn.dialer conn'.dialer := by
  cases event with
  | sendAck c =>
      simp only [AcksInTurn, not_forall, not_not] at hturn
      obtain ⟨conn, hc, hl, c', conn', hc', hl', hk', hs'⟩ := hturn
      have hnetwork : ∀ {c : Nat} {conn : Connection}, mesh.connection c = some conn →
          conn.listener = bootstrap → conn.caller = .network := by
        intro c conn hc hl
        cases hcaller : conn.caller with
        | network => rfl
        | handle => exact absurd hl (h.listener_ne hc hcaller)
      have hcaller := hnetwork hc hl
      have hcaller' := hnetwork hc' hl'
      have hack : conn.stage .listener = .handshake ∧ conn.knownPeers = none := by
        cases hstep with
        | sendAck hc₀ hs hack =>
            obtain rfl := Option.some.inj (hc.symm.trans hc₀)
            exact ⟨hs, hack⟩
      have hne : conn.dialer ≠ conn'.dialer := by
        intro hd
        obtain ⟨-, rfl⟩ := h.eq_of_dialer hc hc' hcaller hcaller' hd
        exact hk' hack.2
      have hfirst := h.not_mem_of_handshake hc hcaller hack.1
      have hsecond := h.not_mem_of_handshake hc' hcaller' hs'
      refine ⟨c, c', conn, conn', hc, hc', hcaller, hcaller', hne, ?_, ?_, ?_, ?_⟩
      · cases hstep with
        | sendAck hc₀ _ _ =>
            obtain rfl := Option.some.inj (hc.symm.trans hc₀)
            exact ⟨c, _, (connection_setConnection hc c).trans (if_pos rfl), hcaller, rfl, by simp⟩
      · obtain ⟨conn₁, hc₁, hevolves⟩ := hstep.connection hc'
        exact ⟨c', conn₁, hc₁, hevolves.caller.trans hcaller', hevolves.node .dialer,
          fun hnone => hk' (hevolves.knownPeers.eq_none_of_eq_none hnone)⟩
      · intro hn
        rcases h.names_origin hstep hn with hold | ⟨-, -, -, -, -, -, -, -, hmem⟩
        · exact hsecond (h.mem_of_names hold)
        · exact hsecond hmem
      · intro hn
        rcases h.names_origin hstep hn with hold | ⟨-, -, -, -, -, -, -, -, hmem⟩
        · exact hfirst (h.mem_of_names hold)
        · exact hfirst hmem
  | _ => exact absurd trivial hturn

/--
**Discovery forms a full mesh exactly when acks are sent in turn.**  Any number of nodes
connect to a bootstrap node, each of them once, in any interleaving and without failures.
When all handshakes and the connections to discovered peers are finished, every two of
the nodes are in each other's tables if and only if the bootstrap node has always stored
whoever it had sent an ack before it sent another.
-/
theorem discovery_forms_mesh
    (haddr : ∀ node, addressing.listener (addressing.address node) = some node)
    {events : List Event} (hrun : Run (Joins addressing bootstrap) empty events mesh)
    (hf : mesh.Finished) :
    Run (fun mesh event mesh' => Joins addressing bootstrap mesh event mesh' ∧
        mesh.AcksInTurn bootstrap event) empty events mesh ↔
      ∀ node ∈ bootstrap :: joiners events, ∀ id ∈ bootstrap :: joiners events, node ≠ id →
        id ∈ mesh.peers node := by
  have h := joining_of_run haddr hrun
  constructor
  · intro hturn
    have hrelated : Joining addressing bootstrap mesh ∧ mesh.Related := by
      refine hturn.state_invariant (I := fun mesh => Joining addressing bootstrap mesh ∧ mesh.Related)
        ⟨joining_empty, fun _ _ _ _ hc => by cases hc⟩ ?_
      rintro t event u ⟨h, hr⟩ ⟨⟨hact, hrules⟩, hturn⟩
      have hstep := step_of_act hact
      exact ⟨h.step haddr hstep hrules, hr.step h hstep hturn⟩
    -- A joiner and the bootstrap node are the two ends of the connection it has made.
    have hboot : ∀ node ∈ joiners events,
        bootstrap ∈ mesh.peers node ∧ node ∈ mesh.peers bootstrap := by
      intro node hmem
      obtain ⟨c, conn, hc, hcaller, rfl⟩ := (mem_joiners_iff hrun).mp hmem
      rw [← (h.network c conn hc hcaller).1]
      exact h.edge hf hc
    have hacked : ∀ {c : Nat} {conn : Connection}, mesh.connection c = some conn →
        conn.knownPeers ≠ none := by
      intro c conn hc hnone
      exact (hf c conn hc).2 .dialer (h.unanswered c conn hc hnone)
    intro node hnode id hid hne
    rcases List.mem_cons.mp hnode with rfl | hnode'
    · exact (hboot id ((List.mem_cons.mp hid).resolve_left hne.symm)).2
    · rcases List.mem_cons.mp hid with rfl | hid'
      · exact (hboot node hnode').1
      · obtain ⟨c, conn, hc, hcaller, rfl⟩ := (mem_joiners_iff hrun).mp hnode'
        obtain ⟨c', conn', hc', hcaller', rfl⟩ := (mem_joiners_iff hrun).mp hid'
        have hcc : c ≠ c' := by
          rintro rfl
          exact hne (by rw [Option.some.inj (hc.symm.trans hc')])
        rcases hrelated.2 c c' conn conn' hc hc' hcaller hcaller' (hacked hc) (hacked hc') hcc with
          hn | hn
        · exact (h.edge_of_names hf hn).1
        · exact (h.edge_of_names hf hn).2
  · intro hmesh
    refine hrun.restrict _ ?_
    rintro cs t event u hbefore hjoins ⟨rest, rfl⟩
    by_contra hturn
    obtain ⟨v, hpre, hrest⟩ := hrun.split
    obtain rfl := (hbefore.snoc hjoins).unique
      (fun _ _ _ _ hu hu' => Option.some.inj (hu.1.symm.trans hu'.1)) hpre
    have ht := joining_of_run haddr hbefore
    have hstep := step_of_act hjoins.1
    obtain ⟨c, c', conn, conn', hc, hc', hcaller, hcaller', hne, hstrangers⟩ :=
      ht.strangers_of_overlap hstep hturn
    have hlater : Joining addressing bootstrap mesh ∧ mesh.Strangers conn.dialer conn'.dialer := by
      refine hrest.state_invariant (I := fun mesh => Joining addressing bootstrap mesh ∧
        mesh.Strangers conn.dialer conn'.dialer)
        ⟨ht.step haddr hstep hjoins.2, hstrangers⟩ ?_
      rintro t event u ⟨h, hs⟩ ⟨hact, hrules⟩
      exact ⟨h.step haddr (step_of_act hact) hrules, hs.step h (step_of_act hact)⟩
    obtain ⟨⟨c₁, conn₁, hc₁, hcaller₁, hd₁, -⟩, ⟨c₂, conn₂, hc₂, hcaller₂, hd₂, -⟩, hn, hn'⟩ := hlater.2
    have hmem := hmesh conn.dialer
      (List.mem_cons_of_mem _ ((mem_joiners_iff hrun).mpr ⟨c₁, conn₁, hc₁, hcaller₁, hd₁⟩))
      conn'.dialer
      (List.mem_cons_of_mem _ ((mem_joiners_iff hrun).mpr ⟨c₂, conn₂, hc₂, hcaller₂, hd₂⟩)) hne
    exact (h.names_of_mem hmem (ht.dialer_ne hc) (ht.dialer_ne hc')).elim hn hn'

/-! ### Two nodes that join -/

instance : (event : Event) → Decidable (mesh.JoinRules addressing bootstrap event)
  | .connectToPeer node address => inferInstanceAs (Decidable (node ≠ bootstrap ∧
      addressing.listener address = some bootstrap ∧
      ∀ c conn, mesh.connection c = some conn → conn.caller = .network → conn.dialer ≠ node))
  | .sendAck _ | .storePeer _ | .discover .. | .endOfStream _ | .removePeer _ | .channelClosed _
  | .handshakeFails _ => isTrue rfl
  | .cut _ | .readerFails _ | .writerFails _ => isFalse Bool.noConfusion

instance : (event : Event) → Decidable (mesh.AcksInTurn bootstrap event)
  | .sendAck c => inferInstanceAs (Decidable (∀ conn ∈ mesh.connection c,
      conn.listener = bootstrap → ∀ c' conn', mesh.connection c' = some conn' →
        conn'.listener = bootstrap → conn'.knownPeers ≠ none →
        conn'.stage .listener ≠ .handshake))
  | .connectToPeer .. | .storePeer _ | .discover .. | .endOfStream _ | .removePeer _
  | .channelClosed _ | .handshakeFails _ | .cut _ | .readerFails _ | .writerFails _ =>
      isTrue trivial

instance : Decidable mesh.Finished :=
  inferInstanceAs (Decidable (∀ c conn, mesh.connection c = some conn →
    conn.toDiscover = ∅ ∧ ∀ side, conn.stage side ≠ .handshake))

/-- The steps that some rules admit, as a function. -/
def next (addressing : Addressing) (rules : Mesh → Event → Prop)
    [∀ mesh event, Decidable (rules mesh event)] (mesh : Mesh) (event : Event) : Option Mesh :=
  if rules mesh event then mesh.act addressing event else none

theorem next_eq_some {rules : Mesh → Event → Prop} [∀ mesh event, Decidable (rules mesh event)] :
    mesh.next addressing rules event = some mesh' ↔
      mesh.Acts addressing event mesh' ∧ rules mesh event := by
  unfold next
  by_cases hr : rules mesh event <;> simp [hr, Acts]

/-- A and C join at B, and C is answered after A is stored.  C hears of A, and connects to it. -/
def joinInTurn : List Event :=
  [.connectToPeer "A" "B", .connectToPeer "C" "B", .sendAck 0, .storePeer ⟨0, .listener⟩,
    .sendAck 1, .storePeer ⟨1, .listener⟩, .storePeer ⟨0, .dialer⟩, .storePeer ⟨1, .dialer⟩,
    .discover 1 ("A", "A"), .sendAck 2, .storePeer ⟨2, .listener⟩, .storePeer ⟨2, .dialer⟩]

/-- All three know each other then. -/
theorem discovery_forms_mesh_in_turn : ∃ mesh, Run (Joins plain "B") empty joinInTurn mesh ∧
    mesh.Finished ∧ ∀ node ∈ ["B", "A", "C"], ∀ id ∈ ["B", "A", "C"], node ≠ id →
      id ∈ mesh.peers node := by
  obtain ⟨mesh, hexec, hf⟩ := exists_run_of_execute
    (next plain fun mesh event => mesh.JoinRules plain "B" event ∧ mesh.AcksInTurn "B" event)
    empty joinInTurn (fun mesh => mesh.Finished) (by decide +kernel)
  have hturn : Run (fun mesh event mesh' => Joins plain "B" mesh event mesh' ∧
      mesh.AcksInTurn "B" event) empty joinInTurn mesh :=
    hexec.mono fun h => ⟨⟨(next_eq_some.mp h).1, (next_eq_some.mp h).2.1⟩, (next_eq_some.mp h).2.2⟩
  have hrun := hturn.mono fun h => h.1
  exact ⟨mesh, hrun, hf, (discovery_forms_mesh (fun _ => rfl) hrun hf).mp hturn⟩

/-- A and C join at B, and both are answered before either is stored. -/
def joinTogether : List Event :=
  [.connectToPeer "A" "B", .connectToPeer "C" "B", .sendAck 0, .sendAck 1,
    .storePeer ⟨0, .listener⟩, .storePeer ⟨1, .listener⟩, .storePeer ⟨0, .dialer⟩,
    .storePeer ⟨1, .dialer⟩]

/-- Everything is finished then, and A and C do not know each other. -/
theorem joining_together_leaves_gap : ∃ mesh, Run (Joins plain "B") empty joinTogether mesh ∧
    (∀ node, plain.listener (plain.address node) = some node) ∧ mesh.Finished ∧
    mesh.Settled plain ∧ "A" ∈ joiners joinTogether ∧ "C" ∈ joiners joinTogether ∧
    "C" ∉ mesh.peers "A" ∧ "A" ∉ mesh.peers "C" := by
  obtain ⟨mesh, hexec, hf, hs, hA, hC⟩ := exists_run_of_execute
    (next plain fun mesh event => mesh.JoinRules plain "B" event) empty joinTogether
    (fun mesh => mesh.Finished ∧ mesh.Settled plain ∧ "C" ∉ mesh.peers "A" ∧ "A" ∉ mesh.peers "C")
    (by decide +kernel)
  exact ⟨mesh, hexec.mono fun h => next_eq_some.mp h, fun _ => rfl, hf, hs, by decide, by decide,
    hA, hC⟩

end Mesh

end P2pPbft
