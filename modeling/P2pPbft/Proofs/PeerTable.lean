/-
The peer table against the connections.

What a table names is an end whose reader runs, or has ended a moment ago (`Wired`).  The
other way round is true only when everything has settled: a reader that runs says that
the other end still writes, so the other end is in the table over there, so its reader
runs, so this end writes, so it is in the table here.

A second connection to the same peer takes the place of the first in the table, and the
first takes the second with it when it is removed by the peer's id.
-/
import P2pPbft.Proofs.Connections
import Mathlib.Tactic.MkIffOfInductiveProp

namespace P2pPbft

namespace Mesh

variable {addressing : Addressing} {mesh mesh' : Mesh} {conn : Connection} {event : Event}
  {node id : NodeId} {socket : Socket}

/-! ### What a table names -/

theorem Live.of_reads (h : mesh.Reads node id socket) : mesh.Live node id socket :=
  ⟨h.1, .inl h.2⟩

theorem Live.step (h : mesh.Live node id socket) (hstep : Step addressing mesh event mesh') :
    mesh'.Live node id socket ∨ event = .removePeer socket := by
  have hplace := hstep.place h.1
  rcases h.2 with hs | hs
  all_goals
    rcases hstep.stage hs with hs' | ⟨conn, stage', hc, hs', hmoves⟩
  · exact .inl ⟨hplace, .inl hs'⟩
  · rw [stage_of_connection hc] at hs
    cases hmoves with
    | storePeer hstage => exact .inl ⟨hplace, .inl hs'⟩
    | endOfStream => exact .inl ⟨hplace, .inr hs'⟩
    | readerFails => exact .inl ⟨hplace, .inr hs'⟩
    | removePeer => exact .inr rfl
    | handshakeFails hstage => simp [hstage] at hs
  · exact .inl ⟨hplace, .inr hs'⟩
  · rw [stage_of_connection hc] at hs
    cases hmoves with
    | storePeer hstage => simp [hstage] at hs
    | endOfStream hstage => simp [hstage] at hs
    | readerFails hstage => simp [hstage] at hs
    | removePeer => exact .inr rfl
    | handshakeFails hstage => simp [hstage] at hs

/-- What holds of tables and connections after any events at all. -/
structure Wired (mesh : Mesh) : Prop where
  live : ∀ {node id socket}, mesh.stored node id = some socket → mesh.Live node id socket
  answers : ∀ c conn, mesh.connection c = some conn → conn.knownPeers = none →
    conn.stage .listener = .handshake ∨ conn.broken = true

theorem Wired.step (h : mesh.Wired) (hstep : Step addressing mesh event mesh') : mesh'.Wired where
  live := by
    intro node id socket hstored
    rcases hstep.stored node id with hsame | ⟨s, rfl, hplace, hs⟩ | ⟨s, rfl, hplace, hs⟩
    · rcases (h.live (hsame ▸ hstored)).step hstep with hlive | rfl
      · exact hlive
      · have hnone := hstep.removePeer_stored (h.live (hsame ▸ hstored)).1
        rw [hstored] at hnone
        cases hnone
    · obtain rfl := Option.some.inj (hs.symm.trans hstored)
      exact ⟨hstep.place hplace, .inl (hstep.storePeer_stored hplace).2⟩
    · rw [hs] at hstored
      cases hstored
  answers := by
    intro c conn' hc' hnone
    rcases hstep.origin c conn' hc' with ⟨conn, hc, hevolves⟩ | ⟨-, hopens⟩
    · have hb : conn.broken = true → conn'.broken = true := by
        intro hb
        rcases hevolves.broken with hsame | ⟨hb', -⟩
        · exact hsame.trans hb
        · exact hb'
      have hack := hevolves.knownPeers.eq_none_of_eq_none hnone
      rcases h.answers c conn hc hack with hstage | hbroken
      · rcases hevolves.stage .listener with hsame | hmoves
        · exact .inl (hsame.trans hstage)
        · generalize conn'.stage .listener = stage' at hmoves
          cases hmoves with
          | storePeer _ hne => exact absurd hack hne
          | endOfStream hs => exact absurd (hstage.symm.trans hs) (by simp)
          | readerFails hs => exact absurd (hstage.symm.trans hs) (by simp)
          | removePeer hs => exact absurd (hstage.symm.trans hs) (by simp)
          | handshakeFails _ hbroken => exact .inr (hb hbroken)
      · exact .inr (hb hbroken)
    · obtain ⟨_, _, _, _, rfl⟩ := hopens.eq_new
      exact .inl rfl

theorem wired_empty : empty.Wired where
  live hstored := by cases hstored
  answers _ _ hc := by cases hc

theorem wired_of_run {events : List Event} (h : Run (Acts addressing) empty events mesh) :
    mesh.Wired :=
  h.state_invariant wired_empty fun hI hstep => hI.step (step_of_act hstep)

/-! ### When everything has settled -/

/-- None of the tasks of a connection can go on. -/
@[mk_iff]
structure Waits (mesh : Mesh) (c : Nat) (conn : Connection) : Prop where
  sendAck : ¬ (conn.stage .listener = .handshake ∧ conn.knownPeers = none)
  storePeer : ∀ side, ¬ (conn.stage side = .handshake ∧ conn.knownPeers.isSome)
  discover : conn.toDiscover = ∅
  endOfStream : ∀ side, ¬ (conn.stage side = .reading ∧
    (conn.writing side.other = false ∨ conn.broken = true))
  removePeer : ∀ side, conn.stage side ≠ .ended
  channelClosed : ∀ side, ¬ (conn.stage side ≠ .handshake ∧ conn.writing side = true ∧
    mesh.stored (conn.node side) (conn.peer side) ≠ some ⟨c, side⟩)
  handshakeFails : ∀ side, ¬ (conn.stage side = .handshake ∧ conn.broken = true)

theorem settled_iff :
    mesh.Settled addressing ↔ ∀ c conn, mesh.connection c = some conn → mesh.Waits c conn := by
  constructor
  · intro h c conn hc
    have hnot : ∀ (event : Event) {ready : Connection → Prop} [DecidablePred ready]
        {effect : Connection → Mesh}, event.isTask = true →
        mesh.act addressing event = mesh.step c ready effect → ¬ ready conn :=
      fun _ _ _ _ htask hact => step_eq_none.mp (hact.symm.trans (h _ htask)) conn hc
    refine ⟨?_, ?_, ?_, ?_, ?_, ?_, ?_⟩
    · exact hnot (.sendAck c) rfl rfl
    · exact fun side => hnot (.storePeer ⟨c, side⟩) rfl rfl
    · exact Finset.eq_empty_of_forall_notMem fun peer => hnot (.discover c peer) rfl rfl
    · exact fun side => hnot (.endOfStream ⟨c, side⟩) rfl rfl
    · exact fun side => hnot (.removePeer ⟨c, side⟩) rfl rfl
    · exact fun side => hnot (.channelClosed ⟨c, side⟩) rfl rfl
    · exact fun side => hnot (.handshakeFails ⟨c, side⟩) rfl rfl
  · intro h event htask
    cases event with
    | sendAck c => exact step_eq_none.mpr fun conn hc => (h c conn hc).sendAck
    | storePeer s => exact step_eq_none.mpr fun conn hc => (h _ conn hc).storePeer s.side
    | discover c peer =>
        refine step_eq_none.mpr fun conn hc => ?_
        rw [(h c conn hc).discover]
        exact Finset.notMem_empty peer
    | endOfStream s => exact step_eq_none.mpr fun conn hc => (h _ conn hc).endOfStream s.side
    | removePeer s => exact step_eq_none.mpr fun conn hc => (h _ conn hc).removePeer s.side
    | channelClosed s => exact step_eq_none.mpr fun conn hc => (h _ conn hc).channelClosed s.side
    | handshakeFails s => exact step_eq_none.mpr fun conn hc => (h _ conn hc).handshakeFails s.side
    | connectToPeer node address => cases htask
    | cut c => cases htask
    | readerFails s => cases htask
    | writerFails s => cases htask

instance {p : Side → Prop} [DecidablePred p] : Decidable (∀ side, p side) :=
  decidable_of_iff (p .dialer ∧ p .listener)
    ⟨fun h side => by cases side with
      | dialer => exact h.1
      | listener => exact h.2, fun h => ⟨h .dialer, h .listener⟩⟩

instance (c : Nat) (conn : Connection) : Decidable (mesh.Waits c conn) :=
  decidable_of_iff' _ (waits_iff ..)

/-- What holds of every connection can be checked one by one. -/
instance {p : Nat → Connection → Prop} [∀ c conn, Decidable (p c conn)] :
    Decidable (∀ c conn, mesh.connection c = some conn → p c conn) :=
  decidable_of_iff (∀ c < mesh.connections.length, ∀ conn ∈ mesh.connection c, p c conn)
    ⟨fun h c conn hc => h c (List.getElem?_eq_some_iff.mp hc).1 conn hc,
      fun h c _ conn hc => h c conn hc⟩

instance : Decidable (mesh.Settled addressing) :=
  decidable_of_iff' _ settled_iff

theorem Waits.stage_ne_handshake {c : Nat} (h : mesh.Waits c conn) (hw : mesh.Wired)
    (hc : mesh.connection c = some conn) (side : Side) : conn.stage side ≠ .handshake := by
  intro hstage
  cases hack : conn.knownPeers with
  | some known => exact h.storePeer side ⟨hstage, by simp [hack]⟩
  | none =>
      rcases hw.answers c conn hc hack with hlistener | hbroken
      · exact h.sendAck ⟨hlistener, hack⟩
      · exact h.handshakeFails side ⟨hstage, hbroken⟩

theorem Waits.stored_of_writing {c : Nat} (h : mesh.Waits c conn) (hw : mesh.Wired)
    (hc : mesh.connection c = some conn) {side : Side} (hwriting : conn.writing side = true) :
    mesh.stored (conn.node side) (conn.peer side) = some ⟨c, side⟩ := by
  by_contra hgone
  exact h.channelClosed side ⟨h.stage_ne_handshake hw hc side, hwriting, hgone⟩

theorem Waits.reading_of_stored {c : Nat} (h : mesh.Waits c conn) (hw : mesh.Wired)
    (hc : mesh.connection c = some conn) {side : Side}
    (hstored : mesh.stored (conn.node side) (conn.peer side) = some ⟨c, side⟩) :
    conn.stage side = .reading := by
  have hs := (hw.live hstored).2
  rw [stage_mk hc, Option.some.injEq, Option.some.injEq] at hs
  exact hs.resolve_right (h.removePeer side)

theorem Waits.not_broken {c : Nat} (h : mesh.Waits c conn) {side : Side}
    (hs : conn.stage side = .reading) : conn.broken = false := by
  by_contra hb
  exact h.endOfStream side ⟨hs, .inr (by simpa using hb)⟩

theorem Waits.writing_other {c : Nat} (h : mesh.Waits c conn) {side : Side}
    (hs : conn.stage side = .reading) : conn.writing side.other = true := by
  by_contra hwr
  exact h.endOfStream side ⟨hs, .inl (by simpa using hwr)⟩

/-- An end that reads makes its connection whole: each end reads, writes and is stored. -/
theorem Waits.whole {c : Nat} (h : mesh.Waits c conn) (hw : mesh.Wired)
    (hc : mesh.connection c = some conn) {side : Side} (hs : conn.stage side = .reading) :
    ∀ side', conn.stage side' = .reading ∧ conn.writing side' = true ∧
      mesh.stored (conn.node side') (conn.peer side') = some ⟨c, side'⟩ := by
  have hwo := h.writing_other hs
  have hstoredo := h.stored_of_writing hw hc hwo
  have hso := h.reading_of_stored hw hc hstoredo
  have hwr : conn.writing side = true := by simpa using h.writing_other hso
  intro side'
  rcases Side.eq_or_eq_other side side' with rfl | rfl
  · exact ⟨hs, hwr, h.stored_of_writing hw hc hwr⟩
  · exact ⟨hso, hwo, hstoredo⟩

/-- When all has settled, the sockets in the table are those that read. -/
theorem stored_iff_reads (hw : mesh.Wired) (hs : mesh.Settled addressing) :
    mesh.stored node id = some socket ↔ mesh.Reads node id socket := by
  constructor
  · intro hstored
    have hlive := hw.live hstored
    obtain ⟨conn, hc, rfl, rfl⟩ := exists_connection_of_place hlive.1
    refine ⟨hlive.1, ?_⟩
    rw [stage_of_connection hc, (settled_iff.mp hs _ _ hc).reading_of_stored hw hc hstored]
  · rintro ⟨hplace, hstage⟩
    obtain ⟨conn, hc, rfl, rfl⟩ := exists_connection_of_place hplace
    rw [stage_of_connection hc, Option.some.injEq] at hstage
    exact ((settled_iff.mp hs _ _ hc).whole hw hc hstage _).2.2

theorem writing_of_reads (hw : mesh.Wired) (hs : mesh.Settled addressing)
    (hr : mesh.Reads node id socket) : mesh.writing socket = some true := by
  obtain ⟨conn, hc, hstage⟩ := exists_connection_of_stage hr.2
  rw [writing, hc, Option.map_some, ((settled_iff.mp hs _ _ hc).whole hw hc hstage _).2.1]

/-! ### One connection at a time -/

/-- Every connection is closed, or it stands: nothing has failed, and an end that is
through its handshake reads, writes and is stored. -/
def Standing (mesh : Mesh) : Prop :=
  ∀ c conn, mesh.connection c = some conn → (∀ side, conn.stage side = .closed) ∨
    conn.broken = false ∧ ∀ side, conn.writing side = true ∧ (conn.stage side = .handshake ∨
      conn.stage side = .reading ∧
        mesh.stored (conn.node side) (conn.peer side) = some ⟨c, side⟩)

theorem standing_of_settled (hw : mesh.Wired) (hs : mesh.Settled addressing) : mesh.Standing := by
  intro c conn hc
  have hwaits := settled_iff.mp hs c conn hc
  by_cases h : ∃ side, conn.stage side = .reading
  · obtain ⟨side, hreading⟩ := h
    have hwhole := hwaits.whole hw hc hreading
    exact .inr ⟨hwaits.not_broken hreading, fun side' =>
      ⟨(hwhole side').2.1, .inr ⟨(hwhole side').1, (hwhole side').2.2⟩⟩⟩
  · refine .inl fun side => ?_
    cases hstage : conn.stage side with
    | handshake => exact absurd hstage (hwaits.stage_ne_handshake hw hc side)
    | reading => exact absurd ⟨side, hstage⟩ h
    | ended => exact absurd hstage (hwaits.removePeer side)
    | closed => rfl

theorem Standing.stage_ne_ended (h : mesh.Standing) : mesh.stage socket ≠ some .ended := by
  intro hended
  obtain ⟨conn, hc, hstage⟩ := exists_connection_of_stage hended
  rcases h _ conn hc with hclosed | ⟨-, hopen⟩
  · simp [hclosed] at hstage
  · rcases (hopen socket.side).2 with hs | ⟨hs, -⟩ <;> simp [hs] at hstage

theorem Standing.stored_step (h : mesh.Standing) (hstep : Step addressing mesh event mesh')
    (honce : mesh.StoresOnce event) (hr : mesh.Reads node id socket)
    (hstored : mesh.stored node id = some socket) : mesh'.stored node id = some socket := by
  rcases hstep.stored node id with hsame | ⟨s, rfl, hplace, -⟩ | ⟨s, rfl, -, -⟩
  · exact hsame.trans hstored
  · exact absurd (Live.of_reads hr) (honce node id hplace socket)
  · exact absurd hstep.removePeer_stage h.stage_ne_ended

theorem Standing.step (h : mesh.Standing) (hstep : Step addressing mesh event mesh')
    (hok : event.isFailure = false) (honce : mesh.StoresOnce event) : mesh'.Standing := by
  intro c conn' hc'
  rcases hstep.origin c conn' hc' with ⟨conn, hc, hevolves⟩ | ⟨-, hopens⟩
  · rcases h c conn hc with hclosed | ⟨hbroken, hopen⟩
    · refine .inl fun side => ?_
      rcases hevolves.stage side with hsame | hmoves
      · exact hsame.trans (hclosed side)
      · exact absurd (hclosed side) hmoves.stage_ne_closed
    · refine .inr ⟨?_, fun side => ⟨?_, ?_⟩⟩
      · rcases hevolves.broken with hsame | ⟨-, rfl⟩
        · exact hsame.trans hbroken
        · cases hok
      · rcases hevolves.writing side with hsame | hstops
        · exact hsame.trans (hopen side).1
        · cases hstops with
          | channelClosed hstage hgone =>
              exact absurd ((hopen side).2.resolve_left hstage).2 hgone
          | handshakeFails hb => exact absurd (hbroken.symm.trans hb) (by simp)
          | writerFails => cases hok
      · have hpeer : conn'.peer side = conn.peer side := hevolves.node side.other
        rw [hevolves.node side, hpeer]
        rcases hevolves.stage side with hsame | hmoves
        · rw [hsame]
          refine (hopen side).2.imp_right fun ⟨hreading, hstored⟩ => ⟨hreading, ?_⟩
          refine h.stored_step hstep honce ⟨?_, ?_⟩ hstored
          · exact place_mk hc side
          · rw [stage_mk hc, hreading]
        · generalize conn'.stage side = stage' at hmoves
          cases hmoves with
          | storePeer hs hack =>
              exact .inr ⟨rfl, (hstep.storePeer_stored (place_of_connection hc)).1⟩
          | endOfStream hs hend =>
              rcases hend with hwr | hb
              · exact absurd (hwr.symm.trans (hopen side.other).1) (by simp)
              · exact absurd (hbroken.symm.trans hb) (by simp)
          | readerFails => cases hok
          | removePeer hs =>
              rcases (hopen side).2 with hs' | ⟨hs', -⟩ <;> exact absurd (hs'.symm.trans hs) (by simp)
          | handshakeFails _ hb => exact absurd (hbroken.symm.trans hb) (by simp)
  · obtain ⟨_, _, _, _, rfl⟩ := hopens.eq_new
    exact .inr ⟨rfl, fun side => ⟨rfl, .inl rfl⟩⟩

theorem Standing.mem_peers_of_run (h : mesh.Standing) (hw : mesh.Wired) {events : List Event}
    (hrun : Run (fun mesh event mesh' => mesh.Acts addressing event mesh' ∧
      event.isFailure = false ∧ mesh.StoresOnce event) mesh events mesh')
    (hmem : id ∈ mesh.peers node) : id ∈ mesh'.peers node := by
  obtain ⟨socket, hstored⟩ := mem_peers_iff.mp hmem
  have hkept : mesh'.Wired ∧ mesh'.Standing ∧ mesh'.stored node id = some socket := by
    refine hrun.state_invariant (I := fun mesh => mesh.Wired ∧ mesh.Standing ∧
      mesh.stored node id = some socket) ⟨hw, h, hstored⟩ ?_
    rintro t event u ⟨hw, h, hstored⟩ ⟨hact, hok, honce⟩
    have hstep := step_of_act hact
    have hlive := hw.live hstored
    have hreads : t.Reads node id socket := ⟨hlive.1, hlive.2.resolve_right h.stage_ne_ended⟩
    exact ⟨hw.step hstep, h.step hstep hok honce, h.stored_step hstep honce hreads hstored⟩
  exact mem_peers_iff.mpr ⟨socket, hkept.2.2⟩

/-! ### A second connection -/

/-- The first connection of a pair has lost its place in the table to the second, or has
already taken the second out of the table. -/
structure Doomed (mesh : Mesh) (node id : NodeId) (first second : Socket) : Prop where
  replaced : mesh.stored node id ≠ some first
  firstStage : mesh.stage first ≠ some .handshake ∧ mesh.stage first ≠ none
  secondStage : mesh.stage second ≠ some .handshake ∧ mesh.stage second ≠ none
  cascade : mesh.Live node id first ∨ mesh.stored node id ≠ some second

theorem stage_step_ne (hstep : Step addressing mesh event mesh')
    (h : mesh.stage socket ≠ some .handshake ∧ mesh.stage socket ≠ none) :
    mesh'.stage socket ≠ some .handshake ∧ mesh'.stage socket ≠ none := by
  obtain ⟨stage, hs⟩ := Option.ne_none_iff_exists'.mp h.2
  rcases hstep.stage hs with hs' | ⟨conn, stage', hc, hs', hmoves⟩
  · rw [hs', ← hs]
    exact h
  · rw [hs']
    cases hmoves <;> simp

/-- What is no longer in the table and past its handshake is never there again. -/
theorem stored_step_ne (hstep : Step addressing mesh event mesh')
    (hstage : mesh.stage socket ≠ some .handshake) (h : mesh.stored node id ≠ some socket) :
    mesh'.stored node id ≠ some socket := by
  rcases hstep.stored node id with hsame | ⟨s, rfl, -, hs⟩ | ⟨s, rfl, -, hs⟩
  · rwa [hsame]
  · rw [hs]
    rintro ⟨⟩
    exact hstage hstep.storePeer_stage
  · rw [hs]
    simp

theorem Doomed.step {first second : Socket} (h : mesh.Doomed node id first second)
    (hstep : Step addressing mesh event mesh') : mesh'.Doomed node id first second where
  replaced := stored_step_ne hstep h.firstStage.1 h.replaced
  firstStage := stage_step_ne hstep h.firstStage
  secondStage := stage_step_ne hstep h.secondStage
  cascade := by
    rcases h.cascade with hlive | hgone
    · rcases hlive.step hstep with hlive' | rfl
      · exact .inl hlive'
      · rw [hstep.removePeer_stored hlive.1]
        exact .inr (by simp)
    · exact .inr (stored_step_ne hstep h.secondStage.1 hgone)

/-- A settled end that is through its handshake and in no table is closed. -/
theorem stage_eq_closed (hw : mesh.Wired) (hs : mesh.Settled addressing)
    (hplace : mesh.place socket = some (node, id))
    (hstage : mesh.stage socket ≠ some .handshake) (h : mesh.stored node id ≠ some socket) :
    mesh.stage socket = some .closed := by
  obtain ⟨conn, hc, -, -⟩ := exists_connection_of_place hplace
  have hconn := stage_of_connection hc
  cases hcase : conn.stage socket.side with
  | handshake => exact absurd (hconn.trans (congrArg some hcase)) hstage
  | reading => exact absurd ((stored_iff_reads hw hs).mpr ⟨hplace, hcase ▸ hconn⟩) h
  | ended => exact absurd hcase ((settled_iff.mp hs _ _ hc).removePeer socket.side)
  | closed => exact hcase ▸ hconn

/--
**A second connection is fatal to both.**  When a node stores a peer to whom a connection
is live already, neither of the two connections is left once nothing moves, whatever
happens in between.
-/
theorem second_connection_closes {events events' : List Event} {first second : Socket}
    {mesh₁ later : Mesh} (h : Run (Acts addressing) empty events mesh)
    (hact : mesh.Acts addressing (.storePeer second) mesh₁)
    (hplace : mesh.place second = some (node, id)) (hlive : mesh.Live node id first)
    (h' : Run (Acts addressing) mesh₁ events' later) (hs : later.Settled addressing) :
    later.stage first = some .closed ∧ later.stage second = some .closed := by
  have hstep := step_of_act hact
  have hne : second ≠ first := by
    rintro rfl
    rcases hlive.2 with hstage | hstage <;>
      exact absurd (hstep.storePeer_stage.symm.trans hstage) (by simp)
  have hstored := hstep.storePeer_stored hplace
  have hlive₁ : mesh₁.Live node id first := by
    rcases hlive.step hstep with hlive₁ | hremove
    · exact hlive₁
    · cases hremove
  have hdoomed : mesh₁.Doomed node id first second := by
    refine ⟨?_, ?_, ?_, .inl hlive₁⟩
    · rw [hstored.1]
      simpa using hne
    · rcases hlive₁.2 with hstage | hstage <;> simp [hstage]
    · simp [hstored.2]
  have hw := (wired_of_run h).step hstep
  -- The places of the two sockets and the fate of the connections are kept by every step.
  have hlater : later.Wired ∧ later.Doomed node id first second ∧
      later.place first = some (node, id) ∧ later.place second = some (node, id) := by
    refine h'.state_invariant (I := fun mesh => mesh.Wired ∧ mesh.Doomed node id first second ∧
      mesh.place first = some (node, id) ∧ mesh.place second = some (node, id))
      ⟨hw, hdoomed, hlive₁.1, hstep.place hplace⟩ ?_
    rintro t event u ⟨hw, hd, hp₁, hp₂⟩ hact
    have hstep := step_of_act hact
    exact ⟨hw.step hstep, hd.step hstep, hstep.place hp₁, hstep.place hp₂⟩
  obtain ⟨hw, hd, hp₁, hp₂⟩ := hlater
  have hfirst := stage_eq_closed hw hs hp₁ hd.firstStage.1 hd.replaced
  refine ⟨hfirst, stage_eq_closed hw hs hp₂ hd.secondStage.1 (hd.cascade.resolve_left ?_)⟩
  rintro ⟨-, hstage | hstage⟩ <;> rw [hfirst] at hstage <;> cases hstage

/--
**The peer table reflects the connections.**  Whatever connections were opened and ended,
once nothing moves a node has stored exactly those peers it reads from, and the channel of
what it has stored is drained.  From there on, while nobody stores a peer to whom a
connection is live already, and nothing fails, no peer is ever lost; and as soon as somebody
does, neither of the two connections is left once nothing moves.
-/
theorem peer_table_reflects_connections {events : List Event}
    (h : Run (Acts addressing) empty events mesh) (hs : mesh.Settled addressing) :
    (∀ node id, (id ∈ mesh.peers node ↔ ∃ socket, mesh.Reads node id socket) ∧
      ∀ handle, (mesh.peers node).lookup id = some handle →
        mesh.Reads node id handle.sender ∧ mesh.writing handle.sender = some true) ∧
    (∀ events' later, Run (fun mesh event mesh' => mesh.Acts addressing event mesh' ∧
        event.isFailure = false ∧ mesh.StoresOnce event) mesh events' later →
      ∀ node id, id ∈ mesh.peers node → id ∈ later.peers node) ∧
    ∀ events₁ mesh₁ first second mesh₂ events₂ later, Run (Acts addressing) mesh events₁ mesh₁ →
      mesh₁.Acts addressing (.storePeer second) mesh₂ →
      ∀ node id, mesh₁.place second = some (node, id) → mesh₁.Live node id first →
      Run (Acts addressing) mesh₂ events₂ later → later.Settled addressing →
      later.stage first = some .closed ∧ later.stage second = some .closed := by
  have hw := wired_of_run h
  refine ⟨fun node id => ⟨?_, ?_⟩, ?_, ?_⟩
  · rw [mem_peers_iff]
    exact exists_congr fun socket => stored_iff_reads hw hs
  · intro handle hlookup
    have hstored : mesh.stored node id = some handle.sender := by
      rw [stored, hlookup, Option.map_some]
    have hreads := (stored_iff_reads hw hs).mp hstored
    exact ⟨hreads, writing_of_reads hw hs hreads⟩
  · intro events' later hrun node id hmem
    exact (standing_of_settled hw hs).mem_peers_of_run hw hrun hmem
  · intro events₁ mesh₁ first second mesh₂ events₂ later h₁ hact node id hplace hlive h₂ hlater
    exact second_connection_closes (h.append h₁) hact hplace hlive h₂ hlater

/-! ### A pair that connects twice -/

/-- It is enough to look at the connections there have been. -/
theorem storesOnce_iff : mesh.StoresOnce (.storePeer socket) ↔
    ∀ c conn, mesh.connection c = some conn → ∀ side, mesh.place ⟨c, side⟩ = mesh.place socket →
      ¬ (conn.stage side = .reading ∨ conn.stage side = .ended) := by
  constructor
  · intro h c conn hc side hsame hstage
    have hplace := place_mk hc side
    refine h _ _ (hsame.symm.trans hplace) ⟨c, side⟩ ⟨hplace, ?_⟩
    rwa [stage_mk hc, Option.some.injEq, Option.some.injEq]
  · rintro h node id hplace other ⟨hplace', hstage⟩
    obtain ⟨conn, hc, -, -⟩ := exists_connection_of_place hplace'
    rw [stage_of_connection hc, Option.some.injEq, Option.some.injEq] at hstage
    exact h _ conn hc other.side (hplace'.trans hplace.symm) hstage

instance : (event : Event) → Decidable (mesh.StoresOnce event)
  | .storePeer _ => decidable_of_iff' _ storesOnce_iff
  | .connectToPeer .. | .sendAck _ | .discover .. | .endOfStream _ | .removePeer _
  | .channelClosed _ | .handshakeFails _ | .cut _ | .readerFails _ | .writerFails _ =>
      isTrue trivial

/-- A step in which nothing fails and nobody is stored twice, as a function. -/
def nextOnce (addressing : Addressing) (mesh : Mesh) (event : Event) : Option Mesh :=
  if event.isFailure = false ∧ mesh.StoresOnce event then mesh.act addressing event else none

theorem nextOnce_eq_some : mesh.nextOnce addressing event = some mesh' ↔
    mesh.Acts addressing event mesh' ∧ event.isFailure = false ∧ mesh.StoresOnce event := by
  unfold nextOnce
  by_cases h : event.isFailure = false ∧ mesh.StoresOnce event <;> simp [h, Acts]

/-- A network in which the address of a node is its id. -/
def plain : Addressing where
  listener := some
  address node := node

/-- A connects to B, and both come through the handshake. -/
def connectOnce : List Event :=
  [.connectToPeer "A" "B", .sendAck 0, .storePeer ⟨0, .listener⟩, .storePeer ⟨0, .dialer⟩]

/-- C connects to B, and to A, of whom it hears. -/
def thirdJoins : List Event :=
  [.connectToPeer "C" "B", .sendAck 1, .storePeer ⟨1, .listener⟩, .storePeer ⟨1, .dialer⟩,
    .discover 1 ("A", "A"), .sendAck 2, .storePeer ⟨2, .listener⟩, .storePeer ⟨2, .dialer⟩]

/-- A connects to B again.  The first connection is taken down by its own removal from the
tables, and takes the second one with it. -/
def connectAgain : List Event :=
  [.connectToPeer "A" "B", .sendAck 1, .storePeer ⟨1, .listener⟩, .storePeer ⟨1, .dialer⟩,
    .discover 1 ("A", "A"),
    .channelClosed ⟨0, .listener⟩, .endOfStream ⟨0, .dialer⟩, .removePeer ⟨0, .dialer⟩,
    .channelClosed ⟨0, .dialer⟩, .endOfStream ⟨0, .listener⟩, .removePeer ⟨0, .listener⟩,
    .channelClosed ⟨1, .dialer⟩, .endOfStream ⟨1, .listener⟩, .removePeer ⟨1, .listener⟩,
    .channelClosed ⟨1, .listener⟩, .endOfStream ⟨1, .dialer⟩, .removePeer ⟨1, .dialer⟩]

/-- When the pair is connected the tables are right.  They stay so when a third joins, and a
second connection is fatal to both. -/
theorem peer_table_reflects_connections_once : ∃ mesh,
    Run (Acts plain) empty connectOnce mesh ∧ mesh.Settled plain ∧
      "B" ∈ mesh.peers "A" ∧ "A" ∈ mesh.peers "B" ∧
      (∀ node id, (id ∈ mesh.peers node ↔ ∃ socket, mesh.Reads node id socket) ∧
        ∀ handle, (mesh.peers node).lookup id = some handle →
          mesh.Reads node id handle.sender ∧ mesh.writing handle.sender = some true) ∧
      (∃ later, Run (fun mesh event mesh' => mesh.Acts plain event mesh' ∧
          event.isFailure = false ∧ mesh.StoresOnce event) mesh thirdJoins later ∧
        "C" ∈ later.peers "B" ∧ "C" ∈ later.peers "A" ∧ "B" ∈ later.peers "A") ∧
      ∃ later, Run (Acts plain) mesh connectAgain later ∧
        later.stage ⟨0, .listener⟩ = some .closed ∧ later.stage ⟨1, .listener⟩ = some .closed := by
  obtain ⟨mesh, hrun, hs, hA, hB, hjoins, hagain⟩ := exists_run_of_execute (act plain) empty
    connectOnce (fun mesh => mesh.Settled plain ∧ "B" ∈ mesh.peers "A" ∧ "A" ∈ mesh.peers "B" ∧
      (execute (nextOnce plain) mesh thirdJoins).any (fun later =>
        decide ("C" ∈ later.peers "B" ∧ "C" ∈ later.peers "A")) = true ∧
      (execute (act plain) mesh (connectAgain.take 2)).any (fun mesh₁ => decide (
        mesh₁.place ⟨1, .listener⟩ = some ("B", "A") ∧
        mesh₁.place ⟨0, .listener⟩ = some ("B", "A") ∧
        mesh₁.stage ⟨0, .listener⟩ = some .reading ∧
        (mesh₁.act plain (.storePeer ⟨1, .listener⟩)).any (fun mesh₂ =>
          (execute (act plain) mesh₂ (connectAgain.drop 3)).any fun later =>
            decide (later.Settled plain)) = true)) = true) (by decide +kernel)
  obtain ⟨htable, hkeeps, hcloses⟩ := peer_table_reflects_connections hrun hs
  refine ⟨mesh, hrun, hs, hA, hB, htable, ?_, ?_⟩
  · obtain ⟨later, hrun', hCB, hCA⟩ := exists_run_of_execute (nextOnce plain) mesh thirdJoins
      (fun later => "C" ∈ later.peers "B" ∧ "C" ∈ later.peers "A") hjoins
    have honce := hrun'.mono fun h => nextOnce_eq_some.mp h
    exact ⟨later, honce, hCB, hCA, hkeeps _ later honce "A" "B" hA⟩
  · obtain ⟨mesh₁, hrun₁, hplace, hplace', hstage, hact⟩ := exists_run_of_execute (act plain) mesh
      (connectAgain.take 2) _ hagain
    obtain ⟨mesh₂, hact, hrest⟩ := (Option.any_eq_true _ _).mp hact
    obtain ⟨later, hrun₂, hs'⟩ := exists_run_of_execute (act plain) mesh₂ (connectAgain.drop 3)
      _ hrest
    exact ⟨later, (hrun₁.snoc hact).append hrun₂,
      hcloses _ mesh₁ _ _ mesh₂ _ later hrun₁ hact "B" "A" hplace ⟨hplace', .inl hstage⟩ hrun₂ hs'⟩

/-- The pair was connected, nothing has failed, and it ends up with no connection at all. -/
theorem second_connection_disconnects : ∃ mesh later,
    Run (Acts plain) empty connectOnce mesh ∧ mesh.Settled plain ∧
      "B" ∈ mesh.peers "A" ∧ "A" ∈ mesh.peers "B" ∧
      Run (Acts plain) mesh connectAgain later ∧ later.Settled plain ∧
      (∀ event ∈ connectAgain, event.isFailure = false) ∧
      "B" ∉ later.peers "A" ∧ "A" ∉ later.peers "B" := by
  obtain ⟨mesh, hrun, hs, hA, hB, hlater⟩ :=
    exists_run_of_execute (act plain) empty connectOnce
      (fun mesh => mesh.Settled plain ∧ "B" ∈ mesh.peers "A" ∧ "A" ∈ mesh.peers "B" ∧
        (execute (act plain) mesh connectAgain).any (fun later => decide (later.Settled plain ∧
          "B" ∉ later.peers "A" ∧ "A" ∉ later.peers "B")) = true) (by decide +kernel)
  obtain ⟨later, hrun', hs', hA', hB'⟩ := exists_run_of_execute (act plain) mesh connectAgain
    (fun later => later.Settled plain ∧ "B" ∉ later.peers "A" ∧ "A" ∉ later.peers "B") hlater
  exact ⟨mesh, later, hrun, hs, hA, hB, hrun', hs', by decide, hA', hB'⟩

end Mesh

end P2pPbft
