/-
Instances do not get stuck.

An instance moves on when a handler looks at it, so it must not happen that an
instance could move on and no handler is going to look.  Every handler that adds a
vote, or a pre-prepare, goes on to the section that looks, and that is enough:
`Attentive` holds along every run.

What is in a log entry stays there while no checkpoint gets stable, so a quorum,
once there, is there when the handler looks.
-/
import P2pPbft.Proofs.Finality

namespace P2pPbft

/-- The section would move the instance under the number on. -/
inductive ConsensusInstance.Due (quorum : Nat) (inst : ConsensusInstance) (s : SequenceNumber) :
    Section → Prop
  | prepared (hphase : inst.phase = .prePrepared) (hquorum : quorum ≤ inst.prepares.keys.card) :
      Due quorum inst s (.tryAdvanceToPrepared s)
  | committed (hphase : inst.phase = .prepared) (hquorum : quorum ≤ inst.commits.keys.card) :
      Due quorum inst s (.tryAdvanceToCommitted s)

namespace PbftState

/-- The section would move some instance on. -/
def Due (st : PbftState) (due : Section) : Prop :=
  ∃ s inst, st.log.lookup s = some inst ∧ inst.Due st.config.quorum s due

theorem due_of_instanceAt {st : PbftState} {s : SequenceNumber} {due : Section}
    (h : (st.instanceAt s).Due st.config.quorum s due) : st.Due due := by
  have hne : st.instanceAt s ≠ ConsensusInstance.new s st.view := fun hnew => by
    rw [hnew] at h
    cases h <;> exact Phase.noConfusion (by assumption)
  obtain ⟨inst, hlookup⟩ := lookup_of_instanceAt_ne hne
  rw [instanceAt_of_lookup hlookup] at h
  exact ⟨s, inst, hlookup, h⟩

/-- If an instance is due that was not before, it is the one that was written. -/
theorem Due.of_insert (st : PbftState) {st' : PbftState} {s : SequenceNumber}
    {inst : ConsensusInstance} {due : Section} (h : st'.Due due)
    (hlog : st'.log = st.log.insert s inst) (hconfig : st'.config = st.config) :
    st.Due due ∨ inst.Due st.config.quorum s due := by
  obtain ⟨s', inst', hlookup, h⟩ := h
  rw [hconfig] at h
  rw [hlog] at hlookup
  rcases Table.lookup_insert_cases hlookup with ⟨rfl, rfl⟩ | ⟨-, hold⟩
  · exact Or.inr h
  · exact Or.inl ⟨s', inst', hold, h⟩

end PbftState

section

variable [Crypto] {st : PbftState} {issued : List Send} {now : Instant} {sec : Section}
  {out : Outcome}

theorem PbftState.Due.done {due : Section} (h : st.Due due) (hwf : WellFormed st issued) :
    ¬ (due.run st now).state.Due due := by
  obtain ⟨s, inst, hlookup, h⟩ := h
  have hok := hwf.entry s inst hlookup
  cases h with
  | prepared hphase hquorum =>
      obtain ⟨pp, hpp⟩ : ∃ pp, inst.prePrepare = some pp := by
        refine Option.ne_none_iff_exists'.mp fun hnone => ?_
        have hidle := (hok.idle hnone).2.2
        rw [hphase] at hidle
        exact Phase.noConfusion hidle
      rintro ⟨s', inst', hlookup', hdue⟩
      rw [Section.run, tryAdvanceToPrepared_of hlookup (by rw [hpp]; rfl) hphase hquorum
        (hok.digest pp hpp), Outcome.proceed_state] at hlookup'
      cases hdue with
      | prepared hphase' _ =>
          rw [lookup_setInstance, if_pos rfl] at hlookup'
          obtain rfl := Option.some.inj hlookup'
          exact Phase.noConfusion hphase'
  | committed hphase hquorum =>
      have hdone := lookup_tryAdvanceToCommitted_of hlookup hphase hquorum
      rintro ⟨s', inst', hlookup', hdue⟩
      cases hdue with
      | committed hphase' _ =>
          obtain rfl := Option.some.inj (hdone.symm.trans hlookup')
          exact Phase.noConfusion hphase'

/-- **A handler that makes an instance due goes on to the section that looks.** -/
theorem Transition.due (ht : Transition st now sec out) {due : Section} (h : out.state.Due due) :
    out.next = some due ∨ st.Due due := by
  cases ht with
  | propose request hp =>
      rw [Outcome.proceed_state, PbftState.proposed_eq] at h
      rcases h.of_insert st rfl rfl with hold | hnew
      · exact Or.inr hold
      · cases hnew with
        | prepared _ _ => exact Or.inl rfl
        | committed hphase _ => exact Phase.noConfusion hphase
  | accept pp hp =>
      rw [Outcome.proceed_state, PbftState.record_eq] at h
      rcases h.of_insert st rfl rfl with hold | hnew
      · exact Or.inr hold
      · cases hnew with
        | prepared _ _ => exact Or.inl rfl
        | committed hphase _ => exact Phase.noConfusion hphase
  | storePrepare p hp =>
      rcases h.of_insert st rfl rfl with hold | hnew
      · exact Or.inr hold
      · cases hnew with
        | prepared _ _ => exact Or.inl rfl
        | committed hphase hquorum => exact Or.inr (PbftState.due_of_instanceAt (.committed hphase hquorum))
  | storeCommit c hc =>
      rcases h.of_insert st rfl rfl with hold | hnew
      · exact Or.inr hold
      · cases hnew with
        | prepared hphase hquorum => exact Or.inr (PbftState.due_of_instanceAt (.prepared hphase hquorum))
        | committed _ _ => exact Or.inl rfl
  | prepared s inst digest hlookup hpp hphase hquorum hdigest =>
      rcases h.of_insert st rfl rfl with hold | hnew
      · exact Or.inr hold
      · cases hnew with
        | prepared hphase' _ => exact Phase.noConfusion hphase'
        | committed _ _ => exact Or.inl rfl
  | committed s inst hlookup hphase hquorum hdone =>
      rcases h.of_insert st rfl rfl with hold | hnew
      · exact Or.inr hold
      · cases hnew with
        | prepared hphase' _ => exact Phase.noConfusion hphase'
        | committed hphase' _ => exact Phase.noConfusion hphase'
  | executed s inst request hlookup hphase hquorum hrequest hfresh =>
      rcases h.of_insert st rfl rfl with hold | hnew
      · exact Or.inr hold
      · cases hnew with
        | prepared hphase' _ => exact Phase.noConfusion hphase'
        | committed hphase' _ => exact Phase.noConfusion hphase'
  | stabilize checkpoint hquorum hnew =>
      obtain ⟨s, inst, hlookup, h⟩ := h
      exact Or.inr ⟨s, inst, (Table.lookup_retain_eq_some.mp hlookup).2, h⟩
  | _ => exact Or.inr h

/-! ### What is in the log stays there -/

/-- The entries keep what they hold: pre-prepares, and the voters of both kinds. -/
structure Grows (st st' : PbftState) : Prop where
  prePrepare : ∀ s, (st.instanceAt s).prePrepare.isSome → (st'.instanceAt s).prePrepare.isSome
  prepares : ∀ s id, id ∈ (st.instanceAt s).prepares → id ∈ (st'.instanceAt s).prepares
  commits : ∀ s id, id ∈ (st.instanceAt s).commits → id ∈ (st'.instanceAt s).commits

omit [Crypto] in
theorem Grows.refl (st : PbftState) : Grows st st := ⟨fun _ h => h, fun _ _ h => h, fun _ _ h => h⟩

/-- **Only a stable checkpoint takes anything out.** -/
theorem Transition.grows (ht : Transition st now sec out)
    (hsec : ∀ checkpoint, sec ≠ .handleCheckpoint checkpoint) : Grows st out.state := by
  have hentry : ∀ s, ((st.instanceAt s).prePrepare.isSome →
        (out.state.instanceAt s).prePrepare.isSome) ∧
      (∀ id, id ∈ (st.instanceAt s).prepares → id ∈ (out.state.instanceAt s).prepares) ∧
      ∀ id, id ∈ (st.instanceAt s).commits → id ∈ (out.state.instanceAt s).commits := by
    intro s
    cases hlookup : st.log.lookup s with
    | none =>
        rw [PbftState.instanceAt_of_none hlookup]
        refine ⟨fun h => ?_, fun id h => ?_, fun id h => ?_⟩
        · exact absurd h (by simp [ConsensusInstance.new])
        · exact absurd h Finmap.notMem_empty
        · exact absurd h Finmap.notMem_empty
    | some inst =>
        rcases ht.kept hlookup with ⟨inst', hlookup', hsame⟩ | ⟨-, -, -, checkpoint, heq⟩
        · rw [PbftState.instanceAt_of_lookup hlookup']
          rcases hsame with rfl | hwrite
          · rw [PbftState.instanceAt_of_lookup hlookup]
            exact ⟨fun h => h, fun _ h => h, fun _ h => h⟩
          cases hwrite with
          | propose _ _ _ _ _ =>
              exact ⟨fun _ => rfl, fun _ h => Finmap.mem_insert.mpr (Or.inr h), fun _ h => h⟩
          | accept _ _ _ _ =>
              exact ⟨fun _ => rfl, fun _ h => Finmap.mem_insert.mpr (Or.inr h), fun _ h => h⟩
          | storePrepare _ _ _ =>
              exact ⟨fun h => h, fun _ h => Finmap.mem_insert.mpr (Or.inr h), fun _ h => h⟩
          | storeCommit _ _ _ =>
              exact ⟨fun h => h, fun _ h => h, fun _ h => Finmap.mem_insert.mpr (Or.inr h)⟩
          | prepared s inst _ hl _ _ _ _ _ =>
              rw [PbftState.instanceAt_of_lookup hl]
              exact ⟨fun h => h, fun _ h => h, fun _ h => Finmap.mem_insert.mpr (Or.inr h)⟩
          | committed s inst hl _ _ _ _ =>
              rw [PbftState.instanceAt_of_lookup hl]
              exact ⟨fun h => h, fun _ h => h, fun _ h => h⟩
        · exact absurd heq (hsec checkpoint)
  exact ⟨fun s => (hentry s).1, fun s => (hentry s).2.1, fun s => (hentry s).2.2⟩

end

/-! ### Handlers in progress -/

section

variable [Crypto]

theorem Replica.grows_act {r r' : Replica} {a : Action} (h : r.act a = some r')
    (hsec : ∀ checkpoint, r.sectionOf a ≠ some (.handleCheckpoint checkpoint)) :
    Grows r.state r'.state := by
  rcases act_cases h with ⟨-, hstate, -⟩ | ⟨sec, hs, hstate, -⟩
  · rw [hstate]
    exact Grows.refl _
  · rw [hstate]
    refine (run_transition r.state a.now sec).grows fun checkpoint heq => ?_
    rw [heq] at hs
    exact hsec checkpoint hs

/-- For every section that would move an instance on there is a handler that goes on to it. -/
def Replica.Attentive (r : Replica) : Prop :=
  ∀ due, r.state.Due due → ∃ task ∈ r.tasks, task.next = some due

omit [Crypto] in
theorem Replica.attentive_new (nodeId : NodeId) (keypair : KeyPair) (replicas : Replicas)
    (config : PbftConfig) (now : Instant) :
    (new (PbftState.new nodeId keypair replicas config now)).Attentive := by
  rintro due ⟨s, inst, hlookup, -⟩
  exact absurd hlookup (by simp [new, PbftState.new])

/-- **No instance is ever left behind.** -/
theorem Replica.Attentive.act {r r' : Replica} {a : Action} (hr : r.Attentive)
    (hwf : WellFormed r.state r.issued) (h : r.act a = some r') : r'.Attentive := by
  intro due hdue
  have hheld : r.state.Due due → (∃ task ∈ r'.tasks, task.next = some due) ∨
      r.sectionOf a = some due := by
    intro hold
    obtain ⟨task, htask, hnext⟩ := hr due hold
    exact next_kept h htask hnext
  rcases act_cases h with ⟨hnone, hstate, -⟩ | ⟨sec, hsec, hstate, -⟩
  · rw [hstate] at hdue
    refine (hheld hdue).resolve_right fun hrun => ?_
    exact absurd (hnone.symm.trans hrun) (by simp)
  · rw [hstate] at hdue
    rcases (run_transition r.state a.now sec).due hdue with hnext | hold
    · exact next_of_run h hsec hnext
    refine (hheld hold).resolve_right fun hrun => ?_
    -- The handler that was to look has just looked, so the instance has moved on.
    obtain rfl := Option.some.inj (hsec.symm.trans hrun)
    exact absurd hdue (hold.done hwf)

/-- No instance is ever left behind along a run. -/
theorem Replica.attentive_of_run {rules : Replica → Action → Prop} {r₀ r : Replica}
    {as : List Action} (h : Run (Next rules) r₀ as r) (h₀ : r₀.Sound) (hattentive : r₀.Attentive) :
    r.Attentive := by
  have hboth := h.state_invariant (I := fun r => r.Sound ∧ r.Attentive) ⟨h₀, hattentive⟩
    fun hr hstep => ⟨hr.1.act hstep.2, hr.2.act hr.1.wellFormed hstep.2⟩
  exact hboth.2

end

end P2pPbft
