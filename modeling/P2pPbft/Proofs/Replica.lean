/-
The steps of a replica.

`Replica.Step` lists what an action can do to a replica, with the list of handlers
in progress split at the one that moves.  Two facts come straight from it.

  * The state and the record of sends change only by running a section, so an
    invariant of the two is proved by going through the transitions.
  * Every send a section decided on has been made or is still pending, and no
    other send is ever made.
-/
import P2pPbft.Proofs.Transition
import P2pPbft.Lib.Run
import Mathlib.Data.List.Perm.Basic

namespace P2pPbft

namespace Replica

/-! ### Reading a replica after an update -/

@[simp] theorem emit_state (r : Replica) (send : Send) : (r.emit send).state = r.state := by
  cases send <;> rfl

@[simp] theorem emit_issued (r : Replica) (send : Send) : (r.emit send).issued = r.issued := by
  cases send <;> rfl

@[simp] theorem emit_results (r : Replica) (send : Send) : (r.emit send).results = r.results := by
  cases send <;> rfl

@[simp] theorem enter_state (r : Replica) (out : Outcome) : (r.enter out).state = out.state := rfl

@[simp] theorem enter_issued (r : Replica) (out : Outcome) :
    (r.enter out).issued = r.issued ++ out.sends := rfl

@[simp] theorem enter_results (r : Replica) (out : Outcome) :
    (r.enter out).results = r.results := rfl

theorem sectionOf_resume {r : Replica} {before after : List Task} {next : Option Section}
    {result : Result} {now : Instant} (htasks : r.tasks = before ++ ⟨[], next, result⟩ :: after) :
    r.sectionOf (.resume before.length now) = next := by
  simp [sectionOf, htasks]

theorem sectionOf_resume_send {r : Replica} {before after : List Task} {send : Send}
    {sends : List Send} {next : Option Section} {result : Result} {now : Instant}
    (htasks : r.tasks = before ++ ⟨send :: sends, next, result⟩ :: after) :
    r.sectionOf (.resume before.length now) = none := by
  simp [sectionOf, htasks]

/-! ### Pending and made sends -/

/-- The sends the handlers in progress still have to make. -/
def pending (r : Replica) : List Send := r.tasks.flatMap (·.sends)

/-- The sends that were made. -/
def made (r : Replica) : List Send :=
  r.outgoing.map Send.outgoing ++ r.committed.map Send.committed

theorem made_emit (r : Replica) (send : Send) : ((r.emit send).made).Perm (send :: r.made) := by
  cases send with
  | outgoing message =>
      simp only [made, emit, List.map_append, List.map_cons, List.map_nil, List.append_assoc]
      exact List.perm_middle
  | committed request =>
      simp only [made, emit, List.map_append, List.map_cons, List.map_nil, ← List.append_assoc]
      exact (List.perm_append_singleton _ _)

/-- Nothing is sent that was not decided on, and nothing decided on is forgotten. -/
def Accounted (r : Replica) : Prop := r.issued.Perm (r.made ++ r.pending)

theorem accounted_new (st : PbftState) : (new st).Accounted := List.Perm.refl _

theorem Accounted.outgoing {r : Replica} (h : r.Accounted) {message : OutgoingMessage}
    (hm : message ∈ r.outgoing) : Send.outgoing message ∈ r.issued := by
  refine h.mem_iff.mpr (List.mem_append_left _ (List.mem_append_left _ ?_))
  exact List.mem_map_of_mem hm

theorem Accounted.committed {r : Replica} (h : r.Accounted) {request : Request}
    (hm : request ∈ r.committed) : Send.committed request ∈ r.issued := by
  refine h.mem_iff.mpr (List.mem_append_left _ (List.mem_append_right _ ?_))
  exact List.mem_map_of_mem hm

theorem Accounted.outgoing_of_idle {r : Replica} (h : r.Accounted) (hidle : r.tasks = [])
    {message : OutgoingMessage} (hissued : Send.outgoing message ∈ r.issued) :
    message ∈ r.outgoing := by
  have hpending : r.pending = [] := by simp [pending, hidle]
  have hmade := h.mem_iff.mp hissued
  rw [hpending, List.append_nil] at hmade
  simpa [made] using hmade

/-- A list split at one of its elements, and what replacing or dropping it gives. -/
private theorem split_at {α : Type} {l : List α} {i : Nat} {a : α} (h : l[i]? = some a) :
    ∃ before after, l = before ++ a :: after ∧ before.length = i ∧
      (∀ b, l.set i b = before ++ b :: after) ∧ l.eraseIdx i = before ++ after := by
  obtain ⟨hlt, hval⟩ := List.getElem?_eq_some_iff.mp h
  refine ⟨l.take i, l.drop (i + 1), ?_, by simp; omega, fun b => ?_, ?_⟩
  · rw [← hval, List.getElem_cons_drop, List.take_append_drop]
  · rw [List.set_eq_take_append_cons_drop, if_pos hlt]
  · rw [List.eraseIdx_eq_take_drop_succ]

/-! ### The steps -/

variable [Crypto]

/-- What an action does to a replica. -/
inductive Step (r : Replica) : Action → Replica → Prop
  | reply (call : Call) (now : Instant) (hentry : call.entry = none) :
      Step r (.call call now) { r with results := r.results ++ [.ok] }
  | start (call : Call) (now : Instant) (sec : Section) (hentry : call.entry = some sec) :
      Step r (.call call now)
        { r.enter (sec.run r.state now) with
          tasks := r.tasks ++ [(sec.run r.state now).task] }
  | send (before after : List Task) (now : Instant) (send : Send) (sends : List Send)
      (next : Option Section) (result : Result)
      (htasks : r.tasks = before ++ ⟨send :: sends, next, result⟩ :: after) :
      Step r (.resume before.length now)
        { r.emit send with tasks := before ++ ⟨sends, next, result⟩ :: after }
  | go (before after : List Task) (now : Instant) (sec : Section) (result : Result)
      (htasks : r.tasks = before ++ ⟨[], some sec, result⟩ :: after) :
      Step r (.resume before.length now)
        { r.enter (sec.run r.state now) with
          tasks := before ++ (sec.run r.state now).task :: after }
  | finish (before after : List Task) (now : Instant) (result : Result)
      (htasks : r.tasks = before ++ ⟨[], none, result⟩ :: after) :
      Step r (.resume before.length now)
        { r with tasks := before ++ after, results := r.results ++ [result] }

theorem step_of_act {r r' : Replica} {a : Action} (h : r.act a = some r') : Step r a r' := by
  cases a with
  | call call now =>
      simp only [act] at h
      split at h
      · rename_i hentry
        obtain rfl := Option.some.inj h
        exact Step.reply call now hentry
      · rename_i sec hentry
        obtain rfl := Option.some.inj h
        exact Step.start call now sec hentry
  | resume index now =>
      simp only [act] at h
      split at h
      · exact absurd h (by simp)
      all_goals
        rename_i htask
        obtain ⟨before, after, htasks, rfl, hset, herase⟩ := split_at htask
        simp only [hset, herase] at h
        obtain rfl := Option.some.inj h
      · exact Step.send before after now _ _ _ _ htasks
      · exact Step.go before after now _ _ htasks
      · exact Step.finish before after now _ htasks

/-- **An action runs one section, or leaves the state and the record of sends alone.** -/
theorem act_cases {r r' : Replica} {a : Action} (h : r.act a = some r') :
    (r.sectionOf a = none ∧ r'.state = r.state ∧ r'.issued = r.issued) ∨
      ∃ sec, r.sectionOf a = some sec ∧ r'.state = (sec.run r.state a.now).state ∧
        r'.issued = r.issued ++ (sec.run r.state a.now).sends := by
  cases step_of_act h with
  | reply call now hentry => exact Or.inl ⟨hentry, rfl, rfl⟩
  | start call now sec hentry => exact Or.inr ⟨sec, hentry, rfl, rfl⟩
  | send before after now send sends next result htasks =>
      exact Or.inl ⟨sectionOf_resume_send htasks, by simp, by simp⟩
  | go before after now sec result htasks =>
      exact Or.inr ⟨sec, sectionOf_resume htasks, rfl, rfl⟩
  | finish before after now result htasks =>
      exact Or.inl ⟨sectionOf_resume htasks, rfl, rfl⟩

theorem act_of_sectionOf {r r' : Replica} {a : Action} {sec : Section} (h : r.act a = some r')
    (hsec : r.sectionOf a = some sec) :
    r'.state = (sec.run r.state a.now).state ∧
      r'.issued = r.issued ++ (sec.run r.state a.now).sends := by
  rcases act_cases h with ⟨hnone, -, -⟩ | ⟨sec', hsec', hstate, hissued⟩
  · exact absurd (hnone.symm.trans hsec) (by simp)
  · obtain rfl := Option.some.inj (hsec.symm.trans hsec')
    exact ⟨hstate, hissued⟩

theorem exists_run (rules : Replica → Action → Prop) [∀ r a, Decidable (rules r a)]
    (r₀ : Replica) (as : List Action) (p : Replica → Prop) [DecidablePred p]
    (h : (execute (next rules) r₀ as).any (fun r => decide (p r)) = true) :
    ∃ r, Run (Next rules) r₀ as r ∧ p r := by
  obtain ⟨r, hrun, hp⟩ := exists_run_of_execute _ _ _ p h
  exact ⟨r, hrun.mono fun hstep => next_eq_some.mp hstep, hp⟩

/-- **The rule for invariants of the state and the record of sends.** -/
theorem keep {I : PbftState → List Send → Prop} {r r' : Replica} {a : Action}
    (h : r.act a = some r') (hI : I r.state r.issued)
    (hkeep : ∀ {sec out}, r.sectionOf a = some sec → Transition r.state a.now sec out →
      I out.state (r.issued ++ out.sends)) : I r'.state r'.issued := by
  rcases act_cases h with ⟨-, hstate, hissued⟩ | ⟨sec, hsec, hstate, hissued⟩
  · rw [hstate, hissued]
    exact hI
  · rw [hstate, hissued]
    exact hkeep hsec (run_transition r.state a.now sec)

/-- The section an action runs, if it runs one, meets the condition. -/
def Meets (cond : PbftState → Section → Prop) (r : Replica) (a : Action) : Prop :=
  ∀ sec, r.sectionOf a = some sec → cond r.state sec

instance (cond : PbftState → Section → Prop) [∀ st sec, Decidable (cond st sec)] (r : Replica)
    (a : Action) : Decidable (r.Meets cond a) :=
  inferInstanceAs (Decidable (∀ sec, r.sectionOf a = some sec → cond r.state sec))

/--
**The rule for exact conditions on sections.**  If a section leaves `I` as it is exactly when
it meets the condition, a run has `I` all along exactly when all its sections meet it.
-/
theorem keeps_iff (rules : Replica → Action → Prop) (cond : PbftState → Section → Prop)
    (r₀ : Replica) (as : List Action) (r : Replica) {I J : PbftState → List Send → Prop}
    (hinit : I r₀.state r₀.issued) (hJ : J r₀.state r₀.issued)
    (hkeep : ∀ {t a sec}, rules t a → t.sectionOf a = some sec → J t.state t.issued →
      J (sec.run t.state a.now).state (t.issued ++ (sec.run t.state a.now).sends))
    (hstep : ∀ {t a sec}, rules t a → t.sectionOf a = some sec → J t.state t.issued →
      I t.state t.issued →
      (I (sec.run t.state a.now).state (t.issued ++ (sec.run t.state a.now).sends) ↔
        cond t.state sec)) :
    Run (fun r a r' => Next rules r a r' ∧ I r'.state r'.issued) r₀ as r ↔
      Run (fun r a r' => r.Meets cond a ∧ Next rules r a r') r₀ as r := by
  refine Run.keeps_iff (I := fun r : Replica => I r.state r.issued)
    (J := fun r => J r.state r.issued) hinit hJ ?_ ?_
  · intro t a u ht hnext
    rcases act_cases hnext.2 with ⟨-, hstate, hissued⟩ | ⟨sec, hsec, hstate, hissued⟩
    · rw [hstate, hissued]
      exact ht
    · rw [hstate, hissued]
      exact hkeep hnext.1 hsec ht
  · intro t a u ht hI hnext
    rcases act_cases hnext.2 with ⟨hnone, hstate, hissued⟩ | ⟨sec, hsec, hstate, hissued⟩
    · rw [hstate, hissued]
      exact ⟨fun _ sec hsec => absurd (hnone.symm.trans hsec) (by simp), fun _ => hI⟩
    · rw [hstate, hissued, hstep hnext.1 hsec ht hI]
      constructor
      · intro hcond sec' hsec'
        obtain rfl := Option.some.inj (hsec.symm.trans hsec')
        exact hcond
      · intro hmeets
        exact hmeets sec hsec

theorem keeps_iff_meets (cond : PbftState → Section → Prop) (r₀ : Replica) (as : List Action)
    (r : Replica) {I J : PbftState → List Send → Prop} (hinit : I r₀.state r₀.issued)
    (hJ : J r₀.state r₀.issued)
    (hkeep : ∀ {t : Replica} {a : Action} {sec : Section}, J t.state t.issued →
      J (sec.run t.state a.now).state (t.issued ++ (sec.run t.state a.now).sends))
    (hstep : ∀ {t : Replica} {a : Action} {sec : Section}, J t.state t.issued →
      I t.state t.issued →
      (I (sec.run t.state a.now).state (t.issued ++ (sec.run t.state a.now).sends) ↔
        cond t.state sec)) :
    Run (fun r a r' => r.act a = some r' ∧ I r'.state r'.issued) r₀ as r ↔
      Run (Next (Meets cond)) r₀ as r := by
  have hiff := keeps_iff (fun _ _ => True) cond r₀ as r hinit hJ (fun _ _ ht => hkeep ht)
    (fun _ _ ht hI => hstep ht hI)
  constructor
  · intro h
    exact (hiff.mp (h.mono fun hs => ⟨⟨trivial, hs.1⟩, hs.2⟩)).mono fun hs => ⟨hs.1, hs.2.2⟩
  · intro h
    exact (hiff.mpr (h.mono fun hs => ⟨hs.1, trivial, hs.2⟩)).mono fun hs => ⟨hs.1.2, hs.2⟩

theorem outgoing_subset_act {r r' : Replica} {a : Action} (h : r.act a = some r') :
    r.outgoing ⊆ r'.outgoing := by
  cases step_of_act h with
  | send before after now send sends next result htasks =>
      cases send with
      | outgoing message => exact List.subset_append_left _ _
      | committed request => exact List.Subset.refl _
  | _ => exact List.Subset.refl _

theorem accounted_act {r r' : Replica} {a : Action} (h : r.act a = some r')
    (hr : r.Accounted) : r'.Accounted := by
  unfold Accounted at hr ⊢
  cases step_of_act h with
  | reply call now hentry => exact hr
  | start call now sec hentry =>
      simp only [enter_issued, pending, List.flatMap_append, List.flatMap_cons,
        List.flatMap_nil, List.append_nil, ← List.append_assoc]
      exact List.Perm.append_right _ hr
  | send before after now send sends next result htasks =>
      have hpending : r.pending = before.flatMap (·.sends) ++
          (send :: sends ++ after.flatMap (·.sends)) := by
        simp [pending, htasks]
      rw [hpending] at hr
      simp only [emit_issued, pending, List.flatMap_append, List.flatMap_cons]
      refine hr.trans ?_
      refine List.Perm.trans ?_ (List.Perm.append_right _ (made_emit r send).symm)
      rw [← List.append_assoc, List.cons_append, List.cons_append, ← List.append_assoc]
      exact List.perm_middle
  | go before after now sec result htasks =>
      have hpending : r.pending = before.flatMap (·.sends) ++ after.flatMap (·.sends) := by
        simp [pending, htasks]
      rw [hpending] at hr
      simp only [enter_issued, pending, List.flatMap_append, List.flatMap_cons]
      refine (List.Perm.append_right _ hr).trans ?_
      show (r.made ++ (before.flatMap (·.sends) ++ after.flatMap (·.sends))
          ++ (sec.run r.state now).sends).Perm
        (r.made ++ (before.flatMap (·.sends)
          ++ ((sec.run r.state now).sends ++ after.flatMap (·.sends))))
      rw [List.append_assoc, List.append_assoc]
      refine List.Perm.append_left _ (List.Perm.append_left _ ?_)
      exact List.perm_append_comm
  | finish before after now result htasks =>
      have hpending : r.pending = before.flatMap (·.sends) ++ after.flatMap (·.sends) := by
        simp [pending, htasks]
      rw [hpending] at hr
      simpa [pending, made] using hr

end Replica

/-! ### Where a section comes from

A handler goes on to a few sections only, so any other section is the start of a
call, and what it works on is what was handed to that call.
-/

/-- The sections a handler can go on to. -/
def Section.isContinuation : Section → Bool
  | .tryAdvanceToPrepared _ => true
  | .tryAdvanceToCommitted _ => true
  | .tryCheckpoint _ => true
  | .startViewChange => true
  | _ => false

/-- The message a section is about, if it is the start of handling one. -/
def Section.message? : Section → Option ConsensusMessage
  | .handlePrePrepare pp => some (.prePrepare pp)
  | .handlePrepare prepare => some (.prepare prepare)
  | .handleCommit commit => some (.commit commit)
  | .handleCheckpoint checkpoint => some (.checkpoint checkpoint)
  | .handleViewChange viewChange => some (.viewChange viewChange)
  | .handleNewView newView => some (.newView newView)
  | _ => none

theorem Action.call_of_message? {a : Action} {message : ConsensusMessage}
    (h : a.message? = some message) : ∃ now, a = .call (.processMessage message) now := by
  cases a with
  | resume index now => cases h
  | call call now =>
      cases call with
      | processMessage message' =>
          obtain rfl := Option.some.inj h
          exact ⟨now, rfl⟩
      | _ => cases h

theorem Call.entry_eq_handleRequest {call : Call} {request : Request} :
    call.entry = some (.handleRequest request) ↔ call.request? = some request := by
  cases call with
  | processMessage message => cases message <;> simp [Call.entry, Call.request?]
  | _ => simp [Call.entry, Call.request?]

theorem Transition.next [Crypto] {st : PbftState} {now : Instant} {sec : Section} {out : Outcome}
    (h : Transition st now sec out) {next : Section} (hnext : out.next = some next) :
    next.isContinuation = true := by
  cases h with
  | propose _ _ | accept _ _ | storePrepare _ _ | prepared _ _ _ _ _ _ _ _ | storeCommit _ _
  | executed _ _ _ _ _ _ _ _ | timeout _ =>
      obtain rfl := Option.some.inj hnext
      rfl
  | _ => exact absurd hnext (by simp)

namespace Replica

variable [Crypto]

/-- Every handler in progress goes on to a section of the cascade. -/
def Cascading (r : Replica) : Prop :=
  ∀ task ∈ r.tasks, ∀ next, task.next = some next → next.isContinuation = true

omit [Crypto] in
theorem cascading_new (st : PbftState) : (new st).Cascading := fun _ h => absurd h (by simp [new])

/-- **What is to run next was so before, or a section that was run goes on to it.** -/
theorem next_act {r r' : Replica} {a : Action} (h : r.act a = some r') {task : Task}
    (htask : task ∈ r'.tasks) {next : Section} (hnext : task.next = some next) :
    (∃ task ∈ r.tasks, task.next = some next) ∨
      ∃ sec, r.sectionOf a = some sec ∧ (sec.run r.state a.now).next = some next := by
  cases step_of_act h with
  | reply call now hentry => exact Or.inl ⟨task, htask, hnext⟩
  | start call now sec hentry =>
      rcases List.mem_append.mp htask with hold | hnew
      · exact Or.inl ⟨task, hold, hnext⟩
      · obtain rfl := List.mem_singleton.mp hnew
        exact Or.inr ⟨sec, hentry, hnext⟩
  | send before after now send sends next' result htasks =>
      have hmoved : ∀ task ∈ before ++ ⟨sends, next', result⟩ :: after, task.next = some next →
          ∃ task ∈ r.tasks, task.next = some next := by
        intro task htask hnext
        rcases List.mem_append.mp htask with hold | hrest
        · exact ⟨task, by simp [htasks, hold], hnext⟩
        · rcases List.mem_cons.mp hrest with rfl | hold
          · exact ⟨⟨send :: sends, next', result⟩, by simp [htasks], hnext⟩
          · exact ⟨task, by simp [htasks, hold], hnext⟩
      exact Or.inl (hmoved task htask hnext)
  | go before after now sec result htasks =>
      rcases List.mem_append.mp htask with hold | hrest
      · exact Or.inl ⟨task, by simp [htasks, hold], hnext⟩
      · rcases List.mem_cons.mp hrest with rfl | hold
        · exact Or.inr ⟨sec, sectionOf_resume htasks, hnext⟩
        · exact Or.inl ⟨task, by simp [htasks, hold], hnext⟩
  | finish before after now result htasks =>
      refine Or.inl ⟨task, ?_, hnext⟩
      rw [htasks]
      rcases List.mem_append.mp htask with hold | hold <;> simp [hold]

theorem next_of_run {r r' : Replica} {a : Action} (h : r.act a = some r') {sec next : Section}
    (hsec : r.sectionOf a = some sec) (hnext : (sec.run r.state a.now).next = some next) :
    ∃ task ∈ r'.tasks, task.next = some next := by
  cases step_of_act h with
  | reply call now hentry => exact absurd (hentry.symm.trans hsec) (by simp)
  | start call now sec' hentry =>
      obtain rfl := Option.some.inj (hentry.symm.trans hsec)
      exact ⟨_, List.mem_append_right _ (List.mem_singleton.mpr rfl), hnext⟩
  | send before after now send sends next' result htasks =>
      exact absurd ((sectionOf_resume_send htasks).symm.trans hsec) (by simp)
  | go before after now sec' result htasks =>
      obtain rfl := Option.some.inj ((sectionOf_resume htasks).symm.trans hsec)
      exact ⟨_, List.mem_append_right _ List.mem_cons_self, hnext⟩
  | finish before after now result htasks =>
      exact absurd ((sectionOf_resume htasks).symm.trans hsec) (by simp)

/-- **What is to run next is so until it is run.** -/
theorem next_kept {r r' : Replica} {a : Action} (h : r.act a = some r') {task : Task}
    (htask : task ∈ r.tasks) {next : Section} (hnext : task.next = some next) :
    (∃ task ∈ r'.tasks, task.next = some next) ∨ r.sectionOf a = some next := by
  cases step_of_act h with
  | reply call now hentry => exact Or.inl ⟨task, htask, hnext⟩
  | start call now sec hentry => exact Or.inl ⟨task, List.mem_append_left _ htask, hnext⟩
  | send before after now send sends next' result htasks =>
      rw [htasks] at htask
      rcases List.mem_append.mp htask with hbefore | hrest
      · exact Or.inl ⟨task, List.mem_append_left _ hbefore, hnext⟩
      rcases List.mem_cons.mp hrest with rfl | hafter
      · exact Or.inl ⟨⟨sends, next', result⟩, List.mem_append_right _ List.mem_cons_self, hnext⟩
      · exact Or.inl ⟨task, List.mem_append_right _ (List.mem_cons_of_mem _ hafter), hnext⟩
  | go before after now sec result htasks =>
      have hsec : r.sectionOf (.resume before.length now) = some sec := sectionOf_resume htasks
      rw [htasks] at htask
      rcases List.mem_append.mp htask with hbefore | hrest
      · exact Or.inl ⟨task, List.mem_append_left _ hbefore, hnext⟩
      rcases List.mem_cons.mp hrest with rfl | hafter
      · exact Or.inr (hsec.trans hnext)
      · exact Or.inl ⟨task, List.mem_append_right _ (List.mem_cons_of_mem _ hafter), hnext⟩
  | finish before after now result htasks =>
      rw [htasks] at htask
      rcases List.mem_append.mp htask with hbefore | hrest
      · exact Or.inl ⟨task, List.mem_append_left _ hbefore, hnext⟩
      rcases List.mem_cons.mp hrest with rfl | hafter
      · exact absurd hnext (by simp)
      · exact Or.inl ⟨task, List.mem_append_right _ hafter, hnext⟩

theorem cascading_act {r r' : Replica} {a : Action} (h : r.act a = some r')
    (hr : r.Cascading) : r'.Cascading := by
  intro task htask next hnext
  rcases next_act h htask hnext with ⟨task', htask', hnext'⟩ | ⟨sec, -, hnext'⟩
  · exact hr task' htask' next hnext'
  · exact (run_transition r.state a.now sec).next hnext'

omit [Crypto] in
theorem exists_task_of_resume {r : Replica} {index : Nat} {now : Instant} {sec : Section}
    (h : r.sectionOf (.resume index now) = some sec) :
    ∃ task ∈ r.tasks, task.next = some sec := by
  simp only [sectionOf] at h
  split at h
  · rename_i next result htask
    exact ⟨_, List.mem_of_getElem? htask, h⟩
  · exact absurd h (by simp)

omit [Crypto] in
/-- A section of the cascade that is no call's first is run by a handler that went on to it. -/
theorem next_of_sectionOf {r : Replica} {a : Action} {sec : Section}
    (h : r.sectionOf a = some sec) (hentry : ∀ call : Call, call.entry ≠ some sec) :
    ∃ task ∈ r.tasks, task.next = some sec := by
  cases a with
  | call call now => exact absurd h (hentry call)
  | resume index now => exact exists_task_of_resume h

omit [Crypto] in
theorem Cascading.call_of_sectionOf {r : Replica} (hr : r.Cascading) {a : Action} {sec : Section}
    (h : r.sectionOf a = some sec) (hsec : sec.isContinuation = false) :
    ∃ call now, a = .call call now ∧ call.entry = some sec := by
  cases a with
  | call call now => exact ⟨call, now, rfl, h⟩
  | resume index now =>
      obtain ⟨task, htask, hnext⟩ := exists_task_of_resume h
      rw [hr task htask sec hnext] at hsec
      exact Bool.noConfusion hsec

omit [Crypto] in
theorem Cascading.request_of_sectionOf {r : Replica} (hr : r.Cascading) {a : Action}
    {request : Request} (h : r.sectionOf a = some (.handleRequest request)) :
    a.request? = some request := by
  obtain ⟨call, now, rfl, hentry⟩ := hr.call_of_sectionOf h rfl
  exact Call.entry_eq_handleRequest.mp hentry

omit [Crypto] in
/-- **What the handler of a message works on was delivered.** -/
theorem Cascading.message_of_sectionOf {r : Replica} (hr : r.Cascading) {a : Action}
    {sec : Section} {message : ConsensusMessage} (h : r.sectionOf a = some sec)
    (hmessage : sec.message? = some message) : a.message? = some message := by
  have hsec : sec.isContinuation = false := by
    cases sec with
    | tryAdvanceToPrepared | tryAdvanceToCommitted | tryCheckpoint | startViewChange =>
        cases hmessage
    | _ => rfl
  obtain ⟨call, now, rfl, hentry⟩ := hr.call_of_sectionOf h hsec
  cases call with
  | processMessage message' =>
      cases message' with
      | reply => cases hentry
      | request =>
          cases hentry
          cases hmessage
      | _ =>
          cases hentry
          cases hmessage
          rfl
  | _ =>
      cases hentry
      cases hmessage

end Replica

end P2pPbft
