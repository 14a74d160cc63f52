/-
What a replica has issued, kind by kind.

The record of sends is one list.  The proofs ask about the pre-prepares in it, the
prepares, the commits, or the requests handed to the application, so each kind has
its own list here, and for each kind one lemma saying which section adds to it and
with what.
-/
import P2pPbft.Proofs.Replica

namespace P2pPbft

/-! ### Reading a list of sends -/

def Send.prePrepare? : Send → Option PrePrepare
  | .outgoing (.broadcast (.consensus (.prePrepare pp))) => some pp
  | _ => none

def Send.prepare? : Send → Option Prepare
  | .outgoing (.broadcast (.consensus (.prepare p))) => some p
  | _ => none

def Send.commit? : Send → Option Commit
  | .outgoing (.broadcast (.consensus (.commit c))) => some c
  | _ => none

def Send.committed? : Send → Option Request
  | .committed request => some request
  | _ => none

/-- The pre-prepares among the sends. -/
def proposals (sends : List Send) : List PrePrepare := sends.filterMap Send.prePrepare?

/-- The prepares among the sends. -/
def votes (sends : List Send) : List Prepare := sends.filterMap Send.prepare?

/-- The commits among the sends. -/
def commits (sends : List Send) : List Commit := sends.filterMap Send.commit?

/-- The requests handed to the application. -/
def deliveries (sends : List Send) : List Request := sends.filterMap Send.committed?

@[simp] theorem proposals_append (xs ys : List Send) :
    proposals (xs ++ ys) = proposals xs ++ proposals ys := List.filterMap_append

@[simp] theorem votes_append (xs ys : List Send) : votes (xs ++ ys) = votes xs ++ votes ys :=
  List.filterMap_append

@[simp] theorem commits_append (xs ys : List Send) :
    commits (xs ++ ys) = commits xs ++ commits ys := List.filterMap_append

@[simp] theorem deliveries_append (xs ys : List Send) :
    deliveries (xs ++ ys) = deliveries xs ++ deliveries ys := List.filterMap_append

theorem mem_proposals {pp : PrePrepare} {sends : List Send} :
    pp ∈ proposals sends ↔ Send.broadcast (.prePrepare pp) ∈ sends := by
  refine ⟨fun h => ?_, fun h => List.mem_filterMap.mpr ⟨_, h, rfl⟩⟩
  obtain ⟨send, hsend, hpp⟩ := List.mem_filterMap.mp h
  unfold Send.prePrepare? at hpp
  split at hpp
  · obtain rfl := Option.some.inj hpp
    exact hsend
  · exact absurd hpp (by simp)

theorem mem_votes {p : Prepare} {sends : List Send} :
    p ∈ votes sends ↔ Send.broadcast (.prepare p) ∈ sends := by
  refine ⟨fun h => ?_, fun h => List.mem_filterMap.mpr ⟨_, h, rfl⟩⟩
  obtain ⟨send, hsend, hp⟩ := List.mem_filterMap.mp h
  unfold Send.prepare? at hp
  split at hp
  · obtain rfl := Option.some.inj hp
    exact hsend
  · exact absurd hp (by simp)

theorem mem_commits {c : Commit} {sends : List Send} :
    c ∈ commits sends ↔ Send.broadcast (.commit c) ∈ sends := by
  refine ⟨fun h => ?_, fun h => List.mem_filterMap.mpr ⟨_, h, rfl⟩⟩
  obtain ⟨send, hsend, hc⟩ := List.mem_filterMap.mp h
  unfold Send.commit? at hc
  split at hc
  · obtain rfl := Option.some.inj hc
    exact hsend
  · exact absurd hc (by simp)

theorem mem_deliveries {request : Request} {sends : List Send} :
    request ∈ deliveries sends ↔ Send.committed request ∈ sends := by
  refine ⟨fun h => ?_, fun h => List.mem_filterMap.mpr ⟨_, h, rfl⟩⟩
  obtain ⟨send, hsend, hrequest⟩ := List.mem_filterMap.mp h
  unfold Send.committed? at hrequest
  split at hrequest
  · obtain rfl := Option.some.inj hrequest
    exact hsend
  · exact absurd hrequest (by simp)

theorem nodup_map_concat {α β : Type} {f : α → β} {xs : List α} {x : α}
    (hxs : (xs.map f).Nodup) (hx : ∀ y ∈ xs, f y ≠ f x) : ((xs ++ [x]).map f).Nodup := by
  rw [List.map_append, List.map_singleton]
  refine List.nodup_append.mpr ⟨hxs, List.nodup_singleton _, fun a ha b hb => ?_⟩
  obtain ⟨y, hy, rfl⟩ := List.mem_map.mp ha
  obtain rfl := List.mem_singleton.mp hb
  exact hx y hy

theorem Replica.Accounted.filterMap {r : Replica} (h : r.Accounted) {β : Type}
    (f : Send → Option β) :
    (r.issued.filterMap f).Perm (r.made.filterMap f ++ r.pending.filterMap f) := by
  rw [← List.filterMap_append]
  exact List.Perm.filterMap f h

/-- If no two of a kind were issued, no two were made. -/
theorem Replica.Accounted.nodup {r : Replica} (h : r.Accounted) {β γ : Type}
    {f : Send → Option β} {g : β → γ} (hissued : ((r.issued.filterMap f).map g).Nodup) :
    ((r.made.filterMap f).map g).Nodup := by
  have hperm := (h.filterMap f).map g
  rw [List.map_append] at hperm
  exact (List.nodup_append.mp (hperm.nodup_iff.mp hissued)).1

theorem Replica.Accounted.made_subset {r : Replica} (h : r.Accounted) {send : Send}
    (hsend : send ∈ r.made) : send ∈ r.issued :=
  h.mem_iff.mpr (List.mem_append_left _ hsend)

/-! ### What a section issues -/

variable [Crypto]

section

variable {st : PbftState} {now : Instant} {sec : Section} {out : Outcome}

/-- **Only a primary taking a request issues a pre-prepare.** -/
theorem Transition.proposals (h : Transition st now sec out) :
    proposals out.sends = [] ∨
      ∃ request, sec = .handleRequest request ∧ st.Proposes request ∧
        out.state = st.proposed request ∧
        proposals out.sends = [st.proposal (st.sequence + 1) request] := by
  cases h with
  | propose request h => exact Or.inr ⟨request, rfl, h, rfl, rfl⟩
  | _ => exact Or.inl rfl

/-- The two ways to a prepare: taking a request as primary, or a pre-prepare as backup. -/
inductive Votes (st : PbftState) : Section → PbftState → Prepare → Prop
  | propose (request : Request) (h : st.Proposes request) :
      Votes st (.handleRequest request) (st.proposed request)
        (st.ownPrepare st.view (st.sequence + 1) request.digest)
  | accept (pp : PrePrepare) (h : st.AcceptsPrePrepare pp) (now : Instant) :
      Votes st (.handlePrePrepare pp)
        { st.record pp (st.ownPrepare pp.view pp.sequence pp.digest) with
          lastPrimaryActivity := now }
        (st.ownPrepare pp.view pp.sequence pp.digest)

/-- **A section issues at most one prepare.** -/
theorem Transition.votes (h : Transition st now sec out) :
    votes out.sends = [] ∨ ∃ p, votes out.sends = [p] ∧ Votes st sec out.state p := by
  cases h with
  | propose request h => exact Or.inr ⟨_, rfl, Votes.propose request h⟩
  | accept pp h => exact Or.inr ⟨_, rfl, Votes.accept pp h now⟩
  | _ => exact Or.inl rfl

/-- **Only an instance that gets prepared makes its replica issue a commit.** -/
theorem Transition.commits (h : Transition st now sec out) :
    commits out.sends = [] ∨
      ∃ s inst digest, sec = .tryAdvanceToPrepared s ∧ st.log.lookup s = some inst ∧
        inst.prePrepare.isSome ∧ inst.digest = some digest ∧
        commits out.sends = [st.ownCommit inst s digest] := by
  cases h with
  | prepared s inst digest hlookup hpp hphase hquorum hdigest =>
      exact Or.inr ⟨s, inst, digest, rfl, hlookup, hpp, hdigest, rfl⟩
  | _ => exact Or.inl rfl

/-- **A request is handed over when its digest enters the set of executed ones.** -/
theorem Transition.deliveries (h : Transition st now sec out) :
    (deliveries out.sends = [] ∧ out.state.executed = st.executed) ∨
      ∃ s inst request, sec = .tryAdvanceToCommitted s ∧ st.log.lookup s = some inst ∧
        inst.request = some request ∧ request.digest ∉ st.executed ∧
        out.state.executed = insert request.digest st.executed ∧
        out.sends = [.committed request] := by
  cases h with
  | executed s inst request hlookup hphase hquorum hrequest hfresh =>
      exact Or.inr ⟨s, inst, request, rfl, hlookup, hrequest, hfresh, rfl, rfl⟩
  | propose request h => exact Or.inl ⟨rfl, by simp [PbftState.proposed, PbftState.record_eq, PbftState.setInstance]⟩
  | accept pp h => exact Or.inl ⟨rfl, by simp [PbftState.record_eq, PbftState.setInstance]⟩
  | _ => exact Or.inl ⟨rfl, rfl⟩

/-- What a section issues is over the replica's own name, and signed with its key. -/
theorem Transition.claims (h : Transition st now sec out) {message : ConsensusMessage}
    {claim : Claim} (hsend : Send.broadcast message ∈ out.sends)
    (hclaim : message.claim = some claim) :
    claim.signer = st.nodeId ∧ claim.signature = st.sign claim.data := by
  cases h with
  | propose request h =>
      rcases List.mem_cons.mp hsend with heq | hsend
      · cases heq
        obtain rfl := Option.some.inj hclaim
        exact ⟨rfl, rfl⟩
      · cases List.mem_singleton.mp hsend
        obtain rfl := Option.some.inj hclaim
        exact ⟨rfl, rfl⟩
  | forward request h => cases List.mem_singleton.mp hsend
  | executed s inst request => cases List.mem_singleton.mp hsend
  | accept _ _ | prepared _ _ _ _ _ _ _ _ | announce _ _ _ | announceNewView _ _ _ _
  | startViewChange _ =>
      cases List.mem_singleton.mp hsend
      obtain rfl := Option.some.inj hclaim
      exact ⟨rfl, rfl⟩
  | _ => cases hsend

theorem Transition.sendTo (h : Transition st now sec out) {target : NodeId}
    {message : ConsensusMessage}
    (hsend : Send.outgoing (.sendTo target (.consensus message)) ∈ out.sends) :
    message.claim = none := by
  cases h with
  | propose request h =>
      rcases List.mem_cons.mp hsend with heq | hsend
      · cases heq
      · cases List.mem_singleton.mp hsend
  | forward request h =>
      cases List.mem_singleton.mp hsend
      rfl
  | accept _ _ | prepared _ _ _ _ _ _ _ _ | executed _ _ _ _ _ _ _ _ | announce _ _ _
  | announceNewView _ _ _ _ | startViewChange _ => cases List.mem_singleton.mp hsend
  | _ => cases hsend

end

/-- Every message issued is over the replica's own name, and signed with its key. -/
structure Signs (st : PbftState) (issued : List Send) : Prop where
  broadcast : ∀ message, Send.broadcast message ∈ issued → ∀ claim, message.claim = some claim →
    claim.signer = st.nodeId ∧ claim.signature = st.sign claim.data
  sendTo : ∀ target message, Send.outgoing (.sendTo target (.consensus message)) ∈ issued →
    message.claim = none

end P2pPbft
