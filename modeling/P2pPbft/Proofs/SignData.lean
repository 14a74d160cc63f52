/-
The strings that are signed can be read back.

A pre-prepare and a prepare sign the same string on purpose; what has to be shown
is that no other message signs it, and that it determines the view, the sequence
number and the digest.  Each string starts with a number in decimal, so the first
character that is not a digit, and what comes after it, tell the formats apart.
-/
import P2pPbft.Proofs.Issued
import P2pPbft.Lib.Decimal

namespace P2pPbft

open Decimal

theorem Hash.debug_toList (digest : Hash) :
    digest.debug.toList = '[' :: (numbers (digest.toList.map UInt8.toNat) ++ [']']) := by
  have hmap : digest.toList.map toString = (digest.toList.map UInt8.toNat).map toString := by
    rw [List.map_map]
    rfl
  simp [Hash.debug, numbers, hmap]

theorem prepareSignData_toList (v : ViewNumber) (s : SequenceNumber) (d : Hash) :
    (prepareSignData v s d).toList
      = number v.toNat ++ '-' :: (number s.toNat ++ '-' :: d.debug.toList) := by
  have hv : (toString v).toList = number v.toNat := rfl
  have hs : (toString s).toList = number s.toNat := rfl
  simp [prepareSignData, hv, hs]

theorem commitSignData_toList (v : ViewNumber) (s : SequenceNumber) (d : Hash) :
    (commitSignData v s d).toList
      = number v.toNat ++ '-' :: (number s.toNat ++ '-' :: (d.debug.toList ++ "-commit".toList)) := by
  have hv : (toString v).toList = number v.toNat := rfl
  have hs : (toString s).toList = number s.toNat := rfl
  simp [commitSignData, hv, hs]

theorem checkpointSignData_toList (s : SequenceNumber) (d : Hash) :
    (checkpointSignData s d).toList = number s.toNat ++ '-' :: d.debug.toList := by
  have hs : (toString s).toList = number s.toNat := rfl
  simp [checkpointSignData, hs]

theorem viewChangeSignData_toList (v : ViewNumber) :
    (viewChangeSignData v).toList = number v.toNat ++ '-' :: "view-change".toList := by
  have hv : (toString v).toList = number v.toNat := rfl
  simp [viewChangeSignData, hv]

theorem newViewSignData_toList (v : ViewNumber) :
    (newViewSignData v).toList = number v.toNat ++ '-' :: "new-view".toList := by
  have hv : (toString v).toList = number v.toNat := rfl
  simp [newViewSignData, hv]

/-- A digest's rendering ends where its bracket closes. -/
theorem Hash.debug_append_inj {d d' : Hash} {ys ys' : List Char}
    (h : d.debug.toList ++ ys = d'.debug.toList ++ ys') : d = d' ∧ ys = ys' := by
  rw [Hash.debug_toList, Hash.debug_toList] at h
  simp only [List.cons_append, List.append_assoc, List.nil_append, List.cons.injEq,
    true_and] at h
  obtain ⟨hbytes, hys⟩ := numbers_append_inj h
  have hinj : Function.Injective UInt8.toNat := fun a b hab => UInt8.toNat_inj.mp hab
  exact ⟨Subtype.ext (List.map_injective_iff.mpr hinj hbytes), hys⟩

private theorem number_append_ne {n : Nat} {c : Char} {ys zs : List Char}
    (hc : c.isDigit = false) : number n ++ ys ≠ c :: zs := by
  obtain ⟨d, ds, hds, hdigit⟩ := exists_number_eq_cons n
  rw [hds, List.cons_append]
  intro h
  obtain ⟨rfl, -⟩ := List.cons_eq_cons.mp h
  rw [hdigit] at hc
  exact Bool.noConfusion hc

/-- **The string a prepare signs determines its view, its number and its digest.** -/
theorem prepareSignData_inj {v v' : ViewNumber} {s s' : SequenceNumber} {d d' : Hash}
    (h : prepareSignData v s d = prepareSignData v' s' d') : v = v' ∧ s = s' ∧ d = d' := by
  have h := congrArg String.toList h
  rw [prepareSignData_toList, prepareSignData_toList] at h
  obtain ⟨hv, -, h⟩ := number_append_inj (by decide) (by decide) h
  obtain ⟨hs, -, h⟩ := number_append_inj (by decide) (by decide) h
  have h : d.debug.toList ++ [] = d'.debug.toList ++ [] := by simpa using h
  obtain ⟨hd, -⟩ := Hash.debug_append_inj h
  exact ⟨UInt64.toNat_inj.mp hv, UInt64.toNat_inj.mp hs, hd⟩

theorem prepareSignData_ne_commit {v v' : ViewNumber} {s s' : SequenceNumber} {d d' : Hash} :
    prepareSignData v s d ≠ commitSignData v' s' d' := by
  intro h
  have h := congrArg String.toList h
  rw [prepareSignData_toList, commitSignData_toList] at h
  obtain ⟨-, -, h⟩ := number_append_inj (by decide) (by decide) h
  obtain ⟨-, -, h⟩ := number_append_inj (by decide) (by decide) h
  have h : d.debug.toList ++ [] = d'.debug.toList ++ "-commit".toList := by simpa using h
  obtain ⟨-, h⟩ := Hash.debug_append_inj h
  exact absurd h (by decide)

theorem prepareSignData_ne_checkpoint {v : ViewNumber} {s s' : SequenceNumber} {d d' : Hash} :
    prepareSignData v s d ≠ checkpointSignData s' d' := by
  intro h
  have h := congrArg String.toList h
  rw [prepareSignData_toList, checkpointSignData_toList] at h
  obtain ⟨-, -, h⟩ := number_append_inj (by decide) (by decide) h
  rw [Hash.debug_toList d'] at h
  exact number_append_ne (c := '[') (by decide) h

theorem prepareSignData_ne_viewChange {v v' : ViewNumber} {s : SequenceNumber} {d : Hash} :
    prepareSignData v s d ≠ viewChangeSignData v' := by
  intro h
  have h := congrArg String.toList h
  rw [prepareSignData_toList, viewChangeSignData_toList] at h
  obtain ⟨-, -, h⟩ := number_append_inj (by decide) (by decide) h
  exact number_append_ne (c := 'v') (by decide) h

theorem prepareSignData_ne_newView {v v' : ViewNumber} {s : SequenceNumber} {d : Hash} :
    prepareSignData v s d ≠ newViewSignData v' := by
  intro h
  have h := congrArg String.toList h
  rw [prepareSignData_toList, newViewSignData_toList] at h
  obtain ⟨-, -, h⟩ := number_append_inj (by decide) (by decide) h
  exact number_append_ne (c := 'n') (by decide) h

/-- **The string a checkpoint signs determines its number and its digest.** -/
theorem checkpointSignData_inj {s s' : SequenceNumber} {d d' : Hash}
    (h : checkpointSignData s d = checkpointSignData s' d') : s = s' ∧ d = d' := by
  have h := congrArg String.toList h
  rw [checkpointSignData_toList, checkpointSignData_toList] at h
  obtain ⟨hs, -, h⟩ := number_append_inj (by decide) (by decide) h
  have h : d.debug.toList ++ [] = d'.debug.toList ++ [] := by simpa using h
  exact ⟨UInt64.toNat_inj.mp hs, (Hash.debug_append_inj h).1⟩

theorem commitSignData_ne_checkpoint {v : ViewNumber} {s s' : SequenceNumber} {d d' : Hash} :
    commitSignData v s d ≠ checkpointSignData s' d' := by
  intro h
  have h := congrArg String.toList h
  rw [commitSignData_toList, checkpointSignData_toList] at h
  obtain ⟨-, -, h⟩ := number_append_inj (by decide) (by decide) h
  rw [Hash.debug_toList d'] at h
  exact number_append_ne (c := '[') (by decide) h

theorem checkpointSignData_ne_viewChange {s : SequenceNumber} {v : ViewNumber} {d : Hash} :
    checkpointSignData s d ≠ viewChangeSignData v := by
  intro h
  have h := congrArg String.toList h
  rw [checkpointSignData_toList, viewChangeSignData_toList] at h
  obtain ⟨-, -, h⟩ := number_append_inj (by decide) (by decide) h
  rw [Hash.debug_toList] at h
  exact absurd (List.cons_eq_cons.mp h).1 (by decide)

theorem checkpointSignData_ne_newView {s : SequenceNumber} {v : ViewNumber} {d : Hash} :
    checkpointSignData s d ≠ newViewSignData v := by
  intro h
  have h := congrArg String.toList h
  rw [checkpointSignData_toList, newViewSignData_toList] at h
  obtain ⟨-, -, h⟩ := number_append_inj (by decide) (by decide) h
  rw [Hash.debug_toList] at h
  exact absurd (List.cons_eq_cons.mp h).1 (by decide)

/-- **The string a view change signs determines its view.** -/
theorem viewChangeSignData_inj {v v' : ViewNumber}
    (h : viewChangeSignData v = viewChangeSignData v') : v = v' := by
  have h := congrArg String.toList h
  rw [viewChangeSignData_toList, viewChangeSignData_toList] at h
  obtain ⟨hv, -, -⟩ := number_append_inj (by decide) (by decide) h
  exact UInt64.toNat_inj.mp hv

theorem commitSignData_ne_viewChange {v v' : ViewNumber} {s : SequenceNumber} {d : Hash} :
    commitSignData v s d ≠ viewChangeSignData v' := by
  intro h
  have h := congrArg String.toList h
  rw [commitSignData_toList, viewChangeSignData_toList] at h
  obtain ⟨-, -, h⟩ := number_append_inj (by decide) (by decide) h
  exact number_append_ne (c := 'v') (by decide) h

theorem newViewSignData_ne_viewChange {v v' : ViewNumber} :
    newViewSignData v ≠ viewChangeSignData v' := by
  intro h
  have h := congrArg String.toList h
  rw [newViewSignData_toList, viewChangeSignData_toList] at h
  obtain ⟨-, -, h⟩ := number_append_inj (by decide) (by decide) h
  exact absurd (List.cons_eq_cons.mp h).1 (by decide)

/-- **The string a commit signs determines its view, its number and its digest.** -/
theorem commitSignData_inj {v v' : ViewNumber} {s s' : SequenceNumber} {d d' : Hash}
    (h : commitSignData v s d = commitSignData v' s' d') : v = v' ∧ s = s' ∧ d = d' := by
  have h := congrArg String.toList h
  rw [commitSignData_toList, commitSignData_toList] at h
  obtain ⟨hv, -, h⟩ := number_append_inj (by decide) (by decide) h
  obtain ⟨hs, -, h⟩ := number_append_inj (by decide) (by decide) h
  exact ⟨UInt64.toNat_inj.mp hv, UInt64.toNat_inj.mp hs, (Hash.debug_append_inj h).1⟩

theorem commitSignData_ne_newView {v v' : ViewNumber} {s : SequenceNumber} {d : Hash} :
    commitSignData v s d ≠ newViewSignData v' := by
  intro h
  have h := congrArg String.toList h
  rw [commitSignData_toList, newViewSignData_toList] at h
  obtain ⟨-, -, h⟩ := number_append_inj (by decide) (by decide) h
  exact number_append_ne (c := 'n') (by decide) h

/-- **The string a new view signs determines its view.** -/
theorem newViewSignData_inj {v v' : ViewNumber} (h : newViewSignData v = newViewSignData v') :
    v = v' := by
  have h := congrArg String.toList h
  rw [newViewSignData_toList, newViewSignData_toList] at h
  obtain ⟨hv, -, -⟩ := number_append_inj (by decide) (by decide) h
  exact UInt64.toNat_inj.mp hv

/-! ### All five formats -/

/-- What a signature can be about; a pre-prepare and a prepare sign the same. -/
inductive SignedContent
  | prepare (view : ViewNumber) (sequence : SequenceNumber) (digest : Hash)
  | commit (view : ViewNumber) (sequence : SequenceNumber) (digest : Hash)
  | checkpoint (sequence : SequenceNumber) (digest : Hash)
  | viewChange (newView : ViewNumber)
  | newView (newView : ViewNumber)

namespace SignedContent

/-- The string that is signed. -/
def data : SignedContent → String
  | .prepare v s d => prepareSignData v s d
  | .commit v s d => commitSignData v s d
  | .checkpoint s d => checkpointSignData s d
  | .viewChange v => viewChangeSignData v
  | .newView v => newViewSignData v

/-- What the signature on a message is about. -/
def ofMessage : ConsensusMessage → Option SignedContent
  | .prePrepare m => some (prepare m.view m.sequence m.digest)
  | .prepare m => some (prepare m.view m.sequence m.digest)
  | .commit m => some (commit m.view m.sequence m.digest)
  | .checkpoint m => some (checkpoint m.sequence m.digest)
  | .viewChange m => some (viewChange m.newView)
  | .newView m => some (newView m.newView)
  | .request _ | .reply _ => none

theorem map_data_ofMessage (message : ConsensusMessage) :
    (ofMessage message).map data = message.claim.map Claim.data := by
  cases message <;> rfl

/--
**A signed string says what was signed.**  No string has two readings: not of one kind, with
other contents, and not of another kind.
-/
theorem data_injective : Function.Injective data := by
  intro x y h
  cases x with
  | prepare v s d =>
      cases y with
      | prepare v' s' d' =>
          obtain ⟨rfl, rfl, rfl⟩ := prepareSignData_inj h
          rfl
      | commit => exact absurd h prepareSignData_ne_commit
      | checkpoint => exact absurd h prepareSignData_ne_checkpoint
      | viewChange => exact absurd h prepareSignData_ne_viewChange
      | newView => exact absurd h prepareSignData_ne_newView
  | commit v s d =>
      cases y with
      | prepare => exact absurd h.symm prepareSignData_ne_commit
      | commit v' s' d' =>
          obtain ⟨rfl, rfl, rfl⟩ := commitSignData_inj h
          rfl
      | checkpoint => exact absurd h commitSignData_ne_checkpoint
      | viewChange => exact absurd h commitSignData_ne_viewChange
      | newView => exact absurd h commitSignData_ne_newView
  | checkpoint s d =>
      cases y with
      | prepare => exact absurd h.symm prepareSignData_ne_checkpoint
      | commit => exact absurd h.symm commitSignData_ne_checkpoint
      | checkpoint s' d' =>
          obtain ⟨rfl, rfl⟩ := checkpointSignData_inj h
          rfl
      | viewChange => exact absurd h checkpointSignData_ne_viewChange
      | newView => exact absurd h checkpointSignData_ne_newView
  | viewChange v =>
      cases y with
      | prepare => exact absurd h.symm prepareSignData_ne_viewChange
      | commit => exact absurd h.symm commitSignData_ne_viewChange
      | checkpoint => exact absurd h.symm checkpointSignData_ne_viewChange
      | viewChange v' =>
          obtain rfl := viewChangeSignData_inj h
          rfl
      | newView => exact absurd h.symm newViewSignData_ne_viewChange
  | newView v =>
      cases y with
      | prepare => exact absurd h.symm prepareSignData_ne_newView
      | commit => exact absurd h.symm commitSignData_ne_newView
      | checkpoint => exact absurd h.symm checkpointSignData_ne_newView
      | viewChange => exact absurd h newViewSignData_ne_viewChange
      | newView v' =>
          obtain rfl := newViewSignData_inj h
          rfl

end SignedContent

/--
**The strings that are signed are unambiguous.**  What the messages sign is what they are
about, and no string is signed for two different things, be they of one kind or of two.
-/
theorem signed_strings_unambiguous :
    (∀ message, (SignedContent.ofMessage message).map SignedContent.data
      = message.claim.map Claim.data) ∧ Function.Injective SignedContent.data :=
  ⟨SignedContent.map_data_ofMessage, SignedContent.data_injective⟩

/-- A string is signed with a message that is signed over it. -/
theorem Replica.exists_of_signed {r : Replica} {data : String} (h : data ∈ r.signed) :
    ∃ message claim, Send.broadcast message ∈ r.issued ∧ message.claim = some claim ∧
      claim.data = data := by
  obtain ⟨send, hsend, hdata⟩ := List.mem_filterMap.mp h
  split at hdata
  · rename_i message
    obtain ⟨claim, hclaim, hdata⟩ := Option.map_eq_some_iff.mp hdata
    exact ⟨message, claim, hsend, hclaim, hdata⟩
  · exact absurd hdata (by simp)

/--
**Whoever signed a prepare string issued a pre-prepare or a prepare with it.**  No other
message is signed over such a string.
-/
theorem Replica.issued_of_signed {r : Replica} {v : ViewNumber} {s : SequenceNumber} {d : Hash}
    (h : prepareSignData v s d ∈ r.signed) :
    (∃ pp ∈ proposals r.issued, pp.view = v ∧ pp.sequence = s ∧ pp.digest = d) ∨
      ∃ p ∈ votes r.issued, p.view = v ∧ p.sequence = s ∧ p.digest = d := by
  obtain ⟨message, claim, hsend, hclaim, hdata⟩ := exists_of_signed h
  cases message with
  | request _ => exact absurd hclaim (by simp [ConsensusMessage.claim])
  | reply _ => exact absurd hclaim (by simp [ConsensusMessage.claim])
  | prePrepare pp =>
      obtain rfl := Option.some.inj hclaim
      obtain ⟨hv, hs, hd⟩ := prepareSignData_inj hdata
      exact Or.inl ⟨pp, mem_proposals.mpr hsend, hv, hs, hd⟩
  | prepare p =>
      obtain rfl := Option.some.inj hclaim
      obtain ⟨hv, hs, hd⟩ := prepareSignData_inj hdata
      exact Or.inr ⟨p, mem_votes.mpr hsend, hv, hs, hd⟩
  | commit _ =>
      obtain rfl := Option.some.inj hclaim
      exact absurd hdata.symm prepareSignData_ne_commit
  | viewChange _ =>
      obtain rfl := Option.some.inj hclaim
      exact absurd hdata.symm prepareSignData_ne_viewChange
  | newView _ =>
      obtain rfl := Option.some.inj hclaim
      exact absurd hdata.symm prepareSignData_ne_newView
  | checkpoint _ =>
      obtain rfl := Option.some.inj hclaim
      exact absurd hdata.symm prepareSignData_ne_checkpoint

/-- **Whoever signed a checkpoint string issued a checkpoint with it.** -/
theorem Replica.checkpoint_of_signed {r : Replica} {s : SequenceNumber} {d : Hash}
    (h : checkpointSignData s d ∈ r.signed) :
    ∃ c, Send.broadcast (.checkpoint c) ∈ r.issued ∧ c.sequence = s ∧ c.digest = d := by
  obtain ⟨message, claim, hsend, hclaim, hdata⟩ := exists_of_signed h
  cases message with
  | request _ => exact absurd hclaim (by simp [ConsensusMessage.claim])
  | reply _ => exact absurd hclaim (by simp [ConsensusMessage.claim])
  | prePrepare _ | prepare _ =>
      obtain rfl := Option.some.inj hclaim
      exact absurd hdata prepareSignData_ne_checkpoint
  | commit _ =>
      obtain rfl := Option.some.inj hclaim
      exact absurd hdata commitSignData_ne_checkpoint
  | viewChange _ =>
      obtain rfl := Option.some.inj hclaim
      exact absurd hdata.symm checkpointSignData_ne_viewChange
  | newView _ =>
      obtain rfl := Option.some.inj hclaim
      exact absurd hdata.symm checkpointSignData_ne_newView
  | checkpoint c =>
      obtain rfl := Option.some.inj hclaim
      obtain ⟨hs, hd⟩ := checkpointSignData_inj hdata
      exact ⟨c, hsend, hs, hd⟩

/-- **Whoever signed a view change string issued a view change with it.** -/
theorem Replica.viewChange_of_signed {r : Replica} {v : ViewNumber}
    (h : viewChangeSignData v ∈ r.signed) :
    ∃ vc, Send.broadcast (.viewChange vc) ∈ r.issued ∧ vc.newView = v := by
  obtain ⟨message, claim, hsend, hclaim, hdata⟩ := exists_of_signed h
  cases message with
  | request _ => exact absurd hclaim (by simp [ConsensusMessage.claim])
  | reply _ => exact absurd hclaim (by simp [ConsensusMessage.claim])
  | prePrepare _ | prepare _ =>
      obtain rfl := Option.some.inj hclaim
      exact absurd hdata prepareSignData_ne_viewChange
  | commit _ =>
      obtain rfl := Option.some.inj hclaim
      exact absurd hdata commitSignData_ne_viewChange
  | newView _ =>
      obtain rfl := Option.some.inj hclaim
      exact absurd hdata newViewSignData_ne_viewChange
  | checkpoint _ =>
      obtain rfl := Option.some.inj hclaim
      exact absurd hdata checkpointSignData_ne_viewChange
  | viewChange vc =>
      obtain rfl := Option.some.inj hclaim
      exact ⟨vc, hsend, viewChangeSignData_inj hdata⟩

end P2pPbft
