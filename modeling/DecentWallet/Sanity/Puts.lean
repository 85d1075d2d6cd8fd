import DecentWallet.Sanity.Frame
import DecentWallet.Spec.Submit

/-! What each call of an adapter puts: most put nothing, and those that write put one envelope that they were given. -/

namespace DecentWallet

open IdentityError
open Prog (Keeps)

variable {σ : Type} {P : Platform} {Q : Event → Prop} (A : Adapter σ)

/-- Every put that was logged since is one of `Q`. -/
def Adds (Q : Event → Prop) (w w' : World σ) : Prop :=
  ∃ new, w'.log = w.log ++ new ∧ ∀ e ∈ new, e.isPut = true → Q e

instance : Std.Refl (Adds (σ := σ) Q) where
  refl _ := ⟨[], by simp, by simp⟩

instance : IsTrans (World σ) (Adds Q) where
  trans u v w huv hvw := by
    obtain ⟨new, h1, h2⟩ := huv
    obtain ⟨new', h1', h2'⟩ := hvw
    refine ⟨new ++ new', by rw [h1', h1, List.append_assoc], fun e he => ?_⟩
    rcases List.mem_append.1 he with he | he
    · exact h2 e he
    · exact h2' e he

/-- Programs that log no put. -/
theorem Adds.of_log {w w' : World σ} (h : w'.log = w.log) : Adds Q w w' := ⟨[], by simpa using h, by simp⟩

theorem adds_of_quiet {α : Type} {x : Net σ α} (hx : Keeps Quiet x) : Keeps (Adds Q) x := by
  intro w
  obtain ⟨new, hlog, hnew⟩ := (hx w).log
  exact ⟨new, hlog, fun e he hput => by simp [hnew e he] at hput⟩

theorem putIdentityEnvelope_adds {n e : Bytes} {expected : Option Bytes} {t : ℤ}
    (hq : ∀ outcome, Q (.put A.id n e expected t outcome)) : Keeps (Adds Q) (putIdentityEnvelope A n e expected t) :=
  fun _ => ⟨[_], rfl, by simpa using fun _ => hq _⟩

/-! ### Latches and capabilities -/

theorem registerLatch_adds (a : ℕ) (b : RotationBinding) (ready : Bool) :
    Keeps (Adds Q) (registerLatch a b ready : Net σ Bool) := fun _ => .of_log rfl

theorem isLatched_adds (a : ℕ) (b : RotationBinding) : Keeps (Adds Q) (isLatched a b : Net σ Bool) :=
  fun _ => .of_log rfl

theorem newObject_adds : Keeps (Adds Q) (newObject : Net σ ℕ) := fun _ => .of_log rfl

theorem claimPublication_adds (pub : RotationPublication P) (permit : RotationDispatchPermit) :
    Keeps (Adds Q) (claimPublication A pub permit) := by
  unfold claimPublication
  refine (Keeps.pure _).ite (Keeps.bind (fun _ => .of_log rfl) fun _ => (Keeps.pure _).ite ((Keeps.pure _).ite ?_))
  intro w
  unfold consume
  split_ifs
  · exact .of_log rfl
  · exact .of_log rfl

/-! ### Publishing -/

theorem publishBundleBegin_quiet (b : IdentityBundle P) (r : ConsentRequest) :
    Keeps Quiet (publishBundleBegin A b r) := by
  unfold publishBundleBegin
  refine (Keeps.reject _ _).bind fun _ => (Keeps.reject _ _).bind fun _ => (Keeps.lift _).bind fun e =>
    (isOwnerLatched_quiet _ _).bind fun _ => (Keeps.pure _).ite ?_
  refine (readState_quiet A _).bind fun _ => (Keeps.pure _).ite ((Keeps.lift _).bind fun t =>
    (consentGateBegin_quiet A _ r).bind fun g => ?_)
  cases g <;> exact Keeps.pure _

theorem confirmPublication_adds (n e : Bytes) (previous : Option IdentityState) (reason : String) :
    Keeps (Adds Q) (confirmPublication (P := P) A n e previous reason) := by
  unfold confirmPublication
  refine (adds_of_quiet (confirm_quiet A n e previous)).bind fun s => ?_
  cases s <;> exact Keeps.pure _

theorem publishBundleWrite_adds {b : IdentityBundle P} {e : Bytes} {expected : Option Bytes} {t : ℤ}
    (hq : ∀ outcome, Q (.put A.id b.draft.ownerName e expected t outcome)) :
    Keeps (Adds Q) (publishBundleWrite A b e expected t) := by
  unfold publishBundleWrite
  refine (adds_of_quiet (isOwnerLatched_quiet _ _)).bind fun _ =>
    (Keeps.pure _).ite ((putIdentityEnvelope_adds A hq).bind fun o => ?_)
  cases o with
  | stale => exact Keeps.pure _
  | expired => exact Keeps.pure _
  | raised => exact confirmPublication_adds A _ _ _ _
  | returned => exact confirmPublication_adds A _ _ _ _

theorem stateHash_of_sameState {l r : Option IdentityState} (h : sameState l r = true) :
    r.map IdentityState.stateHash = l.map IdentityState.stateHash := by
  cases l <;> cases r <;> simp_all [sameState]

/-- The second half of a publication puts the envelope it was given, on the state the draft stands on. -/
theorem publishBundleEnd_adds {p : PendingPublication P} (d : ConsentDecision)
    (hq : ∀ t outcome, Q (.put A.id p.bundle.draft.ownerName p.envelope
      (p.bundle.draft.previousState.map IdentityState.stateHash) t outcome)) :
      Keeps (Adds Q) (publishBundleEnd A p d) := by
  unfold publishBundleEnd
  refine (adds_of_quiet (consentGateEnd_quiet A _ d)).bind fun g => ?_
  cases g with
  | some x => exact Keeps.pure _
  | none =>
    refine (adds_of_quiet (readState_quiet A _)).bind fun current => ?_
    split_ifs with hsame
    · exact Keeps.pure _
    · refine (adds_of_quiet (readTime_quiet A)).bind fun _ => (Keeps.pure _).ite (publishBundleWrite_adds A fun o => ?_)
      rw [stateHash_of_sameState (by simpa using hsame)]
      exact hq _ o

/-! ### Rotations -/

theorem checkPredecessor_adds (b : IdentityBundle P) (env : Str) (e : Bytes) :
    Keeps (Adds Q) (checkPredecessor A b env e) :=
  (adds_of_quiet (readState_quiet A _)).bind fun _ =>
    (adds_of_quiet (rotationEnvironmentMatches_quiet A _)).bind fun _ =>
    (Keeps.pure _).ite ((Keeps.pure _).ite (Keeps.pure _))

theorem checkRotationRequest_adds (b : IdentityBundle P) (r : ConsentRequest) :
    Keeps (Adds Q) (checkRotationRequest A b r) := by
  unfold checkRotationRequest
  refine (adds_of_quiet (isOwnerLatched_quiet _ _)).bind fun _ =>
    (Keeps.pure _).ite ((Keeps.reject _ _).bind fun _ => ?_)
  refine (adds_of_quiet (rotationTransportAvailable_quiet A)).bind fun _ => (Keeps.pure _).ite ((Keeps.pure _).ite ?_)
  exact (adds_of_quiet (rotationEnvironmentMatches_quiet A _)).bind fun _ => (Keeps.pure _).ite (Keeps.pure _)

theorem preparePublicationBegin_adds (b : IdentityBundle P) (r : ConsentRequest) :
    Keeps (Adds Q) (preparePublicationBegin A b r) := by
  unfold preparePublicationBegin
  refine (checkRotationRequest_adds A b r).bind fun x => ?_
  cases x with
  | some result => exact Keeps.pure _
  | none =>
    refine (Keeps.lift _).bind fun e => (Keeps.reject _ _).bind fun _ =>
      (checkPredecessor_adds A b _ e).bind fun y => ?_
    cases y with
    | some result => exact Keeps.pure _
    | none =>
      refine (Keeps.lift _).bind fun t => (adds_of_quiet (consentGateBegin_quiet A _ r)).bind fun g => ?_
      cases g <;> exact Keeps.pure _

theorem preparePublicationCheck_adds (p : PendingPublication P) : Keeps (Adds Q) (preparePublicationCheck A p) := by
  unfold preparePublicationCheck
  refine (adds_of_quiet (rotationEnvironmentMatches_quiet A _)).bind fun _ => (Keeps.pure _).ite
    ((checkPredecessor_adds A _ _ _).bind fun x => ?_)
  cases x with
  | some result => exact Keeps.pure _
  | none => exact (adds_of_quiet (readTime_quiet A)).bind fun _ => (Keeps.pure _).ite (Keeps.pure _)

theorem preparePublicationEnd_adds (p : PendingPublication P) (d : ConsentDecision) :
    Keeps (Adds Q) (preparePublicationEnd A p d) := by
  unfold preparePublicationEnd
  refine (adds_of_quiet (consentGateEnd_quiet A _ d)).bind fun g => ?_
  cases g with
  | some x => exact Keeps.pure _
  | none =>
    refine (preparePublicationCheck_adds A p).bind fun x => ?_
    cases x with
    | some result => exact Keeps.pure _
    | none =>
      simp only
      cases p.bundle.draft.previousState with
      | none => exact Keeps.raise _
      | some s => exact newObject_adds.bind fun _ => Keeps.pure _

theorem confirmOwnerKeyRotation_adds (intent : RotationDispatchIntent) :
    Keeps (Adds Q) (confirmOwnerKeyRotation (P := P) A intent) := by
  unfold confirmOwnerKeyRotation
  refine (registerLatch_adds _ _ _).bind fun _ => (Keeps.reject _ _).bind fun _ =>
    (adds_of_quiet (confirmationPossible_quiet A _)).bind fun _ => (Keeps.pure _).ite ?_
  refine (adds_of_quiet (readLatchedRemote_quiet A _)).bind fun remote => ?_
  cases remote with
  | none => exact Keeps.pure _
  | some remote =>
    refine (adds_of_quiet (verifyRemoteOrNone_quiet A _ _)).bind fun s => ?_
    cases s with
    | none => exact Keeps.pure _
    | some s =>
      exact (adds_of_quiet (rotationEnvironmentMatches_quiet A _)).bind fun _ => (Keeps.pure _).ite (Keeps.pure _)

theorem prewriteResult_adds (pub : RotationPublication P) (intent : RotationDispatchIntent) (status : PublishStatus)
    (reason : String) (seen clearable : Bool) :
    Keeps (Adds Q) (prewriteResult A pub intent status reason seen clearable) := by
  unfold prewriteResult
  refine (adds_of_quiet (rotationEnvironmentMatches_quiet A _)).bind fun _ => (Keeps.pure _).ite
    ((adds_of_quiet (getRemoteIdentityEnvelope_quiet A _)).bind fun answer => ?_)
  cases answer with
  | none => exact Keeps.pure _
  | some answer =>
    refine (adds_of_quiet (rotationEnvironmentMatches_quiet A _)).bind fun _ => (Keeps.pure _).ite ?_
    cases answer with
    | bytes remote =>
      refine ((confirmOwnerKeyRotation_adds A intent).bind fun _ => Keeps.pure _).ite ?_
      unfold prewriteRejection
      exact (Keeps.pure _).ite ((adds_of_quiet (rotationEnvironmentMatches_quiet A _)).bind fun _ =>
        (Keeps.pure _).ite (newObject_adds.bind fun _ => Keeps.pure _))
    | nothing => exact Keeps.pure _
    | junk => exact Keeps.pure _

/-- A dispatch puts the envelope of its publication, on the state that stands before it. -/
theorem dispatchOwnerKeyRotation_adds {pub : RotationPublication P} (permit : RotationDispatchPermit)
    (hq : ∀ t outcome, Q (.put A.id pub.bundle.draft.ownerName pub.envelopeBytes (some pub.previousState.stateHash) t
      outcome)) : Keeps (Adds Q) (dispatchOwnerKeyRotation A pub permit) := by
  unfold dispatchOwnerKeyRotation
  refine (claimPublication_adds A pub permit).bind fun _ => (Keeps.reject _ _).bind fun _ =>
    (adds_of_quiet (rotationEnvironmentMatches_quiet A _)).bind fun _ => (Keeps.pure _).ite ?_
  unfold dispatchLatched
  refine (isLatched_adds _ _).bind fun _ => (Keeps.reject _ _).bind fun _ =>
    (adds_of_quiet (rotationTransportAvailable_quiet A)).bind fun _ => (prewriteResult_adds A _ _ _ _ _ _).ite
      ((adds_of_quiet (tryReadState_quiet A _)).bind fun current => ?_)
  cases current with
  | none => exact prewriteResult_adds A _ _ _ _ _ _
  | some current =>
    refine (prewriteResult_adds A _ _ _ _ _ _).ite ((adds_of_quiet (readTime_quiet A)).bind fun _ =>
      (prewriteResult_adds A _ _ _ _ _ _).ite ((adds_of_quiet (rotationEnvironmentMatches_quiet A _)).bind fun _ =>
        (Keeps.pure _).ite ?_))
    refine (putIdentityEnvelope_adds A (hq _)).bind fun o => ?_
    cases o with
    | stale => exact prewriteResult_adds A _ _ _ _ _ _
    | expired => exact prewriteResult_adds A _ _ _ _ _ _
    | raised => exact (confirmOwnerKeyRotation_adds A _).bind fun _ => Keeps.pure _
    | returned => exact (confirmOwnerKeyRotation_adds A _).bind fun _ => Keeps.pure _

/-! ### Submitting -/

theorem submitIdentityBegin_quiet (q : SubmitRequest P) : Keeps Quiet (submitIdentityBegin A q) := by
  unfold submitIdentityBegin
  refine (Keeps.lift _).bind fun n => (isOwnerLatched_quiet _ _).bind fun _ => (Keeps.reject _ _).bind fun _ =>
    (Keeps.reject _ _).bind fun _ => (readState_quiet A n).bind fun current =>
      (Keeps.lift _).bind fun x => (Keeps.lift _).bind fun t => (consentGateBegin_quiet A n _).bind fun g => ?_
  cases g <;> exact Keeps.pure _

theorem signDraftBegin_quiet (d : IdentityDraft P) (k : Bytes) (i : Option Str) (r : ConsentRequest) :
    Keeps Quiet (signDraftBegin A d k i r) :=
  (isOwnerLatched_quiet _ _).bind fun _ => (Keeps.reject _ _).bind fun _ => submitIdentityBegin_quiet A _

theorem checkSubmission_quiet (p : PendingSubmission P) (signed : Option Bytes) (reason : String) :
    Keeps Quiet (checkSubmission A p signed reason) :=
  (readState_quiet A _).bind fun _ => (Keeps.pure _).ite
    ((readTime_quiet A).bind fun _ => (Keeps.pure _).ite (Keeps.pure _))

theorem submitIdentitySign_quiet (p : PendingSubmission P) (d : ConsentDecision) :
    Keeps Quiet (submitIdentitySign A p d) := by
  unfold submitIdentitySign
  refine (consentGateEnd_quiet A _ d).bind fun g => ?_
  cases g with
  | some x => exact Keeps.pure _
  | none => exact (isOwnerLatched_quiet _ _).bind fun _ => (Keeps.pure _).ite (checkSubmission_quiet A p _ _)

theorem collectSignature_quiet (p : PendingSubmission P) (signer : Option SignerAnswers) :
    Keeps Quiet (collectSignature A p signer) := by
  unfold collectSignature
  cases signer with
  | none => exact Keeps.pure _
  | some s =>
    refine (Keeps.pure _).ite ((readTime_quiet A).bind fun _ => (Keeps.pure _).ite ?_)
    cases s.signature with
    | none => exact Keeps.pure _
    | some signature => exact (Keeps.pure _).ite (Keeps.pure _)

theorem confirmSubmission_adds (p : PendingSubmission P) (e : Bytes) (x y : Option String) :
    Keeps (Adds Q) (confirmSubmission A p e x y) := by
  unfold confirmSubmission
  refine (adds_of_quiet (confirm_quiet A _ _ _)).bind fun s => ?_
  cases s <;> exact Keeps.pure _

/-- A proof is handed out and nothing put, unless the update is one without an authorization and a draft. -/
theorem useSignature_quiet {p : PendingSubmission P} {signature : Bytes}
    (h : p.request.draft = none → p.auth.any (fun a => 1 < a.threshold) = true) :
    Keeps Quiet (useSignature A p signature) := by
  unfold useSignature
  cases hdraft : p.request.draft with
  | some d => exact Keeps.lift _
  | none =>
    simp only [h hdraft, if_true]
    exact Keeps.lift _

/-- What is put for a signature is the envelope that `submissionEnvelope` makes of it. -/
theorem useSignature_adds {p : PendingSubmission P} {signature : Bytes}
    (hq : p.request.draft = none → p.auth.any (fun a => 1 < a.threshold) = false → ∀ e,
      submissionEnvelope p signature = .ok e → ∀ t outcome,
        Q (.put A.id p.request.ownerName e (p.current.map IdentityState.stateHash) t outcome)) :
    Keeps (Adds Q) (useSignature A p signature) := by
  unfold useSignature
  cases hdraft : p.request.draft with
  | some d => exact Keeps.lift _
  | none =>
    split_ifs with hthr
    · exact Keeps.lift _
    · cases he : submissionEnvelope p signature with
      | error x => exact fun w => Std.Refl.refl w
      | ok e =>
        show Keeps (Adds Q) (putSubmission A p e)
        refine (putIdentityEnvelope_adds A (hq hdraft (by simpa using hthr) e he _)).bind fun o => ?_
        cases o with
        | stale => exact Keeps.pure _
        | expired => exact Keeps.pure _
        | raised => exact confirmSubmission_adds A _ _ _ _
        | returned => exact confirmSubmission_adds A _ _ _ _

theorem submitIdentityEnd_adds {p : PendingSubmission P} (signer : Option SignerAnswers)
    (hq : p.request.draft = none → p.auth.any (fun a => 1 < a.threshold) = false → ∀ signature e,
      submissionEnvelope p signature = .ok e → ∀ t outcome,
        Q (.put A.id p.request.ownerName e (p.current.map IdentityState.stateHash) t outcome)) :
    Keeps (Adds Q) (submitIdentityEnd A p signer) := by
  unfold submitIdentityEnd
  refine (adds_of_quiet (collectSignature_quiet A p signer)).bind fun x => ?_
  cases x with
  | inl result => exact Keeps.pure _
  | inr signature =>
    refine (adds_of_quiet (checkSubmission_quiet A p _ _)).bind fun y => ?_
    cases y with
    | some result => exact Keeps.pure _
    | none => exact useSignature_adds A fun hd ht => hq hd ht signature

end DecentWallet
