import DecentWallet.Sanity.Fence

/-! Whatever the transport says its environment is, and however often it changes its mind: a failed check
ends the call, and the calls that matter stand directly behind a successful one. -/

namespace DecentWallet

open Cbor IdentityError

section

open Prog (Ends)

variable {σ : Type} {P : Platform} {A : Adapter σ} {env : Option Str} {strict b : Bool} {w₀ w : World σ}

/-! ### Confirmation -/

theorem verifyRemote_fence (x : RotationBinding) (hA : A.Configured x.environment) (remote : Bytes)
    (h : Since w₀ (Up x.environment strict) w) :
    Ends (verifyRemote (P := P) A x remote) w
      (fun r w' => if r.isSome then Since w₀ (Up x.environment strict) w' else Since w₀ (Ended x.environment strict) w')
      fun _ w' => Since w₀ (Ended x.environment strict) w' := by
  unfold verifyRemote
  refine Ends.bind (parseStateWithHistory_fence hA _ _ h) fun state w1 h1 => ?_
  refine Ends.ite (fun _ => Ends.pure h1.of_up) fun _ => ?_
  obtain ⟨b, h1⟩ := h1.exists_fence
  refine Ends.bind (rotationEnvironmentMatches_fence hA h1) fun m w2 h2 => ?_
  cases m with
  | false => exact Ends.pure h2.of_shut
  | true =>
    refine Ends.bind (getIdentityEnvelopeByHash_fence _ _ h2) fun f w3 h3 => ?_
    rcases f with _ | _ | e | _
    · exact Ends.pure h3.of_fence
    · exact Ends.pure h3.of_fence
    · refine Ends.bind (parseStateWithHistory_fence hA _ _ h3.up) fun predecessor w4 h4 => ?_
      exact Ends.ite (fun _ => Ends.pure h4.of_up) fun _ => Ends.pure h4
    · exact Ends.pure h3.of_fence

theorem verifyRemoteOrNone_fence (x : RotationBinding) (hA : A.Configured x.environment) (remote : Bytes)
    {F : IdentityError → World σ → Prop} (h : Since w₀ (Up x.environment strict) w) :
    Ends (verifyRemoteOrNone (P := P) A x remote) w
      (fun r w' => if r.isSome then Since w₀ (Up x.environment strict) w'
      else Since w₀ (Ended x.environment strict) w') F :=
  Ends.tryCatch (verifyRemote_fence x hA remote h) fun _ _ h => Ends.pure h

theorem readLatchedRemote_fence (x : RotationBinding) (hA : A.Configured x.environment)
    {F : IdentityError → World σ → Prop} (h : Since w₀ (Fence x.environment strict true) w) :
    Ends (readLatchedRemote (P := P) A x) w
      (fun r w' =>
        if r.isSome then Since w₀ (Up x.environment strict) w' else Since w₀ (Ended x.environment strict) w') F := by
  unfold readLatchedRemote
  refine Ends.bind (getRemoteIdentityEnvelope_fence _ h) fun f w1 h1 => ?_
  cases f with
  | none => exact Ends.pure h1.of_fence
  | some answer =>
    refine Ends.bind (rotationEnvironmentMatches_fence hA h1) fun m w2 h2 => ?_
    cases m with
    | false => exact Ends.pure h2.of_shut
    | true =>
      rcases answer with _ | remote | _
      · exact Ends.pure h2.of_fence
      · refine Ends.pure ?_
        by_cases hhash : P.sha256 remote = x.envelopeHash
        · simpa only [hhash, if_true, Option.isSome_some] using h2.up
        · simpa [hhash] using h2.of_fence
      · exact Ends.pure h2.of_fence

/-- A confirmation is minted directly behind a successful check; otherwise the fence is up or shut. -/
theorem confirmOwnerKeyRotation_fence (intent : RotationDispatchIntent) (hA : A.Configured intent.environment)
    (h : Since w₀ (Fence intent.environment strict b) w) :
    Ends (confirmOwnerKeyRotation (P := P) A intent) w
      (fun r w' => if r.isSome then Since w₀ (Fence intent.environment strict true) w'
        else Since w₀ (Ended intent.environment strict) w')
      fun _ w' => Since w₀ (Ended intent.environment strict) w' := by
  unfold confirmOwnerKeyRotation
  refine Ends.bind (silent_fence (registerLatch_silent _ _ _) h) fun r w1 h1 => ?_
  refine Ends.bind (Q := fun _ w' => Since w₀ (Fence intent.environment strict b) w')
    (Ends.reject (fun _ => h1) fun _ => h1.of_fence) fun _ w2 h2 => ?_
  have hpossible : Ends (confirmationPossible A intent.toRotationBinding) w2
      (fun r w' => if r then Since w₀ (Fence intent.environment strict true) w'
        else Since w₀ (Ended intent.environment strict) w')
      fun _ w' => Since w₀ (Ended intent.environment strict) w' := by
    unfold confirmationPossible
    refine Ends.ite (fun _ => Ends.pure h2.of_fence) fun _ => ?_
    refine Ends.bind (rotationEnvironmentMatches_fence hA h2) fun m w3 h3 => ?_
    cases m with
    | false => exact Ends.pure h3.of_shut
    | true =>
      refine (silent_fence rotationTransportAvailable_silent h3).mono (fun r w' h => ?_) fun _ _ h => h
      cases r with
      | false => exact h.of_fence
      | true => exact h
  refine Ends.bind hpossible fun m w3 h3 => ?_
  cases m with
  | false => exact Ends.pure h3
  | true =>
    refine Ends.bind (readLatchedRemote_fence intent.toRotationBinding hA h3) fun r w4 h4 => ?_
    cases r with
    | none => exact Ends.pure h4
    | some remote =>
      refine Ends.bind (verifyRemoteOrNone_fence intent.toRotationBinding hA remote h4) fun s w5 h5 => ?_
      cases s with
      | none => exact Ends.pure h5
      | some state =>
        obtain ⟨c, h5⟩ := Since.exists_fence h5
        refine Ends.bind (rotationEnvironmentMatches_fence hA h5) fun m w6 h6 => ?_
        cases m with
        | false => exact Ends.pure h6.of_shut
        | true => exact Ends.pure h6

/-! ### Dispatch -/

/-- A dispatch that confirms or rejects does so directly behind a successful check. -/
def ResultFenced (w₀ : World σ) (env : Option Str) (r : RotationDispatchResult P) (w : World σ) : Prop :=
  if r.confirmation.isSome || r.rejection.isSome then Since w₀ (Fence env false true) w
    else Since w₀ (Ended env false) w

theorem confirmedOr_fence (reason : String) (intent : RotationDispatchIntent) (hA : A.Configured intent.environment)
    (h : Since w₀ (Fence intent.environment false b) w) :
    Ends (do return confirmedOr (P := P) reason (← confirmOwnerKeyRotation (P := P) A intent)) w
      (ResultFenced w₀ intent.environment) fun _ w' => Since w₀ (Ended intent.environment false) w' := by
  refine Ends.bind (confirmOwnerKeyRotation_fence intent hA h) fun c w1 h1 => Ends.pure ?_
  cases c with
  | none => exact h1
  | some c => exact h1

theorem prewriteRejection_fence (pub : RotationPublication P) (x : RotationBinding) (status : PublishStatus)
    (reason : String) (clearable : Bool) (hA : A.Configured x.environment)
    (h : Since w₀ (Fence x.environment false b) w) :
    Ends (prewriteRejection A pub x status reason clearable) w (ResultFenced w₀ x.environment)
      fun _ w' => Since w₀ (Ended x.environment false) w' := by
  unfold prewriteRejection
  refine Ends.ite (fun _ => Ends.pure h.of_fence) fun _ => ?_
  refine Ends.bind (rotationEnvironmentMatches_fence hA h) fun m w1 h1 => ?_
  cases m with
  | false => exact Ends.pure h1.of_shut
  | true => exact Ends.bind (silent_fence newObject_silent h1) fun _ w2 h2 => Ends.pure h2

theorem prewriteResult_fence (pub : RotationPublication P) (intent : RotationDispatchIntent) (status : PublishStatus)
    (reason : String) (locally clearable : Bool) (hA : A.Configured intent.environment)
    (h : Since w₀ (Fence intent.environment false b) w) :
    Ends (prewriteResult A pub intent status reason locally clearable) w (ResultFenced w₀ intent.environment)
      fun _ w' => Since w₀ (Ended intent.environment false) w' := by
  unfold prewriteResult
  refine Ends.bind (rotationEnvironmentMatches_fence hA h) fun m w1 h1 => ?_
  cases m with
  | false => exact Ends.pure h1.of_shut
  | true =>
    refine Ends.bind (getRemoteIdentityEnvelope_fence _ h1) fun f w2 h2 => ?_
    cases f with
    | none => exact Ends.pure h2.of_fence
    | some answer =>
      refine Ends.bind (rotationEnvironmentMatches_fence hA h2) fun m w3 h3 => ?_
      cases m with
      | false => exact Ends.pure h3.of_shut
      | true =>
        refine Ends.ite (by simp) fun _ => ?_
        rcases answer with _ | remote | _
        · exact Ends.pure h3.of_fence
        · exact Ends.ite (fun _ => confirmedOr_fence _ intent hA h3)
            fun _ => prewriteRejection_fence pub intent.toRotationBinding status reason clearable hA h3
        · exact Ends.pure h3.of_fence

theorem dispatchWrite_fence (pub : RotationPublication P) (intent : RotationDispatchIntent)
    (hA : A.Configured intent.environment) (h : Since w₀ (Fence intent.environment false true) w) :
    Ends (dispatchWrite A pub intent) w (ResultFenced w₀ intent.environment)
      fun _ w' => Since w₀ (Ended intent.environment false) w' := by
  unfold dispatchWrite
  refine Ends.bind (putIdentityEnvelope_fence _ _ _ _ h) fun outcome w1 h1 => ?_
  cases outcome with
  | returned => exact confirmedOr_fence _ intent hA h1
  | stale => exact prewriteResult_fence pub intent _ _ _ _ hA h1
  | expired => exact prewriteResult_fence pub intent _ _ _ _ hA h1
  | raised => exact confirmedOr_fence _ intent hA h1

theorem dispatchLatched_fence (pub : RotationPublication P) (intent : RotationDispatchIntent)
    (hA : A.Configured intent.environment) (h : Since w₀ (Fence intent.environment false b) w) :
    Ends (dispatchLatched A pub intent) w (ResultFenced w₀ intent.environment)
      fun _ w' => Since w₀ (Ended intent.environment false) w' := by
  unfold dispatchLatched
  refine Ends.bind (silent_fence (isLatched_silent _ _) h) fun r w1 h1 => ?_
  refine Ends.bind (Q := fun _ w' => Since w₀ (Fence intent.environment false b) w')
    (Ends.reject (fun _ => h1) fun _ => h1.of_fence) fun _ w2 h2 => ?_
  refine Ends.bind (silent_fence rotationTransportAvailable_silent h2) fun available w3 h3 => ?_
  refine Ends.ite (fun _ => prewriteResult_fence pub intent _ _ _ _ hA h3) fun _ => ?_
  refine Ends.bind ((tryReadState_fence _ h3).mono (fun _ _ h => h) fun _ _ h => h.of_up) fun current w4 h4 => ?_
  obtain ⟨c, h4⟩ := Since.exists_fence h4
  cases current with
  | none => exact prewriteResult_fence pub intent _ _ _ _ hA h4
  | some current =>
    refine Ends.ite (fun _ => prewriteResult_fence pub intent _ _ _ _ hA h4) fun _ => ?_
    refine Ends.bind (silent_fence readTime_silent h4) fun now w5 h5 => ?_
    refine Ends.ite (fun _ => prewriteResult_fence pub intent _ _ _ _ hA h5) fun _ => ?_
    refine Ends.bind (rotationEnvironmentMatches_fence hA h5) fun m w6 h6 => ?_
    cases m with
    | false => exact Ends.pure h6.of_shut
    | true => exact dispatchWrite_fence pub intent hA h6

theorem dispatchOwnerKeyRotation_fence (pub : RotationPublication P) (permit : RotationDispatchPermit)
    (hA : A.Configured permit.intent.environment) (h : Since w₀ (Fence permit.intent.environment false b) w) :
    Ends (dispatchOwnerKeyRotation A pub permit) w (ResultFenced w₀ permit.intent.environment)
      fun _ w' => Since w₀ (Ended permit.intent.environment false) w' := by
  unfold dispatchOwnerKeyRotation
  refine Ends.bind (silent_fence (claimPublication_silent pub permit) h) fun r w1 h1 => ?_
  refine Ends.bind (Q := fun _ w' => Since w₀ (Fence permit.intent.environment false b) w')
    (Ends.reject (fun _ => h1) fun _ => h1.of_fence) fun _ w2 h2 => ?_
  refine Ends.bind (rotationEnvironmentMatches_fence hA h2) fun m w3 h3 => ?_
  cases m with
  | false => exact Ends.pure h3.of_shut
  | true => exact dispatchLatched_fence pub permit.intent hA h3

/-! ### An adapter of another environment -/

theorem confirmOwnerKeyRotation_unconfigured (intent : RotationDispatchIntent) (hA : ¬A.Configured intent.environment)
    (w : World σ) : Ends (confirmOwnerKeyRotation (P := P) A intent) w (fun r w' => w'.log = w.log ∧ r = none)
      fun _ w' => w'.log = w.log := by
  unfold confirmOwnerKeyRotation
  refine Ends.bind_run rfl (Ends.bind (Q := fun _ w' => w'.log = w.log) (Ends.reject (fun _ => rfl) fun _ => rfl) ?_)
  intro _ w2 h2
  have hpossible : confirmationPossible A intent.toRotationBinding w2 = (.ok false, w2) := by
    unfold confirmationPossible
    by_cases henv : intent.environment = none
    · rw [if_pos henv]
      rfl
    · rw [if_neg henv, Prog.bind_run_ok (rotationEnvironmentMatches_unconfigured hA w2)]
      rfl
  exact Ends.bind_run hpossible (Ends.pure ⟨h2, rfl⟩)

theorem dispatchOwnerKeyRotation_unconfigured (pub : RotationPublication P) (permit : RotationDispatchPermit)
    (hA : ¬A.Configured permit.intent.environment) (w : World σ) :
    Ends (dispatchOwnerKeyRotation A pub permit) w (fun r w' => w'.log = w.log ∧ r = dispatchMismatch)
      fun _ w' => w'.log = w.log := by
  unfold dispatchOwnerKeyRotation
  obtain ⟨claimed, w1, hclaim, hlog⟩ := claimPublication_silent (A := A) pub permit w
  refine Ends.bind_run hclaim (Ends.bind (Q := fun _ w' => w'.log = w.log)
    (Ends.reject (fun _ => hlog) fun _ => hlog) fun _ w2 h2 => ?_)
  exact Ends.bind_run (rotationEnvironmentMatches_unconfigured hA w2) (Ends.pure ⟨h2, rfl⟩)

/-- What the fence promises of the transport calls `es` of one method call; `decided` says that it
returned a confirmation or a rejection. -/
structure Fenced (env : Option Str) (strict : Bool) (es : List Event) (decided : Prop) : Prop where
  stops : ∀ l e r, es = l ++ e :: r → e.failed env = true → r = []
  undecided : (∃ e ∈ es, e.failed env = true) → ¬decided
  checked : ∀ l e r, es = l ++ e :: r → e.guarded strict = true → ∃ l' c, l = l' ++ [c] ∧ c.passed env = true
  behind : decided → ∃ l c, es = l ++ [c] ∧ c.passed env = true

theorem Fenced.of_ended {es : List Event} {decided : Prop} (h : Ended env strict es)
    (hd : decided → Fence env strict true es) : Fenced env strict es decided where
  stops _ _ _ hes he := h.stops hes he
  undecided hfail hdec := by
    obtain ⟨e, he, hf⟩ := hfail
    exact absurd ((hd hdec).not_failed e he) (by simp [hf])
  checked _ _ _ hes he := h.checked hes he
  behind hdec := (hd hdec).last

end

/-- One call, whatever the transport answers and however it changes: after a failed check nothing is
read or written and nothing is confirmed or rejected, also where the adapter itself is configured for
another environment and asks nobody; the put stands directly behind a successful check, and so do all
remote reads, reads by hash and confirmations of `confirm_owner_key_rotation`. -/
theorem environment_fence {σ : Type} (P : Platform) (A : Adapter σ) (w : World σ) :
    (∀ intent : RotationDispatchIntent, ∃ es,
      (confirmOwnerKeyRotation (P := P) A intent w).2.log = w.log ++ es ∧
      Fenced intent.environment true es (∃ c, (confirmOwnerKeyRotation (P := P) A intent w).1 = .ok (some c)) ∧
      (¬A.Configured intent.environment →
        es = [] ∧ ¬∃ c, (confirmOwnerKeyRotation (P := P) A intent w).1 = .ok (some c))) ∧
    ∀ (pub : RotationPublication P) (permit : RotationDispatchPermit), ∃ es,
      (dispatchOwnerKeyRotation A pub permit w).2.log = w.log ++ es ∧
      Fenced permit.intent.environment false es (∃ r, (dispatchOwnerKeyRotation A pub permit w).1 = .ok r ∧
        (r.confirmation.isSome ∨ r.rejection.isSome)) ∧
      (¬A.Configured permit.intent.environment → es = [] ∧ ¬∃ r, (dispatchOwnerKeyRotation A pub permit w).1 = .ok r ∧
        (r.confirmation.isSome ∨ r.rejection.isSome)) := by
  have hstart : ∀ env strict, Since w (Fence env strict false) w := fun _ _ => ⟨[], by simp, .start⟩
  constructor
  · intro intent
    by_cases hA : A.Configured intent.environment
    · have hends := confirmOwnerKeyRotation_fence (P := P) intent hA (hstart _ true)
      rcases hrun : confirmOwnerKeyRotation (P := P) A intent w with ⟨e | c, w'⟩
      · obtain ⟨es, hlog, hes⟩ := hends.error hrun
        exact ⟨es, hlog, .of_ended hes (by simp), fun h => absurd hA h⟩
      · cases c with
        | none =>
          obtain ⟨es, hlog, hes⟩ := hends.ok hrun
          exact ⟨es, hlog, .of_ended hes (by simp), fun h => absurd hA h⟩
        | some c =>
          obtain ⟨es, hlog, hes⟩ := hends.ok hrun
          exact ⟨es, hlog, .of_ended (.inl ⟨true, hes⟩) fun _ => hes, fun h => absurd hA h⟩
    · have hends := confirmOwnerKeyRotation_unconfigured (P := P) intent hA w
      rcases hrun : confirmOwnerKeyRotation (P := P) A intent w with ⟨e | c, w'⟩
      · exact ⟨[], by simpa using hends.error hrun, .of_ended (.inl ⟨false, .start⟩) (by simp), fun _ => ⟨rfl, by simp⟩⟩
      · obtain ⟨hlog, rfl⟩ := hends.ok hrun
        exact ⟨[], by simpa using hlog, .of_ended (.inl ⟨false, .start⟩) (by simp), fun _ => ⟨rfl, by simp⟩⟩
  · intro pub permit
    by_cases hA : A.Configured permit.intent.environment
    · have hends := dispatchOwnerKeyRotation_fence pub permit hA (hstart _ false)
      rcases hrun : dispatchOwnerKeyRotation A pub permit w with ⟨e | r, w'⟩
      · obtain ⟨es, hlog, hes⟩ := hends.error hrun
        exact ⟨es, hlog, .of_ended hes (by simp), fun h => absurd hA h⟩
      · have hres := hends.ok hrun
        unfold ResultFenced at hres
        split_ifs at hres with hdec
        · obtain ⟨es, hlog, hes⟩ := hres
          exact ⟨es, hlog, .of_ended (.inl ⟨true, hes⟩) fun _ => hes, fun h => absurd hA h⟩
        · obtain ⟨es, hlog, hes⟩ := hres
          refine ⟨es, hlog, .of_ended hes ?_, fun h => absurd hA h⟩
          rintro ⟨r', hr', hdec'⟩
          cases hr'
          exact absurd (by simpa using hdec') hdec
    · have hends := dispatchOwnerKeyRotation_unconfigured pub permit hA w
      rcases hrun : dispatchOwnerKeyRotation A pub permit w with ⟨e | r, w'⟩
      · exact ⟨[], by simpa using hends.error hrun, .of_ended (.inl ⟨false, .start⟩) (by simp), fun _ => ⟨rfl, by simp⟩⟩
      · obtain ⟨hlog, rfl⟩ := hends.ok hrun
        exact ⟨[], by simpa using hlog, .of_ended (.inl ⟨false, .start⟩) (by simp [dispatchMismatch]),
          fun _ => ⟨rfl, by simp [dispatchMismatch]⟩⟩

end DecentWallet
