import DecentWallet.Sanity.Finalizing
import DecentWallet.Sanity.Puts

/-! The two calls that write an ordinary update. Each puts at most one envelope, after the consent handler has approved
what it writes and while the approval has not expired, and the envelope is a valid successor of the verified state it is
put on. -/

namespace DecentWallet

open Cbor IdentityError Opened
open Prog (Keeps)

variable {σ : Type} {P : Platform}

/-! ### Successors -/

/-- The envelope is accepted as the next state after the verified one with this hash, or as a first state. -/
def Succeeds (P : Platform) (name envelope : Bytes) (expected : Option Bytes) : Prop :=
  (∃ s c t, HistoryOf P name c s ∧ expected = some s.stateHash ∧
    parseIdentityEnvelope P name envelope (some s) = .ok t ∧ t.sequence = s.sequence + 1 ∧
    t.ownerPublicKey = s.ownerPublicKey) ∨
  expected = none ∧ ∃ t, parseIdentityEnvelope P name envelope none = .ok t ∧ t.sequence = 1

/-- A legacy envelope is read back as the update it wraps. -/
theorem legacyEnvelope_opens (hP : CborRoundTrip P) {update signature e name key : Bytes} {u : SignedUpdate}
    (h : legacyEnvelope P update signature = .ok e) (hslen : signature.length = signatureLength)
    (hu : decodeSignedUpdate P update = .ok u) (hauth : u.authorization = none)
    (hname : pyGet u.record 1 = some (.bytes name)) (hkey : pyGet u.record 2 = some (.bytes key))
    (hklen : key.length = keyLength) : Opens P e ⟨update, name, key, u.sequence, none, [(none, signature)]⟩ := by
  rw [legacyEnvelope, canonicalBytes, orRaise_eq_ok] at h
  have hread := hP.reads_tidy (tidy_legacy update signature) h
  refine .legacy hread (isInt_dictFrom _ _) (keySet_dictFrom rfl) ?_ ?_ hslen hu hauth hname hkey hklen
  · simp [pyGet, dictFrom, pyEqInt]
  · simp [pyGet, dictFrom, pyEqInt]

/-- What a bundle is finalized to holds the update of its draft. -/
theorem IdentityBundle.finalize_update (hP : CborRoundTrip P) {b : IdentityBundle P} {e : Bytes}
    (h : b.finalize = .ok e) : ∃ o, Opens P e o ∧ o.update = b.draft.signedUpdateBytes := by
  obtain ⟨u, hu, hname, hkey, hklen, hseq, hauth, -, hvalid, -, -⟩ := b.draft.contents_spec
  simp only [finalize, bind_eq_ok, reject_eq_ok, pure_eq_ok] at h
  obtain ⟨_, -, x, hx, _, -, rfl⟩ := h
  cases ha : b.draft.authorization with
  | none =>
    simp only [sealProofs, ha] at hx
    rcases hproofs : b.proofs with _ | ⟨p, _ | ⟨q, ps⟩⟩
    · rw [hproofs] at hx
      cases hx
    · rw [hproofs] at hx
      simp only [finalizeLegacy, bind_eq_ok] at hx
      obtain ⟨_, -, _, -, hx⟩ := hx
      exact ⟨_, legacyEnvelope_opens hP hx p.signatureOk hu (hauth.trans ha) hname hkey hklen, rfl⟩
    · rw [hproofs] at hx
      cases hx
  | some a =>
    simp only [sealProofs, ha, finalizeVersionOne, bind_eq_ok, canonicalBytes, orRaise_eq_ok] at hx
    obtain ⟨-, -, -, -, -, -, hx⟩ := hx
    have hupdate : UpdateOf P b.draft.signedUpdateBytes b.draft.ownerName b.draft.ownerPublicKey b.draft.sequence a :=
      ⟨⟨u, hu, hname, hkey, hseq, hauth.trans ha⟩, hvalid, hklen⟩
    have hproofs : (b.proofs.map fun p => proofValue p.entry) = (b.proofs.map IdentityProof.entry).map proofValue :=
      by rw [List.map_map, Function.comp_def]
    rw [hproofs] at hx
    exact ⟨_, hupdate.opens_of_read (proofsOk_entries b) (hP.reads_tidy (tidy_versionOne _ _) hx), rfl⟩

/-- A draft that rotates no owner key keeps the owner and counts on. -/
theorem IdentityDraft.follows (d : IdentityDraft P) (hrot : d.isRotation = false) :
    (d.previousState = none → d.sequence = 1) ∧
      ∀ s ∈ d.previousState, d.sequence = s.sequence + 1 ∧ d.ownerPublicKey = s.ownerPublicKey := by
  obtain ⟨-, -, -, -, -, -, -, -, -, -, ht⟩ := d.contents_spec
  cases hs : d.previousState with
  | none =>
    refine ⟨fun _ => ?_, by simp⟩
    rw [hs] at ht
    cases ha : d.authorization with
    | none =>
      rw [ha] at ht
      simpa [validateDraftTransition] using ht
    | some a =>
      rw [ha] at ht
      simp only [validateDraftTransition, bind_eq_ok, reject_eq_ok, not_not] at ht
      obtain ⟨-, hseq, -⟩ := ht
      exact hseq
  | some s =>
    refine ⟨by simp, fun t hst => ?_⟩
    obtain rfl := Option.some.inj hst
    rw [hs] at ht
    cases ha : d.authorization with
    | none =>
      rw [ha] at ht
      simp only [validateDraftTransition, bind_eq_ok, reject_eq_ok, not_or, not_not] at ht
      obtain ⟨-, hseq, hkey⟩ := ht
      exact ⟨hseq.2, hkey.2⟩
    | some a =>
      have hop : a.operation ≠ 5 := by simpa [isRotation, ha] using hrot
      rw [ha] at ht
      simp only [validateDraftTransition, bind_eq_ok, reject_eq_ok, not_or, not_not, if_neg hop] at ht
      obtain ⟨-, hseq, -, -, -, hkey, -⟩ := ht
      exact ⟨hseq.2, hkey⟩

theorem succeeds_of_finalize (hP : CborRoundTrip P) {b : IdentityBundle P} {e : Bytes} (h : b.finalize = .ok e)
    (hrot : b.draft.isRotation = false) :
    Succeeds P b.draft.ownerName e (b.draft.previousState.map IdentityState.stateHash) := by
  obtain ⟨-, t, ht⟩ := b.finalize_ok h
  obtain ⟨o, ho, hupdate⟩ := b.finalize_update hP h
  have hok : ∀ p ∈ b.draft.previousState, PreviousOk b.draft.ownerName p := by
    intro p hp
    obtain ⟨c, hc⟩ := b.draft.previousState_historyOf p hp
    exact hc.previousOk
  obtain ⟨o', ho', -, -, rfl⟩ := (parseIdentityEnvelope_ok P hok).1 ht
  -- the state that was parsed says what the draft says
  obtain ⟨u, hu, -, hkey, -, hseq, -⟩ := b.draft.contents_spec
  obtain ⟨u', hu', hseq', -, -, hkey'⟩ := ho'.decode
  rw [ho'.update_unique ho, hupdate, hu] at hu'
  cases Except.ok.inj hu'
  have hsequence : (o'.state P e b.draft.previousState).sequence = b.draft.sequence := hseq'.symm.trans hseq
  have howner : (o'.state P e b.draft.previousState).ownerPublicKey = b.draft.ownerPublicKey := by
    rw [hkey] at hkey'
    exact (Value.bytes.inj (Option.some.inj hkey')).symm
  obtain ⟨hfirst, hnext⟩ := b.draft.follows hrot
  cases hs : b.draft.previousState with
  | none =>
    rw [hs] at ht hsequence
    exact .inr ⟨rfl, _, ht, hsequence.trans (hfirst hs)⟩
  | some s =>
    obtain ⟨c, hc⟩ := b.draft.previousState_historyOf s hs
    obtain ⟨hcount, hkeep⟩ := hnext s hs
    rw [hs] at ht hsequence howner
    exact .inl ⟨s, c, _, hc, rfl, ht, hsequence.trans hcount, howner.trans hkeep⟩

/-! ### Puts -/

/-- Nothing was put. -/
def Silent (w w' : World σ) : Prop := ∃ l, w.Passes l w' ∧ ∀ m ∈ l, m.isPut = false

theorem forall_isPut_append {l k : List (Moment σ)} (hl : ∀ m ∈ l, m.isPut = false) (hk : ∀ m ∈ k, m.isPut = false) :
    ∀ m ∈ l ++ k, m.isPut = false := by
  intro m hm
  rcases List.mem_append.1 hm with hm | hm
  · exact hl m hm
  · exact hk m hm

theorem Silent.refl (w : World σ) : Silent w w := ⟨[], .nil rfl rfl, by simp⟩

theorem Silent.trans {w₁ w₂ w₃ : World σ} (h : Silent w₁ w₂) (h' : Silent w₂ w₃) : Silent w₁ w₃ := by
  obtain ⟨l, hpass, hl⟩ := h
  obtain ⟨k, hpass', hk⟩ := h'
  exact ⟨l ++ k, hpass.append hpass', forall_isPut_append hl hk⟩

theorem silent_of_quiet {α : Type} {x : Net σ α} (hx : Keeps Quiet x) {w w' : World σ} {r : Except IdentityError α}
    (h : x w = (r, w')) : Silent w w' := (hx.of_run h).passes

/-- What a call does after its last callback. It puts nothing, or one envelope right after the clock was read and found
short of the expiry, and then it is confirmed only by a read of the same bytes. -/
inductive FinalPart (A : Adapter σ) (name envelope : Bytes) (expected : Option Bytes) (expiresAt : ℤ)
    (confirmed : Prop) : List (Moment σ) → Prop
  | silent {l} (hl : ∀ m ∈ l, m.isPut = false) (hno : ¬confirmed) :
      FinalPart A name envelope expected expiresAt confirmed l
  | put {before now outcome after} (hbefore : ∀ m ∈ before, m.isPut = false) (hclock : now < expiresAt)
      (hafter : ∀ m ∈ after, m.isPut = false)
      (hread : confirmed → after = [.call (.read A.id name (some (.bytes envelope)))]) :
      FinalPart A name envelope expected expiresAt confirmed
        (before ++ .clock A.id now :: .call (.put A.id name envelope expected expiresAt outcome) :: after)

/-- The call ends in such a part. -/
def Finishes (A : Adapter σ) (name envelope : Bytes) (expected : Option Bytes) (expiresAt : ℤ) (confirmed : Prop)
    (w w' : World σ) : Prop :=
  ∃ l, w.Passes l w' ∧ FinalPart A name envelope expected expiresAt confirmed l

/-- What is left once the clock has been read: nothing is put, or the envelope at once. -/
def PutsAtOnce (A : Adapter σ) (name envelope : Bytes) (expected : Option Bytes) (expiresAt : ℤ) (confirmed : Prop)
    (w w' : World σ) : Prop :=
  Silent w w' ∧ ¬confirmed ∨ ∃ outcome after,
    w.Passes (.call (.put A.id name envelope expected expiresAt outcome) :: after) w' ∧
      (∀ m ∈ after, m.isPut = false) ∧ (confirmed → after = [.call (.read A.id name (some (.bytes envelope)))])

section

variable {A : Adapter σ} {name envelope : Bytes} {expected : Option Bytes} {expiresAt : ℤ} {confirmed : Prop}
  {w w₁ w' : World σ}

theorem Finishes.of_silent (h : Silent w w') (hno : ¬confirmed) :
    Finishes A name envelope expected expiresAt confirmed w w' := by
  obtain ⟨l, hpass, hl⟩ := h
  exact ⟨l, hpass, .silent hl hno⟩

theorem Finishes.after (h : Silent w w₁) (h' : Finishes A name envelope expected expiresAt confirmed w₁ w') :
    Finishes A name envelope expected expiresAt confirmed w w' := by
  obtain ⟨l, hpass, hl⟩ := h
  obtain ⟨l', hpass', hfinal⟩ := h'
  refine ⟨l ++ l', hpass.append hpass', ?_⟩
  cases hfinal with
  | silent hl' hno => exact .silent (forall_isPut_append hl hl') hno
  | put hbefore hclock hafter hread =>
    rw [← List.append_assoc]
    exact .put (forall_isPut_append hl hbefore) hclock hafter hread

/-- The clock is read, and then it is written. -/
theorem Finishes.of_putsAtOnce {now : ℤ} (hpass : w.Passes [.clock A.id now] w₁) (hclock : now < expiresAt)
    (h : PutsAtOnce A name envelope expected expiresAt confirmed w₁ w') :
    Finishes A name envelope expected expiresAt confirmed w w' := by
  rcases h with ⟨hsilent, hno⟩ | ⟨outcome, after, hpass', hafter, hread⟩
  · exact .of_silent (.trans ⟨_, hpass, by simp [Moment.isPut]⟩ hsilent) hno
  · have hnone : ∀ m ∈ ([] : List (Moment σ)), m.isPut = false := by simp
    exact ⟨_, hpass.append hpass', .put hnone hclock hafter hread⟩

end

section

variable {A : Adapter σ} {w w' : World σ}

theorem readTime_passes (w : World σ) : w.Passes [.clock A.id (A.transport.time w.state).1] (readTime A w).2 :=
  ⟨rfl, (List.append_nil _).symm⟩

/-- One read, and a state only where it returned the envelope itself. -/
theorem confirm_passes {name envelope : Bytes} {previous : Option IdentityState}
    (hname : validateOwnerName name = .ok name)
    (hok : ∀ p ∈ previous, PreviousOk name p) {r : Except IdentityError (Option IdentityState)}
    (h : confirm (P := P) A name envelope previous w = (r, w')) :
    ∃ answer, w.Passes [.call (.read A.id name answer)] w' ∧ ∀ s, r = .ok (some s) →
    answer = some (.bytes envelope) := by
  refine ⟨(A.transport.getIdentityEnvelope name w.state).1, ?_, ?_⟩
  · simp only [confirm, Prog.bind_run, Prog.lift_run, hname, getIdentityEnvelope] at h
    rcases hanswer : (A.transport.getIdentityEnvelope name w.state).1 with _ | _ | candidate | _
    · simp only [hanswer] at h
      cases h
      exact ⟨rfl, rfl⟩
    · simp only [hanswer] at h
      cases h
      exact ⟨rfl, rfl⟩
    · cases hparse : parseIdentityEnvelope P name candidate previous with
      | ok s =>
        simp only [hanswer, hparse] at h
        cases h
        exact ⟨rfl, rfl⟩
      | error e =>
        simp only [hanswer, hparse] at h
        cases h
        exact ⟨rfl, rfl⟩
    · simp only [hanswer] at h
      cases h
      exact ⟨rfl, rfl⟩
  · intro s hr
    subst hr
    obtain ⟨candidate, hget, hparse, henvelope, -⟩ := confirm_some h
    rw [hget, ← henvelope, (predecessorEnvelopes_of_parse hok hparse).1]

/-- A put that was refused. -/
theorem PutsAtOnce.refused {name envelope : Bytes} {expected : Option Bytes} {expiresAt : ℤ} {confirmed : Prop}
    {outcome : PutOutcome} {s : σ} (hno : ¬confirmed) : PutsAtOnce A name envelope expected expiresAt confirmed w
      (w.record s (.put A.id name envelope expected expiresAt outcome)) :=
  .inr ⟨outcome, [], ⟨rfl, rfl⟩, by simp, fun hyes => absurd hyes hno⟩

/-- A put, and the read that follows it. -/
theorem PutsAtOnce.confirm {name envelope : Bytes} {expected : Option Bytes} {expiresAt : ℤ} {confirmed : Prop}
    {outcome : PutOutcome} {s : σ} {answer : Fetch}
    (hpass : (w.record s (.put A.id name envelope expected expiresAt outcome)).Passes
      [.call (.read A.id name answer)] w') (hread : confirmed → answer = some (.bytes envelope)) :
    PutsAtOnce A name envelope expected expiresAt confirmed w w' := by
  have hput : w.Passes [.call (.put A.id name envelope expected expiresAt outcome)]
      (w.record s (.put A.id name envelope expected expiresAt outcome)) := ⟨rfl, rfl⟩
  refine .inr ⟨outcome, [_], hput.append hpass, by simp [Moment.isPut, Event.isPut], fun hyes => ?_⟩
  rw [hread hyes]

/-- The call returned `CONFIRMED`. -/
def PublicationConfirmed (r : Except IdentityError (PublicationResult P)) : Prop :=
  ∃ x, r = .ok x ∧ x.status = .confirmed

theorem confirmPublication_passes {name envelope : Bytes} {previous : Option IdentityState} {reason : String}
    (hname : validateOwnerName name = .ok name) (hok : ∀ p ∈ previous, PreviousOk name p)
    {r : Except IdentityError (PublicationResult P)}
    (h : confirmPublication A name envelope previous reason w = (r, w')) :
    ∃ answer, w.Passes [.call (.read A.id name answer)] w' ∧
      (PublicationConfirmed r → answer = some (.bytes envelope)) := by
  rcases hconfirm : confirm (P := P) A name envelope previous w with ⟨x, w₁⟩
  obtain ⟨answer, hpass, hread⟩ := confirm_passes hname hok hconfirm
  rcases x with e | _ | s
  · rw [confirmPublication, Prog.bind_run_error hconfirm] at h
    cases h
    exact ⟨answer, hpass, by simp [PublicationConfirmed]⟩
  · rw [confirmPublication, Prog.bind_run_ok hconfirm] at h
    cases h
    exact ⟨answer, hpass, by simp [PublicationConfirmed]⟩
  · rw [confirmPublication, Prog.bind_run_ok hconfirm] at h
    cases h
    exact ⟨answer, hpass, fun _ => hread s rfl⟩

/-! ### Publishing a bundle -/

theorem publishBundleWrite_putsAtOnce {b : IdentityBundle P} {envelope : Bytes} {expected : Option Bytes}
    {expiresAt : ℤ} {r : Except IdentityError (PublicationResult P)}
    (h : publishBundleWrite A b envelope expected expiresAt w = (r, w')) :
    PutsAtOnce A b.draft.ownerName envelope expected expiresAt (PublicationConfirmed r) w w' := by
  have hok : ∀ p ∈ b.draft.previousState, PreviousOk b.draft.ownerName p := by
    intro p hp
    obtain ⟨c, hc⟩ := b.draft.previousState_historyOf p hp
    exact hc.previousOk
  unfold publishBundleWrite at h
  simp only [Prog.bind_run, isOwnerLatched] at h
  split_ifs at h
  · cases h
    exact .inl ⟨.refl w, by simp [PublicationConfirmed]⟩
  simp only [Prog.bind_run, putIdentityEnvelope] at h
  generalize A.transport.putIdentityEnvelope b.draft.ownerName envelope expected expiresAt w.state = answer at h
  obtain ⟨outcome, s⟩ := answer
  have hconfirm : ∀ reason, confirmPublication A b.draft.ownerName envelope b.draft.previousState reason
      (w.record s (.put A.id b.draft.ownerName envelope expected expiresAt outcome)) = (r, w') →
      PutsAtOnce A b.draft.ownerName envelope expected expiresAt (PublicationConfirmed r) w w' := by
    intro reason hc
    obtain ⟨answer, hpass, hread⟩ := confirmPublication_passes b.draft.validateOwnerName_ok hok hc
    exact .confirm hpass hread
  cases outcome with
  | returned => exact hconfirm _ h
  | raised => exact hconfirm _ h
  | stale =>
    cases h
    exact .refused (by simp [PublicationConfirmed])
  | expired =>
    cases h
    exact .refused (by simp [PublicationConfirmed])

/-- The second half of a publication puts what the handler approved, on the state the draft stands on. -/
theorem publishBundleEnd_finishes {p : PendingPublication P} {d : ConsentDecision}
    {r : Except IdentityError (PublicationResult P)} (h : publishBundleEnd A p d w = (r, w')) :
    Silent w w' ∧ ¬PublicationConfirmed r ∨
      d = .approved ∧ Finishes A p.bundle.draft.ownerName p.envelope
        (p.bundle.draft.previousState.map IdentityState.stateHash) p.request.expiresAt
        (PublicationConfirmed r) w w' := by
  unfold publishBundleEnd at h
  by_cases hd : d = .approved
  · refine .inr ⟨hd, ?_⟩
    rcases hgate : consentGateEnd A p.request d w with ⟨e | g, w₁⟩
    · rw [Prog.bind_run_error hgate] at h
      cases h
      exact .of_silent (silent_of_quiet (consentGateEnd_quiet A _ d) hgate) (by simp [PublicationConfirmed])
    rw [Prog.bind_run_ok hgate] at h
    refine .after (silent_of_quiet (consentGateEnd_quiet A _ d) hgate) ?_
    cases g with
    | some x =>
      cases h
      exact .of_silent (.refl _) (by simpa [PublicationConfirmed] using (consentGateEnd_status hgate).1)
    | none =>
      simp only at h
      rcases hread : readState P A p.bundle.draft.ownerName w₁ with ⟨e | current, w₂⟩
      · rw [Prog.bind_run_error hread] at h
        cases h
        exact .of_silent (silent_of_quiet (readState_quiet A _) hread) (by simp [PublicationConfirmed])
      rw [Prog.bind_run_ok hread] at h
      refine .after (silent_of_quiet (readState_quiet A _) hread) ?_
      split_ifs at h with hsame
      · cases h
        exact .of_silent (.refl _) (by simp [PublicationConfirmed])
      have htime : readTime A w₂ = (.ok (A.transport.time w₂.state).1, (readTime A w₂).2) := rfl
      have hpass := readTime_passes (A := A) w₂
      rw [Prog.bind_run_ok htime] at h
      split_ifs at h with hclock
      · cases h
        exact .of_silent ⟨_, hpass, by simp [Moment.isPut]⟩ (by simp [PublicationConfirmed])
      rw [stateHash_of_sameState (by simpa using hsame)] at h
      exact .of_putsAtOnce hpass (not_le.1 hclock) (publishBundleWrite_putsAtOnce h)
  · have hgate : consentGateEnd A p.request d w = (.ok (some (d.status, d.value)), w) := by
      rw [consentGateEnd, if_pos hd]
      rfl
    rw [Prog.bind_run_ok hgate] at h
    cases h
    exact .inl ⟨.refl w, by simpa [PublicationConfirmed] using (consentGateEnd_status hgate).1⟩

/-! ### Submitting an update -/

/-- The call returned `CONFIRMED`. -/
def SubmissionConfirmed (r : Except IdentityError (SubmissionResult P)) : Prop := ∃ x, r = .ok x ∧ x.status = .confirmed

theorem not_submissionConfirmed {x : SubmissionResult P} (h : x.status.Refused) :
    ¬SubmissionConfirmed (.ok x : Except IdentityError _) := by
  intro hconfirmed
  obtain ⟨y, hy, hstatus⟩ := hconfirmed
  cases hy
  rw [hstatus] at h
  simp [PublishStatus.Refused] at h

theorem confirmSubmission_passes {p : PendingSubmission P} (hp : p.Submitted) {envelope : Bytes} {x y : Option String}
    {r : Except IdentityError (SubmissionResult P)} (h : confirmSubmission A p envelope x y w = (r, w')) :
    ∃ answer, w.Passes [.call (.read A.id p.request.ownerName answer)] w' ∧
      (SubmissionConfirmed r → answer = some (.bytes envelope)) := by
  have hok : ∀ s ∈ p.current, PreviousOk p.request.ownerName s := by
    intro s hs
    obtain ⟨hread, hname⟩ := hp.current s hs
    obtain ⟨x, c, hc, -⟩ := hread.history
    exact hname ▸ hc.previousOk
  rcases hconfirm : confirm (P := P) A p.request.ownerName envelope p.current w with ⟨z, w₁⟩
  obtain ⟨answer, hpass, hread⟩ := confirm_passes hp.name hok hconfirm
  rcases z with e | _ | s
  · rw [confirmSubmission, Prog.bind_run_error hconfirm] at h
    cases h
    exact ⟨answer, hpass, by simp [SubmissionConfirmed]⟩
  · rw [confirmSubmission, Prog.bind_run_ok hconfirm] at h
    cases h
    exact ⟨answer, hpass, by simp [SubmissionConfirmed]⟩
  · rw [confirmSubmission, Prog.bind_run_ok hconfirm] at h
    cases h
    exact ⟨answer, hpass, fun _ => hread s rfl⟩

theorem putSubmission_putsAtOnce {p : PendingSubmission P} (hp : p.Submitted) {envelope : Bytes}
    {r : Except IdentityError (SubmissionResult P)} (h : putSubmission A p envelope w = (r, w')) :
    PutsAtOnce A p.request.ownerName envelope (p.current.map IdentityState.stateHash) p.request.consent.expiresAt
      (SubmissionConfirmed r) w w' := by
  simp only [putSubmission, Prog.bind_run, putIdentityEnvelope] at h
  generalize A.transport.putIdentityEnvelope p.request.ownerName envelope (p.current.map IdentityState.stateHash)
    p.request.consent.expiresAt w.state = answer at h
  obtain ⟨outcome, s⟩ := answer
  have hconfirm : ∀ x y, confirmSubmission A p envelope x y (w.record s (.put A.id p.request.ownerName envelope
      (p.current.map IdentityState.stateHash) p.request.consent.expiresAt outcome)) = (r, w') →
      PutsAtOnce A p.request.ownerName envelope (p.current.map IdentityState.stateHash) p.request.consent.expiresAt
        (SubmissionConfirmed r) w w' := by
    intro x y hc
    obtain ⟨answer, hpass, hread⟩ := confirmSubmission_passes hp hc
    exact .confirm hpass hread
  cases outcome with
  | returned => exact hconfirm _ _ h
  | raised => exact hconfirm _ _ h
  | stale =>
    cases h
    exact .refused (not_submissionConfirmed (by simp [PublishStatus.Refused]))
  | expired =>
    cases h
    exact .refused (not_submissionConfirmed (by simp [PublishStatus.Refused]))

/-- After the second look the clock has just been read. -/
theorem checkSubmission_none {p : PendingSubmission P} {signed : Option Bytes} {reason : String}
    (h : checkSubmission A p signed reason w = (.ok none, w')) :
    ∃ w₁ now, Silent w w₁ ∧ w₁.Passes [.clock A.id now] w' ∧ now < p.request.consent.expiresAt := by
  unfold checkSubmission at h
  obtain ⟨latest, w₁, hread, h⟩ := Prog.bind_ok_iff.1 h
  split_ifs at h
  · simp at h
  obtain ⟨now, w₂, htime, h⟩ := Prog.bind_ok_iff.1 h
  cases htime
  split_ifs at h with hclock
  · simp at h
  · cases h
    exact ⟨w₁, _, silent_of_quiet (readState_quiet A _) hread, readTime_passes w₁, not_le.1 hclock⟩

/-- A signature that was collected has the right length and is one of the update. -/
theorem collectSignature_inr {p : PendingSubmission P} {signer : Option SignerAnswers} {signature : Bytes}
    (h : collectSignature A p signer w = (.ok (.inr signature), w')) : signature.length = signatureLength ∧
      P.verify p.request.signerPublicKey (P.sha256 p.update) signature = true := by
  unfold collectSignature at h
  cases signer with
  | none => simp at h
  | some s =>
    simp only at h
    split_ifs at h
    · simp at h
    obtain ⟨t, w₁, -, h⟩ := Prog.bind_ok_iff.1 h
    split_ifs at h
    · simp at h
    cases hs : s.signature with
    | none => simp [hs] at h
    | some x =>
      simp only [hs] at h
      split_ifs at h with hvalid
      · cases h
        exact hvalid
      · simp at h

end

/-- What a submission without an authorization wraps is the next legacy state. -/
theorem PendingSubmission.Submitted.succeeds {p : PendingSubmission P} (hp : p.Submitted) (hP : CborRoundTrip P)
    (hauth : p.auth = none) {signature envelope : Bytes} (hslen : signature.length = signatureLength)
    (hverify : P.verify p.request.signerPublicKey (P.sha256 p.update) signature = true)
    (h : legacyEnvelope P p.update signature = .ok envelope) :
    Succeeds P p.request.ownerName envelope (p.current.map IdentityState.stateHash) := by
  obtain ⟨-, hcheck, hbuild⟩ := hp.built
  rw [hauth] at hcheck hbuild
  obtain ⟨hname, hkey, hdecode⟩ := decode_of_build hP (by simp) (by simp) hbuild
  have hopens : Opens P envelope ⟨p.update, p.request.ownerName, p.request.ownerPublicKey, nextSequence p.current, none,
      [(none, signature)]⟩ := by
    refine legacyEnvelope_opens hP h hslen hdecode rfl ?_ ?_ hkey
    · simp [pyGet, dictFrom, pyEqInt]
    · simp [pyGet, dictFrom, pyEqInt]
  simp only [Checked, checkLegacy, bind_eq_ok, reject_eq_ok, not_not] at hcheck
  obtain ⟨-, hsame, -, -, -, hsigner, -⟩ := hcheck
  rw [hsigner] at hverify
  have hparse : ∀ previous : Option IdentityState, (∀ s ∈ previous, PreviousOk p.request.ownerName s) →
      parseIdentityEnvelope P p.request.ownerName envelope previous = .ok (Opened.state P envelope ⟨p.update,
        p.request.ownerName, p.request.ownerPublicKey, nextSequence p.current, none, [(none, signature)]⟩ previous) :=
    fun previous hok => (parseIdentityEnvelope_ok P hok).2 ⟨_, hopens, rfl, .legacy rfl rfl hverify, rfl⟩
  cases hs : p.current with
  | none => exact .inr ⟨rfl, _, hparse none (by simp), by simp [Opened.state, hs, nextSequence]⟩
  | some s =>
    obtain ⟨hread, hown⟩ := hp.current s hs
    obtain ⟨x, c, hc, -⟩ := hread.history
    rw [hown] at hc
    refine .inl ⟨s, _, _, hc, rfl, hparse (some s)
      (by simpa using hc.previousOk), by simp [Opened.state, hs, nextSequence], ?_⟩
    by_contra hne
    exact hsame ⟨s, hs, fun heq => hne heq.symm⟩

section

variable {A : Adapter σ} {w w' : World σ}

/-- The third part of a submission puts nothing, or the update that was reviewed in an envelope of its own. -/
theorem submitIdentityEnd_finishes (hP : CborRoundTrip P) {p : PendingSubmission P} (hp : p.Submitted)
    {signer : Option SignerAnswers} {r : Except IdentityError (SubmissionResult P)}
    (h : submitIdentityEnd A p signer w = (r, w')) : Silent w w' ∧ ¬SubmissionConfirmed r ∨
      ∃ signature envelope, legacyEnvelope P p.update signature = .ok envelope ∧
        Succeeds P p.request.ownerName envelope (p.current.map IdentityState.stateHash) ∧
        Finishes A p.request.ownerName envelope (p.current.map IdentityState.stateHash) p.request.consent.expiresAt
          (SubmissionConfirmed r) w w' := by
  have herror : ∀ e, ¬SubmissionConfirmed (.error e : Except IdentityError (SubmissionResult P)) := by
    simp [SubmissionConfirmed]
  unfold submitIdentityEnd at h
  rcases hcollect : collectSignature A p signer w with ⟨e | x, w₁⟩
  · rw [Prog.bind_run_error hcollect] at h
    cases h
    exact .inl ⟨silent_of_quiet (collectSignature_quiet A p signer) hcollect, herror e⟩
  have hsilent : Silent w w₁ := silent_of_quiet (collectSignature_quiet A p signer) hcollect
  rw [Prog.bind_run_ok hcollect] at h
  cases x with
  | inl result =>
    cases h
    exact .inl ⟨hsilent, not_submissionConfirmed (collectSignature_inl hcollect)⟩
  | inr signature =>
    obtain ⟨hslen, hverify⟩ := collectSignature_inr hcollect
    simp only at h
    rcases hcheck : checkSubmission A p (some p.update) "accepted state changed before publication" w₁ with ⟨e | y, w₂⟩
    · rw [Prog.bind_run_error hcheck] at h
      cases h
      exact .inl ⟨hsilent.trans (silent_of_quiet (checkSubmission_quiet A p _ _) hcheck), herror e⟩
    have hsilent' : Silent w w₂ := hsilent.trans (silent_of_quiet (checkSubmission_quiet A p _ _) hcheck)
    rw [Prog.bind_run_ok hcheck] at h
    cases y with
    | some result =>
      cases h
      exact .inl ⟨hsilent', not_submissionConfirmed (checkSubmission_some hcheck)⟩
    | none =>
      -- a proof is handed out, unless the update is a legacy one without a draft
      by_cases hv1 : p.auth ≠ none ∨ p.request.draft ≠ none
      · have hproof : ¬SubmissionConfirmed r := by
          intro hconfirmed
          obtain ⟨x, rfl, hstatus⟩ := hconfirmed
          rw [useSignature_status hp hv1 h] at hstatus
          cases hstatus
        have hquiet : Silent w₂ w' := silent_of_quiet (useSignature_quiet A fun hdraft => ?_) h
        · exact .inl ⟨hsilent'.trans hquiet, hproof⟩
        · obtain ⟨a, ha⟩ := Option.ne_none_iff_exists'.1 (hv1.resolve_right (not_not.2 hdraft))
          simp [ha, hp.threshold ha]
      · simp only [not_or, not_not] at hv1
        obtain ⟨hauth, hdraft⟩ := hv1
        simp only [useSignature, hdraft, hauth, Option.any_none, Bool.false_eq_true, if_false, submissionEnvelope] at h
        cases henvelope : legacyEnvelope P p.update signature with
        | error e =>
          rw [henvelope] at h
          cases h
          exact .inl ⟨hsilent', herror e⟩
        | ok envelope =>
          rw [henvelope] at h
          obtain ⟨w₃, now, hbefore, hpass, hclock⟩ := checkSubmission_none hcheck
          exact .inr ⟨signature, envelope, henvelope, hp.succeeds hP hauth hslen hverify henvelope,
            .after (hsilent.trans hbefore) (.of_putsAtOnce hpass hclock (putSubmission_putsAtOnce hp h))⟩

end

/-! ### Consent -/

/-- Among the moments `l` the replay store was given the nonce of the request: it had not been given that key
before, and keeps it from now on. -/
def Reserved (P : Platform) (A : Adapter σ) (K : σ → Set Bytes) (name : Bytes) (request : ConsentRequest)
    (l : List (Moment σ)) : Prop :=
  ∃ key s, P.dumps (dict [.bytes name, .text request.authenticatedOrigin, .text request.environment,
    .bytes request.replayNonce]) = some key ∧ .consume A.id (P.sha256 key) s (some true) ∈ l ∧ P.sha256 key ∉ K s ∧
      P.sha256 key ∈ K (A.replayStore (P.sha256 key) s).2

/-- The part of a call before the handler. -/
def Begins (P : Platform) (A : Adapter σ) (K : σ → Set Bytes) (name : Bytes) (request : ConsentRequest)
    (w w' : World σ) : Prop :=
  ∃ l, w.Passes l w' ∧ (∀ m ∈ l, m.isPut = false) ∧ Reserved P A K name request l

/-- A store that keeps the keys `K` accepts no key twice. -/
def AcceptsOnce (A : Adapter σ) (K : σ → Set Bytes) : Prop :=
  ∀ key s, (A.replayStore key s).1 = some true → key ∉ K s ∧ key ∈ K (A.replayStore key s).2

/-- The transcript is one of the request. -/
structure Shown (t : ConsentTranscript P) (request : ConsentRequest) (review : Bytes) : Prop where
  origin : t.authenticatedOrigin = request.authenticatedOrigin
  environment : t.environment = request.environment
  nonce : t.replayNonce = request.replayNonce
  expiry : t.expiresAt = request.expiresAt
  review : t.reviewPayload = review

/-- How a call that writes goes: the handler runs from `w₁` to `w₂`, the signer, if there is one, from `w₃` to `w₄`, and
the call itself does the rest. -/
inductive OrdinaryCall (P : Platform) (A : Adapter σ) (K : σ → Set Bytes) (name : Bytes) (request : ConsentRequest)
    (consent : ConsentTranscript P → Net σ ConsentDecision) (Signs : World σ → World σ → Prop)
    (Wraps : Bytes → Bytes → Prop) (confirmed : Prop) (w w' : World σ) : Prop
  | refused (hsilent : Silent w w') (hno : ¬confirmed)
  | declined {t w₁ decision w₂} (hbegin : Silent w w₁) (hconsent : askConsent consent t w₁ = (.ok decision, w₂))
      (hend : Silent w₂ w') (hno : ¬confirmed)
  | unsigned {t w₁ decision w₂ w₃ w₄} (hbegin : Silent w w₁) (hconsent : askConsent consent t w₁ = (.ok decision, w₂))
      (hbetween : Silent w₂ w₃) (hsigner : Signs w₃ w₄) (hend : Silent w₄ w') (hno : ¬confirmed)
  | approved {t w₁ w₂ w₃ w₄ review envelope expected} (hbegin : Begins P A K name request w w₁)
      (hshown : Shown t request review) (hconsent : askConsent consent t w₁ = (.ok .approved, w₂))
      (hbetween : Silent w₂ w₃) (hsigner : Signs w₃ w₄) (hwraps : Wraps review envelope)
      (hsucceeds : Succeeds P name envelope expected)
      (hend : Finishes A name envelope expected request.expiresAt confirmed w₄ w')

section

variable {A : Adapter σ} {K : σ → Set Bytes} {w w' : World σ}

theorem Begins.after {name : Bytes} {request : ConsentRequest} {w₁ : World σ} (h : Silent w w₁)
    (h' : Begins P A K name request w₁ w') : Begins P A K name request w w' := by
  obtain ⟨k, hpass, hk⟩ := h
  obtain ⟨l, hpass', hl, key, s, hkey, hmem, hreserved⟩ := h'
  exact ⟨k ++ l, hpass.append hpass', forall_isPut_append hk hl, key, s, hkey, List.mem_append_right k hmem, hreserved⟩

theorem consentGateBegin_none (hK : AcceptsOnce A K) {name : Bytes} {request : ConsentRequest}
    (h : consentGateBegin P A name request w = (.ok none, w')) : Begins P A K name request w w' := by
  obtain ⟨answer, w₁, hreserve, hrest⟩ := Prog.bind_ok_iff.1 h
  have hquiet := silent_of_quiet (consentGateBegin_quiet A name request) h
  rcases answer with _ | _ | _
  · simp at hrest
  · simp at hrest
  simp only [reserveReplayNonce] at hreserve
  cases hkey : P.dumps (dict [.bytes name, .text request.authenticatedOrigin, .text request.environment,
      .bytes request.replayNonce]) with
  | none => simp [hkey] at hreserve
  | some key =>
    simp only [hkey, Prod.mk.injEq, Except.ok.injEq] at hreserve
    obtain ⟨hstore, rfl⟩ := hreserve
    obtain ⟨l, hpass, hl⟩ := silent_of_quiet ((readTime_quiet A).bind fun _ =>
      (Keeps.pure _).ite (Keeps.pure _)) hrest
    refine ⟨.consume A.id (P.sha256 key) w.state (some true) :: l, ⟨?_, ?_⟩, ?_, key, w.state, hkey, by simp,
      hK _ _ hstore⟩
    · rw [hpass.trail, hstore, List.append_assoc]
      rfl
    · rw [hpass.log]
      rfl
    · exact List.forall_mem_cons.2 ⟨rfl, hl⟩

theorem askConsent_ok (consent : ConsentTranscript P → Net σ ConsentDecision) (t : ConsentTranscript P) (w : World σ) :
    ∃ decision w', askConsent consent t w = (.ok decision, w') := by
  rcases hconsent : consent t w with ⟨e | decision, w'⟩
  · exact ⟨.failed, w', Prog.tryCatch_ok_iff.2 (.inr ⟨e, w', hconsent, rfl⟩)⟩
  · exact ⟨decision, w', Prog.tryCatch_ok_iff.2 (.inl hconsent)⟩

theorem ConsentTranscript.make_ok {fields : TranscriptFields} {t : ConsentTranscript P}
    (h : ConsentTranscript.make P fields = .ok t) : t.toTranscriptFields = fields := by
  unfold make at h
  split at h
  · cases h
    rfl
  · cases h

theorem publishBundleBegin_shown (hK : AcceptsOnce A K) {b : IdentityBundle P} {request : ConsentRequest}
    {p : PendingPublication P} (h : publishBundleBegin A b request w = (.ok (.inr p), w')) :
    p.bundle = b ∧ p.request = request ∧ Shown p.transcript request p.envelope ∧
      Begins P A K b.draft.ownerName request w w' := by
  unfold publishBundleBegin at h
  obtain ⟨_, w₁, h1, h⟩ := Prog.bind_ok_iff.1 h
  obtain ⟨-, rfl⟩ := Prog.reject_ok_iff.1 h1
  obtain ⟨_, w₂, h2, h⟩ := Prog.bind_ok_iff.1 h
  obtain ⟨-, rfl⟩ := Prog.reject_ok_iff.1 h2
  obtain ⟨e, w₃, h3, h⟩ := Prog.bind_ok_iff.1 h
  obtain ⟨-, rfl⟩ := Prog.lift_ok_iff.1 h3
  obtain ⟨l, w₄, h4, h⟩ := Prog.bind_ok_iff.1 h
  split_ifs at h
  · simp at h
  obtain ⟨current, w₅, h5, h⟩ := Prog.bind_ok_iff.1 h
  split_ifs at h
  · simp at h
  obtain ⟨t, w₆, ht, h⟩ := Prog.bind_ok_iff.1 h
  obtain ⟨hmake, rfl⟩ := Prog.lift_ok_iff.1 ht
  obtain ⟨g, w₇, hgate, h⟩ := Prog.bind_ok_iff.1 h
  have hsilent := (silent_of_quiet (isOwnerLatched_quiet _ _) h4).trans (silent_of_quiet (readState_quiet A _) h5)
  cases g with
  | some x => simp at h
  | none =>
    cases h
    have hfields := ConsentTranscript.make_ok hmake
    refine ⟨rfl, rfl, ?_, .after hsilent (consentGateBegin_none hK hgate)⟩
    refine ⟨?_, ?_, ?_, ?_, ?_⟩ <;> simp only [hfields]

theorem publishBundle_ordinary (hP : CborRoundTrip P) (hK : AcceptsOnce A K) {b : IdentityBundle P}
    {request : ConsentRequest} {consent : ConsentTranscript P → Net σ ConsentDecision}
    {r : Except IdentityError (PublicationResult P)} (h : publishBundle A b request consent w = (r, w')) :
    OrdinaryCall P A K b.draft.ownerName request consent Eq Eq (PublicationConfirmed r) w w' := by
  unfold publishBundle at h
  rcases hbegin : publishBundleBegin A b request w with ⟨e | x, w₁⟩
  · rw [Prog.bind_run_error hbegin] at h
    cases h
    exact .refused (silent_of_quiet (publishBundleBegin_quiet A b request) hbegin) (by simp [PublicationConfirmed])
  have hsilent : Silent w w₁ := silent_of_quiet (publishBundleBegin_quiet A b request) hbegin
  rw [Prog.bind_run_ok hbegin] at h
  cases x with
  | inl result =>
    cases h
    exact .refused hsilent (by simpa [PublicationConfirmed] using publishBundleBegin_inl hbegin)
  | inr p =>
    simp only at h
    obtain ⟨rfl, rfl, hshown, hbegins⟩ := publishBundleBegin_shown hK hbegin
    obtain ⟨-, hfin, hrot⟩ := publishBundleBegin_inr hbegin
    obtain ⟨decision, w₂, hconsent⟩ := askConsent_ok consent p.transcript w₁
    rw [Prog.bind_run_ok hconsent] at h
    rcases publishBundleEnd_finishes h with ⟨hend, hno⟩ | ⟨rfl, hend⟩
    · exact .declined hsilent hconsent hend hno
    · exact .approved hbegins hshown hconsent (.refl w₂) rfl rfl (succeeds_of_finalize hP hfin hrot) hend

theorem submitIdentityBegin_shown (hK : AcceptsOnce A K) {q : SubmitRequest P} {p : PendingSubmission P}
    (h : submitIdentityBegin A q w = (.ok (.inr p), w')) :
    Shown p.transcript q.consent p.update ∧ Begins P A K q.ownerName q.consent w w' := by
  unfold submitIdentityBegin at h
  obtain ⟨n, w₁, hlift, h⟩ := Prog.bind_ok_iff.1 h
  obtain ⟨hname, rfl⟩ := Prog.lift_ok_iff.1 hlift
  obtain rfl := validateOwnerName_eq hname
  obtain ⟨l, w₂, h2, h⟩ := Prog.bind_ok_iff.1 h
  obtain ⟨_, w₃, h3, h⟩ := Prog.bind_ok_iff.1 h
  obtain ⟨-, rfl⟩ := Prog.reject_ok_iff.1 h3
  obtain ⟨_, w₄, h4, h⟩ := Prog.bind_ok_iff.1 h
  obtain ⟨-, rfl⟩ := Prog.reject_ok_iff.1 h4
  obtain ⟨current, w₅, h5, h⟩ := Prog.bind_ok_iff.1 h
  obtain ⟨⟨auth, update⟩, w₆, h6, h⟩ := Prog.bind_ok_iff.1 h
  obtain ⟨-, rfl⟩ := Prog.lift_ok_iff.1 h6
  obtain ⟨t, w₇, ht, h⟩ := Prog.bind_ok_iff.1 h
  obtain ⟨hmake, rfl⟩ := Prog.lift_ok_iff.1 ht
  obtain ⟨g, w₈, hgate, h⟩ := Prog.bind_ok_iff.1 h
  have hsilent := (silent_of_quiet (isOwnerLatched_quiet _ _) h2).trans (silent_of_quiet (readState_quiet A _) h5)
  cases g with
  | some x => simp at h
  | none =>
    cases h
    have hfields := ConsentTranscript.make_ok hmake
    refine ⟨?_, .after hsilent (consentGateBegin_none hK hgate)⟩
    refine ⟨?_, ?_, ?_, ?_, ?_⟩ <;> simp only [hfields]

/-- The signer is asked only after approval. -/
theorem submitIdentitySign_none {p : PendingSubmission P} {d : ConsentDecision}
    (h : submitIdentitySign A p d w = (.ok none, w')) : d = .approved := by
  by_contra hd
  have hgate : consentGateEnd A p.request.consent d w = (.ok (some (d.status, d.value)), w) := by
    rw [consentGateEnd, if_pos hd]
    rfl
  rw [submitIdentitySign, Prog.bind_run_ok hgate] at h
  simp at h

/-- The signer factory, whose exceptions are caught. -/
def Factory (signerFactory : Net σ SignerAnswers) (w w' : World σ) : Prop :=
  ∃ signer, Prog.tryCatch (some <$> signerFactory) (fun _ => pure none) w = (.ok signer, w')

theorem submitIdentity_ordinary (hP : CborRoundTrip P) (hK : AcceptsOnce A K) {q : SubmitRequest P}
    {consent : ConsentTranscript P → Net σ ConsentDecision} {signerFactory : Net σ SignerAnswers}
    {r : Except IdentityError (SubmissionResult P)} (h : submitIdentity A q consent signerFactory w = (r, w')) :
    OrdinaryCall P A K q.ownerName q.consent consent (Factory signerFactory)
      (fun update envelope => ∃ signature, legacyEnvelope P update signature = .ok envelope)
      (SubmissionConfirmed r) w w' := by
  unfold submitIdentity at h
  rcases hbegin : submitIdentityBegin A q w with ⟨e | x, w₁⟩
  · rw [Prog.bind_run_error hbegin] at h
    cases h
    exact .refused (silent_of_quiet (submitIdentityBegin_quiet A q) hbegin) (by simp [SubmissionConfirmed])
  have hsilent : Silent w w₁ := silent_of_quiet (submitIdentityBegin_quiet A q) hbegin
  rw [Prog.bind_run_ok hbegin] at h
  cases x with
  | inl result =>
    cases h
    exact .refused hsilent (not_submissionConfirmed (submitIdentityBegin_inl hbegin))
  | inr p =>
    simp only at h
    obtain ⟨hshown, hbegins⟩ := submitIdentityBegin_shown hK hbegin
    obtain ⟨rfl, hp⟩ := submitted_of_begin hbegin
    obtain ⟨decision, w₂, hconsent⟩ := askConsent_ok consent p.transcript w₁
    rw [Prog.bind_run_ok hconsent] at h
    rcases hsign : submitIdentitySign A p decision w₂ with ⟨e | y, w₃⟩
    · rw [Prog.bind_run_error hsign] at h
      cases h
      exact .declined hsilent hconsent (silent_of_quiet (submitIdentitySign_quiet A p decision) hsign)
        (by simp [SubmissionConfirmed])
    have hbetween : Silent w₂ w₃ := silent_of_quiet (submitIdentitySign_quiet A p decision) hsign
    rw [Prog.bind_run_ok hsign] at h
    cases y with
    | some result =>
      cases h
      exact .declined hsilent hconsent hbetween (not_submissionConfirmed (submitIdentitySign_some hsign))
    | none =>
      obtain rfl := submitIdentitySign_none hsign
      simp only at h
      obtain ⟨signer, w₄, hsigner⟩ : ∃ signer w₄, Prog.tryCatch (some <$> signerFactory) (fun _ => pure none) w₃ =
          (.ok signer, w₄) := by
        rcases hfactory : signerFactory w₃ with ⟨e | s, w₄⟩
        · exact ⟨none, w₄, Prog.tryCatch_ok_iff.2 (.inr ⟨e, w₄, Prog.map_error_iff.2 hfactory, rfl⟩)⟩
        · exact ⟨some s, w₄, Prog.tryCatch_ok_iff.2 (.inl (Prog.map_ok_iff.2 ⟨s, hfactory, rfl⟩))⟩
      rw [Prog.bind_run_ok hsigner] at h
      rcases submitIdentityEnd_finishes hP hp h with ⟨hend, hno⟩ | ⟨signature, envelope, hwraps, hsucceeds, hend⟩
      · exact .unsigned hsilent hconsent hbetween ⟨signer, hsigner⟩ hend hno
      · exact .approved hbegins hshown hconsent hbetween ⟨signer, hsigner⟩ ⟨signature, hwraps⟩ hsucceeds hend

end

end DecentWallet
