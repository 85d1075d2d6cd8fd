import DecentWallet.Sanity.Authoring
import DecentWallet.Sanity.Publish

/-! What `submit_identity` knows about a request once its checks have passed. -/

namespace DecentWallet

open Cbor IdentityError

variable {P : Platform}

/-! ### Updates and states -/

/-- An update that was decoded, and the parts of it that the parser looks at. -/
structure UpdateOf (P : Platform) (update name key : Bytes) (seq : ℕ) (a : Authorization) : Prop where
  decode : ∃ u, decodeSignedUpdate P update = .ok u ∧ pyGet u.record 1 = some (.bytes name) ∧
    pyGet u.record 2 = some (.bytes key) ∧ u.sequence = seq ∧ u.authorization = some a
  name : validateOwnerName name = .ok name
  key : key.length = keyLength

theorem UpdateOf.wellFormed {update name key : Bytes} {seq : ℕ} {a : Authorization}
    (h : UpdateOf P update name key seq a) : a.WellFormed := by
  obtain ⟨u, hu, -, -, -, ha⟩ := h.decode
  exact (decodeSignedUpdate_wellFormed P hu a ha).1

/-- A state that a read returned. -/
def ReadBack (P : Platform) (s : IdentityState) : Prop :=
  ∃ (σ : Type) (A : Adapter σ) (n : Bytes) (w : World σ), (readState P A n w).1 = .ok (some s)

/-- What stands behind a state that was read: a verified history that a draft can hold. -/
theorem ReadBack.history {s : IdentityState} (h : ReadBack P s) : ∃ x c, HistoryOf P s.ownerName (x :: c) s ∧
    x.1 = s.envelopeBytes ∧ c.map Prod.fst = s.predecessorEnvelopes ∧ c.length ≤ maxPredecessorDepth := by
  obtain ⟨σ, A, n, w, hr⟩ := h
  obtain ⟨e, w1, -, hparse⟩ := readState_some A (Prog.run_eq hr)
  obtain ⟨c, hc, hlen, -, -⟩ := parseStateWithHistory_sound A hparse
  cases c with
  | nil => cases hc.state
  | cons x c =>
    rw [hc.previousOk.ownerName]
    have henvelope : x.1 = s.envelopeBytes := by
      have hs := hc.state
      simp only [chainState, Option.some.injEq] at hs
      rw [← hs]
      rfl
    exact ⟨x, c, hc, henvelope, (predecessorEnvelopes_eq hc).symm, by simpa using hlen⟩

/-! ### Encoding -/

theorem mapM_authorizationValue {auth : Option Authorization} (hwf : ∀ a ∈ auth, a.WellFormed)
    (hthr : ∀ a ∈ auth, 1 ≤ a.threshold ∧ a.threshold ≤ a.signers.length) :
    (auth.map authorizationValue).mapM validateAuthorization = .ok auth := by
  cases auth with
  | none => rfl
  | some a =>
    rw [Option.map_some, Option.mapM_some,
      validateAuthorization_ok.2 (authorizationIs_authorizationValue (hwf a rfl) (hthr a rfl))]
    rfl

/-- What `build_identity_update` writes is read back. -/
theorem decode_of_build (hP : CborRoundTrip P) {name key update : Bytes} {seq : ℕ} {auth : Option Authorization}
    (hwf : ∀ a ∈ auth, a.WellFormed) (hthr : ∀ a ∈ auth, 1 ≤ a.threshold ∧ a.threshold ≤ a.signers.length)
    (h : buildIdentityUpdate P name key seq (auth.map authorizationValue) = .ok update) :
    validateOwnerName name = .ok name ∧ key.length = keyLength ∧
      decodeSignedUpdate P update = .ok ⟨dictFrom 1 [.bytes name, .bytes key], [], seq, auth⟩ := by
  simp only [buildIdentityUpdate, mapM_authorizationValue hwf hthr, bind_eq_ok, reject_eq_ok, not_not] at h
  obtain ⟨n, hn, _, hkey, _, hauth, hdumps⟩ := h
  obtain rfl := validateOwnerName_eq hn
  cases hauth
  rw [canonicalBytes, orRaise_eq_ok] at hdumps
  have hread := hP.reads_tidy (tidy_updateValue name key seq auth) hdumps
  exact ⟨hn, hkey, decode_of_updateValue hwf hthr hread⟩

theorem updateOf_build (hP : CborRoundTrip P) {name key update : Bytes} {seq : ℕ} {a : Authorization}
    (ha : a.WellFormed) (hthr : 1 ≤ a.threshold ∧ a.threshold ≤ a.signers.length)
    (h : buildIdentityUpdate P name key seq (some (authorizationValue a)) = .ok update) :
    UpdateOf P update name key seq a := by
  have hwf : ∀ b ∈ some a, b.WellFormed := by simpa using ha
  obtain ⟨hname, hkey, hdecode⟩ := decode_of_build hP hwf (by simpa using hthr) h
  refine ⟨⟨_, hdecode, ?_, ?_, rfl, rfl⟩, hname, hkey⟩
  · simp [pyGet, dictFrom, pyEqInt]
  · simp [pyGet, dictFrom, pyEqInt]

/-! ### Checked requests -/

/-- A request that `submit_identity` has checked against the state it read. -/
structure PendingSubmission.Submitted (p : PendingSubmission P) : Prop where
  name : validateOwnerName p.request.ownerName = .ok p.request.ownerName
  ownerKey : p.request.ownerPublicKey.length = keyLength
  signerKey : p.request.signerPublicKey.length = keyLength
  current : ∀ s ∈ p.current, ReadBack P s ∧ s.ownerName = p.request.ownerName
  update : submittedUpdate P p.request p.current = .ok (p.auth, p.update)

variable {σ : Type} {A : Adapter σ}

theorem submitted_of_begin {q : SubmitRequest P} {p : PendingSubmission P} {w w' : World σ}
    (h : submitIdentityBegin A q w = (.ok (.inr p), w')) : p.request = q ∧ p.Submitted := by
  unfold submitIdentityBegin at h
  obtain ⟨n, w1, hlift, h⟩ := Prog.bind_ok_iff.1 h
  obtain ⟨hn, -⟩ := Prog.lift_ok_iff.1 hlift
  obtain rfl := validateOwnerName_eq hn
  obtain ⟨l, w2, -, h⟩ := Prog.bind_ok_iff.1 h
  obtain ⟨_, w3, -, h⟩ := Prog.bind_ok_iff.1 h
  obtain ⟨_, w4, hlen, h⟩ := Prog.bind_ok_iff.1 h
  simp only [Prog.reject_ok_iff, not_or, not_not] at hlen
  obtain ⟨current, w5, hcurrent, h⟩ := Prog.bind_ok_iff.1 h
  obtain ⟨⟨auth, update⟩, w6, hlift, h⟩ := Prog.bind_ok_iff.1 h
  obtain ⟨hupdate, -⟩ := Prog.lift_ok_iff.1 hlift
  obtain ⟨transcript, w7, -, h⟩ := Prog.bind_ok_iff.1 h
  obtain ⟨g, w8, -, h⟩ := Prog.bind_ok_iff.1 h
  cases g with
  | some x => simp at h
  | none =>
    simp only [Prog.pure_ok_iff, Sum.inr.injEq] at h
    obtain ⟨rfl, -⟩ := h
    refine ⟨rfl, hn, hlen.1.1, hlen.1.2, fun s hs => ?_, hupdate⟩
    obtain rfl : current = some s := hs
    obtain ⟨e, w', -, hparse⟩ := readState_some A hcurrent
    obtain ⟨c, hc, -⟩ := parseStateWithHistory_sound A hparse
    exact ⟨⟨σ, A, q.ownerName, _, by rw [hcurrent]⟩, hc.previousOk.ownerName⟩

theorem submitted_of_signDraft {d : IdentityDraft P} {k : Bytes} {i : Option Str} {r : ConsentRequest}
    {p : PendingSubmission P} {w w' : World σ} (h : signDraftBegin A d k i r w = (.ok (.inr p), w')) : p.Submitted := by
  unfold signDraftBegin at h
  obtain ⟨l, w1, -, h⟩ := Prog.bind_ok_iff.1 h
  obtain ⟨_, w2, -, h⟩ := Prog.bind_ok_iff.1 h
  exact (submitted_of_begin h).2

namespace PendingSubmission.Submitted

variable {p : PendingSubmission P}

/-- The checks that a request passes, by whether it has an authorization. -/
def Checked (q : SubmitRequest P) (current : Option IdentityState) : Option Authorization → Prop
  | some a => checkAuthorized q current a = .ok ()
  | none => checkLegacy q current = .ok ()

/-- What was checked of a request, and what was built of it. -/
theorem built (h : p.Submitted) : (∀ a ∈ p.auth, a.WellFormed ∧ 1 ≤ a.threshold ∧ a.threshold ≤ a.signers.length) ∧
    Checked p.request p.current p.auth ∧
    buildIdentityUpdate P p.request.ownerName p.request.ownerPublicKey (nextSequence p.current)
      (p.auth.map authorizationValue) = .ok p.update := by
  have hu := h.update
  simp only [submittedUpdate, bind_eq_ok] at hu
  obtain ⟨_, -, auth, hauth, hrest⟩ := hu
  cases auth with
  | none =>
    simp only [bind_eq_ok] at hrest
    obtain ⟨_, hcheck, u, hbuild, _, -, hpair⟩ := hrest
    obtain ⟨hnone, rfl⟩ := Prod.mk.inj (Except.ok.inj hpair)
    rw [← hnone]
    exact ⟨by simp, hcheck, hbuild⟩
  | some a =>
    simp only [bind_eq_ok] at hrest
    obtain ⟨_, hcheck, u, hbuild, _, -, hpair⟩ := hrest
    obtain ⟨hsome, rfl⟩ := Prod.mk.inj (Except.ok.inj hpair)
    rw [← hsome]
    refine ⟨fun b hb => ?_, hcheck, hbuild⟩
    cases hb
    cases hr : p.request.authorization with
    | none => rw [hr] at hauth; cases hauth
    | some v =>
      rw [hr, Option.mapM_some] at hauth
      cases hv : validateAuthorization v with
      | error e => rw [hv] at hauth; cases hauth
      | ok c =>
        rw [hv] at hauth
        cases Except.ok.inj hauth
        exact (validateAuthorization_ok.1 hv).2

/-- What was checked of a request with an authorization. -/
theorem authorized (h : p.Submitted) {a : Authorization} (ha : p.auth = some a) : a.WellFormed ∧
    (1 ≤ a.threshold ∧ a.threshold ≤ a.signers.length) ∧ checkAuthorized p.request p.current a = .ok () ∧
    buildIdentityUpdate P p.request.ownerName p.request.ownerPublicKey (nextSequence p.current)
      (some (authorizationValue a)) = .ok p.update := by
  obtain ⟨hwf, hcheck, hbuild⟩ := h.built
  rw [ha] at hwf hcheck hbuild
  exact ⟨(hwf a rfl).1, (hwf a rfl).2, hcheck, hbuild⟩

theorem headOk (h : p.Submitted) : ∀ s ∈ p.current, s.head.Ok := by
  intro s hs
  obtain ⟨x, c, hc, -⟩ := (h.current s hs).1.history
  exact hc.headOk

/-- Every authorization that passes needs two signers. -/
theorem threshold (h : p.Submitted) {a : Authorization} (ha : p.auth = some a) : a.threshold = 2 :=
  threshold_of_checkAuthorized (h.authorized ha).2.2.1 fun s hs hv1 => ((h.headOk s hs).twoOfThree hv1).1

end PendingSubmission.Submitted

/-! ### How a submission ends -/

/-- Nothing was made of the request. -/
def PublishStatus.Refused (s : PublishStatus) : Prop := s ∈ [.failed, .stale, .denied, .cancelled, .expired]

theorem consentGateEnd_refused {r : ConsentRequest} {d : ConsentDecision} {w w' : World σ} {x : PublishStatus × String}
    (h : consentGateEnd A r d w = (.ok (some x), w')) : x.1.Refused := by
  unfold consentGateEnd at h
  split_ifs at h with hd
  · simp only [Prog.pure_ok_iff, Option.some.injEq] at h
    rw [← h.1]
    cases d <;> simp [ConsentDecision.status, PublishStatus.Refused] at hd ⊢
  · obtain ⟨t, w2, -, h⟩ := Prog.bind_ok_iff.1 h
    split_ifs at h
    · simp only [Prog.pure_ok_iff, Option.some.injEq] at h
      rw [← h.1]
      simp [PublishStatus.Refused]
    · simp at h

theorem submitIdentityBegin_inl {q : SubmitRequest P} {r : SubmissionResult P} {w w' : World σ}
    (h : submitIdentityBegin A q w = (.ok (.inl r), w')) : r.status.Refused := by
  unfold submitIdentityBegin at h
  obtain ⟨n, w1, -, h⟩ := Prog.bind_ok_iff.1 h
  obtain ⟨l, w2, -, h⟩ := Prog.bind_ok_iff.1 h
  obtain ⟨_, w3, -, h⟩ := Prog.bind_ok_iff.1 h
  obtain ⟨_, w4, -, h⟩ := Prog.bind_ok_iff.1 h
  obtain ⟨current, w5, -, h⟩ := Prog.bind_ok_iff.1 h
  obtain ⟨x, w6, -, h⟩ := Prog.bind_ok_iff.1 h
  obtain ⟨transcript, w7, -, h⟩ := Prog.bind_ok_iff.1 h
  obtain ⟨g, w8, hg, h⟩ := Prog.bind_ok_iff.1 h
  cases g with
  | none => simp at h
  | some x =>
    simp only [Prog.pure_ok_iff, Sum.inl.injEq] at h
    rw [← h.1]
    rcases consentGateBegin_status hg with hx | hx <;> simp [PublishStatus.Refused, hx]

theorem checkSubmission_some {p : PendingSubmission P} {signed : Option Bytes} {reason : String}
    {r : SubmissionResult P}
    {w w' : World σ} (h : checkSubmission A p signed reason w = (.ok (some r), w')) : r.status.Refused := by
  unfold checkSubmission at h
  obtain ⟨latest, w1, -, h⟩ := Prog.bind_ok_iff.1 h
  split_ifs at h
  · simp only [Prog.pure_ok_iff, Option.some.injEq] at h
    rw [← h.1]
    simp [PublishStatus.Refused]
  · obtain ⟨t, w2, -, h⟩ := Prog.bind_ok_iff.1 h
    split_ifs at h
    · simp only [Prog.pure_ok_iff, Option.some.injEq] at h
      rw [← h.1]
      simp [PublishStatus.Refused]
    · simp at h

theorem submitIdentitySign_some {p : PendingSubmission P} {d : ConsentDecision} {r : SubmissionResult P}
    {w w' : World σ} (h : submitIdentitySign A p d w = (.ok (some r), w')) : r.status.Refused := by
  unfold submitIdentitySign at h
  obtain ⟨g, w1, hg, h⟩ := Prog.bind_ok_iff.1 h
  cases g with
  | some x =>
    simp only [Prog.pure_ok_iff, Option.some.injEq] at h
    rw [← h.1]
    exact consentGateEnd_refused hg
  | none =>
    obtain ⟨l, w2, -, h⟩ := Prog.bind_ok_iff.1 h
    split_ifs at h
    · simp only [Prog.pure_ok_iff, Option.some.injEq] at h
      rw [← h.1]
      simp [PublishStatus.Refused]
    · exact checkSubmission_some h

theorem collectSignature_inl {p : PendingSubmission P} {signer : Option SignerAnswers} {r : SubmissionResult P}
    {w w' : World σ} (h : collectSignature A p signer w = (.ok (.inl r), w')) : r.status.Refused := by
  unfold collectSignature at h
  cases signer with
  | none =>
    simp only [Prog.pure_ok_iff, Sum.inl.injEq] at h
    rw [← h.1]
    simp [PublishStatus.Refused]
  | some s =>
    simp only at h
    split_ifs at h
    · simp only [Prog.pure_ok_iff, Sum.inl.injEq] at h
      rw [← h.1]
      simp [PublishStatus.Refused]
    obtain ⟨t, w1, -, h⟩ := Prog.bind_ok_iff.1 h
    split_ifs at h
    · simp only [Prog.pure_ok_iff, Sum.inl.injEq] at h
      rw [← h.1]
      simp [PublishStatus.Refused]
    cases hs : s.signature with
    | none =>
      simp only [hs, Prog.pure_ok_iff, Sum.inl.injEq] at h
      rw [← h.1]
      simp [PublishStatus.Refused]
    | some signature =>
      simp only [hs] at h
      split_ifs at h
      · simp at h
      · simp only [Prog.pure_ok_iff, Sum.inl.injEq] at h
        rw [← h.1]
        simp [PublishStatus.Refused]

/-- A signature for an update with an authorization, or for a draft, is handed out as a proof. -/
theorem useSignature_status {p : PendingSubmission P} (hp : p.Submitted) (hv1 : p.auth ≠ none ∨ p.request.draft ≠ none)
    {signature : Bytes} {r : SubmissionResult P} {w w' : World σ} (h : useSignature A p signature w = (.ok r, w')) :
    r.status = .proofReady := by
  unfold useSignature at h
  cases hdraft : p.request.draft with
  | some d =>
    simp only [hdraft, Prog.lift_ok_iff, draftProof, bind_eq_ok, pure_eq_ok] at h
    obtain ⟨⟨i, -, b, -, rfl⟩, -⟩ := h
    rfl
  | none =>
    obtain ⟨a, ha⟩ := Option.ne_none_iff_exists'.1 (hv1.resolve_right (not_not.2 hdraft))
    have hthr : 1 < a.threshold := by rw [hp.threshold ha]; decide
    simp only [hdraft, ha, Option.any_some, hthr, decide_true, if_true, Prog.lift_ok_iff, thresholdProof, bind_eq_ok,
      pure_eq_ok] at h
    obtain ⟨⟨_, -, b, -, d, -, i, -, rfl⟩, -⟩ := h
    rfl

theorem submitIdentityEnd_status {p : PendingSubmission P} (hp : p.Submitted)
    (hv1 : p.auth ≠ none ∨ p.request.draft ≠ none) {signer : Option SignerAnswers}
    {r : SubmissionResult P} {w w' : World σ}
    (h : submitIdentityEnd A p signer w = (.ok r, w')) : r.status.Refused ∨ r.status = .proofReady := by
  unfold submitIdentityEnd at h
  obtain ⟨x, w1, hx, h⟩ := Prog.bind_ok_iff.1 h
  cases x with
  | inl result =>
    obtain ⟨rfl, -⟩ := Prog.pure_ok_iff.1 h
    exact .inl (collectSignature_inl hx)
  | inr signature =>
    obtain ⟨y, w2, hy, h⟩ := Prog.bind_ok_iff.1 h
    cases y with
    | some result =>
      obtain ⟨rfl, -⟩ := Prog.pure_ok_iff.1 h
      exact .inl (checkSubmission_some hy)
    | none => exact .inr (useSignature_status hp hv1 h)

end DecentWallet
