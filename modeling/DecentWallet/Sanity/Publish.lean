import DecentWallet.Sanity.Bundle
import DecentWallet.Spec.Publish

/-! What a call of the adapter that ended well has done: the write and the reads behind a confirmed
publication, and the checks behind a prepared, dispatched or confirmed rotation. -/

namespace DecentWallet

open Cbor IdentityError Opened

section

variable {P : Platform} {σ : Type} {A : Adapter σ}

/-! ### Consent -/

theorem consentGateBegin_status {n : Bytes} {r : ConsentRequest} {w w' : World σ} {x : PublishStatus × String}
    (h : consentGateBegin P A n r w = (.ok (some x), w')) : x.1 = .failed ∨ x.1 = .expired := by
  unfold consentGateBegin at h
  obtain ⟨a, w1, -, h⟩ := Prog.bind_ok_iff.1 h
  rcases a with _ | _ | _
  · simp only [Prog.pure_ok_iff, Option.some.injEq] at h
    exact Or.inl (by rw [← h.1])
  · simp only [Prog.pure_ok_iff, Option.some.injEq] at h
    exact Or.inl (by rw [← h.1])
  · obtain ⟨t, w2, -, h⟩ := Prog.bind_ok_iff.1 h
    split_ifs at h
    · simp only [Prog.pure_ok_iff, Option.some.injEq] at h
      exact Or.inr (by rw [← h.1])
    · simp at h

theorem consentGateEnd_status {r : ConsentRequest} {d : ConsentDecision} {w w' : World σ}
    {x : PublishStatus × String} (h : consentGateEnd A r d w = (.ok (some x), w')) :
    x.1 ≠ .confirmed ∧ x.1 ≠ .ready := by
  unfold consentGateEnd at h
  split_ifs at h with hd
  · simp only [Prog.pure_ok_iff, Option.some.injEq] at h
    rw [← h.1]
    cases d <;> simp [ConsentDecision.status] at hd ⊢
  · obtain ⟨t, w2, -, h⟩ := Prog.bind_ok_iff.1 h
    split_ifs at h
    · simp only [Prog.pure_ok_iff, Option.some.injEq] at h
      rw [← h.1]
      exact ⟨by simp, by simp⟩
    · simp at h

/-! ### A confirmed publication -/

theorem confirm_some {n e : Bytes} {previous : Option IdentityState} {s : IdentityState} {w w' : World σ}
    (h : confirm (P := P) A n e previous w = (.ok (some s), w')) :
    ∃ candidate, (A.transport.getIdentityEnvelope n w.state).1 = some (.bytes candidate) ∧
      parseIdentityEnvelope P n candidate previous = .ok s ∧ s.envelopeBytes = e ∧
      w'.state = (A.transport.getIdentityEnvelope n w.state).2 := by
  unfold confirm at h
  obtain ⟨m, w1, hm, hrest⟩ := Prog.bind_ok_iff.1 h
  obtain ⟨hval, rfl⟩ := Prog.lift_ok_iff.1 hm
  obtain rfl := validateOwnerName_eq hval
  obtain ⟨f, w2, hf, hans⟩ := Prog.bind_ok_iff.1 hrest
  simp only [getIdentityEnvelope, Prod.mk.injEq, Except.ok.injEq] at hf
  obtain ⟨hf, rfl⟩ := hf
  rcases f with _ | _ | candidate | _
  · simp at hans
  · simp at hans
  · cases hparse : parseIdentityEnvelope P n candidate previous with
    | error err => simp [hparse] at hans
    | ok t =>
      simp only [hparse, Prog.pure_ok_iff] at hans
      obtain ⟨hs, rfl⟩ := hans
      split_ifs at hs with he
      obtain rfl := Option.some.inj hs
      exact ⟨candidate, hf, hparse, he, rfl⟩
  · simp at hans

theorem publishBundleBegin_inl {b : IdentityBundle P} {q : ConsentRequest} {r : PublicationResult P}
    {w w' : World σ} (h : publishBundleBegin A b q w = (.ok (.inl r), w')) : r.status ≠ .confirmed := by
  unfold publishBundleBegin at h
  obtain ⟨_, w1, -, h⟩ := Prog.bind_ok_iff.1 h
  obtain ⟨_, w2, -, h⟩ := Prog.bind_ok_iff.1 h
  obtain ⟨e, w3, -, h⟩ := Prog.bind_ok_iff.1 h
  obtain ⟨l, w4, -, h⟩ := Prog.bind_ok_iff.1 h
  split_ifs at h
  · simp only [Prog.pure_ok_iff, Sum.inl.injEq] at h
    rw [← h.1]
    simp
  obtain ⟨current, w5, -, h⟩ := Prog.bind_ok_iff.1 h
  split_ifs at h
  · simp only [Prog.pure_ok_iff, Sum.inl.injEq] at h
    rw [← h.1]
    simp
  obtain ⟨t, w6, -, h⟩ := Prog.bind_ok_iff.1 h
  obtain ⟨g, w7, hg, h⟩ := Prog.bind_ok_iff.1 h
  cases g with
  | some x =>
    simp only [Prog.pure_ok_iff, Sum.inl.injEq] at h
    rw [← h.1]
    rcases consentGateBegin_status hg with hx | hx <;> simp [hx]
  | none => simp at h

theorem publishBundleBegin_inr {b : IdentityBundle P} {q : ConsentRequest} {p : PendingPublication P}
    {w w' : World σ} (h : publishBundleBegin A b q w = (.ok (.inr p), w')) :
    p.bundle = b ∧ b.finalize = .ok p.envelope ∧ b.draft.isRotation = false := by
  unfold publishBundleBegin at h
  obtain ⟨_, w1, -, h⟩ := Prog.bind_ok_iff.1 h
  obtain ⟨_, w2, hrot, h⟩ := Prog.bind_ok_iff.1 h
  simp only [Prog.reject_ok_iff] at hrot
  obtain ⟨e, w3, he, h⟩ := Prog.bind_ok_iff.1 h
  obtain ⟨he, -⟩ := Prog.lift_ok_iff.1 he
  obtain ⟨l, w4, -, h⟩ := Prog.bind_ok_iff.1 h
  split_ifs at h
  · simp at h
  obtain ⟨current, w5, -, h⟩ := Prog.bind_ok_iff.1 h
  split_ifs at h
  · simp at h
  obtain ⟨t, w6, -, h⟩ := Prog.bind_ok_iff.1 h
  obtain ⟨g, w7, -, h⟩ := Prog.bind_ok_iff.1 h
  cases g with
  | some x => simp at h
  | none =>
    simp only [Prog.pure_ok_iff, Sum.inr.injEq] at h
    rw [← h.1]
    exact ⟨rfl, he, by simpa using hrot.1⟩

/-! ### A prepared rotation -/

theorem rotationEnvironmentMatches_true {env : Option Str} {w w' : World σ}
    (h : rotationEnvironmentMatches A env w = (.ok true, w')) : env.isSome ∧ env = A.registryEnvironment := by
  unfold rotationEnvironmentMatches at h
  split_ifs at h with henv
  · exact henv
  · simp at h

theorem checkRotationRequest_none {b : IdentityBundle P} {q : ConsentRequest} {w w' : World σ}
    (h : checkRotationRequest A b q w = (.ok none, w')) : b.draft.isRotation = true ∧
      validRegistryEnvironment q.environment ∧ A.registryEnvironment = some q.environment := by
  unfold checkRotationRequest at h
  obtain ⟨l, w1, -, h⟩ := Prog.bind_ok_iff.1 h
  split at h
  · simp at h
  obtain ⟨_, w2, hrot, h⟩ := Prog.bind_ok_iff.1 h
  obtain ⟨v, w3, -, h⟩ := Prog.bind_ok_iff.1 h
  split_ifs at h with _ hv
  · simp at h
  · obtain ⟨m, w4, hm, h⟩ := Prog.bind_ok_iff.1 h
    cases m with
    | false => simp at h
    | true =>
      simp only [Prog.reject_ok_iff] at hrot
      exact ⟨by simpa using hrot.1, hv, (rotationEnvironmentMatches_true hm).2.symm⟩
  · simp at h

theorem preparePublicationBegin_inr {b : IdentityBundle P} {q : ConsentRequest} {p : PendingPublication P}
    {w w' : World σ} (h : preparePublicationBegin A b q w = (.ok (.inr p), w')) :
    p.bundle = b ∧ p.request = q ∧ b.finalize = .ok p.envelope ∧ b.draft.isRotation = true ∧
      validRegistryEnvironment q.environment ∧ A.registryEnvironment = some q.environment := by
  unfold preparePublicationBegin at h
  obtain ⟨x, w1, hx, h⟩ := Prog.bind_ok_iff.1 h
  cases x with
  | some r => simp at h
  | none =>
    obtain ⟨e, w2, he, h⟩ := Prog.bind_ok_iff.1 h
    obtain ⟨he, -⟩ := Prog.lift_ok_iff.1 he
    obtain ⟨_, w3, -, h⟩ := Prog.bind_ok_iff.1 h
    obtain ⟨y, w4, -, h⟩ := Prog.bind_ok_iff.1 h
    cases y with
    | some r => simp at h
    | none =>
      obtain ⟨t, w5, -, h⟩ := Prog.bind_ok_iff.1 h
      obtain ⟨g, w6, -, h⟩ := Prog.bind_ok_iff.1 h
      cases g with
      | some r => simp at h
      | none =>
        simp only [Prog.pure_ok_iff, Sum.inr.injEq] at h
        rw [← h.1]
        exact ⟨rfl, rfl, he, checkRotationRequest_none hx⟩

/-- The results that come before a publication is minted hold none. -/
theorem checkPredecessor_publication {b : IdentityBundle P} {env : Str} {e : Bytes} {r : PublicationResult P}
    {w w' : World σ} (h : checkPredecessor A b env e w = (.ok (some r), w')) : r.publication = none := by
  unfold checkPredecessor at h
  obtain ⟨c, w1, -, h⟩ := Prog.bind_ok_iff.1 h
  obtain ⟨m, w2, -, h⟩ := Prog.bind_ok_iff.1 h
  split_ifs at h
  · simp only [Prog.pure_ok_iff, Option.some.injEq] at h
    rw [← h.1]; rfl
  · simp only [Prog.pure_ok_iff, Option.some.injEq] at h
    rw [← h.1]
  · simp at h

theorem preparePublicationCheck_publication {p : PendingPublication P} {r : PublicationResult P} {w w' : World σ}
    (h : preparePublicationCheck A p w = (.ok (some r), w')) : r.publication = none := by
  unfold preparePublicationCheck at h
  obtain ⟨m, w1, -, h⟩ := Prog.bind_ok_iff.1 h
  split_ifs at h
  · simp only [Prog.pure_ok_iff, Option.some.injEq] at h
    rw [← h.1]; rfl
  obtain ⟨x, w2, hx, h⟩ := Prog.bind_ok_iff.1 h
  cases x with
  | some r' =>
    simp only [Prog.pure_ok_iff, Option.some.injEq] at h
    rw [← h.1]
    exact checkPredecessor_publication hx
  | none =>
    obtain ⟨t, w3, -, h⟩ := Prog.bind_ok_iff.1 h
    split_ifs at h
    · simp only [Prog.pure_ok_iff, Option.some.injEq] at h
      rw [← h.1]
    · simp at h

theorem preparePublicationEnd_publication {p : PendingPublication P} {d : ConsentDecision} {r : PublicationResult P}
    {pub : RotationPublication P} {w w' : World σ} (h : preparePublicationEnd A p d w = (.ok r, w'))
    (hpub : r.publication = some pub) :
    ∃ w1 : World σ, pub = ⟨w1.fresh, p.request.environment, p.bundle, p.envelope, pub.previousState,
      p.request.expiresAt, A.id⟩ ∧ p.bundle.draft.previousState = some pub.previousState := by
  unfold preparePublicationEnd at h
  obtain ⟨g, w1, -, h⟩ := Prog.bind_ok_iff.1 h
  cases g with
  | some x =>
    simp only [Prog.pure_ok_iff] at h
    rw [← h.1] at hpub
    cases hpub
  | none =>
    obtain ⟨x, w2, hx, h⟩ := Prog.bind_ok_iff.1 h
    cases x with
    | some r' =>
      simp only [Prog.pure_ok_iff] at h
      rw [← h.1, preparePublicationCheck_publication hx] at hpub
      cases hpub
    | none =>
      cases hprev : p.bundle.draft.previousState with
      | none => simp [hprev] at h
      | some s =>
        simp only [hprev, mintPublication, newObject, Prog.bind_run, Prog.pure_run, Prod.mk.injEq,
          Except.ok.injEq] at h
        rw [← h.1] at hpub
        simp only [Option.some.injEq] at hpub
        subst hpub
        exact ⟨w2, rfl, rfl⟩

theorem checkRotationRequest_publication {b : IdentityBundle P} {q : ConsentRequest} {r : PublicationResult P}
    {w w' : World σ} (h : checkRotationRequest A b q w = (.ok (some r), w')) : r.publication = none := by
  unfold checkRotationRequest at h
  obtain ⟨l, w1, -, h⟩ := Prog.bind_ok_iff.1 h
  split at h
  · simp only [Prog.pure_ok_iff, Option.some.injEq] at h
    rw [← h.1]
  obtain ⟨_, w2, -, h⟩ := Prog.bind_ok_iff.1 h
  obtain ⟨v, w3, -, h⟩ := Prog.bind_ok_iff.1 h
  split_ifs at h
  · simp only [Prog.pure_ok_iff, Option.some.injEq] at h
    rw [← h.1]
  · obtain ⟨m, w4, -, h⟩ := Prog.bind_ok_iff.1 h
    split_ifs at h
    · simp only [Prog.pure_ok_iff, Option.some.injEq] at h
      rw [← h.1]; rfl
    · simp at h
  · simp only [Prog.pure_ok_iff, Option.some.injEq] at h
    rw [← h.1]; rfl

theorem preparePublicationBegin_inl {b : IdentityBundle P} {q : ConsentRequest} {r : PublicationResult P}
    {w w' : World σ} (h : preparePublicationBegin A b q w = (.ok (.inl r), w')) : r.publication = none := by
  unfold preparePublicationBegin at h
  obtain ⟨x, w1, hx, h⟩ := Prog.bind_ok_iff.1 h
  cases x with
  | some r' =>
    simp only [Prog.pure_ok_iff, Sum.inl.injEq] at h
    rw [← h.1]
    exact checkRotationRequest_publication hx
  | none =>
    obtain ⟨e, w2, -, h⟩ := Prog.bind_ok_iff.1 h
    obtain ⟨_, w3, -, h⟩ := Prog.bind_ok_iff.1 h
    obtain ⟨y, w4, hy, h⟩ := Prog.bind_ok_iff.1 h
    cases y with
    | some r' =>
      simp only [Prog.pure_ok_iff, Sum.inl.injEq] at h
      rw [← h.1]
      exact checkPredecessor_publication hy
    | none =>
      obtain ⟨t, w5, -, h⟩ := Prog.bind_ok_iff.1 h
      obtain ⟨g, w6, -, h⟩ := Prog.bind_ok_iff.1 h
      cases g with
      | some x =>
        simp only [Prog.pure_ok_iff, Sum.inl.injEq] at h
        rw [← h.1]
      | none => simp at h

end

end DecentWallet
