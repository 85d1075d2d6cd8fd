import DecentWallet.Sanity.Puts
import DecentWallet.Sanity.Submit
import DecentWallet.Sanity.WalletLog
import DecentWallet.Spec.System

/-! One call of the system: what it puts, and where the sealed objects it takes come from. -/

namespace DecentWallet

open Prog (Keeps)

variable {σ : Type} {P : Platform} {C : Crypto} {M : Machine σ} {R : ℕ → Adapter σ}

/-! ### Puts -/

/-- What the calls that write need for their puts to be ones of `Q`. -/
structure AdapterCall.PutsOnly (Q : Event → Prop) (A : Adapter σ) (call : AdapterCall P) : Prop where
  publish : ∀ p d, call = .publishEnd p d → ∀ t outcome, Q (.put A.id p.bundle.draft.ownerName p.envelope
    (p.bundle.draft.previousState.map IdentityState.stateHash) t outcome)
  dispatch : ∀ pub permit, call = .dispatch pub permit → ∀ t outcome, Q (.put A.id pub.bundle.draft.ownerName
    pub.envelopeBytes (some pub.previousState.stateHash) t outcome)
  submit : ∀ p signer, call = .submitEnd p signer → p.request.draft = none →
    p.auth.any (fun a => 1 < a.threshold) = false → ∀ signature e, submissionEnvelope p signature = .ok e →
      ∀ t outcome, Q (.put A.id p.request.ownerName e (p.current.map IdentityState.stateHash) t outcome)

theorem adapterCall_adds {Q : Event → Prop} {A : Adapter σ} {call : AdapterCall P} (hq : call.PutsOnly Q A) :
    Keeps (Adds Q) (call.run A) := by
  cases call with
  | readState n => exact (adds_of_quiet (readState_quiet A n)).map _
  | publishBegin b r => exact (adds_of_quiet (publishBundleBegin_quiet A b r)).map _
  | publishEnd p d => exact (publishBundleEnd_adds A d (hq.publish p d rfl)).map _
  | prepareBegin b r => exact (preparePublicationBegin_adds A b r).map _
  | prepareEnd p d => exact (preparePublicationEnd_adds A p d).map _
  | dispatch pub permit => exact (dispatchOwnerKeyRotation_adds A permit (hq.dispatch pub permit rfl)).map _
  | confirm intent => exact (confirmOwnerKeyRotation_adds A intent).map _
  | submitBegin q => exact (adds_of_quiet (submitIdentityBegin_quiet A q)).map _
  | signDraftBegin d k i r => exact (adds_of_quiet (signDraftBegin_quiet A d k i r)).map _
  | submitSign p d => exact (adds_of_quiet (submitIdentitySign_quiet A p d)).map _
  | submitEnd p signer => exact (submitIdentityEnd_adds A signer (hq.submit p signer rfl)).map _

/-- Only adapters put, and only what they may. -/
theorem action_adds {Q : Event → Prop} {act : Action P}
    (hq : ∀ a call, act = .adapter a call → call.PutsOnly Q (R a)) (h : Host σ) :
    Adds Q h.world (act.run C M R h).2.world := by
  have hsame : Keeps SameLog (act.run C M R) → Adds Q h.world (act.run C M R h).2.world := fun hs => .of_log (hs h)
  cases act with
  | create path password confirmation payload minutes => exact hsame ((create_log _ _ _ _).map _)
  | generate path password confirmation minutes => exact hsame ((createWithGeneratedKey_log _ _ _).map _)
  | openAt path password minutes => exact hsame ((openWallet_log _ _).map _)
  | importAt path data password minutes => exact hsame ((importContainer_log _ _ _).map _)
  | migrate path password minutes => exact hsame ((migrateContainer_log _ _).map _)
  | operation i op => exact hsame ((walletOp_log op).map _)
  | sign id update => exact hsame ((signIdentityUpdate_log id update).map _)
  | invalidate id => exact hsame ((invalidateSigner_log id).map _)
  | adapter a call =>
    rw [Action.run, Prog.map_run_snd]
    exact adapterCall_adds (hq a call rfl) h.world

/-! ### Replies -/

/-- What an adapter returned came from a call of it. -/
theorem adapter_reply {act : Action P} {reply : AdapterReply P} {h h' : Host σ}
    (hr : act.run C M R h = (.ok (.adapter reply), h')) :
    ∃ a call, act = .adapter a call ∧ call.run (R a) h.world = (.ok reply, h'.world) := by
  cases act with
  | adapter a call =>
    obtain ⟨reply', hnet, heq⟩ := Prog.map_ok_iff.1 hr
    cases heq
    refine ⟨a, call, rfl, ?_⟩
    simp only [net, Prod.mk.injEq] at hnet
    obtain ⟨hok, rfl⟩ := hnet
    cases hcall : (call.run (R a) h.world).1 with
    | error e => rw [hcall] at hok; cases hok
    | ok x =>
      rw [hcall] at hok
      cases hok
      exact Prog.run_eq hcall
  | _ =>
    obtain ⟨_, -, heq⟩ := Prog.map_ok_iff.1 hr
    cases heq

theorem adapter_run {a : ℕ} {call : AdapterCall P} {reply : AdapterReply P} {h : Host σ} {w : World σ}
    (hcall : call.run (R a) h.world = (.ok reply, w)) :
    (Action.adapter a call).run C M R h = (.ok (.adapter reply), { h with world := w }) := by
  have hnet : net (call.run (R a)) h = (.ok reply, { h with world := w }) := by rw [net, hcall]; rfl
  exact Prog.map_ok_iff.2 ⟨reply, hnet, rfl⟩

section

variable {A : Adapter σ} {w w' : World σ}

/-- The runs that end in a reply. -/
inductive Replies (A : Adapter σ) (w w' : World σ) : AdapterCall P → AdapterReply P → Prop where
  | state {n s} : readState P A n w = (.ok s, w') → Replies A w w' (.readState n) (.state s)
  | published {b q r} : publishBundleBegin A b q w = (.ok (.inl r), w') →
      Replies A w w' (.publishBegin b q) (.publication r)
  | publishAsks {b q p} : publishBundleBegin A b q w = (.ok (.inr p), w') →
      Replies A w w' (.publishBegin b q) (.pending p)
  | publishEnd {p d r} : publishBundleEnd A p d w = (.ok r, w') → Replies A w w' (.publishEnd p d) (.publication r)
  | prepared {b q r} : preparePublicationBegin A b q w = (.ok (.inl r), w') →
      Replies A w w' (.prepareBegin b q) (.publication r)
  | prepareAsks {b q p} : preparePublicationBegin A b q w = (.ok (.inr p), w') →
      Replies A w w' (.prepareBegin b q) (.pending p)
  | prepareEnd {p d r} : preparePublicationEnd A p d w = (.ok r, w') →
      Replies A w w' (.prepareEnd p d) (.publication r)
  | dispatched {p permit r} : dispatchOwnerKeyRotation A p permit w = (.ok r, w') →
      Replies A w w' (.dispatch p permit) (.dispatch r)
  | confirmed {intent c} : confirmOwnerKeyRotation (P := P) A intent w = (.ok c, w') →
      Replies A w w' (.confirm intent) (.confirmation c)
  | submitted {q r} : submitIdentityBegin A q w = (.ok (.inl r), w') →
      Replies A w w' (.submitBegin q) (.submission r)
  | submitAsks {q p} : submitIdentityBegin A q w = (.ok (.inr p), w') → Replies A w w' (.submitBegin q) (.asking p)
  | draftSubmitted {d k i q r} : signDraftBegin A d k i q w = (.ok (.inl r), w') →
      Replies A w w' (.signDraftBegin d k i q) (.submission r)
  | draftAsks {d k i q p} : signDraftBegin A d k i q w = (.ok (.inr p), w') →
      Replies A w w' (.signDraftBegin d k i q) (.asking p)
  | signSubmitted {p d r} : submitIdentitySign A p d w = (.ok (some r), w') →
      Replies A w w' (.submitSign p d) (.submission r)
  | signAsks {p d} : submitIdentitySign A p d w = (.ok none, w') → Replies A w w' (.submitSign p d) (.signing p)
  | submitEnd {p signer r} : submitIdentityEnd A p signer w = (.ok r, w') →
      Replies A w w' (.submitEnd p signer) (.submission r)

theorem replies_of_run {call : AdapterCall P} {reply : AdapterReply P}
    (hcall : call.run A w = (.ok reply, w')) : Replies A w w' call reply := by
  cases call with
  | readState n =>
    obtain ⟨s, hs, rfl⟩ := Prog.map_ok_iff.1 hcall
    exact .state hs
  | publishBegin b q =>
    obtain ⟨r | p, hx, rfl⟩ := Prog.map_ok_iff.1 hcall
    · exact .published hx
    · exact .publishAsks hx
  | publishEnd p d =>
    obtain ⟨r, hr, rfl⟩ := Prog.map_ok_iff.1 hcall
    exact .publishEnd hr
  | prepareBegin b q =>
    obtain ⟨r | p, hx, rfl⟩ := Prog.map_ok_iff.1 hcall
    · exact .prepared hx
    · exact .prepareAsks hx
  | prepareEnd p d =>
    obtain ⟨r, hr, rfl⟩ := Prog.map_ok_iff.1 hcall
    exact .prepareEnd hr
  | dispatch p permit =>
    obtain ⟨r, hr, rfl⟩ := Prog.map_ok_iff.1 hcall
    exact .dispatched hr
  | confirm intent =>
    obtain ⟨c, hc, rfl⟩ := Prog.map_ok_iff.1 hcall
    exact .confirmed hc
  | submitBegin q =>
    obtain ⟨r | p, hx, rfl⟩ := Prog.map_ok_iff.1 hcall
    · exact .submitted hx
    · exact .submitAsks hx
  | signDraftBegin d k i q =>
    obtain ⟨r | p, hx, rfl⟩ := Prog.map_ok_iff.1 hcall
    · exact .draftSubmitted hx
    · exact .draftAsks hx
  | submitSign p d =>
    obtain ⟨_ | r, hx, rfl⟩ := Prog.map_ok_iff.1 hcall
    · exact .signAsks hx
    · exact .signSubmitted hx
  | submitEnd p signer =>
    obtain ⟨r, hr, rfl⟩ := Prog.map_ok_iff.1 hcall
    exact .submitEnd hr

theorem confirmPublication_publication {n e : Bytes} {previous : Option IdentityState} {reason : String}
    {r : PublicationResult P} (h : confirmPublication A n e previous reason w = (.ok r, w')) :
    r.publication = none := by
  unfold confirmPublication at h
  obtain ⟨s, w1, -, h⟩ := Prog.bind_ok_iff.1 h
  cases s with
  | some s =>
    obtain ⟨rfl, -⟩ := Prog.pure_ok_iff.1 h
    rfl
  | none =>
    obtain ⟨rfl, -⟩ := Prog.pure_ok_iff.1 h
    rfl

/-- Publishing a bundle hands out no publication. -/
theorem publishBundleBegin_publication {b : IdentityBundle P} {q : ConsentRequest} {r : PublicationResult P}
    (h : publishBundleBegin A b q w = (.ok (.inl r), w')) : r.publication = none := by
  unfold publishBundleBegin at h
  obtain ⟨_, w1, -, h⟩ := Prog.bind_ok_iff.1 h
  obtain ⟨_, w2, -, h⟩ := Prog.bind_ok_iff.1 h
  obtain ⟨e, w3, -, h⟩ := Prog.bind_ok_iff.1 h
  obtain ⟨l, w4, -, h⟩ := Prog.bind_ok_iff.1 h
  split_ifs at h
  · simp only [Prog.pure_ok_iff, Sum.inl.injEq] at h
    rw [← h.1]
  obtain ⟨current, w5, -, h⟩ := Prog.bind_ok_iff.1 h
  split_ifs at h
  · simp only [Prog.pure_ok_iff, Sum.inl.injEq] at h
    rw [← h.1]
  obtain ⟨t, w6, -, h⟩ := Prog.bind_ok_iff.1 h
  obtain ⟨g, w7, -, h⟩ := Prog.bind_ok_iff.1 h
  cases g with
  | some x =>
    simp only [Prog.pure_ok_iff, Sum.inl.injEq] at h
    rw [← h.1]
  | none => simp at h

theorem publishBundleEnd_publication {p : PendingPublication P} {d : ConsentDecision} {r : PublicationResult P}
    (h : publishBundleEnd A p d w = (.ok r, w')) : r.publication = none := by
  unfold publishBundleEnd at h
  obtain ⟨g, w1, -, h⟩ := Prog.bind_ok_iff.1 h
  cases g with
  | some x =>
    obtain ⟨rfl, -⟩ := Prog.pure_ok_iff.1 h
    rfl
  | none =>
    obtain ⟨current, w2, -, h⟩ := Prog.bind_ok_iff.1 h
    split_ifs at h
    · obtain ⟨rfl, -⟩ := Prog.pure_ok_iff.1 h
      rfl
    obtain ⟨now, w3, -, h⟩ := Prog.bind_ok_iff.1 h
    split_ifs at h
    · obtain ⟨rfl, -⟩ := Prog.pure_ok_iff.1 h
      rfl
    unfold publishBundleWrite at h
    obtain ⟨l, w4, -, h⟩ := Prog.bind_ok_iff.1 h
    split_ifs at h
    · obtain ⟨rfl, -⟩ := Prog.pure_ok_iff.1 h
      rfl
    obtain ⟨o, w5, -, h⟩ := Prog.bind_ok_iff.1 h
    cases o with
    | stale =>
      obtain ⟨rfl, -⟩ := Prog.pure_ok_iff.1 h
      rfl
    | expired =>
      obtain ⟨rfl, -⟩ := Prog.pure_ok_iff.1 h
      rfl
    | raised => exact confirmPublication_publication h
    | returned => exact confirmPublication_publication h

end

/-! ### Provenance -/

section

variable {G : Host σ → Action P → Prop} {h₀ h : Host σ} {calls : List (Call σ P)}

/-- A bundle that waits for consent was finalized. -/
theorem SystemRun.asked (hrun : SystemRun C M R G [] h₀ calls h) {e : Call σ P} (he : e ∈ calls) {a : ℕ}
    {first : IdentityBundle P → ConsentRequest → AdapterCall P} (hfirst : first = .publishBegin ∨ first = .prepareBegin)
    {p : PendingPublication P} (hask : e.Asks a first p) : p.bundle.finalize = .ok p.envelope := by
  obtain ⟨⟨b, r, haction⟩, hresult⟩ := hask
  obtain ⟨hstep, -⟩ := hrun.of_mem he
  rw [haction, hresult] at hstep
  obtain ⟨a', call, hact, hcall⟩ := adapter_reply hstep
  cases hact
  rcases hfirst with rfl | rfl
  · cases replies_of_run hcall with
    | publishAsks hbegin =>
      obtain ⟨rfl, hfin, -⟩ := publishBundleBegin_inr hbegin
      exact hfin
  · cases replies_of_run hcall with
    | prepareAsks hbegin =>
      obtain ⟨rfl, -, hfin, -⟩ := preparePublicationBegin_inr hbegin
      exact hfin

/-- A publication that was issued holds a finalized bundle and the state it stands on. -/
theorem SystemRun.issued (hrun : SystemRun C M R G [] h₀ calls h) {e : Call σ P} (he : e ∈ calls)
    {pub : RotationPublication P} (hissue : e.Issues pub) :
    pub.bundle.finalize = .ok pub.envelopeBytes ∧ pub.bundle.draft.previousState = some pub.previousState := by
  obtain ⟨result, hresult, hpub⟩ := hissue
  obtain ⟨hstep, earlier, hsub, hobtained, -⟩ := hrun.of_mem he
  rw [hresult] at hstep
  obtain ⟨a, call, hact, hcall⟩ := adapter_reply hstep
  rw [hact] at hobtained
  have hnone : result.publication = none → pub.bundle.finalize = .ok pub.envelopeBytes ∧
      pub.bundle.draft.previousState = some pub.previousState := by
    intro hn
    rw [hn] at hpub
    cases hpub
  cases replies_of_run hcall with
  | published hbegin => exact hnone (publishBundleBegin_publication hbegin)
  | publishEnd hend => exact hnone (publishBundleEnd_publication hend)
  | prepared hbegin => exact hnone (preparePublicationBegin_inl hbegin)
  | prepareEnd hend =>
    obtain ⟨w, heq, hprev⟩ := preparePublicationEnd_publication hend hpub
    obtain ⟨f, hf, hask⟩ := hobtained
    have hfin := hrun.asked (by simpa using hsub hf) (.inr rfl) hask
    rw [heq]
    exact ⟨hfin, hprev⟩

/-- A submission that waits for consent has passed the checks. -/
theorem SystemRun.submitted (hrun : SystemRun C M R G [] h₀ calls h) {e : Call σ P} (he : e ∈ calls) {a : ℕ}
    {p : PendingSubmission P} (hask : e.AsksToSubmit a p) : p.Submitted := by
  obtain ⟨-, hresult⟩ := hask
  obtain ⟨hstep, -⟩ := hrun.of_mem he
  rw [hresult] at hstep
  obtain ⟨a, call, -, hcall⟩ := adapter_reply hstep
  cases replies_of_run hcall with
  | submitAsks hbegin => exact (submitted_of_begin hbegin).2
  | draftAsks hbegin => exact submitted_of_signDraft hbegin

/-- A submission that waits for its signer was asked about before. -/
theorem SystemRun.signing (hrun : SystemRun C M R G [] h₀ calls h) {e : Call σ P} (he : e ∈ calls) {a : ℕ}
    {p : PendingSubmission P} (hsign : e.AsksToSign a p) : p.Submitted := by
  obtain ⟨⟨d, haction⟩, -⟩ := hsign
  obtain ⟨-, earlier, hsub, hobtained, -⟩ := hrun.of_mem he
  rw [haction] at hobtained
  obtain ⟨f, hf, hask⟩ := hobtained
  exact hrun.submitted (by simpa using hsub hf) hask

end

end DecentWallet
