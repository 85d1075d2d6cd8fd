import DecentWallet.Sanity.Finalizing
import DecentWallet.Sanity.System

/-! One signer alone never publishes a version-1 state: only a publication of a bundle and a dispatch put version-1
envelopes, and what they put is signed by two signers, or by the owner of the legacy state it stands on. -/

namespace DecentWallet

open Cbor IdentityError Opened

variable {σ : Type} {P : Platform}

/-- An envelope with the version number 1. -/
def VersionOne (P : Platform) (envelope : Bytes) : Prop :=
  ∃ m, requireCanonical P envelope = .ok (.map m) ∧ pyGet m 1 = some (.int 1)

/-- The call put the envelope, on the condition that the registry's state is `expected`. -/
def Call.Puts (e : Call σ P) (name envelope : Bytes) (expected : Option Bytes) : Prop :=
  ∃ adapter t outcome, .put adapter name envelope expected t outcome ∈ e.after.world.log.drop e.before.world.log.length

/-- `publish_bundle` after consent, or `dispatch_owner_key_rotation`. -/
def Action.Publishes : Action P → Prop
  | .adapter _ (.publishEnd ..) => True
  | .adapter _ (.dispatch ..) => True
  | _ => False

/-! ### Whose proofs an envelope carries -/

/-- The owner of the legacy state before, for an upgrade or a rotation of it, or two signers that may authorise. -/
inductive Carried (P : Platform) (previous : Option IdentityState) (o : Opened) (a : Authorization) : Prop
  | legacyOwner {s p} (hop : a.operation = 4 ∨ a.operation = 5) (hprevious : previous = some s)
      (hlegacy : s.signerSet = []) (hproofs : o.proofs = [p]) (hsig : o.SignedBy P.primitives s.ownerPublicKey p.2)
  | twoSigners {p q i j k l} (hp : p ∈ o.proofs) (hq : q ∈ o.proofs) (hi : p.1 = some i) (hj : q.1 = some j)
      (hids : i ≠ j) (hkeys : k ≠ l) (hk : (i, k) ∈ authorising (previous.map IdentityState.head) a)
      (hl : (j, l) ∈ authorising (previous.map IdentityState.head) a) (hpsig : o.SignedBy P.primitives k p.2)
      (hqsig : o.SignedBy P.primitives l q.2)

/-- Two proofs of a quorum are by different signers with different keys. -/
theorem Opened.Quorum.two {C : Primitives} {o : Opened} {signers : SignerSet} (h : o.Quorum C signers 2)
    (hproofs : (o.proofs.map Prod.fst).Nodup) (hkeys : (signers.map Prod.snd).Nodup) :
    ∃ p ∈ o.proofs, ∃ q ∈ o.proofs, ∃ i j k l, p.1 = some i ∧ q.1 = some j ∧ i ≠ j ∧ k ≠ l ∧ (i, k) ∈ signers ∧
      (j, l) ∈ signers ∧ o.SignedBy C k p.2 ∧ o.SignedBy C l q.2 := by
  obtain ⟨hlen, hall⟩ := h
  rcases hps : o.proofs with _ | ⟨p, _ | ⟨q, rest⟩⟩
  · simp [hps] at hlen
  · simp [hps] at hlen
  · obtain ⟨i, k, hi, hk, hsig⟩ := hall p (by simp [hps])
    obtain ⟨j, l, hj, hl, hsig'⟩ := hall q (by simp [hps])
    have hids : i ≠ j := by
      rintro rfl
      rw [hps] at hproofs
      simp [hi, hj] at hproofs
    refine ⟨p, by simp, q, by simp, i, j, k, l, hi, hj, hids, ?_, hk, hl, hsig, hsig'⟩
    rintro rfl
    exact hids (congrArg Prod.fst (List.inj_on_of_nodup_map hkeys hk hl rfl))

theorem carried_of_admits {previous : Option IdentityState} {o : Opened} {a : Authorization}
    (hprevious : ∀ s ∈ previous, s.head.Ok) (hwf : o.WellFormed) (ha : o.auth = some a)
    (h : Admits P.primitives (previous.map IdentityState.head) o) : Carried P previous o a := by
  obtain ⟨hprop, hsuff⟩ := (admits_iff ha).1 h
  have hthr : a.threshold = 2 := hprop.threshold fun g hg hv1 => by
    obtain ⟨s, hs, rfl⟩ := Option.map_eq_some_iff.1 hg
    exact ((hprevious s hs).twoOfThree hv1).1
  cases hsuff with
  | upgrade hop hproofs _ hsig =>
    generalize hprev : previous.map IdentityState.head = prev at hprop
    cases hprop with
    | upgrade _ _ _ hlegacy hkey =>
      obtain ⟨s, rfl, rfl⟩ := Option.map_eq_some_iff.1 hprev
      rw [hkey] at hsig
      exact .legacyOwner (.inl hop) rfl hlegacy hproofs hsig
    | genesis hop' => omega
    | ordinary hop' => omega
    | replaceSigners hop' => omega
    | rotate hop' => omega
    | rotateLegacy hop' => omega
  | rotateLegacy hop hprev hlegacy hproofs hsig =>
    obtain ⟨s, rfl, rfl⟩ := Option.map_eq_some_iff.1 hprev
    exact .legacyOwner (.inr hop) rfl hlegacy hproofs hsig
  | quorum _ _ hq =>
    rw [hthr] at hq
    have hkeys : ((authorising (previous.map IdentityState.head) a).map Prod.snd).Nodup := by
      unfold authorising
      split_ifs
      · cases previous with
        | none => simp
        | some s => simpa using (hprevious s rfl).keysNodup
      · exact (hwf.auth a ha).keysNodup
    obtain ⟨p, hp, q, hq', i, j, k, l, hi, hj, hids, hkl, hk, hl, hsig, hsig'⟩ := hq.two hwf.proofs_nodup hkeys
    exact .twoSigners hp hq' hi hj hids hkl hk hl hsig hsig'

/-! ### What is put -/

/-- An envelope that was put, the state it was put on, and the proofs that carry it. -/
structure PutWith (P : Platform) (name envelope : Bytes) (expected : Option Bytes) (previous : Option IdentityState)
    (o : Opened) (a : Authorization) : Prop where
  verified : ∀ s ∈ previous, ∃ c, HistoryOf P name c s
  expected : expected = previous.map IdentityState.stateHash
  opens : Opens P envelope o
  name : o.ownerName = name
  auth : o.auth = some a
  carried : Carried P previous o a

theorem putWith_of_finalize {b : IdentityBundle P} {e : Bytes} (h : b.finalize = .ok e) (hv : VersionOne P e) :
    ∃ o a, PutWith P b.draft.ownerName e (b.draft.previousState.map IdentityState.stateHash)
      b.draft.previousState o a := by
  obtain ⟨-, s, hs⟩ := b.finalize_ok h
  have hok : ∀ p ∈ b.draft.previousState, PreviousOk b.draft.ownerName p := by
    intro p hp
    obtain ⟨c, hc⟩ := b.draft.previousState_historyOf p hp
    exact hc.previousOk
  obtain ⟨o, hopens, hname, hadm, -⟩ := (parseIdentityEnvelope_ok P hok).1 hs
  obtain ⟨m, houter, hone⟩ := hv
  obtain ⟨a, ha⟩ : ∃ a, o.auth = some a := by
    cases hopens with
    | legacy houter' _ _ hupdate =>
      cases houter.symm.trans houter'
      rw [hone] at hupdate
      cases hupdate
    | versionOne => exact ⟨_, rfl⟩
  refine ⟨o, a, b.draft.previousState_historyOf, rfl, hopens, hname, ha, carried_of_admits (fun s hs => ?_)
    hopens.wellFormed ha hadm⟩
  obtain ⟨c, hc⟩ := b.draft.previousState_historyOf s hs
  exact hc.headOk

/-- A legacy envelope has no version number. -/
theorem not_versionOne_legacyEnvelope (hrt : CborRoundTrip P) {update signature e : Bytes}
    (h : legacyEnvelope P update signature = .ok e) : ¬VersionOne P e := by
  intro hv
  obtain ⟨m, houter, hone⟩ := hv
  rw [legacyEnvelope, canonicalBytes, orRaise_eq_ok] at h
  have hread := hrt.reads_tidy (tidy_legacy update signature) h
  cases houter.symm.trans hread
  cases hone

section

variable {C : Crypto} {M : Machine σ} {R : ℕ → Adapter σ} {G : Host σ → Action P → Prop} {h₀ h : Host σ}
  {calls : List (Call σ P)}

theorem SystemRun.puts (hrt : CborRoundTrip P) (hrun : SystemRun C M R G [] h₀ calls h) {e : Call σ P} (he : e ∈ calls)
    {name envelope : Bytes} {expected : Option Bytes} (hput : e.Puts name envelope expected)
    (hv : VersionOne P envelope) :
    e.action.Publishes ∧ ∃ previous o a, PutWith P name envelope expected previous o a := by
  obtain ⟨hstep, earlier, hsub, hobtained, -⟩ := hrun.of_mem he
  let Q : Event → Prop := fun ev => ∀ adapter n b x t outcome, ev = .put adapter n b x t outcome → VersionOne P b →
    e.action.Publishes ∧ ∃ previous o a, PutWith P n b x previous o a
  have hmem : ∀ f ∈ earlier, f ∈ calls := fun f hf => by simpa using hsub hf
  have hadds : Adds Q e.before.world (e.action.run C M R e.before).2.world := by
    refine action_adds (fun a call hact => ?_) e.before
    rw [hact] at hobtained
    refine ⟨?_, ?_, ?_⟩
    · intro p d hcall t outcome adapter n b x t' outcome' hev hv
      subst hcall
      cases hev
      obtain ⟨f, hf, hask⟩ := hobtained
      exact ⟨by rw [hact]; trivial, _, putWith_of_finalize (hrun.asked (hmem f hf) (.inl rfl) hask) hv⟩
    · intro pub permit hcall t outcome adapter n b x t' outcome' hev hv
      subst hcall
      cases hev
      obtain ⟨⟨f, hf, hissue⟩, -⟩ := hobtained
      obtain ⟨hfin, hprevious⟩ := hrun.issued (hmem f hf) hissue
      have hput := putWith_of_finalize hfin hv
      rw [hprevious] at hput
      exact ⟨by rw [hact]; trivial, _, hput⟩
    · -- with an authorization the threshold is two, and a proof is handed out instead
      intro p signer hcall hdraft hthr signature b' henvelope t outcome adapter n b x t' outcome' hev hv
      subst hcall
      cases hev
      obtain ⟨f, hf, hsign⟩ := hobtained
      have hp := hrun.signing (hmem f hf) hsign
      cases hauth : p.auth with
      | some a =>
        rw [hauth, Option.any_some, hp.threshold hauth] at hthr
        cases hthr
      | none =>
        rw [submissionEnvelope, hauth] at henvelope
        exact absurd hv (not_versionOne_legacyEnvelope hrt henvelope)
  obtain ⟨adapter, t, outcome, hmem'⟩ := hput
  rw [hstep] at hadds
  obtain ⟨new, hlog, hnew⟩ := hadds
  simp only at hlog
  rw [hlog, List.drop_left] at hmem'
  exact hnew _ hmem' rfl adapter name envelope expected t outcome rfl hv

/-- A submission that is not refused ends in a proof, unless it is a legacy one without a draft. -/
theorem SystemRun.submission_status (hrun : SystemRun C M R G [] h₀ calls h) {e : Call σ P} (he : e ∈ calls)
    {r : SubmissionResult P} (hr : e.result = .ok (.adapter (.submission r))) :
    r.status.Refused ∨ r.status = .proofReady ∨
      ∃ a p signer, e.action = .adapter a (.submitEnd p signer) ∧ p.auth = none ∧ p.request.draft = none := by
  obtain ⟨hstep, earlier, hsub, hobtained, -⟩ := hrun.of_mem he
  rw [hr] at hstep
  obtain ⟨a, call, hact, hcall⟩ := adapter_reply hstep
  rw [hact] at hobtained
  cases replies_of_run hcall with
  | submitted hbegin => exact .inl (submitIdentityBegin_inl hbegin)
  | draftSubmitted hbegin =>
    unfold signDraftBegin at hbegin
    obtain ⟨l, w1, -, hbegin⟩ := Prog.bind_ok_iff.1 hbegin
    obtain ⟨_, w2, -, hbegin⟩ := Prog.bind_ok_iff.1 hbegin
    exact .inl (submitIdentityBegin_inl hbegin)
  | signSubmitted hsign => exact .inl (submitIdentitySign_some hsign)
  | @submitEnd p signer r hend =>
    obtain ⟨f, hf, hsign⟩ := hobtained
    have hp := hrun.signing (by simpa using hsub hf) hsign
    by_cases hv1 : p.auth ≠ none ∨ p.request.draft ≠ none
    · exact (submitIdentityEnd_status hp hv1 hend).imp_right .inl
    · simp only [not_or, not_not] at hv1
      exact .inr (.inr ⟨a, p, signer, hact, hv1⟩)

/-- Along every run of the system, whatever the transports, the wallets and the signers do: a version-1 envelope is put
by a publication or a dispatch only, and carries two signers or the owner of the legacy state it stands on; and a
submission of a version-1 update, or of a draft, that is not refused ends in a proof. -/
theorem one_signer_never_publishes (hrt : CborRoundTrip P) (hrun : SystemRun C M R G [] h₀ calls h) :
    (∀ e ∈ calls, ∀ name envelope expected, e.Puts name envelope expected → VersionOne P envelope →
      e.action.Publishes ∧ ∃ previous o a, PutWith P name envelope expected previous o a) ∧
    ∀ e ∈ calls, ∀ r, e.result = .ok (.adapter (.submission r)) → r.status.Refused ∨ r.status = .proofReady ∨
      ∃ a p signer, e.action = .adapter a (.submitEnd p signer) ∧ p.auth = none ∧ p.request.draft = none :=
  ⟨fun _ he _ _ _ hput hv => hrun.puts hrt he hput hv, fun _ he _ hr => hrun.submission_status he hr⟩

end

namespace Vector

/-- Neither wallets nor signers take part in the publication. -/
def idleCrypto : Crypto where
  argon2id _ _ := none
  encrypt _ _ _ _ := none
  decrypt _ _ _ _ _ := none
  publicKey _ := none
  sign _ _ := none
  float s := ⟨s, true, none⟩
  limit _ := none
  dumpsLimit _ := none
  room := 1000

def idleMachine : Machine Outside where
  tokenBytes n s := (⟨List.replicate n 1, List.length_replicate⟩, s)
  generateSeed s := (none, s)
  fs _ s := (.failed, s)
  monotonic s := (s.now, s)
  time s := (s.now, s)

def idleHost : Host Outside where
  world := outside
  disk := ⟨fun _ => none, 0⟩
  sessions _ := ⟨[], none, .empty, none, none, none, [], 0, 0⟩
  nextSession := 0
  signers _ := none

theorem publishOrdinary_puts :
    .put 0 ownerName ordinaryEnvelope (some rotationHash) 300 .returned ∈ (publishOrdinary .approved outside).2.log.drop
      (publishBundleBegin registryAdapter ordinaryBundle consentRequest outside).2.log.length := by decide +kernel

/-- The two halves of the publication. -/
theorem publishOrdinary_parts : ∃ p w₁ r w₂,
    publishBundleBegin registryAdapter ordinaryBundle consentRequest outside = (.ok (.inr p), w₁) ∧
    publishBundleEnd registryAdapter p .approved w₁ = (.ok r, w₂) ∧
    .put 0 ownerName ordinaryEnvelope (some rotationHash) 300 .returned ∈ w₂.log.drop w₁.log.length := by
  have hasked : (publishBundleBegin registryAdapter ordinaryBundle consentRequest outside).1.map
      (fun x => x.getRight?.isSome) = .ok true := by decide +kernel
  have hended : (publishOrdinary .approved outside).1.map PublicationResult.status = .ok .confirmed := by decide +kernel
  have hput := publishOrdinary_puts
  rcases hbegin : publishBundleBegin registryAdapter ordinaryBundle consentRequest outside with ⟨x, w₁⟩
  rw [hbegin] at hasked hput
  obtain ⟨x, rfl, hx⟩ := map_eq_ok.1 hasked
  obtain ⟨p, hp⟩ := Option.isSome_iff_exists.1 hx
  obtain rfl := Sum.getRight?_eq_some_iff.1 hp
  have hrun : publishOrdinary .approved outside = publishBundleEnd registryAdapter p .approved w₁ := by
    rw [publishOrdinary, publishBundle, Prog.bind_run_ok hbegin]
    rfl
  rw [hrun] at hended hput
  rcases hend : publishBundleEnd registryAdapter p .approved w₁ with ⟨r, w₂⟩
  rw [hend] at hended hput
  obtain ⟨r, rfl, -⟩ := map_eq_ok.1 hended
  exact ⟨p, w₁, r, w₂, rfl, hend, hput⟩

end Vector

/-- Two of the three publish the ordinary update. -/
theorem one_signer_never_publishes_update :
    ∃ (calls : List (Call Vector.Outside Vector.platform)) (h : Host Vector.Outside),
    SystemRun Vector.idleCrypto Vector.idleMachine (fun _ => Vector.registryAdapter) (fun _ _ => True)
      [] Vector.idleHost calls h ∧
    ∃ e ∈ calls, e.Puts Vector.ownerName Vector.ordinaryEnvelope (some Vector.rotationHash) ∧ e.action.Publishes ∧
      ∃ previous o a, PutWith Vector.platform Vector.ownerName Vector.ordinaryEnvelope (some Vector.rotationHash)
        previous o a := by
  obtain ⟨p, w₁, r, w₂, hbegin, hend, hput⟩ := Vector.publishOrdinary_parts
  let asked : Call Vector.Outside Vector.platform := ⟨Vector.idleHost,
    .adapter 0 (.publishBegin Vector.ordinaryBundle Vector.consentRequest), .ok (.adapter (.pending p)),
    { Vector.idleHost with world := w₁ }⟩
  let published : Call Vector.Outside Vector.platform := ⟨asked.after, .adapter 0 (.publishEnd p .approved),
    .ok (.adapter (.publication r)), { Vector.idleHost with world := w₂ }⟩
  have hasked : SystemRun Vector.idleCrypto Vector.idleMachine (fun _ => Vector.registryAdapter) (fun _ _ => True) []
      Vector.idleHost [asked] asked.after := by
    refine Trace.snoc .nil ⟨trivial, trivial⟩ (adapter_run ?_)
    rw [AdapterCall.run]
    exact Prog.map_ok_iff.2 ⟨.inr p, hbegin, rfl⟩
  have hrun : SystemRun Vector.idleCrypto Vector.idleMachine (fun _ => Vector.registryAdapter) (fun _ _ => True) []
      Vector.idleHost [asked, published] published.after := by
    refine Trace.snoc hasked ⟨⟨asked, by simp, ⟨_, _, rfl⟩, rfl⟩, trivial⟩ (adapter_run ?_)
    rw [AdapterCall.run]
    exact Prog.map_ok_iff.2 ⟨_, hend, rfl⟩
  have hputs : published.Puts Vector.ownerName Vector.ordinaryEnvelope (some Vector.rotationHash) :=
    ⟨0, 300, .returned, hput⟩
  have hversion : VersionOne Vector.platform Vector.ordinaryEnvelope :=
    ⟨_, (requireCanonical_reference _ _).2 ⟨by decide +kernel, by decide +kernel, rfl⟩, rfl⟩
  have hcodec : CborCodec Vector.platform := referencePlatform_codec _ _
  exact ⟨_, _, hrun, published, by simp, hputs,
    (one_signer_never_publishes hcodec.reads hrun).1 published (by simp) _ _ _ hputs hversion⟩

end DecentWallet
