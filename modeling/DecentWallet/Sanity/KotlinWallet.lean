import DecentWallet.Sanity.KotlinLogin
import DecentWallet.Spec.KotlinWallet

/-! What the operations of a session can do to it: none unlocks it, none signs, and none but `lock` touches the
challenges that are reserved. -/

namespace DecentWallet.Kotlin

open WalletError

variable {σ : Type}

/-- From `p` to `p'`, session `i` was not unlocked, kept its challenges unless it was locked, and nothing was signed. -/
structure Quiet (i : ℕ) (p p' : Phone σ) : Prop where
  session : (p'.sessions i).unlocked.isSome = true → (p.sessions i).unlocked.isSome = true ∧
    (p'.sessions i).activeWalletLoginChallenges = (p.sessions i).activeWalletLoginChallenges
  signed : p'.signed = p.signed

instance (i : ℕ) : Std.Refl (Quiet (σ := σ) i) := ⟨fun _ => ⟨fun h => ⟨h, rfl⟩, rfl⟩⟩

instance (i : ℕ) : IsTrans (Phone σ) (Quiet i) where
  trans _ _ _ h h' := by
    refine ⟨fun hu => ?_, h'.signed.trans h.signed⟩
    obtain ⟨hu, hc⟩ := h'.session hu
    exact ⟨(h.session hu).1, hc.trans (h.session hu).2⟩

theorem Quiet.of_sessions {i : ℕ} {p p' : Phone σ} (h : p'.sessions = p.sessions) (hs : p'.signed = p.signed) :
    Quiet i p p' := ⟨fun hu => by rw [h] at hu ⊢; exact ⟨hu, rfl⟩, hs⟩

theorem Quiet.setSession {i j : ℕ} {p : Phone σ} {s : WalletSession}
    (h : s.unlocked.isSome = true → (p.sessions j).unlocked.isSome = true ∧
      s.activeWalletLoginChallenges = (p.sessions j).activeWalletLoginChallenges) : Quiet i p (p.setSession j s) := by
  refine ⟨fun hu => ?_, rfl⟩
  by_cases hij : i = j
  · subst hij
    simp only [Phone.setSession, Function.update_self] at hu ⊢
    exact h hu
  · simp only [Phone.setSession, Function.update_of_ne hij] at hu
    simp only [Phone.setSession, Function.update_of_ne hij, hu, and_self]

/-- `persistPayloadCandidate` asks the oracle, and then nothing changed, or the session is locked, or it holds the
candidate. -/
theorem persistPayloadCandidate_cases {A : Android σ} {j : ℕ} {candidate : Payload} {p p' : Phone σ} {r : Parse Unit}
    (h : persistPayloadCandidate A j candidate p = (r, p')) :
    ∃ state, ((∃ e, r = .error e) ∧ p' = { p with state := state }) ∨
      ((∃ e, r = .error e) ∧ p' = { p with state := state }.setSession j (p.sessions j).locked) ∨
      ∃ raw dek payload replacement, (p.sessions j).unlocked = some (raw, dek, payload) ∧ r = .ok () ∧
        p' = { p with state := state }.setSession j
          { p.sessions j with walletPayload := some candidate, rawContainer := some replacement } := by
  unfold persistPayloadCandidate at h
  simp only [Prog.bind_run, session, Prog.lift_run] at h
  rcases hu : (p.sessions j).unlocked with _ | ⟨raw, dek, payload⟩ <;> simp only [hu, orRaise, Prod.mk.injEq] at h
  · obtain ⟨rfl, rfl⟩ := h
    exact ⟨p.state, .inl ⟨⟨_, rfl⟩, rfl⟩⟩
  · simp only [consult] at h
    rcases hr : A.resealPayload raw dek candidate p.state with ⟨e | replacement, state⟩ <;> simp only [hr,
      Prod.mk.injEq] at h
    · obtain ⟨rfl, rfl⟩ := h
      exact ⟨state, .inl ⟨⟨_, rfl⟩, rfl⟩⟩
    · rcases hf : A.replaceFile (p.sessions j).path replacement raw state with ⟨e | ⟨⟩, state'⟩ <;> simp only [hf] at h
      · refine ⟨state', ?_⟩
        unfold replaceFailed at h
        split at h
        · cases h
          exact .inr (.inl ⟨⟨_, rfl⟩, rfl⟩)
        · cases h
          exact .inr (.inl ⟨⟨_, rfl⟩, rfl⟩)
        · cases h
          exact .inr (.inl ⟨⟨_, rfl⟩, rfl⟩)
        · cases h
          exact .inl ⟨⟨_, rfl⟩, rfl⟩
      · cases h
        exact ⟨state', .inr (.inr ⟨raw, dek, payload, replacement, rfl, rfl, rfl⟩)⟩

section

variable (A : Android σ) (C : Primitives) (i j : ℕ)

theorem consult_quiet {α : Type} (f : σ → α × σ) : Prog.Keeps (Quiet i) (consult f) := fun _ => .of_sessions rfl rfl

theorem nowSeconds_quiet : Prog.Keeps (Quiet i) (nowSeconds A) := (consult_quiet i _).bind fun _ => .pure _

theorem session_quiet : Prog.Keeps (Quiet (σ := σ) i) (session j) := fun _ => Std.Refl.refl _

theorem ensureUnlocked_quiet : Prog.Keeps (Quiet (σ := σ) i) (ensureUnlocked j) :=
  (session_quiet i j).bind fun _ => (Prog.Keeps.lift _).bind fun _ => .pure _

theorem lock_quiet : Prog.Keeps (Quiet (σ := σ) i) (lock j) := fun _ => .setSession fun hu => by cases hu

/-- The permit of a session plays no part in whether it is unlocked. -/
theorem setPermit_quiet (permit : Option OwnerKeyRotationDispatchPermit) :
    Prog.Keeps (Quiet (σ := σ) i) (setPermit j permit) := fun _ => .setSession fun hu => ⟨hu, rfl⟩

theorem persistPayloadCandidate_quiet (candidate : Payload) :
    Prog.Keeps (Quiet i) (persistPayloadCandidate A j candidate) := by
  intro p
  obtain ⟨state, ⟨-, hp⟩ | ⟨-, hp⟩ | ⟨raw, dek, payload, replacement, hu, -, hp⟩⟩ :=
    persistPayloadCandidate_cases (Prog.run_eq (x := persistPayloadCandidate A j candidate) (w := p) rfl)
  all_goals
    rw [hp]
    have hstate : Quiet i p { p with state := state } := .of_sessions rfl rfl
  · exact hstate
  · exact IsTrans.trans _ _ _ hstate (.setSession fun hu => by cases hu)
  · exact IsTrans.trans _ _ _ hstate (.setSession fun _ => ⟨by simp [hu], rfl⟩)

theorem claimLatch_quiet (publication : OwnerKeyRotationPublication) :
    Prog.Keeps (Quiet (σ := σ) i) (claimLatch publication) :=
  Prog.Keeps.get.bind fun _ => (Prog.Keeps.reject _ _).bind fun _ => .modify fun _ => .of_sessions rfl rfl

theorem issuePermit_quiet (publication : OwnerKeyRotationPublication) :
    Prog.Keeps (Quiet (σ := σ) i) (issuePermit publication) :=
  Prog.Keeps.get.bind fun _ => (Prog.Keeps.modify fun _ => .of_sessions rfl rfl).bind fun _ =>
    (Prog.Keeps.reject _ _).bind fun _ => (Prog.Keeps.modify fun _ => .of_sessions rfl rfl).bind fun _ => .pure _

theorem prepareSigningKeyRotation_quiet : Prog.Keeps (Quiet i) (prepareSigningKeyRotation A j) := by
  refine (ensureUnlocked_quiet i j).bind fun payload => (Prog.Keeps.reject _ _).bind fun _ =>
    (Prog.Keeps.lift _).bind fun active => (Prog.Keeps.lift _).bind fun pending => ?_
  cases pending with
  | some pending => exact (Prog.Keeps.reject _ _).bind fun _ => .pure _
  | none =>
    exact (consult_quiet i _).bind fun _ => (Prog.Keeps.lift _).bind fun _ => (Prog.Keeps.lift _).bind fun _ =>
      (Prog.Keeps.reject _ _).bind fun _ => (persistPayloadCandidate_quiet A i j _).bind fun _ => .pure _

theorem cancelSigningKeyRotation_quiet : Prog.Keeps (Quiet i) (cancelSigningKeyRotation A j) := by
  refine (ensureUnlocked_quiet i j).bind fun payload => (Prog.Keeps.reject _ _).bind fun _ =>
    (Prog.Keeps.lift _).bind fun active => (Prog.Keeps.lift _).bind fun pending => ?_
  cases pending with
  | none => exact .pure _
  | some pending =>
    exact (Prog.Keeps.reject _ _).bind fun _ => (persistPayloadCandidate_quiet A i j _).bind fun _ => .pure _

theorem bindLegacyRotationDispatchEnvironment_quiet (environment : Str) (approved : Option Bool) :
    Prog.Keeps (Quiet i) (bindLegacyRotationDispatchEnvironment A j environment approved) :=
  (ensureUnlocked_quiet i j).bind fun _ => (Prog.Keeps.lift _).bind fun _ => (Prog.Keeps.lift _).bind fun _ =>
    (Prog.Keeps.reject _ _).bind fun _ => (Prog.Keeps.reject _ _).bind fun _ => (Prog.Keeps.lift _).bind fun _ =>
      (persistPayloadCandidate_quiet A i j _).bind fun _ => .pure _

theorem latchOwnerKeyRotationDispatchIntent_quiet (publication : OwnerKeyRotationPublication) :
    Prog.Keeps (Quiet i) (latchOwnerKeyRotationDispatchIntent A j C publication) :=
  (ensureUnlocked_quiet i j).bind fun _ => (session_quiet i j).bind fun _ => (Prog.Keeps.reject _ _).bind fun _ =>
    (nowSeconds_quiet A i).bind fun _ => (Prog.Keeps.reject _ _).bind fun _ => (claimLatch_quiet i _).bind fun _ =>
      (Prog.Keeps.lift _).bind fun _ => (Prog.Keeps.lift _).bind fun _ => (Prog.Keeps.lift _).bind fun _ =>
        (Prog.Keeps.reject _ _).bind fun _ => (issuePermit_quiet i _).bind fun permit =>
          (persistPayloadCandidate_quiet A i j _).bind fun _ =>
          (setPermit_quiet i j (some permit)).bind fun _ => .pure _

theorem resolveOwnerKeyRotationDispatchRejection_quiet (rejection : OwnerKeyRotationDispatchRejection) :
    Prog.Keeps (Quiet i) (resolveOwnerKeyRotationDispatchRejection A j rejection) :=
  (ensureUnlocked_quiet i j).bind fun _ => (Prog.Keeps.lift _).bind fun _ => (Prog.Keeps.lift _).bind fun _ =>
    (session_quiet i j).bind fun _ => Prog.Keeps.get.bind fun _ => (Prog.Keeps.reject _ _).bind fun _ =>
      (persistPayloadCandidate_quiet A i j _).bind fun _ => (setPermit_quiet i j none).bind fun _ =>
        .modify fun _ => .of_sessions rfl rfl

theorem finalizeSigningKeyRotation_quiet (confirmation : OwnerKeyRotationConfirmation) :
    Prog.Keeps (Quiet i) (finalizeSigningKeyRotation A j confirmation) :=
  (ensureUnlocked_quiet i j).bind fun _ => (Prog.Keeps.lift _).bind fun _ => (Prog.Keeps.lift _).bind fun _ =>
    (Prog.Keeps.lift _).bind fun _ => (Prog.Keeps.lift _).bind fun _ => (Prog.Keeps.lift _).bind fun _ =>
      (Prog.Keeps.reject _ _).bind fun _ => (persistPayloadCandidate_quiet A i j _).bind fun _ =>
      setPermit_quiet i j none

theorem SessionOp.run_quiet (op : SessionOp) : Prog.Keeps (Quiet i) (op.run A C j) := by
  cases op with
  | prepare => exact (prepareSigningKeyRotation_quiet A i j).map _
  | cancel => exact (cancelSigningKeyRotation_quiet A i j).map _
  | bind environment approved => exact (bindLegacyRotationDispatchEnvironment_quiet A i j environment approved).map _
  | latch publication => exact (latchOwnerKeyRotationDispatchIntent_quiet A C i j publication).map _
  | resolve rejection => exact (resolveOwnerKeyRotationDispatchRejection_quiet A i j rejection).map _
  | finalize confirmation => exact (finalizeSigningKeyRotation_quiet A i j confirmation).map _
  | lock => exact (lock_quiet i j).map _

theorem loginChallengeKey_quiet (challenge identityId : Str) (expiresAt : ℤ) :
    Prog.Keeps (Quiet i) (loginChallengeKey A challenge identityId expiresAt) :=
  (nowSeconds_quiet A i).bind fun _ => (Prog.Keeps.reject _ _).bind fun _ => (Prog.Keeps.lift _).bind fun _ =>
    (Prog.Keeps.reject _ _).bind fun _ => .pure _

end

/-! ### Signing -/

def SameSessions (p p' : Phone σ) : Prop := p'.sessions = p.sessions

instance : Std.Refl (SameSessions (σ := σ)) := ⟨fun _ => rfl⟩

instance : IsTrans (Phone σ) SameSessions := ⟨fun _ _ _ h h' => Eq.trans h' h⟩

theorem signLoginProof_same (A : Android σ) (i : ℕ) (profile challenge identityId : Str) :
    Prog.Keeps SameSessions (signLoginProof A i profile challenge identityId) := by
  have hunlocked : Prog.Keeps SameSessions (ensureUnlocked (σ := σ) i) :=
    Prog.Keeps.bind (x := session i) (fun _ => rfl) fun _ => (Prog.Keeps.lift _).bind fun _ => .pure _
  have hsign : ∀ seed message, Prog.Keeps SameSessions (signMessage A i seed message) := fun _ _ =>
    (Prog.Keeps.reject _ _).bind fun _ => Prog.Keeps.bind (.modify fun _ => rfl) fun _ => .lift _
  exact hunlocked.bind fun _ => (Prog.Keeps.lift _).bind fun _ => (Prog.Keeps.lift _).bind fun _ =>
    (hsign _ _).bind fun _ => (Prog.Keeps.reject _ _).bind fun _ => .lift _

theorem signUnderLock_ok {A : Android σ} {i : ℕ} {challenge identityId : Str} {expiresAt : ℤ} {p p' : Phone σ}
    {r : WalletLoginProofRequest} (h : signUnderLock A i challenge identityId expiresAt p = (.ok r, p')) :
    r.profile = loginProfile ∧ r.challenge = challenge ∧ r.identityId = identityId ∧
      ∃ message, signingBytes loginProfile challenge identityId = .ok message := by
  unfold signUnderLock signLoginProof at h
  obtain ⟨_, _, -, h⟩ := Prog.bind_ok_iff.1 h
  obtain ⟨_, _, -, h⟩ := Prog.bind_ok_iff.1 h
  obtain ⟨_, _, -, h⟩ := Prog.bind_ok_iff.1 h
  obtain ⟨_, _, -, h⟩ := Prog.bind_ok_iff.1 h
  obtain ⟨_, _, -, h⟩ := Prog.bind_ok_iff.1 h
  obtain ⟨_, _, -, h⟩ := Prog.bind_ok_iff.1 h
  obtain ⟨_, _, -, h⟩ := Prog.bind_ok_iff.1 h
  obtain ⟨message, _, hmessage, h⟩ := Prog.bind_ok_iff.1 h
  obtain ⟨_, _, -, h⟩ := Prog.bind_ok_iff.1 h
  obtain ⟨_, _, -, h⟩ := Prog.bind_ok_iff.1 h
  obtain ⟨hmake, -⟩ := Prog.lift_ok_iff.1 h
  obtain ⟨hp, hc, hid, -⟩ := WalletLoginProofRequest.make_eq_ok.1 hmake
  exact ⟨hp, hc, hid, message, (Prog.lift_ok_iff.1 hmessage).1⟩

namespace Handset

/-! ### An unlocked session -/

/-- The clock stands still, every key is its own seed, and every file operation succeeds. -/
def android : Android Unit where
  currentTimeMillis _ := (0, ())
  generateSeed _ := (some (List.replicate 32 1), ())
  publicKey seed := some seed
  sign _ _ := some (List.replicate 64 0)
  resealPayload raw _ _ _ := (.ok raw, ())
  replaceFile _ _ _ _ := (.ok (), ())

def key : Bytes := List.replicate 32 0

def payload : Payload := (Payload.empty.setBytes "private_seed" key).setBytes "public_key" key

def session : WalletSession where
  path := str "wallet"
  rawContainer := some []
  dataEncryptionKey := some []
  walletPayload := some payload

def phone : Phone Unit where
  state := ()
  sessions _ := session
  latchClaimed := []
  permits _ := none
  resolved := []
  nextObject := 0
  signed := []

def challenge : Str := base64UrlEncode key

def signature : Str := base64UrlEncode (List.replicate 64 0)

/-- The phone once the challenge is reserved. -/
def reserved : Phone Unit := phone.setSession 0 { session with activeWalletLoginChallenges := [challenge] }

/-! ### A call for a proof -/

theorem loginChallengeKey_run {identityId : Str} {message : Bytes}
    (h : signingBytes loginProfile challenge identityId = .ok message) :
    loginChallengeKey android challenge identityId 1 phone = (.ok challenge, phone) := by
  obtain ⟨⟨-, hscalar⟩, -⟩ := signingBytes_eq_ok.1 h
  have hid : ¬utf8 identityId = none := by simp [utf8, hscalar]
  have hparse : parseBase64Url challenge challengeBytes = .ok key :=
    (parseBase64Url_eq_ok (by decide)).2 ⟨by decide, rfl⟩
  exact Prog.bind_ok_iff.2 ⟨0, phone, rfl, Prog.bind_ok_iff.2 ⟨(), phone, rfl,
    Prog.bind_ok_iff.2 ⟨key, phone, Prog.lift_ok_iff.2 ⟨hparse, rfl⟩,
      Prog.bind_ok_iff.2 ⟨(), phone, Prog.reject_ok_iff.2 ⟨hid, rfl⟩, rfl⟩⟩⟩⟩

theorem reserveChallengeKey_run : reserveChallengeKey 0 challenge phone = (.ok (), reserved) := rfl

theorem signUnderLock_run {identityId : Str} {message : Bytes}
    (h : signingBytes loginProfile challenge identityId = .ok message) :
    ∃ proof p', signUnderLock android 0 challenge identityId 1 reserved = (.ok proof, p') := by
  have hvalid : validateFields loginProfile challenge identityId signature = .ok () :=
    validateFields_eq_ok.2 ⟨rfl, ⟨key, by decide, rfl⟩, ⟨List.replicate 64 0, by decide, rfl⟩,
      (signingBytes_eq_ok.1 h).1.2⟩
  have hmake := (WalletLoginProofRequest.make_eq_ok (r := ⟨loginProfile, challenge, identityId, signature, hvalid⟩)).2
    ⟨rfl, rfl, rfl, rfl⟩
  exact ⟨_, { reserved with signed := [⟨0, message⟩] }, Prog.bind_ok_iff.2 ⟨payload, reserved, rfl,
    Prog.bind_ok_iff.2 ⟨_, reserved, rfl, Prog.bind_ok_iff.2 ⟨(), reserved, rfl, Prog.bind_ok_iff.2 ⟨0, reserved, rfl,
      Prog.bind_ok_iff.2 ⟨(), reserved, rfl, Prog.bind_ok_iff.2 ⟨payload, reserved, rfl,
        Prog.bind_ok_iff.2 ⟨⟨key, key⟩, reserved, rfl,
        Prog.bind_ok_iff.2 ⟨message, reserved, Prog.lift_ok_iff.2 ⟨h, rfl⟩,
          Prog.bind_ok_iff.2 ⟨List.replicate 64 0, _, rfl, Prog.bind_ok_iff.2 ⟨(), _, rfl,
            Prog.lift_ok_iff.2 ⟨hmake, rfl⟩⟩⟩⟩⟩⟩⟩⟩⟩⟩⟩⟩

/-! ### Names of one letter -/

theorem length_signing_replicate (n : ℕ) :
    (utf8Raw (objectText (signedFields challenge (List.replicate n 97)))).length = n + 111 := by
  have hid : (utf8Raw (quote (List.replicate n 97))).length = n + 2 := by
    rw [length_quote_plain (by intro c hc; rw [List.eq_of_mem_replicate hc]; decide), List.length_replicate]
  have hchallenge : (utf8Raw (quote challenge)).length = 45 := length_quote_url key
  have hnames : (utf8Raw (quote (str "challenge"))).length = 11 ∧ (utf8Raw (quote (str "identity_id"))).length = 13 ∧
      (utf8Raw (quote (str "profile"))).length = 9 ∧ (utf8Raw (quote loginProfile)).length = 24 := by decide
  have hnil : (utf8Raw []).length = 0 := rfl
  simp only [objectText, signedFields, List.map_cons, List.map_nil, textMember, Json.text, Json.textMembers,
    length_utf8Raw_ascii_cons, length_utf8Raw_append, hid, hchallenge, hnames, hnil, Nat.reduceLT]
  omega

theorem signingBytes_replicate {n : ℕ} (h : n + 111 ≤ maxProofBytes) :
    signingBytes loginProfile challenge (List.replicate n 97) =
      .ok (utf8Raw (objectText (signedFields challenge (List.replicate n 97)))) := by
  have hid : (List.replicate n 97).all isScalar = true :=
    List.all_eq_true.2 fun c hc => by rw [List.eq_of_mem_replicate hc]; decide
  refine signingBytes_eq_ok.2 ⟨⟨url_scalar (base64UrlEncode_url _), hid⟩, ?_, rfl⟩
  rw [length_signing_replicate]
  exact h

end Handset

end DecentWallet.Kotlin
