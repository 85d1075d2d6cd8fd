import DecentWallet.Lib.JsonText
import DecentWallet.Sanity.KotlinWallet

/-! A login proof that a session returns, written as JSON and parsed again. The text that is signed and the text of the
proof have the same limit, although the proof is longer by its signature; a proof whose text is within the limit is
read back. -/

namespace DecentWallet.Kotlin

open WalletError

variable {σ : Type} {A : Android σ} {i : ℕ}

/-! ### What a session returns -/

theorem createWalletLoginProofRequest_ok {consent : Str → Str → Act σ Bool} {challenge identityId : Str} {expiresAt : ℤ}
    {p p' : Phone σ} {r : WalletLoginProofRequest}
    (h : createWalletLoginProofRequest A i consent challenge identityId expiresAt p = (.ok r, p')) :
    r.profile = loginProfile ∧ r.challenge = challenge ∧ r.identityId = identityId ∧
      ∃ message, signingBytes loginProfile challenge identityId = .ok message := by
  unfold createWalletLoginProofRequest at h
  obtain ⟨_, _, -, h⟩ := Prog.bind_ok_iff.1 h
  obtain ⟨_, _, -, h⟩ := Prog.bind_ok_iff.1 h
  rcases Prog.tryCatch_ok_iff.1 h with h | ⟨e, _, -, h⟩
  · obtain ⟨_, _, -, h⟩ := Prog.bind_ok_iff.1 h
    obtain ⟨_, _, -, h⟩ := Prog.bind_ok_iff.1 h
    exact signUnderLock_ok h
  · obtain ⟨_, _, -, h⟩ := Prog.bind_ok_iff.1 h
    cases h

/-! ### Reading a proof back -/

theorem proofFields_scalar (r : WalletLoginProofRequest) :
    ∀ f ∈ proofFields r.challenge r.identityId r.signature, ScalarField f := by
  obtain ⟨-, ⟨c, -, hc⟩, ⟨s, -, hs⟩, hid⟩ := validateFields_eq_ok.1 r.ok
  have hchallenge := url_scalar (hc ▸ base64UrlEncode_url c)
  have hsignature := url_scalar (hs ▸ base64UrlEncode_url s)
  simp only [proofFields, List.forall_mem_cons, ScalarField, scalar_names, hchallenge, hsignature, hid,
    List.not_mem_nil, false_imp_iff, implies_true, and_self]

theorem length_proof (r : WalletLoginProofRequest) :
    (utf8Raw (objectText (proofFields r.challenge r.identityId r.signature))).length =
      (utf8Raw (objectText (signedFields r.challenge r.identityId))).length + 101 := by
  obtain ⟨-, -, ⟨s, hlen, hs⟩, -⟩ := validateFields_eq_ok.1 r.ok
  exact length_proofFields hlen hs

theorem toJsonBytes_eq_ok {r : WalletLoginProofRequest} {b : Bytes} :
    r.toJsonBytes = .ok b ↔ b.length ≤ maxProofBytes ∧
      utf8Raw (objectText (proofFields r.challenge r.identityId r.signature)) = b := by
  have hprofile := (validateFields_eq_ok.1 r.ok).1
  have hlen := length_proof r
  have hwrite : ∀ b, writeObject (str "profile", r.profile) [(str "challenge", r.challenge),
      (str "identity_id", r.identityId), (str "signature", r.signature)] = .ok b ↔
        utf8Raw (objectText (proofFields r.challenge r.identityId r.signature)) = b := by
    intro b
    rw [writeObject_eq_ok, hprofile]
    exact and_iff_right (proofFields_scalar r)
  have hscalar := proofFields_scalar r
  simp only [proofFields, List.forall_mem_cons, ScalarField] at hscalar
  simp only [WalletLoginProofRequest.toJsonBytes, bind_eq_ok, hwrite, requireProofBytes_eq_ok]
  refine ⟨fun h => ?_, fun h => ?_⟩
  · obtain ⟨_, -, _, -, _, rfl, hb, rfl⟩ := h
    exact ⟨hb, rfl⟩
  · obtain ⟨hb, rfl⟩ := h
    have hsigning : signingBytes r.profile r.challenge r.identityId =
        .ok (utf8Raw (objectText (signedFields r.challenge r.identityId))) := by
      rw [hprofile]
      exact signingBytes_eq_ok.2 ⟨⟨hscalar.2.1.2, hscalar.2.2.1.2⟩, by omega, rfl⟩
    exact ⟨(), r.ok, _, hsigning, _, rfl, hb, rfl⟩

theorem parseMembers_proofFields (challenge identityId signature : Str) :
    parseMembers (memberTokens (proofFields challenge identityId signature) ++ [.endObject]) {} =
      .ok (⟨some loginProfile, some challenge, some identityId, some signature⟩, []) := by
  have hnames : str "challenge" ≠ str "profile" ∧ str "identity_id" ≠ str "profile" ∧
      str "identity_id" ≠ str "challenge" ∧ str "signature" ≠ str "profile" ∧ str "signature" ≠ str "challenge" ∧
      str "signature" ≠ str "identity_id" := by decide
  simp [proofFields, memberTokens, parseMembers, ProofVariables.assign, hnames, reject, bind, Except.bind, pure,
    Except.pure]

theorem parse_toJsonBytes {J : JsonParser} (hJ : J.Correct) {r : WalletLoginProofRequest} {b : Bytes}
    (h : r.toJsonBytes = .ok b) : WalletLoginProofRequest.parse J b = .ok r := by
  obtain ⟨hlen, rfl⟩ := toJsonBytes_eq_ok.1 h
  have hfields := length_proof r
  have hnodup : ((proofFields r.challenge r.identityId r.signature).map Prod.fst).Nodup := by
    simp only [proofFields, List.map_cons, List.map_nil]
    decide
  have htokens := hJ _ _ hnodup (utf8_objectText (proofFields_scalar r)) hlen
  have hprofile := (validateFields_eq_ok.1 r.ok).1
  have hparse : parseProof (J (utf8Raw (objectText (proofFields r.challenge r.identityId r.signature)))) = .ok r := by
    rw [htokens]
    simp only [parseProof, parseMembers_proofFields, bind_eq_ok, Except.ok.injEq, reject_eq_ok, orRaise_eq_ok]
    exact ⟨_, rfl, (), by simp, _, rfl, _, rfl, _, rfl, _, rfl, (), hprofile ▸ r.ok,
      WalletLoginProofRequest.make_eq_ok.2 ⟨hprofile, rfl, rfl, rfl⟩⟩
  rw [WalletLoginProofRequest.parse, hparse]
  refine bind_eq_ok.2 ⟨(), reject_eq_ok.2 ?_, rfl⟩
  rw [not_or, not_lt, ← List.length_eq_zero_iff]
  refine ⟨by omega, hlen⟩

/-- A returned proof can be written and read back exactly if its signed text leaves room for the signature. -/
theorem login_proof_usable_iff {J : JsonParser} (hJ : J.Correct) (A : Android σ) (i : ℕ)
    (consent : Str → Str → Act σ Bool) (challenge identityId : Str) (expiresAt : ℤ) (p p' : Phone σ)
    (r : WalletLoginProofRequest)
    (h : createWalletLoginProofRequest A i consent challenge identityId expiresAt p = (.ok r, p')) :
    (∃ b, r.toJsonBytes = .ok b ∧ WalletLoginProofRequest.parse J b = .ok r) ↔
      ∃ message, signingBytes loginProfile challenge identityId = .ok message ∧
      message.length + 101 ≤ maxProofBytes := by
  obtain ⟨-, rfl, rfl, message, hmessage⟩ := createWalletLoginProofRequest_ok h
  have hlen := length_proof r
  obtain ⟨-, -, hbytes⟩ := signingBytes_eq_ok.1 hmessage
  rw [hbytes] at hlen
  refine ⟨fun h => ?_, fun h => ?_⟩
  · obtain ⟨b, hb, -⟩ := h
    obtain ⟨hmax, rfl⟩ := toJsonBytes_eq_ok.1 hb
    exact ⟨message, hmessage, by omega⟩
  · obtain ⟨m, hm, hmax⟩ := h
    cases hm.symm.trans hmessage
    have hwritten := (toJsonBytes_eq_ok (r := r)).2 ⟨by omega, rfl⟩
    exact ⟨_, hwritten, parse_toJsonBytes hJ hwritten⟩

namespace Handset

/-! ### A parser of texts -/

def asText : Str × Json → Option (Str × Str)
  | (k, .str s) => some (k, s)
  | _ => none

def readFloat : Str → JsonFloat := fun s => ⟨s, true, none⟩

/-- The members of an object with texts as values. -/
def readTexts : Str → Option (List (Str × Str))
  | [123, 125] => some []
  | 123 :: r => do
    let (members, rest) ← readMembers readFloat (2 * r.length) r
    if rest = [] then members.mapM asText else none
  | _ => none

def jsonParser : JsonParser := fun b =>
  match (utf8Decode b).bind readTexts with
  | some members => ⟨.startObject :: (memberTokens members ++ [.endObject]), false⟩
  | none => ⟨[], true⟩

theorem mapM_asText (fields : List (Str × Str)) : (fields.map textMember).mapM asText = some fields := by
  induction fields with
  | nil => rfl
  | cons f fields ih => simp [textMember, asText, ih]

theorem legibleMembers_text (fields : List (Str × Str)) : Json.LegibleMembers readFloat (fields.map textMember) := by
  induction fields with
  | nil => trivial
  | cons f fields ih => exact ⟨trivial, ih⟩

theorem readTexts_objectText (fields : List (Str × Str)) : readTexts (objectText fields) = some fields := by
  cases fields with
  | nil => rfl
  | cons f fields =>
    have hread := Json.readMembers_text readFloat (fields.map textMember) f.1 (.str f.2)
      (2 * (quote f.1 ++ 58 :: (quote f.2 ++ Json.textMembers (fields.map textMember))).length) [] trivial
      (legibleMembers_text fields) follow_nil
      (fun n r hr hn => Json.readJson_text readFloat (.str f.2) n r trivial hr hn)
      (by simp only [Json.text, List.length_append, List.length_cons]; omega)
    simp only [List.append_nil, Json.text] at hread
    have hquote : quote f.1 ++ 58 :: (quote f.2 ++ Json.textMembers (fields.map textMember)) ≠ [125] := by
      simp [quote]
    rw [objectText, List.map_cons, textMember, Json.text, Json.text, readTexts.eq_2 _ (by simpa using hquote), hread]
    exact mapM_asText (f :: fields)

theorem jsonParser_correct : JsonParser.Correct jsonParser := by
  intro members b _ hb _
  have hread : (utf8Decode b).bind readTexts = some members := by
    rw [utf8Decode_utf8 hb]
    exact readTexts_objectText members
  unfold jsonParser
  rw [hread]

/-! ### A session with a long name -/

theorem createWalletLoginProofRequest_run {identityId : Str} {message : Bytes}
    (h : signingBytes loginProfile challenge identityId = .ok message) :
    ∃ r p', createWalletLoginProofRequest android 0 (fun _ _ => pure true) challenge identityId 1 phone =
      (.ok r, p') := by
  obtain ⟨proof, p', hsign⟩ := signUnderLock_run h
  exact ⟨proof, p', Prog.bind_ok_iff.2 ⟨challenge, phone, loginChallengeKey_run h, Prog.bind_ok_iff.2 ⟨(), reserved,
    reserveChallengeKey_run, Prog.tryCatch_ok_iff.2 (.inl hsign)⟩⟩⟩

end Handset

/-- A name of 5 characters leaves room. -/
theorem login_proof_usable_short : JsonParser.Correct Handset.jsonParser ∧ ∃ r p',
    createWalletLoginProofRequest Handset.android 0 (fun _ _ => pure true) Handset.challenge (List.replicate 5 97) 1
        Handset.phone = (.ok r, p') ∧
      ∃ b, r.toJsonBytes = .ok b ∧ WalletLoginProofRequest.parse Handset.jsonParser b = .ok r := by
  have hmessage := Handset.signingBytes_replicate (n := 5) (by decide)
  obtain ⟨r, p', h⟩ := Handset.createWalletLoginProofRequest_run hmessage
  refine ⟨Handset.jsonParser_correct, r, p', h, ?_⟩
  refine (login_proof_usable_iff Handset.jsonParser_correct _ _ _ _ _ _ _ _ _ h).2 ⟨_, hmessage, ?_⟩
  rw [Handset.length_signing_replicate]
  decide

/-- With a name of 8000 characters the session returns a proof, and the proof cannot be written. -/
theorem login_proof_too_long : ∃ r p',
    createWalletLoginProofRequest Handset.android 0 (fun _ _ => pure true) Handset.challenge (List.replicate 8000 97) 1
        Handset.phone = (.ok r, p') ∧ ∀ b, r.toJsonBytes ≠ .ok b := by
  obtain ⟨r, p', h⟩ := Handset.createWalletLoginProofRequest_run
    (Handset.signingBytes_replicate (n := 8000) (by decide))
  refine ⟨r, p', h, fun b hb => ?_⟩
  obtain ⟨-, hc, hid, -⟩ := createWalletLoginProofRequest_ok h
  obtain ⟨hmax, rfl⟩ := toJsonBytes_eq_ok.1 hb
  have hlen := length_proof r
  rw [hc, hid, Handset.length_signing_replicate] at hlen
  rw [hc, hid, hlen] at hmax
  exact absurd hmax (by decide)

end DecentWallet.Kotlin
