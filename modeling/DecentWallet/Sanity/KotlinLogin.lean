import DecentWallet.Lib.JsonLength
import DecentWallet.Spec.KotlinLogin

/-! What `StrictWalletLoginJson` writes is the JSON text of an object with texts as values, and what it takes for
Base64 is the one encoding without padding of its bytes. -/

namespace DecentWallet.Kotlin

open WalletError

/-! ### Writing -/

theorem utf8Raw_append (s t : Str) : utf8Raw (s ++ t) = utf8Raw s ++ utf8Raw t := by simp [utf8Raw]

theorem utf8Raw_cons_ascii {c : ℕ} (h : c < 0x80) (s : Str) : utf8Raw (c :: s) = UInt8.ofNat c :: utf8Raw s := by
  simp [utf8Raw, encodePoint, h]

theorem strictUtf8_eq_ok {value : Str} {b : Bytes} :
    strictUtf8 value = .ok b ↔ value.all isScalar = true ∧ utf8Raw value = b := by
  rw [strictUtf8, orRaise_eq_ok, utf8_eq_some]

/-- The two-byte escapes, then `\u`, then the points that stand for themselves. -/
theorem writeChar_eq_ok {c : ℕ} {b : Bytes} :
    writeChar c = .ok b ↔ isScalar c = true ∧ utf8Raw (escapePoint c) = b := by
  have hscalar : c < 0xD800 → isScalar c = true := by
    intro h
    simp [isScalar, h]
  unfold writeChar escapePoint
  by_cases hlow : c < 32
  · have hhex : ∀ n < 16, hexDigit n < 0x80 := by decide
    have h1 := hhex (c / 16) (by omega)
    have h2 := hhex (c % 16) (by omega)
    simp only [hscalar (by omega), true_and]
    split_ifs <;> first
      | omega
      | simp [utf8Raw, encodePoint, h1, h2]
  · by_cases hsur : 0xD800 ≤ c ∧ c < 0xE000
    · have : isScalar c = false := by
        simp only [isScalar, Bool.or_eq_false_iff, decide_eq_false_iff_not, Bool.and_eq_false_iff]
        omega
      simp only [this, hsur, and_self, if_true]
      split_ifs <;> first
        | omega
        | simp
    · simp only [hlow, hsur, if_false]
      split_ifs <;> first
        | omega
        | (simp_all [utf8Raw, encodePoint, isScalar]; done)
        | simp [strictUtf8_eq_ok]

theorem writeChars_eq_ok {value : Str} {b : Bytes} :
    writeChars value = .ok b ↔ value.all isScalar = true ∧ utf8Raw (value.flatMap escapePoint) = b := by
  induction value generalizing b with
  | nil => simp [writeChars, utf8Raw]
  | cons c value ih =>
    simp only [writeChars, bind_eq_ok, writeChar_eq_ok, ih, pure_eq_ok, List.all_cons, Bool.and_eq_true,
      List.flatMap_cons, utf8Raw_append]
    refine ⟨fun h => ?_, fun h => ?_⟩
    · obtain ⟨first, ⟨hc, rfl⟩, rest, ⟨hall, rfl⟩, rfl⟩ := h
      exact ⟨⟨hc, hall⟩, rfl⟩
    · obtain ⟨⟨hc, hall⟩, rfl⟩ := h
      exact ⟨_, ⟨hc, rfl⟩, _, ⟨hall, rfl⟩, rfl⟩

theorem writeString_eq_ok {value : Str} {b : Bytes} :
    writeString value = .ok b ↔ value.all isScalar = true ∧ utf8Raw (quote value) = b := by
  have hquote : utf8Raw (quote value) = 34 :: (utf8Raw (value.flatMap escapePoint) ++ [34]) := by
    rw [quote, utf8Raw_cons_ascii (by decide), utf8Raw_append]
    rfl
  simp only [writeString, bind_eq_ok, writeChars_eq_ok, pure_eq_ok, hquote]
  refine ⟨fun h => ?_, fun h => ?_⟩
  · obtain ⟨chars, ⟨hall, rfl⟩, rfl⟩ := h
    exact ⟨hall, rfl⟩
  · obtain ⟨hall, rfl⟩ := h
    exact ⟨_, ⟨hall, rfl⟩, rfl⟩

/-- Both texts of a field are without surrogates. -/
def ScalarField (field : Str × Str) : Prop := field.1.all isScalar = true ∧ field.2.all isScalar = true

theorem writeField_eq_ok {field : Str × Str} {b : Bytes} :
    writeField field = .ok b ↔ ScalarField field ∧ utf8Raw (quote field.1 ++ 58 :: quote field.2) = b := by
  have hfield : utf8Raw (quote field.1 ++ 58 :: quote field.2) = utf8Raw (quote field.1) ++ 58 :: utf8Raw
    (quote field.2) := by
    rw [utf8Raw_append, utf8Raw_cons_ascii (by decide)]
    rfl
  simp only [writeField, bind_eq_ok, writeString_eq_ok, pure_eq_ok, hfield, ScalarField]
  refine ⟨fun h => ?_, fun h => ?_⟩
  · obtain ⟨key, ⟨hkey, rfl⟩, value, ⟨hvalue, rfl⟩, rfl⟩ := h
    exact ⟨⟨hkey, hvalue⟩, rfl⟩
  · obtain ⟨⟨hkey, hvalue⟩, rfl⟩ := h
    exact ⟨_, ⟨hkey, rfl⟩, _, ⟨hvalue, rfl⟩, rfl⟩

def textMember (field : Str × Str) : Str × Json := (field.1, .str field.2)

theorem writeFields_eq_ok {fields : List (Str × Str)} {b : Bytes} :
    writeFields fields = .ok b ↔
      (∀ f ∈ fields, ScalarField f) ∧ utf8Raw (Json.textMembers (fields.map textMember)) = b := by
  induction fields generalizing b with
  | nil => simp [writeFields, Json.textMembers, utf8Raw, encodePoint]
  | cons f fields ih =>
    have htext : utf8Raw (Json.textMembers ((f :: fields).map textMember)) =
        44 :: (utf8Raw (quote f.1 ++ 58 :: quote f.2) ++ utf8Raw (Json.textMembers (fields.map textMember))) := by
      rw [List.map_cons, textMember, Json.textMembers, utf8Raw_cons_ascii (by decide), Json.text, ← utf8Raw_append]
      simp
    simp only [writeFields, bind_eq_ok, writeField_eq_ok, ih, pure_eq_ok, htext, List.forall_mem_cons]
    refine ⟨fun h => ?_, fun h => ?_⟩
    · obtain ⟨first, ⟨hf, rfl⟩, rest, ⟨hall, rfl⟩, rfl⟩ := h
      exact ⟨⟨hf, hall⟩, rfl⟩
    · obtain ⟨⟨hf, hall⟩, rfl⟩ := h
      exact ⟨_, ⟨hf, rfl⟩, _, ⟨hall, rfl⟩, rfl⟩

/-- The text of an object with texts as values. -/
def objectText (fields : List (Str × Str)) : Str := (Json.obj (fields.map textMember)).text

theorem writeObject_eq_ok {field : Str × Str} {fields : List (Str × Str)} {b : Bytes} :
    writeObject field fields = .ok b ↔
      (∀ f ∈ field :: fields, ScalarField f) ∧ utf8Raw (objectText (field :: fields)) = b := by
  have htext : utf8Raw (objectText (field :: fields)) =
      123 :: (utf8Raw (quote field.1 ++ 58 :: quote field.2) ++ utf8Raw
      (Json.textMembers (fields.map textMember))) := by
    rw [objectText, List.map_cons, textMember, Json.text, utf8Raw_cons_ascii (by decide), Json.text, ← utf8Raw_append]
    simp
  simp only [writeObject, bind_eq_ok, writeField_eq_ok, writeFields_eq_ok, pure_eq_ok, htext, List.forall_mem_cons]
  refine ⟨fun h => ?_, fun h => ?_⟩
  · obtain ⟨first, ⟨hf, rfl⟩, rest, ⟨hall, rfl⟩, rfl⟩ := h
    exact ⟨⟨hf, hall⟩, rfl⟩
  · obtain ⟨⟨hf, hall⟩, rfl⟩ := h
    exact ⟨_, ⟨hf, rfl⟩, _, ⟨hall, rfl⟩, rfl⟩

theorem utf8_objectText {fields : List (Str × Str)} (h : ∀ f ∈ fields, ScalarField f) :
    utf8 (objectText fields) = some (utf8Raw (objectText fields)) := by
  cases fields with
  | nil => exact utf8_of_scalars (.of_lt (by decide))
  | cons f fields =>
    rw [List.forall_mem_cons] at h
    have hrest : ∀ fields : List (Str × Str), (∀ f ∈ fields, ScalarField f) →
        Scalars (Json.textMembers (fields.map textMember)) := by
      intro fields
      induction fields with
      | nil => exact fun _ => .of_lt (by decide)
      | cons g fields ih =>
        intro hg
        rw [List.forall_mem_cons] at hg
        exact .cons (by decide) ((scalars_quote (List.all_eq_true.1 hg.1.1)).append (.cons (by decide)
          ((scalars_quote (List.all_eq_true.1 hg.1.2)).append (ih hg.2))))
    exact utf8_of_scalars (.cons (by decide) ((scalars_quote (List.all_eq_true.1 h.1.1)).append (.cons (by decide)
      ((scalars_quote (List.all_eq_true.1 h.1.2)).append (hrest fields h.2)))))

theorem requireProofBytes_eq_ok {b c : Bytes} :
    requireProofBytes b = .ok c ↔ b.length ≤ maxProofBytes ∧ b = c := by
  simp only [requireProofBytes, bind_eq_ok, reject_eq_ok, pure_eq_ok, exists_const, not_lt]

/-- The fields that are signed, and those of the proof, in the order of their texts. -/
def signedFields (challenge identityId : Str) : List (Str × Str) :=
  [(str "challenge", challenge), (str "identity_id", identityId), (str "profile", loginProfile)]

def proofFields (challenge identityId signature : Str) : List (Str × Str) :=
  [(str "profile", loginProfile), (str "challenge", challenge), (str "identity_id", identityId),
    (str "signature", signature)]

/-- The texts that the code itself puts into a proof. -/
theorem scalar_names : (str "challenge").all isScalar = true ∧ (str "identity_id").all isScalar = true ∧
    (str "profile").all isScalar = true ∧ (str "signature").all isScalar = true ∧ loginProfile.all isScalar = true := by
  decide

theorem signingBytes_eq_ok {challenge identityId : Str} {b : Bytes} :
    signingBytes loginProfile challenge identityId = .ok b ↔
      (challenge.all isScalar = true ∧ identityId.all isScalar = true) ∧ b.length ≤ maxProofBytes ∧
        utf8Raw (objectText (signedFields challenge identityId)) = b := by
  simp only [signingBytes, ne_eq, not_true_eq_false, bind_eq_ok, reject_eq_ok, not_false_eq_true, true_and,
    exists_const, writeObject_eq_ok, requireProofBytes_eq_ok, List.forall_mem_cons, ScalarField, scalar_names, and_true,
    List.not_mem_nil, false_imp_iff, implies_true]
  refine ⟨fun h => ?_, fun h => ?_⟩
  · obtain ⟨_, ⟨hs, rfl⟩, hlen, rfl⟩ := h
    exact ⟨hs, hlen, rfl⟩
  · obtain ⟨hs, hlen, rfl⟩ := h
    exact ⟨_, ⟨hs, rfl⟩, hlen, rfl⟩

/-! ### Base64 -/

theorem parseBase64Url_eq_ok {value : Str} {n : ℕ} {b : Bytes} (hn : 0 < n) :
    parseBase64Url value n = .ok b ↔ b.length = n ∧ base64UrlEncode b = value := by
  simp only [parseBase64Url, bind_eq_ok, reject_eq_ok, orRaise_eq_ok, pure_eq_ok, exists_const, not_or, not_not,
    ne_eq, Bool.not_eq_false]
  refine ⟨fun h => ?_, fun h => ?_⟩
  · obtain ⟨-, decoded, -, h, rfl⟩ := h
    exact h
  · obtain ⟨rfl, rfl⟩ := h
    have hurl := base64UrlEncode_url b
    refine ⟨⟨?_, ?_, hurl⟩, b, base64UrlDecode_encode b, ⟨rfl, rfl⟩, rfl⟩
    · rw [← List.length_eq_zero_iff, length_base64UrlEncode]
      omega
    · intro hpad
      exact absurd (List.all_eq_true.1 hurl _ hpad) (by decide)

theorem validateFields_eq_ok {profile challenge identityId signature : Str} :
    validateFields profile challenge identityId signature = .ok () ↔ profile = loginProfile ∧
      (∃ b : Bytes, b.length = challengeBytes ∧ base64UrlEncode b = challenge) ∧
      (∃ b : Bytes, b.length = signatureBytes ∧ base64UrlEncode b = signature) ∧ identityId.all isScalar = true := by
  simp only [validateFields, bind_eq_ok, reject_eq_ok, not_not, ne_eq,
    parseBase64Url_eq_ok (show 0 < challengeBytes by decide), parseBase64Url_eq_ok (show 0 < signatureBytes by decide),
    strictUtf8_eq_ok, pure_eq_ok, exists_const]
  refine ⟨fun h => ?_, fun h => ?_⟩
  · obtain ⟨hp, c, hc, s, hs, _, ⟨hid, -⟩, -⟩ := h
    exact ⟨hp, ⟨c, hc⟩, ⟨s, hs⟩, hid⟩
  · obtain ⟨hp, ⟨c, hc⟩, ⟨s, hs⟩, hid⟩ := h
    exact ⟨hp, c, hc, s, hs, _, ⟨hid, rfl⟩, trivial⟩

theorem WalletLoginProofRequest.make_eq_ok {profile challenge identityId signature : Str}
    {r : WalletLoginProofRequest} : WalletLoginProofRequest.make profile challenge identityId signature = .ok r ↔
      r.profile = profile ∧ r.challenge = challenge ∧ r.identityId = identityId ∧ r.signature = signature := by
  unfold make
  refine ⟨fun h => ?_, fun h => ?_⟩
  · split at h
    · cases h
      exact ⟨rfl, rfl, rfl, rfl⟩
    · cases h
  · obtain ⟨rfl, rfl, rfl, rfl⟩ := h
    split
    · rfl
    · rename_i e he
      exact absurd (he.symm.trans r.ok) (by simp)

/-! ### Lengths -/

theorem url_plain {s : Str} (h : s.all isUrlChar = true) : ∀ c ∈ s, 34 < c ∧ c < 0x80 ∧ c ≠ 92 := by
  intro c hc
  have := List.all_eq_true.1 h c hc
  simp only [isUrlChar, Bool.or_eq_true, Bool.and_eq_true, decide_eq_true_eq] at this
  omega

theorem url_scalar {s : Str} (h : s.all isUrlChar = true) : s.all isScalar = true := by
  rw [List.all_eq_true]
  intro c hc
  have := url_plain h c hc
  simp only [isScalar, Bool.or_eq_true, decide_eq_true_eq]
  omega

theorem length_quote_url (b : Bytes) :
    (utf8Raw (quote (base64UrlEncode b))).length = (b.length * 4 + 2) / 3 + 2 := by
  rw [length_quote_plain (url_plain (base64UrlEncode_url b)), length_base64UrlEncode]

theorem length_utf8Raw_ascii_cons {c : ℕ} (h : c < 0x80) (s : Str) :
    (utf8Raw (c :: s)).length = (utf8Raw s).length + 1 := by
  rw [utf8Raw_cons_ascii h, List.length_cons]

/-- The signature, its name and what is around them take 101 bytes. -/
theorem length_proofFields {challenge identityId signature : Str} {b : Bytes} (h : b.length = signatureBytes)
    (hb : base64UrlEncode b = signature) : (utf8Raw (objectText (proofFields challenge identityId signature))).length =
      (utf8Raw (objectText (signedFields challenge identityId))).length + 101 := by
  have hsignature := length_quote_url b
  rw [h, hb] at hsignature
  have hname : (utf8Raw (quote (str "signature"))).length = 11 := by decide
  have hnil : (utf8Raw []).length = 0 := rfl
  simp only [objectText, proofFields, signedFields, List.map_cons, List.map_nil, textMember, Json.text,
    Json.textMembers, length_utf8Raw_ascii_cons, length_utf8Raw_append, hsignature, hname, hnil, signatureBytes,
    Nat.reduceLT]
  omega

end DecentWallet.Kotlin
