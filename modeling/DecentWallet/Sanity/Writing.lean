import DecentWallet.Lib.JsonSize
import DecentWallet.Sanity.Opening

/-! What can be written: every payload of scalar texts is encoded, sealed and stored, and `create` returns for it
where the libraries and the file system do their part. -/

namespace DecentWallet

open Raised Prog

variable {σ : Type} {C : Crypto} {M : Machine σ}

/-! ### Payloads -/

namespace PayloadValue

mutual

/-- Built from `None`, booleans, integers, bytes, lists, `dict`s and texts without surrogates, and not nested deeper
than there is room for. -/
def writable : PayloadValue → ℕ → Bool
  | _, 0 => false
  | .str s, _ + 1 => s.all isScalar
  | .list l, room + 1 => writableItems l room
  | .map m, room + 1 => writableMembers m room
  | .other, _ + 1 => false
  | _, _ + 1 => true

def writableItems : List PayloadValue → ℕ → Bool
  | [], _ => true
  | v :: l, room => writable v room && writableItems l room

def writableMembers : List (Str × PayloadValue) → ℕ → Bool
  | [], _ => true
  | (k, v) :: m, room => k.all isScalar && writable v room && writableMembers m room

end

end PayloadValue

theorem Scalars.of_all {s : Str} (h : s.all isScalar = true) : Scalars s := List.all_eq_true.1 h

theorem scalars_str (k : String) : Scalars (str k) := by
  intro n hn
  obtain ⟨c, -, rfl⟩ := List.mem_map.1 hn
  simp only [isScalar, Bool.or_eq_true, Bool.and_eq_true, decide_eq_true_eq]
  rcases c.valid with h | ⟨h1, h2⟩
  · exact .inl h
  · exact .inr ⟨h1, h2⟩

theorem scalars_tagged (kind : String) {v : Json} (hv : ∀ s ∈ v.strings, Scalars s) :
    ∀ s ∈ (tagged kind v).strings, Scalars s := by
  simpa [tagged, Json.strings, Json.stringsMembers, scalars_str] using hv

mutual

theorem encodeValue_ok : ∀ {v : PayloadValue} {room : ℕ}, v.writable room = true →
    ∃ j, encodeValue v room = .ok j ∧ ∀ s ∈ j.strings, Scalars s
  | _, 0, h => by simp [PayloadValue.writable] at h
  | .none, _ + 1, _ => ⟨_, rfl, by simp [Json.strings, Json.stringsMembers, scalars_str]⟩
  | .bool _, _ + 1, _ => ⟨_, rfl, scalars_tagged _ (by simp [Json.strings])⟩
  | .str _, _ + 1, h => ⟨_, rfl, scalars_tagged _ (by simpa [Json.strings] using Scalars.of_all h)⟩
  | .int _, _ + 1, _ => ⟨_, rfl, scalars_tagged _ (by simp [Json.strings])⟩
  | .bytes b, _ + 1, _ => ⟨_, rfl, scalars_tagged _ (by simpa [Json.strings] using scalars_base64 b)⟩
  | .list _, _ + 1, h => by
    obtain ⟨js, hjs, hs⟩ := encodeItems_ok h
    exact ⟨_, by rw [encodeValue, hjs]; rfl, scalars_tagged _ (by rwa [Json.strings])⟩
  | .map _, _ + 1, h => by
    obtain ⟨js, hjs, hs⟩ := encodeMembers_ok h
    exact ⟨_, by rw [encodeValue, hjs]; rfl, scalars_tagged _ (by rwa [Json.strings])⟩
  | .other, _ + 1, h => by simp [PayloadValue.writable] at h

theorem encodeItems_ok : ∀ {l : List PayloadValue} {room : ℕ}, PayloadValue.writableItems l room = true →
    ∃ js, encodeItems l room = .ok js ∧ ∀ s ∈ Json.stringsItems js, Scalars s
  | [], _, _ => ⟨[], rfl, by simp [Json.stringsItems]⟩
  | v :: l, _, h => by
    simp only [PayloadValue.writableItems, Bool.and_eq_true] at h
    obtain ⟨j, hj, hs⟩ := encodeValue_ok h.1
    obtain ⟨js, hjs, hss⟩ := encodeItems_ok h.2
    refine ⟨j :: js, by rw [encodeItems, hj, hjs]; rfl, fun s hmem => ?_⟩
    rw [Json.stringsItems, List.mem_append] at hmem
    exact hmem.elim (hs s) (hss s)

theorem encodeMembers_ok : ∀ {m : List (Str × PayloadValue)} {room : ℕ}, PayloadValue.writableMembers m room = true →
    ∃ js, encodeMembers m room = .ok js ∧ ∀ s ∈ Json.stringsItems js, Scalars s
  | [], _, _ => ⟨[], rfl, by simp [Json.stringsItems]⟩
  | (k, v) :: m, _, h => by
    simp only [PayloadValue.writableMembers, Bool.and_eq_true] at h
    obtain ⟨j, hj, hs⟩ := encodeValue_ok h.1.2
    obtain ⟨js, hjs, hss⟩ := encodeMembers_ok h.2
    refine ⟨.arr [.str k, j] :: js, by rw [encodeMembers, hj, hjs]; rfl, fun s hmem => ?_⟩
    simp only [Json.stringsItems, Json.strings, List.append_nil, List.mem_append, List.mem_singleton] at hmem
    rcases hmem with (rfl | hmem) | hmem
    · exact .of_all h.1.1
    · exact hs s hmem
    · exact hss s hmem

end

theorem encodePayload_ok {p : Payload} (h : (PayloadValue.map p.entries).writable C.room = true)
    (hlimit : ∀ v, C.dumpsLimit v = none) : ∃ encoded, encodePayload C p = .ok encoded := by
  obtain ⟨j, hj, hs⟩ := encodeValue_ok h
  obtain ⟨encoded, hdumps, -⟩ := Json.dumps_of_scalars (canonical_encodeValue hj) hs
  exact ⟨encoded, encodePayload_eq_ok.2 ⟨j, hj, hlimit j, hdumps⟩⟩

/-! ### Containers -/

/-- No surrogate in the texts of a box. -/
structure SealedBox.Plain (b : SealedBox) : Prop where
  nonce : Scalars b.nonce
  ciphertext : Scalars b.ciphertext
  tag : Scalars b.tag

theorem sealBox_plain {key nonce aad plaintext : Bytes} {b : SealedBox}
    (h : sealBox C key nonce aad plaintext = .ok b) : b.Plain := by
  obtain ⟨c, t, -, rfl⟩ := sealBox_eq_ok h
  exact ⟨scalars_base64 _, scalars_base64 _, scalars_base64 _⟩

theorem scalars_box {b : SealedBox} (h : b.Plain) : ∀ s ∈ b.toJson.strings, Scalars s := by
  simp [SealedBox.toJson, Json.strings, Json.stringsMembers, scalars_str, aeadAlgorithm, h.nonce, h.ciphertext, h.tag]

theorem scalars_kdfHeader (salt : Bytes) : ∀ s ∈ (kdfHeader salt).toJson.strings, Scalars s := by
  simp [KdfHeader.toJson, kdfHeader, Json.strings, Json.stringsMembers, scalars_str, scalars_base64]

theorem wrapAad_ok (salt : Bytes) (v : ℤ) : ∃ aad, wrapAad (kdfHeader salt) v = .ok aad := by
  have hkeys : ([str "format", str "kdf", str "version"] : List Str).Pairwise (· < ·) := by decide
  obtain ⟨aad, hdumps, -⟩ := Json.dumps_of_scalars (v := .obj [(str "format", .str (str "decent-wallet")),
    (str "kdf", (kdfHeader salt).toJson), (str "version", .int v)])
    (by simp [Json.canonical, Json.canonicalMembers, hkeys, canonical_kdfHeader])
    (by simpa [Json.strings, Json.stringsMembers, scalars_str, or_imp, forall_and] using scalars_kdfHeader salt)
  exact ⟨aad, orRaise_eq_ok.2 hdumps⟩

theorem payloadAad_ok {b : SealedBox} (hb : Scalars b.nonce) (v : ℤ) : ∃ aad, payloadAad b v = .ok aad := by
  have hkeys : ([str "format", str "payload", str "version"] : List Str).Pairwise (· < ·) := by decide
  have hinfo : ([str "algorithm", str "nonce"] : List Str).Pairwise (· < ·) := by decide
  obtain ⟨aad, hdumps, -⟩ := Json.dumps_of_scalars (v := .obj [(str "format", .str (str "decent-wallet")),
    (str "payload", b.info), (str "version", .int v)])
    (by simp [SealedBox.info, Json.canonical, Json.canonicalMembers, hkeys, hinfo])
    (by simp [SealedBox.info, Json.strings, Json.stringsMembers, scalars_str, aeadAlgorithm, hb])
  exact ⟨aad, orRaise_eq_ok.2 hdumps⟩

/-- A container of plain boxes is serialised. -/
theorem serialize_ok {c : Container} {salt : Bytes} (hk : c.kdf = kdfHeader salt) (hw : c.wrap.Plain)
    (hp : c.payload.Plain) : ∃ data, serialize c = .ok data := by
  obtain ⟨data, hdumps, -⟩ := Json.dumps_of_scalars (v := c.toJson) (canonical_container hk) (by
    have hkdf := scalars_kdfHeader salt
    have hwrap := scalars_box hw
    have hpayload := scalars_box hp
    simp only [Container.toJson, Json.strings, Json.stringsMembers, hk, List.mem_cons, List.mem_append, List.nil_append,
      List.not_mem_nil, or_false]
    rintro s (rfl | rfl | rfl | h | rfl | h | rfl | rfl | h)
    all_goals first | exact scalars_str _ | exact hkdf _ h | exact hpayload _ h | exact hwrap _ h)
  exact ⟨data, orRaise_eq_ok.2 hdumps⟩

/-! ### Creating -/

/-- The key derivation and the cipher return. -/
structure Crypto.Total (C : Crypto) : Prop where
  argon2id : ∀ secret salt, C.argon2id secret salt ≠ none
  encrypt : ∀ key nonce aad plaintext, C.encrypt key nonce aad plaintext ≠ none

theorem sealBox_total (hC : C.Total) (key nonce aad plaintext : Bytes) :
    ∃ b, sealBox C key nonce aad plaintext = .ok b := by
  obtain ⟨c, hc⟩ := Option.ne_none_iff_exists'.1 (hC.encrypt key nonce aad plaintext)
  exact ⟨_, by rw [sealBox, hc]; rfl⟩

theorem deriveKek_total (hC : C.Total) {password : Str} (hp : Scalars password) (salt : Bytes) :
    ∃ kek, deriveKek C password salt = .ok kek := by
  obtain ⟨kek, hkek⟩ := Option.ne_none_iff_exists'.1 (hC.argon2id (utf8Raw password) salt)
  exact ⟨kek, by rw [deriveKek, utf8_of_scalars hp, Option.bind_some, hkek]; rfl⟩

theorem makePayload_total (hC : C.Total) {p : Payload} {encoded : Bytes} (he : encodePayload C p = .ok encoded)
    (dek : Bytes) (h : Host σ) : ∃ box h', makePayload C M dek p h = (.ok box, h') ∧ box.Plain ∧ h'.disk = h.disk := by
  have hnonce := scalars_base64 (M.tokenBytes nonceLength h.world.state).1.1
  obtain ⟨aad, haad⟩ := payloadAad_ok (b := ⟨base64Encode (M.tokenBytes nonceLength h.world.state).1.1, [], []⟩) hnonce
    currentFormatVersion
  obtain ⟨box, hbox⟩ := sealBox_total hC dek (M.tokenBytes nonceLength h.world.state).1.1 aad encoded
  refine ⟨box, h.setState (M.tokenBytes nonceLength h.world.state).2, ?_, sealBox_plain hbox, rfl⟩
  simp only [makePayload, bind_ok_iff, lift_ok_iff]
  exact ⟨encoded, h, ⟨he, rfl⟩, _, _, rfl, by rw [sealPayload, haad]; exact hbox, rfl⟩

theorem buildV2Envelope_total (hC : C.Total) {password : Str} (hp : Scalars password) {p : Payload} {encoded : Bytes}
    (he : encodePayload C p = .ok encoded) (dek : Bytes) {salt : Bytes} (hsalt : salt.length = saltLength)
    (h : Host σ) :
    ∃ c h', buildV2Envelope C M password dek (kdfHeader salt) p h = (.ok c, h') ∧ c.kdf = kdfHeader salt ∧
      c.wrap.Plain ∧ c.payload.Plain ∧ h'.disk = h.disk := by
  obtain ⟨kek, hkek⟩ := deriveKek_total hC hp salt
  obtain ⟨aad, haad⟩ := wrapAad_ok salt currentFormatVersion
  obtain ⟨wrap, hwrap⟩ := sealBox_total hC kek (M.tokenBytes nonceLength h.world.state).1.1 aad dek
  obtain ⟨box, h', hbox, hplain, hdisk⟩ := makePayload_total (M := M) hC he dek
    (h.setState (M.tokenBytes nonceLength h.world.state).2)
  refine ⟨⟨currentFormatVersion, kdfHeader salt, wrap, box⟩, h', ?_, rfl, sealBox_plain hwrap, hplain, hdisk⟩
  simp only [buildV2Envelope, bind_ok_iff, lift_ok_iff, pure_ok_iff]
  exact ⟨salt, h, ⟨b64Decode_encode_length hsalt, rfl⟩, kek, h, ⟨hkek, rfl⟩, _, _, rfl, wrap, _,
    ⟨by rw [wrapDek, haad]; exact hwrap, rfl⟩, box, h', hbox, rfl, rfl⟩

/-- `create` returns for every payload that can be encoded. -/
theorem createStorage_total (hC : C.Total) (hM : M.Working) {path : Path} {password confirmation : Str} {p : Payload}
    {encoded : Bytes} {m : SecretMaterial} {minutes : ℤ} {h : Host σ} (hp : Scalars password)
    (hpassword : validatePassword password (some confirmation) = .ok ())
    (hminutes : validateInactivity minutes = .ok ())
    (he : encodePayload C p = .ok encoded) (hm : installSecretMaterial C p = .ok m) (hnone : h.dataAt path = none) :
    ∃ j h', createStorage C M path password confirmation p minutes h = (.ok j, h') := by
  let h1 := h.setState (M.tokenBytes keyLength h.world.state).2
  let h2 := h1.setState (M.tokenBytes saltLength h1.world.state).2
  obtain ⟨c, h3, hbuild, hkdf, hwrap, hpayload, hdisk⟩ := buildV2Envelope_total (M := M) hC hp he
    (M.tokenBytes keyLength h.world.state).1.1 (M.tokenBytes saltLength h1.world.state).1.2 h2
  obtain ⟨data, hdata⟩ := serialize_ok hkdf hwrap hpayload
  have hnone3 : h3.dataAt path = none := by
    rw [Host.dataAt, hdisk]
    exact hnone
  obtain ⟨h4, hwrite⟩ := atomicWrite_create_working hM data hnone3
  obtain ⟨h5, hinit, -, -⟩ := initSession_begun (M := M) hm h4 path c (M.tokenBytes keyLength h.world.state).1.1
  refine ⟨h4.nextSession, h5, ?_⟩
  simp only [createStorage, bind_ok_iff, lift_ok_iff, mapError_ok_iff]
  exact ⟨(), h, ⟨hpassword, rfl⟩, (), h, ⟨hminutes, rfl⟩, _, h1, rfl, _, h2, rfl, c, h3, hbuild, data, h3, ⟨hdata, rfl⟩,
    (), h4, hwrite, tryCatch_ok_iff.2 (.inl hinit)⟩

end DecentWallet
