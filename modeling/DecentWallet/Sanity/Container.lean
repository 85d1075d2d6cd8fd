import DecentWallet.Sanity.Payload
import DecentWallet.Spec.Container

/-! A container the wallet writes is parsed to itself, and its two boxes open under the keys they were
sealed with. -/

namespace DecentWallet

open Raised

variable {C : Crypto}

/-! ### The parser on what the wallet writes -/

/-- The texts of a box decode to the right lengths. -/
structure SealedBox.Ok (b : SealedBox) : Prop where
  nonce : ∃ n, b64Decode b.nonce (some nonceLength) = .ok n
  ciphertext : ∃ c, b64Decode b.ciphertext none = .ok c
  tag : ∃ t, b64Decode b.tag (some tagLength) = .ok t

theorem b64Decode_eq_ok {s : Str} {n : Option ℕ} {b : Bytes} : b64Decode s n = .ok b ↔
    base64Decode s = some b ∧ ∀ m ∈ n, b.length = m := by
  simp only [b64Decode, bind_eq_ok, orRaise_eq_ok, reject_eq_ok, pure_eq_ok, not_exists, not_and, not_not]
  constructor
  · intro hyp
    obtain ⟨x, hx, -, hlen, rfl⟩ := hyp
    exact ⟨hx, hlen⟩
  · intro hyp
    obtain ⟨hx, hlen⟩ := hyp
    exact ⟨b, hx, (), hlen, rfl⟩

theorem b64Text_eq_ok {n : Option ℕ} {j : Json} {s : Str} :
    b64Text n j = .ok s ↔ j = .str s ∧ ∃ b, b64Decode s n = .ok b := by
  cases j with
  | str t =>
    simp only [b64Text, bind_eq_ok, pure_eq_ok, Json.str.injEq]
    constructor
    · intro h
      obtain ⟨b, hb, rfl⟩ := h
      exact ⟨rfl, b, hb⟩
    · intro h
      obtain ⟨rfl, b, hb⟩ := h
      exact ⟨b, hb, rfl⟩
  | _ => simp [b64Text]

theorem parseBox_toJson {b : SealedBox} (h : b.Ok) : parseBox b.toJson = .ok b := by
  have hget : b.toJson.get "nonce" = .str b.nonce ∧ b.toJson.get "ciphertext" = .str b.ciphertext ∧
      b.toJson.get "tag" = .str b.tag ∧ b.toJson.get "algorithm" = .str aeadAlgorithm := by
    simp [SealedBox.toJson, Json.get, Assoc.get_cons]
  have hkeys : b.toJson.hasKeys ["algorithm", "nonce", "ciphertext", "tag"] = true := by
    simp [SealedBox.toJson, Json.hasKeys, Assoc.get_cons]
  simp only [parseBox, bind_eq_ok, reject_eq_ok, pure_eq_ok, hget, b64Text_eq_ok]
  exact ⟨(), by simp [hkeys], (), by simp [Json.isStr], b.nonce, ⟨rfl, h.nonce⟩, b.ciphertext, ⟨rfl, h.ciphertext⟩,
    b.tag, ⟨rfl, h.tag⟩, rfl⟩

theorem ok_of_parseBox {j : Json} {b : SealedBox} (h : parseBox j = .ok b) : b.Ok := by
  simp only [parseBox, bind_eq_ok, reject_eq_ok, pure_eq_ok, b64Text_eq_ok] at h
  obtain ⟨_, -, _, -, nonce, ⟨-, hn⟩, ciphertext, ⟨-, hc⟩, tag, ⟨-, ht⟩, rfl⟩ := h
  exact ⟨hn, hc, ht⟩

theorem parseKdf_kdfHeader {salt : Bytes} (h : salt.length = saltLength) :
    parseKdf (kdfHeader salt).toJson = .ok (kdfHeader salt) := by
  have hkeys : (kdfHeader salt).toJson.hasKeys ["algorithm", "memory_kib", "time_cost", "parallelism",
    "salt"] = true := by
    simp [KdfHeader.toJson, Json.hasKeys, Assoc.get_cons]
  have hget : (kdfHeader salt).toJson.get "algorithm" = .str (str "argon2id") ∧
      (kdfHeader salt).toJson.get "memory_kib" = .int kdfMemoryKib ∧
      (kdfHeader salt).toJson.get "time_cost" = .int kdfTimeCost ∧
      (kdfHeader salt).toJson.get "parallelism" = .int kdfParallelism ∧
      (kdfHeader salt).toJson.get "salt" = .str (base64Encode salt) := by
    simp [KdfHeader.toJson, kdfHeader, Json.get, Assoc.get_cons]
  simp only [parseKdf, bind_eq_ok, reject_eq_ok, pure_eq_ok, hget, b64Text_eq_ok]
  exact ⟨(), by simp [hkeys], (), by simp [Json.isStr, Json.isInt], _, ⟨rfl, salt, b64Decode_encode_length h⟩, rfl⟩

/-- A header that was parsed is parsed again. -/
theorem parseKdf_toJson {j : Json} {k : KdfHeader} (h : parseKdf j = .ok k) : parseKdf k.toJson = .ok k := by
  simp only [parseKdf, bind_eq_ok, reject_eq_ok, pure_eq_ok, b64Text_eq_ok, not_or, Bool.not_eq_false] at h
  obtain ⟨_, -, _, ⟨-, hmemory, htime, hparallel⟩, salt, ⟨-, hsalt⟩, rfl⟩ := h
  generalize hk : KdfHeader.mk (j.get "memory_kib") (j.get "time_cost") (j.get "parallelism") salt = k
  have hkeys : k.toJson.hasKeys ["algorithm", "memory_kib", "time_cost", "parallelism", "salt"] = true := by
    simp [KdfHeader.toJson, Json.hasKeys, Assoc.get_cons]
  have hget : k.toJson.get "algorithm" = .str (str "argon2id") ∧ k.toJson.get "memory_kib" = k.memoryKib ∧
      k.toJson.get "time_cost" = k.timeCost ∧ k.toJson.get "parallelism" = k.parallelism ∧
      k.toJson.get "salt" = .str k.salt := by
    simp [KdfHeader.toJson, Json.get, Assoc.get_cons]
  subst hk
  simp only [parseKdf, bind_eq_ok, reject_eq_ok, pure_eq_ok, hget, b64Text_eq_ok, not_or, Bool.not_eq_false]
  exact ⟨(), hkeys, (), ⟨by simp [Json.isStr], hmemory, htime, hparallel⟩, salt, ⟨rfl, hsalt⟩, rfl⟩

theorem canonical_kdfHeader (salt : Bytes) : (kdfHeader salt).toJson.canonical = true := by
  have hkeys : ([str "algorithm", str "memory_kib", str "parallelism", str "salt", str "time_cost"] : List Str).Pairwise
      (· < ·) := by decide
  simp [KdfHeader.toJson, kdfHeader, Json.canonical, Json.canonicalMembers, hkeys]

theorem canonical_box (b : SealedBox) : b.toJson.canonical = true := by
  have hkeys : ([str "algorithm", str "ciphertext", str "nonce", str "tag"] : List Str).Pairwise (· < ·) := by decide
  simp [SealedBox.toJson, Json.canonical, Json.canonicalMembers, hkeys]

theorem containerKeys_sorted :
    ([str "format", str "kdf", str "payload", str "version", str "wrap"] : List Str).Pairwise (· < ·) := by decide

theorem canonical_container {c : Container} {salt : Bytes} (h : c.kdf = kdfHeader salt) :
    c.toJson.canonical = true := by
  have hkeys := containerKeys_sorted
  simp [Container.toJson, Json.canonical, Json.canonicalMembers, hkeys, h, canonical_kdfHeader, canonical_box]

theorem legible_container {float : Str → JsonFloat} {c : Container} (h : c.kdf.toJson.Legible float) :
    c.toJson.Legible float := by
  have hkeys := containerKeys_sorted
  have hbox := fun b => Json.legible_of_canonical float _ (canonical_box b)
  simp [Container.toJson, Json.Legible, Json.LegibleMembers, hkeys, h, hbox]

/-- A container with a header of the wallet's own and boxes of the right form. -/
structure Container.Written (c : Container) (salt : Bytes) : Prop where
  version : c.version = currentFormatVersion
  kdf : c.kdf = kdfHeader salt
  salt : salt.length = saltLength
  wrap : c.wrap.Ok
  payload : c.payload.Ok

theorem jsonLoads_eq_ok {e : Raised} {raw : Bytes} {j : Json} : jsonLoads C e raw = .ok j ↔
    ∃ text, utf8Decode raw = some text ∧ C.limit text = none ∧ Json.loads C.float text = some j := by
  simp only [jsonLoads, bind_eq_ok, orRaise_eq_ok]
  refine exists_congr fun text => and_congr_right fun _ => ?_
  unfold loadText
  cases C.limit text with
  | none => simp [orRaise_eq_ok]
  | some l => simp

/-- What is printed within the limits is read. -/
theorem jsonLoads_dumps (hC : C.Correct) {v : Json} {data : Bytes} (hlimit : C.dumpsLimit v = none)
    (hdumps : v.dumps = some data) (hloads : (utf8Decode data).bind (Json.loads C.float) = some v) (e : Raised) :
    jsonLoads C e data = .ok v := by
  obtain ⟨text, htext, hloads⟩ := Option.bind_eq_some_iff.1 hloads
  exact jsonLoads_eq_ok.2 ⟨text, htext, hC.loads_dumps hlimit hdumps htext, hloads⟩

/-- The JSON of a container, as `_parse_container` reads it. -/
@[mk_iff]
structure Json.Container (j : Json) (v : ℤ) (c : Container) : Prop where
  keys : j.hasKeys ["format", "version", "kdf", "wrap", "payload"] = true
  format : (j.get "format").isStr (DecentWallet.str "decent-wallet") = true
  version : versionOf (j.get "version") = .ok c.version
  expected : c.version = v
  kdf : parseKdf (j.get "kdf") = .ok c.kdf
  wrap : parseBox (j.get "wrap") = .ok c.wrap
  payload : parseBox (j.get "payload") = .ok c.payload

theorem parseContainerBody_eq_ok {raw : Bytes} {v : ℤ} {c : Container} : parseContainerBody C raw v = .ok c ↔
    ∃ j, jsonLoads C invalidContainer raw = .ok j ∧ j.Container v c := by
  simp only [parseContainerBody, bind_eq_ok, reject_eq_ok, pure_eq_ok, Bool.not_eq_false, not_not]
  constructor
  · intro h
    obtain ⟨j, hj, -, hkeys, -, hformat, version, hversion, -, hv, kdf, hkdf, wrap, hwrap, payload, hpayload, rfl⟩ := h
    exact ⟨j, hj, hkeys, hformat, hversion, hv, hkdf, hwrap, hpayload⟩
  · intro h
    obtain ⟨j, hj, h⟩ := h
    exact ⟨j, hj, (), h.keys, (), h.format, _, h.version, (), h.expected, _, h.kdf, _, h.wrap, _, h.payload, rfl⟩

/-- A container that can be read back: the header is parsed to itself, and the boxes are of the right form. -/
structure Container.Readable (C : Crypto) (c : Container) : Prop where
  kdf : parseKdf c.kdf.toJson = .ok c.kdf
  legible : c.kdf.toJson.Legible C.float
  wrap : c.wrap.Ok
  payload : c.payload.Ok

theorem Container.Written.readable {c : Container} {salt : Bytes} (h : c.Written salt) : c.Readable C where
  kdf := by rw [h.kdf, parseKdf_kdfHeader h.salt]
  legible := by
    rw [h.kdf]
    exact Json.legible_of_canonical _ _ (canonical_kdfHeader salt)
  wrap := h.wrap
  payload := h.payload

theorem Container.Readable.json {c : Container} (h : c.Readable C) : c.toJson.Container c.version c := by
  have hkeys : c.toJson.hasKeys ["format", "version", "kdf", "wrap", "payload"] = true := by
    simp [Container.toJson, Json.hasKeys, Assoc.get_cons]
  have hget : c.toJson.get "format" = .str (str "decent-wallet") ∧ c.toJson.get "version" = .int c.version ∧
      c.toJson.get "kdf" = c.kdf.toJson ∧ c.toJson.get "wrap" = c.wrap.toJson ∧
      c.toJson.get "payload" = c.payload.toJson := by
    simp [Container.toJson, Json.get, Assoc.get_cons]
  obtain ⟨hformat, hversion, hkdf, hwrap, hpayload⟩ := hget
  exact ⟨hkeys, by simp [hformat, Json.isStr], by rw [hversion, versionOf], rfl, by rw [hkdf, h.kdf],
    by rw [hwrap, parseBox_toJson h.wrap], by rw [hpayload, parseBox_toJson h.payload]⟩

theorem Container.Readable.parse (hC : C.Correct) {c : Container} {data : Bytes} (h : c.Readable C)
    (hversion : c.version = currentFormatVersion) (hdata : serialize c = .ok data) :
    parseContainerBody C data currentFormatVersion = .ok c := by
  have hdumps := orRaise_eq_ok.1 hdata
  have hloads := jsonLoads_dumps hC (hC.dumps_container hversion h.kdf) hdumps
    ((legible_container h.legible).loads_dumps hdumps) invalidContainer
  exact parseContainerBody_eq_ok.2 ⟨c.toJson, hloads, hversion ▸ h.json⟩

theorem parseContainerBody_serialize (hC : C.Correct) {c : Container} {salt data : Bytes} (h : c.Written salt)
    (hdata : serialize c = .ok data) : parseContainerBody C data currentFormatVersion = .ok c :=
  h.readable.parse hC h.version hdata

/-! ### Opening what was sealed -/

theorem sealBox_eq_ok {key nonce aad plaintext : Bytes} {b : SealedBox}
    (h : sealBox C key nonce aad plaintext = .ok b) : ∃ c t, C.encrypt key nonce aad plaintext = some (c, t) ∧
      b = ⟨base64Encode nonce, base64Encode c, base64Encode t⟩ := by
  simp only [sealBox, bind_eq_ok, orRaise_eq_ok, pure_eq_ok] at h
  obtain ⟨⟨c, t⟩, hct, rfl⟩ := h
  exact ⟨c, t, hct, rfl⟩

theorem sealBox_ok (hC : C.Correct) {key nonce aad plaintext : Bytes} {b : SealedBox}
    (h : sealBox C key nonce aad plaintext = .ok b) (hn : nonce.length = nonceLength) : b.Ok := by
  obtain ⟨c, t, hct, rfl⟩ := sealBox_eq_ok h
  exact ⟨⟨nonce, b64Decode_encode_length hn⟩, ⟨c, b64Decode_encode c⟩, ⟨t, b64Decode_encode_length (hC.tag_length hct)⟩⟩

theorem openBox_eq_ok {key aad plaintext : Bytes} {b : SealedBox} : openBox C key b aad = .ok plaintext ↔
    ∃ nonce ciphertext tag, b64Decode b.nonce (some nonceLength) = .ok nonce ∧
    b64Decode b.ciphertext none = .ok ciphertext ∧
      b64Decode b.tag (some tagLength) = .ok tag ∧ C.decrypt key nonce aad ciphertext tag = some plaintext := by
  simp only [openBox, bind_eq_ok, orRaise_eq_ok]
  constructor
  · intro hyp
    obtain ⟨nonce, hn, ciphertext, hc, tag, ht, h⟩ := hyp
    exact ⟨nonce, ciphertext, tag, hn, hc, ht, h⟩
  · intro hyp
    obtain ⟨nonce, ciphertext, tag, hn, hc, ht, h⟩ := hyp
    exact ⟨nonce, hn, ciphertext, hc, tag, ht, h⟩

/-- A box opens under one associated data, whatever the key. -/
theorem openBox_sealBox (hC : C.Correct) {key nonce aad plaintext : Bytes} {b : SealedBox}
    (h : sealBox C key nonce aad plaintext = .ok b) (hn : nonce.length = nonceLength) :
    openBox C key b aad = .ok plaintext := by
  obtain ⟨c, t, hct, rfl⟩ := sealBox_eq_ok h
  simp only [openBox, bind_eq_ok, orRaise_eq_ok]
  exact ⟨nonce, b64Decode_encode_length hn, c, b64Decode_encode c, t, b64Decode_encode_length (hC.tag_length hct),
    hC.decrypt_encrypt hct⟩

theorem encodePayload_eq_ok {p : Payload} {encoded : Bytes} : encodePayload C p = .ok encoded ↔
    ∃ j, encodeValue (.map p.entries) C.room = .ok j ∧ C.dumpsLimit j = none ∧ j.dumps = some encoded := by
  simp only [encodePayload, bind_eq_ok]
  refine exists_congr fun j => and_congr_right fun _ => ?_
  cases C.dumpsLimit j with
  | none => simp [canonicalJson, orRaise_eq_ok]
  | some l => cases l <;> simp

theorem asPayload_entries (p : Payload) : asPayload (.map p.entries) = some p := by
  rw [asPayload, dif_pos p.ordered]

/-- Every `dict` that is decoded has the order `asPayload` asks for: what it refuses is no `dict`. -/
theorem asPayload_decoded {j : Json} {room : ℕ} {v : PayloadValue} (h : decodeValue j room = .ok v) :
    asPayload v = none ↔ ∀ m, v ≠ .map m := by
  have hordered := ordered_decodeValue h
  cases v with
  | map m => simp [asPayload, hordered]
  | _ => simp [asPayload]

/-- The bytes `_make_payload` seals decode to the payload. -/
theorem decode_encodePayload (hC : C.Correct) {p : Payload} {encoded : Bytes} (h : encodePayload C p = .ok encoded)
    (e : Raised) : ∃ j, jsonLoads C e encoded = .ok j ∧ decodeValue j C.room = .ok (.map p.entries) := by
  obtain ⟨j, hj, hlimit, hdumps⟩ := encodePayload_eq_ok.1 h
  exact ⟨j, jsonLoads_dumps hC hlimit hdumps (Json.loads_dumps C.float (canonical_encodeValue hj) hdumps) e,
    decodeValue_encodeValue p.ordered hj⟩

/-- What `_make_payload` makes of a payload under a data key. -/
def Boxes (C : Crypto) (dek : Bytes) (p : Payload) (b : SealedBox) : Prop := ∃ encoded nonce,
  nonce.length = nonceLength ∧ encodePayload C p = .ok encoded ∧ sealPayload C dek encoded nonce = .ok b

theorem Boxes.ok (hC : C.Correct) {dek : Bytes} {p : Payload} {b : SealedBox} (h : Boxes C dek p b) : b.Ok := by
  obtain ⟨encoded, nonce, hn, -, hs⟩ := h
  simp only [sealPayload, bind_eq_ok] at hs
  obtain ⟨aad, -, hbox⟩ := hs
  exact sealBox_ok hC hbox hn

/-- The box holds the payload. -/
theorem Boxes.decode (hC : C.Correct) {dek : Bytes} {p : Payload} {c : Container} (h : Boxes C dek p c.payload) :
    decodePayload C c dek currentFormatVersion = .ok p := by
  obtain ⟨encoded, nonce, hn, he, hs⟩ := h
  simp only [sealPayload, bind_eq_ok] at hs
  obtain ⟨aad, haad, hbox⟩ := hs
  obtain ⟨ct, t, -, hpayload⟩ := sealBox_eq_ok hbox
  have haad' : payloadAad c.payload currentFormatVersion = .ok aad := by
    rw [← haad, hpayload]
    rfl
  obtain ⟨j, hloads, hdecode⟩ := decode_encodePayload hC he unlockFailed
  simp only [decodePayload, bind_eq_ok, orRaise_eq_ok]
  exact ⟨aad, haad', encoded, openBox_sealBox hC hbox hn, j, hloads, _, hdecode, asPayload_entries p⟩

/-- `_decode_payload` after `_open`. -/
def decodeOpened (C : Crypto) (plaintext : Bytes) : Except Raised Payload := do
  let decoded ← jsonLoads C unlockFailed plaintext
  let value ← decodeValue decoded C.room
  orRaise unlockFailed (asPayload value)

theorem decodePayload_eq_ok {c : Container} {dek : Bytes} {v : ℤ} {p : Payload} :
    decodePayload C c dek v = .ok p ↔ ∃ aad plaintext, payloadAad c.payload v = .ok aad ∧
    openBox C dek c.payload aad = .ok plaintext ∧ decodeOpened C plaintext = .ok p := by
  simp only [decodePayload, decodeOpened, bind_eq_ok]
  constructor
  · intro hyp
    obtain ⟨aad, haad, plaintext, hopen, hrest⟩ := hyp
    exact ⟨aad, plaintext, haad, hopen, hrest⟩
  · intro hyp
    obtain ⟨aad, plaintext, haad, hopen, hrest⟩ := hyp
    exact ⟨aad, haad, plaintext, hopen, hrest⟩

/-- The key half of `_unlock_envelope`: the data key a password gives. -/
def unwrapDek (C : Crypto) (c : Container) (password : Str) (version : ℤ) : Except Raised Bytes := do
  let salt ← b64Decode c.kdf.salt (some saltLength)
  let kek ← deriveKek C password salt
  let aad ← wrapAad c.kdf version
  let dek ← openBox C kek c.wrap aad
  reject (dek.length ≠ keyLength) unlockFailed
  return dek

theorem unlockEnvelope_eq_ok {c : Container} {password : Str} {version : ℤ} {dek : Bytes} {p : Payload} :
    unlockEnvelope C c password version = .ok (dek, p) ↔
      unwrapDek C c password version = .ok dek ∧ decodePayload C c dek version = .ok p := by
  simp only [unlockEnvelope, unwrapDek, bind_eq_ok, reject_eq_ok, pure_eq_ok, Prod.mk.injEq]
  constructor
  · intro h
    obtain ⟨salt, hsalt, kek, hkek, aad, haad, d, hd, u, hlen, q, hq, rfl, rfl⟩ := h
    exact ⟨⟨salt, hsalt, kek, hkek, aad, haad, d, hd, u, hlen, rfl⟩, hq⟩
  · intro h
    obtain ⟨⟨salt, hsalt, kek, hkek, aad, haad, d, hd, u, hlen, rfl⟩, hq⟩ := h
    exact ⟨salt, hsalt, kek, hkek, aad, haad, d, hd, u, hlen, p, hq, rfl, rfl⟩

theorem unwrapDek_eq_ok {c : Container} {password : Str} {v : ℤ} {dek : Bytes} :
    unwrapDek C c password v = .ok dek ↔ ∃ salt kek aad, b64Decode c.kdf.salt (some saltLength) = .ok salt ∧
      deriveKek C password salt = .ok kek ∧ wrapAad c.kdf v = .ok aad ∧ openBox C kek c.wrap aad = .ok dek ∧
      dek.length = keyLength := by
  simp only [unwrapDek, bind_eq_ok, reject_eq_ok, pure_eq_ok, not_not]
  constructor
  · intro h
    obtain ⟨salt, hsalt, kek, hkek, aad, haad, _, hopen, _, hlen, rfl⟩ := h
    exact ⟨salt, kek, aad, hsalt, hkek, haad, hopen, hlen⟩
  · intro h
    obtain ⟨salt, kek, aad, hsalt, hkek, haad, hopen, hlen⟩ := h
    exact ⟨salt, hsalt, kek, hkek, aad, haad, dek, hopen, (), hlen, rfl⟩

theorem length_of_unwrapDek {c : Container} {password : Str} {version : ℤ} {dek : Bytes}
    (h : unwrapDek C c password version = .ok dek) : dek.length = keyLength := by
  simp only [unwrapDek, bind_eq_ok, reject_eq_ok, pure_eq_ok] at h
  obtain ⟨salt, -, kek, -, aad, -, d, -, _, hlen, rfl⟩ := h
  exact not_not.1 hlen

/-- A wrapped key is unwrapped by the password it was wrapped under. -/
theorem unwrapDek_wrapDek (hC : C.Correct) {c : Container} {password : Str} {salt kek dek nonce : Bytes}
    (hsalt : b64Decode c.kdf.salt (some saltLength) = .ok salt) (hkek : deriveKek C password salt = .ok kek)
    (hwrap : wrapDek C kek dek c.kdf nonce = .ok c.wrap) (hdek : dek.length = keyLength)
    (hn : nonce.length = nonceLength) : unwrapDek C c password currentFormatVersion = .ok dek := by
  simp only [wrapDek, bind_eq_ok] at hwrap
  obtain ⟨aad, haad, hbox⟩ := hwrap
  simp only [unwrapDek, bind_eq_ok, reject_eq_ok, pure_eq_ok]
  exact ⟨salt, hsalt, kek, hkek, aad, haad, dek, openBox_sealBox hC hbox hn, (), by simp [hdek], rfl⟩

theorem wrapDek_ok (hC : C.Correct) {kek dek nonce : Bytes} {kdf : KdfHeader} {b : SealedBox}
    (h : wrapDek C kek dek kdf nonce = .ok b) (hn : nonce.length = nonceLength) : b.Ok := by
  simp only [wrapDek, bind_eq_ok] at h
  obtain ⟨aad, -, hbox⟩ := h
  exact sealBox_ok hC hbox hn

/-! ### What may be raised -/

section Fails

variable {p : Raised → Prop}

mutual

theorem encodeValue_fails (hp : p invalidContainer) (hr : p recursionError) :
    ∀ (v : PayloadValue) (room : ℕ), Fails p (encodeValue v room)
  | _, 0 => by
    rw [encodeValue]
    exact Fails.error hr
  | .none, _ + 1 => Fails.ok _
  | .bool _, _ + 1 => Fails.ok _
  | .str _, _ + 1 => Fails.ok _
  | .int _, _ + 1 => Fails.ok _
  | .bytes _, _ + 1 => Fails.ok _
  | .list l, room + 1 => (encodeItems_fails hp hr l room).bind fun _ => Fails.ok _
  | .map m, room + 1 => (encodeMembers_fails hp hr m room).bind fun _ => Fails.ok _
  | .other, _ + 1 => Fails.error hp

theorem encodeItems_fails (hp : p invalidContainer) (hr : p recursionError) :
    ∀ (l : List PayloadValue) (room : ℕ), Fails p (encodeItems l room)
  | [], _ => Fails.ok _
  | v :: l, room => (encodeValue_fails hp hr v room).bind fun _ =>
    (encodeItems_fails hp hr l room).bind fun _ => Fails.ok _

theorem encodeMembers_fails (hp : p invalidContainer) (hr : p recursionError) :
    ∀ (m : List (Str × PayloadValue)) (room : ℕ), Fails p (encodeMembers m room)
  | [], _ => Fails.ok _
  | (_, v) :: m, room => (encodeValue_fails hp hr v room).bind fun _ =>
    (encodeMembers_fails hp hr m room).bind fun _ => Fails.ok _

end

theorem canonicalJson_fails (hp : p invalidContainer) (v : Json) : Fails p (canonicalJson v) := Fails.orRaise hp _

theorem encodePayload_fails (hp : p invalidContainer) (hr : p recursionError) (payload : Payload) :
    Fails p (encodePayload C payload) := by
  refine (encodeValue_fails hp hr _ _).bind fun j => ?_
  cases C.dumpsLimit j with
  | none => exact canonicalJson_fails hp _
  | some l =>
    cases l with
    | nesting => exact Fails.error hr
    | digits => exact Fails.error hp

theorem b64Decode_fails (hp : p invalidContainer) (s : Str) (n : Option ℕ) : Fails p (b64Decode s n) :=
  (Fails.orRaise hp _).bind fun _ => (Fails.reject hp _).bind fun _ => Fails.ok _

theorem b64Text_fails (hp : p invalidContainer) (n : Option ℕ) (j : Json) : Fails p (b64Text n j) := by
  cases j with
  | str s => exact (b64Decode_fails hp s n).bind fun _ => Fails.ok _
  | _ => exact Fails.error hp

theorem parseBox_fails (hp : p invalidContainer) (hu : p unsupportedFormat) (j : Json) : Fails p (parseBox j) :=
  (Fails.reject hp _).bind fun _ => (Fails.reject hu _).bind fun _ => (b64Text_fails hp _ _).bind fun _ =>
    (b64Text_fails hp _ _).bind fun _ => (b64Text_fails hp _ _).bind fun _ => Fails.ok _

theorem parseKdf_fails (hp : p invalidContainer) (hu : p unsupportedFormat) (j : Json) : Fails p (parseKdf j) :=
  (Fails.reject hp _).bind fun _ => (Fails.reject hu _).bind fun _ => (b64Text_fails hp _ _).bind fun _ => Fails.ok _

theorem versionOf_fails (hp : p invalidContainer) (j : Json) : Fails p (versionOf j) := by
  cases j with
  | int n => exact Fails.ok _
  | _ => exact Fails.error hp

theorem jsonLoads_fails {e : Raised} (he : p e) {raw : Bytes}
    (hl : ∀ text l, utf8Decode raw = some text → C.limit text = some l → p l.raised) : Fails p (jsonLoads C e raw) := by
  unfold jsonLoads
  cases htext : utf8Decode raw with
  | none => exact Fails.error he
  | some text =>
    change Fails p (loadText C e text)
    unfold loadText
    cases hlimit : C.limit text with
    | none => exact Fails.orRaise he _
    | some l => exact Fails.error (hl text l htext hlimit)

theorem parseContainer_fails (hp : p invalidContainer) (hu : p unsupportedFormat) {raw : Bytes}
    (hl : ∀ text l, utf8Decode raw = some text → C.limit text = some l → p l.raised) (v : ℤ) :
    Fails p (parseContainer C raw v) :=
  (Fails.reject hp _).bind fun _ => (jsonLoads_fails hp hl).bind fun _ => (Fails.reject hp _).bind fun _ =>
    (Fails.reject hp _).bind fun _ => (versionOf_fails hp _).bind fun _ => (Fails.reject hu _).bind fun _ =>
      (parseKdf_fails hp hu _).bind fun _ => (parseBox_fails hp hu _).bind fun _ =>
      (parseBox_fails hp hu _).bind fun _ => Fails.ok _

theorem sealPayload_fails (hp : p invalidContainer) (hs : p storageFailure) (dek encoded nonce : Bytes) :
    Fails p (sealPayload C dek encoded nonce) :=
  (canonicalJson_fails hp _).bind fun _ => (Fails.orRaise hs _).bind fun _ => Fails.ok _

theorem wrapDek_fails (hp : p invalidContainer) (hs : p storageFailure) (kek dek : Bytes) (kdf : KdfHeader)
    (nonce : Bytes) : Fails p (wrapDek C kek dek kdf nonce) :=
  (canonicalJson_fails hp _).bind fun _ => (Fails.orRaise hs _).bind fun _ => Fails.ok _

end Fails

end DecentWallet
