import DecentWallet.Lib.JsonLength
import DecentWallet.Sanity.Opening

/-! Nothing gets longer when it is written again: not the payload, and not a container that is sealed anew with its own
header. -/

namespace DecentWallet

open Raised

variable {C : Crypto}

/-! ### Base64 texts -/

theorem length_quote_ge (s : Str) : s.length + 2 ≤ (utf8Raw (quote s)).length := by
  have h1 := length_le_flatMap (f := escapePoint) (fun c => by unfold escapePoint; split_ifs <;> simp) s
  have h2 := length_le_utf8Raw (s.flatMap escapePoint)
  rw [length_quote]
  omega

theorem length_quote_base64 (b : Bytes) : (utf8Raw (quote (base64Encode b))).length = (base64Encode b).length + 2 := by
  refine length_quote_plain fun c hc => ?_
  have := base64Encode_plain b c hc
  omega

/-- A text in Base64 is no longer than any text that decodes to as many bytes. -/
theorem length_quote_le {s : Str} {n : Option ℕ} {b b' : Bytes} (h : b64Decode s n = .ok b)
    (hlen : b'.length ≤ b.length) : (utf8Raw (quote (base64Encode b'))).length ≤ (utf8Raw (quote s)).length := by
  have h1 := length_encode_decode (b64Decode_eq_ok.1 h).1
  have h2 := length_quote_ge s
  rw [length_base64Encode] at h1
  rw [length_quote_base64, length_base64Encode]
  omega

/-! ### Payload values -/

/-- The bytes of `{"t":kind,"v":v}`. -/
def typedSize (kind : String) (n : ℕ) : ℕ := 11 + (utf8Raw (quote (str kind))).length + n

namespace PayloadValue

mutual

/-- The bytes of a value's typed form. -/
def size : PayloadValue → ℕ
  | .none => 12
  | .bool true => typedSize "bool" 4
  | .bool false => typedSize "bool" 5
  | .str s => typedSize "str" (utf8Raw (quote s)).length
  | .int n => typedSize "int" (intText n).length
  | .bytes b => typedSize "bytes" ((b.length + 2) / 3 * 4 + 2)
  | .list l => typedSize "list" (max 2 (sizeItems l))
  | .map m => typedSize "map" (max 2 (sizeMembers m))
  | .other => 0

def sizeItems : List PayloadValue → ℕ
  | [] => 1
  | v :: l => size v + 1 + sizeItems l

/-- Each entry is a list of the key and the value. -/
def sizeMembers : List (Str × PayloadValue) → ℕ
  | [] => 1
  | (k, v) :: m => (utf8Raw (quote k)).length + size v + 4 + sizeMembers m

end

end PayloadValue

section

variable {w : JsonFloat → ℕ}

theorem size_tagged (kind : String) (v : Json) : (tagged kind v).size w = typedSize kind (v.size w) := by
  have ht : (utf8Raw (quote (str "t"))).length = 3 := rfl
  have hv : (utf8Raw (quote (str "v"))).length = 3 := rfl
  simp only [tagged, Json.size, Json.sizeMembers, typedSize, ht, hv]
  omega

theorem size_base64 (b : Bytes) : (Json.str (base64Encode b)).size w = (b.length + 2) / 3 * 4 + 2 := by
  rw [Json.size, length_quote_base64, length_base64Encode]

mutual

theorem size_encodeValue : ∀ {v : PayloadValue} {room : ℕ} {j : Json}, encodeValue v room = .ok j → j.size w = v.size
  | _, 0, _, h => by simp [encodeValue] at h
  | .none, _ + 1, _, h => by
    cases Except.ok.inj h
    rfl
  | .bool true, _ + 1, _, h => by
    cases Except.ok.inj h
    exact size_tagged _ _
  | .bool false, _ + 1, _, h => by
    cases Except.ok.inj h
    exact size_tagged _ _
  | .str _, _ + 1, _, h => by
    cases Except.ok.inj h
    exact size_tagged _ _
  | .int _, _ + 1, _, h => by
    cases Except.ok.inj h
    exact size_tagged _ _
  | .bytes b, _ + 1, _, h => by
    cases Except.ok.inj h
    rw [size_tagged, size_base64, PayloadValue.size]
  | .list l, _ + 1, _, h => by
    simp only [encodeValue, bind_eq_ok, pure_eq_ok] at h
    obtain ⟨js, hjs, rfl⟩ := h
    rw [size_tagged, Json.size, size_encodeItems hjs, PayloadValue.size]
  | .map m, _ + 1, _, h => by
    simp only [encodeValue, bind_eq_ok, pure_eq_ok] at h
    obtain ⟨js, hjs, rfl⟩ := h
    rw [size_tagged, Json.size, size_encodeMembers hjs, PayloadValue.size]
  | .other, _ + 1, _, h => by simp [encodeValue] at h

theorem size_encodeItems : ∀ {l : List PayloadValue} {room : ℕ} {js : List Json}, encodeItems l room = .ok js →
    Json.sizeItems w js = PayloadValue.sizeItems l
  | [], _, _, h => by
    cases Except.ok.inj h
    rfl
  | v :: l, _, _, h => by
    simp only [encodeItems, bind_eq_ok, pure_eq_ok] at h
    obtain ⟨j, hj, js, hjs, rfl⟩ := h
    rw [Json.sizeItems, PayloadValue.sizeItems, size_encodeValue hj, size_encodeItems hjs]

theorem size_encodeMembers : ∀ {m : List (Str × PayloadValue)} {room : ℕ} {js : List Json},
    encodeMembers m room = .ok js → Json.sizeItems w js = PayloadValue.sizeMembers m
  | [], _, _, h => by
    cases Except.ok.inj h
    rfl
  | (k, v) :: m, _, _, h => by
    simp only [encodeMembers, bind_eq_ok, pure_eq_ok] at h
    obtain ⟨j, hj, js, hjs, rfl⟩ := h
    simp only [Json.sizeItems, Json.size, PayloadValue.sizeMembers, size_encodeValue hj, size_encodeMembers hjs]
    omega

end

mutual

/-- A value is no longer than the text it was decoded from. Each case is a form that the decoder takes. -/
theorem size_decodeValue : ∀ {j : Json} {room : ℕ} {v : PayloadValue}, decodeValue j room = .ok v → v.size ≤ j.size w
  | _, 0, _, h => by simp [decodeValue] at h
  | .obj m, _ + 1, _, h => size_decodeEntry h
  | .null, _ + 1, _, h => by simp [decodeValue] at h
  | .bool _, _ + 1, _, h => by simp [decodeValue] at h
  | .int _, _ + 1, _, h => by simp [decodeValue] at h
  | .float _, _ + 1, _, h => by simp [decodeValue] at h
  | .str _, _ + 1, _, h => by simp [decodeValue] at h
  | .arr _, _ + 1, _, h => by simp [decodeValue] at h

theorem size_decodeEntry : ∀ {m : List (Str × Json)} {room : ℕ} {v : PayloadValue}, decodeEntry m room = .ok v →
    v.size ≤ (Json.obj m).size w
  | [], _, _, h => by simp [decodeEntry] at h
  | [(k, kind)], _, _, h => by
    simp only [decodeEntry] at h
    split at h
    · split_ifs at h with hk
      obtain ⟨rfl, rfl⟩ := hk
      cases Except.ok.inj h
      have : (utf8Raw (quote (str "t"))).length = 3 := rfl
      have : (utf8Raw (quote (str "null"))).length = 6 := rfl
      simp only [Json.size, Json.sizeMembers, PayloadValue.size]
      omega
    · cases h
  | [(k, v), (k', v')], _, _, h => by
    simp only [decodeEntry] at h
    split_ifs at h with hk hk'
    · obtain ⟨rfl, rfl⟩ := hk
      split at h
      · obtain ⟨kind, rfl, hx⟩ := size_decodeTagged h
        exact hx.trans (size_tagged kind v').ge
      · cases h
    · obtain ⟨rfl, rfl⟩ := hk'
      split at h
      · obtain ⟨kind, rfl, hx⟩ := size_decodeTagged h
        rw [← size_tagged kind v] at hx
        simp only [tagged, Json.size, Json.sizeMembers] at hx ⊢
        omega
      · cases h
  | _ :: _ :: _ :: _, _, _, h => by simp [decodeEntry] at h

theorem size_decodeTagged : ∀ {kind : Str} {j : Json} {room : ℕ} {v : PayloadValue}, decodeTagged kind j room = .ok v →
    ∃ name, kind = str name ∧ v.size ≤ typedSize name (j.size w)
  | _, .bool b, _, _, h => by
    simp only [decodeTagged] at h
    split_ifs at h with hk
    cases Except.ok.inj h
    exact ⟨_, hk, by cases b <;> exact le_rfl⟩
  | _, .str s, _, _, h => by
    simp only [decodeTagged] at h
    split_ifs at h with hk hk'
    · cases Except.ok.inj h
      exact ⟨_, hk, le_rfl⟩
    · simp only [bind_eq_ok, pure_eq_ok] at h
      obtain ⟨b, hb, rfl⟩ := h
      have hle := length_quote_le hb le_rfl
      rw [length_quote_base64, length_base64Encode] at hle
      exact ⟨"bytes", hk', Nat.add_le_add_left hle _⟩
  | _, .int n, _, _, h => by
    simp only [decodeTagged] at h
    split_ifs at h with hk
    cases Except.ok.inj h
    exact ⟨_, hk, le_rfl⟩
  | _, .arr l, _, _, h => by
    simp only [decodeTagged] at h
    split_ifs at h with hk hk'
    · simp only [bind_eq_ok, pure_eq_ok] at h
      obtain ⟨vs, hvs, rfl⟩ := h
      have := size_decodeItems hvs
      refine ⟨_, hk, Nat.add_le_add_left ?_ _⟩
      simp only [Json.size]
      omega
    · simp only [bind_eq_ok, pure_eq_ok] at h
      obtain ⟨m, hm, rfl⟩ := h
      have := size_decodeMembers hm
      refine ⟨_, hk', Nat.add_le_add_left ?_ _⟩
      simp only [Json.size]
      omega
  | _, .null, _, _, h => by simp [decodeTagged] at h
  | _, .float _, _, _, h => by simp [decodeTagged] at h
  | _, .obj _, _, _, h => by simp [decodeTagged] at h

theorem size_decodeItems : ∀ {js : List Json} {room : ℕ} {l : List PayloadValue}, decodeItems js room = .ok l →
    PayloadValue.sizeItems l ≤ Json.sizeItems w js
  | [], _, _, h => by
    cases Except.ok.inj h
    exact le_rfl
  | j :: js, _, _, h => by
    simp only [decodeItems, bind_eq_ok, pure_eq_ok] at h
    obtain ⟨v, hv, l, hl, rfl⟩ := h
    have := size_decodeValue hv
    have := size_decodeItems hl
    simp only [Json.sizeItems, PayloadValue.sizeItems]
    omega

theorem size_decodeMembers : ∀ {js : List Json} {room : ℕ} {previous : Option Str} {m : List (Str × PayloadValue)},
    decodeMembers previous js room = .ok m → PayloadValue.sizeMembers m ≤ Json.sizeItems w js
  | [], _, _, _, h => by
    cases Except.ok.inj h
    exact le_rfl
  | .arr [.str k, j] :: js, _, _, _, h => by
    simp only [decodeMembers, bind_eq_ok, reject_eq_ok, pure_eq_ok] at h
    obtain ⟨_, -, v, hv, m, hm, rfl⟩ := h
    have := size_decodeValue hv
    have := size_decodeMembers hm
    simp only [Json.sizeItems, Json.size, PayloadValue.sizeMembers]
    omega
  | .null :: _, _, _, _, h => by simp [decodeMembers] at h
  | .bool _ :: _, _, _, _, h => by simp [decodeMembers] at h
  | .int _ :: _, _, _, _, h => by simp [decodeMembers] at h
  | .float _ :: _, _, _, _, h => by simp [decodeMembers] at h
  | .str _ :: _, _, _, _, h => by simp [decodeMembers] at h
  | .obj _ :: _, _, _, _, h => by simp [decodeMembers] at h
  | .arr [] :: _, _, _, _, h => by simp [decodeMembers] at h
  | .arr [_] :: _, _, _, _, h => by simp [decodeMembers] at h
  | .arr [.null, _] :: _, _, _, _, h => by simp [decodeMembers] at h
  | .arr [.bool _, _] :: _, _, _, _, h => by simp [decodeMembers] at h
  | .arr [.int _, _] :: _, _, _, _, h => by simp [decodeMembers] at h
  | .arr [.float _, _] :: _, _, _, _, h => by simp [decodeMembers] at h
  | .arr [.arr _, _] :: _, _, _, _, h => by simp [decodeMembers] at h
  | .arr [.obj _, _] :: _, _, _, _, h => by simp [decodeMembers] at h
  | .arr (_ :: _ :: _ :: _) :: _, _, _, _, h => by simp [decodeMembers] at h

end

end

/-- The bytes of a payload before it is sealed. -/
def Payload.size (p : Payload) : ℕ := (PayloadValue.map p.entries).size

theorem length_encodePayload {p : Payload} {encoded : Bytes} (h : encodePayload C p = .ok encoded) :
    encoded.length = p.size := by
  obtain ⟨j, hj, -, hdumps⟩ := encodePayload_eq_ok.1 h
  rw [Json.length_dumps hdumps, size_encodeValue hj, Payload.size]

theorem size_jsonLoads {weight : JsonFloat → ℕ} {good : JsonFloat → Prop} (hw : Json.Weighs C.float weight good)
    {e : Raised} {raw : Bytes} {j : Json} (h : jsonLoads C e raw = .ok j) :
    j.size weight ≤ raw.length ∧ j.Floats good := by
  obtain ⟨text, htext, -, hloads⟩ := jsonLoads_eq_ok.1 h
  have := Json.size_loads hw hloads
  rwa [length_utf8Decode htext] at this

/-- The payload is no longer than the text it was decoded from. -/
theorem size_decodeOpened {plaintext : Bytes} {p : Payload} (h : decodeOpened C plaintext = .ok p) :
    p.size ≤ plaintext.length := by
  simp only [decodeOpened, bind_eq_ok, orRaise_eq_ok] at h
  obtain ⟨j, hj, v, hv, hp⟩ := h
  have hmap : v = .map p.entries := by
    cases v with
    | map m =>
      simp only [asPayload] at hp
      split_ifs at hp
      cases hp
      rfl
    | _ => cases hp
  subst hmap
  -- a payload has no floats, so their weight is of no account
  have hw : Json.Weighs C.float (fun _ => 0) fun _ => True :=
    ⟨fun _ => ⟨Nat.zero_le _, trivial⟩, fun _ => ⟨Nat.zero_le _, trivial⟩⟩
  exact (size_decodeValue hv).trans (size_jsonLoads hw hj).1

/-! ### Containers -/

/-- A `dict` with exactly the given keys is the list of its entries, in some order. -/
theorem Json.perm_of_hasKeys {m : List (Str × Json)} {names : List String} (hn : names.Nodup)
    (h : (Json.obj m).hasKeys names = true) : m.Perm (names.map fun k => (DecentWallet.str k, (Json.obj m).get k)) := by
  simp only [hasKeys, Bool.and_eq_true, decide_eq_true_eq, List.all_eq_true] at h
  obtain ⟨hlen, hkeys⟩ := h
  have hnodup : (names.map fun k => (DecentWallet.str k, (Json.obj m).get k)).Nodup := by
    refine List.Nodup.map (fun a b hab => ?_) hn
    exact str_injective (Prod.mk.inj hab).1
  refine (List.Subperm.perm_of_length_le (List.subperm_of_subset hnodup ?_) (by simp [hlen])).symm
  intro p hp
  obtain ⟨k, hk, rfl⟩ := List.mem_map.1 hp
  obtain ⟨v, hv⟩ := Option.isSome_iff_exists.1 (hkeys k hk)
  have hget : (Json.obj m).get k = v := by simp [get, hv]
  rw [hget]
  exact Assoc.mem_of_get hv

theorem Json.size_of_hasKeys {j : Json} {names : List String} (hn : names.Nodup) (h : j.hasKeys names = true)
    (w : JsonFloat → ℕ) : j.size w = (Json.obj (names.map fun k => (DecentWallet.str k, j.get k))).size w := by
  cases j with
  | obj m => rw [size, size, sizeMembers_perm (perm_of_hasKeys hn h)]
  | _ => simp [hasKeys] at h

theorem Json.eq_str_of_isStr {j : Json} {s : Str} (h : j.isStr s = true) : j = .str s := by
  cases j with
  | str t => simpa [isStr] using h
  | _ => simp [isStr] at h

theorem Json.Floats.get {good : JsonFloat → Prop} {j : Json} (h : j.Floats good) (k : String) :
    (j.get k).Floats good := by
  cases j with
  | obj m =>
    simp only [Json.get]
    cases hk : Assoc.get m (DecentWallet.str k) with
    | none => trivial
    | some v => exact (Json.floatsMembers_iff good).1 h _ (Assoc.mem_of_get hk)
  | _ => trivial

/-- The numbers of a header. -/
def kdfNumbers : List ℕ := [64 * 1024, 3, 4]

/-- What `float` and `repr` do with the numbers of a header: 65536 is written `65536.0`, only one float is equal to it,
and no literal of that float is shorter. -/
structure Crypto.Floats (C : Crypto) : Prop where
  whole : ∀ n ∈ kdfNumbers, C.float (decimal n ++ str ".0") = ⟨decimal n ++ str ".0", true, some n⟩
  unique : ∀ n ∈ kdfNumbers, ∀ {t}, (C.float t).value = some (n : ℤ) → C.float t = C.float (decimal n ++ str ".0")
  literal : ∀ n ∈ kdfNumbers, ∀ {t}, FloatLiteral t → (C.float t).value = some (n : ℤ) →
    (decimal n).length + 2 ≤ t.length

/-- The length of the text of a float that may stand in a header. -/
def kdfWeight (f : JsonFloat) : ℕ := if ∃ n ∈ kdfNumbers, f.value = some (n : ℤ) then Json.reprWeight f else 0

/-- A float that is equal to a number of a header is written as that number. -/
def KdfFloat (f : JsonFloat) : Prop :=
  ∀ n ∈ kdfNumbers, f.value = some (n : ℤ) → f = ⟨decimal n ++ str ".0", true, some (n : ℤ)⟩

theorem Crypto.Floats.kdfFloat (hf : C.Floats) (t : Str) : KdfFloat (C.float t) := fun n hn hvalue =>
  (hf.unique n hn hvalue).trans (hf.whole n hn)

theorem Crypto.Floats.weighs (hf : C.Floats) : Json.Weighs C.float kdfWeight KdfFloat := by
  refine ⟨fun {t} ht => ⟨?_, hf.kdfFloat t⟩, fun s => ⟨by simp [kdfWeight], fun n _ h => by simp at h⟩⟩
  unfold kdfWeight
  split_ifs with h
  · obtain ⟨n, hn, hvalue⟩ := h
    have hle := hf.literal n hn ht hvalue
    have hzero : ∀ c ∈ str ".0", c < 0x80 := by decide
    have hascii : ∀ c ∈ decimal n ++ str ".0", c < 0x80 := fun c hc =>
      (List.mem_append.1 hc).elim (decimal_lt n c) (hzero c)
    have hlen : (str ".0").length = 2 := rfl
    rw [Json.reprWeight, hf.kdfFloat t n hn hvalue, length_utf8Raw_ascii hascii, List.length_append, hlen]
    exact hle
  · exact Nat.zero_le _

/-- A number of a header is read back, and weighs as much as it is long. -/
theorem legible_kdfNumber (hf : C.Floats) {x : Json} {n : ℕ} (hn : n ∈ kdfNumbers) (h : x.isInt n = true)
    (hx : x.Floats KdfFloat) : x.Legible C.float ∧ x.size Json.reprWeight = x.size kdfWeight := by
  cases x with
  | int m => exact ⟨trivial, rfl⟩
  | float f =>
    simp only [Json.isInt, decide_eq_true_eq] at h
    have heq := hx n hn h
    refine ⟨readsBack_whole C.float (by rw [heq]) (by rw [heq]) ?_, ?_⟩
    · rw [heq]
      exact hf.whole n hn
    · rw [Json.size, Json.size, kdfWeight, if_pos ⟨n, hn, h⟩]
  | bool b =>
    simp only [kdfNumbers, List.mem_cons, List.not_mem_nil, or_false] at hn
    simp only [Json.isInt, decide_eq_true_eq] at h
    split_ifs at h <;> omega
  | _ => simp [Json.isInt] at h

theorem parseKdf_legible (hf : C.Floats) {j : Json} {k : KdfHeader} (h : parseKdf j = .ok k) (hj : j.Floats KdfFloat) :
    k.toJson.Legible C.float ∧ k.toJson.size Json.reprWeight = j.size kdfWeight := by
  simp only [parseKdf, bind_eq_ok, reject_eq_ok, pure_eq_ok, b64Text_eq_ok, not_or, Bool.not_eq_false] at h
  obtain ⟨_, hkeys, _, ⟨halg, hmemory, htime, hparallel⟩, salt, ⟨hsalt, -⟩, rfl⟩ := h
  obtain ⟨hl1, hs1⟩ := legible_kdfNumber hf (n := 64 * 1024) (by decide) hmemory (hj.get _)
  obtain ⟨hl2, hs2⟩ := legible_kdfNumber hf (n := 3) (by decide) htime (hj.get _)
  obtain ⟨hl3, hs3⟩ := legible_kdfNumber hf (n := 4) (by decide) hparallel (hj.get _)
  have hsorted : ([str "algorithm", str "memory_kib", str "parallelism", str "salt", str "time_cost"] :
      List Str).Pairwise (· < ·) := by decide
  refine ⟨by simp [KdfHeader.toJson, Json.Legible, Json.LegibleMembers, hsorted, hl1, hl2, hl3], ?_⟩
  rw [Json.size_of_hasKeys (by decide) hkeys]
  simp only [KdfHeader.toJson, List.map_cons, List.map_nil, Json.eq_str_of_isStr halg, hsalt, Json.size,
    Json.sizeMembers, hs1, hs2, hs3]
  omega

/-! ### Boxes -/

/-- A stream cipher: the ciphertext is as long as the text. -/
structure Crypto.KeepsLength (C : Crypto) : Prop where
  encrypt : ∀ {key nonce aad plaintext ciphertext tag}, C.encrypt key nonce aad plaintext = some (ciphertext, tag) →
    ciphertext.length = plaintext.length
  decrypt : ∀ {key nonce aad ciphertext tag plaintext}, C.decrypt key nonce aad ciphertext tag = some plaintext →
    plaintext.length = ciphertext.length

/-- A box whose texts are no longer than those of another. -/
structure SealedBox.Fits (b' b : SealedBox) : Prop where
  nonce : (utf8Raw (quote b'.nonce)).length ≤ (utf8Raw (quote b.nonce)).length
  ciphertext : (utf8Raw (quote b'.ciphertext)).length ≤ (utf8Raw (quote b.ciphertext)).length
  tag : (utf8Raw (quote b'.tag)).length ≤ (utf8Raw (quote b.tag)).length

/-- A box that is sealed anew, around a text that is not longer. -/
theorem fits_sealBox (hC : C.Correct) (hlen : C.KeepsLength) {key key' nonce aad aad' plaintext plaintext' : Bytes}
    {b b' : SealedBox} (hopen : openBox C key b aad = .ok plaintext)
    (hseal : sealBox C key' nonce aad' plaintext' = .ok b')
    (hn : nonce.length = nonceLength) (hle : plaintext'.length ≤ plaintext.length) : b'.Fits b := by
  obtain ⟨n, c, t, hnonce, hcipher, htag, hdecrypt⟩ := openBox_eq_ok.1 hopen
  obtain ⟨c', t', hencrypt, rfl⟩ := sealBox_eq_ok hseal
  refine ⟨length_quote_le hnonce ?_, length_quote_le hcipher ?_, length_quote_le htag ?_⟩
  · rw [hn, (b64Decode_eq_ok.1 hnonce).2 _ rfl]
  · rw [hlen.encrypt hencrypt, ← hlen.decrypt hdecrypt]
    exact hle
  · rw [hC.tag_length hencrypt, (b64Decode_eq_ok.1 htag).2 _ rfl]
    exact le_rfl

theorem SealedBox.Fits.size {b b' : SealedBox} (h : b'.Fits b) {j : Json} (hj : parseBox j = .ok b)
    (w w' : JsonFloat → ℕ) : b'.toJson.size w' ≤ j.size w := by
  simp only [parseBox, bind_eq_ok, reject_eq_ok, pure_eq_ok, b64Text_eq_ok, Bool.not_eq_false] at hj
  obtain ⟨_, hkeys, _, halg, nonce, ⟨hn, -⟩, ciphertext, ⟨hc, -⟩, tag, ⟨ht, -⟩, rfl⟩ := hj
  have h1 : _ ≤ (utf8Raw (quote nonce)).length := h.nonce
  have h2 : _ ≤ (utf8Raw (quote ciphertext)).length := h.ciphertext
  have h3 : _ ≤ (utf8Raw (quote tag)).length := h.tag
  rw [Json.size_of_hasKeys (by decide) hkeys]
  simp only [SealedBox.toJson, List.map_cons, List.map_nil, Json.eq_str_of_isStr halg, hn, hc, ht, Json.size,
    Json.sizeMembers]
  omega

theorem size_kdfHeader {salt : Bytes} (hsalt : salt.length = saltLength) (w : JsonFloat → ℕ) :
    (kdfHeader salt).toJson.size w = 107 := by
  have hquote := length_quote_base64 salt
  rw [length_base64Encode, hsalt] at hquote
  simp only [KdfHeader.toJson, kdfHeader, Json.size, Json.sizeMembers, hquote]
  rfl

theorem size_box (b : SealedBox) (w : JsonFloat → ℕ) : b.toJson.size w =
    64 + (utf8Raw (quote b.nonce)).length + (utf8Raw (quote b.ciphertext)).length + (utf8Raw (quote b.tag)).length := by
  have h1 : (utf8Raw (quote (str "algorithm"))).length = 11 := rfl
  have h2 : (utf8Raw (quote aeadAlgorithm)).length = 20 := rfl
  have h3 : (utf8Raw (quote (str "ciphertext"))).length = 12 := rfl
  have h4 : (utf8Raw (quote (str "nonce"))).length = 7 := rfl
  have h5 : (utf8Raw (quote (str "tag"))).length = 5 := rfl
  simp only [SealedBox.toJson, Json.size, Json.sizeMembers, h1, h2, h3, h4, h5]
  omega

/-- A box of the wallet's own, around a text of `n` bytes. -/
theorem size_sealBox (hC : C.Correct) (hlen : C.KeepsLength) {key nonce aad plaintext : Bytes} {b : SealedBox}
    (hseal : sealBox C key nonce aad plaintext = .ok b) (hn : nonce.length = nonceLength) :
    (utf8Raw (quote b.nonce)).length = 34 ∧ (utf8Raw (quote b.ciphertext)).length = (plaintext.length + 2) / 3 * 4 + 2 ∧
      (utf8Raw (quote b.tag)).length = 26 := by
  obtain ⟨ciphertext, tag, hencrypt, rfl⟩ := sealBox_eq_ok hseal
  simp only [length_quote_base64, length_base64Encode, hn, hlen.encrypt hencrypt, hC.tag_length hencrypt, nonceLength]
  simp

/-- The bytes of a container with the wallet's own header, around a payload of `n` bytes. -/
def containerSize (wrap : SealedBox) (n : ℕ) : ℕ :=
  361 + (utf8Raw (quote wrap.nonce)).length + (utf8Raw (quote wrap.ciphertext)).length +
    (utf8Raw (quote wrap.tag)).length + (n + 2) / 3 * 4

theorem length_serialize (hC : C.Correct) (hlen : C.KeepsLength) {c : Container} {salt dek data : Bytes} {p : Payload}
    (hw : c.Written salt) (hboxes : Boxes C dek p c.payload) (hdata : serialize c = .ok data) :
    data.length = containerSize c.wrap p.size := by
  obtain ⟨encoded, nonce, hn, hencoded, hseal⟩ := hboxes
  simp only [sealPayload, bind_eq_ok] at hseal
  obtain ⟨aad, -, hseal⟩ := hseal
  obtain ⟨hnonce, hcipher, htag⟩ := size_sealBox hC hlen hseal hn
  rw [length_encodePayload hencoded] at hcipher
  have h1 : (utf8Raw (quote (str "format"))).length = 8 := rfl
  have h2 : (utf8Raw (quote (str "decent-wallet"))).length = 15 := rfl
  have h3 : (utf8Raw (quote (str "kdf"))).length = 5 := rfl
  have h4 : (utf8Raw (quote (str "payload"))).length = 9 := rfl
  have h5 : (utf8Raw (quote (str "version"))).length = 9 := rfl
  have h6 : (utf8Raw (quote (str "wrap"))).length = 6 := rfl
  have h7 : (intText currentFormatVersion).length = 1 := rfl
  rw [Json.length_dumps (orRaise_eq_ok.1 hdata)]
  simp only [Container.toJson, Json.size, Json.sizeMembers, hw.kdf, hw.version, size_kdfHeader hw.salt, size_box,
    hnonce, hcipher, htag, containerSize, h1, h2, h3, h4, h5, h6, h7]
  omega

/-- A container with the header of an old one, and boxes that fit in the old ones, is not longer. -/
theorem length_serialize_le (hf : C.Floats) {raw data : Bytes} {c old : Container}
    (hparse : parseContainerBody C raw 1 = .ok old) (hdata : serialize c = .ok data) (hkdf : c.kdf = old.kdf)
    (hversion : c.version = currentFormatVersion) (hwrap : c.wrap.Fits old.wrap)
    (hpayload : c.payload.Fits old.payload) : data.length ≤ raw.length ∧ c.kdf.toJson.Legible C.float := by
  obtain ⟨j, hj, hc⟩ := parseContainerBody_eq_ok.1 hparse
  obtain ⟨hsize, hfloats⟩ := size_jsonLoads hf.weighs hj
  obtain ⟨hlegible, hkdf'⟩ := parseKdf_legible hf hc.kdf (hfloats.get _)
  have hwrap' := hwrap.size hc.wrap kdfWeight Json.reprWeight
  have hpayload' := hpayload.size hc.payload kdfWeight Json.reprWeight
  have hone : (j.get "version").size kdfWeight = 1 := by
    have hold := hc.version
    rw [hc.expected] at hold
    cases hv : j.get "version" with
    | int n =>
      rw [hv] at hold
      cases Except.ok.inj hold
      rfl
    | _ => simp [hv, versionOf] at hold
  have htwo : (intText c.version).length = 1 := by
    rw [hversion]
    rfl
  rw [Json.size_of_hasKeys (by decide) hc.keys] at hsize
  rw [hkdf]
  refine ⟨?_, hlegible⟩
  rw [Json.length_dumps (orRaise_eq_ok.1 hdata)]
  simp only [Container.toJson, List.map_cons, List.map_nil, Json.eq_str_of_isStr hc.format, Json.size, Json.sizeMembers,
    hkdf] at hsize hkdf' ⊢
  omega

/-! ### Small ciphers -/

namespace Sample

def password : Str := str "correct horse battery"

/-- The numbers of a header as floats; no other float is a whole number here. -/
def wholeFloat (s : Str) : JsonFloat :=
  ⟨s, true, (kdfNumbers.find? fun n => s = decimal n ++ str ".0").map Int.ofNat⟩

theorem wholeFloat_whole : ∀ n ∈ kdfNumbers,
    wholeFloat (decimal n ++ str ".0") = ⟨decimal n ++ str ".0", true, some n⟩ := by
  decide +kernel

theorem wholeFloat_value {s : Str} {n : ℕ} (h : (wholeFloat s).value = some (n : ℤ)) : s = decimal n ++ str ".0" := by
  simp only [wholeFloat, Option.map_eq_some_iff] at h
  obtain ⟨m, hm, hcast⟩ := h
  have hs := List.find?_some hm
  rw [decide_eq_true_eq] at hs
  rw [hs, Int.ofNat_inj.1 hcast]

/-- A cipher that leaves the text as it is and makes the tag from the associated data and the text, where it can. -/
def tagging (tag : Bytes → Bytes → Option UInt8) : Crypto where
  argon2id _ _ := some (List.replicate 32 7)
  encrypt _ _ aad plaintext := (tag aad plaintext).map fun t => (plaintext, List.replicate 16 t)
  decrypt _ _ aad ciphertext t :=
    if (tag aad ciphertext).map (List.replicate 16) = some t then some ciphertext else none
  publicKey seed := if seed.length = 32 then some seed else none
  sign seed _ := some (seed ++ seed)
  float := wholeFloat
  limit _ := none
  dumpsLimit _ := none
  room := 1000

section

variable {tag : Bytes → Bytes → Option UInt8}

theorem tagging_correct : (tagging tag).Correct where
  decrypt_encrypt h := by
    obtain ⟨t, ht, heq⟩ := Option.map_eq_some_iff.1 h
    cases heq
    simp [tagging, ht]
  tag_length h := by
    obtain ⟨t, -, heq⟩ := Option.map_eq_some_iff.1 h
    cases heq
    rfl
  publicKey_length h := by
    simp only [tagging] at h
    split_ifs at h with hlen
    cases h
    exact hlen
  loads_dumps _ _ _ := rfl
  dumps_container _ _ := rfl

theorem tagging_keepsLength : (tagging tag).KeepsLength where
  encrypt h := by
    obtain ⟨t, -, heq⟩ := Option.map_eq_some_iff.1 h
    cases heq
    rfl
  decrypt h := by
    simp only [tagging] at h
    split_ifs at h
    rw [Option.some.inj h]

theorem tagging_floats : (tagging tag).Floats where
  whole := wholeFloat_whole
  unique n _ t h := by rw [wholeFloat_value h]
  literal n _ t _ h := by
    have hlen : (str ".0").length = 2 := rfl
    rw [wholeFloat_value h, List.length_append, hlen]

end

/-- A checksum. -/
def checked : Crypto := tagging fun aad text => some ((aad ++ text).foldl (· + ·) 0)

theorem checked_correct : checked.Correct := tagging_correct

/-- The place of the associated data in a list; under any other data nothing is sealed. -/
def listed (aads : List Bytes) : Crypto :=
  tagging fun aad _ => if aad ∈ aads then some (UInt8.ofNat (aads.idxOf aad)) else none

theorem listed_bindsAad {aads : List Bytes} (hlen : aads.length ≤ 256) : (listed aads).BindsAad := by
  intro key nonce aad aad' ciphertext tag plaintext plaintext' h h'
  simp only [listed, tagging, Option.ite_none_right_eq_some] at h h'
  have hplace : ∀ {a : Bytes}, Option.map (List.replicate 16)
      (if a ∈ aads then some (UInt8.ofNat (aads.idxOf a)) else none) = some tag →
      a ∈ aads ∧ tag = List.replicate 16 (UInt8.ofNat (aads.idxOf a)) := by
    intro a ha
    split_ifs at ha with hmem
    · exact ⟨hmem, (Option.some.inj ha).symm⟩
    · cases ha
  obtain ⟨hmem, htag⟩ := hplace h.1
  obtain ⟨hmem', htag'⟩ := hplace h'.1
  have hlt := List.idxOf_lt_length_of_mem hmem
  have hlt' := List.idxOf_lt_length_of_mem hmem'
  have hbyte := congrArg UInt8.toNat ((List.replicate_right_inj (by decide)).1 (htag.symm.trans htag'))
  have hsize : UInt8.size = 256 := rfl
  rw [UInt8.toNat_ofNat_of_lt' (by omega), UInt8.toNat_ofNat_of_lt' (by omega)] at hbyte
  exact (List.idxOf_inj hmem).1 hbyte

/-- The header that the wallet writes for the salt of the small machine. -/
def ownHeader : KdfHeader := kdfHeader (List.replicate 16 5)

/-- The same with a float for its first number. -/
def floatHeader : KdfHeader := { ownHeader with memoryKib := .float (wholeFloat (decimal (64 * 1024) ++ str ".0")) }

/-- What can be sealed under these headers with the nonce of the small machine. -/
def aads : List Bytes :=
  [wrapAad ownHeader currentFormatVersion, wrapAad floatHeader currentFormatVersion,
    payloadAad ⟨base64Encode (List.replicate 24 5), [], []⟩ currentFormatVersion].filterMap Except.toOption

def binding : Crypto := listed aads

theorem binding_correct : binding.Correct := tagging_correct

theorem binding_bindsAad : binding.BindsAad :=
  listed_bindsAad ((List.length_filterMap_le _ _).trans (by decide))

end Sample

end DecentWallet
