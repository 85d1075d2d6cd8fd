import DecentWallet.Sanity.Lengths

/-! A container with one of its Base64 texts replaced. The salt and the nonce of the payload are authenticated as texts;
the other five are decoded first, and the decoder takes several texts for the same bytes. -/

namespace DecentWallet

open Raised

variable {σ : Type} {C : Crypto} {M : Machine σ}

/-- An ideal AEAD: what opens was sealed, under one key a nonce seals one box, and no box is sealed twice. -/
structure Crypto.Ideal (C : Crypto) : Prop where
  nonce : ∀ {key nonce aad aad' ciphertext ciphertext' tag tag' plaintext plaintext'},
    C.decrypt key nonce aad ciphertext tag = some plaintext →
      C.decrypt key nonce aad' ciphertext' tag' = some plaintext' → aad = aad' ∧ ciphertext = ciphertext' ∧ tag = tag'
  box : ∀ {key key' nonce nonce' aad aad' ciphertext tag plaintext plaintext'},
    C.decrypt key nonce aad ciphertext tag = some plaintext →
      C.decrypt key' nonce' aad' ciphertext tag = some plaintext' → key = key' ∧ nonce = nonce' ∧ aad = aad'

/-! ### The texts of a container -/

inductive BoxText where
  | nonce
  | ciphertext
  | tag
  deriving DecidableEq, Repr

inductive ContainerText where
  | salt
  | wrap (t : BoxText)
  | payload (t : BoxText)
  deriving DecidableEq, Repr

/-- Texts that are part of some associated data. -/
def ContainerText.authenticated : ContainerText → Bool
  | .salt => true
  | .wrap _ => false
  | .payload t => t = .nonce

def BoxText.key : BoxText → String
  | .nonce => "nonce"
  | .ciphertext => "ciphertext"
  | .tag => "tag"

def BoxText.length : BoxText → Option ℕ
  | .nonce => some nonceLength
  | .ciphertext => none
  | .tag => some tagLength

def ContainerText.length : ContainerText → Option ℕ
  | .salt => some saltLength
  | .wrap t => t.length
  | .payload t => t.length

/-- `v[k] = w`. -/
def Json.set (v : Json) (k : String) (w : Json) : Json :=
  match v with
  | .obj m => .obj (setItem m (DecentWallet.str k) w)
  | v => v

/-- The part of a container's JSON that has the text, and its key there. -/
def ContainerText.part : ContainerText → String
  | .salt => "kdf"
  | .wrap _ => "wrap"
  | .payload _ => "payload"

def ContainerText.key : ContainerText → String
  | .salt => "salt"
  | .wrap t => t.key
  | .payload t => t.key

def ContainerText.read (t : ContainerText) (j : Json) : Json := (j.get t.part).get t.key

def ContainerText.replace (t : ContainerText) (s : Str) (j : Json) : Json :=
  j.set t.part ((j.get t.part).set t.key (.str s))

def SealedBox.text (b : SealedBox) : BoxText → Str
  | .nonce => b.nonce
  | .ciphertext => b.ciphertext
  | .tag => b.tag

def SealedBox.setText (b : SealedBox) (s : Str) : BoxText → SealedBox
  | .nonce => { b with nonce := s }
  | .ciphertext => { b with ciphertext := s }
  | .tag => { b with tag := s }

def Container.text (c : Container) : ContainerText → Str
  | .salt => c.kdf.salt
  | .wrap t => c.wrap.text t
  | .payload t => c.payload.text t

def Container.setText (c : Container) (s : Str) : ContainerText → Container
  | .salt => { c with kdf := { c.kdf with salt := s } }
  | .wrap t => { c with wrap := c.wrap.setText s t }
  | .payload t => { c with payload := c.payload.setText s t }

/-! ### Parsing what was replaced -/

theorem get_setItem {α : Type} (m : List (Str × α)) (k l : Str) (v : α) :
    Assoc.get (setItem m k v) l = if k = l then some v else Assoc.get m l := by
  induction m with
  | nil => simp [setItem, Assoc.get_cons]
  | cons p m ih =>
    by_cases hp : p.1 = k
    · rw [setItem, if_pos hp, Assoc.get_cons, Assoc.get_cons, hp]
      split_ifs <;> rfl
    · rw [setItem, if_neg hp, Assoc.get_cons, Assoc.get_cons, ih]
      by_cases hl : p.1 = l
      · have hk : k ≠ l := fun hk => hp (hl.trans hk.symm)
        simp [hl, hk]
      · simp [hl]

theorem length_setItem {α : Type} {m : List (Str × α)} {k : Str} (v : α) (h : (Assoc.get m k).isSome) :
    (setItem m k v).length = m.length := by
  induction m with
  | nil => simp at h
  | cons p m ih =>
    by_cases hp : p.1 = k
    · rw [setItem, if_pos hp, List.length_cons, List.length_cons]
    · rw [Assoc.get_cons, if_neg hp] at h
      rw [setItem, if_neg hp, List.length_cons, List.length_cons, ih h]

namespace Json

variable {j : Json} {names : List String} {k : String}

theorem get_set (h : j.hasKeys names) (k : String) (w : Json) (l : String) :
    (j.set k w).get l = if k = l then w else j.get l := by
  cases j with
  | obj m =>
    simp only [set, get, get_setItem, str_injective.eq_iff]
    split_ifs <;> rfl
  | _ => simp [hasKeys] at h

theorem hasKeys_set (h : j.hasKeys names) (hk : k ∈ names) (w : Json) : (j.set k w).hasKeys names := by
  cases j with
  | obj m =>
    simp only [hasKeys, Bool.and_eq_true, decide_eq_true_eq, List.all_eq_true] at h
    simp only [set, hasKeys, Bool.and_eq_true, decide_eq_true_eq, List.all_eq_true, get_setItem]
    refine ⟨(length_setItem w (h.2 k hk)).trans h.1, fun l hl => ?_⟩
    split_ifs with hkl
    · rfl
    · exact h.2 l hl
  | _ => simp [hasKeys] at h

end Json

theorem parseBox_eq_ok {j : Json} {b : SealedBox} : parseBox j = .ok b ↔
    j.hasKeys ["algorithm", "nonce", "ciphertext", "tag"] = true ∧ (j.get "algorithm").isStr aeadAlgorithm = true ∧
      ∀ t : BoxText, j.get t.key = .str (b.text t) ∧ ∃ x, b64Decode (b.text t) t.length = .ok x := by
  simp only [parseBox, bind_eq_ok, reject_eq_ok, pure_eq_ok, b64Text_eq_ok, Bool.not_eq_false]
  constructor
  · intro h
    obtain ⟨-, hkeys, -, halg, nonce, hn, ciphertext, hc, tag, ht, rfl⟩ := h
    refine ⟨hkeys, halg, fun t => ?_⟩
    cases t with
    | nonce => exact hn
    | ciphertext => exact hc
    | tag => exact ht
  · intro h
    obtain ⟨hkeys, halg, htexts⟩ := h
    exact ⟨(), hkeys, (), halg, _, htexts .nonce, _, htexts .ciphertext, _, htexts .tag, rfl⟩

theorem SealedBox.ext_text {b b' : SealedBox} (h : ∀ t, b.text t = b'.text t) : b = b' := by
  cases b with
  | mk n c t =>
    cases b' with
    | mk n' c' t' =>
      have hn : n = n' := h .nonce
      have hc : c = c' := h .ciphertext
      have ht : t = t' := h .tag
      rw [hn, hc, ht]

theorem SealedBox.text_setText (b : SealedBox) (s : Str) (t u : BoxText) :
    (b.setText s t).text u = if t = u then s else b.text u := by
  cases t <;> cases u <;> rfl

theorem BoxText.key_inj {t u : BoxText} : t.key = u.key ↔ t = u := by
  cases t <;> cases u <;> decide

theorem parseBox_set {j : Json} {b : SealedBox} (h : parseBox j = .ok b) (t : BoxText) (s : Str) (b' : SealedBox) :
    parseBox (j.set t.key (.str s)) = .ok b' ↔ (∃ x, b64Decode s t.length = .ok x) ∧ b' = b.setText s t := by
  obtain ⟨hkeys, halg, htexts⟩ := parseBox_eq_ok.1 h
  have hmem : t.key ∈ ["algorithm", "nonce", "ciphertext", "tag"] := by cases t <;> decide
  have hne : t.key ≠ "algorithm" := by cases t <;> decide
  rw [parseBox_eq_ok]
  simp only [Json.get_set hkeys, if_neg hne, BoxText.key_inj]
  constructor
  · intro h'
    obtain ⟨-, -, htexts'⟩ := h'
    have hb : b' = b.setText s t := by
      refine SealedBox.ext_text fun u => ?_
      have hu := (htexts' u).1
      rw [SealedBox.text_setText]
      split_ifs at hu ⊢
      · exact (Json.str.inj hu).symm
      · exact Json.str.inj (hu.symm.trans (htexts u).1)
    have ht := (htexts' t).2
    rw [hb, SealedBox.text_setText, if_pos rfl] at ht
    exact ⟨ht, hb⟩
  · intro hyp
    obtain ⟨hs, rfl⟩ := hyp
    refine ⟨Json.hasKeys_set hkeys hmem _, halg, fun u => ?_⟩
    rw [SealedBox.text_setText]
    by_cases htu : t = u
    · subst htu
      simpa using hs
    · simpa [htu] using htexts u

theorem parseKdf_set {j : Json} {k : KdfHeader} (h : parseKdf j = .ok k) (s : Str) (k' : KdfHeader) :
    parseKdf (j.set "salt" (.str s)) = .ok k' ↔ (∃ x, b64Decode s (some saltLength) = .ok x) ∧
    k' = { k with salt := s } := by
  simp only [parseKdf, bind_eq_ok, reject_eq_ok, pure_eq_ok, b64Text_eq_ok, Bool.not_eq_false] at h
  obtain ⟨-, hkeys, -, hnumbers, salt, -, rfl⟩ := h
  have hkeys' := Json.hasKeys_set hkeys (show "salt" ∈ _ by simp) (.str s)
  simp only [parseKdf, bind_eq_ok, reject_eq_ok, pure_eq_ok, b64Text_eq_ok, Bool.not_eq_false, hkeys',
    Json.get_set hkeys]
  simp only [String.reduceEq, if_false, if_true, Json.str.injEq]
  constructor
  · intro hyp
    obtain ⟨-, -, -, -, salt', ⟨rfl, hsalt⟩, rfl⟩ := hyp
    exact ⟨hsalt, rfl⟩
  · intro hyp
    obtain ⟨hsalt, rfl⟩ := hyp
    exact ⟨(), trivial, (), hnumbers, s, ⟨rfl, hsalt⟩, rfl⟩

theorem Json.Container.read {j : Json} {v : ℤ} {c : DecentWallet.Container} (h : j.Container v c) (t : ContainerText) :
    t.read j = .str (c.text t) ∧ ∃ x, b64Decode (c.text t) t.length = .ok x := by
  cases t with
  | salt =>
    have hkdf := h.kdf
    simp only [parseKdf, bind_eq_ok, reject_eq_ok, pure_eq_ok, b64Text_eq_ok] at hkdf
    obtain ⟨-, -, -, -, salt, hsalt, hc⟩ := hkdf
    cases congrArg KdfHeader.salt hc
    exact hsalt
  | wrap t => exact (parseBox_eq_ok.1 h.wrap).2.2 t
  | payload t => exact (parseBox_eq_ok.1 h.payload).2.2 t

theorem Json.Container.replace_iff {j : Json} {v : ℤ} {c : DecentWallet.Container} (h : j.Container v c)
    (t : ContainerText) (s : Str) (c' : DecentWallet.Container) :
    (t.replace s j).Container v c' ↔ (∃ x, b64Decode s t.length = .ok x) ∧ c' = c.setText s t := by
  have hget := Json.get_set h.keys t.part ((j.get t.part).set t.key (.str s))
  have hmem : t.part ∈ ["format", "version", "kdf", "wrap", "payload"] := by cases t <;> simp [ContainerText.part]
  have hkeys := Json.hasKeys_set h.keys hmem ((j.get t.part).set t.key (.str s))
  have hv := h.expected
  obtain ⟨version, kdf, wrap, payload⟩ := c'
  rw [Json.container_iff, ContainerText.replace]
  cases t with
  | salt =>
    simp only [ContainerText.part, ContainerText.key] at hget hkeys ⊢
    simp only [hkeys, hget, String.reduceEq, if_false, if_true, parseKdf_set h.kdf, h.format, h.version, h.wrap,
      h.payload, Except.ok.injEq, true_and, Container.setText, Container.mk.injEq, ContainerText.length]
    grind
  | wrap t =>
    simp only [ContainerText.part, ContainerText.key] at hget hkeys ⊢
    simp only [hkeys, hget, String.reduceEq, if_false, if_true, parseBox_set h.wrap, h.format, h.version, h.kdf,
      h.payload, Except.ok.injEq, true_and, Container.setText, Container.mk.injEq, ContainerText.length]
    grind
  | payload t =>
    simp only [ContainerText.part, ContainerText.key] at hget hkeys ⊢
    simp only [hkeys, hget, String.reduceEq, if_false, if_true, parseBox_set h.payload, h.format, h.version, h.kdf,
      h.wrap, Except.ok.injEq, true_and, Container.setText, Container.mk.injEq, ContainerText.length]
    grind

/-! ### Texts in the associated data -/

theorem text_of_canonicalJson {v v' : Json} {b : Bytes} (h : canonicalJson v = .ok b) (h' : canonicalJson v' = .ok b) :
    v.sortKeys.text = v'.sortKeys.text := by
  have hutf : ∀ {v : Json}, canonicalJson v = .ok b → utf8Decode b = some v.sortKeys.text := by
    intro v h
    rw [canonicalJson, orRaise_eq_ok, Json.dumps] at h
    split_ifs at h
    exact utf8Decode_utf8 h
  exact Option.some.inj ((hutf h).symm.trans (hutf h'))

theorem Json.sortKeys_obj {m : List (Str × Json)} (h : (m.map Prod.fst).Pairwise (· < ·)) :
    sortKeys (.obj m) = .obj (sortMembers m) := by
  have hkeys : (sortMembers m).map Prod.fst = m.map Prod.fst := by
    clear h
    induction m with
    | nil => rfl
    | cons p m ih => simp [sortMembers, ih]
  have hsorted : (sortMembers m).Pairwise fun a b => a.1 ≤ b.1 := (List.pairwise_map.1 (hkeys ▸ h)).imp le_of_lt
  rw [sortKeys, hsorted.insertionSort_eq]

theorem payloadAad_nonce {b b' : SealedBox} {v : ℤ} {aad : Bytes} (h : payloadAad b v = .ok aad)
    (h' : payloadAad b' v = .ok aad) : b.nonce = b'.nonce := by
  have htext := text_of_canonicalJson h h'
  have houter : ([str "format", str "payload", str "version"] : List Str).Pairwise (· < ·) := by decide
  have hinner : ([str "algorithm", str "nonce"] : List Str).Pairwise (· < ·) := by decide
  simp only [Json.sortKeys_obj, List.map_cons, List.map_nil, houter] at htext
  simp only [Json.sortMembers, SealedBox.info, Json.sortKeys_obj, List.map_cons, List.map_nil, hinner, Json.text,
    Json.textMembers] at htext
  simp only [List.append_assoc, List.cons_append, List.append_cancel_left_eq, List.cons.injEq, true_and] at htext
  exact Json.quote_append_inj htext

theorem wrapAad_salt {k : KdfHeader} {s : Str} {v : ℤ} {aad : Bytes} (h : wrapAad k v = .ok aad)
    (h' : wrapAad { k with salt := s } v = .ok aad) : k.salt = s := by
  have htext := text_of_canonicalJson h h'
  have houter : ([str "format", str "kdf", str "version"] : List Str).Pairwise (· < ·) := by decide
  have hinner : ([str "algorithm", str "memory_kib", str "parallelism", str "salt", str "time_cost"] :
      List Str).Pairwise (· < ·) := by decide
  simp only [Json.sortKeys_obj, List.map_cons, List.map_nil, houter] at htext
  simp only [Json.sortMembers, KdfHeader.toJson, Json.sortKeys_obj, List.map_cons, List.map_nil, hinner, Json.text,
    Json.textMembers] at htext
  simp only [List.append_assoc, List.cons_append, List.append_cancel_left_eq, List.cons.injEq, true_and] at htext
  exact Json.quote_append_inj htext

/-! ### Opening what was replaced -/

theorem openBox_one_aad (hC : C.Ideal) {key key' aad aad' plaintext plaintext' : Bytes} {b b' : SealedBox}
    (h : openBox C key b aad = .ok plaintext) (h' : openBox C key' b' aad' = .ok plaintext')
    (hciphertext : b'.ciphertext = b.ciphertext) (htag : b'.tag = b.tag) : aad = aad' := by
  obtain ⟨nonce, ciphertext, tag, -, hc, ht, hd⟩ := openBox_eq_ok.1 h
  obtain ⟨nonce', ciphertext', tag', -, hc', ht', hd'⟩ := openBox_eq_ok.1 h'
  rw [hciphertext] at hc'
  rw [htag] at ht'
  cases hc.symm.trans hc'
  cases ht.symm.trans ht'
  exact (hC.box hd hd').2.2

/-- Under its key and data, a box with another text opens where the text stands for the same bytes. -/
theorem openBox_setText_iff (hC : C.Ideal) {key aad plaintext : Bytes} {b : SealedBox}
    (h : openBox C key b aad = .ok plaintext)
    (t : BoxText) (s : Str) (plaintext' : Bytes) : openBox C key (b.setText s t) aad = .ok plaintext' ↔
      base64Decode s = base64Decode (b.text t) ∧ plaintext' = plaintext := by
  obtain ⟨nonce, ciphertext, tag, hn, hc, ht, hd⟩ := openBox_eq_ok.1 h
  constructor
  · intro h'
    obtain ⟨nonce', ciphertext', tag', hn', hc', ht', hd'⟩ := openBox_eq_ok.1 h'
    cases t with
    | nonce =>
      cases hc.symm.trans hc'
      cases ht.symm.trans ht'
      obtain ⟨-, rfl, -⟩ := hC.box hd hd'
      exact ⟨(b64Decode_eq_ok.1 hn').1.trans (b64Decode_eq_ok.1 hn).1.symm, Option.some.inj (hd'.symm.trans hd)⟩
    | ciphertext =>
      cases hn.symm.trans hn'
      obtain ⟨-, rfl, rfl⟩ := hC.nonce hd hd'
      exact ⟨(b64Decode_eq_ok.1 hc').1.trans (b64Decode_eq_ok.1 hc).1.symm, Option.some.inj (hd'.symm.trans hd)⟩
    | tag =>
      cases hn.symm.trans hn'
      obtain ⟨-, rfl, rfl⟩ := hC.nonce hd hd'
      exact ⟨(b64Decode_eq_ok.1 ht').1.trans (b64Decode_eq_ok.1 ht).1.symm, Option.some.inj (hd'.symm.trans hd)⟩
  · intro hyp
    obtain ⟨hs, rfl⟩ := hyp
    have hsame (n : Option ℕ) : b64Decode s n = b64Decode (b.text t) n := by rw [b64Decode, hs, b64Decode]
    refine openBox_eq_ok.2 ⟨nonce, ciphertext, tag, ?_, ?_, ?_, hd⟩
    · cases t with
      | nonce => exact (hsame _).trans hn
      | _ => exact hn
    · cases t with
      | ciphertext => exact (hsame _).trans hc
      | _ => exact hc
    · cases t with
      | tag => exact (hsame _).trans ht
      | _ => exact ht

section

variable {c : Container} {password : Str} {v : ℤ} {dek : Bytes} {p : Payload}

/-- Another salt is other data for the wrapped key. -/
theorem unwrapDek_salt (hC : C.Ideal) (h : unwrapDek C c password v = .ok dek) {s : Str} {dek' : Bytes}
    (h' : unwrapDek C (c.setText s .salt) password v = .ok dek') : s = c.kdf.salt := by
  obtain ⟨salt, kek, aad, -, -, haad, hopen, -⟩ := unwrapDek_eq_ok.1 h
  obtain ⟨salt', kek', aad', -, -, haad', hopen', -⟩ := unwrapDek_eq_ok.1 h'
  cases openBox_one_aad hC hopen hopen' rfl rfl
  exact (wrapAad_salt haad haad').symm

theorem unwrapDek_wrap_iff (hC : C.Ideal) (h : unwrapDek C c password v = .ok dek) (t : BoxText)
    (s : Str) (dek' : Bytes) :
    unwrapDek C (c.setText s (.wrap t)) password v = .ok dek' ↔
      base64Decode s = base64Decode (c.wrap.text t) ∧ dek' = dek := by
  obtain ⟨salt, kek, aad, hsalt, hkek, haad, hopen, hlen⟩ := unwrapDek_eq_ok.1 h
  rw [unwrapDek_eq_ok]
  constructor
  · intro hyp
    obtain ⟨salt', kek', aad', hsalt', hkek', haad', hopen', -⟩ := hyp
    cases hsalt.symm.trans hsalt'
    cases hkek.symm.trans hkek'
    cases haad.symm.trans haad'
    exact (openBox_setText_iff hC hopen t s dek').1 hopen'
  · intro hyp
    obtain ⟨hs, rfl⟩ := hyp
    exact ⟨salt, kek, aad, hsalt, hkek, haad, (openBox_setText_iff hC hopen t s _).2 ⟨hs, rfl⟩, hlen⟩

theorem decodePayload_nonce (hC : C.Ideal) (h : decodePayload C c dek v = .ok p) {s : Str} {p' : Payload}
    (h' : decodePayload C (c.setText s (.payload .nonce)) dek v = .ok p') : s = c.payload.nonce := by
  obtain ⟨aad, plaintext, haad, hopen, -⟩ := decodePayload_eq_ok.1 h
  obtain ⟨aad', plaintext', haad', hopen', -⟩ := decodePayload_eq_ok.1 h'
  cases openBox_one_aad hC hopen hopen' rfl rfl
  exact payloadAad_nonce haad' haad

theorem decodePayload_setText_iff (hC : C.Ideal) (h : decodePayload C c dek v = .ok p) {t : BoxText} (ht : t ≠ .nonce)
    (s : Str) (p' : Payload) : decodePayload C (c.setText s (.payload t)) dek v = .ok p' ↔
      base64Decode s = base64Decode (c.payload.text t) ∧ p' = p := by
  obtain ⟨aad, plaintext, haad, hopen, hrest⟩ := decodePayload_eq_ok.1 h
  have haad_eq : payloadAad (c.setText s (.payload t)).payload v = .ok aad := by
    cases t with
    | nonce => exact absurd rfl ht
    | _ => exact haad
  rw [decodePayload_eq_ok]
  constructor
  · intro hyp
    obtain ⟨aad', plaintext', haad', hopen', hrest'⟩ := hyp
    cases haad_eq.symm.trans haad'
    obtain ⟨hs, rfl⟩ := (openBox_setText_iff hC hopen t s plaintext').1 hopen'
    exact ⟨hs, Except.ok.inj (hrest'.symm.trans hrest)⟩
  · intro hyp
    obtain ⟨hs, rfl⟩ := hyp
    exact ⟨aad, plaintext, haad_eq, (openBox_setText_iff hC hopen t s _).2 ⟨hs, rfl⟩, hrest⟩

/-- The condition under which another text goes unnoticed. -/
theorem unlock_setText_iff (hC : C.Ideal) (hunwrap : unwrapDek C c password v = .ok dek)
    (hdecode : decodePayload C c dek v = .ok p)
    {t : ContainerText} {s : Str} (hs : s ≠ c.text t) (dek' : Bytes) (p' : Payload) :
    (unwrapDek C (c.setText s t) password v = .ok dek' ∧ decodePayload C (c.setText s t) dek' v = .ok p') ↔
      t.authenticated = false ∧ base64Decode s = base64Decode (c.text t) ∧ dek' = dek ∧ p' = p := by
  cases t with
  | salt =>
    constructor
    · intro h
      exact absurd (unwrapDek_salt hC hunwrap h.1) hs
    · intro h
      cases h.1
  | wrap t =>
    rw [unwrapDek_wrap_iff hC hunwrap]
    constructor
    · intro hyp
      obtain ⟨⟨hdec, rfl⟩, hp⟩ := hyp
      exact ⟨rfl, hdec, rfl, Except.ok.inj (hp.symm.trans hdecode)⟩
    · intro hyp
      obtain ⟨-, hdec, rfl, rfl⟩ := hyp
      exact ⟨⟨hdec, rfl⟩, hdecode⟩
  | payload t =>
    have hkey : unwrapDek C (c.setText s (.payload t)) password v = .ok dek := hunwrap
    rw [hkey, Except.ok.injEq]
    by_cases ht : t = .nonce
    · subst ht
      constructor
      · intro hyp
        obtain ⟨rfl, hp⟩ := hyp
        exact absurd (decodePayload_nonce hC hdecode hp) hs
      · intro h
        cases h.1
    · constructor
      · intro hyp
        obtain ⟨rfl, hp⟩ := hyp
        obtain ⟨hdec, hp⟩ := (decodePayload_setText_iff hC hdecode ht s p').1 hp
        exact ⟨by simpa [ContainerText.authenticated] using ht, hdec, rfl, hp⟩
      · intro hyp
        obtain ⟨-, hdec, rfl, rfl⟩ := hyp
        exact ⟨rfl, (decodePayload_setText_iff hC hdecode ht s _).2 ⟨hdec, rfl⟩⟩

end

/-! ### Opening the file -/

theorem openWallet_opens_iff (hM : M.Working) {h : Host σ} {path : Path} {data : Bytes} {password : Str} {minutes : ℤ}
    (hpassword : validatePassword password none = .ok ()) (hminutes : validateInactivity minutes = .ok ())
    (hdata : h.dataAt path = some data) : (∃ i, (openWallet C M path password minutes h).1 = .ok i) ↔
      data.length ≤ maxContainerBytes ∧ ∃ c dek m, Unlocks C data password c dek m := by
  constructor
  · intro hopen
    obtain ⟨i, hi⟩ := hopen
    obtain ⟨data', c, dek, m, hdata', hlen, hunlocks, -⟩ := openWallet_ok (Prog.run_eq hi)
    cases hdata.symm.trans hdata'
    exact ⟨hlen, c, dek, m, hunlocks⟩
  · intro hopen
    obtain ⟨hlen, c, dek, m, hunlocks⟩ := hopen
    obtain ⟨i, h', hrun, -⟩ := openWallet_working hM hpassword hminutes hdata hlen hunlocks
    exact ⟨i, by rw [hrun]⟩

theorem validated_of_openWallet {h : Host σ} {path : Path} {password : Str} {minutes : ℤ} {i : ℕ}
    (hi : (openWallet C M path password minutes h).1 = .ok i) :
    validatePassword password none = .ok () ∧ validateInactivity minutes = .ok () := by
  have hrun := Prog.run_eq hi
  simp only [openWallet, Prog.bind_ok_iff, Prog.lift_ok_iff] at hrun
  obtain ⟨_, _, ⟨hpassword, -⟩, _, _, ⟨hminutes, -⟩, -⟩ := hrun
  exact ⟨hpassword, hminutes⟩

/-- A file that opens, and one whose container differs in one text: the second opens as well exactly where the text is
none that is authenticated and stands for the same bytes. -/
theorem open_replaced_iff (hC : C.Ideal) (hM : M.Working) {h h' : Host σ} {path : Path} {data data' : Bytes}
    {password : Str} {minutes : ℤ} {j : Json} {t : ContainerText} {s : Str}
    (hdata : h.dataAt path = some data) (hopen : ∃ i, (openWallet C M path password minutes h).1 = .ok i)
    (hj : jsonLoads C invalidContainer data = .ok j) (hdata' : h'.dataAt path = some data')
    (hj' : jsonLoads C invalidContainer data' = .ok (t.replace s j)) (hs : t.read j ≠ .str s) :
    (∃ i, (openWallet C M path password minutes h').1 = .ok i) ↔
      data'.length ≤ maxContainerBytes ∧ t.authenticated = false ∧
        ∃ r, t.read j = .str r ∧ base64Decode s = base64Decode r := by
  obtain ⟨hpassword, hminutes⟩ := validated_of_openWallet hopen.choose_spec
  obtain ⟨-, c, dek, m, hunlocks⟩ := (openWallet_opens_iff hM hpassword hminutes hdata).1 hopen
  obtain ⟨stored, hdecode, hinstall⟩ := hunlocks.content
  obtain ⟨j', hj1, hcontainer⟩ := parseContainerBody_eq_ok.1 hunlocks.parse
  cases hj.symm.trans hj1
  obtain ⟨hread, x, hx⟩ := hcontainer.read t
  rw [hread] at hs ⊢
  have hne : s ≠ c.text t := fun he => hs (by rw [he])
  rw [openWallet_opens_iff hM hpassword hminutes hdata']
  refine and_congr_right fun _ => ?_
  constructor
  · intro hyp
    obtain ⟨c', dek', m', hunlocks'⟩ := hyp
    obtain ⟨j', hj1', hcontainer'⟩ := parseContainerBody_eq_ok.1 hunlocks'.parse
    cases hj'.symm.trans hj1'
    obtain ⟨-, rfl⟩ := (hcontainer.replace_iff t s c').1 hcontainer'
    obtain ⟨stored', hdecode', -⟩ := hunlocks'.content
    obtain ⟨ht, hdec, -⟩ :=
      (unlock_setText_iff hC hunlocks.unwrap hdecode hne dek' stored').1 ⟨hunlocks'.unwrap, hdecode'⟩
    exact ⟨ht, _, rfl, hdec⟩
  · intro hyp
    obtain ⟨ht, r, hr, hdec⟩ := hyp
    cases hr
    obtain ⟨hunwrap, hdecode'⟩ :=
      (unlock_setText_iff hC hunlocks.unwrap hdecode hne dek stored).2 ⟨ht, hdec, rfl, rfl⟩
    have hb64 : b64Decode s t.length = .ok x := by rw [b64Decode, hdec, ← b64Decode, hx]
    have hparse := parseContainerBody_eq_ok.2 ⟨_, hj', (hcontainer.replace_iff t s _).2 ⟨⟨x, hb64⟩, rfl⟩⟩
    exact ⟨c.setText s t, dek, m, hparse, hunwrap, stored, hdecode', hinstall⟩

namespace Sample

def kek : Bytes := List.replicate 32 7

def dek : Bytes := List.replicate 32 5

def nonce : Bytes := List.replicate 24 5

/-- Bytes that are there; none otherwise. -/
def bytesOf (x : Except Raised Bytes) : Bytes := x.toOption.getD []

def wrapData : Bytes := bytesOf (wrapAad ownHeader currentFormatVersion)

def payloadData : Bytes := bytesOf (payloadAad ⟨base64Encode nonce, [], []⟩ currentFormatVersion)

def payloadText : Bytes := bytesOf (encodePayload checked .empty)

def tag : Bytes := List.replicate 16 0

/-- Everything that was ever sealed: key, nonce, associated data, text and tag. -/
def seals : List (Bytes × Bytes × Bytes × Bytes × Bytes) :=
  [(kek, nonce, wrapData, dek, tag), (dek, nonce, payloadData, payloadText, tag)]

/-- The cipher that opens nothing else, and leaves the text as it is. -/
def sealing : Crypto :=
  { checked with decrypt := fun key nonce aad ciphertext tag =>
      if (key, nonce, aad, ciphertext, tag) ∈ seals then some ciphertext else none }

theorem sealing_mem {key nonce aad ciphertext tag plaintext : Bytes}
    (h : sealing.decrypt key nonce aad ciphertext tag = some plaintext) :
    (key, nonce, aad, ciphertext, tag) ∈ seals := by
  by_contra hmem
  simp [sealing, hmem] at h

theorem seals_unique : ∀ a ∈ seals, ∀ b ∈ seals, (a.1 = b.1 ∧ a.2.1 = b.2.1) ∨ a.2.2.2 = b.2.2.2 → a = b := by
  decide +kernel

theorem sealing_ideal : sealing.Ideal where
  nonce h h' := by
    have := seals_unique _ (sealing_mem h) _ (sealing_mem h') (.inl ⟨rfl, rfl⟩)
    simp only [Prod.mk.injEq] at this
    exact this.2.2
  box h h' := by
    have := seals_unique _ (sealing_mem h) _ (sealing_mem h') (.inr rfl)
    simp only [Prod.mk.injEq] at this
    exact ⟨this.1, this.2.1, this.2.2.1⟩

/-- The container of the two boxes. -/
def sealed : Container :=
  ⟨currentFormatVersion, ownHeader, ⟨base64Encode nonce, base64Encode dek, base64Encode tag⟩,
    ⟨base64Encode nonce, base64Encode payloadText, base64Encode tag⟩⟩

/-- A tag of zeros with a spare bit set. -/
def spareBit : Str := str "AAAAAAAAAAAAAAAAAAAAAB=="

theorem loads_serialize {c : Container} (hkdf : c.kdf = ownHeader) (h : (serialize c).toOption.isSome = true) :
    jsonLoads sealing invalidContainer (bytesOf (serialize c)) = .ok c.toJson := by
  cases hc : serialize c with
  | error e => simp [hc, Except.toOption] at h
  | ok data =>
    have hloads := Json.loads_dumps sealing.float (canonical_container hkdf) (orRaise_eq_ok.1 hc)
    obtain ⟨text, htext, hloads⟩ := Option.bind_eq_some_iff.1 hloads
    simp only [jsonLoads, bind_eq_ok, orRaise_eq_ok]
    exact ⟨text, htext, orRaise_eq_ok.2 hloads⟩

def retagged : Container := sealed.setText spareBit (.wrap .tag)

theorem sealed_opens :
    (openWallet sealing machine (str "w") password 5 (holding (bytesOf (serialize sealed)))).1 = .ok 0 := by
  decide +kernel

theorem retagged_opens :
    (openWallet sealing machine (str "w") password 5 (holding (bytesOf (serialize retagged)))).1 = .ok 0 := by
  decide +kernel

theorem sealed_loads : jsonLoads sealing invalidContainer (bytesOf (serialize sealed)) = .ok sealed.toJson :=
  loads_serialize rfl (by decide +kernel)

theorem retagged_loads : jsonLoads sealing invalidContainer (bytesOf (serialize retagged)) =
    .ok ((ContainerText.wrap .tag).replace spareBit sealed.toJson) :=
  loads_serialize (c := retagged) rfl (by decide +kernel)

theorem retagged_differs : (ContainerText.wrap .tag).read sealed.toJson ≠ .str spareBit := by
  intro h
  have hne : base64Encode tag ≠ spareBit := by decide +kernel
  exact hne (Json.str.inj h)

end Sample

theorem open_replaced_iff_retagged :
    (∃ i, (openWallet Sample.sealing Sample.machine (str "w") Sample.password 5
      (Sample.holding (Sample.bytesOf (serialize Sample.retagged)))).1 = .ok i) ↔
      (Sample.bytesOf (serialize Sample.retagged)).length ≤ maxContainerBytes ∧
        (ContainerText.wrap .tag).authenticated = false ∧
        ∃ r, (ContainerText.wrap .tag).read Sample.sealed.toJson = .str r ∧
        base64Decode Sample.spareBit = base64Decode r :=
  open_replaced_iff Sample.sealing_ideal Sample.machine_working (Sample.dataAt_holding _) ⟨0, Sample.sealed_opens⟩
    Sample.sealed_loads (Sample.dataAt_holding _) Sample.retagged_loads Sample.retagged_differs

/-- With a spare bit of the wrapped key's tag set, the container opens under the same password. -/
theorem spare_bit_unnoticed :
    Sample.sealing.Ideal ∧
      jsonLoads Sample.sealing invalidContainer (Sample.bytesOf (serialize Sample.sealed)) = .ok Sample.sealed.toJson ∧
      jsonLoads Sample.sealing invalidContainer (Sample.bytesOf (serialize Sample.retagged)) =
        .ok ((ContainerText.wrap .tag).replace Sample.spareBit Sample.sealed.toJson) ∧
      (ContainerText.wrap .tag).read Sample.sealed.toJson ≠ .str Sample.spareBit ∧
      (openWallet Sample.sealing Sample.machine (str "w") Sample.password 5
        (Sample.holding (Sample.bytesOf (serialize Sample.sealed)))).1 = .ok 0 ∧
      (openWallet Sample.sealing Sample.machine (str "w") Sample.password 5
        (Sample.holding (Sample.bytesOf (serialize Sample.retagged)))).1 = .ok 0 :=
  ⟨Sample.sealing_ideal, Sample.sealed_loads, Sample.retagged_loads, Sample.retagged_differs, Sample.sealed_opens,
    Sample.retagged_opens⟩

end DecentWallet
